import FullStackHex.Cache.RateLimit

/-!
Runs of failed login attempts against the backoff counter. The counter and the
cooldown share one key: an attempt strictly before the end of its lifetime
counts on, any later one starts again at one. From the tenth failure on the
lifetime is the one meant for the twentieth.
-/

namespace FullStackHex

open Concurrent Expiring

namespace Backoff

variable (ip endpoint : String)

def check (w : World) : Except CacheError Unit :=
  (alone .calm (backoffCheck ip endpoint) w).1

def stored (w : World) : Option Nat :=
  w.backoff.get w.now (backoffKey ip endpoint)

/-- The moment at which the counter's key is removed. -/
def blockEnd (w : World) : Option Nat :=
  (w.backoff.entry w.now (backoffKey ip endpoint)).bind Timed.deadline

/-- A failed attempt at time `t`: the increment that ends it. -/
def failedAttempt (w : World) (t : Nat) : World :=
  (alone .calm (backoffIncrement ip endpoint) (w.atTime t)).2

/-- Attempts at the times of the list, each allowed by `backoff_check`, and after
a block no later than the moment at which the block ends. -/
inductive Attempts : World → List Nat → Prop
  | nil (w : World) : Attempts w []
  | cons {w : World} {t : Nat} {ts : List Nat} (later : w.now ≤ t)
      (allowed : check ip endpoint (w.atTime t) = .ok ())
      (atOnce : check ip endpoint w ≠ .ok () →
        ∀ d ∈ blockEnd ip endpoint w, t ≤ d)
      (counted : (alone .calm (backoffIncrement ip endpoint) (w.atTime t)).1 = .ok ())
      (rest : Attempts (failedAttempt ip endpoint w t) ts) : Attempts w (t :: ts)

theorem attempts_cons (w : World) (t : Nat) (ts : List Nat) :
    Attempts ip endpoint w (t :: ts) ↔ w.now ≤ t ∧
      check ip endpoint (w.atTime t) = .ok () ∧
      (check ip endpoint w ≠ .ok () → ∀ d ∈ blockEnd ip endpoint w, t ≤ d) ∧
      (alone .calm (backoffIncrement ip endpoint) (w.atTime t)).1 = .ok () ∧
      Attempts ip endpoint (failedAttempt ip endpoint w t) ts := by
  constructor
  · intro h
    cases h with
    | cons later allowed atOnce counted rest =>
        exact ⟨later, allowed, atOnce, counted, rest⟩
  · rintro ⟨later, allowed, atOnce, counted, rest⟩
    exact .cons later allowed atOnce counted rest

instance decidableAttempts : ∀ w ts, Decidable (Attempts ip endpoint w ts)
  | w, [] => .isTrue (.nil w)
  | w, t :: ts =>
      have := decidableAttempts (failedAttempt ip endpoint w t) ts
      decidable_of_iff' _ (attempts_cons ip endpoint w t ts)

/-- Increments at the times of the list, whether or not an attempt was allowed. -/
inductive Increments : World → List Nat → Prop
  | nil (w : World) : Increments w []
  | cons {w : World} {t : Nat} {ts : List Nat} (later : w.now ≤ t)
      (counted : (alone .calm (backoffIncrement ip endpoint) (w.atTime t)).1 = .ok ())
      (rest : Increments (failedAttempt ip endpoint w t) ts) : Increments w (t :: ts)

theorem increments_cons (w : World) (t : Nat) (ts : List Nat) :
    Increments ip endpoint w (t :: ts) ↔ w.now ≤ t ∧
      (alone .calm (backoffIncrement ip endpoint) (w.atTime t)).1 = .ok () ∧
      Increments ip endpoint (failedAttempt ip endpoint w t) ts := by
  constructor
  · intro h
    cases h with
    | cons later counted rest => exact ⟨later, counted, rest⟩
  · rintro ⟨later, counted, rest⟩
    exact .cons later counted rest

instance decidableIncrements : ∀ w ts, Decidable (Increments ip endpoint w ts)
  | w, [] => .isTrue (.nil w)
  | w, t :: ts =>
      have := decidableIncrements (failedAttempt ip endpoint w t) ts
      decidable_of_iff' _ (increments_cons ip endpoint w t ts)

/-- The state after the first `n` attempts. -/
def after (w : World) (ts : List Nat) (n : Nat) : World :=
  (ts.take n).foldl (failedAttempt ip endpoint) w

/-- After the `n`-th failure the count is `n`, and the tenth and the twentieth
have the documented cooldowns. -/
def Survives (w : World) (ts : List Nat) : Prop :=
  ∀ n, 1 ≤ n → n ≤ ts.length →
    stored ip endpoint (after ip endpoint w ts n) = some n ∧
    (n = 10 → check ip endpoint (after ip endpoint w ts n)
      = .error (.backoffBlocked 300 10 "5min")) ∧
    (n = 20 → check ip endpoint (after ip endpoint w ts n)
      = .error (.backoffBlocked 1800 20 "30min"))

/-- At this count the key lives for as long as `backoff_params` says, and from the fifth
failure on that is also what `backoff_check` reports beside its label. -/
def AgreesWithParams (w : World) (count : Nat) : Prop :=
  blockEnd ip endpoint w = some (w.now + 1000 * (backoffParams count).1) ∧
  (5 ≤ count → check ip endpoint w
    = .error (.backoffBlocked (backoffParams count).1 count (backoffParams count).2))

/-- The lifetime in milliseconds that the script gives the key at this count. -/
def lifetime (count : Nat) : Nat :=
  if count < 5 then 60000 else if count < 10 then 300000 else 1800000

/-- Each attempt comes strictly before the end of the lifetime that the one
before has set; `n` attempts were made, the last one at `last`. -/
def WithinLifetimes : Nat → Nat → List Nat → Prop
  | _, _, [] => True
  | n, last, t :: ts => (n = 0 ∨ t < last + lifetime n) ∧ WithinLifetimes (n + 1) t ts

instance decidableWithinLifetimes : ∀ n last ts, Decidable (WithinLifetimes n last ts)
  | _, _, [] => inferInstanceAs (Decidable True)
  | n, last, t :: ts =>
      have := decidableWithinLifetimes (n + 1) t ts
      inferInstanceAs (Decidable ((n = 0 ∨ t < last + lifetime n) ∧ _))

/-- The key as the `n`-th failure has left it, just now. -/
def Counted (w : World) : Nat → Prop
  | 0 => stored ip endpoint w = none
  | n + 1 => w.backoff (backoffKey ip endpoint)
      = some ⟨n + 1, some (w.now + lifetime (n + 1))⟩

theorem lifetime_pos (n : Nat) : 0 < lifetime n := by
  unfold lifetime
  split
  · decide
  · split <;> decide

variable {ip endpoint}

theorem script_ttl (count : Nat) :
    1000 * (if count = 1 then 60 else if count < 5 then 60 else if count < 10 then 300 else 1800)
      = lifetime count := by
  unfold lifetime
  split_ifs <;> omega

/-- The script adds one to what is stored and renews the lifetime. -/
theorem script_spec {w : World} {key : String}
    (h : (w.backoffIncrement key 60 60 300 1800).1.toOption.isSome) :
    (w.backoffIncrement key 60 60 300 1800).2.now = w.now ∧
    (w.backoffIncrement key 60 60 300 1800).2.backoff key =
      some ⟨(w.backoff.get w.now key).getD 0 + 1,
        some (w.now + lifetime ((w.backoff.get w.now key).getD 0 + 1))⟩ := by
  unfold World.backoffIncrement at h ⊢
  dsimp only at h ⊢
  split at h
  · cases h
  · rename_i d hd
    obtain ⟨_, _, rfl⟩ := deadline_eq_some.mp hd
    refine ⟨rfl, ?_⟩
    dsimp only
    rw [Store.set_self]
    rw [script_ttl]

theorem failedAttempt_spec {w : World} {t : Nat}
    (h : (alone .calm (backoffIncrement ip endpoint) (w.atTime t)).1 = .ok ()) :
    (failedAttempt ip endpoint w t).now = t ∧
    (failedAttempt ip endpoint w t).backoff (backoffKey ip endpoint) =
      some ⟨(stored ip endpoint (w.atTime t)).getD 0 + 1,
        some (t + lifetime ((stored ip endpoint (w.atTime t)).getD 0 + 1))⟩ := by
  rw [alone_backoffIncrement] at h
  unfold failedAttempt
  rw [alone_backoffIncrement]
  refine script_spec ?_
  cases hr : ((w.atTime t).backoffIncrement (backoffKey ip endpoint) 60 60 300 1800).1 with
  | ok n => rfl
  | error err =>
      rw [hr] at h
      cases h

theorem Counted.stored_eq {w : World} {n : Nat} (h : Counted ip endpoint w (n + 1)) :
    stored ip endpoint w = some (n + 1) := by
  have := lifetime_pos (n + 1)
  exact Store.get_eq_some.mpr ⟨_, h, decide_eq_true (by omega), rfl⟩

/-- The count that an attempt at time `t` finds. -/
theorem Counted.stored_atTime {w : World} {n t : Nat} (h : Counted ip endpoint w n)
    (hlater : w.now ≤ t) :
    (stored ip endpoint (w.atTime t)).getD 0
      = if n = 0 ∨ t < w.now + lifetime n then n else 0 := by
  cases n with
  | zero =>
      have hnone : stored ip endpoint (w.atTime t) = none := Store.get_none_of_le hlater h
      simp [hnone]
  | succ n =>
      by_cases ht : t < w.now + lifetime (n + 1)
      · have hsome : stored ip endpoint (w.atTime t) = some (n + 1) :=
          Store.get_eq_some.mpr ⟨_, h, decide_eq_true ht, rfl⟩
        simp [hsome, ht]
      · have hnone : stored ip endpoint (w.atTime t) = none := by
          refine Store.get_eq_none.mpr fun entry hentry => ?_
          cases (show some entry = _ from hentry.symm.trans h)
          exact decide_eq_false ht
        simp [hnone, ht]

/-- One attempt: in time it counts on, late it starts again at one. -/
theorem Counted.step {w : World} {n t : Nat} (h : Counted ip endpoint w n)
    (hlater : w.now ≤ t)
    (hok : (alone .calm (backoffIncrement ip endpoint) (w.atTime t)).1 = .ok ()) :
    Counted ip endpoint (failedAttempt ip endpoint w t)
      (if n = 0 ∨ t < w.now + lifetime n then n + 1 else 1) := by
  obtain ⟨hnow, hkey⟩ := failedAttempt_spec hok
  rw [h.stored_atTime hlater] at hkey
  split
  · rename_i hin
    rw [if_pos hin] at hkey
    unfold Counted
    rw [hkey, hnow]
  · rename_i hout
    rw [if_neg hout] at hkey
    unfold Counted
    rw [hkey, hnow]

/-- What `backoff_check` answers right after the `n`-th failure: blocked for the
whole lifetime from the fifth on. -/
theorem Counted.check_eq {w : World} {n : Nat} (h : Counted ip endpoint w n) (hn : 5 ≤ n) :
    check ip endpoint w
      = .error (.backoffBlocked (lifetime n / 1000) n (backoffParams n).2) := by
  obtain ⟨m, rfl⟩ : ∃ m, n = m + 1 := ⟨n - 1, by omega⟩
  have hentry : w.backoff.entry w.now (backoffKey ip endpoint)
      = some ⟨m + 1, some (w.now + lifetime (m + 1))⟩ := by
    have := lifetime_pos (m + 1)
    exact Store.entry_eq_some.mpr ⟨h, decide_eq_true (by omega)⟩
  have hsecs : (lifetime (m + 1) + 500) / 1000 = lifetime (m + 1) / 1000 := by
    unfold lifetime
    split
    · rfl
    · split <;> rfl
  have hpos : 0 < lifetime (m + 1) / 1000 := by
    unfold lifetime
    split
    · decide
    · split <;> decide
  have hread : (w.backoffRead (backoffKey ip endpoint)).1
      = (((m + 1 : Nat) : Int), ((lifetime (m + 1) / 1000 : Nat) : Int)) := by
    unfold World.backoffRead
    rw [hentry]
    simp only [Nat.add_sub_cancel_left, hsecs]
  unfold check
  rw [alone_backoffCheck, hread]
  unfold backoffVerdict
  rw [if_neg (by omega), if_pos (by omega)]
  simp only [Int.toNat_natCast]

theorem after_succ (w : World) (t : Nat) (ts : List Nat) (n : Nat) :
    after ip endpoint w (t :: ts) (n + 1)
      = after ip endpoint (failedAttempt ip endpoint w t) ts n := rfl

/-- Increments in time count up one by one. -/
theorem Increments.counted {w : World} {ts : List Nat} {n : Nat}
    (hrun : Increments ip endpoint w ts) (h : Counted ip endpoint w n)
    (hin : WithinLifetimes n w.now ts) {m : Nat} (hm : m ≤ ts.length) :
    Counted ip endpoint (after ip endpoint w ts m) (n + m) := by
  induction hrun generalizing n m with
  | nil w =>
      obtain rfl : m = 0 := by simpa using hm
      exact h
  | @cons w t ts later counted rest ih =>
      cases m with
      | zero => exact h
      | succ m =>
          have hstep := h.step later counted
          rw [if_pos hin.1] at hstep
          have hnow := (failedAttempt_spec counted).1
          have := ih hstep (hnow.symm ▸ hin.2) (Nat.le_of_succ_le_succ hm)
          rw [after_succ]
          rwa [Nat.add_right_comm] at this

theorem Attempts.increments {w : World} {ts : List Nat}
    (hrun : Attempts ip endpoint w ts) : Increments ip endpoint w ts := by
  induction hrun with
  | nil w => exact .nil w
  | cons later allowed atOnce counted rest ih => exact .cons later counted ih

/-- A count that is right after every attempt means that each was in time. -/
theorem Attempts.within {w : World} {ts : List Nat} {n : Nat}
    (hrun : Attempts ip endpoint w ts) (h : Counted ip endpoint w n)
    (hcount : ∀ m, 1 ≤ m → m ≤ ts.length →
      stored ip endpoint (after ip endpoint w ts m) = some (n + m)) :
    WithinLifetimes n w.now ts := by
  induction hrun generalizing n with
  | nil w => trivial
  | @cons w t ts later allowed atOnce counted rest ih =>
      have hstep := h.step later counted
      have hfirst := hcount 1 (Nat.le_refl 1) (by simp)
      have hin : n = 0 ∨ t < w.now + lifetime n := by
        by_contra hout
        rw [if_neg hout] at hstep
        have hone := hstep.stored_eq
        rw [show after ip endpoint w (t :: ts) 1 = failedAttempt ip endpoint w t from rfl,
          hone] at hfirst
        exact hout (Or.inl (by simpa using hfirst))
      rw [if_pos hin] at hstep
      refine ⟨hin, ?_⟩
      have hnow := (failedAttempt_spec counted).1
      rw [← hnow]
      refine ih hstep fun m hm hlen => ?_
      have := hcount (m + 1) (by omega) (by simpa using hlen)
      rwa [after_succ, ← Nat.add_assoc, Nat.add_right_comm] at this

/-- The counter survives its own cooldowns exactly as long as every attempt is
made while the key of the one before still lives, and only up to the ninth. -/
theorem survives_iff (ip endpoint : String) (w : World) (ts : List Nat)
    (hnew : stored ip endpoint w = none) (hrun : Attempts ip endpoint w ts) :
    Survives ip endpoint w ts ↔ ts.length < 10 ∧ WithinLifetimes 0 w.now ts := by
  have hstart : Counted ip endpoint w 0 := hnew
  constructor
  · intro hs
    have hin : WithinLifetimes 0 w.now ts :=
      hrun.within hstart fun m hm hlen => by
        simpa using (hs m hm hlen).1
    refine ⟨?_, hin⟩
    by_contra hlong
    have hten := hrun.increments.counted hstart hin (m := 10) (by omega)
    have hcheck := (hs 10 (by omega) (by omega)).2.1 rfl
    rw [hten.check_eq (by omega)] at hcheck
    revert hcheck
    decide
  · rintro ⟨hshort, hin⟩ n hn hlen
    have hcounted := hrun.increments.counted hstart hin hlen
    obtain ⟨m, rfl⟩ : ∃ m, n = m + 1 := ⟨n - 1, by omega⟩
    rw [Nat.zero_add] at hcounted
    exact ⟨hcounted.stored_eq, by omega, by omega⟩

/-- Two attempts one second apart. -/
theorem survives_iff_two :
    Survives "203.0.113.9" "login" (World.initial 0 []) [0, 1000] ↔
      2 < 10 ∧ WithinLifetimes 0 0 [0, 1000] :=
  survives_iff _ _ _ _ rfl (by decide)

/-- Five failures in five seconds block for 300 seconds. The attempt made at the
moment the block ends finds no counter. -/
theorem counter_restarts :
    stored "203.0.113.9" "login" (World.initial 0 []) = none ∧
    Attempts "203.0.113.9" "login" (World.initial 0 []) [0, 1000, 2000, 3000, 4000, 304000] ∧
    ¬ Survives "203.0.113.9" "login" (World.initial 0 [])
      [0, 1000, 2000, 3000, 4000, 304000] := by
  refine ⟨rfl, by decide, fun h => ?_⟩
  have hsix := (h 6 (by decide) (by decide)).1
  revert hsix
  decide

theorem Counted.blockEnd_eq {w : World} {n : Nat} (h : Counted ip endpoint w (n + 1)) :
    blockEnd ip endpoint w = some (w.now + lifetime (n + 1)) := by
  have hentry : w.backoff.entry w.now (backoffKey ip endpoint)
      = some ⟨n + 1, some (w.now + lifetime (n + 1))⟩ := by
    have := lifetime_pos (n + 1)
    exact Store.entry_eq_some.mpr ⟨h, decide_eq_true (by omega)⟩
  unfold blockEnd
  rw [hentry]
  rfl

/-- The two copies of the thresholds give the same lifetime below five and from twenty on. -/
theorem lifetime_eq_params_iff (n : Nat) :
    lifetime n = 1000 * (backoffParams n).1 ↔ n < 5 ∨ 20 ≤ n := by
  unfold lifetime backoffParams
  split_ifs <;> omega

/-- The script keeps the lifetime that `backoff_params` gives exactly for the first four
failures and from the twentieth on: the thresholds of the script are one, five and ten, and
its four lifetimes are those of one, five, ten and twenty failures. -/
theorem agreesWithParams_iff (ip endpoint : String) (w : World) (ts : List Nat)
    (hnew : stored ip endpoint w = none) (hrun : Increments ip endpoint w ts)
    (hin : WithinLifetimes 0 w.now ts) (hn : 1 ≤ ts.length) :
    AgreesWithParams ip endpoint (after ip endpoint w ts ts.length) ts.length ↔
      ts.length < 5 ∨ 20 ≤ ts.length := by
  have hcounted := hrun.counted (n := 0) hnew hin (Nat.le_refl ts.length)
  generalize after ip endpoint w ts ts.length = w' at hcounted ⊢
  rw [Nat.zero_add] at hcounted
  generalize ts.length = n at hn hcounted ⊢
  obtain ⟨m, rfl⟩ : ∃ m, n = m + 1 := ⟨n - 1, by omega⟩
  have hend := hcounted.blockEnd_eq
  rw [← lifetime_eq_params_iff]
  constructor
  · rintro ⟨hlives, -⟩
    rw [hend] at hlives
    have := Option.some.inj hlives
    omega
  · intro hsame
    refine ⟨by rw [hend, hsame], fun hfive => ?_⟩
    rw [hcounted.check_eq hfive, hsame, Nat.mul_div_cancel_left _ (by decide)]

/-- A single failure. -/
theorem agreesWithParams_iff_one :
    AgreesWithParams "203.0.113.9" "login"
      (after "203.0.113.9" "login" (World.initial 0 []) [0] 1) 1 ↔ 1 < 5 ∨ 20 ≤ 1 :=
  agreesWithParams_iff "203.0.113.9" "login" (World.initial 0 []) [0] rfl (by decide)
    (by decide) (by decide)

/-- The fifth failure in five seconds: the label says 60 seconds, the block lasts 300. -/
theorem fifth_failure_blocks_longer :
    stored "203.0.113.9" "login" (World.initial 0 []) = none ∧
    Increments "203.0.113.9" "login" (World.initial 0 []) [0, 1000, 2000, 3000, 4000] ∧
    WithinLifetimes 0 0 [0, 1000, 2000, 3000, 4000] ∧
    check "203.0.113.9" "login"
        (after "203.0.113.9" "login" (World.initial 0 []) [0, 1000, 2000, 3000, 4000] 5)
      = .error (.backoffBlocked 300 5 "60s") ∧
    ¬ AgreesWithParams "203.0.113.9" "login"
        (after "203.0.113.9" "login" (World.initial 0 []) [0, 1000, 2000, 3000, 4000] 5) 5 := by
  refine ⟨rfl, by decide, by decide, by decide, fun h => ?_⟩
  have hfive := h.2 (Nat.le_refl 5)
  revert hfive
  decide

end Backoff

end FullStackHex
