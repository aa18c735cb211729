import FullStackHex.Cache.LimitRange

/-!
The time at which `rate_limit_check` says that a denied key is free again. It adds the lifetime of
the key, which is a minute longer than the window, to the oldest entry; the entry leaves the
window, and makes room, a minute before.
-/

namespace FullStackHex

open Concurrent Expiring SlidingWindow

/-- The answer of a check that let the call through. -/
def Allows (r : Except CacheError RateLimitResult) : Prop :=
  ∃ result, r = .ok result ∧ result.allowed = true

/-- The answer of a check that turned the call away. -/
def Denies (r : Except CacheError RateLimitResult) : Prop :=
  ∃ result, r = .ok result ∧ result.allowed = false

/-- With no other call in between, `resetAt` is the first moment from `now` on at which a call
with this member is let through. -/
def EarliestAllowed (key : String) (window : Duration) (maxRequests : UInt64) (w : World)
    (now resetAt : Nat) (member : String) : Prop :=
  Allows (w.checkAt key window maxRequests resetAt member).1 ∧
    ∀ t, now ≤ t → t < resetAt → Denies (w.checkAt key window maxRequests t member).1

/-- What a sorted set holds after any calls: doubles, and no more than the maximum of them. -/
structure FitsLimit (maxRequests : UInt64) (entries : List (Nat × String)) : Prop where
  doubles : ∀ e ∈ entries, World.toDouble e.1 = e.1
  length_le : entries.length ≤ World.toDouble maxRequests.toNat

variable {maxRequests : UInt64} {entries : List (Nat × String)}

theorem FitsLimit.nil : FitsLimit maxRequests [] := ⟨fun _ he => absurd he List.not_mem_nil, Nat.zero_le _⟩

theorem FitsLimit.sublist {fewer : List (Nat × String)} (h : FitsLimit maxRequests entries)
    (hsub : fewer.Sublist entries) : FitsLimit maxRequests fewer :=
  ⟨fun e he => h.doubles e (hsub.subset he), hsub.length_le.trans h.length_le⟩

theorem FitsLimit.purged (h : FitsLimit maxRequests entries) (limit : Int) :
    FitsLimit maxRequests (World.zremrangebyscore limit entries) := h.sublist List.filter_sublist

theorem FitsLimit.zadd (h : FitsLimit maxRequests entries)
    (hroom : entries.length < World.toDouble maxRequests.toNat) (now : Nat) (member : String) :
    FitsLimit maxRequests (World.zadd entries (World.toDouble now) member) := by
  unfold World.zadd
  constructor
  · intro e he
    rcases List.mem_append.mp he with he | he
    · exact h.doubles e (List.mem_of_mem_filter he)
    · rw [List.mem_singleton.mp he]
      exact World.toDouble_toDouble now
  · have hlength := List.length_filter_le (fun e => decide (e.2 ≠ member)) entries
    rw [List.length_append, List.length_singleton]
    omega

section

variable {w : World} {key member : String} {window : Duration} {now : Nat}

theorem fitsLimit_set {deadline : Option Nat} (h : FitsLimit maxRequests entries) :
    FitsLimit maxRequests ((w.setLimit key ⟨entries, deadline⟩).rateLimitEntries key) := by
  have hentries := @World.setLimit_entries w key ⟨entries, deadline⟩ w.now
  rw [World.atTime_eq_self (World.setLimit_now w key _)] at hentries
  rw [hentries]
  split
  · exact h
  · exact FitsLimit.nil

/-- Time only takes entries away. -/
theorem FitsLimit.later (h : FitsLimit maxRequests (w.rateLimitEntries key)) (hnow : w.now ≤ now) :
    FitsLimit maxRequests ((w.atTime now).rateLimitEntries key) := by
  cases hget : (w.atTime now).rateLimits.get now key with
  | none =>
      unfold World.rateLimitEntries
      rw [World.atTime_now, hget]
      exact FitsLimit.nil
  | some value =>
      have hbefore : w.rateLimits.get w.now key = some value := Store.get_of_le hnow hget
      unfold World.rateLimitEntries at h ⊢
      rw [World.atTime_now, hget]
      rwa [hbefore] at h

/-- What the script preserves. -/
theorem FitsLimit.rateLimit (h : FitsLimit maxRequests (w.rateLimitEntries key)) (start now ttl : Nat)
    (member : String) :
    FitsLimit maxRequests
      ((w.rateLimit key start now maxRequests.toNat ttl member).2.rateLimitEntries key) := by
  have hkept := h.purged start
  by_cases hroom : (World.zremrangebyscore start (w.rateLimitEntries key)).length
      < World.toDouble maxRequests.toNat
  · have hadded := hkept.zadd hroom now member
    simp only [World.rateLimit, if_pos hroom]
    split
    · exact fitsLimit_set hadded
    · exact fitsLimit_set hadded
  · simp only [World.rateLimit, if_neg hroom]
    split
    · have hdel : (w.rateLimits.del key).get w.now key = none := Store.get_del_self _ _ _
      change FitsLimit maxRequests (((w.rateLimits.del key).get w.now key).getD [])
      rw [hdel]
      exact FitsLimit.nil
    · exact fitsLimit_set hkept

@[simp] theorem rateLimit_now (start now max ttl : Nat) (member : String) :
    (w.rateLimit key start now max ttl member).2.now = w.now := by
  unfold World.rateLimit
  dsimp only
  split
  · split <;> rfl
  · split <;> rfl

/-- The script lets a call through only if the new lifetime fits. -/
theorem lifetime_of_allows (hpos : 1 ≤ maxRequests.toNat)
    (h : Allows (w.checkAt key window maxRequests now member).1) :
    ∃ d, deadline now (window.secs + 60).toNat = some d := by
  obtain ⟨result, hresult, hallowed⟩ := h
  rw [World.checkAt_eq] at hresult
  dsimp only at hresult
  by_cases hroom : (World.zremrangebyscore (windowStart now window : Nat)
      ((w.atTime now).rateLimitEntries key)).length < World.toDouble maxRequests.toNat
  · rw [World.rateLimit_room hroom, World.atTime_now] at hresult
    cases hd : deadline now (window.secs + 60).toNat with
    | none =>
        rw [hd] at hresult
        cases hresult
    | some d => exact ⟨d, rfl⟩
  · obtain ⟨oldest, -, -, hscript⟩ := @World.rateLimit_full (w.atTime now) key member
      (windowStart now window) now _ (window.secs + 60).toNat (World.one_le_toDouble hpos) (Nat.not_lt.mp hroom)
    rw [hscript] at hresult
    cases hresult
    cases hallowed

/-- The script turns a call away only if the window is full. -/
theorem full_of_denies (h : Denies (w.checkAt key window maxRequests now member).1) :
    World.toDouble maxRequests.toNat ≤ (World.zremrangebyscore (windowStart now window : Nat)
      ((w.atTime now).rateLimitEntries key)).length := by
  obtain ⟨result, hresult, hallowed⟩ := h
  by_contra hroom
  rw [World.checkAt_eq] at hresult
  dsimp only at hresult
  rw [World.rateLimit_room (Nat.not_le.mp hroom), World.atTime_now] at hresult
  cases hd : deadline now (window.secs + 60).toNat with
  | none =>
      rw [hd] at hresult
      cases hresult
  | some d =>
      rw [hd] at hresult
      cases hresult
      cases hallowed

/-- What one call preserves. -/
theorem FitsLimit.call {s : Limited} {call : LimitCall}
    (h : FitsLimit maxRequests (s.world.rateLimitEntries key))
    (hnow : s.world.now ≤ call.time) :
    FitsLimit maxRequests ((s.call key window maxRequests call).world.rateLimitEntries key) ∧
      (s.call key window maxRequests call).world.now = call.time := by
  cases call with
  | check now member =>
      have hlater := h.later hnow
      have hworld : (s.call key window maxRequests (.check now member)).world
          = (s.world.checkAt key window maxRequests now member).2 := rfl
      rw [hworld, World.checkAt_eq]
      exact ⟨hlater.rateLimit _ _ _ _, rateLimit_now _ _ _ _ _⟩
  | count now =>
      have hlater := h.later hnow
      have hworld : ∃ limit, (s.call key window maxRequests (.count now)).world
          = (s.world.atTime now).rateLimitPurge key limit := ⟨_, rfl⟩
      obtain ⟨limit, hworld⟩ := hworld
      rw [hworld, World.rateLimitPurge_entries, World.rateLimitPurge_now]
      exact ⟨hlater.purged limit, rfl⟩

/-- What a sequence of calls preserves. -/
theorem FitsLimit.calls {s : Limited} {calls : List LimitCall}
    (h : FitsLimit maxRequests (s.world.rateLimitEntries key))
    (hsorted : (s.world.now :: calls.map LimitCall.time).Pairwise (· ≤ ·)) :
    let s' := calls.foldl (Limited.call key window maxRequests) s
    FitsLimit maxRequests (s'.world.rateLimitEntries key) ∧
      s'.world.now ∈ s.world.now :: calls.map LimitCall.time := by
  induction calls generalizing s with
  | nil => exact ⟨h, List.mem_singleton_self _⟩
  | cons call rest ih =>
      rw [List.map_cons, List.pairwise_cons] at hsorted
      obtain ⟨hnext, htime⟩ := @FitsLimit.call _ _ window _ _ h
        (hsorted.1 call.time (List.mem_cons_self ..))
      have hrest := ih hnext (by rw [htime]; exact hsorted.2)
      rw [htime] at hrest
      exact ⟨hrest.1, List.mem_cons_of_mem _ hrest.2⟩

end

/-! ## The minute too many -/

theorem unit_le {n k : Nat} (h : n < 2 ^ (53 + k)) : Rounding.unit 52 n ≤ 2 ^ k := by
  apply Nat.pow_le_pow_right (by omega)
  by_cases hzero : n = 0
  · subst hzero
    simp
  · have := (Nat.log2_lt hzero).mpr h
    omega

theorem lt_toDouble_add {n k : Nat} (h : n < 2 ^ (53 + k)) : n < World.toDouble n + 2 ^ k :=
  (Rounding.lt_round_add n).trans_le (Nat.add_le_add_left (unit_le h) _)

theorem toDouble_le_add {n k : Nat} (h : n < 2 ^ (53 + k)) : World.toDouble n ≤ n + 2 ^ k :=
  (Rounding.round_le n).trans (Nat.add_le_add (Rounding.low_le n) (unit_le h))

/-- The time of the reset is after the moment at which the oldest entry leaves the window, with
all roundings. -/
theorem leaves_before_reset {oldest secs length : Nat} (hlow : 1000 * secs ≤ length)
    (hhigh : length < 1000 * secs + 1000) (hbound : length < 2 ^ 64)
    (hreset : World.toDouble (oldest + World.toDouble (World.toDouble (secs + 60) * 1000)) < 2 ^ 63) :
    oldest + length
      < World.toDouble (oldest + World.toDouble (World.toDouble (secs + 60) * 1000)) := by
  have hpow : World.toDouble (2 ^ 63) = 2 ^ 63 := by decide
  have hsecs := lt_toDouble_add (n := secs + 60) (k := 2) (by omega)
  have hsecs' := toDouble_le_add (n := secs + 60) (k := 2) (by omega)
  have hmillis := lt_toDouble_add (n := World.toDouble (secs + 60) * 1000) (k := 12) (by omega)
  have hsum : oldest + World.toDouble (World.toDouble (secs + 60) * 1000) < 2 ^ 63 := by
    by_contra hbig
    have := World.toDouble_mono (Nat.not_lt.mp hbig)
    omega
  have htotal := lt_toDouble_add (k := 10) hsum
  omega

section

variable {key member : String} {window : Duration} {now : Nat}

theorem windowStart_of_le (h : window.asMillis ≤ now) (hnow : now < 2 ^ 64) :
    windowStart now window = now - window.asMillis := by
  unfold windowStart
  omega

/-- When the oldest entry has left the window there is room, if the key is still alive or not. -/
theorem room_after {entries : List (Nat × String)} (h : FitsLimit maxRequests entries) {oldest : Nat}
    (hmem : oldest ∈ entries.map Prod.fst) (alive : Bool) (hpos : 1 ≤ maxRequests.toNat) :
    (World.zremrangebyscore oldest (if alive then entries else [])).length
      < World.toDouble maxRequests.toNat := by
  rw [World.zremrangebyscore_start]
  cases alive with
  | true =>
      obtain ⟨e, he, rfl⟩ := List.mem_map.mp hmem
      have hshort : (entries.filter fun e' => decide (World.toDouble e.1 < e'.1)).length
          < entries.length :=
        List.length_filter_lt_length_iff_exists.mpr ⟨e, he, by simp [h.doubles e he]⟩
      exact hshort.trans_le h.length_le
  | false => exact World.one_le_toDouble hpos

/-- After a denial the moment it tells is not the earliest. -/
theorem FitsLimit.not_earliest {w : World}
    (h : FitsLimit maxRequests ((w.atTime now).rateLimitEntries key))
    (hepoch : window.asMillis ≤ now) (hclock : now < 2 ^ 64) (hpos : 1 ≤ maxRequests.toNat)
    {result : RateLimitResult}
    (hresult : (w.checkAt key window maxRequests now member).1 = .ok result)
    (hdenied : result.allowed = false) (next : String) :
    ¬ EarliestAllowed key window maxRequests (w.checkAt key window maxRequests now member).2
      now result.resetAt next := by
  have hlow : 1000 * window.secs.toNat ≤ window.asMillis := by
    unfold Duration.asMillis
    omega
  have hhigh := window.asMillis_lt
  have httl : (window.secs + 60).toNat = window.secs.toNat + 60 := toNat_lifetime (by omega)
  have hfull := full_of_denies ⟨result, hresult, hdenied⟩
  have hkept := h.purged (windowStart now window : Nat)
  obtain ⟨oldest, hmem, -, hscript⟩ := @World.rateLimit_full (w.atTime now) key member
    (windowStart now window) now _ (window.secs.toNat + 60) (World.one_le_toDouble hpos) hfull
  rw [World.checkAt_eq, httl] at hresult ⊢
  dsimp only at hresult ⊢
  rw [hscript] at hresult ⊢
  obtain rfl := Except.ok.inj hresult
  dsimp only [World.luaReply]
  rintro ⟨hallowed, hearlier⟩
  split at hallowed
  · rename_i hreset
    rw [if_pos hreset] at hearlier
    have hleaves := leaves_before_reset hlow (by omega) (by omega) hreset
    have hold : now < oldest + window.asMillis := by
      by_contra hlate
      obtain ⟨e, he, rfl⟩ := List.mem_map.mp hmem
      rw [World.zremrangebyscore_start, windowStart_of_le hepoch hclock] at he
      have hafter := of_decide_eq_true (List.mem_filter.mp he).2
      have hmono := World.toDouble_mono (show e.1 ≤ now - window.asMillis by omega)
      have hdouble := h.doubles e (List.mem_of_mem_filter he)
      omega
    have hdenies := full_of_denies (hearlier (oldest + window.asMillis) hold.le (by omega))
    rw [windowStart_of_le (Nat.le_add_left _ _) (by omega), Nat.add_sub_cancel,
      World.setLimit_entries] at hdenies
    exact absurd hdenies (Nat.not_le.mpr (room_after hkept hmem _ hpos))
  · obtain ⟨d, hd⟩ := lifetime_of_allows hpos hallowed
    obtain ⟨-, hfits, -⟩ := deadline_eq_some.mp hd
    have hmoment : ((-2 ^ 63 : Int) % 2 ^ 64).toNat = 2 ^ 63 := by decide
    omega

/-- No denial ever tells the moment from which calls are allowed again: the entry that has to go
leaves the window before, or the moment is past what EXPIRE accepts. -/
theorem resetAt_never_earliest (w : World) (calls : List LimitCall)
    (hempty : w.rateLimits.get w.now key = none)
    (hsorted : (w.now :: (calls.map LimitCall.time ++ [now])).Pairwise (· ≤ ·))
    (hepoch : ∀ t ∈ calls.map LimitCall.time ++ [now], window.asMillis ≤ t)
    (hclock : now < 2 ^ 64) (hpos : 1 ≤ maxRequests.toNat) (result : RateLimitResult)
    (hresult : ((Limited.run key window maxRequests w calls).world.checkAt key window maxRequests
      now member).1 = .ok result)
    (hdenied : result.allowed = false) (next : String) :
    ¬ EarliestAllowed key window maxRequests
      ((Limited.run key window maxRequests w calls).world.checkAt key window maxRequests
        now member).2 now result.resetAt next := by
  have hnone : w.rateLimitEntries key = [] := by simp [World.rateLimitEntries, hempty]
  have hstart : FitsLimit maxRequests (w.rateLimitEntries key) := hnone ▸ FitsLimit.nil
  rw [← List.cons_append, List.pairwise_append] at hsorted
  obtain ⟨hcalls, -, hlast⟩ := hsorted
  obtain ⟨hfits, htime⟩ := @FitsLimit.calls _ key window ⟨w, []⟩ _ hstart hcalls
  have hnow := hlast _ htime now (List.mem_singleton_self _)
  exact (hfits.later hnow).not_earliest
    (hepoch now (List.mem_append_right _ (List.mem_singleton_self _))) hclock hpos hresult hdenied
    next

end

/-- One request a minute, and a second one a millisecond after the first: it is told to come back
two minutes after the first one. -/
theorem resetAt_never_earliest_sample :
    ¬ EarliestAllowed "login:ann" (.ofSecs 60) 1
      ((Limited.run "login:ann" (.ofSecs 60) 1 (.initial 100000 []) [.check 100000 "a"]).world.checkAt
        "login:ann" (.ofSecs 60) 1 100001 "b").2 100001 220000 "c" :=
  @resetAt_never_earliest _ _ "b" _ _ (.initial 100000 []) [.check 100000 "a"] rfl (by decide)
    (by decide) (by decide) (by decide) ⟨false, 0, 220000⟩
    (by decide +kernel) rfl "c"

/-- One minute after the first request a call is let through, a minute before the moment told. -/
theorem allowed_before_reset :
    let s := Limited.run "login:ann" (.ofSecs 60) 1 (.initial 100000 []) [.check 100000 "a"]
    let denied := s.world.checkAt "login:ann" (.ofSecs 60) 1 100001 "b"
    denied.1 = .ok ⟨false, 0, 220000⟩ ∧
      (denied.2.checkAt "login:ann" (.ofSecs 60) 1 160000 "c").1 = .ok ⟨true, 0, 0⟩ ∧
      ¬ EarliestAllowed "login:ann" (.ofSecs 60) 1 denied.2 100001 220000 "c" := by
  have hallowed : (((Limited.run "login:ann" (.ofSecs 60) 1 (.initial 100000 [])
      [.check 100000 "a"]).world.checkAt "login:ann" (.ofSecs 60) 1 100001 "b").2.checkAt
        "login:ann" (.ofSecs 60) 1 160000 "c").1 = .ok ⟨true, 0, 0⟩ := by
    decide +kernel
  refine ⟨by decide +kernel, hallowed, fun h => ?_⟩
  obtain ⟨result, hresult, hdenied⟩ := h.2 160000 (by decide) (by decide)
  obtain rfl := Except.ok.inj (hresult.symm.trans hallowed)
  cases hdenied

end FullStackHex
