import FullStackHex.Cache.RateLimitRuns
import FullStackHex.Library.Rounding

/-!
The numbers of `rate_limit_check` and `rate_limit_count` at the ends of their ranges: the clock,
the window and the maximum are any 64-bit values, the subtraction may wrap around, the script
calculates with doubles, and EXPIRE and the replies are signed.
-/

namespace FullStackHex

open Concurrent Expiring SlidingWindow

namespace World

theorem toDouble_eq_round (n : Nat) : toDouble n = Rounding.round 52 n := rfl

theorem toDouble_mono {m n : Nat} (h : m ≤ n) : toDouble m ≤ toDouble n := Rounding.round_mono h

@[simp] theorem toDouble_toDouble (n : Nat) : toDouble (toDouble n) = toDouble n :=
  Rounding.round_round n

theorem one_le_toDouble {n : Nat} (h : 1 ≤ n) : 1 ≤ toDouble n := by
  have hone : toDouble 1 = 1 := rfl
  rw [← hone]
  exact toDouble_mono h

/-- What ZREMRANGEBYSCORE leaves up to the start of a window. -/
theorem zremrangebyscore_start (start : Nat) (entries : List (Nat × String)) :
    zremrangebyscore start entries = entries.filter fun e => toDouble start < e.1 := by
  unfold zremrangebyscore
  apply List.filter_congr
  intro e _
  have hneg : ¬ ((start : Int) < 0) := by omega
  simp [hneg]

variable {w : World} {key member : String} {start now max ttl : Nat}

/-- The script with room for another entry. -/
theorem rateLimit_room
    (hroom : (zremrangebyscore start (w.rateLimitEntries key)).length < toDouble max) :
    (w.rateLimit key start now max ttl member).1 =
      match deadline w.now ttl with
      | none => .error (invalidExpire "expire")
      | some _ => .ok (1, luaReply (toDouble (toDouble
          (toDouble max - (zremrangebyscore start (w.rateLimitEntries key)).length) - 1)), 0) := by
  simp only [rateLimit, if_pos hroom]
  cases deadline w.now ttl <;> rfl

/-- The script without room: it reads the oldest entry, which is there if the maximum is not
zero. -/
theorem rateLimit_full (hpos : 1 ≤ toDouble max)
    (hfull : toDouble max ≤ (zremrangebyscore start (w.rateLimitEntries key)).length) :
    ∃ oldest ∈ (zremrangebyscore start (w.rateLimitEntries key)).map Prod.fst,
      (∀ score ∈ (zremrangebyscore start (w.rateLimitEntries key)).map Prod.fst,
        oldest ≤ score) ∧
      w.rateLimit key start now max ttl member =
        (.ok (0, 0, luaReply (toDouble (oldest + toDouble (toDouble ttl * 1000)))),
          w.setLimit key ⟨zremrangebyscore start (w.rateLimitEntries key),
            (w.rateLimits.entry w.now key).bind Timed.deadline⟩) := by
  have hroom : ¬ (zremrangebyscore start (w.rateLimitEntries key)).length < toDouble max := by
    omega
  simp only [rateLimit, if_neg hroom]
  cases hkept : zremrangebyscore start (w.rateLimitEntries key) with
  | nil =>
      rw [hkept] at hfull
      have : toDouble max ≤ 0 := hfull
      omega
  | cons e rest =>
      obtain ⟨hmem, hmin⟩ := List.min?_eq_some_iff.mp
        (show (e.1 :: rest.map Prod.fst).min? = some _ from List.min?_cons')
      exact ⟨_, hmem, hmin, rfl⟩

/-- The script on an empty set when the maximum is zero: there is no oldest entry. -/
theorem rateLimit_zero (hmax : toDouble max = 0)
    (hempty : (zremrangebyscore start (w.rateLimitEntries key)).length = 0) :
    (w.rateLimit key start now max ttl member).1
      = .error (.commandFailed "ERR attempt to perform arithmetic on a nil value") := by
  have hkept := List.length_eq_zero_iff.mp hempty
  simp only [rateLimit, hkept, hmax]
  rfl

theorem rateLimitPurge_entries (limit : Int) :
    (w.rateLimitPurge key limit).rateLimitEntries key
      = zremrangebyscore limit (w.rateLimitEntries key) := by
  have hself : w.atTime w.now = w := atTime_eq_self rfl
  unfold rateLimitPurge
  cases hentry : w.rateLimits.entry w.now key with
  | none =>
      have hnone : w.rateLimitEntries key = [] := by simp [rateLimitEntries, Store.get, hentry]
      rw [hnone]
      rfl
  | some t =>
      obtain ⟨hraw, hlive⟩ := Store.entry_eq_some.mp hentry
      have hvalue : w.rateLimitEntries key = t.value := by
        simp [rateLimitEntries, Store.get, hentry]
      rw [hvalue]
      dsimp only
      split
      · rename_i hempty
        rw [List.isEmpty_iff.mp hempty]
        have hdel : (w.rateLimits.del key).get w.now key = none := Store.get_del_self _ _ _
        exact congrArg (fun entries => entries.getD []) hdel
      · have hset := @setLimit_entries w key
          { t with value := zremrangebyscore limit t.value } w.now
        exact hset.trans (if_pos hlive)

end World

/-- The sorted set of a key after calls at these times, with the members that they drew. -/
structure CallsRecorded (w : World) (key : String) (now : Nat) (calls : List (Nat × String)) : Prop where
  entries : (w.atTime now).rateLimitEntries key
    = calls.map fun call => (World.toDouble call.1, call.2)
  past : ∀ call ∈ calls, call.1 ≤ now
  members : (calls.map Prod.snd).Nodup

/-- Both functions calculate as with exact integers, whatever was recorded before: nothing wraps
around, the script answers, the verdict is that of the exact times, and the time of the reset
fits its reply. -/
structure Exactly (now : Nat) (secs maxRequests : UInt64) : Prop where
  start : windowStart now (.ofSecs secs) + 1000 * secs.toNat = now
  lifetime : (secs + 60).toNat = secs.toNat + 60
  check : ∀ w key calls member, CallsRecorded w key now calls →
    ∃ r, (w.checkAt key (.ofSecs secs) maxRequests now member).1 = .ok r ∧
      r.allowed = decide (counted (1000 * secs.toNat) now (calls.map Prod.fst) < maxRequests.toNat) ∧
      r.resetAt < 2 ^ 63
  count : ∀ w key calls, CallsRecorded w key now calls →
    (w.countAt key (.ofSecs secs) now).1
      = .ok (counted (1000 * secs.toNat) now (calls.map Prod.fst))

/-- The clock shows at least one window, the end of the lifetime fits 63 bits, and the maximum is
not zero; for a window that is not empty, the maximum is a double, the start of the window is
told from the millisecond after it, and the latest reset fits 63 bits as well. -/
structure InRange (now : Nat) (secs maxRequests : UInt64) : Prop where
  start : 1000 * secs.toNat ≤ now
  lifetime : now + 1000 * (secs.toNat + 60) < 2 ^ 63
  positive : 1 ≤ maxRequests.toNat
  double : secs.toNat ≠ 0 → World.toDouble maxRequests.toNat = maxRequests.toNat
  apart : secs.toNat ≠ 0 → World.toDouble (now - 1000 * secs.toNat)
    < World.toDouble (now - 1000 * secs.toNat + 1)
  reset : secs.toNat ≠ 0 → World.toDouble (World.toDouble now
    + World.toDouble (World.toDouble (secs.toNat + 60) * 1000)) < 2 ^ 63

theorem asMillis_ofSecs (secs : UInt64) : (Duration.ofSecs secs).asMillis = 1000 * secs.toNat := by
  change secs.toNat * 1000 + 0 / 1000000 = _
  omega

theorem windowStart_ofSecs {now : Nat} {secs : UInt64} (h : 1000 * secs.toNat ≤ now)
    (hnow : now < 2 ^ 64) : windowStart now (.ofSecs secs) = now - 1000 * secs.toNat := by
  unfold windowStart
  rw [asMillis_ofSecs]
  omega

theorem toNat_lifetime {secs : UInt64} (h : secs.toNat + 60 < 2 ^ 64) :
    (secs + 60).toNat = secs.toNat + 60 := by
  rw [UInt64.toNat_add]
  exact Nat.mod_eq_of_lt h

section

variable {w : World} {key member : String} {now start : Nat} {calls : List (Nat × String)}
  {secs maxRequests : UInt64}

/-- How many entries the script keeps. -/
theorem CallsRecorded.kept_length (h : CallsRecorded w key now calls) (start : Nat) :
    (World.zremrangebyscore start ((w.atTime now).rateLimitEntries key)).length
      = (calls.map Prod.fst).countP fun a => World.toDouble start < World.toDouble a := by
  rw [World.zremrangebyscore_start, h.entries, List.filter_map, List.length_map, List.countP_map,
    List.countP_eq_length_filter]
  rfl

/-- Doubles tell the recorded times before the window from those in it. -/
theorem InRange.separates (h : InRange now secs maxRequests) {a : Nat} (ha : a ≤ now) :
    World.toDouble (now - 1000 * secs.toNat) < World.toDouble a ↔ now < a + 1000 * secs.toNat := by
  have hstart := h.start
  constructor
  · intro hlt
    by_contra hout
    have hmono := World.toDouble_mono (show a ≤ now - 1000 * secs.toNat by omega)
    omega
  · intro hin
    have hapart := h.apart (by omega)
    have hmono := World.toDouble_mono (show now - 1000 * secs.toNat + 1 ≤ a by omega)
    omega

theorem InRange.kept (h : InRange now secs maxRequests) (hrec : CallsRecorded w key now calls) :
    (World.zremrangebyscore (now - 1000 * secs.toNat : Nat)
        ((w.atTime now).rateLimitEntries key)).length
      = counted (1000 * secs.toNat) now (calls.map Prod.fst) := by
  rw [hrec.kept_length]
  unfold counted
  apply List.countP_congr
  intro a ha
  obtain ⟨call, hcall, rfl⟩ := List.mem_map.mp ha
  have hpast := hrec.past call hcall
  simp only [decide_eq_true_eq, h.separates hpast]
  omega

/-- An empty window counts nothing. -/
theorem counted_zero (now : Nat) (past : List Nat) : counted 0 now past = 0 := by
  unfold counted
  rw [List.countP_eq_zero]
  intro a _
  simp only [decide_eq_true_eq]
  omega

theorem InRange.exactly (h : InRange now secs maxRequests) : Exactly now secs maxRequests := by
  have hstart := h.start
  have hlifetime := h.lifetime
  have hws := windowStart_ofSecs hstart (by omega)
  have httl : ((Duration.ofSecs secs).secs + 60).toNat = secs.toNat + 60 :=
    toNat_lifetime (show secs.toNat + 60 < 2 ^ 64 by omega)
  refine ⟨by omega, httl, ?_, ?_⟩
  · intro w key calls member hrec
    have hkept := h.kept hrec
    rw [World.checkAt_eq, hws, httl]
    have hsame : counted (1000 * secs.toNat) now (calls.map Prod.fst)
          < World.toDouble maxRequests.toNat
        ↔ counted (1000 * secs.toNat) now (calls.map Prod.fst) < maxRequests.toNat := by
      by_cases hzero : secs.toNat = 0
      · rw [hzero, Nat.mul_zero, counted_zero]
        have := World.one_le_toDouble h.positive
        have := h.positive
        omega
      · rw [h.double hzero]
    by_cases hroom : counted (1000 * secs.toNat) now (calls.map Prod.fst) < maxRequests.toNat
    · have hscript := @World.rateLimit_room (w.atTime now) key member
        (now - 1000 * secs.toNat) now maxRequests.toNat (secs.toNat + 60) (by rw [hkept]; exact hsame.mpr hroom)
      have hd : deadline now (secs.toNat + 60) = some (now + 1000 * (secs.toNat + 60)) :=
        deadline_eq_some.mpr ⟨by omega, hlifetime, rfl⟩
      rw [World.atTime_now, hd] at hscript
      dsimp only
      rw [hscript]
      exact ⟨_, rfl, (decide_eq_true hroom).symm,
        show ((0 : Int) % 2 ^ 64).toNat < 2 ^ 63 by decide⟩
    · have hzero : secs.toNat ≠ 0 := by
        intro hzero
        rw [hzero, Nat.mul_zero, counted_zero] at hroom
        exact hroom h.positive
      obtain ⟨oldest, hmem, -, hscript⟩ := @World.rateLimit_full (w.atTime now) key member
        (now - 1000 * secs.toNat) now maxRequests.toNat (secs.toNat + 60) (World.one_le_toDouble h.positive)
        (by rw [hkept]; have := mt hsame.mp hroom; omega)
      have hold : oldest ≤ World.toDouble now := by
        obtain ⟨e, he, rfl⟩ := List.mem_map.mp hmem
        have hin := List.mem_of_mem_filter he
        rw [hrec.entries] at hin
        obtain ⟨call, hcall, rfl⟩ := List.mem_map.mp hin
        exact World.toDouble_mono (hrec.past call hcall)
      have hfits := (World.toDouble_mono (Nat.add_le_add_right hold _)).trans_lt (h.reset hzero)
      rw [hscript]
      refine ⟨_, rfl, (decide_eq_false hroom).symm, ?_⟩
      dsimp only [World.luaReply]
      rw [if_pos hfits]
      omega
  · intro w key calls hrec
    have hlimit : (if windowStart now (.ofSecs secs) < 2 ^ 63
        then (windowStart now (.ofSecs secs) : Int)
        else windowStart now (.ofSecs secs) - 2 ^ 64) = (now - 1000 * secs.toNat : Nat) := by
      rw [hws, if_pos (by omega)]
    simp only [World.countAt, rateLimitCount, alone_bind, alone_mk, alone_lift,
      Program.run_command, Program.run_ret, World.exec, World.answer_none, Choice.calm_fault,
      World.atTime_now, hlimit, World.rateLimitPurge_entries, h.kept hrec]

/-! ## Which sets show the limits -/

/-- So many calls at one moment. -/
def crowd (t k : Nat) : List (Nat × String) :=
  (List.range k).map fun i => (t, String.ofList (List.replicate i 'a'))

/-- A world with these calls recorded. -/
def recordedAt (key : String) (now : Nat) (calls : List (Nat × String)) : World :=
  (World.initial now []).setLimit key
    ⟨calls.map fun call => (World.toDouble call.1, call.2), some (now + 1)⟩

theorem recorded_crowd {t k : Nat} (key : String) (h : t ≤ now) :
    CallsRecorded (recordedAt key now (crowd t k)) key now (crowd t k) := by
  constructor
  · unfold recordedAt
    rw [World.setLimit_entries]
    exact if_pos (decide_eq_true (Nat.lt_succ_self now))
  · intro call hcall
    obtain ⟨i, -, rfl⟩ := List.mem_map.mp hcall
    exact h
  · unfold crowd
    rw [List.map_map]
    apply List.Nodup.map _ List.nodup_range
    intro i j hij
    have := congrArg String.length hij
    simpa using this

theorem crowd_times (t k : Nat) : (crowd t k).map Prod.fst = List.replicate k t := by
  unfold crowd
  rw [List.map_map]
  exact List.ext_getElem (by simp) (by simp)

theorem counted_crowd {length t k : Nat} (hin : now < t + length) (ht : t ≤ now) :
    counted length now ((crowd t k).map Prod.fst) = k := by
  rw [crowd_times]
  unfold counted
  rw [List.countP_replicate, if_pos (by simp [hin, ht])]

/-- The script on a crowd keeps all of it, or nothing. -/
theorem kept_crowd {t k : Nat} (key : String) (h : t ≤ now) (start : Nat) :
    (World.zremrangebyscore start
        (((recordedAt key now (crowd t k)).atTime now).rateLimitEntries key)).length
      = if World.toDouble start < World.toDouble t then k else 0 := by
  rw [(recorded_crowd key h).kept_length, crowd_times, List.countP_replicate]
  simp

namespace Exactly

variable (h : Exactly now secs maxRequests)
include h

theorem start_le : 1000 * secs.toNat ≤ now := by
  have := h.start
  omega

theorem windowStart_eq : windowStart now (.ofSecs secs) = now - 1000 * secs.toNat := by
  have := h.start
  omega

/-- The check of a crowd, by the verdict of the script. -/
theorem check_crowd {t k : Nat} (ht : t ≤ now) :
    ∃ reply, (((recordedAt "k" now (crowd t k)).atTime now).rateLimit "k"
        (now - 1000 * secs.toNat) now maxRequests.toNat (secs.toNat + 60) "").1 = .ok reply ∧
      (reply.1 == 1)
        = decide (counted (1000 * secs.toNat) now ((crowd t k).map Prod.fst) < maxRequests.toNat) ∧
      (reply.2.2 % 2 ^ 64).toNat < 2 ^ 63 := by
  obtain ⟨r, hr, hallowed, hreset⟩ :=
    h.check _ "k" (crowd t k) "" (recorded_crowd "k" ht)
  rw [World.checkAt_eq, h.windowStart_eq] at hr
  have httl : ((Duration.ofSecs secs).secs + 60).toNat = secs.toNat + 60 := h.lifetime
  rw [httl] at hr
  dsimp only at hr
  cases hscript : (((recordedAt "k" now (crowd t k)).atTime now).rateLimit "k"
      (now - 1000 * secs.toNat) now maxRequests.toNat (secs.toNat + 60) "").1 with
  | error e =>
      rw [hscript] at hr
      cases hr
  | ok reply =>
      rw [hscript] at hr
      have hr := Except.ok.inj hr
      subst hr
      exact ⟨reply, rfl, hallowed, hreset⟩

theorem positive : 1 ≤ maxRequests.toNat := by
  by_contra hzero
  have hmax : maxRequests.toNat = 0 := by omega
  obtain ⟨reply, hreply, -⟩ := h.check_crowd (t := now) (k := 0) le_rfl
  have hkept := kept_crowd (k := 0) "k" (le_refl now) (now - 1000 * secs.toNat)
  rw [ite_self] at hkept
  rw [World.rateLimit_zero (by rw [hmax]; rfl) hkept] at hreply
  cases hreply

theorem lifetime_lt : now + 1000 * (secs.toNat + 60) < 2 ^ 63 := by
  obtain ⟨reply, hreply, -⟩ := h.check_crowd (t := now) (k := 0) le_rfl
  have hkept := kept_crowd (k := 0) "k" (le_refl now) (now - 1000 * secs.toNat)
  rw [ite_self] at hkept
  have hone := World.one_le_toDouble h.positive
  rw [World.rateLimit_room (by rw [hkept]; omega)] at hreply
  cases hd : deadline ((recordedAt "k" now (crowd now 0)).atTime now).now (secs.toNat + 60) with
  | none =>
      rw [hd] at hreply
      cases hreply
  | some d => exact (deadline_eq_some.mp hd).2.1

/-- On a crowd in the window the script must decide as the exact times do. -/
theorem verdict_iff {t k : Nat} (ht : t ≤ now) (hin : now < t + 1000 * secs.toNat) :
    (if World.toDouble (now - 1000 * secs.toNat) < World.toDouble t then k else 0)
        < World.toDouble maxRequests.toNat ↔ k < maxRequests.toNat := by
  obtain ⟨reply, hreply, hverdict, -⟩ := h.check_crowd (k := k) ht
  rw [counted_crowd hin ht] at hverdict
  rw [← kept_crowd "k" ht]
  by_cases hroom : (World.zremrangebyscore (now - 1000 * secs.toNat : Nat)
      (((recordedAt "k" now (crowd t k)).atTime now).rateLimitEntries "k")).length
        < World.toDouble maxRequests.toNat
  · have hd : deadline ((recordedAt "k" now (crowd t k)).atTime now).now (secs.toNat + 60)
        = some (now + 1000 * (secs.toNat + 60)) :=
      deadline_eq_some.mpr ⟨by omega, h.lifetime_lt, rfl⟩
    rw [World.rateLimit_room hroom, hd] at hreply
    cases hreply
    exact iff_of_true hroom (of_decide_eq_true hverdict.symm)
  · obtain ⟨oldest, -, -, hscript⟩ := @World.rateLimit_full
      ((recordedAt "k" now (crowd t k)).atTime now) "k" "" _ now _ (secs.toNat + 60) (World.one_le_toDouble h.positive) (Nat.not_lt.mp hroom)
    rw [hscript] at hreply
    cases hreply
    exact iff_of_false hroom (of_decide_eq_false hverdict.symm)

theorem apart (hsecs : secs.toNat ≠ 0) : World.toDouble (now - 1000 * secs.toNat)
    < World.toDouble (now - 1000 * secs.toNat + 1) := by
  by_contra hnot
  have hstart := h.start_le
  have hverdict := h.verdict_iff (t := now - 1000 * secs.toNat + 1) (k := maxRequests.toNat)
    (by omega) (by omega)
  rw [if_neg hnot] at hverdict
  exact Nat.lt_irrefl _ (hverdict.mp (World.one_le_toDouble h.positive))

theorem apart_now (hsecs : secs.toNat ≠ 0) :
    World.toDouble (now - 1000 * secs.toNat) < World.toDouble now := by
  have hstart := h.start_le
  have hmono := World.toDouble_mono (show now - 1000 * secs.toNat + 1 ≤ now by omega)
  have hapart := h.apart hsecs
  omega

theorem double (hsecs : secs.toNat ≠ 0) :
    World.toDouble maxRequests.toNat = maxRequests.toNat := by
  have hverdict : ∀ k, k < World.toDouble maxRequests.toNat ↔ k < maxRequests.toNat := by
    intro k
    have hk := h.verdict_iff (t := now) (k := k) le_rfl (by omega)
    rwa [if_pos (h.apart_now hsecs)] at hk
  have hlow := hverdict (World.toDouble maxRequests.toNat)
  have hhigh := hverdict maxRequests.toNat
  omega

/-- As many calls as are allowed, just now: the reset they show is the latest there can be. -/
theorem reset (hsecs : secs.toNat ≠ 0) : World.toDouble (World.toDouble now
    + World.toDouble (World.toDouble (secs.toNat + 60) * 1000)) < 2 ^ 63 := by
  have hkept := kept_crowd (k := maxRequests.toNat) "k" (le_refl now) (now - 1000 * secs.toNat)
  rw [if_pos (h.apart_now hsecs)] at hkept
  obtain ⟨reply, hreply, -, hfits⟩ := h.check_crowd (k := maxRequests.toNat) (le_refl now)
  obtain ⟨oldest, hmem, -, hscript⟩ := @World.rateLimit_full
    ((recordedAt "k" now (crowd now maxRequests.toNat)).atTime now) "k" ""
    (now - 1000 * secs.toNat) now _ (secs.toNat + 60) (World.one_le_toDouble h.positive) (by rw [hkept, h.double hsecs])
  have hold : oldest = World.toDouble now := by
    obtain ⟨e, he, rfl⟩ := List.mem_map.mp hmem
    have hrec := recorded_crowd (k := maxRequests.toNat) "k" (le_refl now)
    have hentry := List.mem_of_mem_filter he
    rw [hrec.entries] at hentry
    obtain ⟨call, hcall, rfl⟩ := List.mem_map.mp hentry
    obtain ⟨i, -, rfl⟩ := List.mem_map.mp hcall
    rfl
  rw [hscript, hold] at hreply
  cases hreply
  dsimp only [World.luaReply] at hfits
  by_contra hbig
  rw [if_neg hbig] at hfits
  exact absurd hfits (by decide)

end Exactly

end

example :
    ((World.initial 1000000 []).checkAt "register:ann" (.ofSecs 900) 0 1000000 "a").1
      = .error (.commandFailed "ERR attempt to perform arithmetic on a nil value") := by
  decide

end FullStackHex
