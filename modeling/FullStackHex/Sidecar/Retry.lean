import FullStackHex.Library.Program
import FullStackHex.Sidecar.Hmac

/-!
The retry loop of `do_request_inner` in `py-sidecar/src/lib.rs`. What an attempt comes to is
decided outside: any sequence of outcomes, one for each attempt that is made.
-/

namespace FullStackHex

open Concurrent Codec

namespace Sidecar

def backoffBaseMs : UInt64 := 100

def maxBackoffMs : UInt64 := 30000

def maxU64 : Nat := 2 ^ 64 - 1

def saturatingMul (a b : UInt64) : UInt64 := UInt64.ofNat (min (a.toNat * b.toNat) maxU64)

def saturatingPow (base : UInt64) : Nat → UInt64
  | 0 => 1
  | n + 1 => saturatingMul (saturatingPow base n) base

/-- The pause before a retry, the first of which is attempt 1. -/
def backoffForAttempt (attempt : UInt32) : Duration :=
  let rawMs := saturatingMul backoffBaseMs (saturatingPow 2 (attempt.toNat - 1))
  .ofMillis (min rawMs maxBackoffMs)

/-- What an attempt under the timeout comes to. -/
inductive Outcome where
  | finished (result : Except SidecarError (UInt16 × List UInt8))
  | elapsed

inductive RequestCmd where
  | isAvailable
  | sleep (pause : Duration)
  | performRequest

abbrev RequestReply : RequestCmd → Type
  | .isAvailable => Bool
  | .sleep _ => Unit
  | .performRequest => Outcome

abbrev Requesting (α : Type) := ExceptT SidecarError (Program RequestCmd RequestReply) α

abbrev issue (c : RequestCmd) : Requesting (RequestReply c) := ExceptT.lift (.call c)

/-- The handle, with the bytes of its path. -/
structure PythonSidecar where
  socketPath : List UInt8
  timeout : Duration

/-- The loop over the attempts that are left. -/
def attemptLoop (timeout : Duration) : List UInt32 → Option SidecarError → Requesting (List UInt8)
  | [], lastError => throw (lastError.getD (.timeout timeout))
  | attempt :: rest, _ => do
      if 0 < attempt then
        issue (.sleep (backoffForAttempt attempt))
      match ← issue .performRequest with
      | .finished (.ok (statusCode, body)) =>
          if 400 ≤ statusCode then
            throw (.httpError statusCode (fromUtf8Lossy body))
          return body
      | .finished (.error e) =>
          match e with
          | .socketNotFound _ | .invalidResponse _ | .invalidInput _ | .httpError _ _ => throw e
          | .connectionFailed _ | .timeout _ => attemptLoop timeout rest (some e)
      | .elapsed => attemptLoop timeout rest (some (.timeout timeout))

/-- The attempts `0..=max_retries`. -/
def attempts (maxRetries : UInt32) : List UInt32 :=
  (List.range (maxRetries.toNat + 1)).map UInt32.ofNat

def doRequestInner (sidecar : PythonSidecar) (maxRetries : UInt32) : Requesting (List UInt8) := do
  if !(← issue .isAvailable) then
    throw (.socketNotFound sidecar.socketPath)
  attemptLoop sidecar.timeout (attempts maxRetries) none

/-! ## The outside -/

inductive Event where
  | slept (nanos : Nat)
  | attempted
  deriving DecidableEq, Repr

/-- Whether the socket is there, what the attempts come to one after the other, and what has
happened. -/
structure Outside where
  socket : Bool
  outcomes : Nat → Outcome
  log : List Event

def Outside.made (o : Outside) : Nat := o.log.count .attempted

def Outside.exec : (c : RequestCmd) → Outside → RequestReply c × Outside
  | .isAvailable, o => (o.socket, o)
  | .sleep pause, o => ((), { o with log := o.log ++ [.slept pause.asNanos] })
  | .performRequest, o => (o.outcomes o.made, { o with log := o.log ++ [.attempted] })

/-- A request from its start. -/
def request (sidecar : PythonSidecar) (maxRetries : UInt32) (outcomes : Nat → Outcome) :
    Except SidecarError (List UInt8) × Outside :=
  Program.runExcept Outside.exec (doRequestInner sidecar maxRetries) ⟨true, outcomes, []⟩

/-! ## What a request comes to -/

/-- The error of an attempt after which another may follow. -/
def Outcome.retryable (timeout : Duration) : Outcome → Option SidecarError
  | .finished (.error (.connectionFailed message)) => some (.connectionFailed message)
  | .finished (.error (.timeout limit)) => some (.timeout limit)
  | .finished _ => none
  | .elapsed => some (.timeout timeout)

/-- What is returned for an outcome after which no other attempt is made. -/
def Outcome.returned : Outcome → Option (Except SidecarError (List UInt8))
  | .finished (.ok (status, body)) =>
      some (if status < 400 then .ok body else .error (.httpError status (fromUtf8Lossy body)))
  | .finished (.error (.connectionFailed _)) => none
  | .finished (.error (.timeout _)) => none
  | .finished (.error e) => some (.error e)
  | .elapsed => none

/-- The exact pause before attempt `k`, from 1 on. -/
def pauseMs (k : Nat) : Nat := min (100 * 2 ^ (k - 1)) 30000

/-- What happens up to the end of attempt `k`. -/
def eventsOf (k : Nat) : List Event :=
  if k = 0 then [.attempted] else [.slept (pauseMs k * 1000000), .attempted]

def Event.pause : Event → Option Nat
  | .slept nanos => some nanos
  | .attempted => none

/-- A request ends with attempt `n`: no earlier outcome was decisive, nothing follows, and what
is returned is the outcome if it is decisive and else, after the last attempt, its error. -/
structure EndsWith (timeout : Duration) (maxRetries : UInt32) (outcomes : Nat → Outcome)
    (result : Except SidecarError (List UInt8)) (log : List Event) (n : Nat) : Prop where
  inTime : n ≤ maxRetries.toNat
  retried : ∀ k < n, ∃ e, (outcomes k).retryable timeout = some e
  happened : log = (List.range (n + 1)).flatMap eventsOf
  made : log.count .attempted = n + 1
  rising : (log.filterMap Event.pause).Pairwise (· ≤ ·)
  answer : (outcomes n).returned = some result ∨
    (n = maxRetries.toNat ∧ ∃ e, (outcomes n).retryable timeout = some e ∧ result = .error e)

theorem toNat_saturatingMul (a b : UInt64) :
    (saturatingMul a b).toNat = min (a.toNat * b.toNat) maxU64 := by
  unfold saturatingMul maxU64
  exact UInt64.toNat_ofNat_of_lt (by rw [UInt64.size]; omega)

theorem toNat_saturatingPow (base : UInt64) (n : Nat) :
    (saturatingPow base n).toNat = min (base.toNat ^ n) maxU64 := by
  induction n with
  | zero => rfl
  | succ n ih =>
      unfold saturatingPow
      rw [toNat_saturatingMul, ih, Nat.pow_succ]
      rcases Nat.le_total (base.toNat ^ n) maxU64 with h | h
      · rw [Nat.min_eq_left h]
      · rw [Nat.min_eq_right h]
        rcases Nat.eq_zero_or_pos base.toNat with hzero | hpos
        · rw [hzero, Nat.mul_zero, Nat.mul_zero]
        · rw [Nat.min_eq_right (Nat.le_mul_of_pos_right _ hpos),
            Nat.min_eq_right (h.trans (Nat.le_mul_of_pos_right _ hpos))]

theorem asNanos_ofMillis (ms : UInt64) : (Duration.ofMillis ms).asNanos = ms.toNat * 1000000 := by
  change (ms / 1000).toNat * 1000000000 + ms.toNat % 1000 * 1000000 = _
  rw [UInt64.toNat_div]
  change ms.toNat / 1000 * 1000000000 + _ = _
  omega

/-- The saturating arithmetic gives the exact pause at every attempt. -/
theorem asNanos_backoffForAttempt (attempt : UInt32) :
    (backoffForAttempt attempt).asNanos = pauseMs attempt.toNat * 1000000 := by
  have hraw : (saturatingMul backoffBaseMs (saturatingPow 2 (attempt.toNat - 1))).toNat
      = min (100 * min (2 ^ (attempt.toNat - 1)) maxU64) maxU64 := by
    rw [toNat_saturatingMul, toNat_saturatingPow]
    rfl
  have hmin : ∀ a b : UInt64, (min a b).toNat = min a.toNat b.toNat := by
    intro a b
    rw [Nat.min_def, show min a b = if a ≤ b then a else b from rfl]
    split <;> rename_i h <;> simp [← UInt64.le_iff_toNat_le, h]
  unfold backoffForAttempt pauseMs
  rw [asNanos_ofMillis, hmin, hraw]
  change min _ 30000 * _ = _
  unfold maxU64
  omega

theorem pauseMs_mono {j k : Nat} (h : j ≤ k) : pauseMs j ≤ pauseMs k := by
  have hpow : 2 ^ (j - 1) ≤ 2 ^ (k - 1) := Nat.pow_le_pow_right (by omega) (by omega)
  unfold pauseMs
  omega

/-- An outcome asks for another attempt, or it is what is returned. -/
theorem Outcome.settled (timeout : Duration) (outcome : Outcome) :
    (∃ e, outcome.retryable timeout = some e) ∨ ∃ result, outcome.returned = some result := by
  rcases outcome with (e | ⟨status, body⟩) | _
  · cases e with
    | connectionFailed message => exact Or.inl ⟨_, rfl⟩
    | timeout limit => exact Or.inl ⟨_, rfl⟩
    | socketNotFound path => exact Or.inr ⟨_, rfl⟩
    | invalidResponse message => exact Or.inr ⟨_, rfl⟩
    | invalidInput message => exact Or.inr ⟨_, rfl⟩
    | httpError status body => exact Or.inr ⟨_, rfl⟩
  · exact Or.inr ⟨_, rfl⟩
  · exact Or.inl ⟨_, rfl⟩

section Loop

variable {timeout : Duration} {k : Nat} {rest : List UInt32} {lastError : Option SidecarError}
  {o : Outside}

/-- The state after attempt `k`. -/
def Outside.after (o : Outside) (k : Nat) : Outside := { o with log := o.log ++ eventsOf k }

theorem toNat_attempt (hk : k < 2 ^ 32) : (UInt32.ofNat k).toNat = k :=
  UInt32.toNat_ofNat_of_lt hk

theorem made_after (o : Outside) (k : Nat) : (o.after k).made = o.made + 1 := by
  unfold Outside.made Outside.after eventsOf
  split <;> simp

/-- The pause and the outcome of an attempt. -/
theorem run_attempt {α : Type} (hk : k < 2 ^ 32) (hmade : o.made = k)
    (f : Outcome → Requesting α) :
    Program.runExcept Outside.exec (do
        if 0 < UInt32.ofNat k then
          issue (.sleep (backoffForAttempt (UInt32.ofNat k)))
        let outcome ← issue .performRequest
        f outcome) o
      = Program.runExcept Outside.exec (f (o.outcomes k)) (o.after k) := by
  have hpos : 0 < UInt32.ofNat k ↔ 0 < k := by
    rw [UInt32.lt_iff_toNat_lt, toNat_attempt hk]
    rfl
  have hnanos := asNanos_backoffForAttempt (UInt32.ofNat k)
  rw [toNat_attempt hk] at hnanos
  subst hmade
  have hpaused : ∀ log, Program.runExcept Outside.exec (do
      let outcome ← issue .performRequest
      f outcome) { o with log := log } =
        Program.runExcept Outside.exec (f (o.outcomes (log.count .attempted)))
          { o with log := log ++ [.attempted] } := fun log => rfl
  rcases Nat.eq_zero_or_pos o.made with hzero | hmade
  · rw [if_neg (mt hpos.mp (by omega))]
    refine (hpaused o.log).trans ?_
    have hevents : eventsOf o.made = [.attempted] := by rw [hzero]; rfl
    unfold Outside.after
    rw [hevents]
    rfl
  · rw [if_pos (hpos.mpr hmade)]
    refine (hpaused (o.log ++ [.slept _])).trans ?_
    have hcount : (o.log ++ [Event.slept (pauseMs o.made * 1000000)]).count .attempted
        = o.made := by
      simp [Outside.made]
    have hevents : eventsOf o.made = [.slept (pauseMs o.made * 1000000), .attempted] :=
      if_neg (by omega)
    unfold Outside.after
    rw [hnanos, hcount, hevents, List.append_assoc]
    rfl

theorem attemptLoop_retry (hk : k < 2 ^ 32) (hmade : o.made = k) {e : SidecarError}
    (h : (o.outcomes k).retryable timeout = some e) :
    Program.runExcept Outside.exec (attemptLoop timeout (UInt32.ofNat k :: rest) lastError) o
      = Program.runExcept Outside.exec (attemptLoop timeout rest (some e)) (o.after k) := by
  refine (run_attempt hk hmade _).trans ?_
  generalize o.outcomes k = outcome at h ⊢
  rcases outcome with (err | ⟨status, body⟩) | _
  · cases err with
    | connectionFailed message => cases h; rfl
    | timeout limit => cases h; rfl
    | _ => cases h
  · cases h
  · cases h
    rfl

theorem attemptLoop_return (hk : k < 2 ^ 32) (hmade : o.made = k)
    {result : Except SidecarError (List UInt8)} (h : (o.outcomes k).returned = some result) :
    Program.runExcept Outside.exec (attemptLoop timeout (UInt32.ofNat k :: rest) lastError) o
      = (result, o.after k) := by
  refine (run_attempt hk hmade _).trans ?_
  generalize o.outcomes k = outcome at h ⊢
  rcases outcome with (err | ⟨status, body⟩) | _
  · cases err with
    | connectionFailed message => cases h
    | timeout limit => cases h
    | _ => cases h; rfl
  · cases h
    by_cases hstatus : 400 ≤ status
    · have hnot : ¬ status < 400 := UInt16.not_lt.mpr hstatus
      simp only [if_pos hstatus, if_neg hnot]
      rfl
    · have hlt : status < 400 := UInt16.not_le.mp hstatus
      simp only [if_neg hstatus, if_pos hlt]
      rfl
  · cases h

/-- The attempts from `k` on: up to the first decisive one, or all of them. -/
theorem attemptLoop_spec (left : Nat) (hk : k + left ≤ 2 ^ 32) (hmade : o.made = k) :
    let r := Program.runExcept Outside.exec
      (attemptLoop timeout ((List.range' k left).map UInt32.ofNat) lastError) o
    (∃ n < left, (∀ i < n, ∃ e, (o.outcomes (k + i)).retryable timeout = some e) ∧
      r.2.log = o.log ++ (List.range' k (n + 1)).flatMap eventsOf ∧
      (o.outcomes (k + n)).returned = some r.1) ∨
    ((∀ i < left, ∃ e, (o.outcomes (k + i)).retryable timeout = some e) ∧
      r.2.log = o.log ++ (List.range' k left).flatMap eventsOf ∧
      ∀ e, (if left = 0 then lastError else (o.outcomes (k + left - 1)).retryable timeout) = some e →
        r.1 = .error e) := by
  induction left generalizing k lastError o with
  | zero =>
      refine Or.inr ⟨fun i hi => absurd hi (Nat.not_lt_zero i), (List.append_nil o.log).symm, ?_⟩
      rintro e rfl
      rfl
  | succ left ih =>
      intro r
      rcases (o.outcomes k).settled timeout with ⟨e, he⟩ | ⟨result, hresult⟩
      · have hr : r = _ := attemptLoop_retry (by omega) hmade he
        have hnext := @ih (k + 1) (some e) (o.after k) (by omega)
          (by rw [made_after, hmade])
        rw [← hr] at hnext
        have hlog : ∀ n, (o.after k).log ++ (List.range' (k + 1) n).flatMap eventsOf
            = o.log ++ (List.range' k (n + 1)).flatMap eventsOf := by
          intro n
          rw [List.range'_succ, List.flatMap_cons, ← List.append_assoc]
          rfl
        have hearlier : ∀ n, (∀ i < n, ∃ e, (o.outcomes (k + 1 + i)).retryable timeout = some e) →
            ∀ i < n + 1, ∃ e, (o.outcomes (k + i)).retryable timeout = some e := by
          intro n hall i hi
          cases i with
          | zero => exact ⟨e, he⟩
          | succ i =>
              rw [← Nat.add_assoc, Nat.add_right_comm]
              exact hall i (by omega)
        rcases hnext with ⟨n, hn, hall, hhappened, hreturned⟩ | ⟨hall, hhappened, herror⟩
        · left
          refine ⟨n + 1, by omega, hearlier n hall, hhappened.trans (hlog _), ?_⟩
          rw [← Nat.add_assoc, Nat.add_right_comm]
          exact hreturned
        · right
          refine ⟨hearlier left hall, hhappened.trans (hlog _), fun err herr => herror err ?_⟩
          rw [if_neg (by omega)] at herr
          split
          · rename_i hzero
            rw [hzero] at herr
            exact he.symm.trans herr
          · rw [show k + 1 + left - 1 = k + (left + 1) - 1 by omega]
            exact herr
      · have hr : r = _ := attemptLoop_return (by omega) hmade hresult
        left
        refine ⟨0, by omega, fun i hi => absurd hi (Nat.not_lt_zero i), ?_, ?_⟩
        · rw [hr]
          simp [Outside.after]
        · rw [hr]
          exact hresult

end Loop

theorem count_events (n : Nat) :
    ((List.range n).flatMap eventsOf).count .attempted = n := by
  induction n with
  | zero => rfl
  | succ n ih =>
      have hone : (eventsOf n).count .attempted = 1 := by
        unfold eventsOf
        split <;> rfl
      rw [List.range_succ, List.flatMap_append, List.count_append, ih, List.flatMap_singleton, hone]

theorem pauses_events (n : Nat) :
    ((List.range (n + 1)).flatMap eventsOf).filterMap Event.pause
      = (List.range n).map fun k => pauseMs (k + 1) * 1000000 := by
  induction n with
  | zero => rfl
  | succ n ih =>
      have hone : (eventsOf (n + 1)).filterMap Event.pause = [pauseMs (n + 1) * 1000000] := rfl
      rw [List.range_succ, List.flatMap_append, List.filterMap_append, ih, List.flatMap_singleton,
        hone, List.range_succ, List.map_append]
      rfl

/-- The pauses of a request never decrease. -/
theorem pauses_pairwise (n : Nat) :
    (((List.range (n + 1)).flatMap eventsOf).filterMap Event.pause).Pairwise (· ≤ ·) := by
  rw [pauses_events]
  apply List.Pairwise.map (R := (· < ·)) _ _ List.pairwise_lt_range
  intro i j hij
  exact Nat.mul_le_mul_right _ (pauseMs_mono (by omega))

/-- Every request ends with one attempt: the first decisive one, or the last one allowed. -/
theorem request_endsWith (sidecar : PythonSidecar) (maxRetries : UInt32)
    (outcomes : Nat → Outcome) :
    ∃ n, EndsWith sidecar.timeout maxRetries outcomes (request sidecar maxRetries outcomes).1
      (request sidecar maxRetries outcomes).2.log n := by
  have hrequest : request sidecar maxRetries outcomes = Program.runExcept Outside.exec
      (attemptLoop sidecar.timeout
        ((List.range' 0 (maxRetries.toNat + 1)).map UInt32.ofNat) none) ⟨true, outcomes, []⟩ := by
    rw [← List.range_eq_range']
    rfl
  have hmax := maxRetries.toNat_lt
  have hspec := @attemptLoop_spec sidecar.timeout 0 none
    ⟨true, outcomes, []⟩ (maxRetries.toNat + 1) (by omega) rfl
  rw [← hrequest] at hspec
  simp only [Nat.zero_add, List.nil_append, ← List.range_eq_range'] at hspec
  rcases hspec with ⟨n, hn, hall, hlog, hreturned⟩ | ⟨hall, hlog, herror⟩
  · refine ⟨n, by omega, hall, hlog, ?_, ?_, Or.inl hreturned⟩
    · rw [hlog, count_events]
    · rw [hlog]
      exact pauses_pairwise n
  · obtain ⟨e, he⟩ := hall maxRetries.toNat (by omega)
    refine ⟨maxRetries.toNat, le_rfl, fun k hk => hall k (by omega), hlog, ?_, ?_,
      Or.inr ⟨rfl, e, he, herror e ?_⟩⟩
    · rw [hlog, count_events]
    · rw [hlog]
      exact pauses_pairwise _
    · rw [if_neg (by omega), Nat.add_sub_cancel]
      exact he

example :
    (request ⟨[], .ofSecs 5⟩ 3 fun k => if k < 2 then .elapsed else .finished (.ok (204, []))).2.log
      = [.attempted, .slept 100000000, .attempted, .slept 200000000, .attempted] := by decide

end Sidecar

end FullStackHex
