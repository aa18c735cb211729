import FullStackHex.World

/-!
Rate limiting and progressive backoff, from `cache/src/rate_limit.rs`.
-/

namespace FullStackHex

open Concurrent Expiring

structure RateLimitResult where
  allowed : Bool
  remaining : Nat
  resetAt : Nat
  deriving DecidableEq, Repr

/-- The time in milliseconds at which the window that ends now starts. The subtraction
wraps around in release builds. -/
def windowStart (now : Nat) (window : Duration) : Nat :=
  (now + 2 ^ 64 - window.asMillis % 2 ^ 64) % 2 ^ 64

/-- Check and record a request in a sliding window. -/
def rateLimitCheck (key : String) (window : Duration) (maxRequests : UInt64) :
    ExceptT CacheError Action RateLimitResult := do
  let now ← (ask .now : Action Nat)
  let ttlSecs := window.secs + 60
  let (allowed, remaining, resetAt) ← ExceptT.mk
    (ask (.rateLimit key (windowStart now window) now maxRequests.toNat ttlSecs.toNat))
  return ⟨allowed == 1, remaining.toNat, (resetAt % 2 ^ 64).toNat⟩

/-- The number of requests in the window, without a new one. The start of the window
is cast to `i64`. -/
def rateLimitCount (key : String) (window : Duration) : ExceptT CacheError Action Nat := do
  let now ← (ask .now : Action Nat)
  let start := windowStart now window
  let limit : Int := if start < 2 ^ 63 then start else start - 2 ^ 64
  ExceptT.mk (ask (.rateLimitPurge key limit))
  ExceptT.mk (ask (.rateLimitCard key))

/-- Lifetime in seconds and label for a failure count. -/
def backoffParams (count : Nat) : Nat × String :=
  if 20 ≤ count then (1800, "30min")
  else if 10 ≤ count then (300, "5min")
  else if 5 ≤ count then (60, "60s")
  else (60, "tracking")

def backoffKey (ip endpoint : String) : String := ip ++ ":" ++ endpoint

def backoffCheck (ip endpoint : String) : ExceptT CacheError Action Unit := do
  let (count, remainingTtl) ← ExceptT.mk (ask (.backoffRead (backoffKey ip endpoint)))
  if count < 0 then
    return ()
  let count := count.toNat
  let label := (backoffParams count).2
  if count < 5 then
    return ()
  if 0 < remainingTtl then
    throw (.backoffBlocked remainingTtl.toNat count label)

def backoffIncrement (ip endpoint : String) : ExceptT CacheError Action Unit := do
  let t₁ := (backoffParams 1).1
  let t₂ := (backoffParams 5).1
  let t₃ := (backoffParams 10).1
  let t₄ := (backoffParams 20).1
  let _ ← ExceptT.mk
    (ask (.backoffIncrement (backoffKey ip endpoint) t₁ t₂ t₃ t₄))

/-- What `backoff_check` makes of the count and the remaining seconds. -/
def backoffVerdict (count remainingTtl : Int) : Except CacheError Unit :=
  if count < 5 then .ok ()
  else if 0 < remainingTtl then
    .error (.backoffBlocked remainingTtl.toNat count.toNat (backoffParams count.toNat).2)
  else .ok ()

theorem alone_backoffCheck (ip endpoint : String) (w : World) :
    alone .calm (backoffCheck ip endpoint) w =
      (backoffVerdict (w.backoffRead (backoffKey ip endpoint)).1.1
          (w.backoffRead (backoffKey ip endpoint)).1.2,
        (w.backoffRead (backoffKey ip endpoint)).2) := by
  simp only [backoffCheck, alone_bind, alone_mk, alone_ite, Program.run_command,
    Program.run_ret, World.exec, Choice.calm_fault, World.answer_none, alone_pure, alone_throw,
    backoffVerdict]
  rcases w.backoffRead (backoffKey ip endpoint) with ⟨⟨count, remaining⟩, w'⟩
  by_cases hneg : count < 0
  · simp [hneg, show count < 5 by omega]
  · have hiff : count.toNat < 5 ↔ count < 5 := by omega
    simp only [hneg, hiff, if_false]
    split
    · rfl
    · split <;> rfl

theorem alone_backoffIncrement (ip endpoint : String) (w : World) :
    alone .calm (backoffIncrement ip endpoint) w =
      ((w.backoffIncrement (backoffKey ip endpoint) 60 60 300 1800).1.map fun _ => (),
        (w.backoffIncrement (backoffKey ip endpoint) 60 60 300 1800).2) := by
  simp only [backoffIncrement, alone_bind, alone_mk, Program.run_command, Program.run_ret,
    World.exec, Choice.calm_fault, World.answer_none]
  have hparams : w.backoffIncrement (backoffKey ip endpoint) (backoffParams 1).1
      (backoffParams 5).1 (backoffParams 10).1 (backoffParams 20).1
      = w.backoffIncrement (backoffKey ip endpoint) 60 60 300 1800 := rfl
  rw [hparams]
  rcases w.backoffIncrement (backoffKey ip endpoint) 60 60 300 1800 with ⟨_ | _, _⟩ <;> rfl

end FullStackHex
