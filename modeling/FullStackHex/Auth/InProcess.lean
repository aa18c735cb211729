import FullStackHex.Auth.Middleware

/-!
The blacklist inside the process, from `auth/src/middleware.rs`: a table behind a `OnceLock`,
through which every check of the blacklist goes before and after it asks Redis. Here the cell is
part of the state. Nothing ever puts a table into it.
-/

namespace FullStackHex

open Concurrent Expiring

namespace InProcess

/-- What the `OnceLock` holds: JTIs and the `Instant`s, in milliseconds, at which they expire. -/
abbrev Cell := Option (Table String Nat)

/-- `OnceLock::new()`. -/
def Cell.new : Cell := none

def maxBlacklistCacheEntries : Nat := 100000

def Cell.size : Cell → Nat
  | none => 0
  | some map => Table.size map

def blacklistedInProcess (cell : Cell) (jti : String) (now : Nat) : Bool × Cell :=
  match cell with
  | none => (false, none)
  | some map =>
      match map.lookup jti with
      | some expiry => if now < expiry then (true, some map) else (false, some (map.erase jti))
      | none => (false, some map)

def cacheBlacklisted (cell : Cell) (jti : String) (expiry : Nat) : Cell :=
  match cell with
  | none => none
  | some map =>
      some (if Table.size map < maxBlacklistCacheEntries then map.insert jti expiry else map)

/-- The check of one authenticated request: the moments at which it looks into the cell and at
which Redis has answered, and the answer. -/
structure Check where
  user : AuthUser
  looked : Nat
  reply : Except CacheError (Option Bool)
  replied : Nat

inductive Verdict where
  | passed
  | inProcess
  | listed
  | degraded
  deriving DecidableEq, Repr

/-- The request goes on without its user. -/
def Verdict.refused (v : Verdict) : Bool := v != .passed

def Verdict.passage (user : AuthUser) (v : Verdict) : Passage :=
  .next (if v.refused then none else some user)

/-- Redis has answered that the JTI is on the blacklist. -/
def Check.isListed (c : Check) : Bool :=
  match c.reply with
  | .ok (some listed) => listed
  | _ => false

/-- The check of the middleware. -/
def checkBlacklist (auth : AuthService) (cell : Cell) (c : Check) : Verdict × Cell :=
  let (known, cell) :=
    if c.user.jti ≠ "" then blacklistedInProcess cell c.user.jti c.looked else (false, cell)
  if known then (.inProcess, cell)
  else
    match c.reply with
    | .ok value =>
        if value.getD false then
          (.listed, if c.user.jti ≠ "" then
            cacheBlacklisted cell c.user.jti (c.replied + 1000 * auth.config.jwtExpiry.toNat)
            else cell)
        else (.passed, cell)
    | .error _ => (if auth.config.failOpenOnRedisError then .passed else .degraded, cell)

/-- The cell after these checks, from the start of the process on. -/
def cellAfter (auth : AuthService) (past : List Check) : Cell :=
  past.foldl (fun cell c => (checkBlacklist auth cell c).2) .new

/-- What becomes of a request after these. -/
def verdictAfter (auth : AuthService) (past : List Check) (c : Check) : Verdict :=
  (checkBlacklist auth (cellAfter auth past) c).1

/-- Every request is refused that comes within `jwt_expiry` of another one with its JTI which was
refused because Redis had it on the blacklist, while the cell had room. -/
def Remembers (auth : AuthService) (checks : List Check) : Prop :=
  ∀ past c, past ++ [c] <+: checks → ∀ before e, before ++ [e] <+: past →
    verdictAfter auth before e = .listed → e.user.jti = c.user.jti →
    c.looked < e.replied + 1000 * auth.config.jwtExpiry.toNat →
    Cell.size (cellAfter auth before) < maxBlacklistCacheEntries →
    (verdictAfter auth past c).refused = true

/-- Whoever the cell refuses has been refused because of Redis before. -/
def OnlyListed (auth : AuthService) (checks : List Check) : Prop :=
  ∀ past c, past ++ [c] <+: checks → verdictAfter auth past c = .inProcess →
    ∃ before e, before ++ [e] <+: past ∧ verdictAfter auth before e = .listed ∧
      e.user.jti = c.user.jti

/-- Redis itself answers so again, whenever it has within `jwt_expiry` before. -/
def ListedAgain (auth : AuthService) (checks : List Check) : Prop :=
  ∀ past c, past ++ [c] <+: checks → ∀ e ∈ past, e.isListed = true →
    e.user.jti = c.user.jti → c.looked < e.replied + 1000 * auth.config.jwtExpiry.toNat →
    c.isListed = true

/-- What the middleware makes of the answer of Redis alone. -/
def redisVerdict (auth : AuthService) (c : Check) : Verdict :=
  match c.reply with
  | .ok value => if value.getD false then .listed else .passed
  | .error _ => if auth.config.failOpenOnRedisError then .passed else .degraded

/-- A check with an empty cell asks Redis and leaves the cell empty. -/
theorem checkBlacklist_new (auth : AuthService) (c : Check) :
    checkBlacklist auth .new c = (redisVerdict auth c, .new) := by
  have hlooked : (if c.user.jti ≠ "" then blacklistedInProcess .new c.user.jti c.looked
      else (false, .new)) = (false, .new) := by
    split <;> rfl
  unfold checkBlacklist redisVerdict
  rw [hlooked]
  rcases c.reply with e | (_ | listed)
  · rfl
  · rfl
  cases listed with
  | false => rfl
  | true =>
      have hkept : (if c.user.jti ≠ "" then cacheBlacklisted .new c.user.jti
          (c.replied + 1000 * auth.config.jwtExpiry.toNat) else .new) = .new := by
        split <;> rfl
      exact congrArg (Prod.mk Verdict.listed) hkept

/-- No sequence of checks initialises the cell. -/
theorem cellAfter_eq (auth : AuthService) (past : List Check) : cellAfter auth past = .new := by
  unfold cellAfter
  induction past with
  | nil => rfl
  | cons c rest ih =>
      rw [List.foldl_cons, checkBlacklist_new]
      exact ih

theorem verdictAfter_eq (auth : AuthService) (past : List Check) (c : Check) :
    verdictAfter auth past c = redisVerdict auth c := by
  unfold verdictAfter
  rw [cellAfter_eq, checkBlacklist_new]

/-- The check of the middleware is the one that the program of the middleware makes. -/
theorem checkBlacklist_program (auth : AuthService) (user : AuthUser) (looked replied : Nat) :
    FullStackHex.checkBlacklist auth user =
      (ask (.get .blacklist user.jti)).bind fun reply =>
        .ret ((checkBlacklist auth .new ⟨user, looked, reply, replied⟩).1.passage user) := by
  have hprogram : FullStackHex.checkBlacklist auth user = checkBlacklistRedis auth user := by
    unfold FullStackHex.checkBlacklist
    split <;> rfl
  rw [hprogram]
  unfold checkBlacklistRedis
  refine congrArg (Program.cmd _) (funext fun reply => ?_)
  change _ = Program.ret ((checkBlacklist auth .new ⟨user, looked, reply, replied⟩).1.passage user)
  rw [checkBlacklist_new]
  unfold redisVerdict Verdict.passage
  change Except CacheError (Option Bool) at reply
  cases reply with
  | error e => cases auth.config.failOpenOnRedisError <;> rfl
  | ok value =>
      rcases value with _ | listed
      · rfl
      · cases listed <;> rfl

/-- Fail-open, nothing but the answer of Redis refuses a request. -/
theorem redisVerdict_open {auth : AuthService} (hopen : auth.config.failOpenOnRedisError = true)
    (c : Check) : redisVerdict auth c = if c.isListed then .listed else .passed := by
  unfold redisVerdict Check.isListed
  rw [hopen]
  rcases c.reply with e | (_ | listed)
  · rfl
  · rfl
  · cases listed <;> rfl

/-- The cell never refuses anybody, and refusals are remembered exactly in the runs in which Redis
never has to be remembered. -/
theorem remembers_iff (auth : AuthService) (checks : List Check)
    (hopen : auth.config.failOpenOnRedisError = true) :
    (Remembers auth checks ∧ OnlyListed auth checks) ↔ ListedAgain auth checks := by
  have hlisted : ∀ past c, verdictAfter auth past c = .listed ↔ c.isListed = true := by
    intro past c
    rw [verdictAfter_eq, redisVerdict_open hopen]
    cases c.isListed <;> decide
  have hrefused : ∀ past c, (verdictAfter auth past c).refused = true ↔ c.isListed = true := by
    intro past c
    rw [verdictAfter_eq, redisVerdict_open hopen]
    cases c.isListed <;> decide
  constructor
  · rintro ⟨hremembers, -⟩ past c hc e he hlist hjti hlooked
    obtain ⟨before, after, rfl⟩ := List.append_of_mem he
    rw [← hrefused (before ++ e :: after) c]
    apply hremembers _ c hc before e ⟨after, by simp⟩ ((hlisted before e).mpr hlist) hjti hlooked
    rw [cellAfter_eq]
    decide
  · intro hagain
    constructor
    · intro past c hc before e hbefore hlist hjti hlooked _
      have he : e ∈ past := hbefore.subset (List.mem_append_right _ (List.mem_singleton_self e))
      exact (hrefused past c).mpr (hagain past c hc e he ((hlisted before e).mp hlist) hjti hlooked)
    · intro past c _ hcell
      rw [verdictAfter_eq, redisVerdict_open hopen] at hcell
      cases hc : c.isListed <;> simp [hc] at hcell

end InProcess

namespace Sample

/-- A token of Alice that Redis has on the blacklist, and the same token a second later, when
Redis cannot be reached. -/
def listedOnce : InProcess.Check := ⟨aliceClaims.toUser, 0, .ok (some true), 0⟩

def unreachable : InProcess.Check :=
  ⟨aliceClaims.toUser, 1000, .error (.commandFailed "connection lost"), 1000⟩

end Sample

namespace InProcess

theorem remembers_iff_alice :
    (Remembers (Sample.auth .bearer) [Sample.listedOnce] ∧
      OnlyListed (Sample.auth .bearer) [Sample.listedOnce]) ↔
      ListedAgain (Sample.auth .bearer) [Sample.listedOnce] :=
  remembers_iff (Sample.auth .bearer) [Sample.listedOnce] rfl

/-- The token is refused and, a second later, accepted. -/
theorem refusal_forgotten :
    (Sample.auth .bearer).config.failOpenOnRedisError = true ∧
      verdictAfter (Sample.auth .bearer) [] Sample.listedOnce = .listed ∧
      verdictAfter (Sample.auth .bearer) [Sample.listedOnce] Sample.unreachable = .passed ∧
      ¬ (Remembers (Sample.auth .bearer) [Sample.listedOnce, Sample.unreachable] ∧
        OnlyListed (Sample.auth .bearer) [Sample.listedOnce, Sample.unreachable]) := by
  refine ⟨rfl, by decide, by decide, fun h => ?_⟩
  have hrefused := h.1 [Sample.listedOnce] Sample.unreachable (List.prefix_refl _) []
    Sample.listedOnce (List.prefix_refl _) (by decide) rfl (by decide) (by decide)
  revert hrefused
  decide

end InProcess

end FullStackHex
