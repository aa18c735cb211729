import FullStackHex.Api.Router
import FullStackHex.Cache.SessionRuns
import FullStackHex.Library.Codec

/-!
Whom the authentication middleware attaches to a request, when any of its Redis
commands may fail.
-/

namespace FullStackHex

open Concurrent Expiring Codec

/-- A world whose commands fail as `faults` says. -/
def World.failing (faults : Cmd → Choice) (c : Cmd) (w : World) : Reply c × World :=
  World.exec (faults c) c w

/-- The Authorization header carries a token that is accepted, and its claims are the user. -/
def Request.ByBearer (req : Request) (auth : AuthService) (w : World) (user : AuthUser) : Prop :=
  ∃ token claims, bearerToken req.headers = some token ∧
    tokenVerdict auth token (w.now / 1000) = .ok claims ∧ user = claims.toUser

def Method.changesState (m : Method) : Prop := m = .post ∨ m = .put ∨ m = .delete ∨ m = .patch

/-- The session cookie stands for a session of the user; a request that changes state also has
the same CSRF token, not an empty one, in its cookie and in its header. -/
def Request.ByCookie (req : Request) (w : World) (user : AuthUser) : Prop :=
  ∃ cookies id session, req.headers.cookie.bind headerStr = some cookies ∧
    parseCookieValue cookies "session" = some id ∧ w.resolve (String.ofList id) = some session ∧
    user = session.toUser (String.ofList id) ∧
    (req.method.changesState → ∃ token, token ≠ [] ∧
      parseCookieValue cookies "csrf_token" = some token ∧
        req.headers.csrf.bind headerStr = some token)

/-- What the mode takes a user from. A session is looked up in Redis. -/
def Request.Credentials (req : Request) (auth : AuthService) (redis : Bool) (w : World)
    (user : AuthUser) : Prop :=
  (auth.config.authMode ≠ .cookie ∧ req.ByBearer auth w user) ∨
    (auth.config.authMode ≠ .bearer ∧
      (auth.config.authMode = .both → ∀ other, ¬ req.ByBearer auth w other) ∧
      redis = true ∧ req.ByCookie w user)

section Attached

variable {auth : AuthService} {faults : Cmd → Choice} {req : Request} {w : World} {user : AuthUser}

/-! ## Credentials -/

theorem validateCsrfToken_true {cookie header : List Char}
    (h : validateCsrfToken cookie header = true) : cookie ≠ [] ∧ cookie = header := by
  unfold validateCsrfToken at h
  split at h
  · cases h
  · rename_i hempty
    simp only [Bool.or_eq_true, List.isEmpty_iff, not_or] at hempty
    exact ⟨hempty.1, constantTimeStrEq_iff.mp h⟩

theorem cookieAuthPrepare_ok {id : String} (h : cookieAuthPrepare req = .ok (some id)) :
    ∃ cookies value, req.headers.cookie.bind headerStr = some cookies ∧
      parseCookieValue cookies "session" = some value ∧ id = String.ofList value ∧
      (req.method.changesState → ∃ token, token ≠ [] ∧
        parseCookieValue cookies "csrf_token" = some token ∧
          req.headers.csrf.bind headerStr = some token) := by
  unfold cookieAuthPrepare at h
  split at h
  · cases h
  · rename_i cookies hcookies
    split at h
    · cases h
    · rename_i value hvalue
      split at h
      · dsimp only at h
        split at h
        · rename_i hvalid
          refine ⟨cookies, value, hcookies, hvalue, (Option.some.inj (Except.ok.inj h)).symm,
            fun _ => ?_⟩
          obtain ⟨hne, hsame⟩ := validateCsrfToken_true hvalid
          cases htoken : parseCookieValue cookies "csrf_token" with
          | none =>
              rw [htoken] at hne
              exact absurd rfl hne
          | some token =>
              rw [htoken, Option.getD_some] at hne hsame
              refine ⟨token, hne, rfl, ?_⟩
              cases hcsrf : req.headers.csrf.bind headerStr with
              | none =>
                  rw [hcsrf] at hsame
                  exact absurd hsame hne
              | some sent =>
                  rw [hcsrf, Option.getD_some] at hsame
                  rw [hsame]
        · cases h
      · rename_i hmethod
        exact ⟨cookies, value, hcookies, hvalue, (Option.some.inj (Except.ok.inj h)).symm,
          fun hchanges => absurd hchanges hmethod⟩

/-! ## The parts of the middleware -/

theorem run_extractBearer (auth : AuthService) (faults : Cmd → Choice) (req : Request)
    (w : World) :
    (extractBearer auth req).run (World.failing faults) w
      = (bearerUser auth req.headers (w.now / 1000), w) := by
  unfold extractBearer bearerUser
  cases bearerToken req.headers with
  | none => rfl
  | some token =>
      have hvalidate : (validateToken auth token).run.run (World.failing faults) w
          = (tokenVerdict auth token (w.now / 1000), w) := by
        unfold validateToken tokenVerdict
        cases auth.decode token with
        | error err => rfl
        | ok claims => rfl
      simp only [Program.bind_def, Program.run_bind, Option.bind_some]
      rw [hvalidate]
      cases tokenVerdict auth token (w.now / 1000) with
      | error err => rfl
      | ok claims => rfl

theorem World.SameButCache.put {w' : World} (h : w.SameButCache w') (id : String)
    (session : Session) : w.SameButCache (w'.sessionCachePut id session) := by
  unfold World.SameButCache at *
  rw [h]
  rfl

theorem run_sessionGet (faults : Cmd → Choice) (w : World) (id : String) :
    w.SameButCache ((sessionGet id).run.run (World.failing faults) w).2 ∧
      ∀ session, ((sessionGet id).run.run (World.failing faults) w).1 = .ok session →
        w.resolve id = some session := by
  have hsame := w.sessionCacheGet_same id
  have hget : (w.sessionCacheGet id).2.sessions.get (w.sessionCacheGet id).2.now id
      = w.sessions.get w.now id := by
    rw [hsame]
  rw [sessionGet_run]
  simp only [Program.run_command, World.failing, World.exec, World.resolve]
  cases hcached : (w.sessionCacheGet id).1 with
  | some session => exact ⟨hsame, fun other hother => congrArg some (Except.ok.inj hother)⟩
  | none =>
      simp only [Program.run_command, World.failing, World.exec, World.answer]
      cases hfault : (faults (.sessionGet id)).fault with
      | refused message => exact ⟨hsame, fun _ h => (by cases h)⟩
      | lost message => exact ⟨hsame, fun _ h => (by cases h)⟩
      | none =>
          simp only [hget, Option.none_or]
          cases w.sessions.get w.now id with
          | none => exact ⟨hsame, fun _ h => (by cases h)⟩
          | some session =>
              exact ⟨hsame.put id session,
                fun other hother => congrArg some (Except.ok.inj hother)⟩

theorem run_resolveCookieUser (faults : Cmd → Choice) (w : World) (id : String) :
    w.SameButCache ((resolveCookieUser id).run (World.failing faults) w).2 ∧
      ∀ user, ((resolveCookieUser id).run (World.failing faults) w).1 = some user →
        ∃ session, w.resolve id = some session ∧ user = session.toUser id := by
  obtain ⟨hsame, hfound⟩ := run_sessionGet faults w id
  unfold resolveCookieUser
  simp only [Program.bind_def, Program.run_bind]
  cases hget : ((sessionGet id).run.run (World.failing faults) w).1 with
  | error err =>
      refine ⟨hsame, fun user huser => ?_⟩
      cases huser
  | ok session =>
      refine ⟨hsame, fun user huser => ?_⟩
      obtain rfl := Option.some.inj huser
      exact ⟨session, hfound session hget, rfl⟩

/-- Whoever passes the blacklist is not on it, if it could be read. -/
structure Cleared (auth : AuthService) (faults : Cmd → Choice) (w : World) (user : AuthUser) :
    Prop where
  read : (faults (.get .blacklist user.jti)).fault = .none → ¬ Blacklisted w user.jti
  unread : (faults (.get .blacklist user.jti)).fault ≠ .none →
    auth.config.failOpenOnRedisError = true

theorem Cleared.same {w' : World} (h : Cleared auth faults w' user) (hsame : w.SameButCache w') :
    Cleared auth faults w user := by
  refine ⟨fun hread hlisted => h.read hread ?_, h.unread⟩
  unfold World.SameButCache at hsame
  rw [hsame]
  exact hlisted

theorem run_checkBlacklist {found : AuthUser}
    (h : ((checkBlacklist auth found).run (World.failing faults) w).1 = .next (some user)) :
    user = found ∧ Cleared auth faults w user := by
  have hredis : (checkBlacklist auth found).run (World.failing faults) w
      = (checkBlacklistRedis auth found).run (World.failing faults) w := by
    unfold checkBlacklist
    split <;> rfl
  rw [hredis] at h
  unfold checkBlacklistRedis at h
  simp only [Program.bind_def, Program.cmd_bind, Program.ret_bind, Program.run_command,
    World.failing, World.exec, World.answer] at h
  have hfailed : (faults (.get .blacklist found.jti)).fault ≠ .none →
      Passage.next (if auth.config.failOpenOnRedisError then some found else none)
        = .next (some user) → user = found ∧ Cleared auth faults w user := by
    intro hfault hnext
    split at hnext
    · rename_i hopen
      obtain rfl := Option.some.inj (Passage.next.inj hnext)
      exact ⟨rfl, fun hread => absurd hread hfault, fun _ => hopen⟩
    · cases hnext
  cases hfault : (faults (.get .blacklist found.jti)).fault with
  | none =>
      simp only [hfault] at h
      have hvalue := Passage.next.inj h
      split at hvalue
      · cases hvalue
      · rename_i hlisted
        obtain rfl := Option.some.inj hvalue
        refine ⟨rfl, fun _ hblacklisted => ?_, fun hread => absurd hfault hread⟩
        rw [hblacklisted] at hlisted
        exact hlisted rfl
  | refused message =>
      simp only [hfault] at h
      exact hfailed (by rw [hfault]; exact fun h => (by cases h)) h
  | lost message =>
      simp only [hfault] at h
      exact hfailed (by rw [hfault]; exact fun h => (by cases h)) h

theorem run_cookiePassage
    (h : ((cookiePassage auth req).run (World.failing faults) w).1 = .next (some user)) :
    req.ByCookie w user ∧ Cleared auth faults w user := by
  unfold cookiePassage at h
  match hprepare : cookieAuthPrepare req with
  | .error () => simp [hprepare] at h
  | .ok none => simp [hprepare] at h
  | .ok (some id) =>
      obtain ⟨hsame, hfound⟩ := run_resolveCookieUser faults w id
      simp only [hprepare, Program.bind_def, Program.run_bind] at h
      cases hresolved : ((resolveCookieUser id).run (World.failing faults) w).1 with
      | none => simp [hresolved] at h
      | some found =>
          simp only [hresolved] at h
          obtain ⟨rfl, hcleared⟩ := run_checkBlacklist h
          obtain ⟨session, hsession, huser⟩ := hfound user hresolved
          obtain ⟨cookies, value, hcookies, hvalue, rfl, hcsrf⟩ := cookieAuthPrepare_ok hprepare
          refine ⟨⟨cookies, value, session, hcookies, hvalue, hsession, huser, hcsrf⟩, hcleared.same hsame⟩

theorem run_authMiddleware
    (h : ((authMiddleware auth req).run (World.failing faults) w).1 = .next (some user)) :
    isPublicPath req.path = false ∧ req.Credentials auth true w user ∧
      Cleared auth faults w user := by
  unfold authMiddleware at h
  split at h
  · cases h
  · rename_i hpublic
    refine ⟨Bool.not_eq_true _ ▸ hpublic, ?_⟩
    have hbearer := run_extractBearer auth faults req w
    simp only [Program.bind_def, Program.run_bind, hbearer] at h
    cases hmode : auth.config.authMode with
    | bearer =>
        cases huser : bearerUser auth req.headers (w.now / 1000) with
        | none => simp [hmode, huser] at h
        | some found =>
            simp only [hmode, huser] at h
            obtain ⟨rfl, hcleared⟩ := run_checkBlacklist h
            exact ⟨Or.inl ⟨by simp [hmode], bearerUser_eq_some.mp huser⟩, hcleared⟩
    | both =>
        cases huser : bearerUser auth req.headers (w.now / 1000) with
        | none =>
            simp only [hmode, huser] at h
            obtain ⟨hcookie, hcleared⟩ := run_cookiePassage h
            refine ⟨Or.inr ⟨by simp [hmode], fun _ other hother => ?_, rfl, hcookie⟩, hcleared⟩
            rw [bearerUser_eq_some.mpr hother] at huser
            cases huser
        | some found =>
            simp only [hmode, huser] at h
            obtain ⟨rfl, hcleared⟩ := run_checkBlacklist h
            exact ⟨Or.inl ⟨by simp [hmode], bearerUser_eq_some.mp huser⟩, hcleared⟩
    | cookie =>
        cases huser : bearerUser auth req.headers (w.now / 1000) with
        | none =>
            simp only [hmode, huser] at h
            obtain ⟨hcookie, hcleared⟩ := run_cookiePassage h
            exact ⟨Or.inr ⟨by simp [hmode], by simp [hmode], rfl, hcookie⟩, hcleared⟩
        | some found =>
            simp only [hmode, huser] at h
            obtain ⟨hcookie, hcleared⟩ := run_cookiePassage h
            exact ⟨Or.inr ⟨by simp [hmode], by simp [hmode], rfl, hcookie⟩, hcleared⟩

theorem run_authMiddlewareWithoutRedis
    (h : ((authMiddlewareWithoutRedis auth req).run (World.failing faults) w).1
      = .next (some user)) :
    isPublicPath req.path = false ∧ req.Credentials auth false w user := by
  unfold authMiddlewareWithoutRedis at h
  split at h
  · cases h
  · rename_i hpublic
    refine ⟨Bool.not_eq_true _ ▸ hpublic, ?_⟩
    have hbearer := run_extractBearer auth faults req w
    simp only [Program.bind_def, Program.run_bind, hbearer] at h
    have hfound : ∀ found, bearerUser auth req.headers (w.now / 1000) = some found →
        auth.config.authMode ≠ .cookie → found = user → req.Credentials auth false w user := by
      rintro found huser hmode rfl
      exact Or.inl ⟨hmode, bearerUser_eq_some.mp huser⟩
    cases huser : bearerUser auth req.headers (w.now / 1000) with
    | none =>
        rw [huser] at h
        cases hmode : auth.config.authMode with
        | bearer => simp [hmode] at h
        | both =>
            simp only [hmode] at h
            split at h
            · cases h
            · cases h
        | cookie =>
            simp only [hmode] at h
            split at h
            · cases h
            · cases h
    | some found =>
        rw [huser] at h
        cases hmode : auth.config.authMode with
        | bearer => exact hfound found huser (by simp [hmode]) (by simpa [hmode] using h)
        | both => exact hfound found huser (by simp [hmode]) (by simpa [hmode] using h)
        | cookie =>
            simp only [hmode] at h
            split at h
            · cases h
            · cases h

/-! ## Bearer mode -/

theorem authMiddleware_bearer (hmode : auth.config.authMode = .bearer) :
    authMiddleware auth req =
      if isPublicPath req.path then pure (.next none)
      else extractBearer auth req >>= fun user =>
        user.elim (pure (.next none)) (checkBlacklist auth) := by
  unfold authMiddleware
  rw [hmode]
  split
  · rfl
  · refine congrArg _ (funext fun user => ?_)
    cases user with
    | none => rfl
    | some user => rfl

theorem authMiddlewareWithoutRedis_bearer (hmode : auth.config.authMode = .bearer) :
    authMiddlewareWithoutRedis auth req =
      if isPublicPath req.path then pure (.next none)
      else extractBearer auth req >>= fun user => pure (.next user) := by
  unfold authMiddlewareWithoutRedis
  rw [hmode]

theorem authPassage_bearer {req : Incoming} (hmode : auth.config.authMode = .bearer)
    (cookie : Option String) :
    authPassage auth { req with headers := { req.headers with cookie := cookie } }
      = authPassage auth req := by
  unfold authPassage
  rw [authMiddleware_bearer hmode, authMiddleware_bearer hmode,
    authMiddlewareWithoutRedis_bearer hmode, authMiddlewareWithoutRedis_bearer hmode]
  rfl

end Attached

/-- A request is attached to a user only for a credential that its mode accepts. With Redis
nobody is attached whom the blacklist lists; if it could not be read, only where the setting
allows it. In bearer mode the Cookie header makes no difference. -/
theorem attached_only (auth : AuthService) (faults : Cmd → Choice) (req : Incoming) (w : World) :
    (∀ user, ((authPassage auth req).run (World.failing faults) w).1 = .next (some user) →
      isPublicPath req.path = false ∧
        req.request.Credentials auth req.extensions.redis w user ∧
        (req.extensions.redis = true → Cleared auth faults w user)) ∧
    (auth.config.authMode = .bearer → ∀ cookie,
      (authPassage auth { req with headers := { req.headers with cookie := cookie } }).run
          (World.failing faults) w
        = (authPassage auth req).run (World.failing faults) w) := by
  constructor
  · intro user h
    unfold authPassage at h
    cases hredis : req.extensions.redis with
    | true =>
        rw [hredis, if_pos rfl] at h
        obtain ⟨hpath, hcredentials, hcleared⟩ := run_authMiddleware h
        exact ⟨hpath, hcredentials, fun _ => hcleared⟩
    | false =>
        rw [hredis, if_neg Bool.false_ne_true] at h
        obtain ⟨hpath, hcredentials⟩ := run_authMiddlewareWithoutRedis h
        exact ⟨hpath, hcredentials, nofun⟩
  · intro hmode cookie
    rw [authPassage_bearer hmode]

namespace Sample

/-- A request for notes, with a session cookie and a bearer token. -/
def noteRequest (redis : Bool) : Incoming :=
  ⟨"GET", "/notes", { bearer "alice.token" with cookie := some "session=s-bob" },
    ⟨none, none, redis, none, none, none⟩⟩

end Sample

open Sample

/-- The token decides, and a blacklist that cannot be read lets it pass. -/
theorem attached_only_token :
    (noteRequest true).request.Credentials (auth .both) true (World.initial 0 [])
        aliceClaims.toUser ∧
      (auth .both).config.failOpenOnRedisError = true :=
  have h := (attached_only (auth .both) (fun _ => { Choice.calm with fault := .refused "down" })
    (noteRequest true) (World.initial 0 [])).1 aliceClaims.toUser (by decide)
  ⟨h.2.1, (h.2.2 rfl).unread (by decide)⟩

end FullStackHex
