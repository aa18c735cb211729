import FullStackHex.Auth.Service
import FullStackHex.Cache.Session

/-!
The authentication middleware, from `auth/src/middleware.rs`. It attaches an
`AuthUser` to a request or lets it pass without one; only a failed CSRF check
ends the request here.
-/

namespace FullStackHex

open Concurrent Expiring

/-- `BLACKLIST_CACHE`. Both of its functions only `get` the `OnceLock`, so it is
never initialised and remembers nothing. -/
def blacklistCache : Option (Table String Nat) := none

def blacklistedInProcess (jti : String) : Action Bool := do
  match blacklistCache with
  | none => return false
  | some map =>
      match map.lookup jti with
      | some expiry => return (← ask .now) < expiry
      | none => return false

structure AuthUser where
  userId : Uuid
  email : String
  name : Option String
  provider : String
  jti : String
  sessionId : Option String
  deriving DecidableEq, Repr

/-- What becomes of a request: the next handler runs, with a user or without,
or the request is rejected with 403. -/
inductive Passage where
  | next (user : Option AuthUser)
  | forbidden
  deriving DecidableEq, Repr

def Passage.user : Passage → Option AuthUser
  | .next user => user
  | .forbidden => none

def startsWith (path pre : String) : Bool := pre.toList.isPrefixOf path.toList

/-- Paths that the middleware does not look at. -/
def isPublicPath (path : String) : Bool :=
  path == "/live" || startsWith path "/health" || path == "/metrics"
    || startsWith path "/metrics/" || path == "/auth/login" || path == "/auth/register"
    || path == "/auth/forgot-password" || path == "/auth/reset-password"
    || path == "/auth/refresh" || path == "/auth/providers" || path == "/auth/oauth/google"
    || path == "/auth/oauth/github" || path == "/auth/oauth/google/callback"
    || path == "/auth/oauth/github/callback"

def eqIgnoreAsciiCase (a b : List Char) : Bool := a.map Char.toLower == b.map Char.toLower

/-- The token of an `Authorization: Bearer` header. -/
def bearerToken (headers : Headers) : Option String := do
  let value ← headers.authorization.bind headerStr
  let (scheme, rest) := value.span fun c => c ≠ ' '
  match rest with
  | [] => none
  | _ :: tokenValue =>
      if eqIgnoreAsciiCase scheme "Bearer".toList then
        some (String.ofList (tokenValue.dropWhile Char.isWhitespace))
      else none

def Claims.toUser (claims : Claims) : AuthUser :=
  ⟨claims.sub, claims.email, claims.name, claims.provider, claims.jti, none⟩

def extractBearer (auth : AuthService) (req : Request) : Action (Option AuthUser) := do
  match bearerToken req.headers with
  | none => return none
  | some token =>
      match ← (validateToken auth token).run with
      | .ok claims => return some claims.toUser
      | .error _ => return none

/-- The session cookie of a request. A state-changing request also has to carry
the CSRF token of its cookie in the header. -/
def cookieAuthPrepare (req : Request) : Except Unit (Option String) :=
  match req.headers.cookie.bind headerStr with
  | none => .ok none
  | some header =>
      match parseCookieValue header "session" with
      | none => .ok none
      | some sessionId =>
          if req.method = .post ∨ req.method = .put ∨ req.method = .delete
              ∨ req.method = .patch then
            let csrfHeader := (req.headers.csrf.bind headerStr).getD []
            let csrfCookie := (parseCookieValue header "csrf_token").getD []
            if validateCsrfToken csrfCookie csrfHeader then .ok (some (String.ofList sessionId))
            else .error ()
          else .ok (some (String.ofList sessionId))

def Session.toUser (session : Session) (sessionId : String) : AuthUser :=
  ⟨session.userId, session.email, session.name, session.provider, "", some sessionId⟩

def resolveCookieUser (sessionId : String) : Action (Option AuthUser) := do
  match ← (sessionGet sessionId).run with
  | .ok session => return some (session.toUser sessionId)
  | .error _ => return none

/-- The Redis half of the blacklist check. -/
def checkBlacklistRedis (auth : AuthService) (user : AuthUser) : Action Passage := do
  match ← ask (.get .blacklist user.jti) with
  | .ok value => return .next (if value.getD false then none else some user)
  | .error _ => return .next (if auth.config.failOpenOnRedisError then some user else none)

/-- The blacklist check of a user that bearer or cookie authentication found. -/
def checkBlacklist (auth : AuthService) (user : AuthUser) : Action Passage := do
  let known ← if user.jti ≠ "" then blacklistedInProcess user.jti else pure false
  if known then return .next none else checkBlacklistRedis auth user

/-- Cookie authentication, where the mode asks for it. -/
def cookiePassage (auth : AuthService) (req : Request) : Action Passage := do
  match cookieAuthPrepare req with
  | .error () => return .forbidden
  | .ok none => return .next none
  | .ok (some sessionId) =>
      match ← resolveCookieUser sessionId with
      | some user => checkBlacklist auth user
      | none => return .next none

def authMiddleware (auth : AuthService) (req : Request) : Action Passage := do
  if isPublicPath req.path then
    return .next none
  let bearerUser ← extractBearer auth req
  match auth.config.authMode, bearerUser with
  | .bearer, none => return .next none
  | .bearer, some user => checkBlacklist auth user
  | .both, some user => checkBlacklist auth user
  | _, _ => cookiePassage auth req

/-! What the middleware decides when nobody else is at work. -/

/-- The user that the `Authorization` header of a request stands for. -/
def bearerUser (auth : AuthService) (headers : Headers) (now : Nat) : Option AuthUser :=
  (bearerToken headers).bind fun token =>
    (tokenVerdict auth token now).toOption.map Claims.toUser

theorem perform_extractBearer (auth : AuthService) (req : Request) (w : World) :
    w.perform (extractBearer auth req) = (bearerUser auth req.headers (w.now / 1000), w) := by
  unfold extractBearer bearerUser
  cases bearerToken req.headers with
  | none => rfl
  | some token =>
      simp only [Program.bind_def, Program.run_bind, run_exceptRun, alone_validateToken,
        Option.bind_some]
      cases tokenVerdict auth token (w.now / 1000) with
      | error err => rfl
      | ok claims => rfl

def Blacklisted (w : World) (jti : String) : Prop :=
  (w.cached .blacklist).get w.now jti = some true

instance (w : World) (jti : String) : Decidable (Blacklisted w jti) :=
  inferInstanceAs (Decidable (_ = _))

/-- A user whose key is on the blacklist is not attached. -/
def Passage.unlessBlacklisted (w : World) : Passage → Passage
  | .next (some user) => if Blacklisted w user.jti then .next none else .next (some user)
  | p => p

def cookieCredential (req : Request) (w : World) : Passage :=
  match cookieAuthPrepare req with
  | .error () => .forbidden
  | .ok none => .next none
  | .ok (some sessionId) =>
      .next ((w.resolve sessionId).map fun session => session.toUser sessionId)

/-- What the credentials of a request stand for, the blacklist aside. -/
def credential (auth : AuthService) (req : Request) (w : World) : Passage :=
  if isPublicPath req.path then .next none
  else
    match auth.config.authMode, bearerUser auth req.headers (w.now / 1000) with
    | .bearer, user => .next user
    | .both, some user => .next (some user)
    | _, _ => cookieCredential req w

theorem perform_checkBlacklist (auth : AuthService) (user : AuthUser) (w : World) :
    w.perform (checkBlacklist auth user)
      = ((Passage.next (some user)).unlessBlacklisted w, w) := by
  have hredis : w.perform (checkBlacklist auth user)
      = w.perform (checkBlacklistRedis auth user) := by
    unfold checkBlacklist
    split <;> rfl
  have hvalue : w.perform (checkBlacklistRedis auth user) =
      (.next (if ((w.cached .blacklist).get w.now user.jti).getD false then none
        else some user), w) := rfl
  rw [hredis, hvalue]
  unfold Passage.unlessBlacklisted Blacklisted
  cases hget : (w.cached .blacklist).get w.now user.jti with
  | none => simp [hget]
  | some listed => cases listed <;> simp [hget]

theorem perform_resolveCookieUser (sessionId : String) (w : World) :
    w.perform (resolveCookieUser sessionId)
      = ((w.resolve sessionId).map fun session => session.toUser sessionId,
          w.lookedUp sessionId) := by
  unfold resolveCookieUser
  simp only [Program.bind_def, World.perform, Program.run_bind, run_exceptRun]
  rw [(alone_sessionGet sessionId w).1]
  cases w.resolve sessionId with
  | none => rfl
  | some session => rfl

theorem Passage.unlessBlacklisted_same {w w' : World} (h : w.SameButCache w') (p : Passage) :
    p.unlessBlacklisted w' = p.unlessBlacklisted w := by
  unfold World.SameButCache at h
  rw [h]
  rfl

/-- The session that the middleware looks up, if it comes to that. -/
def cookieLookup (auth : AuthService) (req : Request) (now : Nat) : Option String :=
  if isPublicPath req.path then none
  else
    match auth.config.authMode, bearerUser auth req.headers (now / 1000) with
    | .bearer, _ => none
    | .both, some _ => none
    | _, _ => (cookieAuthPrepare req).toOption.join

def World.lookedUp? (w : World) (sessionId : Option String) : World :=
  sessionId.elim w w.lookedUp

theorem perform_cookiePassage (auth : AuthService) (req : Request) (w : World) :
    w.perform (cookiePassage auth req) = ((cookieCredential req w).unlessBlacklisted w,
      w.lookedUp? (cookieAuthPrepare req).toOption.join) := by
  unfold cookiePassage cookieCredential
  match cookieAuthPrepare req with
  | .error () => rfl
  | .ok none => rfl
  | .ok (some sessionId) =>
      have hlookup := perform_resolveCookieUser sessionId w
      simp only [Program.bind_def, World.perform, Program.run_bind] at hlookup ⊢
      rw [hlookup]
      cases w.resolve sessionId with
      | none => rfl
      | some session =>
          have hcheck := perform_checkBlacklist auth (session.toUser sessionId)
            (w.lookedUp sessionId)
          rw [Passage.unlessBlacklisted_same (w.lookedUp_same sessionId)] at hcheck
          exact hcheck

/-- The middleware attaches the credential's user, unless it is on the blacklist. -/
theorem perform_authMiddleware (auth : AuthService) (req : Request) (w : World) :
    w.perform (authMiddleware auth req) = ((credential auth req w).unlessBlacklisted w,
      w.lookedUp? (cookieLookup auth req w.now)) := by
  unfold authMiddleware credential cookieLookup
  split
  · rfl
  · have hbearer := perform_extractBearer auth req w
    have hcookie := perform_cookiePassage auth req w
    have hcheck := fun user => perform_checkBlacklist auth user w
    simp only [Program.bind_def, World.perform, Program.run_bind] at hbearer hcookie hcheck ⊢
    rw [hbearer]
    cases auth.config.authMode with
    | bearer =>
        cases bearerUser auth req.headers (w.now / 1000) with
        | none => rfl
        | some user => exact hcheck user
    | both =>
        cases bearerUser auth req.headers (w.now / 1000) with
        | none => exact hcookie
        | some user => exact hcheck user
    | cookie =>
        cases bearerUser auth req.headers (w.now / 1000) with
        | none => exact hcookie
        | some user => exact hcookie

theorem attached_iff {auth : AuthService} {req : Request} {w : World} {user : AuthUser} :
    (w.perform (authMiddleware auth req)).1 = .next (some user) ↔
      credential auth req w = .next (some user) ∧ ¬ Blacklisted w user.jti := by
  rw [perform_authMiddleware]
  dsimp only
  cases credential auth req w with
  | forbidden => simp [Passage.unlessBlacklisted]
  | next found =>
      cases found with
      | none => simp [Passage.unlessBlacklisted]
      | some other =>
          unfold Passage.unlessBlacklisted
          dsimp only
          split_ifs with hlisted
          · simp only [Passage.next.injEq, reduceCtorEq, false_iff]
            rintro ⟨hsame, hnot⟩
            cases hsame
            exact hnot hlisted
          · simp only [Passage.next.injEq, Option.some.injEq]
            exact ⟨fun hsame => ⟨hsame, hsame ▸ hlisted⟩, And.left⟩

theorem cookieCredential_sessionId {req : Request} {w : World} {user : AuthUser}
    (h : cookieCredential req w = .next (some user)) :
    ∃ id session, cookieAuthPrepare req = .ok (some id) ∧ w.resolve id = some session ∧
      user = session.toUser id := by
  unfold cookieCredential at h
  match hprepare : cookieAuthPrepare req with
  | .error () => simp [hprepare] at h
  | .ok none => simp [hprepare] at h
  | .ok (some id) =>
      simp only [hprepare, Passage.next.injEq, Option.map_eq_some_iff] at h
      obtain ⟨session, hsession, huser⟩ := h
      exact ⟨id, session, rfl, hsession, huser.symm⟩

/-- A credential is a bearer token or a session cookie. -/
theorem credential_cases {auth : AuthService} {req : Request} {w : World} {user : AuthUser}
    (h : credential auth req w = .next (some user)) :
    bearerUser auth req.headers (w.now / 1000) = some user ∨
      cookieCredential req w = .next (some user) := by
  unfold credential at h
  split at h
  · cases h
  · split at h
    · exact Or.inl (Passage.next.inj h)
    · rename_i heq
      rw [heq]
      exact Or.inl (Passage.next.inj h)
    · exact Or.inr h

theorem bearerUser_eq_some {auth : AuthService} {headers : Headers} {now : Nat}
    {user : AuthUser} :
    bearerUser auth headers now = some user ↔
      ∃ token claims, bearerToken headers = some token ∧
        tokenVerdict auth token now = .ok claims ∧ user = claims.toUser := by
  unfold bearerUser
  constructor
  · intro h
    obtain ⟨token, htoken, hclaims⟩ := Option.bind_eq_some_iff.mp h
    obtain ⟨claims, hverdict, huser⟩ := Option.map_eq_some_iff.mp hclaims
    refine ⟨token, claims, htoken, ?_, huser.symm⟩
    cases hv : tokenVerdict auth token now with
    | error err => simp [hv, Except.toOption] at hverdict
    | ok c =>
        rw [hv] at hverdict
        exact congrArg _ (Option.some.inj hverdict)
  · rintro ⟨token, claims, htoken, hverdict, rfl⟩
    simp [htoken, hverdict, Except.toOption]

/-- The user of a token has its JTI, the user of a session has the empty one. -/
theorem credential_user {auth : AuthService} {req : Request} {w : World} {user : AuthUser}
    (h : credential auth req w = .next (some user)) :
    (user.sessionId = none ∧ ∃ token claims, bearerToken req.headers = some token ∧
      tokenVerdict auth token (w.now / 1000) = .ok claims ∧ user = claims.toUser) ∨
    (user.jti = "" ∧ ∃ id session, cookieAuthPrepare req = .ok (some id) ∧
      w.resolve id = some session ∧ user = session.toUser id) := by
  rcases credential_cases h with hbearer | hcookie
  · obtain ⟨token, claims, htoken, hverdict, rfl⟩ := bearerUser_eq_some.mp hbearer
    exact Or.inl ⟨rfl, token, claims, htoken, hverdict, rfl⟩
  · obtain ⟨id, session, hprepare, hsession, rfl⟩ := cookieCredential_sessionId hcookie
    exact Or.inr ⟨rfl, id, session, hprepare, hsession, rfl⟩

theorem credential_bearer {auth : AuthService} {req : Request} {w : World} {user : AuthUser}
    (h : credential auth req w = .next (some user)) (hsession : user.sessionId = none) :
    ∃ token claims, bearerToken req.headers = some token ∧
      tokenVerdict auth token (w.now / 1000) = .ok claims ∧ user = claims.toUser := by
  rcases credential_user h with ⟨_, hbearer⟩ | ⟨_, id, session, _, _, rfl⟩
  · exact hbearer
  · cases hsession

end FullStackHex
