import FullStackHex.Auth.Middleware
import FullStackHex.Cache.RateLimit
import FullStackHex.Library.Json

/-!
The handlers of `auth/src/routes.rs`. A handler takes what its extractors give
it; `ip` is the result of `client_ip`, `user` the `AuthUser` of the middleware.
-/

namespace FullStackHex

open Concurrent Expiring JsonText

structure UserInfo where
  id : Uuid
  email : String
  name : Option String
  provider : String
  deriving DecidableEq, Repr

structure TokenResponse where
  accessToken : String
  tokenType : String
  expiresIn : UInt64
  refreshToken : String
  csrfToken : String
  user : UserInfo
  deriving DecidableEq, Repr

inductive Body where
  | empty
  | tokens (response : TokenResponse)
  | message (text : String)
  | me (user : AuthUser)
  | location (url : String)
  deriving DecidableEq, Repr

structure Response where
  status : Nat
  setCookies : List String
  body : Body
  deriving DecidableEq, Repr

abbrev Handler := ExceptT ApiError Action Response

/-- A cache function called with `?`. -/
def orFail {α : Type} (p : ExceptT CacheError Action α) : ExceptT ApiError Action α :=
  p.adapt CacheError.toApi

/-- `map_err` of a query. -/
def queryOr {α : Type} (message : String) (p : Action (Except DbError α)) :
    ExceptT ApiError Action α :=
  (ExceptT.mk p).adapt fun _ => .internalError message

/-- An early return with an error. -/
def failIf (c : Bool) (err : ApiError) : Except ApiError Unit :=
  if c then .error err else .ok ()

def serverError : String := "Internal server error"

def checkRateLimit (key : String) (windowSecs maxRequests : UInt64) :
    ExceptT ApiError Action Unit := do
  let result ← orFail (rateLimitCheck key (.ofSecs windowSecs) maxRequests)
  if !result.allowed then
    let now ← (ask .now : Action Nat)
    throw (.rateLimited ("Rate limit exceeded. Try again after "
      ++ toString ((result.resetAt - now) / 1000) ++ " seconds."))

/-- `cache_get` and its relatives on one namespace. -/
def cacheGet (ns : Namespace) (key : String) : ExceptT CacheError Action (Option ns.Value) :=
  .mk (ask (.get ns key))

def cacheSet (ns : Namespace) (key : String) (value : ns.Value) (ttl : UInt64) :
    ExceptT CacheError Action Unit :=
  .mk (ask (.set ns key value ttl.toNat))

/-- `cache_set` under a key drawn at random just before. Nobody sees the key
before it is stored, so the draw belongs to the step. -/
def cacheSetFresh (ns : Namespace) (value : ns.Value) (ttl : UInt64) :
    ExceptT CacheError Action String :=
  .mk (ask (.setFresh ns value ttl.toNat))

def cacheDelete (ns : Namespace) (key : String) : ExceptT CacheError Action Unit :=
  .mk (ask (.del ns key))

def cacheGetDelete (ns : Namespace) (key : String) :
    ExceptT CacheError Action (Option ns.Value) :=
  .mk (ask (.getdel ns key))

/-- A script that reads and deletes in one step. -/
def refreshTokenRotate (token : String) : ExceptT CacheError Action (Option Uuid) :=
  .mk (ask (.getdel .refresh token))

/-- The session that `register`, `login` and `oauth_callback` create. -/
def openSession (auth : AuthService) (user : UserInfo) : ExceptT ApiError Action String := do
  let now ← (ask .now : Action Nat)
  let session : Session :=
    { userId := user.id
      email := user.email
      name := user.name
      provider := user.provider
      createdAt := now / 1000 }
  orFail (sessionCreate session auth.config.jwtExpiry)

def tokenResponse (auth : AuthService) (accessToken refreshToken csrfToken : String)
    (user : UserInfo) : TokenResponse where
  accessToken := accessToken
  tokenType := "Bearer"
  expiresIn := auth.config.jwtExpiry
  refreshToken := refreshToken
  csrfToken := csrfToken
  user := user

/-- `spawn_blocking` of `hash_password`; the salt is random. -/
def hashPassword (auth : AuthService) (password : String) : ExceptT ApiError Action String := do
  let salt ← (ask .draw : Action String)
  match auth.hashPassword password salt with
  | .ok hash => return hash
  | .error err => throw (.internalError ("Password hash error: " ++ err))

structure RegisterRequest where
  email : String
  password : String
  name : Option String
  deriving DecidableEq, Repr

def isEmail (email : String) : Bool := !email.toList.isEmpty && email.toList.contains '@'

def validatePassword (password : String) : Except ApiError Unit :=
  if byteLength password < 8 then
    .error (.validationError "Password must be at least 8 characters")
  else if 1024 < byteLength password then
    .error (.validationError "Password must be at most 1024 characters")
  else .ok ()

def validateRegistration (body : RegisterRequest) : Except ApiError Unit :=
  if !isEmail body.email then .error (.validationError "Invalid email")
  else validatePassword body.password

/-- The cookies and the body that `register` and `login` answer with: tokens
first, the session after them. -/
def signIn (auth : AuthService) (status : Nat) (user : UserInfo) : Handler := do
  let accessToken ← createToken auth user.id user.email user.name user.provider
  let refreshToken ← orFail (cacheSetFresh .refresh user.id auth.config.refreshExpiry)
  let (csrfToken, cookies) ← setAuthCookies [] accessToken refreshToken none
    auth.config.jwtExpiry auth.config.refreshExpiry auth.config.cookieSecure
  let sessionId ← openSession auth user
  let cookies ← setCookie cookies "session" sessionId auth.config.jwtExpiry true
    auth.config.cookieSecure
  return ⟨status, cookies, .tokens (tokenResponse auth accessToken refreshToken csrfToken user)⟩

def register (auth : AuthService) (ip : String) (body : RegisterRequest) : Handler := do
  checkRateLimit ("register:" ++ ip) auth.config.rateLimits.registerWindowSecs
    auth.config.rateLimits.registerMax
  validateRegistration body
  let existing ← queryOr serverError (ask (.selectUserByEmail body.email))
  failIf existing.isSome (.conflict "Email already registered")
  let passwordHash ← hashPassword auth body.password
  match ← ExceptT.lift (ask (.insertUser body.email body.name passwordHash)) with
  | .error .uniqueViolation => throw (.conflict "Email already registered")
  | .error (.failed _) => throw (.internalError serverError)
  | .ok userId => signIn auth 201 ⟨userId, body.email, body.name, "local"⟩

structure LoginRequest where
  email : String
  password : String
  deriving DecidableEq, Repr

/-- A failed login; a failing increment is only logged. -/
def failLogin {α : Type} (ip : String) : ExceptT ApiError Action α := do
  let _ ← ExceptT.lift (backoffIncrement ip "login").run
  throw (.unauthorized "Invalid credentials")

/-- The three limits are checked concurrently on independent keys and looked at
in this order. -/
def checkLoginLimits (auth : AuthService) (ip email : String) :
    ExceptT ApiError Action Unit := do
  let backoff ← ExceptT.lift (backoffCheck ip "login").run
  let emailLimit ← ExceptT.lift (checkRateLimit ("login:email:" ++ email)
    auth.config.rateLimits.loginEmailWindowSecs auth.config.rateLimits.loginEmailMax).run
  let ipLimit ← ExceptT.lift (checkRateLimit ("login:ip:" ++ ip)
    auth.config.rateLimits.loginIpWindowSecs auth.config.rateLimits.loginIpMax).run
  match backoff with
  | .ok () =>
      emailLimit
      ipLimit
  | .error (.backoffBlocked remainingSecs count label) =>
      throw (.rateLimited ("Too many login attempts (" ++ toString count
        ++ " failures). Try again in " ++ toString remainingSecs ++ " seconds ("
        ++ label ++ " cooldown)."))
  | .error err =>
      throw (.internalError ("Backoff check failed: " ++ err.display))

def login (auth : AuthService) (ip : String) (body : LoginRequest) : Handler := do
  checkLoginLimits auth ip body.email
  match ← queryOr serverError (ask (.selectUserByEmail body.email)) with
  | none => failLogin ip
  | some user =>
      match user.passwordHash with
      | none => failLogin ip
      | some hash =>
          match auth.verifyPassword body.password hash with
          | .error err => throw (.internalError ("Invalid password hash: " ++ err))
          | .ok false => failLogin ip
          | .ok true => signIn auth 200 ⟨user.id, user.email, user.name, user.provider⟩

def clearCookie (name : String) (httpOnly : Bool) : String :=
  name ++ "=; " ++ (if httpOnly then "HttpOnly; " else "") ++ "Path=/; Max-Age=0; SameSite=Lax"

/-- Destroy the session of a request, if it has one; a failure is only logged. -/
def destroyOwnSession (user : AuthUser) : ExceptT ApiError Action Unit := do
  match user.sessionId with
  | some sessionId =>
      let _ ← ExceptT.lift (sessionDestroy sessionId).run
  | none => return ()

def loggedOut : Response where
  status := 204
  setCookies := [clearCookie "session" true, clearCookie "access_token" true,
    clearCookie "refresh_token" true, clearCookie "csrf_token" false]
  body := .empty

/-- Delete the refresh token of the JSON body, so that it cannot be used again. -/
def dropRefreshToken (body : Option String) : ExceptT ApiError Action Unit :=
  match body.filter fun token => token ≠ "" with
  | some token => orFail (cacheDelete .refresh token)
  | none => pure ()

/-- `body` is the refresh token of the JSON body, when there is one. -/
def logout (auth : AuthService) (user : AuthUser) (body : Option String) : Handler := do
  dropRefreshToken body
  orFail (cacheSet .blacklist user.jti true auth.config.jwtExpiry)
  destroyOwnSession user
  return loggedOut

def resetTokenTtlSecs : UInt64 := 3600

def storeResetToken (user : Option User) : ExceptT ApiError Action Unit :=
  match user with
  | some user => do
      let _ ← orFail (cacheSetFresh .reset user.id resetTokenTtlSecs)
  | none => pure ()

def forgotPassword (auth : AuthService) (ip email : String) : Handler := do
  checkRateLimit ("forgot:" ++ ip) auth.config.rateLimits.forgotWindowSecs
    auth.config.rateLimits.forgotMax
  failIf (!isEmail email) (.validationError "Invalid email")
  let user ← queryOr serverError (ask (.selectUserByEmail email))
  storeResetToken user
  return ⟨202, [], .message "If the email exists, a reset link has been generated"⟩

structure ResetPasswordRequest where
  token : String
  password : String
  deriving DecidableEq, Repr

def resetPassword (auth : AuthService) (body : ResetPasswordRequest) : Handler := do
  validatePassword body.password
  failIf (body.token = "") (.validationError "Reset token is required")
  match ← orFail (cacheGet .reset body.token) with
  | none => throw (.unauthorized "Invalid or expired reset token")
  | some userId =>
      let passwordHash ← hashPassword auth body.password
      let rowsAffected ← queryOr serverError (ask (.updatePassword passwordHash userId))
      orFail (cacheDelete .reset body.token)
      failIf (rowsAffected = 0)
        (.unauthorized "Cannot reset password for OAuth-linked accounts")
      ExceptT.lift (sessionDestroyAllForUser userId)
      return ⟨200, [], .message "Password updated successfully"⟩

/-- The refresh token of a request: from the body, else from the cookie. -/
def presentedRefreshToken (headers : Headers) (body : Option String) : Option String :=
  (body.filter fun token => token ≠ "").or (headers.findCookie "refresh_token")

def refresh (auth : AuthService) (headers : Headers) (body : Option String) : Handler := do
  match presentedRefreshToken headers body with
  | none => throw (.unauthorized "Invalid or expired refresh token")
  | some token =>
      match ← orFail (refreshTokenRotate token) with
      | none => throw (.unauthorized "Invalid or expired refresh token")
      | some userId =>
          match ← queryOr serverError (ask (.selectUserById userId)) with
          | none => throw (.unauthorized "Invalid credentials")
          | some user =>
              let accessToken ← (createToken auth user.id user.email user.name
                user.provider).adapt fun _ => .internalError "Failed to create token"
              let refreshToken ←
                orFail (cacheSetFresh .refresh user.id auth.config.refreshExpiry)
              let (csrfToken, cookies) ← setAuthCookies [] accessToken refreshToken none
                auth.config.jwtExpiry auth.config.refreshExpiry auth.config.cookieSecure
              return ⟨200, cookies, .tokens (tokenResponse auth accessToken refreshToken
                csrfToken ⟨user.id, user.email, user.name, user.provider⟩)⟩

def me (user : AuthUser) : Handler := return ⟨200, [], .me user⟩

def deleteAccount (auth : AuthService) (user : AuthUser) : Handler := do
  orFail (cacheSet .blacklist user.jti true auth.config.jwtExpiry)
  destroyOwnSession user
  queryOr "Failed to delete account data" (ask (.deleteNotes user.userId))
  let rowsAffected ← queryOr "Failed to delete account" (ask (.deleteUser user.userId))
  failIf (rowsAffected = 0) (.notFound "User not found")
  return ⟨204, [], .empty⟩

def parseProvider (provider : String) : Except ApiError OAuthProvider :=
  let lower := provider.toList.map Char.toLower
  if lower = "google".toList then .ok .google
  else if lower = "github".toList then .ok .gitHub
  else .error (.validationError ("Unknown OAuth provider: " ++ provider))

/-- `csrf_value.to_string()`. -/
def csrfValue (provider : OAuthProvider) (sessionId : Option String) : String :=
  String.ofList (write (.object [("provider".toList, .string provider.display.toList),
    ("session_id".toList, sessionId.elim .null fun id => .string id.toList)]))

/-- What `cache_set` writes for a `String`. -/
def storedText (value : String) : String := String.ofList (write (.string value.toList))

/-- What `cache_get_delete` reads it as. The message of `serde_json` is left out. -/
def readStored (text : String) : Except CacheError String :=
  match parse text with
  | some (.string value) => .ok (String.ofList value)
  | _ => .error (.serializationFailed "")

def oauthRedirect (auth : AuthService) (headers : Headers) (provider : String) : Handler := do
  let provider ← parseProvider provider
  failIf (!auth.oauthConfigured provider)
    (.serviceUnavailable (provider.display ++ " OAuth not configured"))
  match auth.config.oauthRedirectUrl with
  | none => throw (.internalError "OAUTH_REDIRECT_URL not configured")
  | some redirectUrl =>
      let csrf ← orFail (cacheSetFresh .oauthCsrf
        (storedText (csrfValue provider (headers.findCookie "session"))) 600)
      return ⟨302, [], .location (auth.oauthRedirect provider redirectUrl csrf)⟩

structure StoredOAuthState where
  provider : String
  sessionId : Option String
  deriving DecidableEq, Repr

/-- JSON without a usable session id binds nothing; a text that is not JSON is a provider. -/
def parseStoredOAuthState (stored : String) : Except ApiError StoredOAuthState :=
  match parse stored with
  | some data =>
      match (data.get "provider").asStr with
      | some provider =>
          .ok ⟨provider, (data.get "session_id").asStr.filter fun id => id ≠ ""⟩
      | none => .error (.unauthorized "Invalid OAuth state: JSON without provider")
  | none =>
      if stored = "" then .error (.unauthorized "Invalid OAuth state") else .ok ⟨stored, none⟩

/-- The stored state against the callback's provider and session cookie. -/
def validateOAuthStateMatch (stored : StoredOAuthState) (expectedProvider : String)
    (currentSessionId : Option String) : Except ApiError Unit :=
  if stored.provider ≠ expectedProvider then .error (.unauthorized "OAuth provider mismatch")
  else
    match stored.sessionId, currentSessionId with
    | none, _ => .ok ()
    | some bound, some current =>
        if current = bound then .ok () else .error (.unauthorized "OAuth session mismatch")
    | some _, none => .error (.unauthorized "OAuth requires an active session")

structure OAuthCallbackQuery where
  code : String
  state : String
  deriving DecidableEq, Repr

def oauthCallback (auth : AuthService) (headers : Headers) (ip provider : String)
    (query : OAuthCallbackQuery) : Handler := do
  let provider ← parseProvider provider
  checkRateLimit ("oauth_callback:" ++ ip) auth.config.rateLimits.oauthCallbackWindowSecs
    auth.config.rateLimits.oauthCallbackMax
  match ← orFail (cacheGetDelete .oauthCsrf query.state) with
  | none => throw (.unauthorized "Invalid or expired OAuth state")
  | some text =>
      let stored ← (readStored text).mapError CacheError.toApi
      let stored ← parseStoredOAuthState stored
      validateOAuthStateMatch stored provider.display (headers.findCookie "session")
      match ← ExceptT.lift (ask (.exchangeCode provider.display query.code)) with
      | none => throw (.unauthorized "OAuth authentication failed")
      | some (email, name) =>
          let userId ← queryOr serverError (ask (.upsertUser email name provider.display))
          let user : UserInfo := ⟨userId, email, name, provider.display⟩
          let accessToken ← createToken auth user.id user.email user.name user.provider
          let refreshToken ←
            orFail (cacheSetFresh .refresh user.id auth.config.refreshExpiry)
          let sessionId ← openSession auth user
          let (csrfToken, cookies) ← setAuthCookies [] accessToken refreshToken (some sessionId)
            auth.config.jwtExpiry auth.config.refreshExpiry auth.config.cookieSecure
          return ⟨200, cookies,
            .tokens (tokenResponse auth accessToken refreshToken csrfToken user)⟩

end FullStackHex
