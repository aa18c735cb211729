import FullStackHex.Library.Codec
import FullStackHex.World

/-!
Configuration, request headers and tokens: `auth/src/lib.rs`, `jwt.rs`,
`cookies.rs`, `csrf.rs` and `util.rs`. The signature and the encoding of JWTs
and the password hash are third-party code and stay parameters; the clock check
of a token is `jsonwebtoken`'s default validation.
-/

namespace FullStackHex

open Concurrent Expiring

inductive AuthMode where
  | cookie
  | bearer
  | both
  deriving DecidableEq, Repr

structure RateLimitConfig where
  registerMax : UInt64
  registerWindowSecs : UInt64
  loginEmailMax : UInt64
  loginEmailWindowSecs : UInt64
  loginIpMax : UInt64
  loginIpWindowSecs : UInt64
  forgotMax : UInt64
  forgotWindowSecs : UInt64
  oauthCallbackMax : UInt64
  oauthCallbackWindowSecs : UInt64
  deriving DecidableEq, Repr

def RateLimitConfig.default : RateLimitConfig := ⟨5, 900, 5, 300, 10, 300, 3, 900, 10, 60⟩

structure AuthConfig where
  jwtIssuer : String
  jwtExpiry : UInt64
  refreshExpiry : UInt64
  authMode : AuthMode
  oauthRedirectUrl : Option String
  failOpenOnRedisError : Bool
  rateLimits : RateLimitConfig
  cookieSecure : Bool
  deriving DecidableEq, Repr

inductive OAuthProvider where
  | google
  | gitHub
  deriving DecidableEq, Repr

def OAuthProvider.display : OAuthProvider → String
  | .google => "google"
  | .gitHub => "github"

structure Claims where
  sub : Uuid
  email : String
  name : Option String
  provider : String
  exp : UInt64
  iat : UInt64
  iss : String
  jti : String
  deriving DecidableEq, Repr

/-- The configured service. `encode` signs, `decode` checks shape and signature
and reports the library's error text; `hashPassword` takes the salt. -/
structure AuthService where
  config : AuthConfig
  encode : Claims → Except String String
  decode : String → Except String Claims
  hashPassword : String → String → Except String String
  verifyPassword : String → String → Except String Bool
  oauthConfigured : OAuthProvider → Bool
  oauthRedirect : OAuthProvider → String → String → String

/-! ## Text and headers -/

def utf8 (text : String) : List UInt8 := text.toList.flatMap String.utf8EncodeChar

/-- `str::len`. -/
def byteLength (text : String) : Nat := (utf8 text).length

def trim (text : List Char) : List Char :=
  (text.dropWhile Char.isWhitespace).rdropWhile Char.isWhitespace

/-- What `HeaderValue::to_str` and `HeaderValue::from_str` let through. -/
def isHeaderChar (c : Char) : Bool := (' ' ≤ c && c ≤ '~') || c == '\t'

/-- `to_str` of a header value. Other bytes stand as characters that it refuses. -/
def headerStr (value : String) : Option (List Char) :=
  if value.toList.all isHeaderChar then some value.toList else none

inductive Method where
  | get
  | post
  | put
  | delete
  | patch
  | other
  deriving DecidableEq, Repr

structure Headers where
  authorization : Option String
  cookie : Option String
  csrf : Option String
  origin : Option String
  deriving DecidableEq, Repr

def Headers.none : Headers := ⟨.none, .none, .none, .none⟩

structure Request where
  method : Method
  path : String
  headers : Headers
  deriving DecidableEq, Repr

/-! ## Cookies -/

/-- The first cookie with this name; the search behind `parse_cookie_value` and
the handlers that read cookies by hand. -/
def findCookie (header : List Char) (name : String) : Option (List Char) :=
  (header.splitOn ';').findSome? fun part =>
    (trim part).dropPrefix? (name ++ "=").toList

def parseCookieValue (header : List Char) (name : String) : Option (List Char) :=
  (findCookie header name).filter fun value => value ≠ []

/-- A cookie of a request, empty or not. -/
def Headers.findCookie (headers : Headers) (name : String) : Option String :=
  ((headers.cookie.bind headerStr).bind fun header => FullStackHex.findCookie header name).map
    String.ofList

def setCookie (cookies : List String) (name value : String) (maxAge : UInt64)
    (httpOnly secure : Bool) : Except ApiError (List String) :=
  let cookie := name ++ "=" ++ value ++ "; Path=/; Max-Age=" ++ toString maxAge.toNat
    ++ "; SameSite=Lax" ++ (if httpOnly then "; HttpOnly" else "")
    ++ (if secure then "; Secure" else "")
  if cookie.toList.all isHeaderChar then .ok (cookies ++ [cookie])
  else .error (.internalError
    "failed to construct Set-Cookie header: failed to parse header value")

def generateCsrfToken : Action String := ask .draw

/-- Equality of two byte strings of one length as a fold over their differences. -/
def constantTimeEq (a b : List UInt8) : Bool :=
  if a.length ≠ b.length then false
  else (a.zip b).foldl (fun acc xy => acc ||| (xy.1 ^^^ xy.2)) 0 == 0

def constantTimeStrEq (a b : List Char) : Bool :=
  constantTimeEq (a.flatMap String.utf8EncodeChar) (b.flatMap String.utf8EncodeChar)

theorem foldl_or_eq_zero_iff {xs : List (UInt8 × UInt8)} {acc : UInt8} :
    xs.foldl (fun acc xy => acc ||| (xy.1 ^^^ xy.2)) acc = 0 ↔
      acc = 0 ∧ ∀ xy ∈ xs, xy.1 = xy.2 := by
  induction xs generalizing acc with
  | nil => simp
  | cons xy rest ih =>
      rw [List.foldl_cons, ih, UInt8.or_eq_zero_iff, UInt8.xor_eq_zero_iff, List.forall_mem_cons,
        and_assoc]

/-- The comparison reads all of both, and finds any difference. -/
theorem constantTimeEq_iff {a b : List UInt8} : constantTimeEq a b = true ↔ a = b := by
  unfold constantTimeEq
  split
  · rename_i hlength
    refine iff_of_false (by decide) ?_
    rintro rfl
    exact hlength rfl
  · rename_i hlength
    rw [ne_eq, not_not] at hlength
    rw [beq_iff_eq, foldl_or_eq_zero_iff]
    constructor
    · rintro ⟨-, hall⟩
      apply List.ext_getElem hlength
      intro i hi hi'
      exact hall _ (List.mem_iff_getElem.mpr ⟨i, by simp; omega, List.getElem_zip⟩)
    · rintro rfl
      refine ⟨rfl, fun xy hxy => ?_⟩
      obtain ⟨i, hi, rfl⟩ := List.mem_iff_getElem.mp hxy
      rw [List.getElem_zip]

theorem constantTimeStrEq_iff {a b : List Char} : constantTimeStrEq a b = true ↔ a = b := by
  unfold constantTimeStrEq
  rw [constantTimeEq_iff]
  constructor
  · intro h
    have hbytes : Codec.utf8 (String.ofList a) = Codec.utf8 (String.ofList b) := by
      unfold Codec.utf8
      rw [String.toList_ofList, String.toList_ofList]
      exact h
    have hsame := congrArg String.toList (Codec.utf8_injective hbytes)
    rwa [String.toList_ofList, String.toList_ofList] at hsame
  · rintro rfl
    rfl

def validateCsrfToken (cookieToken headerToken : List Char) : Bool :=
  if cookieToken.isEmpty || headerToken.isEmpty then false
  else constantTimeStrEq cookieToken headerToken

def setAuthCookies (cookies : List String) (accessToken refreshToken : String)
    (sessionId : Option String) (jwtExpiry refreshExpiry : UInt64) (secure : Bool) :
    ExceptT ApiError Action (String × List String) := do
  let csrfToken ← (generateCsrfToken : Action String)
  let cookies ← setCookie cookies "access_token" accessToken jwtExpiry true secure
  let cookies ← setCookie cookies "refresh_token" refreshToken refreshExpiry true secure
  let cookies ← setCookie cookies "csrf_token" csrfToken jwtExpiry false secure
  match sessionId with
  | some id => return (csrfToken, ← setCookie cookies "session" id jwtExpiry true secure)
  | none => return (csrfToken, cookies)

/-! ## JWTs -/

def unixTimestampSecs : Action Nat := do
  return (← ask .now) / 1000

/-- The leeway of `Validation::default()`, in seconds. -/
def leeway : Nat := 60

/-- The claims of a token issued at `now`. The sum wraps around in release builds. -/
def newClaims (auth : AuthService) (now : Nat) (userId : Uuid) (email : String)
    (name : Option String) (provider jti : String) : Claims where
  sub := userId
  email := email
  name := name
  provider := provider
  exp := UInt64.ofNat now + auth.config.jwtExpiry
  iat := UInt64.ofNat now
  iss := auth.config.jwtIssuer
  jti := jti

def createToken (auth : AuthService) (userId : Uuid) (email : String)
    (name : Option String) (provider : String) : ExceptT ApiError Action String := do
  let now ← (unixTimestampSecs : Action Nat)
  let jti ← (ask .draw : Action String)
  match auth.encode (newClaims auth now userId email name provider jti) with
  | .ok token => return token
  | .error err => throw (.internalError ("JWT encode error: " ++ err))

/-- The checks of the library on the claims of a well-signed token. -/
def checkClaims (auth : AuthService) (now : Nat) (claims : Claims) :
    Except ApiError Claims :=
  if claims.exp.toNat + leeway < now then .error (.unauthorized "Token expired")
  else if claims.iss ≠ auth.config.jwtIssuer then
    .error (.unauthorized "Invalid token: InvalidIssuer")
  else .ok claims

def validateToken (auth : AuthService) (token : String) :
    ExceptT ApiError Action Claims := do
  match auth.decode token with
  | .error err => throw (.unauthorized ("Invalid token: " ++ err))
  | .ok claims =>
      let now ← (unixTimestampSecs : Action Nat)
      checkClaims auth now claims

/-- The verdict on a token at a moment given in seconds. -/
def tokenVerdict (auth : AuthService) (token : String) (now : Nat) : Except ApiError Claims :=
  match auth.decode token with
  | .error err => .error (.unauthorized ("Invalid token: " ++ err))
  | .ok claims => checkClaims auth now claims

@[simp] theorem alone_validateToken (auth : AuthService) (token : String) (e : Choice)
    (w : World) :
    alone e (validateToken auth token) w = (tokenVerdict auth token (w.now / 1000), w) := by
  unfold validateToken tokenVerdict
  cases auth.decode token with
  | error err => rfl
  | ok claims => rfl

theorem checkClaims_eq_ok {auth : AuthService} {now : Nat} {claims c : Claims} :
    checkClaims auth now claims = .ok c ↔
      now ≤ claims.exp.toNat + leeway ∧ claims.iss = auth.config.jwtIssuer ∧ claims = c := by
  unfold checkClaims
  split
  · rename_i hexp
    simp only [reduceCtorEq, false_iff]
    rintro ⟨hle, _⟩
    omega
  · rename_i hexp
    split
    · rename_i hiss
      simp only [reduceCtorEq, false_iff]
      rintro ⟨_, heq, _⟩
      exact hiss heq
    · rename_i hiss
      rw [not_not] at hiss
      simp only [Except.ok.injEq]
      exact ⟨fun h => ⟨by omega, hiss, h⟩, fun h => h.2.2⟩

/-- A token is accepted from its issue to the end of the second `exp + 60`. -/
theorem tokenVerdict_eq_ok {auth : AuthService} {token : String} {now : Nat} {c : Claims} :
    tokenVerdict auth token now = .ok c ↔
      auth.decode token = .ok c ∧ now ≤ c.exp.toNat + leeway ∧
        c.iss = auth.config.jwtIssuer := by
  unfold tokenVerdict
  cases hdecode : auth.decode token with
  | error err => simp
  | ok claims =>
      simp only [checkClaims_eq_ok, Except.ok.injEq]
      constructor
      · rintro ⟨hexp, hiss, rfl⟩
        exact ⟨rfl, hexp, hiss⟩
      · rintro ⟨rfl, hexp, hiss⟩
        exact ⟨hexp, hiss, rfl⟩

/-- `encode` and `decode` are inverse, as the library promises for one key. -/
def AuthService.RoundTrip (auth : AuthService) : Prop :=
  ∀ claims token, auth.encode claims = .ok token → auth.decode token = .ok claims

/-- A service whose tokens are those of a list; concrete runs use it. -/
def AuthService.ofTokens (config : AuthConfig) (tokens : List (String × Claims)) :
    AuthService where
  config := config
  encode claims :=
    match tokens.find? fun entry => entry.2 = claims with
    | some entry => .ok entry.1
    | none => .error "unknown claims"
  decode token :=
    match tokens.find? fun entry => entry.1 = token with
    | some entry => .ok entry.2
    | none => .error "InvalidToken"
  hashPassword password salt := .ok (salt ++ "$" ++ password)
  verifyPassword password hash := .ok ((password.toList.isSuffixOf hash.toList : Bool))
  oauthConfigured _ := false
  oauthRedirect _ url csrf := url ++ "?state=" ++ csrf

theorem AuthService.ofTokens_decode {config : AuthConfig} {tokens : List (String × Claims)}
    {token : String} {claims : Claims}
    (h : (AuthService.ofTokens config tokens).decode token = .ok claims) :
    (token, claims) ∈ tokens := by
  simp only [ofTokens] at h
  split at h
  · rename_i entry hfind
    cases h
    have hkey : entry.1 = token := by simpa using List.find?_some hfind
    rw [← hkey]
    exact List.mem_of_find?_eq_some hfind
  · cases h

theorem AuthService.ofTokens_roundTrip (config : AuthConfig)
    {tokens : List (String × Claims)} (hkeys : (tokens.map Prod.fst).Nodup) :
    (AuthService.ofTokens config tokens).RoundTrip := by
  intro claims token h
  simp only [ofTokens] at h ⊢
  split at h
  · rename_i entry hfind
    cases h
    have hmem := List.mem_of_find?_eq_some hfind
    have hclaims : entry.2 = claims := by simpa using List.find?_some hfind
    split
    · rename_i other hother
      have hkey : other.1 = entry.1 := by simpa using List.find?_some hother
      have heq := List.inj_on_of_nodup_map hkeys (List.mem_of_find?_eq_some hother) hmem hkey
      rw [heq, hclaims]
    · rename_i hnone
      exact absurd (decide_eq_true rfl) (List.find?_eq_none.mp hnone entry hmem)
  · cases h

/-! The tokens of the two users, for concrete runs. -/

namespace Sample

def config (mode : AuthMode) : AuthConfig :=
  ⟨"fullstackhex", 900, 604800, mode, none, true, .default, true⟩

def aliceClaims : Claims :=
  ⟨alice, "alice@example.com", none, "local", 900, 0, "fullstackhex", "jti-alice"⟩

def bobClaims : Claims :=
  ⟨bob, "bob@example.com", none, "local", 900, 0, "fullstackhex", "jti-bob"⟩

def auth (mode : AuthMode) : AuthService :=
  .ofTokens (config mode) [("alice.token", aliceClaims), ("bob.token", bobClaims)]

def bearer (token : String) : Headers :=
  { Headers.none with authorization := some ("Bearer " ++ token) }

def cookies (header : String) : Headers := { Headers.none with cookie := some header }

end Sample

end FullStackHex
