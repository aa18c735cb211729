import FullStackHex.Auth.Routes
import FullStackHex.Cache.SessionRuns

/-!
The requests of the authentication API as a system: any number of them, in any
interleaving of their commands. A route behind the middleware runs the
middleware first and its handler with the user that the middleware attached.
-/

namespace FullStackHex

open Concurrent Expiring

/-- A request, a session lookup of `/live`, or the passing of time. -/
inductive Call where
  | pass (ms : Nat)
  | lookup (sessionId : String)
  | register (ip : String) (body : RegisterRequest)
  | login (ip : String) (body : LoginRequest)
  | forgotPassword (ip email : String)
  | resetPassword (body : ResetPasswordRequest)
  | refresh (headers : Headers) (body : Option String)
  | oauthRedirect (headers : Headers) (provider : String)
  | oauthCallback (headers : Headers) (ip provider : String) (query : OAuthCallbackQuery)
  | me (req : Request)
  | logout (req : Request) (body : Option String)
  | deleteAccount (req : Request)
  deriving DecidableEq, Repr

/-- What the extractor of `AuthUser` and the middleware refuse a request with. -/
inductive AuthRejection where
  | unauthorized
  | forbidden
  deriving DecidableEq, Repr

inductive Outcome where
  | passed
  | found (result : Except CacheError Session)
  | answered (result : Except ApiError Response)
  | rejected (rejection : AuthRejection)
  | served (user : AuthUser) (result : Except ApiError Response)
  deriving DecidableEq

/-- The user that the middleware attached to a call that has returned. -/
def Outcome.user? : Outcome → Option AuthUser
  | .served user _ => some user
  | _ => none

/-- A handler that takes an `AuthUser`, behind the middleware. -/
def behindAuth (auth : AuthService) (req : Request) (handler : AuthUser → Handler) :
    Action Outcome := do
  match ← authMiddleware auth req with
  | .forbidden => return .rejected .forbidden
  | .next none => return .rejected .unauthorized
  | .next (some user) => return .served user (← (handler user).run)

def Call.body (auth : AuthService) : Call → Action Outcome
  | .pass ms => do
      ask (.pass ms)
      return .passed
  | .lookup sessionId => return .found (← (sessionGet sessionId).run)
  | .register ip body => return .answered (← (FullStackHex.register auth ip body).run)
  | .login ip body => return .answered (← (FullStackHex.login auth ip body).run)
  | .forgotPassword ip email =>
      return .answered (← (FullStackHex.forgotPassword auth ip email).run)
  | .resetPassword body => return .answered (← (FullStackHex.resetPassword auth body).run)
  | .refresh headers body => return .answered (← (FullStackHex.refresh auth headers body).run)
  | .oauthRedirect headers provider =>
      return .answered (← (FullStackHex.oauthRedirect auth headers provider).run)
  | .oauthCallback headers ip provider query =>
      return .answered (← (FullStackHex.oauthCallback auth headers ip provider query).run)
  | .me req => behindAuth auth req FullStackHex.me
  | .logout req body => behindAuth auth req fun user => FullStackHex.logout auth user body
  | .deleteAccount req => behindAuth auth req (FullStackHex.deleteAccount auth)

def api (auth : AuthService) : System Choice Call Cmd Reply State Outcome where
  exec := exec
  body := Call.body auth

/-! ## The commands of the handlers -/

/-- Commands that every handler may issue: they touch neither reset tokens that
exist nor the index of sessions, write the blacklist with `true` only, and give
sessions and entries the lifetime `jwt_expiry`. -/
def Cmd.Ordinary (auth : AuthService) : Cmd → Prop
  | .sessionCreate _ ttl => ttl = auth.config.jwtExpiry.toNat
  | .set .blacklist _ listed ttl => listed = true ∧ ttl = auth.config.jwtExpiry.toNat
  | .setFresh ns _ _ => ns ≠ .blacklist
  | .get ns _ => ns ≠ .reset
  | .del ns _ | .getdel ns _ => ns = .refresh ∨ ns = .oauthCsrf
  | .set _ _ _ _ | .sessionCachePut _ _ | .sessionExpire _ _ | .renameSessions _
  | .destroyingMembers _ | .delDestroying _ | .delSessions _ | .sessionCacheRetain _ => False
  | _ => True

/-- Commands of the rate limits and the backoff. -/
def Cmd.Counting : Cmd → Prop
  | .now | .rateLimit _ _ _ _ _ | .backoffRead _ | .backoffIncrement _ _ _ _ _ => True
  | _ => False

/-- The command stores a value under a key that it draws. -/
def Cmd.DrawsKey : Cmd → Prop
  | .setFresh _ _ _ => True
  | _ => False

/-- An ordinary command that draws no key. -/
def Cmd.Plain (auth : AuthService) : Cmd → Prop
  | .setFresh _ _ _ => False
  | c => c.Ordinary auth

/-- A plain command that writes no row. -/
def Cmd.Rowless (auth : AuthService) (c : Cmd) : Prop := c.Plain auth ∧ ¬ World.WritesTable c

/-- An ordinary command that stores nothing but refresh tokens and reset tokens under a key that
it draws. -/
def Cmd.Granting (auth : AuthService) : Cmd → Prop
  | .setFresh ns _ _ => ns = .refresh ∨ ns = .reset
  | c => c.Ordinary auth

/-- What no handler does: it never extends a session or writes a cached value
under a given key, the blacklist aside, and never takes from the blacklist. -/
def Cmd.Tame (auth : AuthService) : Cmd → Prop
  | .sessionCreate _ ttl => ttl = auth.config.jwtExpiry.toNat
  | .sessionExpire _ _ => False
  | .set .blacklist _ listed ttl => listed = true ∧ ttl = auth.config.jwtExpiry.toNat
  | .set _ _ _ _ => False
  | .setFresh ns _ _ | .del ns _ | .getdel ns _ => ns ≠ .blacklist
  | _ => True

/-- A tame command that draws no key. -/
def Cmd.Steady (auth : AuthService) : Cmd → Prop
  | .setFresh _ _ _ => False
  | c => c.Tame auth

theorem Cmd.Granting.ordinary {auth : AuthService} {c : Cmd} (h : c.Granting auth) :
    c.Ordinary auth := by
  cases c with
  | setFresh => rcases h with rfl | rfl <;> exact fun h => nomatch h
  | _ => exact h

theorem Cmd.Plain.granting {auth : AuthService} {c : Cmd} (h : c.Plain auth) :
    c.Granting auth := by
  cases c with
  | setFresh => cases h
  | _ => exact h

theorem Cmd.Plain.ordinary {auth : AuthService} {c : Cmd} (h : c.Plain auth) :
    c.Ordinary auth := h.granting.ordinary

theorem Cmd.Counting.plain {auth : AuthService} {c : Cmd} (h : c.Counting) : c.Plain auth := by
  cases c with
  | now | rateLimit | backoffRead | backoffIncrement => trivial
  | _ => cases h

theorem Cmd.Counting.tableless {c : Cmd} (h : c.Counting) : ¬ World.WritesTable c := by
  cases c with
  | now | rateLimit | backoffRead | backoffIncrement => exact id
  | _ => cases h

theorem Cmd.Steady.tame {auth : AuthService} {c : Cmd} (h : c.Steady auth) : c.Tame auth := by
  cases c with
  | setFresh => cases h
  | _ => exact h

theorem Cmd.Steady.not_drawsKey {auth : AuthService} {c : Cmd} (h : c.Steady auth) :
    ¬ c.DrawsKey := by
  intro hdraws
  cases c with
  | setFresh => exact h
  | _ => exact hdraws

theorem Cmd.Ordinary.tame {auth : AuthService} {c : Cmd} (h : c.Ordinary auth) :
    c.Tame auth := by
  cases c with
  | set ns key value ttl =>
      cases ns with
      | blacklist => exact h
      | refresh | reset | oauthCsrf => cases h
  | del ns key | getdel ns key => rcases h with rfl | rfl <;> exact fun h => nomatch h
  | sessionCreate | setFresh | sessionExpire => exact h
  | _ => trivial

theorem Cmd.Plain.steady {auth : AuthService} {c : Cmd} (h : c.Plain auth) :
    c.Steady auth := by
  have htame := h.ordinary.tame
  cases c with
  | setFresh => cases h
  | _ => exact htame

section Ordinary

theorem granted {auth : AuthService} {α : Type} {p : Action α} (h : p.All (Cmd.Plain auth)) :
    p.All (Cmd.Granting auth) := h.mono fun _ => Cmd.Plain.granting

theorem ordinarily {auth : AuthService} {α : Type} {p : Action α} (h : p.All (Cmd.Granting auth)) :
    p.All (Cmd.Ordinary auth) := h.mono fun _ => Cmd.Granting.ordinary

variable (auth : AuthService)

theorem rowless_createToken (userId : Uuid) (email : String) (name : Option String)
    (provider : String) :
    (createToken auth userId email name provider).run.All (Cmd.Rowless auth) := by
  refine Program.All.bindExcept (Program.All.lift ⟨⟨trivial, id⟩, fun _ => trivial⟩) fun now => ?_
  refine Program.All.bindExcept (Program.All.lift ⟨⟨trivial, id⟩, fun _ => trivial⟩) fun jti => ?_
  split <;> trivial

theorem plain_createToken (userId : Uuid) (email : String) (name : Option String)
    (provider : String) :
    (createToken auth userId email name provider).run.All (Cmd.Plain auth) :=
  (rowless_createToken auth userId email name provider).mono fun _ => And.left

theorem counting_checkRateLimit (key : String) (windowSecs maxRequests : UInt64) :
    (checkRateLimit key windowSecs maxRequests).run.All Cmd.Counting := by
  refine Program.All.bindExcept (Program.All.adapt ?_) fun result => ?_
  · exact ⟨trivial, fun now => ⟨trivial, fun reply => by cases reply <;> trivial⟩⟩
  · split
    · exact ⟨trivial, fun now => trivial⟩
    · trivial

theorem plain_checkRateLimit (key : String) (windowSecs maxRequests : UInt64) :
    (checkRateLimit key windowSecs maxRequests).run.All (Cmd.Plain auth) :=
  (counting_checkRateLimit key windowSecs maxRequests).mono fun _ => Cmd.Counting.plain

theorem rowless_setAuthCookies (cookies : List String) (access refresh : String)
    (sessionId : Option String) (jwtExpiry refreshExpiry : UInt64) (secure : Bool) :
    (setAuthCookies cookies access refresh sessionId jwtExpiry refreshExpiry secure).run.All
      (Cmd.Rowless auth) := by
  refine ⟨⟨trivial, id⟩, fun csrf => ?_⟩
  refine Program.All.bindExcept trivial fun cookies => ?_
  refine Program.All.bindExcept trivial fun cookies => ?_
  refine Program.All.bindExcept trivial fun cookies => ?_
  cases sessionId with
  | none => trivial
  | some id => exact Program.All.bindExcept trivial fun cookies => trivial

theorem plain_setAuthCookies (cookies : List String) (access refresh : String)
    (sessionId : Option String) (jwtExpiry refreshExpiry : UInt64) (secure : Bool) :
    (setAuthCookies cookies access refresh sessionId jwtExpiry refreshExpiry secure).run.All
      (Cmd.Plain auth) :=
  (rowless_setAuthCookies auth cookies access refresh sessionId jwtExpiry refreshExpiry
    secure).mono fun _ => And.left

theorem granting_setFresh (ns : Namespace) (value : ns.Value) (ttl : UInt64)
    (h : ns = .refresh ∨ ns = .reset) :
    (orFail (cacheSetFresh ns value ttl)).run.All (Cmd.Granting auth) :=
  Program.All.adapt ⟨h, fun _ => trivial⟩

theorem rowless_openSession (user : UserInfo) :
    (openSession auth user).run.All (Cmd.Rowless auth) :=
  ⟨⟨trivial, id⟩, fun _ => Program.All.adapt ⟨⟨rfl, id⟩, fun _ => trivial⟩⟩

theorem plain_openSession (user : UserInfo) :
    (openSession auth user).run.All (Cmd.Plain auth) :=
  (rowless_openSession auth user).mono fun _ => And.left

theorem rowless_hashPassword (password : String) :
    (hashPassword auth password).run.All (Cmd.Rowless auth) := by
  refine Program.All.bindExcept (Program.All.lift ⟨⟨trivial, id⟩, fun _ => trivial⟩) fun salt => ?_
  split <;> trivial

theorem plain_hashPassword (password : String) :
    (hashPassword auth password).run.All (Cmd.Plain auth) :=
  (rowless_hashPassword auth password).mono fun _ => And.left

theorem granting_signIn (status : Nat) (user : UserInfo) :
    (signIn auth status user).run.All (Cmd.Granting auth) := by
  refine Program.All.bindExcept (granted (plain_createToken auth _ _ _ _)) fun access => ?_
  refine Program.All.bindExcept (granting_setFresh auth _ _ _ (by decide)) fun refresh => ?_
  refine Program.All.bindExcept (granted (plain_setAuthCookies auth _ _ _ _ _ _ _)) fun cookies => ?_
  refine Program.All.bindExcept (granted (plain_openSession auth user)) fun id => ?_
  exact Program.All.bindExcept trivial fun cookies => trivial

/-- Once the identity of the user is known, no row is written. -/
theorem tableless_signIn (status : Nat) (user : UserInfo) :
    (signIn auth status user).run.All fun c => ¬ World.WritesTable c := by
  refine Program.All.bindExcept ((rowless_createToken auth _ _ _ _).mono fun _ => And.right)
    fun access => ?_
  refine Program.All.bindExcept (Program.All.adapt ⟨id, fun _ => trivial⟩) fun refresh => ?_
  refine Program.All.bindExcept
    ((rowless_setAuthCookies auth _ _ _ _ _ _ _).mono fun _ => And.right) fun cookies => ?_
  refine Program.All.bindExcept ((rowless_openSession auth user).mono fun _ => And.right)
    fun id => ?_
  exact Program.All.bindExcept trivial fun cookies => trivial

theorem granting_register (ip : String) (body : RegisterRequest) :
    (register auth ip body).run.All (Cmd.Granting auth) := by
  refine Program.All.bindExcept (granted (plain_checkRateLimit auth _ _ _)) fun _ => ?_
  refine Program.All.bindExcept trivial fun _ => ?_
  refine Program.All.bindExcept (Program.All.adapt ⟨trivial, fun _ => trivial⟩)
    fun existing => ?_
  refine Program.All.bindExcept trivial fun _ => ?_
  refine Program.All.bindExcept (granted (plain_hashPassword auth _)) fun hash => ?_
  refine Program.All.bindExcept (Program.All.lift ⟨trivial, fun _ => trivial⟩) fun inserted => ?_
  match inserted with
  | .error .uniqueViolation => trivial
  | .error (.failed _) => trivial
  | .ok userId => exact granting_signIn auth _ _

theorem counting_failLogin {α : Type} (ip : String) :
    (failLogin ip : ExceptT ApiError Action α).run.All Cmd.Counting := by
  refine Program.All.bindExcept (Program.All.lift ?_) fun _ => trivial
  exact ⟨trivial, fun reply => by cases reply <;> trivial⟩

theorem counting_backoffCheck (ip endpoint : String) :
    (backoffCheck ip endpoint).run.All Cmd.Counting := by
  refine Program.All.bindExcept ⟨trivial, fun _ => trivial⟩ fun ⟨count, remaining⟩ => ?_
  dsimp only
  split_ifs <;> trivial

theorem counting_checkLoginLimits (ip email : String) :
    (checkLoginLimits auth ip email).run.All Cmd.Counting := by
  refine Program.All.bindExcept (Program.All.lift (counting_backoffCheck _ _))
    fun backoff => ?_
  refine Program.All.bindExcept (Program.All.lift (counting_checkRateLimit _ _ _))
    fun emailLimit => ?_
  refine Program.All.bindExcept (Program.All.lift (counting_checkRateLimit _ _ _))
    fun ipLimit => ?_
  match backoff with
  | .ok () => exact Program.All.bindExcept trivial fun _ => trivial
  | .error (.backoffBlocked _ _ _) => trivial
  | .error (.commandFailed _) => trivial
  | .error (.serializationFailed _) => trivial
  | .error .sessionNotFound => trivial

theorem plain_failLogin {α : Type} (ip : String) :
    (failLogin ip : ExceptT ApiError Action α).run.All (Cmd.Plain auth) :=
  (counting_failLogin ip).mono fun _ => Cmd.Counting.plain

theorem plain_checkLoginLimits (ip email : String) :
    (checkLoginLimits auth ip email).run.All (Cmd.Plain auth) :=
  (counting_checkLoginLimits auth ip email).mono fun _ => Cmd.Counting.plain

theorem granting_login (ip : String) (body : LoginRequest) :
    (login auth ip body).run.All (Cmd.Granting auth) := by
  refine Program.All.bindExcept (granted (plain_checkLoginLimits auth ip body.email))
    fun _ => ?_
  refine Program.All.bindExcept (Program.All.adapt ⟨trivial, fun _ => trivial⟩)
    fun user => ?_
  cases user with
  | none => exact granted (plain_failLogin auth ip)
  | some user =>
      dsimp only
      split
      · exact granted (plain_failLogin auth ip)
      · split
        · trivial
        · exact granted (plain_failLogin auth ip)
        · exact granting_signIn auth _ _

theorem granting_forgotPassword (ip email : String) :
    (forgotPassword auth ip email).run.All (Cmd.Granting auth) := by
  refine Program.All.bindExcept (granted (plain_checkRateLimit auth _ _ _)) fun _ => ?_
  refine Program.All.bindExcept trivial fun _ => ?_
  refine Program.All.bindExcept (Program.All.adapt ⟨trivial, fun _ => trivial⟩)
    fun user => ?_
  refine Program.All.bindExcept ?_ fun _ => trivial
  cases user with
  | none => trivial
  | some user =>
      exact Program.All.bindExcept (granting_setFresh auth _ _ _ (by decide)) fun _ => trivial

/-- The rest of a refresh, once its token is taken. -/
def refreshUser (userId : Uuid) : Handler := do
  match ← queryOr serverError (ask (.selectUserById userId)) with
  | none => throw (.unauthorized "Invalid credentials")
  | some user =>
      let accessToken ← (createToken auth user.id user.email user.name
        user.provider).adapt fun _ => .internalError "Failed to create token"
      let refreshToken ← orFail (cacheSetFresh .refresh user.id auth.config.refreshExpiry)
      let (csrfToken, cookies) ← setAuthCookies [] accessToken refreshToken none
        auth.config.jwtExpiry auth.config.refreshExpiry auth.config.cookieSecure
      return ⟨200, cookies, .tokens (tokenResponse auth accessToken refreshToken
        csrfToken ⟨user.id, user.email, user.name, user.provider⟩)⟩

theorem granting_refreshUser (userId : Uuid) :
    (refreshUser auth userId).run.All (Cmd.Granting auth) := by
  refine Program.All.bindExcept (Program.All.adapt ⟨trivial, fun _ => trivial⟩)
    fun user => ?_
  cases user with
  | none => trivial
  | some user =>
      refine Program.All.bindExcept
        (Program.All.adapt (granted (plain_createToken auth _ _ _ _))) fun access => ?_
      refine Program.All.bindExcept (granting_setFresh auth _ _ _ (by decide))
        fun refresh => ?_
      exact Program.All.bindExcept (granted (plain_setAuthCookies auth _ _ _ _ _ _ _))
        fun _ => trivial

theorem plain_destroyOwnSession (user : AuthUser) :
    (destroyOwnSession user).run.All (Cmd.Plain auth) := by
  unfold destroyOwnSession
  cases user.sessionId with
  | none => trivial
  | some id =>
      refine Program.All.bindExcept (Program.All.lift ?_) fun _ => trivial
      rw [sessionDestroy_run]
      exact ⟨trivial, fun r => by cases r <;> simp [Cmd.Plain, Cmd.Ordinary]⟩

theorem plain_blacklist (jti : String) :
    (orFail (cacheSet .blacklist jti true auth.config.jwtExpiry)).run.All
      (Cmd.Plain auth) :=
  Program.All.adapt ⟨⟨rfl, rfl⟩, fun _ => trivial⟩

theorem plain_logout (user : AuthUser) (body : Option String) :
    (logout auth user body).run.All (Cmd.Plain auth) := by
  refine Program.All.bindExcept ?_ fun _ => ?_
  · unfold dropRefreshToken
    cases body.filter fun token => token ≠ "" with
    | none => trivial
    | some token => exact Program.All.adapt ⟨Or.inl rfl, fun _ => trivial⟩
  · refine Program.All.bindExcept (plain_blacklist auth _) fun _ => ?_
    exact Program.All.bindExcept (plain_destroyOwnSession auth user) fun _ => trivial

theorem plain_deleteAccount (user : AuthUser) :
    (deleteAccount auth user).run.All (Cmd.Plain auth) := by
  refine Program.All.bindExcept (plain_blacklist auth _) fun _ => ?_
  refine Program.All.bindExcept (plain_destroyOwnSession auth user) fun _ => ?_
  refine Program.All.bindExcept (Program.All.adapt ⟨trivial, fun _ => trivial⟩)
    fun _ => ?_
  refine Program.All.bindExcept (Program.All.adapt ⟨trivial, fun _ => trivial⟩)
    fun rows => ?_
  exact Program.All.bindExcept trivial fun _ => trivial

/-- A password reset issues more than ordinary commands, but caches nothing. -/
theorem steady_resetPassword (body : ResetPasswordRequest) :
    (resetPassword auth body).run.All
      fun c => c.Steady auth ∧ ∀ id session, c ≠ .sessionCachePut id session := by
  have hplain : ∀ c : Cmd, c.Plain auth →
      c.Steady auth ∧ ∀ id session, c ≠ .sessionCachePut id session := by
    intro c h
    refine ⟨h.steady, fun id session hc => ?_⟩
    subst hc
    cases h
  refine Program.All.bindExcept trivial fun _ => ?_
  refine Program.All.bindExcept trivial fun _ => ?_
  refine Program.All.bindExcept (Program.All.adapt
    ⟨⟨trivial, fun _ _ h => nomatch h⟩, fun _ => trivial⟩) fun owner => ?_
  cases owner with
  | none => trivial
  | some userId =>
      refine Program.All.bindExcept ((plain_hashPassword auth _).mono hplain) fun hash => ?_
      refine Program.All.bindExcept (Program.All.adapt
        ⟨⟨trivial, fun _ _ h => nomatch h⟩, fun _ => trivial⟩) fun rows => ?_
      refine Program.All.bindExcept (Program.All.adapt
        ⟨⟨(fun h => nomatch h), fun _ _ h => nomatch h⟩, fun _ => trivial⟩) fun _ => ?_
      refine Program.All.bindExcept trivial fun _ => ?_
      refine Program.All.bindExcept (Program.All.lift ?_) fun _ => trivial
      rw [sessionDestroyAllForUser_run]
      refine ⟨⟨trivial, fun _ _ h => nomatch h⟩, fun renamed => ?_⟩
      cases renamed with
      | error err => trivial
      | ok u =>
          exact ⟨⟨trivial, fun _ _ h => nomatch h⟩, fun _ => ⟨⟨trivial, fun _ _ h => nomatch h⟩,
            fun _ => ⟨⟨trivial, fun _ _ h => nomatch h⟩, fun _ =>
              ⟨⟨trivial, fun _ _ h => nomatch h⟩, fun _ => trivial⟩⟩⟩⟩

/-- A redirect stores the provider that it parsed, and the session cookie. -/
theorem oauthRedirect_all (headers : Headers) (provider : String) :
    (oauthRedirect auth headers provider).run.All fun c =>
      ∃ parsed, parseProvider provider = .ok parsed ∧ c = .setFresh .oauthCsrf
        (storedText (csrfValue parsed (headers.findCookie "session"))) 600 := by
  unfold oauthRedirect
  cases hparsed : parseProvider provider with
  | error err => trivial
  | ok parsed =>
      change Program.All _ (ExceptT.run (liftM (failIf _ _) >>= _))
      refine Program.All.bindExcept trivial fun _ => ?_
      split
      · trivial
      · exact Program.All.bindExcept (Program.All.adapt
          ⟨⟨parsed, rfl, rfl⟩, fun _ => trivial⟩) fun _ => trivial

theorem ordinary_oauthRedirect (headers : Headers) (provider : String) :
    (oauthRedirect auth headers provider).run.All (Cmd.Ordinary auth) := by
  refine (oauthRedirect_all auth headers provider).mono ?_
  rintro _ ⟨parsed, -, rfl⟩
  exact fun h => nomatch h

theorem granting_oauthCallback (headers : Headers) (ip provider : String)
    (query : OAuthCallbackQuery) :
    (oauthCallback auth headers ip provider query).run.All (Cmd.Granting auth) := by
  refine Program.All.bindExcept trivial fun provider => ?_
  refine Program.All.bindExcept (granted (plain_checkRateLimit auth _ _ _)) fun _ => ?_
  refine Program.All.bindExcept (Program.All.adapt ⟨Or.inr rfl, fun _ => trivial⟩)
    fun stored => ?_
  cases stored with
  | none => trivial
  | some text =>
      refine Program.All.bindExcept trivial fun stored => ?_
      refine Program.All.bindExcept trivial fun state => ?_
      refine Program.All.bindExcept trivial fun _ => ?_
      refine Program.All.bindExcept (Program.All.lift ⟨trivial, fun _ => trivial⟩)
        fun profile => ?_
      cases profile with
      | none => trivial
      | some profile =>
          refine Program.All.bindExcept
            (Program.All.adapt ⟨trivial, fun _ => trivial⟩) fun userId => ?_
          refine Program.All.bindExcept (granted (plain_createToken auth _ _ _ _)) fun access => ?_
          refine Program.All.bindExcept (granting_setFresh auth _ _ _ (by decide))
            fun refresh => ?_
          refine Program.All.bindExcept (granted (plain_openSession auth _)) fun id => ?_
          exact Program.All.bindExcept (granted (plain_setAuthCookies auth _ _ _ _ _ _ _))
            fun _ => trivial

end Ordinary

/-! ## The middleware among other requests -/

section Rules

variable {auth : AuthService} {K : Contract Choice Call Cmd State Outcome} {i : Nat}
  {k : Call} {s₀ : State}

/-- A contract under which the handlers may do what they do: ordinary commands
and lookups are always within the guarantee. -/
structure Fits (auth : AuthService) (K : Contract Choice Call Cmd State Outcome) : Prop
    extends Careful K where
  ordinary : ∀ i c s, c.Ordinary auth → K.guar i c s
  lookups : ∀ i c s, c.OnSession → Honest c s → K.guar i c s
  tame : ∀ i c s, K.guar i c s → c.Tame auth

/-- The guarantee of a program of ordinary commands. -/
theorem outline_ordinary {β : Type} (hK : Fits auth K) {p : Action β}
    (h : p.All (Cmd.Ordinary auth)) :
    Outline exec K i k s₀ p (fun _ => True) fun _ _ => True :=
  Outline.keep (Stable.const True)
    (h.mono fun c hc _ s _ _ _ => ⟨hK.ordinary i c s hc, trivial⟩)

/-- The claims of the bearer token of a request, expired or not. -/
def Headers.claims (auth : AuthService) (headers : Headers) : Option Claims :=
  (bearerToken headers).bind fun token => (auth.decode token).toOption

theorem extractBearer_run (req : Request) : extractBearer auth req =
    match bearerToken req.headers with
    | none => .ret none
    | some token =>
        match auth.decode token with
        | .error _ => .ret none
        | .ok claims => .cmd .now fun now =>
            .ret ((checkClaims auth (now / 1000) claims).toOption.map Claims.toUser) := by
  unfold extractBearer validateToken
  cases bearerToken req.headers with
  | none => rfl
  | some token =>
      dsimp only
      cases auth.decode token with
      | error err => rfl
      | ok claims =>
          refine congrArg (Program.cmd (R := Reply) Cmd.now) (funext fun now => ?_)
          simp only [Program.ret_bind, Program.pure_def, Function.comp_apply,
            ExceptT.bindCont]
          cases checkClaims auth (now / 1000) claims with
          | error err => rfl
          | ok c => rfl

theorem outline_extractBearer (hK : Fits auth K) (req : Request) :
    Outline exec K i k s₀ (extractBearer auth req) (fun _ => True)
      fun found _ => ∀ user, found = some user →
        ∃ claims, req.headers.claims auth = some claims ∧ user = claims.toUser := by
  rw [extractBearer_run]
  cases htoken : bearerToken req.headers with
  | none => exact Outline.ret fun s _ _ user h => by cases h
  | some token =>
      dsimp only
      cases hdecode : auth.decode token with
      | error err => exact Outline.ret fun s _ _ user h => by cases h
      | ok claims =>
          refine Outline.step (fun _ _ => True) (fun _ => Stable.const True)
            (fun e s _ _ _ => ⟨hK.ordinary i .now s trivial, trivial⟩) fun now => ?_
          have hclaims : req.headers.claims auth = some claims := by
            simp [Headers.claims, htoken, hdecode, Except.toOption]
          refine Outline.ret fun s _ _ user h => ⟨claims, hclaims, ?_⟩
          cases hcheck : checkClaims auth (now / 1000) claims with
          | error err => simp [hcheck, Except.toOption] at h
          | ok c =>
              obtain ⟨_, _, rfl⟩ := checkClaims_eq_ok.mp hcheck
              simpa [hcheck, Except.toOption] using h.symm

theorem checkBlacklist_run (user : AuthUser) : checkBlacklist auth user =
    .cmd (.get .blacklist user.jti) fun listed =>
      match listed with
      | .ok value => .ret (.next (if value.getD false then none else some user))
      | .error _ =>
          .ret (.next (if auth.config.failOpenOnRedisError then some user else none)) := by
  have hredis : checkBlacklist auth user = checkBlacklistRedis auth user := by
    unfold checkBlacklist
    split <;> rfl
  rw [hredis]
  refine congrArg (Program.cmd (R := Reply) (Cmd.get .blacklist user.jti))
    (funext fun listed => ?_)
  cases listed with
  | error err => rfl
  | ok value => rfl

/-- The request behind the middleware that a call is, if it is one. -/
def Call.request? : Call → Option Request
  | .me req | .logout req _ | .deleteAccount req => some req
  | _ => none

/-- A lasting fact about the claims of a token for which the blacklist turns its
bearers away. -/
structure Bars (auth : AuthService) (K : Contract Choice Call Cmd State Outcome)
    (barred : Claims → State → Prop) : Prop where
  preserved : ∀ claims, Preserved exec K (barred claims)
  refused : ∀ i k s₀ e s req claims, k.request? = some req →
    req.headers.claims auth = some claims → K.inv s →
    K.ok i k s₀ e (.get .blacklist claims.jti) s → barred claims s →
    (exec i e (.get .blacklist claims.jti) s).1 = .ok (some true)

theorem Bars.never : Bars auth K fun _ _ => False where
  preserved _ _ _ _ _ _ _ _ _ _ h := h
  refused _ _ _ _ _ _ _ _ _ _ _ h := h.elim

variable {barred : Claims → State → Prop} {req : Request}

theorem Spent.preserved (hK : Fits auth K) {ns : Namespace} (hns : ns ≠ .blacklist)
    (key : String) : Preserved exec K (Spent ns key) := by
  intro j k s₁ e c s _ hok hguar h
  refine h.step (hK.fresh j k s₁ e c s hok) fun value ttl hc => ?_
  subst hc
  have htame := hK.tame j _ s hguar
  cases ns with
  | blacklist => exact hns rfl
  | refresh | reset | oauthCsrf => exact htame

/-- What was barred, gone or spent in the state `s₀` is so still. -/
structure Remains (barred : Claims → State → Prop) (s₀ s : State) : Prop where
  named : ∀ key, Named s₀ key → Named s key
  barred : ∀ claims, barred claims s₀ → barred claims s
  gone : ∀ id, Gone id s₀ → Gone id s
  spent : ∀ token, Spent .refresh token s₀ → Spent .refresh token s

theorem Remains.refl (s₀ : State) : Remains barred s₀ s₀ :=
  ⟨fun _ h => h, fun _ h => h, fun _ h => h, fun _ h => h⟩

theorem Remains.preserved (hK : Fits auth K) (hbars : Bars auth K barred) (s₀ : State) :
    Preserved exec K (Remains barred s₀) := by
  intro j k s₁ e c s hinv hok hguar h
  constructor
  · exact fun key hnamed => (h.named key hnamed).step
  · exact fun claims hbarred =>
      hbars.preserved claims j k s₁ e c s hinv hok hguar (h.barred claims hbarred)
  · exact fun id hgone =>
      Gone.preserved hK.toCareful id j k s₁ e c s hinv hok hguar (h.gone id hgone)
  · intro token hspent
    have hkept : Preserved exec K (Spent .refresh token) := Spent.preserved hK (by decide) token
    exact hkept j k s₁ e c s hinv hok hguar (h.spent token hspent)

theorem outline_checkBlacklist (hK : Fits auth K) (hbars : Bars auth K barred)
    (hreq : k.request? = some req) (user : AuthUser) :
    Outline exec K i k s₀ (checkBlacklist auth user) (Remains barred s₀)
      fun r _ => ∀ u, r = .next (some u) →
        u = user ∧ ∀ claims, req.headers.claims auth = some claims →
          user = claims.toUser → ¬ barred claims s₀ := by
  rw [checkBlacklist_run]
  refine Outline.step
    (fun listed _ => ∀ claims, req.headers.claims auth = some claims →
      user = claims.toUser → barred claims s₀ → listed = .ok (some true))
    (fun _ => Stable.const _) ?_ fun listed => ?_
  · intro e s hinv hs hok
    refine ⟨hK.ordinary i _ s (fun h => nomatch h), fun claims hclaims huser hbarred => ?_⟩
    subst huser
    exact hbars.refused i k s₀ e s req claims hreq hclaims hinv hok (hs.barred _ hbarred)
  · cases listed with
    | error err =>
        refine Outline.ret fun s _ hs u hu => ?_
        split_ifs at hu
        · cases hu
          refine ⟨rfl, fun claims hclaims huser hbarred => ?_⟩
          cases hs claims hclaims huser hbarred
        · cases hu
    | ok value =>
        refine Outline.ret fun s _ hs u hu => ?_
        split_ifs at hu with hlisted
        · cases hu
        · cases hu
          refine ⟨rfl, fun claims hclaims huser hbarred => hlisted ?_⟩
          rw [Except.ok.inj (hs claims hclaims huser hbarred)]
          rfl

/-- Whom the middleware may attach to a request that it starts on in `s₀`. -/
inductive Authenticated (auth : AuthService) (barred : Claims → State → Prop) (req : Request)
    (s₀ s : State) (user : AuthUser) : Prop
  | bearer (claims : Claims) (hclaims : req.headers.claims auth = some claims)
      (huser : user = claims.toUser) (hfree : ¬ barred claims s₀)
  | cookie (id : String) (session : Session) (hmode : auth.config.authMode ≠ .bearer)
      (hcookie : cookieAuthPrepare req = .ok (some id)) (huser : user = session.toUser id)
      (hfound : ¬ Gone id s₀) (hissued : Issued s session.userId id)

/-- The user of a session that was not gone when the request began. -/
def CookieUser (id : String) (s₀ : State) (user : AuthUser) (s : State) : Prop :=
  ((∃ session : Session, user = session.toUser id) ∧ ¬ Gone id s₀) ∧ Issued s user.userId id

theorem outline_resolveCookieUser (hK : Fits auth K) (hbars : Bars auth K barred)
    (id : String) :
    Outline exec K i k s₀ (resolveCookieUser id) (Remains barred s₀)
      fun found s => (∀ user, found = some user → CookieUser id s₀ user s) ∧
        Remains barred s₀ s := by
  have hlookup : Outline exec K i k s₀ (sessionGet id).run _ _ :=
    (outline_sessionGet hK.toCareful (hK.lookups i) id (Gone id s₀)).carry
      (Remains.preserved hK hbars s₀)
  refine Outline.bind (hlookup.mono (fun s _ hs => ⟨hs.gone id, hs⟩) fun _ _ _ h => h)
    fun result => ?_
  cases result with
  | error err => exact Outline.ret fun s _ hs => ⟨fun user h => (by cases h), hs.2⟩
  | ok session =>
      refine Outline.ret fun s _ hs => ⟨fun user h => ?_, hs.2⟩
      cases h
      exact ⟨⟨⟨session, rfl⟩, (hs.1 session rfl).1⟩, (hs.1 session rfl).2⟩

theorem outline_cookiePassage (hK : Fits auth K) (hbars : Bars auth K barred)
    (hreq : k.request? = some req) (hmode : auth.config.authMode ≠ .bearer) :
    Outline exec K i k s₀ (cookiePassage auth req) (Remains barred s₀)
      fun r s => ∀ u, r = .next (some u) → Authenticated auth barred req s₀ s u := by
  unfold cookiePassage
  match hcookie : cookieAuthPrepare req with
  | .error () => exact Outline.ret fun s _ _ u h => by cases h
  | .ok none => exact Outline.ret fun s _ _ u h => by cases h
  | .ok (some id) =>
      refine Outline.bind (outline_resolveCookieUser hK hbars id) fun found => ?_
      cases found with
      | none => exact Outline.ret fun s _ _ u h => by cases h
      | some user =>
          have huser : Preserved exec K (CookieUser id s₀ user) :=
            (Preserved.const _).and (Issued.preserved user.userId id)
          refine ((outline_checkBlacklist hK hbars hreq user).carry huser).mono
            (fun s _ hs => ⟨hs.2, hs.1 user rfl⟩) fun r s _ hs u hu => ?_
          obtain ⟨hsame, _⟩ := hs.1 u hu
          obtain ⟨⟨⟨session, hsession⟩, hfound⟩, hissued⟩ := hs.2
          rw [hsession] at hissued
          exact .cookie id session hmode hcookie (hsame.trans hsession) hfound hissued

/-- A request is authenticated by a bearer token that was not barred, or by a
session that was not gone, when the request began. -/
theorem outline_authMiddleware (hK : Fits auth K) (hbars : Bars auth K barred)
    (hreq : k.request? = some req) :
    Outline exec K i k s₀ (authMiddleware auth req) (Remains barred s₀)
      fun r s => ∀ u, r = .next (some u) → Authenticated auth barred req s₀ s u := by
  unfold authMiddleware
  split
  · exact Outline.ret fun s _ _ u h => by cases h
  · have hextract : Outline exec K i k s₀ (extractBearer auth req) _ _ :=
      (outline_extractBearer hK req).carry (Remains.preserved hK hbars s₀)
    refine Outline.bind (hextract.mono (fun s _ hs => ⟨trivial, hs⟩) fun _ _ _ h => h)
      fun bearerUser => ?_
    have hbearer : ∀ user, bearerUser = some user →
        Outline exec K i k s₀ (checkBlacklist auth user)
          (fun s => (∀ user, bearerUser = some user →
            ∃ claims, req.headers.claims auth = some claims ∧ user = claims.toUser) ∧
              Remains barred s₀ s)
          fun r s => ∀ u, r = .next (some u) → Authenticated auth barred req s₀ s u := by
      intro user huser
      refine ((outline_checkBlacklist hK hbars hreq user).carry
        (Preserved.const (∃ claims, req.headers.claims auth = some claims ∧
          user = claims.toUser))).mono
        (fun s _ hs => ⟨hs.2, hs.1 user huser⟩) fun r s _ hs u hu => ?_
      obtain ⟨rfl, hfree⟩ := hs.1 u hu
      obtain ⟨claims, hclaims, huser⟩ := hs.2
      exact .bearer claims hclaims huser (hfree claims hclaims huser)
    have hcookie : auth.config.authMode ≠ .bearer →
        Outline exec K i k s₀ (cookiePassage auth req)
          (fun s => (∀ user, bearerUser = some user →
            ∃ claims, req.headers.claims auth = some claims ∧ user = claims.toUser) ∧
              Remains barred s₀ s)
          fun r s => ∀ u, r = .next (some u) → Authenticated auth barred req s₀ s u :=
      fun hmode => (outline_cookiePassage hK hbars hreq hmode).mono (fun s _ hs => hs.2)
        fun _ _ _ h => h
    cases hmode : auth.config.authMode with
    | bearer =>
        cases bearerUser with
        | none => exact Outline.ret fun s _ _ u h => by cases h
        | some user => exact hbearer user rfl
    | both =>
        cases bearerUser with
        | none => exact hcookie (by simp [hmode])
        | some user => exact hbearer user rfl
    | cookie =>
        cases bearerUser with
        | none => exact hcookie (by simp [hmode])
        | some user => exact hcookie (by simp [hmode])

/-- What every call has seen when it returns, given the state it began in: no
lookup finds a session that was gone, the middleware attaches nobody who was
barred or whose session was gone, and no refresh token that was spent is taken. -/
structure Sees (auth : AuthService) (barred : Claims → State → Prop) (k : Call) (s₀ : State)
    (a : Outcome) (s : State) : Prop where
  lookup : ∀ id session, k = .lookup id → a = .found (.ok session) → ¬ Gone id s₀
  user : ∀ user, a.user? = some user →
    ∃ req, k.request? = some req ∧ Authenticated auth barred req s₀ s user
  refresh : ∀ headers body token response, k = .refresh headers body →
    presentedRefreshToken headers body = some token → a = .answered (.ok response) →
      ¬ Spent .refresh token s₀

theorem Authenticated.preserved (user : AuthUser) :
    Preserved exec K fun s => Authenticated auth barred req s₀ s user := by
  intro j k s₁ e c s _ _ _ h
  cases h with
  | bearer claims hclaims huser hfree => exact .bearer claims hclaims huser hfree
  | cookie id session hmode hcookie huser hfound hissued =>
      exact .cookie id session hmode hcookie huser hfound hissued.step

theorem Sees.preserved (a : Outcome) : Preserved exec K (Sees auth barred k s₀ a) := by
  intro j k' s₁ e c s hinv hok hguar h
  refine ⟨h.lookup, fun user ha => ?_, h.refresh⟩
  obtain ⟨req, hreq, hauth⟩ := h.user user ha
  exact ⟨req, hreq, Authenticated.preserved user j k' s₁ e c s hinv hok hguar hauth⟩

/-- A request behind the middleware: the handler starts with its user authenticated. -/
theorem outline_behindAuth (hK : Fits auth K) (hbars : Bars auth K barred)
    (hreq : k.request? = some req) (handler : AuthUser → Handler) {Q : Outcome → State → Prop}
    (hrejected : ∀ rejection s, K.inv s → Q (.rejected rejection) s)
    (hserved : ∀ user, Outline exec K i k s₀
      ((handler user).run.bind fun result => .ret (.served user result))
      (fun s => Authenticated auth barred req s₀ s user ∧ Remains barred s₀ s) Q) :
    Outline exec K i k s₀ (behindAuth auth req handler) (Remains barred s₀) Q := by
  have hmiddleware : Outline exec K i k s₀ (authMiddleware auth req) _ _ :=
    (outline_authMiddleware hK hbars hreq).carry (Remains.preserved hK hbars s₀)
  refine Outline.bind (hmiddleware.mono (fun s _ hs => ⟨hs, hs⟩) fun _ _ _ h => h)
    fun passage => ?_
  match passage with
  | .forbidden => exact Outline.ret fun s hinv _ => hrejected _ s hinv
  | .next none => exact Outline.ret fun s hinv _ => hrejected _ s hinv
  | .next (some user) =>
      exact (hserved user).mono (fun s _ hs => ⟨hs.1 user rfl, hs.2⟩) fun _ _ _ h => h

/-- A call that presents no session, no bearer token and no refresh token. -/
def Call.Anonymous : Call → Prop
  | .lookup _ | .refresh _ _ | .me _ | .logout _ _ | .deleteAccount _ => False
  | _ => True

theorem Sees.of_anonymous (h : k.Anonymous) {a : Outcome} (ha : a.user? = none) (s : State) :
    Sees auth barred k s₀ a s := by
  refine ⟨fun id _ hcall => ?_, fun user hserved => ?_, fun headers body _ _ hcall => ?_⟩
  · subst hcall
    exact h.elim
  · rw [ha] at hserved
    cases hserved
  · subst hcall
    exact h.elim

theorem Sees.of_request (hreq : k.request? = some req) {a : Outcome} {s : State}
    (h : ∀ user, a.user? = some user → Authenticated auth barred req s₀ s user) :
    Sees auth barred k s₀ a s := by
  refine ⟨fun id _ hcall => ?_, fun user ha => ⟨req, hreq, h user ha⟩,
    fun headers body _ _ hcall => ?_⟩
  · subst hcall
    cases hreq
  · subst hcall
    cases hreq

theorem outline_anonymous (hK : Fits auth K) (h : k.Anonymous) {p : Handler}
    (hp : p.run.All (Cmd.Ordinary auth)) :
    Outline exec K i k s₀ (p.run.bind fun r => .ret (.answered r)) (Remains barred s₀)
      fun a s => Sees auth barred k s₀ a s :=
  Outline.bind ((outline_ordinary hK hp).mono (fun _ _ _ => trivial) fun _ _ _ h => h)
    fun _ => Outline.ret fun s _ _ => .of_anonymous h rfl s

theorem outline_lookup (hK : Fits auth K) (id : String) :
    Outline exec K i (.lookup id) s₀ ((Call.lookup id).body auth) (Remains barred s₀)
      fun a s => Sees auth barred (.lookup id) s₀ a s := by
  have hget : Outline exec K i (.lookup id) s₀ (sessionGet id).run _ _ :=
    outline_sessionGet hK.toCareful (hK.lookups i) id (Gone id s₀)
  refine Outline.bind (hget.mono (fun s _ hs => hs.gone id) fun _ _ _ h => h) fun r =>
    Outline.ret fun s _ hs => ⟨?_, ?_, ?_⟩
  · intro other session hcall hresult
    cases hcall
    cases hresult
    exact (hs session rfl).1
  · exact fun _ h => nomatch h
  · exact fun _ _ _ _ h => nomatch h

/-- The token of a refresh is taken before anything else. -/
theorem outline_refresh (hK : Fits auth K) (headers : Headers) (body : Option String) :
    Outline exec K i (.refresh headers body) s₀ ((Call.refresh headers body).body auth)
      (Remains barred s₀) fun a s => Sees auth barred (.refresh headers body) s₀ a s := by
  have htaken : Outline exec K i (.refresh headers body) s₀ (refresh auth headers body).run
      (Remains barred s₀) fun r _ => ∀ token response,
        presentedRefreshToken headers body = some token → r = .ok response →
          ¬ Spent .refresh token s₀ := by
    unfold refresh
    cases presentedRefreshToken headers body with
    | none => exact Outline.ret fun _ _ _ token response h => by cases h
    | some token =>
        refine Outline.bindExcept
          (Q := fun r _ => ∀ userId, r = .ok (some userId) → ¬ Spent .refresh token s₀)
          (Outline.adapt ?_) ?_ fun err _ _ _ token' response _ h => by cases h
        · refine Outline.step
            (fun r _ => ∀ userId, r = .ok (some userId) → ¬ Spent .refresh token s₀)
            (fun _ => Stable.const _) ?_ fun r => Outline.ret fun _ _ hs userId hr => ?_
          · intro e s _ hs _
            refine ⟨hK.ordinary i _ s (Or.inl rfl), fun userId hreply hspent => ?_⟩
            have hget := (World.answer_ok hreply).2
            have hnone := (hs.spent token hspent).2
            simp only [Except.ok.injEq] at hget
            rw [hnone] at hget
            cases hget
          · cases r with
            | error err => cases hr
            | ok owner =>
                cases hr
                exact hs userId rfl
        · intro owner
          cases owner with
          | none => exact Outline.ret fun _ _ _ token' response _ h => by cases h
          | some userId =>
              have hrest : Outline exec K i (.refresh headers body) s₀ _ _ _ :=
                (outline_ordinary hK (ordinarily (granting_refreshUser auth userId))).carry
                  (Preserved.const (¬ Spent .refresh token s₀))
              refine hrest.mono (fun s _ hs => ⟨trivial, hs userId rfl⟩) fun r s _ hs => ?_
              intro token' response htoken _
              cases htoken
              exact hs.2
  refine Outline.bind htaken fun r => Outline.ret fun s _ hs => ⟨?_, ?_, ?_⟩
  · exact fun _ _ h => nomatch h
  · exact fun _ h => nomatch h
  · intro headers' body' token response hcall htoken hresult
    cases hcall
    cases hresult
    exact hs token response htoken rfl

/-- Ordinary handlers behind the middleware. -/
theorem outline_ordinaryBehind (hK : Fits auth K) (hbars : Bars auth K barred)
    (hreq : k.request? = some req) (handler : AuthUser → Handler)
    (hhandler : ∀ user, (handler user).run.All (Cmd.Ordinary auth)) :
    Outline exec K i k s₀ (behindAuth auth req handler) (Remains barred s₀)
      fun a s => Sees auth barred k s₀ a s := by
  refine outline_behindAuth hK hbars hreq handler
    (fun rejection s _ => .of_request hreq fun _ h => nomatch h) fun user => ?_
  have hauth : Preserved exec K fun s => Authenticated auth barred req s₀ s user :=
    Authenticated.preserved user
  have hrun : Outline exec K i k s₀ (handler user).run _ _ :=
    (outline_ordinary hK (hhandler user)).carry hauth
  refine Outline.bind (hrun.mono (fun s _ hs => ⟨trivial, hs.1⟩) fun _ _ _ h => h)
    fun result => Outline.ret fun s _ hs => .of_request hreq fun user' ha => ?_
  cases ha
  exact hs.2

/-- Every call but a password reset, for any contract that the handlers fit. -/
theorem outline_call (hK : Fits auth K) (hbars : Bars auth K barred)
    (hreset : ∀ body, k ≠ .resetPassword body) :
    Outline exec K i k s₀ (k.body auth) (Remains barred s₀)
      fun a s => Sees auth barred k s₀ a s := by
  cases k with
  | resetPassword body => exact absurd rfl (hreset body)
  | lookup id => exact outline_lookup hK id
  | refresh headers body => exact outline_refresh hK headers body
  | pass ms =>
      have hpass : (ask (.pass ms)).All (Cmd.Ordinary auth) := ⟨trivial, fun _ => trivial⟩
      refine Outline.bind ((outline_ordinary hK hpass).mono (fun _ _ _ => trivial)
        fun _ _ _ h => h) fun _ => Outline.ret fun s _ _ => .of_anonymous ?_ rfl s
      trivial
  | me req => exact outline_ordinaryBehind hK hbars rfl _ fun user => trivial
  | logout req body =>
      exact outline_ordinaryBehind hK hbars rfl _ fun user =>
        (plain_logout auth user body).mono fun _ => Cmd.Plain.ordinary
  | deleteAccount req =>
      exact outline_ordinaryBehind hK hbars rfl _ fun user =>
        (plain_deleteAccount auth user).mono fun _ => Cmd.Plain.ordinary
  | register ip body =>
      exact outline_anonymous hK (by trivial) (ordinarily <| granting_register auth ip body)
  | login ip body =>
      exact outline_anonymous hK (by trivial) (ordinarily <| granting_login auth ip body)
  | forgotPassword ip email =>
      exact outline_anonymous hK (by trivial) (ordinarily <| granting_forgotPassword auth ip email)
  | oauthRedirect headers provider =>
      exact outline_anonymous hK (by trivial) (ordinary_oauthRedirect auth headers provider)
  | oauthCallback headers ip provider query =>
      exact outline_anonymous hK (by trivial) (ordinarily <| granting_oauthCallback auth headers ip provider query)

end Rules

end FullStackHex
