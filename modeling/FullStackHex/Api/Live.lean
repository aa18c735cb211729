import FullStackHex.Auth.Isolation

/-!
The WebSocket upgrade of `/live`, from `api/src/live.rs`, and how its view of a
credential compares with the middleware's. The upgrade knows neither the
blacklist nor the authentication mode.
-/

namespace FullStackHex

open Concurrent Expiring

structure AppState where
  auth : Option AuthService
  redis : Bool
  allowedOrigin : Option String
  perUserMax : Nat

inductive WsConnectionOutcome where
  | permit (userId : Option Uuid)
  | reject (status : Nat) (body : String)
  deriving DecidableEq, Repr

/-- A rejection with the JSON body of the source; `\x7b` and `\x7d` are braces. -/
def rejection (status : Nat) (message : String) : WsConnectionOutcome :=
  .reject status ("\x7b\"error\":\"" ++ message ++ "\"\x7d")

/-- The user of the session cookie, if the session is found. -/
def cookieAuthenticated (headers : Headers) (state : AppState) : Action (Option Uuid) := do
  match (headers.findCookie "session").filter fun id => id ≠ "" with
  | none => return none
  | some sessionId =>
      if !state.redis then return none
      else
        match ← (sessionGet sessionId).run with
        | .ok session => return some session.userId
        | .error _ => return none

/-- The user of the upgrade, or the message of its rejection with 401. -/
def wsUser (headers : Headers) (token : Option String) (state : AppState) :
    Action (Except String (Option Uuid)) := do
  match state.auth, token with
  | none, _ => return .ok none
  | some auth, some token =>
      match ← (validateToken auth token).run with
      | .ok claims => return .ok (some claims.sub)
      | .error _ => return .error "Invalid token"
  | some _, none => return .ok (← cookieAuthenticated headers state)

def originAllowed (headers : Headers) (state : AppState) : Bool :=
  match state.allowedOrigin with
  | none => true
  | some allowed => headers.origin.bind headerStr == some allowed.toList

/-- A permit, and for a known user one more of their connections. A permit that
is not used is given back. -/
def reserve (userId : Option Uuid) (state : AppState) : Action WsConnectionOutcome := do
  if ← ask .acquirePermit then
    match userId with
    | none => return .permit none
    | some id =>
        if ← ask (.reserveConnection id state.perUserMax) then return .permit (some id)
        else
          ask .releasePermit
          return rejection 429 "Too many connections from this user"
  else
    return rejection 503 "Server at capacity — too many WebSocket connections"

/-- The rest of the upgrade, once its user is known. -/
def admitUser (userId : Option Uuid) (state : AppState) : Action WsConnectionOutcome :=
  if state.auth.isSome && userId.isNone then
    pure (rejection 401 "Authentication required")
  else if !state.redis then
    pure (rejection 404 "WebSocket not available — Redis is disabled")
  else reserve userId state

def validateWsConnection (headers : Headers) (token : Option String) (state : AppState) :
    Action WsConnectionOutcome := do
  if !originAllowed headers state then
    return rejection 403 "Origin not allowed"
  match ← wsUser headers token state with
  | .error message => return rejection 401 message
  | .ok userId => admitUser userId state

/-! ## Which credentials the upgrade accepts -/

theorem perform_reserve_permit {userId : Option Uuid} {state : AppState} {w : World}
    {u : Option Uuid} (h : (w.perform (reserve userId state)).1 = .permit u) : userId = u := by
  unfold reserve at h
  simp only [Program.bind_def, Program.cmd_bind, Program.ret_bind, World.perform,
    Program.run_command] at h
  split at h
  · cases userId with
    | none => exact WsConnectionOutcome.permit.inj h
    | some id =>
        rw [Program.run_command] at h
        split at h
        · exact WsConnectionOutcome.permit.inj h
        · cases h
  · cases h

theorem perform_admit_permit {userId : Option Uuid} {state : AppState} {w : World}
    {u : Option Uuid} (h : (w.perform (admitUser userId state)).1 = .permit u) : userId = u := by
  unfold admitUser at h
  split at h
  · cases h
  · split at h
    · cases h
    · exact perform_reserve_permit h

/-- A permit goes to the user that the credential stands for. -/
theorem permit_wsUser {headers : Headers} {token : Option String} {state : AppState}
    {w : World} {u : Option Uuid}
    (h : (w.perform (validateWsConnection headers token state)).1 = .permit u) :
    (w.perform (wsUser headers token state)).1 = .ok u := by
  unfold validateWsConnection at h
  split at h
  · cases h
  · simp only [Program.bind_def, World.perform, Program.run_bind] at h ⊢
    cases huser : ((wsUser headers token state).run (World.exec .calm) w).1 with
    | error message =>
        rw [huser] at h
        cases h
    | ok userId =>
        rw [huser] at h
        exact congrArg _ (perform_admit_permit h)

theorem permit_token {headers : Headers} {token : String} {state : AppState}
    {auth : AuthService} (hauth : state.auth = some auth) {w : World} {u : Option Uuid}
    (h : (w.perform (validateWsConnection headers (some token) state)).1 = .permit u) :
    ∃ claims, tokenVerdict auth token (w.now / 1000) = .ok claims ∧ u = some claims.sub := by
  have huser := permit_wsUser h
  unfold wsUser at huser
  rw [hauth] at huser
  simp only [Program.bind_def, World.perform, Program.run_bind, run_exceptRun,
    alone_validateToken] at huser
  cases hverdict : tokenVerdict auth token (w.now / 1000) with
  | error err =>
      rw [hverdict] at huser
      cases huser
  | ok claims =>
      rw [hverdict] at huser
      exact ⟨claims, rfl, (Except.ok.inj huser).symm⟩

theorem permit_cookie {headers : Headers} {state : AppState} {auth : AuthService}
    (hauth : state.auth = some auth) {w : World} {u : Uuid}
    (h : (w.perform (validateWsConnection headers none state)).1 = .permit (some u)) :
    ∃ id session, headers.findCookie "session" = some id ∧ id ≠ "" ∧
      w.resolve id = some session ∧ u = session.userId := by
  have huser := permit_wsUser h
  unfold wsUser cookieAuthenticated at huser
  rw [hauth] at huser
  simp only [Program.bind_def, World.perform, Program.run_bind] at huser
  cases hcookie : (headers.findCookie "session").filter fun id => id ≠ "" with
  | none =>
      rw [hcookie] at huser
      cases huser
  | some id =>
      obtain ⟨hfind, hne⟩ := Option.filter_eq_some_iff.mp hcookie
      rw [hcookie] at huser
      cases hredis : state.redis with
      | false =>
          rw [hredis] at huser
          cases huser
      | true =>
          simp only [hredis, Bool.not_true, Bool.false_eq_true, if_false, Program.run_bind,
            run_exceptRun] at huser
          rw [(alone_sessionGet id w).1] at huser
          cases hsession : w.resolve id with
          | none =>
              rw [hsession] at huser
              cases huser
          | some session =>
              rw [hsession] at huser
              refine ⟨id, session, hfind, by simpa using hne, hsession, ?_⟩
              exact (Option.some.inj (Except.ok.inj huser)).symm

/-- The characters of a JWT in compact form: base64url and the dots between. -/
def isTokenChar (c : Char) : Bool := c.isAlphanum || c == '-' || c == '_' || c == '.'

/-- An HTTP GET that carries the credential of an upgrade: the token as a bearer
token, or the cookies. -/
def getWith (path : String) (headers : Headers) : Option String → Request
  | some token => ⟨.get, path,
      { Headers.none with authorization := some ("Bearer " ++ token) }⟩
  | none => ⟨.get, path, { Headers.none with cookie := headers.cookie }⟩

/-- The middleware would attach this user to the request. -/
def Attaches (auth : AuthService) (w : World) (req : Request) (u : Uuid) : Prop :=
  ∃ user, (w.perform (authMiddleware auth req)).1 = .next (some user) ∧ user.userId = u

/-- The mode lets this kind of credential in, and it is not on the blacklist. -/
def Agreed (auth : AuthService) (w : World) : Option String → Prop
  | some token => auth.config.authMode ≠ .cookie ∧
      ∀ claims, auth.decode token = .ok claims → ¬ Blacklisted w claims.jti
  | none => auth.config.authMode ≠ .bearer ∧ ¬ Blacklisted w ""

theorem isTokenChar_spec {c : Char} (h : isTokenChar c = true) :
    isHeaderChar c = true ∧ c ≠ ' ' ∧ c.isWhitespace = false := by
  have hspace : isTokenChar ' ' = false := by decide
  have htab : isTokenChar '\t' = false := by decide
  have hcr : isTokenChar '\r' = false := by decide
  have hlf : isTokenChar '\n' = false := by decide
  refine ⟨?_, ?_, ?_⟩
  · unfold isTokenChar at h
    unfold isHeaderChar
    simp only [Char.isAlphanum, Char.isAlpha, Char.isUpper, Char.isLower, Char.isDigit,
      Bool.or_eq_true, Bool.and_eq_true, decide_eq_true_eq, beq_iff_eq, ge_iff_le, Char.le_def,
      UInt32.le_iff_toNat_le] at h ⊢
    left
    rcases h with ((h | h) | h) | h
    · simp at h ⊢
      omega
    all_goals
      subst h
      decide
  · rintro rfl
    cases hspace.symm.trans h
  · unfold Char.isWhitespace
    simp only [Bool.or_eq_false_iff, decide_eq_false_iff_not]
    refine ⟨⟨⟨?_, ?_⟩, ?_⟩, ?_⟩
    · rintro rfl
      cases hspace.symm.trans h
    · rintro rfl
      cases htab.symm.trans h
    · rintro rfl
      cases hcr.symm.trans h
    · rintro rfl
      cases hlf.symm.trans h

/-- A token of token characters comes back from the header it is sent in. -/
theorem bearerToken_bearer {token : String} (h : token.toList.all isTokenChar = true) :
    bearerToken { Headers.none with authorization := some ("Bearer " ++ token) } = some token := by
  have hchar : ∀ c ∈ token.toList, isTokenChar c = true := List.all_eq_true.mp h
  have hvalue : headerStr ("Bearer " ++ token) = some ("Bearer ".toList ++ token.toList) := by
    unfold headerStr
    rw [String.toList_append, List.all_append, if_pos]
    rw [Bool.and_eq_true, List.all_eq_true, List.all_eq_true]
    exact ⟨List.all_eq_true.mp (by decide), fun c hc => (isTokenChar_spec (hchar c hc)).1⟩
  have hspan : ("Bearer ".toList ++ token.toList).span (fun c => c ≠ ' ')
      = ("Bearer".toList, ' ' :: token.toList) := by
    rw [List.span_eq_takeWhile_dropWhile]
    rfl
  have hdrop : token.toList.dropWhile Char.isWhitespace = token.toList := by
    cases hlist : token.toList with
    | nil => rfl
    | cons c cs =>
        have hc := hchar c (by rw [hlist]; exact List.mem_cons_self)
        rw [List.dropWhile_cons, (isTokenChar_spec hc).2.2]
        rfl
  unfold bearerToken
  simp only [Option.bind_eq_bind, Option.bind_some, hvalue, hspan]
  rw [if_pos (by decide), hdrop, String.ofList_toList]

theorem cookieAuthPrepare_get {path : String} {headers : Headers} {id : String}
    (h : headers.findCookie "session" = some id) (hid : id ≠ "") :
    cookieAuthPrepare (getWith path headers none) = .ok (some id) := by
  unfold Headers.findCookie at h
  obtain ⟨value, hvalue, rfl⟩ := Option.map_eq_some_iff.mp h
  obtain ⟨header, hheader, hfind⟩ := Option.bind_eq_some_iff.mp hvalue
  have hparse : parseCookieValue header "session" = some value := by
    unfold parseCookieValue
    rw [hfind, Option.filter_some, if_pos]
    rw [decide_eq_true_eq]
    rintro rfl
    exact hid rfl
  unfold cookieAuthPrepare getWith
  simp only [hheader, hparse]
  rfl

/-- What the middleware attaches to the request is decided by its credential. -/
theorem attaches_iff {auth : AuthService} {w : World} {req : Request} {user : AuthUser}
    {u : Uuid} {allowed : Prop} [Decidable allowed] (hu : user.userId = u)
    (hcredential : credential auth req w = .next (if allowed then some user else none)) :
    Attaches auth w req u ↔ allowed ∧ ¬ Blacklisted w user.jti := by
  unfold Attaches
  simp only [attached_iff, hcredential]
  constructor
  · rintro ⟨other, ⟨hsame, hfree⟩, _⟩
    split_ifs at hsame with h
    · obtain rfl : user = other := Option.some.inj (Passage.next.inj hsame)
      exact ⟨h, hfree⟩
    · cases hsame
  · rintro ⟨h, hfree⟩
    exact ⟨user, ⟨by rw [if_pos h], hfree⟩, hu⟩

theorem credential_getWith_token {auth : AuthService} {w : World} {path : String}
    {headers : Headers} {token : String} {claims : Claims} (hpath : isPublicPath path = false)
    (hchars : token.toList.all isTokenChar = true)
    (hverdict : tokenVerdict auth token (w.now / 1000) = .ok claims) :
    credential auth (getWith path headers (some token)) w
      = .next (if auth.config.authMode ≠ .cookie then some claims.toUser else none) := by
  have huser : bearerUser auth (getWith path headers (some token)).headers (w.now / 1000)
      = some claims.toUser :=
    bearerUser_eq_some.mpr ⟨token, claims, bearerToken_bearer hchars, hverdict, rfl⟩
  unfold credential
  rw [huser, show (getWith path headers (some token)).path = path from rfl, hpath]
  cases auth.config.authMode with
  | cookie => rfl
  | bearer => rfl
  | both => rfl

theorem credential_getWith_cookie {auth : AuthService} {w : World} {path : String}
    {headers : Headers} {id : String} {session : Session} (hpath : isPublicPath path = false)
    (hfind : headers.findCookie "session" = some id) (hid : id ≠ "")
    (hsession : w.resolve id = some session) :
    credential auth (getWith path headers none) w
      = .next (if auth.config.authMode ≠ .bearer then some (session.toUser id) else none) := by
  have hnone : bearerUser auth (getWith path headers none).headers (w.now / 1000) = none := rfl
  have hcookie : cookieCredential (getWith path headers none) w
      = .next (some (session.toUser id)) := by
    unfold cookieCredential
    rw [cookieAuthPrepare_get hfind hid]
    dsimp only
    rw [hsession]
    rfl
  unfold credential
  rw [hnone, hcookie, show (getWith path headers none).path = path from rfl, hpath]
  cases auth.config.authMode with
  | cookie => rfl
  | bearer => rfl
  | both => rfl

/-- An upgrade that is let through as `u` would be authenticated as `u` over HTTP
exactly if the mode allows the credential and it is not on the blacklist. -/
theorem permit_attaches_iff (state : AppState) (auth : AuthService)
    (hauth : state.auth = some auth)
    (hchars : ∀ token claims, auth.decode token = .ok claims →
      token.toList.all isTokenChar = true)
    (w : World) (headers : Headers) (token : Option String) (u : Uuid)
    (hpermit : (w.perform (validateWsConnection headers token state)).1 = .permit (some u))
    (path : String) (hpath : isPublicPath path = false) :
    Attaches auth w (getWith path headers token) u ↔ Agreed auth w token := by
  cases token with
  | some token =>
      obtain ⟨claims, hverdict, hu⟩ := permit_token hauth hpermit
      have hdecode := (tokenVerdict_eq_ok.mp hverdict).1
      rw [attaches_iff (Option.some.inj hu).symm
        (credential_getWith_token hpath (hchars token claims hdecode) hverdict)]
      unfold Agreed
      refine and_congr_right fun _ => ?_
      constructor
      · intro hfree other hother
        obtain rfl : claims = other := Except.ok.inj (hdecode.symm.trans hother)
        exact hfree
      · intro hfree
        exact hfree claims hdecode
  | none =>
      obtain ⟨id, session, hfind, hid, hsession, hu⟩ := permit_cookie hauth hpermit
      rw [attaches_iff hu.symm (credential_getWith_cookie hpath hfind hid hsession)]
      rfl

namespace Sample

def liveState (mode : AuthMode) : AppState := ⟨some (auth mode), true, none, 5⟩

theorem tokenChars (mode : AuthMode) : ∀ token claims, (auth mode).decode token = .ok claims →
    token.toList.all isTokenChar = true := by
  intro token claims h
  rcases List.mem_cons.mp (AuthService.ofTokens_decode h) with heq | hmem
  · cases heq
    decide
  · cases List.mem_singleton.mp hmem
    decide

end Sample

open Sample

/-- An upgrade with a token, in a state without sessions. -/
theorem permit_attaches_iff_token :
    Attaches (auth .both) (World.initial 0 []) (getWith "/auth/me" .none (some "alice.token"))
        alice ↔
      Agreed (auth .both) (World.initial 0 []) (some "alice.token") :=
  permit_attaches_iff (liveState .both) (auth .both) rfl (tokenChars .both) (World.initial 0 [])
    .none (some "alice.token") alice (by decide) "/auth/me" (by decide)

/-- A token that was logged out, a token in cookie mode and a session cookie in
bearer mode open `/live`, and the middleware attaches nobody. -/
theorem permit_without_middleware :
    (∃ w, w = (alone .calm (logout (auth .both) aliceClaims.toUser none)
        (World.initial 0 [])).2 ∧
      (w.perform (validateWsConnection .none (some "alice.token") (liveState .both))).1
        = .permit (some alice) ∧
      (w.perform (authMiddleware (auth .both)
        (getWith "/auth/me" .none (some "alice.token")))).1 = .next none) ∧
    (((World.initial 0 []).perform
        (validateWsConnection .none (some "alice.token") (liveState .cookie))).1
        = .permit (some alice) ∧
      ((World.initial 0 []).perform (authMiddleware (auth .cookie)
        (getWith "/auth/me" .none (some "alice.token")))).1 = .next none) ∧
    ((signedIn.perform
        (validateWsConnection (cookies "session=s-bob") none (liveState .bearer))).1
        = .permit (some bob) ∧
      (signedIn.perform (authMiddleware (auth .bearer)
        (getWith "/auth/me" (cookies "session=s-bob") none))).1 = .next none) :=
  ⟨⟨_, rfl, by decide, by decide⟩, ⟨by decide, by decide⟩, by decide, by decide⟩

end FullStackHex
