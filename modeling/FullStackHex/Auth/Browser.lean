import FullStackHex.Auth.RefreshChains
import FullStackHex.Library.Cookies

/-!
A browser between a refresh and its next request. A refresh sets the cookies of the tokens and
no session cookie, so what the middleware finds depends on the session that the browser had
before.
-/

namespace FullStackHex

open Concurrent Expiring

/-! ## The cookies of a refresh -/

/-- Every header sets a cookie with one of these names. -/
def SetsOnly (names : List String) (setCookies : List String) : Prop :=
  ∀ text ∈ setCookies, ∃ name ∈ names, ∃ rest, text.toList = name.toList ++ '=' :: rest

section SetCookies

variable {names cookies cookies' : List String} {name value : String} {maxAge : UInt64}
  {httpOnly secure : Bool}

theorem SetsOnly.setCookie (h : SetsOnly names cookies) (hname : name ∈ names)
    (hset : setCookie cookies name value maxAge httpOnly secure = .ok cookies') :
    SetsOnly names cookies' := by
  unfold FullStackHex.setCookie at hset
  generalize (if httpOnly then "; HttpOnly" else "") = httpOnlyText at hset
  generalize (if secure then "; Secure" else "") = secureText at hset
  dsimp only at hset
  split at hset
  · rw [← Except.ok.inj hset]
    intro text htext
    rcases List.mem_append.mp htext with hold | hnew
    · exact h text hold
    · rw [List.mem_singleton.mp hnew]
      refine ⟨name, hname, value.toList ++ "; Path=/; Max-Age=".toList
        ++ (toString maxAge.toNat).toList ++ "; SameSite=Lax".toList ++ httpOnlyText.toList
        ++ secureText.toList, ?_⟩
      simp only [String.toList_append, List.append_assoc]
      rfl
  · cases hset

/-- The names of the cookies that a refresh sets. -/
def tokenCookies : List String := ["access_token", "refresh_token", "csrf_token"]

theorem yields_setAuthCookies (accessToken refreshToken : String)
    (jwtExpiry refreshExpiry : UInt64) (secure : Bool) :
    Program.Yields (fun r => SetsOnly tokenCookies r.2)
      (setAuthCookies [] accessToken refreshToken none jwtExpiry refreshExpiry secure) := by
  refine Program.Yields.bind (Program.yields_true _) fun csrf _ => ?_
  have hstep : ∀ {cookies : List String} (name value : String) (maxAge : UInt64)
      (httpOnly : Bool), name ∈ tokenCookies → SetsOnly tokenCookies cookies →
      Program.Yields (SetsOnly tokenCookies)
        (liftM (setCookie cookies name value maxAge httpOnly secure) :
          ExceptT ApiError Action (List String)) :=
    fun _ _ _ _ hname h _ hset => h.setCookie hname hset
  refine Program.Yields.bind (hstep _ _ _ _ (by decide) fun _ h => nomatch h) fun cookies h => ?_
  refine Program.Yields.bind (hstep _ _ _ _ (by decide) h) fun cookies h => ?_
  refine Program.Yields.bind (hstep _ _ _ _ (by decide) h) fun cookies h => ?_
  exact fun r hr => Except.ok.inj hr ▸ h

theorem yields_refreshUser (auth : AuthService) (userId : Uuid) :
    Program.Yields (fun response => SetsOnly tokenCookies response.setCookies)
      (refreshUser auth userId) := by
  refine Program.Yields.bind (Program.yields_true _) fun user _ => ?_
  cases user with
  | none => exact fun _ h => nomatch h
  | some user =>
      refine Program.Yields.bind (Program.yields_true _) fun access _ => ?_
      refine Program.Yields.bind (Program.yields_true _) fun refresh _ => ?_
      refine Program.Yields.bind (yields_setAuthCookies _ _ _ _ _) fun cookies h => ?_
      exact fun response hr => Except.ok.inj hr ▸ h

theorem yields_refresh (auth : AuthService) (headers : Headers) (body : Option String) :
    Program.Yields (fun response => SetsOnly tokenCookies response.setCookies)
      (refresh auth headers body) := by
  unfold refresh
  cases presentedRefreshToken headers body with
  | none => exact fun _ h => nomatch h
  | some token =>
      refine Program.Yields.bind (Program.yields_true _) fun owner _ => ?_
      cases owner with
      | none => exact fun _ h => nomatch h
      | some userId => exact yields_refreshUser auth userId

end SetCookies

/-- A jar keeps its session cookie when such a response comes. -/
theorem SetsOnly.value?_session {setCookies : List String} (h : SetsOnly tokenCookies setCookies)
    (jar : Cookies.Jar) (received now : Nat) :
    (jar.receive received setCookies).value? now "session".toList
      = jar.value? now "session".toList := by
  apply Cookies.Jar.value?_receive
  intro text htext c hread
  obtain ⟨name, hname, rest, hrest⟩ := h text htext
  rw [hrest] at hread
  simp only [tokenCookies, List.mem_cons, List.not_mem_nil, or_false] at hname
  rcases hname with rfl | rfl | rfl
  all_goals
    rw [Cookies.readSetCookie_name (by decide) (by decide) hread]
    decide

/-! ## The next request -/

/-- A GET request without an `Authorization` header. -/
def revisit (path : String) (cookie : Option String) : Request :=
  ⟨.get, path, { Headers.none with cookie := cookie }⟩

/-- A text that `if (text)` and `text || other` of a script let through. -/
def truthy (text : Option String) : Option String := text.filter fun value => value ≠ ""

/-- What the server finds under a name in the cookies of the jar, if it is not empty. -/
def sentCookie (jar : Cookies.Jar) (now : Nat) (name : String) : Option (List Char) :=
  (jar.value? now name.toList).filter fun value => value ≠ []

theorem headerStr_header {jar : Cookies.Jar} {now : Nat} {text : String}
    (h : jar.header now = some text) : headerStr text = some text.toList := by
  unfold headerStr
  rw [if_pos]
  apply List.all_eq_true.mpr
  intro c hc
  unfold isHeaderChar
  rw [Cookies.Jar.header_printable h c hc]
  rfl

theorem findCookie_header {jar : Cookies.Jar} {now : Nat} {text : String}
    (h : jar.header now = some text) {name : String} (hplain : '=' ∉ name.toList) :
    FullStackHex.findCookie text.toList name = jar.value? now name.toList := by
  have hfind : (text.toList.splitOn ';').findSome? (Cookies.readPiece name.toList)
      = jar.value? now name.toList := Cookies.Jar.findSome?_header hplain h
  unfold FullStackHex.findCookie
  rw [← hfind, String.toList_append]
  rfl

/-- A handler that looks for a cookie finds what the jar sends. -/
theorem findCookie_jar {headers : Headers} {jar : Cookies.Jar} {now : Nat}
    (hcookie : headers.cookie = jar.header now) {name : String} (hplain : '=' ∉ name.toList) :
    headers.findCookie name = (jar.value? now name.toList).map String.ofList := by
  unfold Headers.findCookie
  rw [hcookie]
  cases hheader : jar.header now with
  | none =>
      rw [Cookies.Jar.value?_of_header_none hheader]
      rfl
  | some text =>
      rw [Option.bind_some, headerStr_header hheader, Option.bind_some,
        findCookie_header hheader hplain]

theorem parseCookieValue_header {jar : Cookies.Jar} {now : Nat} {text : String}
    (h : jar.header now = some text) {name : String} (hplain : '=' ∉ name.toList) :
    parseCookieValue text.toList name = sentCookie jar now name := by
  unfold parseCookieValue sentCookie
  rw [findCookie_header h hplain]

/-- What a request with the cookies of the jar comes to: its session, but for a state-changing
request without the token of the jar in its header. -/
theorem cookieAuthPrepare_jar {req : Request} {jar : Cookies.Jar} {now : Nat}
    (hcookie : req.headers.cookie = jar.header now) :
    cookieAuthPrepare req =
      match sentCookie jar now "session" with
      | none => .ok none
      | some id =>
          if req.method = .post ∨ req.method = .put ∨ req.method = .delete ∨ req.method = .patch then
            if validateCsrfToken ((sentCookie jar now "csrf_token").getD [])
                ((req.headers.csrf.bind headerStr).getD []) then .ok (some (String.ofList id))
            else .error ()
          else .ok (some (String.ofList id)) := by
  unfold cookieAuthPrepare
  rw [hcookie]
  cases hheader : jar.header now with
  | none =>
      unfold sentCookie
      rw [Cookies.Jar.value?_of_header_none hheader]
      rfl
  | some text =>
      rw [Option.bind_some, headerStr_header hheader]
      dsimp only
      rewrite [parseCookieValue_header hheader (by decide),
        parseCookieValue_header hheader (by decide)]
      cases sentCookie jar now "session" with
      | none => rfl
      | some id => rfl

/-- The request finds the session of the jar. -/
theorem cookieAuthPrepare_revisit (path : String) (jar : Cookies.Jar) (now : Nat) :
    cookieAuthPrepare (revisit path (jar.header now)) = .ok
      (((jar.value? now "session".toList).filter fun id => id ≠ []).map String.ofList) := by
  rw [cookieAuthPrepare_jar rfl]
  change (match sentCookie jar now "session" with | none => _ | some id => _)
    = Except.ok ((sentCookie jar now "session").map String.ofList)
  cases sentCookie jar now "session" with
  | none => rfl
  | some id => rfl

/-- The session cookie of the jar still stands for a session of the user. -/
def KeepsSession (jar : Cookies.Jar) (owner : Uuid) (w : World) : Prop :=
  ¬ Blacklisted w "" ∧ ∃ id session, jar.value? w.now "session".toList = some id ∧ id ≠ [] ∧
    w.resolve (String.ofList id) = some session ∧ session.userId = owner

theorem credential_revisit {auth : AuthService} (hmode : auth.config.authMode ≠ .bearer)
    {path : String} (hpath : isPublicPath path = false) (jar : Cookies.Jar) (w : World) :
    credential auth (revisit path (jar.header w.now)) w
      = .next (((jar.value? w.now "session".toList).filter fun id => id ≠ []).bind fun id =>
          (w.resolve (String.ofList id)).map fun session => session.toUser (String.ofList id)) := by
  have hcookie : credential auth (revisit path (jar.header w.now)) w
      = cookieCredential (revisit path (jar.header w.now)) w := by
    unfold credential
    rw [if_neg (by simp [revisit, hpath])]
    cases hconfig : auth.config.authMode with
    | bearer => exact absurd hconfig hmode
    | cookie => rfl
    | both => rfl
  rw [hcookie]
  unfold cookieCredential
  rw [cookieAuthPrepare_revisit]
  cases (jar.value? w.now "session".toList).filter fun id => id ≠ [] with
  | none => rfl
  | some id => rfl

theorem attached_revisit_iff {auth : AuthService} (hmode : auth.config.authMode ≠ .bearer)
    {path : String} (hpath : isPublicPath path = false) {jar : Cookies.Jar} {owner : Uuid}
    {w : World} :
    (∃ user, (w.perform (authMiddleware auth (revisit path (jar.header w.now)))).1
      = .next (some user) ∧ user.userId = owner) ↔ KeepsSession jar owner w := by
  simp only [attached_iff, credential_revisit hmode hpath, Passage.next.injEq,
    Option.bind_eq_some_iff, Option.filter_eq_some_iff, Option.map_eq_some_iff, decide_eq_true_eq]
  constructor
  · rintro ⟨_, ⟨⟨id, ⟨hid, hne⟩, session, hsession, rfl⟩, hfree⟩, howner⟩
    exact ⟨hfree, id, session, hid, hne, hsession, howner⟩
  · rintro ⟨hfree, id, session, hid, hne, hsession, howner⟩
    exact ⟨_, ⟨⟨id, ⟨hid, hne⟩, session, hsession, rfl⟩, hfree⟩, howner⟩

/-- In every run, whenever a refresh has returned 200: the browser's next GET request, with the
cookies of the response in its jar, is authenticated as the user of the refresh token if and only
if the session that the browser had before is still there. -/
theorem refreshed_revisit_iff (auth : AuthService) (hmode : auth.config.authMode ≠ .bearer)
    {ok : Condition Choice Call Cmd State} {cfg : Config Call Cmd Reply State Outcome}
    (h : Reach (api auth) (fun s => s.log = []) ok cfg) {i : Nat}
    {t : Task Call Cmd Reply State Outcome} {headers : Headers} {body : Option String}
    {response : Response} (ht : cfg.Returned i t (.answered (.ok response)))
    (hcall : t.call = .refresh headers body) (jar : Cookies.Jar) (received : Nat) (path : String)
    (hpath : isPublicPath path = false) :
    ∃ token owner, presentedRefreshToken headers body = some token ∧
      Redeems cfg.shared i token owner ∧
      ((∃ user, (cfg.shared.state.perform (authMiddleware auth (revisit path
          ((jar.receive received response.setCookies).header cfg.shared.state.now)))).1
        = .next (some user) ∧ user.userId = owner) ↔ KeepsSession jar owner cfg.shared.state) := by
  obtain ⟨token, owner, hpresented, hredeems⟩ := redeems_of_refreshed h (fun s hs => hs) ht hcall
  refine ⟨token, owner, hpresented, hredeems, ?_⟩
  have hsets : SetsOnly tokenCookies response.setCookies := by
    have hfollows := h.follows rfl (fun s hs => hs) ht.1
    rw [ht.2, hcall] at hfollows
    have hreturns : ((Call.refresh headers body).body auth).Returns fun a =>
        ∀ response, a = .answered (.ok response) → SetsOnly tokenCookies response.setCookies := by
      refine Program.Returns.bind (yields_refresh auth headers body) fun r hr response ha => ?_
      exact hr response (Outcome.answered.inj ha)
    exact hfollows.returns hreturns response rfl
  rw [attached_revisit_iff hmode hpath]
  unfold KeepsSession
  rw [hsets.value?_session]

namespace Sample

/-- Tokens of one user, the second issued 901 seconds after the first. -/
def returning : AuthService := .ofTokens (config .both)
  [("alice.token", aliceClaims),
    ("alice.late", { aliceClaims with exp := 1801, iat := 901, jti := "jti-late" })]

/-- A refresh with the cookie of the registration, after so many milliseconds. -/
def refreshedAfter (ms : Nat) (cookie jti : String) : List (Label Choice Call) :=
  registration ++ [.start (.pass ms), .step 1 .calm,
    .start (.refresh (cookies cookie) none), .step 2 .calm, .step 2 .calm, .step 2 .calm,
    .step 2 (drawing jti), .step 2 (drawing "r-2"), .step 2 (drawing "csrf-2")]

/-- The jar of a browser that has registered. -/
def registered : Cookies.Jar := Cookies.Jar.receive [] 0
  ["access_token=alice.token; Path=/; Max-Age=900; SameSite=Lax; HttpOnly; Secure",
    "refresh_token=r-1; Path=/; Max-Age=604800; SameSite=Lax; HttpOnly; Secure",
    "csrf_token=csrf; Path=/; Max-Age=900; SameSite=Lax; Secure",
    "session=s-1; Path=/; Max-Age=900; SameSite=Lax; HttpOnly; Secure"]

/-- The refresh tokens that have been taken, and whose they were. -/
def redeemed (s : State) : List (Nat × String × Uuid) :=
  s.log.filterMap fun
    | ⟨i, _, .getdel .refresh token, .ok (some owner)⟩ => some (i, token, owner)
    | _ => none

theorem mem_redeemed {s : State} {i : Nat} {token : String} {owner : Uuid}
    (h : Redeems s i token owner) : (i, token, owner) ∈ redeemed s := by
  obtain ⟨e, hmem⟩ := h
  exact List.mem_filterMap.mpr ⟨_, hmem, rfl⟩

def returned : Response where
  status := 200
  setCookies :=
    ["access_token=alice.late; Path=/; Max-Age=900; SameSite=Lax; HttpOnly; Secure",
      "refresh_token=r-2; Path=/; Max-Age=604800; SameSite=Lax; HttpOnly; Secure",
      "csrf_token=csrf-2; Path=/; Max-Age=900; SameSite=Lax; Secure"]
  body := .tokens ⟨"alice.late", "Bearer", 900, "r-2", "csrf-2",
    ⟨alice, "alice@example.com", none, "local"⟩⟩

end Sample

open Sample

/-- A session cookie that was set with the refresh token has expired 901 seconds later; the
refresh succeeds, and the next request is a guest's. -/
theorem refreshed_browser_is_guest :
    ∃ (cfg : Config Call Cmd Reply State Outcome) (t : Task Call Cmd Reply State Outcome)
      (response : Response), Reach (api returning) (fun s => s.log = []) Healthy cfg ∧
      cfg.Returned 2 t (.answered (.ok response)) ∧ response.status = 200 ∧
      t.call = .refresh (cookies "refresh_token=r-1") none ∧
      registered.header cfg.shared.state.now = some "refresh_token=r-1" ∧
      (cfg.shared.state.perform (authMiddleware returning (revisit "/auth/me"
        ((registered.receive cfg.shared.state.now response.setCookies).header
          cfg.shared.state.now)))).1 = .next none := by
  have hrun : (((Config.initial (State.initial 0 [])).followIf (api returning) Healthy
      (refreshedAfter 901000 "refresh_token=r-1" "jti-late")).filter fun cfg =>
        registered.header cfg.shared.state.now = some "refresh_token=r-1" ∧
        (cfg.shared.state.perform (authMiddleware returning (revisit "/auth/me"
          ((registered.receive cfg.shared.state.now returned.setCookies).header
            cfg.shared.state.now)))).1 = .next none).map (fun cfg => cfg.summary.drop 2)
      = some [(.refresh (cookies "refresh_token=r-1") none, 14, 20,
          some (.answered (.ok returned)))] := by
    decide
  obtain ⟨cfg, hfilter, hsummary⟩ := Option.map_eq_some_iff.mp hrun
  obtain ⟨hfollow, hdecided⟩ := Option.filter_eq_some_iff.mp hfilter
  obtain ⟨hheader, hguest⟩ := of_decide_eq_true hdecided
  obtain ⟨t, ht, hcall, -⟩ := cfg.returned_of_summary (i := 2)
    (by rw [← Nat.add_zero 2, ← List.getElem?_drop, hsummary]; rfl)
  exact ⟨cfg, t, returned, .of_followIf (.initial rfl) hfollow, ht, rfl, hcall, hheader, hguest⟩

/-- While its session lives, the browser is recognised after a refresh. -/
theorem refreshed_revisit_early :
    ∃ (cfg : Config Call Cmd Reply State Outcome) (user : AuthUser),
      (cfg.shared.state.perform (authMiddleware renewing (revisit "/auth/me"
        ((registered.receive 0 renewed.setCookies).header cfg.shared.state.now)))).1
          = .next (some user) ∧ user.userId = alice := by
  have hrun : (((Config.initial (State.initial 0 [])).followIf (api renewing) Healthy
      (refreshedAfter 0 "refresh_token=r-1; session=s-1" "jti-next")).filter fun cfg =>
        redeemed cfg.shared = [(2, "r-1", alice)] ∧ ¬ Blacklisted cfg.shared.state "" ∧
        registered.value? cfg.shared.state.now "session".toList = some "s-1".toList ∧
        (cfg.shared.state.resolve "s-1").map Session.userId = some alice).map
          (fun cfg => cfg.summary.drop 2)
      = some [(.refresh (cookies "refresh_token=r-1; session=s-1") none, 14, 20,
          some (.answered (.ok renewed)))] := by
    decide
  obtain ⟨cfg, hfilter, hsummary⟩ := Option.map_eq_some_iff.mp hrun
  obtain ⟨hfollow, hdecided⟩ := Option.filter_eq_some_iff.mp hfilter
  obtain ⟨hredeemed, hfree, hcookie, hresolve⟩ := of_decide_eq_true hdecided
  obtain ⟨session, hsession, hsame⟩ := Option.map_eq_some_iff.mp hresolve
  obtain ⟨t, ht, hcall, -⟩ := cfg.returned_of_summary (i := 2)
    (by rw [← Nat.add_zero 2, ← List.getElem?_drop, hsummary]; rfl)
  have hreach : Reach (api renewing) (fun s => s.log = []) Healthy cfg :=
    .of_followIf (.initial rfl) hfollow
  obtain ⟨token, owner, -, hredeems, hiff⟩ := refreshed_revisit_iff renewing (by decide) hreach
    ht hcall registered 0 "/auth/me" (by decide)
  have howner := mem_redeemed hredeems
  rw [hredeemed, List.mem_singleton] at howner
  obtain ⟨rfl, rfl⟩ := Prod.mk.inj (Prod.mk.inj howner).2
  obtain ⟨user, huser⟩ := hiff.mpr ⟨hfree, _, session, hcookie, by decide, hsession, hsame⟩
  exact ⟨cfg, user, huser⟩

end FullStackHex
