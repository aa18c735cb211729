import FullStackHex.Api.Router
import FullStackHex.Auth.Browser
import FullStackHex.Auth.Isolation

/-!
The two requests to the backend that every page can make, logging out and refreshing the tokens,
from `components/Layout.astro`, and their way there: through `pages/api/auth/[...route].ts`, or
through a proxy that keeps every header. The extractor of a JSON body is third-party code and
stays a parameter, as does what an assignment to `document.cookie` does to the cookies.
-/

namespace FullStackHex

open Concurrent Expiring

/-! ## The way to the backend -/

/-- A request of a page, with the cookies that the browser adds to it. -/
structure Fetch where
  method : Method
  path : String
  contentType : Option String
  headers : Headers
  body : Option String
  deriving DecidableEq, Repr

/-- A request as the backend gets it. -/
structure Forwarded where
  request : Request
  contentType : Option String
  body : String
  deriving DecidableEq, Repr

inductive Proxy where
  /-- `location /api/` of nginx, and the proxy of the development server. -/
  | transparent
  /-- `ALL` of the route `api/auth/[...route]`. -/
  | authRoute
  deriving DecidableEq, Repr

/-- The path without `/api`. -/
def backendPath (path : String) : String := String.ofList (path.toList.drop "/api".length)

/-- The route copies the headers it names and no others; a `fetch` with a text as its body adds a
content type where there is none. -/
def Proxy.forward : Proxy → Fetch → Forwarded
  | .transparent, f =>
      ⟨⟨f.method, backendPath f.path, f.headers⟩, f.contentType, f.body.getD ""⟩
  | .authRoute, f =>
      let headers : Headers :=
        { Headers.none with
          authorization := truthy f.headers.authorization
          cookie := truthy f.headers.cookie }
      let request : Request := ⟨f.method, backendPath f.path, headers⟩
      if f.method = .get then ⟨request, truthy f.contentType, ""⟩
      else ⟨request, (truthy f.contentType).or (some "text/plain;charset=UTF-8"), f.body.getD ""⟩

/-! ## The backend -/

/-- `Option<Json<RefreshRequest>>`: what it makes of a content type and a body. -/
abbrev BodyExtractor := Option String → String → Except Refusal (Option String)

/-- What axum says of it. -/
structure BodyExtractor.Documented (extract : BodyExtractor) : Prop where
  absent : ∀ contentType body, extract contentType body = .ok none → contentType = none
  invalid : ∀ body, JsonText.parse body = none →
    ∃ refusal, extract (some "application/json") body = .error refusal

structure Deployment where
  auth : AuthService
  extract : BodyExtractor
  proxy : Proxy
  assignCookie : Cookies.Jar → Nat → String → Cookies.Jar

/-- What a request to one of the two routes comes to. -/
inductive AuthAnswer where
  | forbidden
  | unauthenticated
  | refused (refusal : Refusal)
  | handled (result : Except ApiError Response)

namespace AuthAnswer

def status : AuthAnswer → Nat
  | .forbidden => 403
  | .unauthenticated => 401
  | .refused refusal => refusal.status
  | .handled (.ok response) => response.status
  | .handled (.error err) => err.status

def setCookies : AuthAnswer → List String
  | .handled (.ok response) => response.setCookies
  | _ => []

/-- `res.ok`. -/
def ok (answer : AuthAnswer) : Bool := 200 ≤ answer.status && answer.status < 300

/-- `data.csrf_token`, if there is one that is not empty. -/
def csrfToken : AuthAnswer → Option String
  | .handled (.ok ⟨_, _, .tokens response⟩) => truthy (some response.csrfToken)
  | _ => none

end AuthAnswer

inductive AuthRoute where
  | logout
  | refresh
  deriving DecidableEq, Repr

def AuthRoute.path : AuthRoute → String
  | .logout => "/api/auth/logout"
  | .refresh => "/api/auth/refresh"

/-- The middleware, the extractors in their order, and the handler. -/
def Deployment.serve (d : Deployment) (route : AuthRoute) (req : Forwarded) :
    Action AuthAnswer := do
  match route, ← authMiddleware d.auth req.request with
  | _, .forbidden => return .forbidden
  | .logout, .next none => return .unauthenticated
  | .logout, .next (some user) =>
      match d.extract req.contentType req.body with
      | .error refusal => return .refused refusal
      | .ok body => return .handled (← (FullStackHex.logout d.auth user body).run)
  | .refresh, .next _ =>
      match d.extract req.contentType req.body with
      | .error refusal => return .refused refusal
      | .ok body => return .handled (← (FullStackHex.refresh d.auth req.request.headers body).run)

/-! ## The page -/

structure BrowserPage where
  jar : Cookies.Jar
  /-- The item `csrf_token` of the session storage. -/
  csrfToken : Option String

/-- A POST request without a body, and without an `Authorization` or `X-CSRF-Token` header. -/
def postFetch (route : AuthRoute) (contentType cookie : Option String) : Fetch :=
  ⟨.post, route.path, contentType, { Headers.none with cookie := cookie }, none⟩

namespace BrowserPage

variable (d : Deployment) (page : BrowserPage)

def post (route : AuthRoute) (contentType : Option String) :
    Action (AuthAnswer × BrowserPage) := do
  let sent ← ask .now
  let answer ← d.serve route
    (d.proxy.forward (postFetch route contentType (page.jar.header sent)))
  let received ← ask .now
  return (answer, { page with jar := page.jar.receive received answer.setCookies })

def performRefresh : Action (Bool × BrowserPage) := do
  let (answer, page) ← page.post d .refresh (some "application/json")
  if answer.ok then
    return (true, { page with csrfToken := answer.csrfToken.or page.csrfToken })
  let now ← ask .now
  let jar := d.assignCookie page.jar now "access_token=; path=/; max-age=0"
  return (false, { page with jar := d.assignCookie jar now "refresh_token=; path=/; max-age=0" })

/-- `window.fetch` for the request of `logout`: after a 401 it refreshes and tries again. -/
def fetchLogout : Action BrowserPage := do
  let (answer, page) ← page.post d .logout none
  if answer.status = 401 then
    let (refreshed, page) ← page.performRefresh d
    if refreshed then
      let (_, page) ← page.post d .logout none
      return page
    return page
  return page

def logout : Action BrowserPage := do
  let page ← page.fetchLogout d
  return { page with csrfToken := none }

end BrowserPage

section Requests

variable {d : Deployment} {page : BrowserPage} {w : World}

theorem perform_post (route : AuthRoute) (contentType : Option String) :
    w.perform (page.post d route contentType) =
      let (answer, after) := w.perform (d.serve route
        (d.proxy.forward (postFetch route contentType (page.jar.header w.now))))
      ((answer, { page with jar := page.jar.receive after.now answer.setCookies }), after) := by
  unfold BrowserPage.post
  simp only [Program.bind_def, World.perform, Program.run_bind]
  rfl

/-- Whatever the proxy does, the backend finds the content type that the page set. -/
theorem forward_contentType (proxy : Proxy) (route : AuthRoute) (contentType : String)
    (cookie : Option String) (h : contentType ≠ "") :
    (proxy.forward (postFetch route (some contentType) cookie)).contentType = some contentType := by
  cases proxy with
  | transparent => rfl
  | authRoute =>
      have hkept : truthy (some contentType) = some contentType := by
        simp [truthy, Option.filter_some, h]
      change (truthy (some contentType)).or _ = _
      rw [hkept]
      rfl

theorem forward_path (proxy : Proxy) (route : AuthRoute) (contentType cookie : Option String) :
    (proxy.forward (postFetch route contentType cookie)).request.path = backendPath route.path := by
  cases proxy <;> rfl

theorem forward_body (proxy : Proxy) (route : AuthRoute) (contentType cookie : Option String) :
    (proxy.forward (postFetch route contentType cookie)).body = "" := by
  cases proxy <;> rfl

/-! ## Refreshing the tokens -/

/-- The handler runs, takes the token of the cookie, and answers 200; the page goes on with new
tokens. -/
structure BrowserPage.Recovers (d : Deployment) (page : BrowserPage) (w : World) : Prop where
  handled : ∃ response, (w.perform (page.post d .refresh (some "application/json"))).1.1
    = .handled (.ok response) ∧ response.status = 200
  rotated : ∀ token, page.jar.value? w.now "refresh_token".toList = some token →
    let after := (w.perform (page.performRefresh d)).2
    (after.cached .refresh).get after.now (String.ofList token) = none
  recovered : (w.perform (page.performRefresh d)).1.1 = true

/-- The browser has the cookie of a refresh token that stands for a user. -/
def BrowserPage.HoldsRefreshToken (page : BrowserPage) (w : World) : Prop :=
  ∃ token owner, page.jar.value? w.now "refresh_token".toList = some token ∧
    (w.cached .refresh).get w.now (String.ofList token) = some owner

/-- The extractor refuses the empty body that comes with a JSON content type. -/
theorem serve_refresh (h : d.extract.Documented) (cookie : Option String) :
    ∃ refusal, w.perform (d.serve .refresh
      (d.proxy.forward (postFetch .refresh (some "application/json") cookie)))
        = (.refused refusal, w) := by
  obtain ⟨refusal, hrefused⟩ := h.invalid "" (by decide)
  refine ⟨refusal, ?_⟩
  have hpath : isPublicPath (d.proxy.forward (postFetch .refresh (some "application/json")
      cookie)).request.path = true := by
    rw [forward_path]
    decide
  have hpassage : w.perform (authMiddleware d.auth (d.proxy.forward (postFetch .refresh
      (some "application/json") cookie)).request) = (.next none, w) := by
    rw [perform_authMiddleware]
    unfold credential cookieLookup
    rw [if_pos hpath, if_pos hpath]
    rfl
  unfold Deployment.serve
  simp only [Program.bind_def, World.perform, Program.run_bind] at hpassage ⊢
  rw [hpassage]
  dsimp only
  rw [forward_contentType _ _ _ _ (by decide), forward_body, hrefused]
  rfl

/-- No refresh of a page succeeds: the request says that its body is JSON, and has none. -/
theorem performRefresh_never_recovers (d : Deployment) (h : d.extract.Documented)
    (page : BrowserPage) (w : World) : ¬ page.Recovers d w := by
  rintro ⟨⟨response, hhandled, -⟩, -, -⟩
  obtain ⟨refusal, hrefused⟩ := serve_refresh (d := d) (w := w) h (page.jar.header w.now)
  rw [perform_post, hrefused] at hhandled
  cases hhandled

/-! ## Logging out -/

/-- No later request with the cookies of the browser is authenticated by this session. -/
def BrowserPage.LeftSession (d : Deployment) (page : BrowserPage) (w : World)
    (sessionId : String) : Prop :=
  ∀ later, w.now ≤ later → ∀ req : Request, req.headers.cookie = page.jar.header later →
    ∀ user, ((w.atTime later).perform (authMiddleware d.auth req)).1 = .next (some user) →
      user.sessionId ≠ some sessionId

theorem truthy_header (jar : Cookies.Jar) (now : Nat) :
    truthy (jar.header now) = jar.header now := by
  cases hheader : jar.header now with
  | none => rfl
  | some text =>
      have hne : text ≠ "" := by
        rintro rfl
        obtain ⟨c, rest, -, hpieces⟩ := Cookies.Jar.splitOn_header hheader
        have hempty : c.pair = [] := (List.cons.inj hpieces).1.symm
        simp [Cookies.Cookie.pair, Cookies.pairText] at hempty
      simp [truthy, Option.filter_some, hne]

theorem forward_headers (proxy : Proxy) (route : AuthRoute) (contentType : Option String)
    (jar : Cookies.Jar) (now : Nat) :
    (proxy.forward (postFetch route contentType (jar.header now))).request.headers
      = { Headers.none with cookie := jar.header now } := by
  cases proxy with
  | transparent => rfl
  | authRoute =>
      change (⟨none, truthy (jar.header now), none, none⟩ : Headers) = _
      rw [truthy_header]
      rfl

theorem forward_method (proxy : Proxy) (route : AuthRoute) (contentType cookie : Option String) :
    (proxy.forward (postFetch route contentType cookie)).request.method = .post := by
  cases proxy <;> rfl

/-- The request of `logout` is refused for its missing CSRF token, whoever sends it on. -/
theorem cookieAuthPrepare_logout (proxy : Proxy) {jar : Cookies.Jar} {now : Nat} {id : List Char}
    (hid : sentCookie jar now "session" = some id) :
    cookieAuthPrepare (proxy.forward (postFetch .logout none (jar.header now))).request
      = .error () := by
  have hheaders := forward_headers proxy .logout none jar now
  rw [cookieAuthPrepare_jar (by rw [hheaders]), hid, forward_method, hheaders]
  simp [validateCsrfToken, Headers.none]

theorem perform_postLogout (hmode : d.auth.config.authMode ≠ .bearer) {id : List Char}
    (hid : sentCookie page.jar w.now "session" = some id) :
    w.perform (page.post d .logout none) = ((.forbidden, page), w) := by
  have hheaders := forward_headers d.proxy .logout none page.jar w.now
  have hprepare := cookieAuthPrepare_logout d.proxy hid
  have hbearer : bearerUser d.auth { Headers.none with cookie := page.jar.header w.now }
      (w.now / 1000) = none := rfl
  have hpublic : isPublicPath (backendPath AuthRoute.logout.path) = false := by decide
  have hpassage : w.perform (authMiddleware d.auth (d.proxy.forward (postFetch .logout none
      (page.jar.header w.now))).request) = (.forbidden, w) := by
    rw [perform_authMiddleware]
    unfold credential cookieLookup cookieCredential
    rw [forward_path, hpublic, hheaders, hbearer, hprepare]
    cases hconfig : d.auth.config.authMode with
    | bearer => exact absurd hconfig hmode
    | cookie => rfl
    | both => rfl
  rw [perform_post]
  unfold Deployment.serve
  simp only [Program.bind_def, World.perform, Program.run_bind] at hpassage ⊢
  rw [hpassage]
  rfl

/-- A logout changes nothing but the item of the page. -/
theorem perform_logout (hmode : d.auth.config.authMode ≠ .bearer) {id : List Char}
    (hid : sentCookie page.jar w.now "session" = some id) :
    w.perform (page.logout d) = ({ page with csrfToken := none }, w) := by
  have hpost := perform_postLogout hmode hid
  unfold BrowserPage.logout BrowserPage.fetchLogout
  simp only [Program.bind_def, World.perform, Program.run_bind] at hpost ⊢
  rw [hpost]
  rfl

/-- After the logout of a browser that is logged in, its next request is authenticated by the
session that it had. -/
theorem logout_never_leaves (d : Deployment) (hmode : d.auth.config.authMode ≠ .bearer)
    (page : BrowserPage) (w : World) (id : List Char) (session : Session)
    (hid : sentCookie page.jar w.now "session" = some id)
    (hsession : w.resolve (String.ofList id) = some session) (hfree : ¬ Blacklisted w "") :
    let (left, after) := w.perform (page.logout d)
    ¬ left.LeftSession d after (String.ofList id) := by
  rw [perform_logout hmode hid]
  intro hleft
  have hvisit : (w.perform (authMiddleware d.auth (revisit "/auth/me"
      (page.jar.header w.now)))).1 = .next (some (session.toUser (String.ofList id))) := by
    apply attached_iff.mpr
    refine ⟨?_, hfree⟩
    rw [credential_revisit hmode (by decide)]
    change Passage.next ((sentCookie page.jar w.now "session").bind _) = _
    rw [hid, Option.bind_some, hsession]
    rfl
  exact hleft w.now le_rfl _ rfl _ hvisit rfl

end Requests

namespace Sample

def notJson : Refusal := ⟨400, "Failed to parse the request body as JSON", by decide⟩

/-- The extractor, as its documentation describes it. -/
def optionJson : BodyExtractor := fun contentType body =>
  match contentType with
  | none => .ok none
  | some mime =>
      if mime = "application/json" then
        match JsonText.parse body with
        | none => .error notJson
        | some data => .ok (some ((data.get "refresh_token").asStr.getD ""))
      else .error ⟨415, "Expected request with `Content-Type: application/json`", by decide⟩

theorem optionJson_documented : optionJson.Documented where
  absent contentType body h := by
    unfold optionJson at h
    cases contentType with
    | none => rfl
    | some mime =>
        dsimp only at h
        split at h
        · split at h <;> cases h
        · cases h
  invalid body h := by
    refine ⟨notJson, ?_⟩
    simp only [optionJson, h, if_true]

def deployed (proxy : Proxy) : Deployment :=
  ⟨renewing, optionJson, proxy, fun jar _ _ => jar⟩

/-- A browser after a registration, with the token in its session storage. -/
def registeredPage : BrowserPage := ⟨registered, some "csrf"⟩

/-- The backend after that registration. -/
def registeredWorld : World :=
  (alone { Choice.calm with token := "s-1" } (sessionCreate aliceSession 900)
    ((World.initial 0 []).set .refresh "r-1" alice 604800).2).2

end Sample

open Sample

theorem performRefresh_never_recovers_registered :
    ¬ registeredPage.Recovers (deployed .authRoute) registeredWorld :=
  performRefresh_never_recovers (deployed .authRoute) optionJson_documented registeredPage
    registeredWorld

/-- A browser right after its registration does not get its tokens refreshed. -/
theorem refresh_of_registered_fails :
    registeredPage.HoldsRefreshToken registeredWorld ∧
      (registeredWorld.perform (registeredPage.post (deployed .transparent) .refresh
        (some "application/json"))).1.1.status = 400 ∧
      ¬ registeredPage.Recovers (deployed .transparent) registeredWorld := by
  have hfails : (registeredWorld.perform
      (registeredPage.performRefresh (deployed .transparent))).1.1 = false := by
    decide
  refine ⟨⟨"r-1".toList, alice, by decide, by decide⟩, by decide, fun h => ?_⟩
  rw [h.recovered] at hfails
  cases hfails

theorem logout_never_leaves_registered :
    let (left, after) := registeredWorld.perform (registeredPage.logout (deployed .authRoute))
    ¬ left.LeftSession (deployed .authRoute) after "s-1" :=
  logout_never_leaves (deployed .authRoute) (by decide) registeredPage registeredWorld "s-1".toList
    aliceSession (by decide) (by decide) (by decide)

/-- The page has logged out, and its next request is authenticated by the session of before. -/
theorem logged_out_page_is_recognised :
    let (left, after) := registeredWorld.perform (registeredPage.logout (deployed .transparent))
    left.csrfToken = none ∧
      (after.perform (authMiddleware renewing (revisit "/auth/me"
        (left.jar.header after.now)))).1 = .next (some (aliceSession.toUser "s-1")) ∧
      ¬ left.LeftSession (deployed .transparent) after "s-1" := by
  have hid : sentCookie registeredPage.jar registeredWorld.now "session" = some "s-1".toList := by
    decide
  have hvisit : (registeredWorld.perform (authMiddleware renewing (revisit "/auth/me"
      (registered.header registeredWorld.now)))).1 = .next (some (aliceSession.toUser "s-1")) := by
    decide
  rw [perform_logout (d := deployed .transparent) (by decide) hid]
  exact ⟨rfl, hvisit, fun h => h _ le_rfl _ rfl _ hvisit rfl⟩

end FullStackHex
