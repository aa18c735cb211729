import FullStackHex.Api.Live
import FullStackHex.Library.Routing

/-!
The router of the backend, from `api/src/lib.rs`, and its maintenance mode, from
`api/src/middleware.rs`. The handlers behind the routes are parameters.
-/

namespace FullStackHex

open Concurrent Routing

structure FeatureFlags where
  maintenanceMode : Bool
  deriving DecidableEq, Repr

inductive DbStatus where
  | notConfigured
  | connected
  | connectionFailed (message : String)
  deriving DecidableEq, Repr

/-- What `build_router` looks at; `devUserId` is DEV_USER_ID where that is a UUID. -/
structure RouterState where
  app : AppState
  featureFlags : FeatureFlags
  db : DbStatus
  storage : Bool
  devUserId : Option String

/-! ## Requests and answers -/

/-- The `AuthUser` of a request, or the one that `dev_user_middleware` makes up. -/
inductive Attached where
  | user (user : AuthUser)
  | dev (userId : String)
  deriving DecidableEq, Repr

structure Extensions where
  flags : Option FeatureFlags
  auth : Option AuthService
  redis : Bool
  devUserId : Option String
  user : Option Attached
  bodyLimit : Option Nat

structure Incoming where
  method : String
  path : String
  headers : Headers
  extensions : Extensions

def Method.named (name : String) : Method :=
  match name with
  | "GET" => .get
  | "POST" => .post
  | "PUT" => .put
  | "DELETE" => .delete
  | "PATCH" => .patch
  | _ => .other

/-- The request as the authentication middleware sees it. -/
def Incoming.request (req : Incoming) : Request := ⟨.named req.method, req.path, req.headers⟩

inductive RouteHandler where
  | health | healthDb | healthRedis | healthStorage | healthPython | healthAuth
  | metricsHandler | metricsPythonProxy | wsHandler
  | register | login | logout | forgotPassword | resetPassword | refresh | providers | me
  | deleteAccount | oauthRedirect | oauthCallback
  | upload | download | delete | list | presign | initMultipart | uploadPart | completeMultipart
  | abortMultipart
  | listNotes | createNote | getNote | updateNote | deleteNote
  deriving DecidableEq, Repr

/-- Handlers of `auth`, `storage` and `notes`. -/
def RouteHandler.isService : RouteHandler → Bool
  | .health | .healthDb | .healthRedis | .healthStorage | .healthPython | .healthAuth => false
  | .metricsHandler | .metricsPythonProxy | .wsHandler => false
  | _ => true

structure Answer where
  status : Nat
  body : String
  ran : List RouteHandler
  deriving DecidableEq, Repr

/-- An extractor's refusal, for which the handler does not run. It is a 4xx or a 500. -/
structure Refusal where
  status : Nat
  body : String
  notUnavailable : status ≠ 503

inductive HandlerResult where
  | refused (refusal : Refusal)
  | answered (status : Nat) (body : String)

abbrev Service := Incoming → Action Answer

section Build

variable (serve : RouteHandler → Incoming → Action HandlerResult)

/-- A handler with its extractors. -/
def RouteHandler.service (h : RouteHandler) : Service := fun req => do
  match ← serve h req with
  | .refused r => return ⟨r.status, r.body, []⟩
  | .answered status body => return ⟨status, body, [h]⟩

def notFound : Service := fun _ => pure ⟨404, "", []⟩

def methodNotAllowed : Service := fun _ => pure ⟨405, "", []⟩

abbrev MethodRouter := Endpoint Incoming (Action Answer)

/-- `get(..)` also answers HEAD. -/
def MethodRouter.get (s : Service) : MethodRouter := .on ["GET", "HEAD"] s methodNotAllowed

def MethodRouter.post (s : Service) : MethodRouter := .on ["POST"] s methodNotAllowed

def MethodRouter.put (s : Service) : MethodRouter := .on ["PUT"] s methodNotAllowed

def MethodRouter.delete (s : Service) : MethodRouter := .on ["DELETE"] s methodNotAllowed

abbrev ApiRouter := Router Incoming (Action Answer)

/-! ## Middleware -/

def isWhitelisted (path : String) : Bool :=
  path == "/health" || startsWith path "/health/" || path == "/metrics"
    || startsWith path "/metrics/" || path == "/live" || path == "/auth/me"

def maintenanceMiddleware (next : Service) : Service := fun req =>
  if isWhitelisted req.path then next req
  else
    match req.extensions.flags with
    | none => next req
    | some flags =>
        if flags.maintenanceMode then
          pure ⟨503, "\x7b\"error\":\"maintenance mode\"\x7d", []⟩
        else next req

/-- `Extension(..)`, and `DefaultBodyLimit`: the request with one more value. -/
def extension (f : Extensions → Extensions) (next : Service) : Service := fun req =>
  next { req with extensions := f req.extensions }

def devUserMiddleware (next : Service) : Service := fun req =>
  match req.extensions.devUserId with
  | none => next req
  | some uid => extension (fun e => { e with user := some (.dev uid) }) next req

/-- `auth_middleware` where Redis is not configured: no session is looked up and no blacklist. -/
def authMiddlewareWithoutRedis (auth : AuthService) (req : Request) : Action Passage := do
  if isPublicPath req.path then
    return .next none
  let bearerUser ← extractBearer auth req
  match auth.config.authMode, bearerUser with
  | .bearer, user => return .next user
  | .both, some user => return .next (some user)
  | _, _ =>
      match cookieAuthPrepare req with
      | .error () => return .forbidden
      | .ok _ => return .next none

def authPassage (auth : AuthService) (req : Incoming) : Action Passage :=
  if req.extensions.redis then authMiddleware auth req.request
  else authMiddlewareWithoutRedis auth req.request

def authLayer (next : Service) : Service := fun req =>
  match req.extensions.auth with
  | none => next req
  | some auth => do
      match ← authPassage auth req with
      | .forbidden => return ⟨403,
          "\x7b\"error\":\x7b\"code\":\"FORBIDDEN\",\"message\":\"Access denied\"\x7d\x7d", []⟩
      | .next none => next req
      | .next (some user) => extension (fun e => { e with user := some (.user user) }) next req

/-! ## The routes -/

def healthRoutes : ApiRouter :=
  (Router.new notFound)
    |>.route "/health" (MethodRouter.get (RouteHandler.health.service serve))
    |>.route "/health/db" (MethodRouter.get (RouteHandler.healthDb.service serve))
    |>.route "/health/redis" (MethodRouter.get (RouteHandler.healthRedis.service serve))
    |>.route "/health/storage" (MethodRouter.get (RouteHandler.healthStorage.service serve))
    |>.route "/health/python" (MethodRouter.get (RouteHandler.healthPython.service serve))
    |>.route "/health/auth" (MethodRouter.get (RouteHandler.healthAuth.service serve))

def authRoutes (state : RouterState) : Option (ApiRouter) :=
  if state.db = .connected ∧ state.app.auth.isSome ∧ state.app.redis then
    some <| (Router.new notFound)
      |>.route "/register" (MethodRouter.post (RouteHandler.register.service serve))
      |>.route "/login" (MethodRouter.post (RouteHandler.login.service serve))
      |>.route "/logout" (MethodRouter.post (RouteHandler.logout.service serve))
      |>.route "/forgot-password" (MethodRouter.post (RouteHandler.forgotPassword.service serve))
      |>.route "/reset-password" (MethodRouter.post (RouteHandler.resetPassword.service serve))
      |>.route "/refresh" (MethodRouter.post (RouteHandler.refresh.service serve))
      |>.route "/providers" (MethodRouter.get (RouteHandler.providers.service serve))
      |>.route "/me" ((MethodRouter.get (RouteHandler.me.service serve)).merge
          (MethodRouter.delete (RouteHandler.deleteAccount.service serve)))
      |>.route "/oauth/\x7bprovider\x7d" (MethodRouter.get (RouteHandler.oauthRedirect.service serve))
      |>.route "/oauth/\x7bprovider\x7d/callback"
        (MethodRouter.get (RouteHandler.oauthCallback.service serve))
  else none

def storageRoutes (state : RouterState) : Option (ApiRouter) :=
  if state.storage then
    some <| (Router.new notFound)
      |>.route "/\x7bkey\x7d" (MethodRouter.put (RouteHandler.upload.service serve))
      |>.route "/\x7bkey\x7d" (MethodRouter.get (RouteHandler.download.service serve))
      |>.route "/\x7bkey\x7d" (MethodRouter.delete (RouteHandler.delete.service serve))
      |>.route "/" (MethodRouter.get (RouteHandler.list.service serve))
      |>.route "/presign" (MethodRouter.post (RouteHandler.presign.service serve))
      |>.route "/multipart/init" (MethodRouter.post (RouteHandler.initMultipart.service serve))
      |>.route "/multipart/\x7bkey\x7d/\x7bupload_id\x7d/part/\x7bpart_number\x7d"
        (MethodRouter.put (RouteHandler.uploadPart.service serve))
      |>.route "/multipart/\x7bkey\x7d/\x7bupload_id\x7d/complete"
        (MethodRouter.post (RouteHandler.completeMultipart.service serve))
      |>.route "/multipart/\x7bkey\x7d/\x7bupload_id\x7d"
        (MethodRouter.delete (RouteHandler.abortMultipart.service serve))
      |>.layer (extension fun e => { e with bodyLimit := some (10 * 1024 * 1024) })
  else none

def notesRoutes (state : RouterState) : ApiRouter :=
  let router := (Router.new notFound)
    |>.route "/" (MethodRouter.get (RouteHandler.listNotes.service serve))
    |>.route "/" (MethodRouter.post (RouteHandler.createNote.service serve))
    |>.route "/\x7bid\x7d" (MethodRouter.get (RouteHandler.getNote.service serve))
    |>.route "/\x7bid\x7d" (MethodRouter.put (RouteHandler.updateNote.service serve))
    |>.route "/\x7bid\x7d" (MethodRouter.delete (RouteHandler.deleteNote.service serve))
    |>.layer (extension fun e => { e with bodyLimit := some (128 * 1024) })
  if state.app.auth.isNone then
    (router.layer (extension fun e => { e with devUserId := state.devUserId })).layer
      devUserMiddleware
  else router

def notesFallback : Service := fun _ =>
  pure ⟨503, "\x7b\"error\":\"notes unavailable — auth or database not configured\"\x7d", []⟩

def notesFallbackRoutes : ApiRouter :=
  (Router.new notFound)
    |>.route "/" ((MethodRouter.get notesFallback).merge (MethodRouter.post notesFallback))
    |>.route "/\x7bid\x7d"
      (((MethodRouter.get notesFallback).merge (MethodRouter.put notesFallback)).merge
        (MethodRouter.delete notesFallback))

def authMeDisabled : Service := fun _ => pure ⟨200, "\x7b\"status\":\"disabled\"\x7d", []⟩

/-- A nested router sees the path without the prefix. -/
def stripPrefix (outer : String) (req : Incoming) : Incoming :=
  let rest := String.ofList (req.path.toList.drop outer.toList.length)
  { req with path := if rest = "" then "/" else rest }

def nestIf (outer : String) (router : ApiRouter)
    (nested : Option (ApiRouter)) : ApiRouter :=
  match nested with
  | none => router
  | some nested => router.nest outer (stripPrefix outer) nested

/-- The routes that are there before the maintenance layer is added; the metrics layer around
them only counts. -/
def firstRoutes : ApiRouter :=
  ((Router.new notFound).merge (healthRoutes serve))
    |>.route "/metrics" (MethodRouter.get (RouteHandler.metricsHandler.service serve))
    |>.route "/metrics/python" (MethodRouter.get (RouteHandler.metricsPythonProxy.service serve))
    |>.route "/live" (MethodRouter.get (RouteHandler.wsHandler.service serve))

def RouterState.mountsNotes (state : RouterState) : Bool :=
  (state.app.auth.isSome || state.devUserId.isSome) && state.db == .connected

def routesOf (state : RouterState) : ApiRouter :=
  let router := ((firstRoutes serve).layer maintenanceMiddleware).layer
    (extension fun e => { e with flags := some state.featureFlags })
  let router := nestIf "/auth" router (authRoutes serve state)
  let router := nestIf "/storage" router (storageRoutes serve state)
  let router := nestIf "/notes" router
    (some (if state.mountsNotes then notesRoutes serve state else notesFallbackRoutes))
  if state.app.auth.isNone then router.route "/auth/me" (MethodRouter.get authMeDisabled) else router

def buildRouter (state : RouterState) : ApiRouter :=
  match state.app.auth with
  | none => routesOf serve state
  | some auth =>
      let router := ((routesOf serve state).layer authLayer).layer
        (extension fun e => { e with auth := some auth })
      if state.app.redis then router.layer (extension fun e => { e with redis := true }) else router

end Build

/-! ## What maintenance mode is to do -/

/-- 503, and no handler of `auth`, `storage` or `notes` has run. -/
def Answer.Down (a : Answer) : Prop := a.status = 503 ∧ ∀ h ∈ a.ran, h.isService = false

instance (a : Answer) : Decidable a.Down := inferInstanceAs (Decidable (_ ∧ _))

/-- The routes that the maintenance layer wraps. -/
def firstPatterns : List String :=
  ["/health", "/health/db", "/health/redis", "/health/storage", "/health/python", "/health/auth",
    "/metrics", "/metrics/python", "/live"]

/-- The routes that say themselves that notes are unavailable, by pattern and method. -/
def unavailableRoutes : List (String × String) :=
  [("/notes", "GET"), ("/notes", "HEAD"), ("/notes", "POST"), ("/notes/\x7bid\x7d", "GET"),
    ("/notes/\x7bid\x7d", "HEAD"), ("/notes/\x7bid\x7d", "PUT"), ("/notes/\x7bid\x7d", "DELETE")]

/-- The authentication middleware answers the request itself. -/
def Refused (auth : AuthService) (req : Request) (seconds : Nat) : Prop :=
  isPublicPath req.path = false ∧ auth.config.authMode ≠ .bearer ∧
    (auth.config.authMode = .both → bearerUser auth req.headers seconds = none) ∧
    cookieAuthPrepare req = .error ()

/-- Answers 503 to whatever the maintenance layer does not let through. -/
def Closed (s : Service) : Prop :=
  ∀ (req : Incoming) (w : World), isWhitelisted req.path = false → (w.perform (s req)).1.Down

/-- Never down, whatever the mode. -/
def Opened (s : Service) : Prop := ∀ (req : Incoming) (w : World), ¬ (w.perform (s req)).1.Down

def AlwaysDown (s : Service) : Prop := ∀ (req : Incoming) (w : World), (w.perform (s req)).1.Down

/-- What is mounted where, in maintenance mode. -/
def Mounted (state : RouterState) (pattern : String) (method : Option String) (s : Service) : Prop :=
  if pattern ∈ firstPatterns then Closed s
  else if state.mountsNotes = false ∧ ∃ m ∈ method, (pattern, m) ∈ unavailableRoutes then
    AlwaysDown s
  else Opened s

section Down

variable {serve : RouteHandler → Incoming → Action HandlerResult} {state : RouterState} {s : Service}

theorem opened_service {h : RouteHandler} (hservice : h.isService = true) :
    Opened (h.service serve) := by
  intro req w hdown
  unfold RouteHandler.service at hdown
  simp only [Program.bind_def, World.perform, Program.run_bind] at hdown
  cases hserve : ((serve h req).run (World.exec .calm) w).1 with
  | refused r =>
      rw [hserve] at hdown
      exact r.notUnavailable hdown.1
  | answered status body =>
      rw [hserve] at hdown
      have hnot := hdown.2 h (List.mem_singleton.mpr rfl)
      rw [hservice] at hnot
      cases hnot

theorem opened_methodNotAllowed : Opened methodNotAllowed := fun _ _ h => by cases h.1

theorem Opened.strip (h : Opened s) (f : Incoming → Incoming) : Opened fun req => s (f req) :=
  fun req w => h (f req) w

theorem opened_on {methods : List String} {h : RouteHandler} (hservice : h.isService = true) :
    Endpoint.Every (fun _ => Opened) (.on methods (h.service serve) methodNotAllowed) :=
  .on (fun _ _ => opened_service hservice) opened_methodNotAllowed

theorem authRoutes_opened {router : ApiRouter} (h : authRoutes serve state = some router) :
    router.Every fun _ _ => Opened := by
  unfold authRoutes at h
  split at h
  · obtain rfl := Option.some.inj h
    exact Router.Every.new
      |>.route (opened_on rfl) |>.route (opened_on rfl) |>.route (opened_on rfl)
      |>.route (opened_on rfl) |>.route (opened_on rfl) |>.route (opened_on rfl)
      |>.route (opened_on rfl) |>.route ((opened_on rfl).merge (opened_on rfl))
      |>.route (opened_on rfl) |>.route (opened_on rfl)
  · cases h

theorem storageRoutes_opened {router : ApiRouter} (h : storageRoutes serve state = some router) :
    router.Every fun _ _ => Opened := by
  unfold storageRoutes at h
  split at h
  · obtain rfl := Option.some.inj h
    apply Router.Every.layer (P := fun _ _ => Opened)
    · exact Router.Every.new
        |>.route (opened_on rfl) |>.route (opened_on rfl) |>.route (opened_on rfl)
        |>.route (opened_on rfl) |>.route (opened_on rfl) |>.route (opened_on rfl)
        |>.route (opened_on rfl) |>.route (opened_on rfl) |>.route (opened_on rfl)
    · exact fun _ _ _ hs => hs.strip _
  · cases h

theorem Opened.devUser (h : Opened s) : Opened (devUserMiddleware s) := by
  intro req w
  unfold devUserMiddleware
  cases req.extensions.devUserId with
  | none => exact h req w
  | some uid => exact h _ w

theorem notesRoutes_opened : (notesRoutes serve state).Every fun _ _ => Opened := by
  have hroutes : Router.Every (fun _ _ => Opened) ((Router.new notFound)
      |>.route "/" (MethodRouter.get (RouteHandler.listNotes.service serve))
      |>.route "/" (MethodRouter.post (RouteHandler.createNote.service serve))
      |>.route "/\x7bid\x7d" (MethodRouter.get (RouteHandler.getNote.service serve))
      |>.route "/\x7bid\x7d" (MethodRouter.put (RouteHandler.updateNote.service serve))
      |>.route "/\x7bid\x7d" (MethodRouter.delete (RouteHandler.deleteNote.service serve))) :=
    Router.Every.new
      |>.route (opened_on rfl) |>.route (opened_on rfl) |>.route (opened_on rfl)
      |>.route (opened_on rfl) |>.route (opened_on rfl)
  unfold notesRoutes
  dsimp only
  split
  · apply Router.Every.layer (P := fun _ _ => Opened)
    · apply Router.Every.layer (P := fun _ _ => Opened)
      · exact hroutes.layer fun _ _ _ hs => hs.strip _
      · exact fun _ _ _ hs => hs.strip _
    · exact fun _ _ _ hs => hs.devUser
  · exact hroutes.layer fun _ _ _ hs => hs.strip _

theorem prefix_join (outer pattern : String) :
    outer.toList <+: (Router.join outer pattern).toList := by
  unfold Router.join
  split
  · exact List.prefix_rfl
  · rw [String.toList_append]
    exact List.prefix_append _ _

/-- Nothing that is nested under a prefix gets in the way of the first routes. -/
theorem mounted_of_opened {outer pattern : String} {method : Option String}
    (hfirst : ∀ p ∈ firstPatterns, ¬ outer.toList <+: p.toList)
    (hnotes : state.mountsNotes = true ∨
      ∀ p ∈ unavailableRoutes, ¬ outer.toList <+: p.1.toList) (h : Opened s) :
    Mounted state (Router.join outer pattern) method s := by
  have hlong := prefix_join outer pattern
  unfold Mounted
  rw [if_neg fun hmem => hfirst _ hmem hlong, if_neg ?_]
  · exact h
  · rintro ⟨hmounts, m, -, hmem⟩
    rcases hnotes with hnotes | hnotes
    · rw [hnotes] at hmounts
      cases hmounts
    · exact hnotes _ hmem hlong

/-- What the fallback for notes mounts: answers 503 to its own methods. -/
def Unavailable (pattern : String) (method : Option String) (s : Service) : Prop :=
  (∃ m ∈ method, (Router.join "/notes" pattern, m) ∈ unavailableRoutes) ∧ AlwaysDown s ∨
    method = none ∧ Opened s

theorem notesFallback_unavailable : notesFallbackRoutes.Every Unavailable := by
  have hdown : AlwaysDown notesFallback :=
    fun _ _ => ⟨rfl, fun _ hmem => absurd hmem List.not_mem_nil⟩
  have hon : ∀ {pattern methods},
      (∀ m ∈ methods, (Router.join "/notes" pattern, m) ∈ unavailableRoutes) →
      Endpoint.Every (Unavailable pattern) (.on methods notesFallback methodNotAllowed) :=
    fun hall => .on (fun m hm => .inl ⟨⟨m, rfl, hall m hm⟩, hdown⟩)
      (.inr ⟨rfl, opened_methodNotAllowed⟩)
  have hnew : (Router.new notFound).Every Unavailable := .new
  exact hnew
    |>.route ((hon (by decide)).merge (hon (by decide)))
    |>.route (((hon (by decide)).merge (hon (by decide))).merge (hon (by decide)))

theorem mounted_of_unavailable {pattern : String} {method : Option String}
    (hmounts : state.mountsNotes = false) (h : Unavailable pattern method s)
    (f : Incoming → Incoming) :
    Mounted state (Router.join "/notes" pattern) method fun req => s (f req) := by
  have hfirst : Router.join "/notes" pattern ∉ firstPatterns := by
    intro hmem
    have hshort : ∀ p ∈ firstPatterns, ¬ "/notes".toList <+: p.toList := by decide
    exact hshort _ hmem (prefix_join _ _)
  unfold Mounted
  rw [if_neg hfirst]
  rcases h with ⟨hlisted, hdown⟩ | ⟨rfl, hopened⟩
  · rw [if_pos ⟨hmounts, hlisted⟩]
    exact fun req w => hdown (f req) w
  · rw [if_neg (by simp)]
    exact hopened.strip f

theorem firstRoutes_first (serve : RouteHandler → Incoming → Action HandlerResult) :
    (firstRoutes serve).Every fun pattern _ _ => pattern ∈ firstPatterns := by
  have hon : ∀ {pattern methods} {handler : Service}, pattern ∈ firstPatterns →
      Endpoint.Every (fun _ _ => pattern ∈ firstPatterns)
        (.on methods handler methodNotAllowed) :=
    fun hmem => .on (fun _ _ => hmem) hmem
  have hhealth : (healthRoutes serve).Every fun pattern _ _ => pattern ∈ firstPatterns :=
    Router.Every.new
      |>.route (hon (by decide)) |>.route (hon (by decide)) |>.route (hon (by decide))
      |>.route (hon (by decide)) |>.route (hon (by decide)) |>.route (hon (by decide))
  exact (Router.Every.new.merge hhealth)
    |>.route (hon (by decide)) |>.route (hon (by decide)) |>.route (hon (by decide))

theorem Closed.maintenance (hon : state.featureFlags.maintenanceMode = true) (s : Service) :
    Closed (extension (fun e => { e with flags := some state.featureFlags })
      (maintenanceMiddleware s)) := by
  intro req w hpath
  unfold extension maintenanceMiddleware
  simp only [hpath, hon]
  exact ⟨rfl, fun h hmem => absurd hmem List.not_mem_nil⟩

theorem nestIf_mounted {outer : String} {router : ApiRouter} {nested : Option ApiRouter}
    (h : router.Every (Mounted state)) (hnested : ∀ r, nested = some r → r.Every fun _ _ => Opened)
    (hfirst : ∀ p ∈ firstPatterns, ¬ outer.toList <+: p.toList)
    (hnotes : ∀ p ∈ unavailableRoutes, ¬ outer.toList <+: p.1.toList) :
    (nestIf outer router nested).Every (Mounted state) := by
  cases nested with
  | none => exact h
  | some r =>
      apply h.nest (hnested r rfl)
      exact fun _ _ _ hs => mounted_of_opened hfirst (.inr hnotes) (hs.strip _)

theorem nestNotes_mounted (serve : RouteHandler → Incoming → Action HandlerResult)
    {router : ApiRouter} (h : router.Every (Mounted state)) :
    (nestIf "/notes" router (some (if state.mountsNotes then notesRoutes serve state
      else notesFallbackRoutes))).Every (Mounted state) := by
  have hnested : (if state.mountsNotes then notesRoutes serve state else notesFallbackRoutes).Every
      (if state.mountsNotes then fun _ _ => Opened else Unavailable) := by
    split
    · exact notesRoutes_opened
    · exact notesFallback_unavailable
  apply h.nest hnested
  · intro pattern method s hs
    cases hmounts : state.mountsNotes with
    | true =>
        rw [hmounts, if_pos rfl] at hs
        exact mounted_of_opened (by decide) (.inl hmounts) (hs.strip _)
    | false =>
        rw [hmounts, if_neg (by decide)] at hs
        exact mounted_of_unavailable hmounts hs _

theorem authMeDisabled_mounted {methods : List String} :
    Endpoint.Every (Mounted state "/auth/me") (.on methods authMeDisabled methodNotAllowed) := by
  have hmounted : ∀ method (s : Service), Opened s → Mounted state "/auth/me" method s := by
    intro method s hs
    unfold Mounted
    rw [if_neg (by decide), if_neg ?_]
    · exact hs
    · rintro ⟨-, m, -, hmem⟩
      simp [unavailableRoutes] at hmem
  have hopened : Opened authMeDisabled := fun _ _ hdown => by cases hdown.1
  exact .on (fun _ _ => hmounted _ _ hopened) (hmounted _ _ opened_methodNotAllowed)

theorem routesOf_mounted (serve : RouteHandler → Incoming → Action HandlerResult)
    (hon : state.featureFlags.maintenanceMode = true) :
    (routesOf serve state).Every (Mounted state) := by
  have hfirst : (((firstRoutes serve).layer maintenanceMiddleware).layer
      (extension fun e => { e with flags := some state.featureFlags })).Every (Mounted state) := by
    apply Router.Every.layer
      (P := fun pattern _ s => pattern ∈ firstPatterns ∧ ∃ inner, s = maintenanceMiddleware inner)
    · exact (firstRoutes_first serve).layer fun _ _ s hmem => ⟨hmem, s, rfl⟩
    · rintro pattern method s ⟨hmem, inner, rfl⟩
      unfold Mounted
      rw [if_pos hmem]
      exact Closed.maintenance hon inner
  have hauth : (nestIf "/auth" _ (authRoutes serve state)).Every (Mounted state) :=
    nestIf_mounted hfirst (fun _ => authRoutes_opened) (by decide) (by decide)
  have hstorage : (nestIf "/storage" _ (storageRoutes serve state)).Every (Mounted state) :=
    nestIf_mounted hauth (fun _ => storageRoutes_opened) (by decide) (by decide)
  have hnotes := nestNotes_mounted serve hstorage
  unfold routesOf
  dsimp only
  split
  · exact hnotes.route authMeDisabled_mounted
  · exact hnotes

/-- Whatever is not mounted anywhere is still inside of the maintenance layer. -/
theorem fallback_routesOf : (routesOf serve state).fallback
    = extension (fun e => { e with flags := some state.featureFlags })
        (maintenanceMiddleware notFound) := by
  have hnest : ∀ outer (router : ApiRouter) nested,
      (nestIf outer router nested).fallback = router.fallback := by
    intro outer router nested
    cases nested with
    | none => rfl
    | some r => exact Router.fallback_nest router r outer _
  have hfirst : (firstRoutes serve).fallback = notFound := by
    unfold firstRoutes
    rw [Router.fallback_route, Router.fallback_route, Router.fallback_route, Router.fallback_merge]
    rfl
  unfold routesOf
  dsimp only
  split
  · rw [Router.fallback_route, hnest, hnest, hnest, Router.fallback_layer, Router.fallback_layer,
      hfirst]
  · rw [hnest, hnest, hnest, Router.fallback_layer, Router.fallback_layer, hfirst]

theorem notesFallback_provides {pattern method : String}
    (h : (pattern, method) ∈ unavailableRoutes) :
    ∃ short, Router.join "/notes" short = pattern ∧ notesFallbackRoutes.Provides short method := by
  have hroot : ∀ m ∈ ["GET", "HEAD", "POST"], notesFallbackRoutes.Provides "/" m := by
    intro m hm
    apply Router.Provides.route
    apply Router.Provides.route_self
    apply Endpoint.provides_merge
    rcases List.mem_append.mp (show m ∈ ["GET", "HEAD"] ++ ["POST"] from hm) with hget | hpost
    · exact .inl (Endpoint.provides_on hget)
    · exact .inr (Endpoint.provides_on hpost)
  have hid : ∀ m ∈ ["GET", "HEAD", "PUT", "DELETE"],
      notesFallbackRoutes.Provides "/\x7bid\x7d" m := by
    intro m hm
    apply Router.Provides.route_self
    apply Endpoint.provides_merge
    rcases List.mem_append.mp (show m ∈ ["GET", "HEAD", "PUT"] ++ ["DELETE"] from hm)
      with hfirst | hdelete
    · left
      apply Endpoint.provides_merge
      rcases List.mem_append.mp (show m ∈ ["GET", "HEAD"] ++ ["PUT"] from hfirst) with hget | hput
      · exact .inl (Endpoint.provides_on hget)
      · exact .inr (Endpoint.provides_on hput)
    · exact .inr (Endpoint.provides_on hdelete)
  simp only [unavailableRoutes, List.mem_cons, Prod.mk.injEq, List.not_mem_nil, or_false] at h
  rcases h with ⟨rfl, rfl⟩ | ⟨rfl, rfl⟩ | ⟨rfl, rfl⟩ | ⟨rfl, rfl⟩ | ⟨rfl, rfl⟩ | ⟨rfl, rfl⟩ | ⟨rfl, rfl⟩
  · exact ⟨"/", rfl, hroot _ (by decide)⟩
  · exact ⟨"/", rfl, hroot _ (by decide)⟩
  · exact ⟨"/", rfl, hroot _ (by decide)⟩
  · exact ⟨_, rfl, hid _ (by decide)⟩
  · exact ⟨_, rfl, hid _ (by decide)⟩
  · exact ⟨_, rfl, hid _ (by decide)⟩
  · exact ⟨_, rfl, hid _ (by decide)⟩

theorem routesOf_provides (serve : RouteHandler → Incoming → Action HandlerResult)
    {pattern method : String} (hmounts : state.mountsNotes = false)
    (h : (pattern, method) ∈ unavailableRoutes) :
    (routesOf serve state).Provides pattern method := by
  obtain ⟨short, rfl, hshort⟩ := notesFallback_provides h
  have hnested : ∀ router : ApiRouter, (nestIf "/notes" router (some (if state.mountsNotes then
      notesRoutes serve state else notesFallbackRoutes))).Provides
        (Router.join "/notes" short) method := by
    intro router
    rw [hmounts, if_neg (by decide)]
    exact hshort.nest
  unfold routesOf
  dsimp only
  split
  · exact (hnested _).route
  · exact hnested _

/-! ## The authentication layer around it -/

/-- The layers that are added last. -/
def around (state : RouterState) (s : Service) : Service :=
  match state.app.auth with
  | none => s
  | some auth =>
      let s := extension (fun e => { e with auth := some auth }) (authLayer s)
      if state.app.redis then extension (fun e => { e with redis := true }) s else s

theorem service_buildRouter (matcher : Matcher) (path method : String) :
    (buildRouter serve state).service matcher path method
      = around state ((routesOf serve state).service matcher path method) := by
  unfold buildRouter around
  cases state.app.auth with
  | none => rfl
  | some auth =>
      dsimp only
      split
      · simp only [Router.service_layer]
      · simp only [Router.service_layer]

theorem patterns_buildRouter :
    (buildRouter serve state).patterns = (routesOf serve state).patterns := by
  unfold buildRouter
  cases state.app.auth with
  | none => rfl
  | some auth =>
      dsimp only
      split
      · simp only [Router.patterns_layer]
      · simp only [Router.patterns_layer]

theorem credential_forbidden_iff {auth : AuthService} {req : Request} {w : World} :
    credential auth req w = .forbidden ↔ Refused auth req (w.now / 1000) := by
  unfold credential Refused cookieCredential
  cases isPublicPath req.path with
  | true => simp
  | false =>
      cases auth.config.authMode with
      | bearer => simp
      | both => 
        cases bearerUser auth req.headers (w.now / 1000) with
        | none => 
          cases cookieAuthPrepare req with
          | error u => simp
          | ok id => cases id <;> simp
        | some user => simp
      | cookie =>
          cases cookieAuthPrepare req with
          | error u => simp
          | ok id => cases id <;> simp

theorem Passage.unlessBlacklisted_forbidden_iff {w : World} {p : Passage} :
    p.unlessBlacklisted w = .forbidden ↔ p = .forbidden := by
  cases p with
  | forbidden => exact Iff.rfl
  | next user =>
      cases user with
      | none => exact Iff.rfl
      | some user =>
          unfold Passage.unlessBlacklisted
          dsimp only
          split <;> simp

theorem forbidden_withoutRedis_iff {auth : AuthService} {req : Request} {w : World} :
    (w.perform (authMiddlewareWithoutRedis auth req)).1 = .forbidden ↔
      Refused auth req (w.now / 1000) := by
  have hbearer := perform_extractBearer auth req w
  unfold authMiddlewareWithoutRedis Refused
  cases isPublicPath req.path with
  | true => simp
  | false =>
      simp only [Program.bind_def, World.perform] at hbearer ⊢
      simp only [Bool.false_eq_true, if_false, Program.run_bind, hbearer]
      cases auth.config.authMode with
      | bearer => simp
      | both =>
          cases bearerUser auth req.headers (w.now / 1000) with
          | none => cases cookieAuthPrepare req <;> simp
          | some user => simp
      | cookie => cases cookieAuthPrepare req <;> simp

/-- The layer answers by itself, or hands the request on under its path. -/
theorem perform_authLayer {auth : AuthService} (req : Incoming) {w : World}
    (hauth : req.extensions.auth = some auth) :
    (Refused auth req.request (w.now / 1000) ∧ (w.perform (authLayer s req)).1.status = 403) ∨
      (¬ Refused auth req.request (w.now / 1000) ∧ ∃ (passed : Incoming) (w' : World),
        passed.path = req.path ∧ (w.perform (authLayer s req)).1 = (w'.perform (s passed)).1) := by
  have hiff : (w.perform (authPassage auth req)).1 = .forbidden ↔
      Refused auth req.request (w.now / 1000) := by
    unfold authPassage
    split
    · rw [perform_authMiddleware, Passage.unlessBlacklisted_forbidden_iff, credential_forbidden_iff]
    · exact forbidden_withoutRedis_iff
  unfold authLayer
  rw [hauth]
  simp only [Program.bind_def, World.perform, Program.run_bind] at hiff ⊢
  rw [← hiff]
  cases ((authPassage auth req).run (World.exec .calm) w).1 with
  | forbidden => exact .inl ⟨rfl, rfl⟩
  | next user =>
      refine .inr ⟨by simp, ?_⟩
      cases user with
      | none => exact ⟨req, _, rfl, rfl⟩
      | some user =>
          exact ⟨{ req with extensions := { req.extensions with user := some (.user user) } }, _,
            rfl, rfl⟩

/-- The authentication layer, where there is one, refuses the request. -/
def RefusedBy (state : RouterState) (req : Incoming) (w : World) : Prop :=
  ∃ auth, state.app.auth = some auth ∧ Refused auth req.request (w.now / 1000)

theorem perform_around (state : RouterState) (s : Service) (req : Incoming) (w : World) :
    (RefusedBy state req w ∧ (w.perform (around state s req)).1.status = 403) ∨
      (¬ RefusedBy state req w ∧ ∃ (passed : Incoming) (w' : World),
        passed.path = req.path ∧
          (w.perform (around state s req)).1 = (w'.perform (s passed)).1) := by
  unfold around RefusedBy
  cases hauth : state.app.auth with
  | none => exact .inr ⟨by simp, req, w, rfl, rfl⟩
  | some auth =>
      have hsimple : (∃ a, some auth = some a ∧ Refused a req.request (w.now / 1000))
          ↔ Refused auth req.request (w.now / 1000) := by simp
      rw [hsimple]
      dsimp only
      split
      · exact perform_authLayer { req with extensions :=
          { req.extensions with redis := true, auth := some auth } } rfl
      · exact perform_authLayer { req with extensions :=
          { req.extensions with auth := some auth } } rfl

/-! ## Maintenance mode -/

/-- The route chosen for the request was there when the maintenance layer was added, or it is
one of those that say themselves that notes are unavailable. -/
def Shielded (serve : RouteHandler → Incoming → Action HandlerResult) (state : RouterState)
    (matcher : Matcher) (req : Incoming) : Prop :=
  ∀ pattern, matcher.select (buildRouter serve state).patterns req.path = some pattern →
    pattern ∈ firstPatterns ∨
      state.mountsNotes = false ∧ (pattern, req.method) ∈ unavailableRoutes

/-- What a route that does not exist for a method falls back to is never down. -/
theorem mounted_service {pattern method : String} {provided : Prop}
    (h : Mounted state pattern (some method) s ∨ ¬ provided ∧ Mounted state pattern none s)
    (hprovided : state.mountsNotes = false → (pattern, method) ∈ unavailableRoutes → provided) :
    if pattern ∈ firstPatterns ∨ state.mountsNotes = false ∧ (pattern, method) ∈ unavailableRoutes
    then Closed s else Opened s := by
  unfold Mounted at h
  by_cases hfirst : pattern ∈ firstPatterns
  · rw [if_pos (.inl hfirst)]
    simp only [if_pos hfirst] at h
    exact h.elim id And.right
  · simp only [if_neg hfirst] at h
    by_cases hbusy : state.mountsNotes = false ∧ (pattern, method) ∈ unavailableRoutes
    · rw [if_pos (.inr hbusy)]
      rcases h with h | ⟨hnot, -⟩
      · rw [if_pos ⟨hbusy.1, method, rfl, hbusy.2⟩] at h
        exact fun req w _ => h req w
      · exact absurd (hprovided hbusy.1 hbusy.2) hnot
    · rw [if_neg (not_or.mpr ⟨hfirst, hbusy⟩)]
      rcases h with h | ⟨-, h⟩
      · rwa [if_neg ?_] at h
        rintro ⟨hmounts, m, hm, hmem⟩
        exact hbusy ⟨hmounts, Option.mem_some.mp hm ▸ hmem⟩
      · rwa [if_neg (by simp)] at h

/-- What a request gets from the router. -/
def respond (serve : RouteHandler → Incoming → Action HandlerResult) (state : RouterState)
    (matcher : Matcher) (req : Incoming) : Action Answer :=
  (buildRouter serve state).service matcher req.path req.method req

/-- In maintenance mode, a request whose path is not on the whitelist gets a 503 without any
handler of auth, storage or notes exactly when its route is shielded and the authentication
layer, which is outside of the maintenance layer, does not refuse it. -/
theorem maintenance_down_iff (serve : RouteHandler → Incoming → Action HandlerResult)
    (state : RouterState) (matcher : Matcher) (req : Incoming) (w : World)
    (hon : state.featureFlags.maintenanceMode = true) (hpath : isWhitelisted req.path = false) :
    (w.perform (respond serve state matcher req)).1.Down ↔
      ¬ RefusedBy state req w ∧ Shielded serve state matcher req := by
  have hpatterns : (buildRouter serve state).patterns = (routesOf serve state).patterns :=
    patterns_buildRouter
  unfold respond Shielded
  rw [service_buildRouter, hpatterns]
  have hmounted := (routesOf_mounted serve hon).service matcher req.path req.method
  generalize (routesOf serve state).service matcher req.path req.method = s at hmounted ⊢
  rcases perform_around state s req w with
    ⟨hrefused, hstatus⟩ | ⟨hpasses, passed, w', hsame, hanswer⟩
  · constructor
    · intro hdown
      rw [hdown.1] at hstatus
      cases hstatus
    · exact fun h => absurd hrefused h.1
  · rw [hanswer]
    rw [← hsame] at hpath
    have hshielded : (∀ pattern, matcher.select (routesOf serve state).patterns req.path
        = some pattern → pattern ∈ firstPatterns ∨
          state.mountsNotes = false ∧ (pattern, req.method) ∈ unavailableRoutes) ↔
        (w'.perform (s passed)).1.Down := by
      rcases hmounted with ⟨hselect, rfl⟩ | ⟨pattern, hselect, hP⟩
      · rw [hselect, fallback_routesOf]
        simp only [reduceCtorEq, false_imp_iff, implies_true, true_iff]
        exact Closed.maintenance hon notFound passed w' hpath
      · rw [hselect]
        simp only [Option.some.injEq, forall_eq']
        have hservice := mounted_service hP fun hmounts hlisted =>
          routesOf_provides serve hmounts hlisted
        split at hservice
        · rename_i hshield
          exact iff_of_true hshield (hservice passed w' hpath)
        · rename_i hopen
          exact iff_of_false hopen (hservice passed w')
    rw [hshielded]
    exact ⟨fun h => ⟨hpasses, h⟩, And.right⟩

end Down

namespace Sample

/-- Every handler answers 200. -/
def obliging : RouteHandler → Incoming → Action HandlerResult := fun _ _ => pure (.answered 200 "")

/-- Patterns without captures. -/
def literally : Matcher where
  select patterns path := patterns.find? fun p => p = path
  among h := List.mem_of_find?_eq_some h

def inMaintenance : RouterState where
  app := ⟨some (auth .both), true, none, 10⟩
  featureFlags := ⟨true⟩
  db := .connected
  storage := true
  devUserId := none

def incoming (method path : String) : Incoming :=
  ⟨method, path, .none, ⟨none, none, false, none, none, none⟩⟩

end Sample

open Sample

/-- A path that is mounted nowhere. -/
theorem maintenance_down_iff_nowhere :
    ((World.initial 0 []).perform
      (respond obliging inMaintenance literally (incoming "GET" "/admin"))).1.Down := by
  have hselect : literally.select (buildRouter obliging inMaintenance).patterns "/admin" = none := by
    decide +kernel
  refine (maintenance_down_iff obliging inMaintenance literally _ _ rfl (by decide)).mpr ⟨?_, ?_⟩
  · rintro ⟨service, -, -, -, -, hprepare⟩
    cases hprepare
  · intro pattern hpattern
    rw [show (incoming "GET" "/admin").path = "/admin" from rfl, hselect] at hpattern
    cases hpattern

/-- A login is not kept out. -/
theorem login_in_maintenance :
    inMaintenance.featureFlags.maintenanceMode = true ∧ isWhitelisted "/auth/login" = false ∧
      ((World.initial 0 []).perform
        (respond obliging inMaintenance literally (incoming "POST" "/auth/login"))).1
          = ⟨200, "", [.login]⟩ ∧ RouteHandler.login.isService = true := by
  decide +kernel

end FullStackHex
