import FullStackHex.Api.Router

/-!
Which layer runs inside which: what the three middlewares of the router find in the
extensions of a request. The layer that is added last runs first.
-/

namespace FullStackHex

open Concurrent Routing

/-- A request as it comes from the network. -/
def Incoming.Fresh (req : Incoming) : Prop := req.extensions = ⟨none, none, false, none, none, none⟩

/-- The routes of notes and their handlers. -/
def notesHandlers : List (String × String × RouteHandler) :=
  [("/notes", "GET", .listNotes), ("/notes", "HEAD", .listNotes), ("/notes", "POST", .createNote),
    ("/notes/\x7bid\x7d", "GET", .getNote), ("/notes/\x7bid\x7d", "HEAD", .getNote),
    ("/notes/\x7bid\x7d", "PUT", .updateNote), ("/notes/\x7bid\x7d", "DELETE", .deleteNote)]

/-- Without authentication, every request to a notes route gets to its handler as one of the user
DEV_USER_ID, whatever the handlers do. -/
def RouterState.DevUserSeen (state : RouterState) : Prop :=
  ∀ uid, state.app.auth = none → state.devUserId = some uid → state.db = .connected →
    ∀ (matcher : Matcher) (pattern : String) (h : RouteHandler) (req : Incoming), req.Fresh →
      (pattern, req.method, h) ∈ notesHandlers →
        (∀ serve, matcher.select (buildRouter serve state).patterns req.path = some pattern) →
          ∃ seen : Incoming, seen.extensions.user = some (.dev uid) ∧
            ∀ serve, respond serve state matcher req = h.service serve seen

/-- On every request to every route, and to none, the authentication middleware runs, and finds
the service and whether there is a Redis client. -/
def RouterState.AuthSeen (state : RouterState) : Prop :=
  ∀ auth, state.app.auth = some auth → ∀ serve (matcher : Matcher) (req : Incoming), req.Fresh →
    ∃ seen : Incoming, seen.request = req.request ∧ seen.extensions.auth = some auth ∧
      seen.extensions.redis = state.app.redis ∧
        respond serve state matcher req
          = authLayer ((routesOf serve state).service matcher req.path req.method) seen

/-- Wherever the maintenance middleware is applied, it finds the feature flags. -/
def RouterState.FlagsSeen (state : RouterState) : Prop :=
  ∀ serve (matcher : Matcher) (path method : String),
    (∀ pattern, matcher.select (routesOf serve state).patterns path = some pattern →
      pattern ∈ firstPatterns) →
    ∃ next, ∀ req, ∃ seen : Incoming, seen.request = req.request ∧
      seen.extensions.flags = some state.featureFlags ∧
        (routesOf serve state).service matcher path method req = maintenanceMiddleware next seen

section Layers

variable {serve : RouteHandler → Incoming → Action HandlerResult} {state : RouterState}

theorem RouterState.authSeen (state : RouterState) : state.AuthSeen := by
  intro auth hauth serve matcher req hfresh
  unfold respond
  rw [service_buildRouter]
  unfold around
  rw [hauth]
  dsimp only
  cases hredis : state.app.redis with
  | true =>
      exact ⟨{ req with extensions := { req.extensions with redis := true, auth := some auth } },
        rfl, rfl, rfl, rfl⟩
  | false =>
      refine ⟨{ req with extensions := { req.extensions with auth := some auth } }, rfl, rfl, ?_, rfl⟩
      rw [hfresh]

/-- Routes under a prefix that no pattern of interest has. -/
theorem nestIf_vacuous {P : String → Option String → Service → Prop} {outer : String}
    {router : ApiRouter} (nested : Option ApiRouter) (h : router.Every P)
    (hP : ∀ pattern m s, outer.toList <+: pattern.toList → P pattern m s) :
    (nestIf outer router nested).Every P := by
  cases nested with
  | none => exact h
  | some nested =>
      have hall : nested.Every fun _ _ _ => True :=
        fun _ _ => ⟨fun _ _ => trivial, trivial⟩
      exact h.nest hall fun pattern m s _ => hP _ _ _ (prefix_join outer pattern)

/-- The flags are put in outside of the maintenance middleware. -/
def flagged (state : RouterState) (next : Service) : Service :=
  extension (fun e => { e with flags := some state.featureFlags }) (maintenanceMiddleware next)

theorem routesOf_flagged (serve : RouteHandler → Incoming → Action HandlerResult)
    (state : RouterState) : (routesOf serve state).Every fun pattern _ s =>
    pattern ∈ firstPatterns → ∃ next, s = flagged state next := by
  have hvacuous : ∀ outer ∈ ["/auth", "/storage", "/notes"], ∀ pattern (m : Option String) s,
      outer.toList <+: pattern.toList → pattern ∈ firstPatterns → ∃ next, s = flagged state next := by
    have hnone : ∀ outer ∈ ["/auth", "/storage", "/notes"], ∀ pattern ∈ firstPatterns,
        ¬ outer.toList <+: pattern.toList := by decide
    exact fun outer houter pattern _ s hprefix hfirst =>
      absurd hprefix (hnone outer houter pattern hfirst)
  have hfirst : (((firstRoutes serve).layer maintenanceMiddleware).layer
      (extension fun e => { e with flags := some state.featureFlags })).Every fun pattern _ s =>
        pattern ∈ firstPatterns → ∃ next, s = flagged state next := by
    apply Router.Every.layer (P := fun _ _ s => ∃ next, s = maintenanceMiddleware next)
    · exact (firstRoutes_first serve).layer fun _ _ s _ => ⟨s, rfl⟩
    · rintro _ _ _ ⟨next, rfl⟩ _
      exact ⟨next, rfl⟩
  have hnotes := nestIf_vacuous (some (if state.mountsNotes then notesRoutes serve state
    else notesFallbackRoutes)) (nestIf_vacuous (storageRoutes serve state)
      (nestIf_vacuous (authRoutes serve state) hfirst (hvacuous "/auth" (by decide)))
        (hvacuous "/storage" (by decide))) (hvacuous "/notes" (by decide))
  unfold routesOf
  dsimp only
  split
  · apply hnotes.route
    have hme : "/auth/me" ∉ firstPatterns := by decide
    exact ⟨fun _ _ h => absurd h hme, fun h => absurd h hme⟩
  · exact hnotes

theorem RouterState.flagsSeen (state : RouterState) : state.FlagsSeen := by
  intro serve matcher path method hselect
  have hfound : ∃ next, (routesOf serve state).service matcher path method = flagged state next := by
    rcases (routesOf_flagged serve state).service matcher path method with
      ⟨-, hfallback⟩ | ⟨pattern, hpattern, hP⟩
    · exact ⟨notFound, hfallback.trans fallback_routesOf⟩
    · have hmem := hselect pattern hpattern
      rcases hP with hP | ⟨-, hP⟩
      · exact hP hmem
      · exact hP hmem
  obtain ⟨next, hnext⟩ := hfound
  refine ⟨next, fun req => ?_⟩
  refine ⟨{ req with extensions := { req.extensions with flags := some state.featureFlags } }, rfl,
    rfl, ?_⟩
  rw [hnext]
  rfl

/-! ## Notes without authentication -/

/-- What stands around a handler of notes where authentication is not configured. -/
def devWrapped (state : RouterState) (s : Service) : Service := fun req =>
  devUserMiddleware (extension (fun e => { e with devUserId := state.devUserId })
    (extension (fun e => { e with bodyLimit := some (128 * 1024) }) s)) (stripPrefix "/notes" req)

/-- A handler that is mounted for a notes route is the one of that route, with `wrap` around it. -/
def ServesNotes (serve : RouteHandler → Incoming → Action HandlerResult) (wrap : Service → Service)
    (pattern : String) (method : Option String) (s : Service) : Prop :=
  ∀ m h, method = some m → (pattern, m, h) ∈ notesHandlers → s = wrap (h.service serve)

theorem servesNotes_on {pattern : String} {methods : List String} {h : RouteHandler}
    (hmethods : ∀ m ∈ methods, ∀ h', (pattern, m, h') ∈ notesHandlers → h' = h) :
    (Endpoint.on methods (h.service serve) methodNotAllowed).Every
      (ServesNotes serve id pattern) := by
  apply Endpoint.Every.on
  · intro m hm m' h' hsome hmem
    obtain rfl := Option.some.inj hsome
    rw [hmethods m hm h' hmem]
    rfl
  · intro m h' hsome
    cases hsome

/-- The routes of notes before any layer. -/
theorem notesRoutes_dev (hauth : state.app.auth = none) :
    (notesRoutes serve state).Every fun short m s =>
      ServesNotes serve (devWrapped state) (Router.join "/notes" short) m
        fun req => s (stripPrefix "/notes" req) := by
  have hroutes : Router.Every (fun short => ServesNotes serve id (Router.join "/notes" short))
      ((Router.new notFound)
        |>.route "/" (MethodRouter.get (RouteHandler.listNotes.service serve))
        |>.route "/" (MethodRouter.post (RouteHandler.createNote.service serve))
        |>.route "/\x7bid\x7d" (MethodRouter.get (RouteHandler.getNote.service serve))
        |>.route "/\x7bid\x7d" (MethodRouter.put (RouteHandler.updateNote.service serve))
        |>.route "/\x7bid\x7d" (MethodRouter.delete (RouteHandler.deleteNote.service serve))) := by
    apply Router.Every.route
    · apply Router.Every.route
      · apply Router.Every.route
        · apply Router.Every.route
          · apply Router.Every.route Router.Every.new
            apply servesNotes_on
            simp [notesHandlers, Router.join]
          · apply servesNotes_on
            simp [notesHandlers, Router.join]
        · apply servesNotes_on
          simp [notesHandlers, Router.join]
      · apply servesNotes_on
        simp [notesHandlers, Router.join]
    · apply servesNotes_on
      simp [notesHandlers, Router.join]
  unfold notesRoutes
  dsimp only
  rw [hauth, if_pos (by rfl)]
  apply Router.Every.layer (P := fun short => ServesNotes serve (fun s => extension
    (fun e => { e with devUserId := state.devUserId })
      (extension (fun e => { e with bodyLimit := some (128 * 1024) }) s)) (Router.join "/notes" short))
  · apply Router.Every.layer (P := fun short => ServesNotes serve
      (extension fun e => { e with bodyLimit := some (128 * 1024) }) (Router.join "/notes" short))
    · apply hroutes.layer
      intro short m s hs m' h hm hmem
      rw [hs m' h hm hmem]
      rfl
    · intro short m s hs m' h hm hmem
      rw [hs m' h hm hmem]
  · intro short m s hs m' h hm hmem
    rw [hs m' h hm hmem]
    rfl

theorem notesRoutes_provides (serve : RouteHandler → Incoming → Action HandlerResult)
    (state : RouterState) {pattern method : String} {h : RouteHandler}
    (hmem : (pattern, method, h) ∈ notesHandlers) :
    ∃ short, Router.join "/notes" short = pattern ∧ (notesRoutes serve state).Provides short method := by
  have hlayers : ∀ {short}, Router.Provides ((Router.new notFound)
        |>.route "/" (MethodRouter.get (RouteHandler.listNotes.service serve))
        |>.route "/" (MethodRouter.post (RouteHandler.createNote.service serve))
        |>.route "/\x7bid\x7d" (MethodRouter.get (RouteHandler.getNote.service serve))
        |>.route "/\x7bid\x7d" (MethodRouter.put (RouteHandler.updateNote.service serve))
        |>.route "/\x7bid\x7d" (MethodRouter.delete (RouteHandler.deleteNote.service serve)))
      short method → (notesRoutes serve state).Provides short method := by
    intro short hroutes
    unfold notesRoutes
    dsimp only
    split
    · exact ((hroutes.layer _).layer _).layer _
    · exact hroutes.layer _
  have hself : ∀ {router : ApiRouter} {short : String} {methods : List String} {s : Service},
      method ∈ methods → (router.route short (.on methods s methodNotAllowed)).Provides short method :=
    fun hm => Router.Provides.route_self (Endpoint.provides_on hm)
  simp only [notesHandlers, List.mem_cons, Prod.mk.injEq, List.not_mem_nil, or_false] at hmem
  rcases hmem with ⟨rfl, rfl, -⟩ | ⟨rfl, rfl, -⟩ | ⟨rfl, rfl, -⟩ | ⟨rfl, rfl, -⟩ | ⟨rfl, rfl, -⟩ |
    ⟨rfl, rfl, -⟩ | ⟨rfl, rfl, -⟩
  · refine ⟨"/", rfl, hlayers ?_⟩
    exact .route (.route (.route (.route (hself (by decide)))))
  · refine ⟨"/", rfl, hlayers ?_⟩
    exact .route (.route (.route (.route (hself (by decide)))))
  · refine ⟨"/", rfl, hlayers ?_⟩
    exact .route (.route (.route (hself (by decide))))
  · refine ⟨"/\x7bid\x7d", rfl, hlayers ?_⟩
    exact .route (.route (hself (by decide)))
  · refine ⟨"/\x7bid\x7d", rfl, hlayers ?_⟩
    exact .route (.route (hself (by decide)))
  · refine ⟨"/\x7bid\x7d", rfl, hlayers ?_⟩
    exact .route (hself (by decide))
  · exact ⟨"/\x7bid\x7d", rfl, hlayers (hself (by decide))⟩

theorem mountsNotes_dev {uid : String} (huid : state.devUserId = some uid)
    (hdb : state.db = .connected) : state.mountsNotes = true := by
  unfold RouterState.mountsNotes
  rw [huid, hdb]
  simp

theorem routesOf_provides_notes (serve : RouteHandler → Incoming → Action HandlerResult)
    {uid : String} (hauth : state.app.auth = none)
    (huid : state.devUserId = some uid) (hdb : state.db = .connected) {pattern method : String}
    {h : RouteHandler} (hmem : (pattern, method, h) ∈ notesHandlers) :
    (routesOf serve state).Provides pattern method := by
  obtain ⟨short, rfl, hshort⟩ := notesRoutes_provides serve state hmem
  unfold routesOf
  dsimp only
  rw [hauth, if_pos (by rfl), mountsNotes_dev huid hdb, if_pos rfl]
  exact hshort.nest.route

/-- Without authentication, the handler of a notes route has these layers around it. -/
theorem routesOf_dev (serve : RouteHandler → Incoming → Action HandlerResult)
    {uid : String} (hauth : state.app.auth = none)
    (huid : state.devUserId = some uid) (hdb : state.db = .connected) {matcher : Matcher}
    {path pattern method : String} {h : RouteHandler} (hmem : (pattern, method, h) ∈ notesHandlers)
    (hselect : matcher.select (routesOf serve state).patterns path = some pattern) :
    (routesOf serve state).service matcher path method = devWrapped state (h.service serve) := by
  have hmounts := mountsNotes_dev huid hdb
  have hvacuous : ∀ outer ∈ ["/auth", "/storage"], ∀ pattern (m : Option String) s,
      outer.toList <+: pattern.toList → ServesNotes serve (devWrapped state) pattern m s := by
    have hnone : ∀ outer ∈ ["/auth", "/storage"], ∀ entry ∈ notesHandlers,
        ¬ outer.toList <+: entry.1.toList := by decide
    exact fun outer houter pattern m s hprefix m' h' _ hmem' =>
      absurd hprefix (hnone outer houter _ hmem')
  have hother : ∀ pattern ∈ "/auth/me" :: firstPatterns, ∀ (m : Option String) s,
      ServesNotes serve (devWrapped state) pattern m s := by
    have hnone : ∀ pattern ∈ "/auth/me" :: firstPatterns, ∀ entry ∈ notesHandlers,
        entry.1 ≠ pattern := by decide
    exact fun pattern hpattern m s m' h' _ hmem' => absurd rfl (hnone pattern hpattern _ hmem')
  have hfirst : (((firstRoutes serve).layer maintenanceMiddleware).layer
      (extension fun e => { e with flags := some state.featureFlags })).Every
        (ServesNotes serve (devWrapped state)) := by
    apply Router.Every.layer (P := fun pattern _ _ => pattern ∈ firstPatterns)
    · exact (firstRoutes_first serve).layer fun _ _ _ hp => hp
    · exact fun pattern m s hp => hother pattern (List.mem_cons_of_mem _ hp) m _
  have hbefore := nestIf_vacuous (storageRoutes serve state)
    (nestIf_vacuous (authRoutes serve state) hfirst (hvacuous "/auth" (by decide)))
      (hvacuous "/storage" (by decide))
  have hevery : (routesOf serve state).Every (ServesNotes serve (devWrapped state)) := by
    unfold routesOf
    dsimp only
    rw [hauth, if_pos (by rfl), hmounts, if_pos rfl]
    apply Router.Every.route
    · exact hbefore.nest (notesRoutes_dev hauth) fun short m s hs => hs
    · exact ⟨fun entry _ => hother _ (List.mem_cons_self ..) _ _,
        hother _ (List.mem_cons_self ..) _ _⟩
  have hprovides := routesOf_provides_notes serve hauth huid hdb hmem
  rcases hevery.service matcher path method with ⟨hnone, -⟩ | ⟨found, hfound, hP⟩
  · rw [hselect] at hnone
    cases hnone
  · rw [hselect] at hfound
    obtain rfl := Option.some.inj hfound
    rcases hP with hP | ⟨hnot, -⟩
    · exact hP method h rfl hmem
    · exact absurd hprovides hnot

/-- The middleware that is to make up the user runs outside of the layer with DEV_USER_ID, finds
none, and lets the request through without a user. -/
theorem respond_dev (serve : RouteHandler → Incoming → Action HandlerResult)
    {uid : String} (req : Incoming) (hauth : state.app.auth = none)
    (huid : state.devUserId = some uid) (hdb : state.db = .connected) {matcher : Matcher}
    {pattern : String} {h : RouteHandler} (hfresh : req.Fresh)
    (hmem : (pattern, req.method, h) ∈ notesHandlers)
    (hselect : matcher.select (buildRouter serve state).patterns req.path = some pattern) :
    ∃ seen : Incoming, seen.extensions.user = none ∧
      respond serve state matcher req = h.service serve seen := by
  rw [patterns_buildRouter] at hselect
  have hservice := routesOf_dev serve hauth huid hdb hmem hselect
  refine ⟨{ stripPrefix "/notes" req with extensions := { req.extensions with
    devUserId := state.devUserId, bodyLimit := some (128 * 1024) } }, ?_, ?_⟩
  · rw [hfresh]
  · unfold respond
    rw [service_buildRouter, hservice]
    have hnone : (stripPrefix "/notes" req).extensions.devUserId = none := by
      change req.extensions.devUserId = none
      rw [hfresh]
    unfold around devWrapped devUserMiddleware
    rw [hauth]
    dsimp only
    rw [hnone]
    rfl

/-- A handler that tells whether its request has a user. -/
def telling : RouteHandler → Incoming → Action HandlerResult := fun _ req =>
  pure (.answered (if req.extensions.user.isSome then 200 else 401) "")

/-- The first of the patterns, for any path. -/
def choosing (pattern : String) : Matcher where
  select patterns _ := patterns.find? fun p => p = pattern
  among h := List.mem_of_find?_eq_some h

/-- Handlers that tell whether they are given a user show that they are not. -/
theorem not_devUserSeen {uid : String} (hauth : state.app.auth = none)
    (huid : state.devUserId = some uid) (hdb : state.db = .connected) : ¬ state.DevUserSeen := by
  intro hdev
  let req : Incoming := ⟨"GET", "/notes", .none, ⟨none, none, false, none, none, none⟩⟩
  have hselect : ∀ serve, (choosing "/notes").select (buildRouter serve state).patterns req.path
      = some "/notes" := by
    intro serve
    have hprovides := routesOf_provides_notes serve hauth huid hdb
      (by decide : ("/notes", "GET", RouteHandler.listNotes) ∈ notesHandlers)
    rw [patterns_buildRouter]
    change (routesOf serve state).patterns.find? _ = _
    cases hfind : (routesOf serve state).patterns.find? fun p => p = "/notes" with
    | none => simpa using List.find?_eq_none.mp hfind "/notes" hprovides.1
    | some p =>
        have hp := List.find?_some hfind
        rw [of_decide_eq_true hp]
  obtain ⟨seen, huser, hseen⟩ := hdev uid hauth huid hdb (choosing "/notes") "/notes" .listNotes req
    rfl (by decide) hselect
  obtain ⟨unseen, hnone, hunseen⟩ := respond_dev telling req hauth huid hdb rfl
    (by decide : ("/notes", "GET", RouteHandler.listNotes) ∈ notesHandlers) (hselect telling)
  have hsame := congrArg (fun p => ((World.initial 0 []).perform p).1.status)
    (hunseen.symm.trans (hseen telling))
  simp [RouteHandler.service, telling, huser, hnone] at hsame

end Layers

/-- Every middleware finds what it reads exactly in the configurations without a DEV_USER_ID that
would be used: with authentication, without that variable, or without a database. -/
theorem extensions_seen_iff (state : RouterState) :
    state.DevUserSeen ∧ state.AuthSeen ∧ state.FlagsSeen ↔
      state.app.auth ≠ none ∨ state.devUserId = none ∨ state.db ≠ .connected := by
  constructor
  · rintro ⟨hdev, -, -⟩
    by_contra hnot
    push Not at hnot
    obtain ⟨hauth, hid, hdb⟩ := hnot
    obtain ⟨uid, huid⟩ := Option.ne_none_iff_exists'.mp hid
    exact not_devUserSeen hauth huid hdb hdev
  · intro h
    refine ⟨fun uid hauth huid hdb => ?_, state.authSeen, state.flagsSeen⟩
    rcases h with h | h | h
    · exact absurd hauth h
    · rw [huid] at h
      cases h
    · exact absurd hdb h

namespace Sample

/-- DEV_USER_ID is set, and authentication is not configured. -/
def developing : RouterState where
  app := ⟨none, true, none, 10⟩
  featureFlags := ⟨false⟩
  db := .connected
  storage := false
  devUserId := some "11111111-1111-1111-1111-111111111111"

end Sample

open Sample

/-- The handler of GET /notes has a request without a user. -/
theorem dev_user_unseen : ¬ developing.DevUserSeen ∧
    ((World.initial 0 []).perform (respond telling developing literally (incoming "GET" "/notes"))).1
      = ⟨401, "", [.listNotes]⟩ := by
  refine ⟨not_devUserSeen rfl rfl rfl, ?_⟩
  decide +kernel

end FullStackHex
