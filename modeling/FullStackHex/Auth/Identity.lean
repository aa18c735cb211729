import FullStackHex.Auth.Failures
import FullStackHex.Auth.Cookies

/-!
Whose identity the tokens and the session of a sign-in carry. `register` takes it from the body
of the request, `login` and `refresh` from the row of the user, and `oauth_callback` from the
provider, whose answer an upsert merges into a row that may belong to another provider.
-/

namespace FullStackHex

open Concurrent Expiring AuthCookies

def User.info (row : User) : UserInfo := ⟨row.id, row.email, row.name, row.provider⟩

def Claims.info (claims : Claims) : UserInfo :=
  ⟨claims.sub, claims.email, claims.name, claims.provider⟩

def Session.info (session : Session) : UserInfo :=
  ⟨session.userId, session.email, session.name, session.provider⟩

/-! ## Sessions that a program opens -/

/-- The command leaves the sessions alone, opens one with such an identity, or ends some. -/
def Cmd.OpensOnly (identity : UserInfo → Prop) : Cmd → Prop
  | .sessionCreate session _ => identity session.info
  | .sessionExpire _ _ => False
  | _ => True

/-- The command leaves the sessions alone. -/
def Cmd.KeepsSessions : Cmd → Prop
  | .sessionCreate _ _ | .sessionDestroy _ | .sessionExpire _ _ | .delSessions _ => False
  | _ => True

/-- The command writes neither a session nor a table. -/
def Cmd.Quiet (c : Cmd) : Prop := c.KeepsSessions ∧ ¬ World.WritesTable c

theorem Cmd.Counting.quiet {c : Cmd} (h : c.Counting) : c.Quiet := by
  cases c with
  | now | rateLimit | backoffRead | backoffIncrement => exact ⟨trivial, id⟩
  | _ => cases h

section Sessions

variable {δ α : Type} {s : Script} {p : Progress} {identity : UserInfo → Prop}

theorem attempt_sessions {q : ExceptT δ Action α} (hq : q.run.All (Cmd.OpensOnly identity))
    {id : String} {t : Timed Session} (h : (attempt s q p).2.world.sessions id = some t) :
    p.world.sessions id = some t ∨ identity t.value.info := by
  suffices hkept : ∀ id t, (attempt s q p).2.world.sessions id = some t →
      p.world.sessions id = some t ∨ identity t.value.info from hkept id t h
  refine attempt_keeps (P := fun w => ∀ id t, w.sessions id = some t →
    p.world.sessions id = some t ∨ identity t.value.info) (fun e k w now hk _ hw id t hid => ?_) hq
    fun _ _ => Or.inl
  revert hid
  generalize hafter : (World.exec e k (w.atTime now)).2 = w'
  have heffect := World.exec_effect e k (w.atTime now)
  rw [hafter] at heffect
  cases heffect with
  | same h =>
      rw [h.sessions]
      exact hw id t
  | create session ttl d hd =>
      intro hid
      rcases Store.set_eq_some.mp hid with ⟨-, rfl⟩ | ⟨-, hbefore⟩
      · exact Or.inr hk
      · exact hw id t hbefore
  | destroy => exact fun hid => hw id t (Store.del_eq_some.mp hid).2
  | expireNow | extend => cases hk
  | delSessions => exact fun hid => hw id t (Store.foldl_del_eq_some.mp hid).2
  | _ => exact hw id t

theorem attempt_sameSessions {q : ExceptT δ Action α} (hq : q.run.All Cmd.KeepsSessions) :
    (attempt s q p).2.world.sessions = p.world.sessions := by
  refine attempt_keeps (P := fun w => w.sessions = p.world.sessions)
    (fun e k w t hk _ hw => ?_) hq rfl
  have heffect := World.exec_effect e k (w.atTime t)
  revert heffect
  generalize (World.exec e k (w.atTime t)).2 = w'
  intro heffect
  cases heffect with
  | same h => exact h.sessions.trans hw
  | create | destroy | expireNow | extend | delSessions => cases hk
  | _ => exact hw

/-- Quiet commands write neither a session nor a table. -/
theorem quiet_kept {q : ExceptT δ Action α} (hq : q.run.All Cmd.Quiet) {r : Except δ α}
    {p' : Progress} (h : attempt s q p = (r, p')) :
    p'.world.users = p.world.users ∧ p'.world.sessions = p.world.sessions := by
  obtain rfl : p' = (attempt s q p).2 := by rw [h]
  exact ⟨(attempt_tables (hq.mono fun _ => And.right)).users,
    attempt_sameSessions (hq.mono fun _ => And.left)⟩

end Sessions

/-! ## Tokens and sessions that are issued -/

section Parts

variable {auth : AuthService} {s : Script} {p p' : Progress}

theorem createToken_ok {userId : Uuid} {email : String} {name : Option String}
    {provider token : String}
    (h : attempt s (createToken auth userId email name provider) p = (.ok token, p')) :
    ∃ now jti, auth.encode (newClaims auth now userId email name provider jti) = .ok token := by
  obtain ⟨now, p₁, -, h⟩ := attempt_bind_eq_ok h
  obtain ⟨jti, p₂, -, h⟩ := attempt_bind_eq_ok h
  refine ⟨now, jti, ?_⟩
  cases hencode : auth.encode (newClaims auth now userId email name provider jti) with
  | error err =>
      rw [hencode] at h
      cases (Prod.mk.inj h).1
  | ok token' =>
      rw [hencode] at h
      obtain rfl := Except.ok.inj (Prod.mk.inj h).1
      rfl

/-- A refresh token that was stored. -/
theorem refreshStored {userId : Uuid} {ttl : UInt64} {token : String}
    (h : attempt s (orFail (cacheSetFresh .refresh userId ttl)) p = (.ok token, p')) :
    ∃ d, p'.world.cached .refresh token = some ⟨userId, d⟩ := by
  have hstep : attempt s (orFail (cacheSetFresh .refresh userId ttl)) p
      = ((s.exec (.setFresh .refresh userId ttl.toNat) p).1.mapError CacheError.toApi,
        (s.exec (.setFresh .refresh userId ttl.toNat) p).2) := rfl
  rw [hstep] at h
  obtain ⟨hreply, rfl⟩ := Prod.mk.inj h
  unfold Script.exec at hreply ⊢
  simp only [World.exec] at hreply ⊢
  cases hfault : (s.choice p.issued).fault with
  | refused message | lost message =>
      rw [hfault] at hreply
      cases hreply
  | none =>
      rw [hfault, World.answer_none] at hreply
      rw [World.answer_none]
      unfold World.set at hreply ⊢
      split at hreply
      · cases hreply
      · rename_i d hd
        obtain rfl := Except.ok.inj hreply
        refine ⟨some d, ?_⟩
        change (World.setCached _ _ _).cached .refresh (s.choice p.issued).token = _
        rw [World.setCached_self, Store.set_self]

/-- A session that was created. -/
theorem openSession_ok {user : UserInfo} {id : String}
    (h : attempt s (openSession auth user) p = (.ok id, p')) :
    ∃ t, p'.world.sessions id = some t ∧ t.value.info = user := by
  obtain ⟨now, p₁, -, h⟩ := attempt_bind_eq_ok h
  obtain ⟨session, hinfo, h⟩ : ∃ session : Session, session.info = user ∧
      attempt s (orFail (sessionCreate session auth.config.jwtExpiry)) p₁ = (.ok id, p') :=
    ⟨⟨user.id, user.email, user.name, user.provider, now / 1000⟩, rfl, h⟩
  have hstep : attempt s (orFail (sessionCreate session auth.config.jwtExpiry)) p₁
      = ((s.exec (.sessionCreate session auth.config.jwtExpiry.toNat) p₁).1.mapError
          CacheError.toApi,
        (s.exec (.sessionCreate session auth.config.jwtExpiry.toNat) p₁).2) := rfl
  rw [hstep] at h
  obtain ⟨hreply, rfl⟩ := Prod.mk.inj h
  unfold Script.exec at hreply ⊢
  simp only [World.exec] at hreply ⊢
  cases hfault : (s.choice p₁.issued).fault with
  | refused message | lost message =>
      rw [hfault] at hreply
      cases hreply
  | none =>
      rw [hfault, World.answer_none] at hreply
      rw [World.answer_none]
      unfold World.sessionCreate at hreply ⊢
      split at hreply
      · cases hreply
      · rename_i d hd
        obtain rfl := Except.ok.inj hreply
        exact ⟨⟨session, some d⟩, Store.set_self _ _ _, hinfo⟩

/-- The cookie of the session among those of a callback. -/
theorem setAuthCookies_session {cookies cookies' : List String}
    {access refresh id csrf : String} {jwtExpiry refreshExpiry : UInt64} {secure : Bool}
    (h : attempt s (setAuthCookies cookies access refresh (some id) jwtExpiry refreshExpiry secure) p
      = (.ok (csrf, cookies'), p')) :
    cookieText "session" id jwtExpiry true secure ∈ cookies' := by
  obtain ⟨_, p₁, -, h⟩ := attempt_bind_eq_ok h
  obtain ⟨_, p₂, -, h⟩ := attempt_bind_eq_ok h
  obtain ⟨_, p₃, -, h⟩ := attempt_bind_eq_ok h
  obtain ⟨_, p₄, -, h⟩ := attempt_bind_eq_ok h
  obtain ⟨last, p₅, hlast, h⟩ := attempt_bind_eq_ok h
  obtain ⟨hset, -⟩ := Prod.mk.inj hlast
  obtain ⟨-, rfl⟩ := Prod.mk.inj (Except.ok.inj (Prod.mk.inj h).1)
  rw [setCookie_eq hset]
  exact List.mem_append_right _ (List.mem_singleton_self _)

end Parts

/-! The commands of these parts. -/

/-- Commands that read the clock and draw. -/
def Cmd.Draws : Cmd → Prop
  | .now | .draw => True
  | _ => False

/-- Commands that issue tokens and sessions to one user. -/
def Cmd.IssuesTo (user : UserInfo) : Cmd → Prop
  | .sessionCreate session _ => session.info = user
  | .now | .draw | .setFresh _ _ _ => True
  | _ => False

theorem Cmd.Draws.keepsSessions {c : Cmd} (h : c.Draws) : c.KeepsSessions := by
  cases c with
  | now | draw => trivial
  | _ => cases h

theorem Cmd.Draws.cacheless {c : Cmd} (h : c.Draws) : ¬ World.WritesCached c := by
  cases c with
  | now | draw => exact id
  | _ => cases h

theorem Cmd.Draws.issuesTo {user : UserInfo} {c : Cmd} (h : c.Draws) : c.IssuesTo user := by
  cases c with
  | now | draw => trivial
  | _ => cases h

theorem Cmd.IssuesTo.opensOnly {user : UserInfo} {c : Cmd} (h : c.IssuesTo user) :
    c.OpensOnly (· = user) := by
  cases c with
  | sessionCreate | sessionExpire => exact h
  | _ => trivial

theorem Cmd.IssuesTo.tableless {user : UserInfo} {c : Cmd} (h : c.IssuesTo user) :
    ¬ World.WritesTable c := by
  cases c with
  | sessionCreate | now | draw | setFresh => exact id
  | _ => cases h

theorem draws_createToken (auth : AuthService) (userId : Uuid) (email : String)
    (name : Option String) (provider : String) :
    (createToken auth userId email name provider).run.All Cmd.Draws := by
  refine Program.All.bindExcept (Program.All.lift ⟨trivial, fun _ => trivial⟩) fun now => ?_
  refine Program.All.bindExcept (Program.All.lift ⟨trivial, fun _ => trivial⟩) fun jti => ?_
  split <;> trivial

theorem draws_setAuthCookies (cookies : List String) (access refresh : String)
    (sessionId : Option String) (jwtExpiry refreshExpiry : UInt64) (secure : Bool) :
    (setAuthCookies cookies access refresh sessionId jwtExpiry refreshExpiry secure).run.All
      Cmd.Draws := by
  refine ⟨trivial, fun csrf => ?_⟩
  refine Program.All.bindExcept trivial fun cookies => ?_
  refine Program.All.bindExcept trivial fun cookies => ?_
  refine Program.All.bindExcept trivial fun cookies => ?_
  cases sessionId with
  | none => trivial
  | some id => exact Program.All.bindExcept trivial fun cookies => trivial

theorem issuesTo_openSession (auth : AuthService) (user : UserInfo) :
    (openSession auth user).run.All (Cmd.IssuesTo user) :=
  ⟨trivial, fun _ => Program.All.adapt ⟨rfl, fun _ => trivial⟩⟩

theorem cacheless_openSession (auth : AuthService) (user : UserInfo) :
    (openSession auth user).run.All fun c => ¬ World.WritesCached c :=
  ⟨id, fun _ => Program.All.adapt ⟨id, fun _ => trivial⟩⟩

/-! The rest of each handler, once it knows the user. -/

/-- What `refresh` does once it has the row of the user. -/
def reissue (auth : AuthService) (user : UserInfo) : Handler := do
  let accessToken ← (createToken auth user.id user.email user.name user.provider).adapt
    fun _ => .internalError "Failed to create token"
  let refreshToken ← orFail (cacheSetFresh .refresh user.id auth.config.refreshExpiry)
  let (csrfToken, cookies) ← setAuthCookies [] accessToken refreshToken none
    auth.config.jwtExpiry auth.config.refreshExpiry auth.config.cookieSecure
  return ⟨200, cookies, .tokens (tokenResponse auth accessToken refreshToken csrfToken user)⟩

/-- What `oauth_callback` does once it has the id of the row. -/
def answerCallback (auth : AuthService) (user : UserInfo) : Handler := do
  let accessToken ← createToken auth user.id user.email user.name user.provider
  let refreshToken ← orFail (cacheSetFresh .refresh user.id auth.config.refreshExpiry)
  let sessionId ← openSession auth user
  let (csrfToken, cookies) ← setAuthCookies [] accessToken refreshToken (some sessionId)
    auth.config.jwtExpiry auth.config.refreshExpiry auth.config.cookieSecure
  return ⟨200, cookies, .tokens (tokenResponse auth accessToken refreshToken csrfToken user)⟩

/-- Between `p` and `p'` tokens have been issued to `user`, and a session if `opens` holds. -/
structure IssuedTo (auth : AuthService) (user : UserInfo) (opens : Prop) (response : Response)
    (p p' : Progress) : Prop where
  users : p'.world.users = p.world.users
  sessions : ∀ id t, p'.world.sessions id = some t →
    p.world.sessions id = some t ∨ t.value.info = user
  tokens : ∃ tokens now jti d, response.body = .tokens tokens ∧
    auth.encode (newClaims auth now user.id user.email user.name user.provider jti)
      = .ok tokens.accessToken ∧
    p'.world.cached .refresh tokens.refreshToken = some ⟨user.id, d⟩
  opened : opens → ∃ id t, p'.world.sessions id = some t ∧ t.value.info = user ∧
    cookieText "session" id auth.config.jwtExpiry true auth.config.cookieSecure
      ∈ response.setCookies

section Issue

variable {auth : AuthService} {s : Script} {user : UserInfo} {status : Nat}
  {response : Response} {p p' : Progress}

theorem issuesTo_signIn : (signIn auth status user).run.All (Cmd.IssuesTo user) := by
  refine Program.All.bindExcept ((draws_createToken auth _ _ _ _).mono fun _ =>
    Cmd.Draws.issuesTo) fun access => ?_
  refine Program.All.bindExcept (Program.All.adapt ⟨trivial, fun _ => trivial⟩) fun refresh => ?_
  refine Program.All.bindExcept ((draws_setAuthCookies _ _ _ _ _ _ _).mono fun _ =>
    Cmd.Draws.issuesTo) fun cookies => ?_
  refine Program.All.bindExcept (issuesTo_openSession auth user) fun id => ?_
  exact Program.All.bindExcept trivial fun cookies => trivial

theorem issuesTo_reissue : (reissue auth user).run.All (Cmd.IssuesTo user) := by
  refine Program.All.bindExcept (Program.All.adapt ((draws_createToken auth _ _ _ _).mono fun _ =>
    Cmd.Draws.issuesTo)) fun access => ?_
  refine Program.All.bindExcept (Program.All.adapt ⟨trivial, fun _ => trivial⟩) fun refresh => ?_
  exact Program.All.bindExcept ((draws_setAuthCookies _ _ _ _ _ _ _).mono fun _ =>
    Cmd.Draws.issuesTo) fun cookies => trivial

theorem issuesTo_answerCallback : (answerCallback auth user).run.All (Cmd.IssuesTo user) := by
  refine Program.All.bindExcept ((draws_createToken auth _ _ _ _).mono fun _ =>
    Cmd.Draws.issuesTo) fun access => ?_
  refine Program.All.bindExcept (Program.All.adapt ⟨trivial, fun _ => trivial⟩) fun refresh => ?_
  refine Program.All.bindExcept (issuesTo_openSession auth user) fun id => ?_
  exact Program.All.bindExcept ((draws_setAuthCookies _ _ _ _ _ _ _).mono fun _ =>
    Cmd.Draws.issuesTo) fun cookies => trivial

/-- What follows from the commands alone. -/
theorem IssuedTo.of_commands {q : Handler} {opens : Prop} (hq : q.run.All (Cmd.IssuesTo user))
    (h : attempt s q p = (.ok response, p'))
    (htokens : ∃ tokens now jti d, response.body = .tokens tokens ∧
      auth.encode (newClaims auth now user.id user.email user.name user.provider jti)
        = .ok tokens.accessToken ∧
      p'.world.cached .refresh tokens.refreshToken = some ⟨user.id, d⟩)
    (hopened : opens → ∃ id t, p'.world.sessions id = some t ∧ t.value.info = user ∧
      cookieText "session" id auth.config.jwtExpiry true auth.config.cookieSecure
        ∈ response.setCookies) :
    IssuedTo auth user opens response p p' := by
  obtain rfl : p' = (attempt s q p).2 := by rw [h]
  exact ⟨(attempt_tables (hq.mono fun _ => Cmd.IssuesTo.tableless)).users,
    fun id t => attempt_sessions (hq.mono fun _ => Cmd.IssuesTo.opensOnly), htokens, hopened⟩

/-- A refresh token outlives what follows it. -/
theorem refresh_kept {α : Type} {q : ExceptT ApiError Action α}
    (hq : q.run.All fun c => ¬ World.WritesCached c) {a : α} (h : attempt s q p = (.ok a, p'))
    {token : String} {t : Timed Uuid} (hstored : p.world.cached .refresh token = some t) :
    p'.world.cached .refresh token = some t := by
  have hkept := attempt_cached (s := s) (p := p) hq
  rw [h] at hkept
  rwa [hkept]

theorem signIn_issued (h : attempt s (signIn auth status user) p = (.ok response, p')) :
    IssuedTo auth user True response p p' := by
  obtain ⟨access, p₁, haccess, htail⟩ := attempt_bind_eq_ok h
  obtain ⟨refresh, p₂, hrefresh, htail⟩ := attempt_bind_eq_ok htail
  obtain ⟨⟨csrf, cookies⟩, p₃, hcookies, htail⟩ := attempt_bind_eq_ok htail
  obtain ⟨id, p₄, hopen, htail⟩ := attempt_bind_eq_ok htail
  obtain ⟨cookies', p₅, hcookie, htail⟩ := attempt_bind_eq_ok htail
  obtain ⟨hset, rfl⟩ := Prod.mk.inj hcookie
  obtain ⟨hresponse, rfl⟩ := Prod.mk.inj htail
  obtain rfl := Except.ok.inj hresponse
  obtain ⟨now, jti, hencode⟩ := createToken_ok haccess
  obtain ⟨d, hstored⟩ := refreshStored hrefresh
  obtain ⟨t, ht, hinfo⟩ := openSession_ok hopen
  refine .of_commands issuesTo_signIn h ⟨_, now, jti, d, rfl, hencode, ?_⟩
    fun _ => ⟨id, t, ht, hinfo, ?_⟩
  · have hafter := refresh_kept
      ((draws_setAuthCookies _ _ _ _ _ _ _).mono fun _ => Cmd.Draws.cacheless) hcookies hstored
    exact refresh_kept (cacheless_openSession auth user) hopen hafter
  · rw [setCookie_eq hset]
    exact List.mem_append_right _ (List.mem_singleton_self _)

theorem reissue_issued (h : attempt s (reissue auth user) p = (.ok response, p')) :
    IssuedTo auth user False response p p' := by
  obtain ⟨access, p₁, haccess, htail⟩ := attempt_bind_eq_ok h
  obtain ⟨refresh, p₂, hrefresh, htail⟩ := attempt_bind_eq_ok htail
  obtain ⟨⟨csrf, cookies⟩, p₃, hcookies, htail⟩ := attempt_bind_eq_ok htail
  obtain ⟨hresponse, rfl⟩ := Prod.mk.inj htail
  obtain rfl := Except.ok.inj hresponse
  obtain ⟨now, jti, hencode⟩ : ∃ now jti, auth.encode (newClaims auth now user.id user.email
      user.name user.provider jti) = .ok access := by
    rw [attempt_adapt] at haccess
    obtain ⟨hreply, -⟩ := Prod.mk.inj haccess
    refine createToken_ok (s := s) (p := p) (Prod.ext ?_ rfl)
    cases hcreated : (attempt s (createToken auth user.id user.email user.name
      user.provider) p).1 with
    | error err =>
        rw [hcreated] at hreply
        cases hreply
    | ok token =>
        rw [hcreated] at hreply
        exact hreply
  obtain ⟨d, hstored⟩ := refreshStored hrefresh
  exact .of_commands issuesTo_reissue h ⟨_, now, jti, d, rfl, hencode, refresh_kept
    ((draws_setAuthCookies _ _ _ _ _ _ _).mono fun _ => Cmd.Draws.cacheless) hcookies hstored⟩
    False.elim

theorem answerCallback_issued (h : attempt s (answerCallback auth user) p = (.ok response, p')) :
    IssuedTo auth user True response p p' := by
  obtain ⟨access, p₁, haccess, htail⟩ := attempt_bind_eq_ok h
  obtain ⟨refresh, p₂, hrefresh, htail⟩ := attempt_bind_eq_ok htail
  obtain ⟨id, p₃, hopen, htail⟩ := attempt_bind_eq_ok htail
  obtain ⟨⟨csrf, cookies⟩, p₄, hcookies, htail⟩ := attempt_bind_eq_ok htail
  obtain ⟨hresponse, rfl⟩ := Prod.mk.inj htail
  obtain rfl := Except.ok.inj hresponse
  obtain ⟨now, jti, hencode⟩ := createToken_ok haccess
  obtain ⟨d, hstored⟩ := refreshStored hrefresh
  obtain ⟨t, ht, hinfo⟩ := openSession_ok hopen
  have hdraws := draws_setAuthCookies [] access refresh (some id) auth.config.jwtExpiry
    auth.config.refreshExpiry auth.config.cookieSecure
  refine .of_commands issuesTo_answerCallback h ⟨_, now, jti, d, rfl, hencode, ?_⟩
    fun _ => ⟨id, t, ?_, hinfo, setAuthCookies_session hcookies⟩
  · have hafter := refresh_kept (cacheless_openSession auth user) hopen hstored
    exact refresh_kept (hdraws.mono fun _ => Cmd.Draws.cacheless) hcookies hafter
  · have hsame := attempt_sameSessions (s := s) (p := p₃) (hdraws.mono fun _ => Cmd.Draws.keepsSessions)
    rw [hcookies] at hsame
    rwa [hsame]

end Issue

/-! ## The row of the user -/

namespace World

variable {w : World}

theorem find?_of_mem {κ : Type} [DecidableEq κ] {key : User → κ} {users : List User}
    (hw : (users.map key).Nodup) {row : User} (h : row ∈ users) :
    users.find? (fun user => key user = key row) = some row := by
  cases hfind : users.find? fun user => key user = key row with
  | none =>
      have hother := List.find?_eq_none.mp hfind row h
      rw [decide_eq_true rfl] at hother
      exact absurd rfl hother
  | some other =>
      have hkey : key other = key row := by simpa using List.find?_some hfind
      exact congrArg some
        (List.inj_on_of_nodup_map hw (List.mem_of_find?_eq_some hfind) h hkey)

theorem userById_of_mem (hw : Distinct w.users) {row : User} (h : row ∈ w.users) :
    w.userById row.id = some row := find?_of_mem hw.ids h

theorem userByEmail_of_mem (hw : Distinct w.users) {row : User} (h : row ∈ w.users) :
    w.userByEmail row.email = some row := find?_of_mem hw.emails h

/-- A row that was inserted is found. -/
theorem addUser_found {user : User} {id : Uuid} (h : (w.addUser user).1 = .ok id) :
    (w.addUser user).2.userById id = some user := by
  obtain ⟨rfl, -, hafter⟩ := addUser_ok h
  have hfree : w.userById user.id = none := by
    unfold addUser at h
    split_ifs at h with hfits htaken
    simp only [Bool.or_eq_true, not_or, Bool.not_eq_true, Option.isSome_eq_false_iff,
      Option.isNone_iff_eq_none] at htaken
    exact htaken.1
  unfold userById at hfree ⊢
  rw [hafter, List.find?_append, hfree]
  simp

/-- The row after an upsert: an old one keeps its provider. -/
theorem upsertUser_found (hw : Distinct w.users) {user : User} {id : Uuid}
    (h : (w.upsertUser user).1 = .ok id) :
    ∃ row, (w.upsertUser user).2.userById id = some row ∧ row.id = id ∧
      row.email = user.email ∧ row.name = user.name ∧
      row.provider = (w.userByEmail user.email).elim user.provider User.provider := by
  unfold upsertUser at h ⊢
  cases hrow : w.userByEmail user.email with
  | none =>
      rw [hrow] at h
      exact ⟨user, addUser_found h, (addUser_ok h).1.symm, rfl, rfl, rfl⟩
  | some row =>
      simp only [hrow] at h ⊢
      split_ifs at h ⊢ with hfits
      obtain rfl := Except.ok.inj h
      have hemail : row.email = user.email := by simpa using List.find?_some hrow
      have hfound := userById_of_mem hw (List.mem_of_find?_eq_some hrow)
      unfold userById at hfound
      refine ⟨{ row with name := user.name }, ?_, rfl, hemail, rfl, rfl⟩
      unfold userById
      dsimp only
      rw [List.find?_map]
      have hsame : ((fun other : User => decide (other.id = row.id)) ∘ fun other =>
          if other.email = user.email then { other with name := user.name } else other)
          = fun other => decide (other.id = row.id) := by
        funext other
        dsimp only [Function.comp_apply]
        split_ifs <;> rfl
      rw [hsame, hfound, Option.map_some, if_pos hemail]

end World

/-! ## The handlers before they issue anything -/

section Before

variable {auth : AuthService} {s : Script} {w : World} {response : Response} {p : Progress}

theorem mapError_eq_ok {δ ε α : Type} {x : Except δ α} {f : δ → ε} {a : α}
    (h : x.mapError f = .ok a) : x = .ok a := by
  cases x with
  | error err => cases h
  | ok b => exact congrArg Except.ok (Except.ok.inj h)

theorem quiet_selectByEmail (message email : String) :
    (queryOr message (ask (.selectUserByEmail email))).run.All Cmd.Quiet :=
  Program.All.adapt ⟨⟨trivial, id⟩, fun _ => trivial⟩

theorem quiet_selectById (message : String) (id : Uuid) :
    (queryOr message (ask (.selectUserById id))).run.All Cmd.Quiet :=
  Program.All.adapt ⟨⟨trivial, fun h => h⟩, fun _ => trivial⟩

theorem quiet_rotate (token : String) : (orFail (refreshTokenRotate token)).run.All Cmd.Quiet :=
  Program.All.adapt ⟨⟨trivial, id⟩, fun _ => trivial⟩

theorem selectByEmail_ok {message email : String} {found : Option User} {p' : Progress}
    (h : attempt s (queryOr message (ask (.selectUserByEmail email))) p = (.ok found, p')) :
    found = p.world.userByEmail email := by
  have hreply := (World.answerDb_ok (mapError_eq_ok (Prod.mk.inj h).1)).2
  unfold World.selectUserByEmail at hreply
  split_ifs at hreply
  exact (Except.ok.inj hreply).symm

theorem selectById_ok {message : String} {id : Uuid} {found : Option User} {p' : Progress}
    (h : attempt s (queryOr message (ask (.selectUserById id))) p = (.ok found, p')) :
    found = p.world.userById id := by
  have hreply := (World.answerDb_ok (mapError_eq_ok (Prod.mk.inj h).1)).2
  exact (Except.ok.inj hreply).symm

theorem upsert_ok {message email provider : String} {name : Option String} {id : Uuid}
    {p' : Progress} (hw : World.Distinct p.world.users)
    (h : attempt s (queryOr message (ask (.upsertUser email name provider))) p = (.ok id, p')) :
    ∃ row, p'.world.userById id = some row ∧ row.id = id ∧ row.email = email ∧ row.name = name ∧
      row.provider = (p.world.userByEmail email).elim provider User.provider := by
  obtain ⟨hreply, rfl⟩ := Prod.mk.inj h
  obtain ⟨hfault, hadded⟩ := World.answerDb_ok (mapError_eq_ok hreply)
  have hafter : (s.exec (.upsertUser email name provider) p).2.world
      = ((s.found p).upsertUser ⟨(s.choice p.issued).id, email, name, provider, none⟩).2 := by
    change (World.answerDb _ (s.choice p.issued).fault _).2 = _
    rw [hfault, World.answerDb_none]
  change ∃ row, (s.exec (.upsertUser email name provider) p).2.world.userById id = some row ∧ _
  rw [hafter]
  exact World.upsertUser_found (w := s.found p) hw hadded

/-- What `oauth_callback` does before the upsert: the provider of the request, and the email and
the name that the provider answers with. -/
def beforeUpsert (auth : AuthService) (headers : Headers) (ip provider : String)
    (query : OAuthCallbackQuery) :
    ExceptT ApiError Action (OAuthProvider × String × Option String) := do
  let provider ← parseProvider provider
  checkRateLimit ("oauth_callback:" ++ ip) auth.config.rateLimits.oauthCallbackWindowSecs
    auth.config.rateLimits.oauthCallbackMax
  match ← orFail (cacheGetDelete .oauthCsrf query.state) with
  | none => throw (.unauthorized "Invalid or expired OAuth state")
  | some text =>
      let stored ← (readStored text).mapError CacheError.toApi
      let stored ← parseStoredOAuthState stored
      validateOAuthStateMatch stored provider.display (headers.findCookie "session")
      match ← ExceptT.lift (ask (.exchangeCode provider.display query.code)) with
      | none => throw (.unauthorized "OAuth authentication failed")
      | some (email, name) => return (provider, email, name)

theorem oauthCallback_eq {headers : Headers} {ip provider : String} {query : OAuthCallbackQuery} :
    oauthCallback auth headers ip provider query
      = (beforeUpsert auth headers ip provider query >>= fun asked =>
          queryOr serverError (ask (.upsertUser asked.2.1 asked.2.2 asked.1.display)) >>= fun id =>
            answerCallback auth ⟨id, asked.2.1, asked.2.2, asked.1.display⟩) := by
  unfold oauthCallback beforeUpsert answerCallback
  simp only [bind_assoc]
  congr 1
  funext asked
  congr 1
  funext _
  congr 1
  funext found
  cases found with
  | none => rfl
  | some text =>
      simp only [bind_assoc]
      congr 1
      funext _
      congr 1
      funext _
      congr 1
      funext _
      congr 1
      funext profile
      cases profile with
      | none => rfl
      | some claimed =>
          obtain ⟨email, name⟩ := claimed
          rfl

theorem quiet_beforeUpsert (headers : Headers) (ip provider : String)
    (query : OAuthCallbackQuery) :
    (beforeUpsert auth headers ip provider query).run.All Cmd.Quiet := by
  refine Program.All.bindExcept trivial fun asked => ?_
  refine Program.All.bindExcept ((counting_checkRateLimit _ _ _).mono fun _ =>
    Cmd.Counting.quiet) fun _ => ?_
  refine Program.All.bindExcept (Program.All.adapt ⟨⟨trivial, id⟩, fun _ => trivial⟩)
    fun found => ?_
  cases found with
  | none => trivial
  | some text =>
      refine Program.All.bindExcept trivial fun stored => ?_
      refine Program.All.bindExcept trivial fun state => ?_
      refine Program.All.bindExcept trivial fun _ => ?_
      refine Program.All.bindExcept (Program.All.lift ⟨⟨trivial, id⟩, fun _ => trivial⟩)
        fun profile => ?_
      cases profile with
      | none => trivial
      | some profile => trivial

/-- Tokens are issued to `user`, whose row is `row`; no session has been opened before. -/
structure Issues (auth : AuthService) (w : World) (opens : Prop) (response : Response)
    (p : Progress) (user : UserInfo) (row : User) : Prop where
  row : p.world.userById user.id = some row
  sessions : ∀ id t, p.world.sessions id = some t → w.sessions id = some t ∨ t.value.info = user
  tokens : ∃ tokens now jti d, response.body = .tokens tokens ∧
    auth.encode (newClaims auth now user.id user.email user.name user.provider jti)
      = .ok tokens.accessToken ∧
    p.world.cached .refresh tokens.refreshToken = some ⟨user.id, d⟩
  opened : opens → ∃ id t, p.world.sessions id = some t ∧ t.value.info = user ∧
    cookieText "session" id auth.config.jwtExpiry true auth.config.cookieSecure
      ∈ response.setCookies

theorem IssuedTo.issues {user : UserInfo} {row : User} {opens : Prop} {p₁ : Progress}
    (h : IssuedTo auth user opens response p₁ p) (hrow : p₁.world.userById user.id = some row)
    (hsessions : ∀ id t, p₁.world.sessions id = some t → w.sessions id = some t) :
    Issues auth w opens response p user row where
  row := by
    unfold World.userById at hrow ⊢
    rw [h.users, hrow]
  sessions id t ht := (h.sessions id t ht).imp_left (hsessions id t)
  tokens := h.tokens
  opened := h.opened

theorem quiet_beforeInsert (auth : AuthService) (ip : String) (body : RegisterRequest) :
    (beforeInsert auth ip body).run.All Cmd.Quiet := by
  refine Program.All.bindExcept ((counting_checkRateLimit _ _ _).mono fun _ =>
    Cmd.Counting.quiet) fun _ => ?_
  refine Program.All.bindExcept trivial fun _ => ?_
  refine Program.All.bindExcept (Program.All.adapt ⟨⟨trivial, id⟩, fun _ => trivial⟩)
    fun existing => ?_
  refine Program.All.bindExcept trivial fun _ => ?_
  refine Program.All.bindExcept (Program.All.lift ⟨⟨trivial, id⟩, fun _ => trivial⟩)
    fun salt => ?_
  split <;> trivial

/-- A failed login succeeds never. -/
theorem failLogin_fails {α : Type} (ip : String) {a : α} {p' : Progress} :
    attempt s (failLogin ip : ExceptT ApiError Action α) p ≠ (.ok a, p') := by
  intro h
  obtain ⟨_, _, -, h⟩ := attempt_bind_eq_ok h
  cases (Prod.mk.inj h).1

theorem register_issues {ip : String} {body : RegisterRequest}
    (h : attempt s (register auth ip body) (.start w) = (.ok response, p)) :
    ∃ row, Issues auth w True response p row.info row := by
  rw [register_eq] at h
  obtain ⟨hash, p₁, hbefore, h⟩ := attempt_bind_eq_ok h
  obtain ⟨userId, p₂, hinsert, h⟩ := attempt_bind_eq_ok h
  obtain ⟨hworld, hreply⟩ := attempt_insertRow s p₁ body hash
  have hok := (hreply userId).mp (congrArg Prod.fst hinsert)
  obtain ⟨hfault, hadded⟩ := World.answerDb_ok hok
  have hfound := World.addUser_found hadded
  obtain ⟨rfl, -, -⟩ := World.addUser_ok hadded
  have hafter : p₂.world = ((s.found p₁).addUser (s.newRow p₁ body hash)).2 := by
    rw [hinsert] at hworld
    rw [hworld]
    change (World.answerDb _ (s.choice p₁.issued).fault _).2 = _
    rw [hfault, World.answerDb_none]
    rfl
  refine ⟨s.newRow p₁ body hash, (signIn_issued h).issues ?_ fun id t ht => ?_⟩
  · rw [hafter]
    exact hfound
  · have hsecond : p₂.world.sessions = p₁.world.sessions := by
      rw [hafter]
      exact ((s.found p₁).addUser_same _).sessions
    obtain ⟨-, hfirst⟩ := quiet_kept (quiet_beforeInsert auth ip body) hbefore
    rwa [hsecond, hfirst] at ht

/-- The row that `login` has found by its email is the one that its id stands for. -/
theorem login_issues {ip : String} {body : LoginRequest} (hw : World.Distinct w.users)
    (h : attempt s (login auth ip body) (.start w) = (.ok response, p)) :
    ∃ row, Issues auth w True response p row.info row := by
  obtain ⟨_, p₁, hlimits, h⟩ := attempt_bind_eq_ok h
  obtain ⟨found, p₂, hselect, h⟩ := attempt_bind_eq_ok h
  obtain ⟨husers, hsessions⟩ := quiet_kept ((counting_checkLoginLimits auth ip body.email).mono
    fun _ => Cmd.Counting.quiet) hlimits
  obtain ⟨husers', hsessions'⟩ := quiet_kept (quiet_selectByEmail _ _) hselect
  match found, hselect, h with
  | none, _, h => exact absurd h (failLogin_fails ip)
  | some row, hselect, h =>
      have hmem : row ∈ p₂.world.users := by
        rw [husers']
        exact List.mem_of_find?_eq_some (selectByEmail_ok hselect).symm
      have hfound : p₂.world.userById row.id = some row :=
        World.userById_of_mem (by rwa [husers', husers]) hmem
      have hsame : ∀ id t, p₂.world.sessions id = some t → w.sessions id = some t := by
        intro id t ht
        rwa [hsessions', hsessions] at ht
      refine ⟨row, ?_⟩
      dsimp only at h
      split at h
      · exact absurd h (failLogin_fails ip)
      · split at h
        · cases (Prod.mk.inj h).1
        · exact absurd h (failLogin_fails ip)
        · have htail : attempt s (signIn auth 200 row.info) p₂ = (.ok response, p) := h
          exact (signIn_issued htail).issues hfound hsame

/-- A refresh, which opens no session. -/
theorem refresh_issues {headers : Headers} {body : Option String}
    (h : attempt s (refresh auth headers body) (.start w) = (.ok response, p)) :
    ∃ token userId row p₁, presentedRefreshToken headers body = some token ∧
      attempt s (orFail (refreshTokenRotate token)) (.start w) = (.ok (some userId), p₁) ∧
      p₁.world.userById userId = some row ∧ Issues auth w False response p row.info row := by
  unfold refresh at h
  split at h
  · cases (Prod.mk.inj h).1
  · rename_i token htoken
    obtain ⟨taken, p₁, hrotate, h⟩ := attempt_bind_eq_ok h
    obtain ⟨-, hsessions⟩ := quiet_kept (quiet_rotate token) hrotate
    match taken, hrotate, h with
    | none, _, h => cases (Prod.mk.inj h).1
    | some userId, hrotate, h =>
        obtain ⟨found, p₂, hselect, h⟩ := attempt_bind_eq_ok h
        obtain ⟨husers', hsessions'⟩ := quiet_kept (quiet_selectById _ _) hselect
        match found, hselect, h with
        | none, _, h => cases (Prod.mk.inj h).1
        | some row, hselect, h =>
            have hrow := (selectById_ok hselect).symm
            have hid : row.id = userId := by simpa using List.find?_some hrow
            have htail : attempt s (reissue auth row.info) p₂ = (.ok response, p) := h
            refine ⟨token, userId, row, p₁, htoken, hrotate, hrow,
              (reissue_issued htail).issues ?_ fun id t ht => ?_⟩
            · unfold World.userById at hrow ⊢
              rw [husers']
              subst hid
              exact hrow
            · rwa [hsessions', hsessions] at ht

/-- A callback: the row of the email keeps its provider. -/
theorem oauthCallback_issues {headers : Headers} {ip provider : String}
    {query : OAuthCallbackQuery} (hw : World.Distinct w.users)
    (h : attempt s (oauthCallback auth headers ip provider query) (.start w) = (.ok response, p)) :
    ∃ asked email name p₁ user row,
      attempt s (beforeUpsert auth headers ip provider query) (.start w)
        = (.ok (asked, email, name), p₁) ∧
      Issues auth w True response p user row ∧ user.provider = asked.display ∧
      row.info = { user with
        provider := (w.userByEmail email).elim user.provider User.provider } := by
  rw [oauthCallback_eq] at h
  obtain ⟨⟨asked, email, name⟩, p₁, hbefore, h⟩ := attempt_bind_eq_ok h
  obtain ⟨id, p₂, hupsert, h⟩ := attempt_bind_eq_ok h
  obtain ⟨husers, hsessions⟩ := quiet_kept (quiet_beforeUpsert headers ip provider query) hbefore
  obtain ⟨row, hrow, rfl, rfl, rfl, hprovider⟩ := upsert_ok (by rwa [husers]) hupsert
  have hsame := attempt_sameSessions (s := s) (p := p₁)
    (q := queryOr serverError (ask (.upsertUser row.email row.name asked.display)))
    (Program.All.adapt ⟨trivial, fun _ => trivial⟩)
  rw [hupsert] at hsame
  have hbyEmail : p₁.world.userByEmail row.email = w.userByEmail row.email := by
    unfold World.userByEmail
    rw [husers]
    rfl
  refine ⟨asked, row.email, row.name, p₁, _, row, hbefore,
    (answerCallback_issued h).issues hrow fun id t ht => ?_, rfl, ?_⟩
  · rwa [hsame, hsessions] at ht
  · rw [User.info, hprovider, hbyEmail]

end Before

/-! ## The identity that is issued -/

/-- The requests that issue tokens. -/
inductive Issuing where
  | register (ip : String) (body : RegisterRequest)
  | login (ip : String) (body : LoginRequest)
  | refresh (headers : Headers) (body : Option String)
  | oauthCallback (headers : Headers) (ip provider : String) (query : OAuthCallbackQuery)
  deriving DecidableEq, Repr

def Issuing.handler (auth : AuthService) : Issuing → Handler
  | .register ip body => FullStackHex.register auth ip body
  | .login ip body => FullStackHex.login auth ip body
  | .refresh headers body => FullStackHex.refresh auth headers body
  | .oauthCallback headers ip provider query =>
      FullStackHex.oauthCallback auth headers ip provider query

/-- All but `refresh` create a session. -/
def Issuing.OpensSession : Issuing → Prop
  | .refresh _ _ => False
  | _ => True

/-- A callback does not find the email that its provider answers with in a row of another
provider. -/
def Issuing.KeepsProvider (auth : AuthService) (s : Script) (w : World) : Issuing → Prop
  | .oauthCallback headers ip provider query => ∀ asked email name p,
      attempt s (beforeUpsert auth headers ip provider query) (.start w)
        = (.ok (asked, email, name), p) →
      ∀ row ∈ w.users, row.email = email → row.provider = asked.display
  | _ => True

/-- The tokens of an answer, and the claims of its JWT. -/
def Response.Carries (auth : AuthService) (response : Response) (tokens : TokenResponse)
    (claims : Claims) : Prop :=
  response.body = .tokens tokens ∧ auth.decode tokens.accessToken = .ok claims

/-- The request has issued what the row of the user says: in the JWT and in every session that it
has opened, of which there is one unless it was a refresh. A refresh with the new refresh token
issues the same again. -/
def IssuesRow (auth : AuthService) (request : Issuing) (w : World) (response : Response)
    (p : Progress) : Prop :=
  ∃ tokens claims row, response.Carries auth tokens claims ∧
    p.world.userById claims.sub = some row ∧ claims.info = row.info ∧
    (∀ id t, p.world.sessions id = some t →
      w.sessions id = some t ∨ t.value.info = row.info) ∧
    (request.OpensSession → ∃ id t, p.world.sessions id = some t ∧ t.value.info = row.info ∧
      cookieText "session" id auth.config.jwtExpiry true auth.config.cookieSecure
        ∈ response.setCookies) ∧
    ∀ s' headers body response' p',
      presentedRefreshToken headers body = some tokens.refreshToken →
      attempt s' (refresh auth headers body) (.start p.world) = (.ok response', p') →
      ∃ tokens' claims', response'.Carries auth tokens' claims' ∧ claims'.info = claims.info

section Issued

variable {auth : AuthService} {s : Script} {w : World} {response : Response} {p : Progress}

theorem rotate_ok {token : String} {userId : Uuid} {p' : Progress}
    (h : attempt s (orFail (refreshTokenRotate token)) p = (.ok (some userId), p')) :
    ∃ d, p.world.cached .refresh token = some ⟨userId, d⟩ := by
  have hget := Except.ok.inj (World.answer_ok (mapError_eq_ok (Prod.mk.inj h).1)).2
  obtain ⟨t, ht, -, rfl⟩ := Store.get_eq_some.mp hget
  exact ⟨t.deadline, ht⟩

theorem Issues.carries (hround : auth.RoundTrip) {opens : Prop} {user : UserInfo} {row : User}
    (h : Issues auth w opens response p user row) :
    ∃ tokens claims, response.Carries auth tokens claims ∧ claims.info = user ∧
      ∃ d, p.world.cached .refresh tokens.refreshToken = some ⟨user.id, d⟩ := by
  obtain ⟨tokens, now, jti, d, hbody, hencode, hstored⟩ := h.tokens
  exact ⟨tokens, _, ⟨hbody, hround _ _ hencode⟩, rfl, d, hstored⟩

theorem Issues.issuesRow_iff (hround : auth.RoundTrip) {request : Issuing} {user : UserInfo}
    {row : User} (h : Issues auth w request.OpensSession response p user row) :
    IssuesRow auth request w response p ↔ row.info = user := by
  obtain ⟨tokens, claims, ⟨hbody, hdecode⟩, hinfo, d, hstored⟩ := h.carries hround
  have hsub : claims.sub = user.id := congrArg UserInfo.id hinfo
  constructor
  · rintro ⟨tokens', claims', row', ⟨hbody', hdecode'⟩, hrow', hinfo', -⟩
    obtain rfl := Body.tokens.inj (hbody.symm.trans hbody')
    obtain rfl := Except.ok.inj (hdecode.symm.trans hdecode')
    rw [hsub, h.row] at hrow'
    obtain rfl := Option.some.inj hrow'
    exact hinfo'.symm.trans hinfo
  · intro hsame
    refine ⟨tokens, claims, row, ⟨hbody, hdecode⟩, by rw [hsub, h.row], hinfo.trans hsame.symm,
      ?_, ?_, ?_⟩
    · rw [hsame]
      exact h.sessions
    · rw [hsame]
      exact h.opened
    · intro s' headers body response' p' hpresented hrefresh
      obtain ⟨token, userId, found, p₁, htoken, hrotate, hfound, hissues⟩ :=
        refresh_issues hrefresh
      obtain rfl := Option.some.inj (htoken.symm.trans hpresented)
      obtain ⟨d', hstored'⟩ := rotate_ok hrotate
      obtain rfl : userId = user.id := by
        have heq := Option.some.inj (hstored'.symm.trans hstored)
        exact congrArg Timed.value heq
      obtain ⟨husers, -⟩ := quiet_kept (quiet_rotate _) hrotate
      obtain rfl : found = row := by
        unfold World.userById at hfound
        rw [husers] at hfound
        exact Option.some.inj (hfound.symm.trans h.row)
      obtain ⟨tokens', claims', hcarries, hinfo', -⟩ := hissues.carries hround
      exact ⟨tokens', claims', hcarries, hinfo'.trans (hsame.trans hinfo.symm)⟩

end Issued

namespace Sample

def googleClaims : Claims := { aliceClaims with provider := "google", jti := "6" }

/-- A service that signs tokens for callbacks. -/
def merging : AuthService := .ofTokens (config .both) [("google.token", googleClaims)]

/-- Every draw is the number of its command, and the provider answers with Alice's email. -/
def answering : Script where
  delay _ := 0
  choice i := { drawing (toString i) with profile := some ("alice@example.com", none) }

/-- Alice has a row of this provider, and a callback is expected. -/
def expecting (provider : String) : World :=
  (World.initial 0 [⟨alice, "alice@example.com", none, provider, none⟩]).setCached .oauthCsrf
    (Store.empty.set "state-1" ⟨storedText (csrfValue .google none), some 600000⟩)

def aliceCallback : Issuing := .oauthCallback .none "ip" "google" ⟨"code", "state-1"⟩

def calledBack (provider : String) : Except ApiError Response × Progress :=
  attempt answering (aliceCallback.handler merging) (.start (expecting provider))

end Sample

open Sample

theorem merging_roundTrip : merging.RoundTrip := AuthService.ofTokens_roundTrip _ (by decide)

theorem expecting_distinct (provider : String) : World.Distinct (expecting provider).users :=
  ⟨List.nodup_singleton _, List.nodup_singleton _⟩

theorem exists_of_isOk {ε α : Type} {x : Except ε α} (h : x.isOk = true) : ∃ a, x = .ok a := by
  cases x with
  | error err => cases h
  | ok a => exact ⟨a, rfl⟩

end FullStackHex
