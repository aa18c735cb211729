import FullStackHex.Auth.Requests

/-!
What a logout revokes, in runs of any requests. The bearer token is turned away
by the blacklist while its entry lives, the session is destroyed, and the refresh
token of the JSON body is deleted; the one of the cookie is not looked at.
-/

namespace FullStackHex

open Concurrent Expiring

/-- The refresh token that a logout deletes: that of its JSON body. -/
def bodyToken (body : Option String) : Option String := body.filter fun token => token ≠ ""

/-- What a logout and the requests after it have to meet for the logout to hold:
the entry that it writes outlives its bearer token, the refresh token of its cookie
is the one of its body or is not stored, and no later request reaches the blacklist
with a token that has expired in the meantime. -/
def Lasting (auth : AuthService) (k : Call) (c : Cmd) (s : State) : Prop :=
  match c with
  | .set .blacklist jti _ ttl =>
      match k with
      | .logout req body =>
          (∀ claims ∈ req.headers.claims auth, claims.jti = jti →
            (claims.exp.toNat + leeway + 1) * 1000 ≤ s.state.now + 1000 * ttl) ∧
          ∀ token ∈ req.headers.findCookie "refresh_token", bodyToken body = some token ∨
            (s.state.cached .refresh).get s.state.now token = none
      | _ => True
  | .get .blacklist jti =>
      ∀ claims ∈ k.request?.bind fun req => req.headers.claims auth, claims.jti = jti →
        s.state.now / 1000 ≤ claims.exp.toNat + leeway
  | _ => True

def LogoutOk (auth : AuthService) : Condition Choice Call Cmd State := fun i k s₀ e c s =>
  Healthy i k s₀ e c s ∧ PutsLive c s ∧ Lasting auth k c s

/-- The blacklist holds nothing but `true`, and nothing for longer than `jwt_expiry`. -/
def Bounded (auth : AuthService) (s : State) : Prop :=
  ∀ jti t, s.state.cached .blacklist jti = some t →
    t.value = true ∧ ∃ d, t.deadline = some d ∧
      d ≤ s.state.now + 1000 * auth.config.jwtExpiry.toNat

/-- The entry under the token's JTI lives longer than the token. -/
def Outlived (claims : Claims) (s : State) : Prop :=
  ∃ d, s.state.cached .blacklist claims.jti = some ⟨true, some d⟩ ∧
    (claims.exp.toNat + leeway + 1) * 1000 ≤ d

/-- What a logout that was answered with 204 has revoked. -/
structure LoggedOut (auth : AuthService) (k : Call) (s₀ : State) (a : Outcome) (s : State) :
    Prop where
  session : ∀ req body user response, k = .logout req body →
    a = .served user (.ok response) → ∀ id, user.sessionId = some id → Gone id s
  bearer : ∀ req body user response, k = .logout req body →
    a = .served user (.ok response) → ∀ claims, req.headers.claims auth = some claims →
      user = claims.toUser → Outlived claims s
  refresh : ∀ req body user response, k = .logout req body →
    a = .served user (.ok response) → ∀ token, (bodyToken body = some token ∨
      (req.headers.findCookie "refresh_token" = some token ∧ Named s₀ token)) →
        Spent .refresh token s

def logoutContract (auth : AuthService) : Contract Choice Call Cmd State Outcome where
  ok := LogoutOk auth
  inv s := Consistent s ∧ Bounded auth s
  guar _ c s := Honest c s ∧ c.Tame auth
  post _ k s₀ a s := Sees auth Outlived k s₀ a s ∧ LoggedOut auth k s₀ a s

variable {auth : AuthService}

theorem logoutContract_fits : Fits auth (logoutContract auth) where
  consistent _ h := h.1
  fresh _ _ _ _ _ _ h := h.1.2
  putsLive _ _ _ _ _ _ h := h.2.1
  honest _ _ _ h := h.1
  tame _ _ _ h := h.2
  ordinary i c s h := by
    refine ⟨fun id session hc => ?_, h.tame⟩
    subst hc
    cases h
  lookups i c s h honest := by
    refine ⟨honest, ?_⟩
    cases c with
    | sessionCacheGet | sessionGet | sessionCachePut | sessionDestroy | sessionCacheRemove =>
        trivial
    | _ => cases h

/-- An entry of the blacklist stays, or is written anew with a full lifetime. -/
theorem World.Effect.blacklist {e : Choice} {w w' : World} {c : Cmd}
    (h : World.Effect e w c w') (htame : c.Tame auth) (jti : String) :
    w'.cached .blacklist jti = w.cached .blacklist jti ∨
      w'.cached .blacklist jti
        = some ⟨true, some (w.now + 1000 * auth.config.jwtExpiry.toNat)⟩ := by
  cases h with
  | same h => exact Or.inl (by rw [h.cached])
  | store ns key value ttl d hc hd =>
      obtain ⟨_, _, rfl⟩ := deadline_eq_some.mp hd
      by_cases hns : ns = .blacklist
      · subst hns
        rw [World.setCached_self]
        by_cases hkey : jti = key
        · subst hkey
          rcases hc with rfl | ⟨rfl, _⟩
          · obtain ⟨rfl, rfl⟩ := htame
            exact Or.inr (Store.set_self _ _ _)
          · exact absurd rfl htame
        · exact Or.inl (Store.set_ne hkey)
      · exact Or.inl (by rw [World.setCached_ne (Ne.symm hns)])
  | drop ns key hc =>
      have hns : Namespace.blacklist ≠ ns := by
        rcases hc with rfl | rfl
        · exact Ne.symm htame
        · exact Ne.symm htame
      exact Or.inl (by rw [World.setCached_ne hns])
  | _ => exact Or.inl rfl

theorem Bounded.step {i : Nat} {e : Choice} {c : Cmd} {s : State} (h : Bounded auth s)
    (htame : c.Tame auth) : Bounded auth (exec i e c s).2 := by
  intro jti t ht
  have heffect := World.exec_effect e c s.state
  have hnow : s.state.now ≤ (exec i e c s).2.state.now := heffect.now_le
  rcases heffect.blacklist htame jti with hold | hnew
  · obtain ⟨hvalue, d, hd, hle⟩ := h jti t (hold ▸ ht)
    exact ⟨hvalue, d, hd, by omega⟩
  · obtain rfl := Option.some.inj (hnew.symm.trans ht)
    exact ⟨rfl, _, rfl, by omega⟩

theorem Outlived.preserved (claims : Claims) :
    Preserved exec (logoutContract auth) (Outlived claims) := by
  intro j k s₀ e c s hinv _ hguar h
  obtain ⟨d, hentry, hlong⟩ := h
  rcases (World.exec_effect e c s.state).blacklist hguar.2 claims.jti with hold | hnew
  · exact ⟨d, hold.trans hentry, hlong⟩
  · obtain ⟨_, d', hd', hle⟩ := hinv.2 claims.jti _ hentry
    obtain rfl := Option.some.inj hd'
    exact ⟨_, hnew, by omega⟩

theorem logoutContract_bars : Bars auth (logoutContract auth) Outlived where
  preserved := Outlived.preserved
  refused i k s₀ e s req claims hreq hclaims hinv hok h := by
    obtain ⟨d, hentry, hlong⟩ := h
    have hin : s.state.now / 1000 ≤ claims.exp.toNat + leeway :=
      hok.2.2 claims (by rw [hreq]; exact hclaims) rfl
    have hlive : (s.state.cached .blacklist).get s.state.now claims.jti = some true := by
      refine Store.get_eq_some.mpr ⟨_, hentry, ?_, rfl⟩
      simp only [Timed.alive, decide_eq_true_eq]
      omega
    simp only [exec, Exec.recorded_reply, World.exec, hok.1.1, World.answer_none, hlive]

section

variable {i : Nat} {k : Call} {s₀ : State}

theorem outline_dropRefreshToken (body : Option String) :
    Outline exec (logoutContract auth) i k s₀ (dropRefreshToken body).run (fun _ => True)
      fun r s => r = .ok () → ∀ token, bodyToken body = some token → Spent .refresh token s := by
  unfold dropRefreshToken bodyToken
  cases body.filter fun token => token ≠ "" with
  | none => exact Outline.ret fun s _ _ _ token h => by cases h
  | some token =>
      have hspent : Preserved exec (logoutContract auth) (Spent .refresh token) :=
        Spent.preserved logoutContract_fits (by decide) token
      refine Outline.adapt (Outline.step (fun r s => r = .ok () → Spent .refresh token s)
        (fun _ => Stable.imp fun _ => hspent.stable) ?_ fun r => Outline.ret ?_)
      · intro e s _ _ _
        exact ⟨logoutContract_fits.ordinary i _ s (Or.inl rfl), Spent.of_del⟩
      · intro s _ hs hr other hother
        cases hother
        cases r with
        | error err => cases hr
        | ok u => exact hs rfl

/-- The entry that a logout writes, where the logout lasts. -/
theorem outline_blacklist (req : Request) (body : Option String) (jti : String) :
    Outline exec (logoutContract auth) i (.logout req body) s₀
      (orFail (cacheSet .blacklist jti true auth.config.jwtExpiry)).run
      (fun s => (∀ token, bodyToken body = some token → Spent .refresh token s) ∧
        ∀ token, Named s₀ token → Named s token)
      fun r s => r = .ok () →
        (∀ claims, req.headers.claims auth = some claims → claims.jti = jti →
          Outlived claims s) ∧
        ∀ token, req.headers.findCookie "refresh_token" = some token → Named s₀ token →
          Spent .refresh token s := by
  have hoverall : Preserved exec (logoutContract auth) fun s =>
      (∀ claims, req.headers.claims auth = some claims → claims.jti = jti →
        Outlived claims s) ∧
      ∀ token, req.headers.findCookie "refresh_token" = some token → Named s₀ token →
        Spent .refresh token s := by
    refine Preserved.and ?_ ?_
    · exact Preserved.all fun claims => Preserved.imp fun _ => Preserved.imp fun _ =>
        Outlived.preserved claims
    · exact Preserved.all fun token => Preserved.imp fun _ => Preserved.imp fun _ =>
        Spent.preserved logoutContract_fits (by decide) token
  refine Outline.adapt (Outline.step (fun r s => r = .ok () → _)
    (fun _ => Stable.imp fun _ => hoverall.stable) ?_ fun r => Outline.ret ?_)
  · intro e s _ hs hok
    refine ⟨logoutContract_fits.ordinary i _ s ⟨rfl, rfl⟩, fun hreply => ⟨?_, ?_⟩⟩
    · intro claims hclaims hjti
      subst hjti
      have hset := (World.answer_ok hreply).2
      unfold World.set at hset
      cases hd : deadline s.state.now auth.config.jwtExpiry.toNat with
      | none =>
          rw [hd] at hset
          cases hset
      | some d =>
          obtain ⟨_, _, rfl⟩ := deadline_eq_some.mp hd
          refine ⟨_, ?_, hok.2.2.1 claims hclaims rfl⟩
          simp only [exec, Exec.recorded_state, World.exec, hok.1.1, World.answer_none,
            World.set, hd, World.setCached_self, Store.set_self]
    · intro token hcookie hnamed
      have hspent : Spent .refresh token s := by
        rcases hok.2.2.2 token hcookie with hbody | hnone
        · exact hs.1 token hbody
        · exact ⟨hs.2 token hnamed, hnone⟩
      exact hspent.step hok.1.2 fun value ttl h => by cases h
  · intro s _ hs hr
    cases r with
    | error err => cases hr
    | ok u => exact hs rfl

theorem outline_destroyOwnSession (user : AuthUser) :
    Outline exec (logoutContract auth) i k s₀ (destroyOwnSession user).run (fun _ => True)
      fun _ s => ∀ id, user.sessionId = some id → Gone id s := by
  unfold destroyOwnSession
  cases user.sessionId with
  | none => exact Outline.ret fun s _ _ id h => by cases h
  | some id =>
      have hK : Fits auth (logoutContract auth) := logoutContract_fits
      have hdestroy : Outline exec (logoutContract auth) i k s₀ (sessionDestroy id).run _ _ :=
        outline_sessionDestroy hK.toCareful (hK.lookups i) id
      refine Outline.bindLift hdestroy fun r => Outline.ret fun s _ hs other hother => ?_
      cases hother
      exact hs.1 (hs.2 fun e s hok => hok.1.1)

/-- A logout, once its user is authenticated. -/
theorem outline_logout (req : Request) (body : Option String) (user : AuthUser) :
    Outline exec (logoutContract auth) i (.logout req body) s₀
      ((logout auth user body).run.bind fun result => .ret (.served user result))
      (fun s => Authenticated auth Outlived req s₀ s user ∧ Remains Outlived s₀ s)
      fun a s => Sees auth Outlived (.logout req body) s₀ a s ∧
        LoggedOut auth (.logout req body) s₀ a s := by
  have hK : Fits auth (logoutContract auth) := logoutContract_fits
  have hauth : Preserved exec (logoutContract auth) fun s =>
      Authenticated auth Outlived req s₀ s user := Authenticated.preserved user
  have hnamed : Preserved exec (logoutContract auth) fun s =>
      ∀ token, Named s₀ token → Named s token :=
    Preserved.all fun token => Preserved.imp fun _ => Named.preserved token
  have hbody : Preserved exec (logoutContract auth) fun s =>
      ∀ token, bodyToken body = some token → Spent .refresh token s :=
    Preserved.all fun token => Preserved.imp fun _ => Spent.preserved hK (by decide) token
  have hlasts : Preserved exec (logoutContract auth) fun s =>
      (∀ claims, req.headers.claims auth = some claims → claims.jti = user.jti →
        Outlived claims s) ∧
      ∀ token, req.headers.findCookie "refresh_token" = some token → Named s₀ token →
        Spent .refresh token s := by
    refine Preserved.and ?_ ?_
    · exact Preserved.all fun claims => Preserved.imp fun _ => Preserved.imp fun _ =>
        Outlived.preserved claims
    · exact Preserved.all fun token => Preserved.imp fun _ => Preserved.imp fun _ =>
        Spent.preserved hK (by decide) token
  have hrun : Outline exec (logoutContract auth) i (.logout req body) s₀
      (logout auth user body).run
      (fun s => Authenticated auth Outlived req s₀ s user ∧
        ∀ token, Named s₀ token → Named s token)
      fun r s => Authenticated auth Outlived req s₀ s user ∧ (r.isOk →
        (∀ id, user.sessionId = some id → Gone id s) ∧
        ((∀ claims, req.headers.claims auth = some claims → claims.jti = user.jti →
            Outlived claims s) ∧
          ∀ token, req.headers.findCookie "refresh_token" = some token → Named s₀ token →
            Spent .refresh token s) ∧
        ∀ token, bodyToken body = some token → Spent .refresh token s) := by
    refine Outline.bindExcept (((outline_dropRefreshToken body).carry (hauth.and hnamed)).mono
      (fun s _ hs => ⟨trivial, hs⟩) fun _ _ _ h => h) (fun _ => ?_)
      fun err s _ hs => ⟨hs.2.1, fun h => by cases h⟩
    refine Outline.bindExcept (((outline_blacklist req body user.jti).carry
      (hauth.and hbody)).mono (fun s _ hs => ⟨⟨hs.1 rfl, hs.2.2⟩, hs.2.1, hs.1 rfl⟩)
      fun _ _ _ h => h) (fun _ => ?_) fun err s _ hs => ⟨hs.2.1, fun h => by cases h⟩
    refine Outline.bindExcept (((outline_destroyOwnSession user).carry
      (hauth.and (hlasts.and hbody))).mono
      (fun s _ hs => ⟨trivial, hs.2.1, hs.1 rfl, hs.2.2⟩) fun _ _ _ h => h)
      (fun _ => Outline.ret fun s _ hs => ?_) fun err s _ hs => ⟨hs.2.1, fun h => by cases h⟩
    exact ⟨hs.2.1, fun _ => ⟨hs.1, hs.2.2.1, hs.2.2.2⟩⟩
  refine Outline.bind (hrun.mono (fun s _ hs => ⟨hs.1, hs.2.named⟩) fun _ _ _ h => h)
    fun result => Outline.ret fun s _ hs => ⟨.of_request rfl ?_, ⟨?_, ?_, ?_⟩⟩
  · intro user' hserved
    cases hserved
    exact hs.1
  all_goals
    intro req' body' user' response hcall hserved
    cases hcall
    cases hserved
    obtain ⟨hgone, ⟨hbearer, hcookie⟩, hbody⟩ := hs.2 rfl
  · exact hgone
  · intro claims hclaims huser
    exact hbearer claims hclaims (by rw [huser]; rfl)
  · rintro token (htoken | ⟨htoken, hnamed⟩)
    · exact hbody token htoken
    · exact hcookie token htoken hnamed

end

theorem LoggedOut.preserved (k : Call) (s₀ : State) (a : Outcome) :
    Preserved exec (logoutContract auth) (LoggedOut auth k s₀ a) := by
  have hK : Fits auth (logoutContract auth) := logoutContract_fits
  intro j k' s₁ e c s hinv hok hguar h
  constructor
  · intro req body user response hcall hserved id hid
    exact Gone.preserved hK.toCareful id j k' s₁ e c s hinv hok hguar
      (h.session req body user response hcall hserved id hid)
  · intro req body user response hcall hserved claims hclaims huser
    exact Outlived.preserved claims j k' s₁ e c s hinv hok hguar
      (h.bearer req body user response hcall hserved claims hclaims huser)
  · intro req body user response hcall hserved token htoken
    have hspent : Preserved exec (logoutContract auth) (Spent .refresh token) :=
      Spent.preserved hK (by decide) token
    exact hspent j k' s₁ e c s hinv hok hguar
      (h.refresh req body user response hcall hserved token htoken)

theorem LoggedOut.of_rejected (k : Call) (s₀ : State) (rejection : AuthRejection)
    (s : State) : LoggedOut auth k s₀ (.rejected rejection) s where
  session _ _ _ _ _ h := nomatch h
  bearer _ _ _ _ _ h := nomatch h
  refresh _ _ _ _ _ h := nomatch h

theorem LoggedOut.of_other {k : Call} (hk : ∀ req body, k ≠ .logout req body) (s₀ : State)
    (a : Outcome) (s : State) : LoggedOut auth k s₀ a s where
  session req body _ _ h := absurd h (hk req body)
  bearer req body _ _ h := absurd h (hk req body)
  refresh req body _ _ h := absurd h (hk req body)

theorem logoutContract_holds : (logoutContract auth).Holds (api auth)
    fun s => Consistent s ∧ Bounded auth s where
  inv_init _ h := h
  inv_step i k s₀ e c s hinv hok hguar :=
    ⟨hinv.1.step hok.1.2 hguar.1, hinv.2.step hguar.2⟩
  post_stable i k s₀ a := ((Sees.preserved a).and (LoggedOut.preserved k s₀ a)).stable
  body i k s₀ _ := by
    have hK : Fits auth (logoutContract auth) := logoutContract_fits
    have hbars : Bars auth (logoutContract auth) Outlived := logoutContract_bars
    have hother : (∀ body, k ≠ .resetPassword body) → (∀ req body, k ≠ .logout req body) →
        Outline exec (logoutContract auth) i k s₀ (k.body auth) (Remains Outlived s₀)
          ((logoutContract auth).post i k s₀) :=
      fun hreset hlogout => (outline_call hK hbars hreset).mono (fun _ _ h => h)
        fun a s _ h => ⟨h, .of_other hlogout s₀ a s⟩
    refine ⟨Remains Outlived s₀, (Remains.preserved hK hbars s₀).stable, .refl s₀, ?_⟩
    cases k with
    | logout req body =>
        exact outline_behindAuth hK hbars rfl _ (fun rejection s _ =>
          ⟨.of_request rfl (fun _ h => nomatch h), .of_rejected _ _ _ _⟩)
          fun user => outline_logout req body user
    | resetPassword body =>
        have hreset : Outline exec (logoutContract auth) i (.resetPassword body) s₀ _ _ _ :=
          Outline.keep (Stable.const True)
          ((steady_resetPassword auth body).mono fun c hc e s _ _ _ =>
            ⟨⟨fun id session h => absurd h (hc.2 id session), hc.1.tame⟩, trivial⟩)
        refine Outline.bind (hreset.mono (fun _ _ _ => trivial) fun _ _ _ h => h) fun result =>
          Outline.ret fun s _ _ => ⟨.of_anonymous (by trivial) rfl s, .of_other ?_ _ _ _⟩
        exact fun _ _ h => nomatch h
    | _ => exact hother (fun _ h => nomatch h) fun _ _ h => nomatch h

/-- What no call accepts any more that begins after a logout of `user` by this
request: the session or the bearer token that the user was authenticated with, and
the refresh tokens that the request carried. -/
structure Revoked (auth : AuthService) (req : Request) (body : Option String)
    (user : AuthUser) (before : State) (g : Task Call Cmd Reply State Outcome) (b : Outcome) :
    Prop where
  session : ∀ id other, user.sessionId = some id → b.user? = some other →
    other.sessionId ≠ some id
  lookup : ∀ id session, user.sessionId = some id → g.call = .lookup id →
    b ≠ .found (.ok session)
  bearer : ∀ req' other token, user.sessionId = none → bearerToken req.headers = some token →
    g.call.request? = some req' → bearerToken req'.headers = some token →
    b.user? = some other → other.sessionId.isSome
  refresh : ∀ headers body' token response, (bodyToken body = some token ∨
      (req.headers.findCookie "refresh_token" = some token ∧ Named before token)) →
    g.call = .refresh headers body' → presentedRefreshToken headers body' = some token →
    b ≠ .answered (.ok response)

/-- In every run whose steps meet the condition, no credential of a request whose
logout was answered with 204 is accepted by a request that begins later. -/
theorem logout_revokes {cfg : Config Call Cmd Reply State Outcome}
    (h : Reach (api auth) (fun s => Consistent s ∧ Bounded auth s) (LogoutOk auth) cfg)
    (i j : Nat) (t g : Task Call Cmd Reply State Outcome) (req : Request)
    (body : Option String) (user : AuthUser) (response : Response) (b : Outcome)
    (ht : cfg.Returned i t (.served user (.ok response))) (hcall : t.call = .logout req body)
    (hg : cfg.Returned j g b) (hlater : t.last < g.began) :
    Revoked auth req body user t.before g b := by
  have hsound := logoutContract_holds.sound h
  have hout := (hsound.before i j t g _ ht hg.1 hlater).2
  have hsees := (hsound.post hg).1
  constructor
  · intro id other hid hother hsame
    have hgone := hout.session req body user response hcall rfl id hid
    obtain ⟨req', _, hauth⟩ := hsees.user other hother
    cases hauth with
    | bearer claims hclaims huser hfree =>
        rw [huser] at hsame
        cases hsame
    | cookie id' session hmode hcookie huser hfound hissued =>
        rw [huser] at hsame
        obtain rfl : id' = id := Option.some.inj hsame
        exact hfound hgone
  · intro id session hid hlookup hb
    exact hsees.lookup id session hlookup hb
      (hout.session req body user response hcall rfl id hid)
  · intro req' other token hnone htoken hreq' htoken' hother
    obtain ⟨own, hown, howner⟩ := (hsound.before i j t g _ ht hg.1 hlater).1.user user rfl
    obtain rfl : own = req := by
      rw [hcall] at hown
      exact (Option.some.inj hown).symm
    obtain ⟨req'', hreq'', hauth⟩ := hsees.user other hother
    obtain rfl : req' = req'' := Option.some.inj (hreq'.symm.trans hreq'')
    have hsame : req'.headers.claims auth = own.headers.claims auth := by
      unfold Headers.claims
      rw [htoken, htoken']
    cases howner with
    | cookie id session hmode hcookie huser hfound hissued =>
        rw [huser] at hnone
        cases hnone
    | bearer claims hclaims huser hfree =>
        have hout' := hout.bearer own body user response hcall rfl claims hclaims huser
        cases hauth with
        | cookie id session hmode hcookie huser' hfound hissued =>
            rw [huser']
            rfl
        | bearer claims' hclaims' huser' hfree' =>
            obtain rfl : claims' = claims :=
              Option.some.inj (hclaims'.symm.trans (hsame.trans hclaims))
            exact absurd hout' hfree'
  · intro headers body' token response' hcarried hrefresh hpresented hb
    exact hsees.refresh headers body' token response' hrefresh hpresented hb
      (hout.refresh req body user response hcall rfl token hcarried)

instance (auth : AuthService) (k : Call) (c : Cmd) (s : State) :
    Decidable (Lasting auth k c s) := by
  induction c using Cmd.casesOn with
  | set ns key value ttl =>
      induction ns using Namespace.casesOn with
      | blacklist =>
          induction k using Call.casesOn with
          | logout req body => exact inferInstanceAs (Decidable (_ ∧ _))
          | _ => exact .isTrue trivial
      | _ => exact .isTrue trivial
  | get ns key =>
      induction ns using Namespace.casesOn with
      | blacklist => exact inferInstanceAs (Decidable (∀ claims ∈ _, _ → _))
      | _ => exact .isTrue trivial
  | _ => exact .isTrue trivial

instance (auth : AuthService) (i : Nat) (k : Call) (s₀ : State) (e : Choice) (c : Cmd)
    (s : State) : Decidable (LogoutOk auth i k s₀ e c s) :=
  inferInstanceAs (Decidable (_ ∧ _ ∧ _))

theorem State.initial_bounded (now : Nat) (users : List User) :
    Bounded auth (State.initial now users) := fun _ _ h => nomatch h

theorem reach_bounded {ok : Condition Choice Call Cmd State}
    [∀ i k s₀ e c s, Decidable (ok i k s₀ e c s)] {now : Nat} {users : List User}
    {labels : List (Label Choice Call)} {cfg : Config Call Cmd Reply State Outcome}
    (h : (Config.initial (State.initial now users)).followIf (api auth) ok labels = some cfg) :
    Reach (api auth) (fun s => Consistent s ∧ Bounded auth s) ok cfg :=
  Reach.of_followIf
    (.initial ⟨State.initial_consistent now users, State.initial_bounded now users⟩) h

namespace Sample

/-- Two tokens of one user, one issued after the other. -/
def renewing : AuthService := .ofTokens (config .both)
  [("alice.token", aliceClaims), ("alice.next", { aliceClaims with jti := "jti-next" })]

/-- A registration that succeeds. -/
def registration : List (Label Choice Call) :=
  [.start (.register "ip" ⟨"alice@example.com", "password", none⟩),
    .step 0 .calm, .step 0 .calm, .step 0 .calm, .step 0 (drawing "salt"),
    .step 0 { Choice.calm with id := alice },
    .step 0 .calm, .step 0 (drawing "jti-alice"), .step 0 (drawing "r-1"),
    .step 0 (drawing "csrf"), .step 0 .calm, .step 0 (drawing "s-1")]

def logoutRequest : Request :=
  ⟨.post, "/auth/logout",
    { bearer "alice.token" with cookie := some "refresh_token=r-1" }⟩

/-- A registration, a logout by the access token with the refresh token in the
cookie, and a refresh with that cookie. -/
def refreshedAfterLogout : List (Label Choice Call) :=
  [.start (.register "ip" ⟨"alice@example.com", "password", none⟩),
    .step 0 .calm, .step 0 .calm, .step 0 .calm, .step 0 (drawing "salt"),
    .step 0 { Choice.calm with id := alice },
    .step 0 .calm, .step 0 (drawing "jti-alice"), .step 0 (drawing "r-1"),
    .step 0 (drawing "csrf"), .step 0 .calm, .step 0 (drawing "s-1"),
    .start (.logout logoutRequest none), .step 1 .calm, .step 1 .calm, .step 1 .calm,
    .start (.refresh (cookies "refresh_token=r-1") none), .step 2 .calm, .step 2 .calm,
    .step 2 .calm, .step 2 (drawing "jti-next"), .step 2 (drawing "r-2"),
    .step 2 (drawing "csrf-2")]

def renewed : Response where
  status := 200
  setCookies :=
    ["access_token=alice.next; Path=/; Max-Age=900; SameSite=Lax; HttpOnly; Secure",
      "refresh_token=r-2; Path=/; Max-Age=604800; SameSite=Lax; HttpOnly; Secure",
      "csrf_token=csrf-2; Path=/; Max-Age=900; SameSite=Lax; Secure"]
  body := .tokens ⟨"alice.next", "Bearer", 900, "r-2", "csrf-2",
    ⟨alice, "alice@example.com", none, "local"⟩⟩

/-- A token from before the last 61 seconds is logged out and presented again. -/
def lateLogout : List (Label Choice Call) :=
  [.start (.logout ⟨.post, "/auth/logout", bearer "alice.token"⟩ none),
    .step 0 .calm, .step 0 .calm, .step 0 .calm,
    .start (.me ⟨.get, "/auth/me", bearer "alice.token"⟩), .step 1 .calm, .step 1 .calm]

end Sample

open Sample

/-- Without errors and with new draws, the refresh token in the cookie of a request
that was logged out is accepted afterwards. -/
theorem refresh_outlives_logout :
    ∃ cfg, Reach (api renewing) (fun s => Consistent s ∧ Bounded renewing s) Healthy cfg ∧
      ∃ (t g : Task Call Cmd Reply State Outcome) (user : AuthUser) (response : Response)
        (b : Outcome),
        cfg.Returned 1 t (.served user (.ok response)) ∧ t.call = .logout logoutRequest none ∧
        cfg.Returned 2 g b ∧ t.last < g.began ∧
        ¬ Revoked renewing logoutRequest none user t.before g b := by
  have hrun : (((Config.initial (State.initial 0 [])).followIf (api renewing) Healthy
      refreshedAfterLogout).filter fun cfg =>
        cfg.tasks.map (fun t => decide (Named t.before "r-1")) = [false, true, true]).map
        (fun cfg => cfg.summary.tail)
      = some [(.logout logoutRequest none, 12, 15,
          some (.served aliceClaims.toUser (.ok loggedOut))),
        (.refresh (cookies "refresh_token=r-1") none, 16, 22,
          some (.answered (.ok renewed)))] := by
    decide
  obtain ⟨cfg, hfilter, hsummary⟩ := Option.map_eq_some_iff.mp hrun
  obtain ⟨hfollow, hnamed⟩ := Option.filter_eq_some_iff.mp hfilter
  have hreach := reach_bounded hfollow
  obtain ⟨t, ht, htcall, _, hlast⟩ := cfg.returned_of_summary (i := 1)
    (by rw [← List.getElem?_tail, hsummary]; rfl)
  obtain ⟨g, hg, hgcall, hbegan, _⟩ := cfg.returned_of_summary (i := 2)
    (by rw [← List.getElem?_tail, hsummary]; rfl)
  refine ⟨cfg, hreach, t, g, _, _, _, ht, htcall, hg, by omega, fun h => ?_⟩
  have hbefore : Named t.before "r-1" := by
    have hlist := of_decide_eq_true hnamed
    have hsecond := congrArg (fun flags => flags[1]?) hlist
    simpa [ht.1] using hsecond
  exact h.refresh _ none "r-1" renewed (Or.inr ⟨by decide, hbefore⟩) hgcall (by decide) rfl

/-- The bearer token of a logout that comes late enough is turned away. -/
theorem logout_revokes_late : ∃ (cfg : Config Call Cmd Reply State Outcome)
    (t g : Task Call Cmd Reply State Outcome),
    cfg.Returned 0 t (.served aliceClaims.toUser (.ok loggedOut)) ∧
    t.call = .logout ⟨.post, "/auth/logout", bearer "alice.token"⟩ none ∧
    cfg.Returned 1 g (.rejected .unauthorized) ∧
    Revoked (Sample.auth .both) ⟨.post, "/auth/logout", bearer "alice.token"⟩ none
      aliceClaims.toUser t.before g (.rejected .unauthorized) := by
  have hrun : ((Config.initial (State.initial 61000 [])).followIf (api (Sample.auth .both))
      (LogoutOk (Sample.auth .both)) lateLogout).map Config.summary
      = some [(.logout ⟨.post, "/auth/logout", bearer "alice.token"⟩ none, 0, 3,
          some (.served aliceClaims.toUser (.ok loggedOut))),
        (.me ⟨.get, "/auth/me", bearer "alice.token"⟩, 4, 6, some (.rejected .unauthorized))] := by
    decide
  obtain ⟨cfg, hfollow, hsummary⟩ := Option.map_eq_some_iff.mp hrun
  obtain ⟨t, ht, htcall, _, hlast⟩ :=
    cfg.returned_of_summary (i := 0) (by rw [hsummary]; rfl)
  obtain ⟨g, hg, hgcall, hbegan, _⟩ :=
    cfg.returned_of_summary (i := 1) (by rw [hsummary]; rfl)
  have hreach := reach_bounded hfollow
  exact ⟨cfg, t, g, ht, htcall, hg,
    logout_revokes hreach 0 1 t g _ none _ _ _ ht htcall hg (by omega)⟩

end FullStackHex
