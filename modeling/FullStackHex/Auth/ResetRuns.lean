import FullStackHex.Auth.Requests

/-!
Who may use a reset token. The token is looked up first and deleted after the
password was changed, so requests that look it up in between all succeed; what is
shown is that nothing else lets two of them through.
-/

namespace FullStackHex

open Concurrent Expiring

variable {auth : AuthService}

/-! ## Every call is tame -/

theorem steady_sessionGet (sessionId : String) :
    (sessionGet sessionId).run.All (Cmd.Steady auth) := by
  rw [sessionGet_run]
  refine ⟨trivial, fun cached => ?_⟩
  cases cached with
  | some session => trivial
  | none =>
      refine ⟨trivial, fun found => ?_⟩
      match found with
      | .error err => trivial
      | .ok none => trivial
      | .ok (some session) => exact ⟨trivial, fun _ => trivial⟩

theorem steady_checkBlacklist (user : AuthUser) :
    (checkBlacklist auth user).All (Cmd.Steady auth) := by
  rw [checkBlacklist_run]
  refine ⟨trivial, fun listed => ?_⟩
  cases listed <;> trivial

theorem steady_cookiePassage (req : Request) :
    (cookiePassage auth req).All (Cmd.Steady auth) := by
  unfold cookiePassage
  match cookieAuthPrepare req with
  | .error () => trivial
  | .ok none => trivial
  | .ok (some sessionId) =>
      refine Program.All.bind (q := resolveCookieUser sessionId) ?_ fun found => ?_
      · refine Program.All.bind (steady_sessionGet sessionId) fun result => ?_
        cases result <;> trivial
      · cases found with
        | none => trivial
        | some user => exact steady_checkBlacklist user

theorem steady_authMiddleware (req : Request) :
    (authMiddleware auth req).All (Cmd.Steady auth) := by
  unfold authMiddleware
  split
  · trivial
  · refine Program.All.bind (q := extractBearer auth req) ?_ fun bearerUser => ?_
    · rw [extractBearer_run]
      split
      · trivial
      · split
        · trivial
        · exact ⟨trivial, fun _ => trivial⟩
    · cases auth.config.authMode with
      | bearer =>
          cases bearerUser with
          | none => trivial
          | some user => exact steady_checkBlacklist user
      | both =>
          cases bearerUser with
          | none => exact steady_cookiePassage req
          | some user => exact steady_checkBlacklist user
      | cookie => cases bearerUser <;> exact steady_cookiePassage req

theorem steady_behindAuth (req : Request) (handler : AuthUser → Handler)
    (h : ∀ user, (handler user).run.All (Cmd.Plain auth)) :
    (behindAuth auth req handler).All (Cmd.Steady auth) := by
  refine Program.All.bind (steady_authMiddleware req) fun passage => ?_
  match passage with
  | .forbidden => trivial
  | .next none => trivial
  | .next (some user) =>
      exact Program.All.bind ((h user).mono fun _ => Cmd.Plain.steady) fun _ => trivial

theorem granting_refresh (headers : Headers) (body : Option String) :
    (refresh auth headers body).run.All (Cmd.Granting auth) := by
  unfold refresh
  cases presentedRefreshToken headers body with
  | none => trivial
  | some token =>
      refine Program.All.bindExcept (Program.All.adapt ⟨Or.inl rfl, fun _ => trivial⟩)
        fun owner => ?_
      cases owner with
      | none => trivial
      | some userId => exact granting_refreshUser auth userId

theorem tame_answered {p : Handler} (h : p.run.All (Cmd.Ordinary auth)) :
    (p.run.bind fun r => .ret (Outcome.answered r)).All (Cmd.Tame auth) :=
  Program.All.bind (h.mono fun _ => Cmd.Ordinary.tame) fun _ => trivial

theorem tame_call (k : Call) : (k.body auth).All (Cmd.Tame auth) := by
  cases k with
  | pass ms => exact ⟨trivial, fun _ => trivial⟩
  | lookup id =>
      exact Program.All.bind ((steady_sessionGet id).mono fun _ => Cmd.Steady.tame)
        fun _ => trivial
  | register ip body => exact tame_answered (ordinarily <| granting_register auth ip body)
  | login ip body => exact tame_answered (ordinarily <| granting_login auth ip body)
  | forgotPassword ip email => exact tame_answered (ordinarily <| granting_forgotPassword auth ip email)
  | resetPassword body =>
      exact Program.All.bind ((steady_resetPassword auth body).mono fun _ h => h.1.tame)
        fun _ => trivial
  | refresh headers body => exact tame_answered (ordinarily <| granting_refresh headers body)
  | oauthRedirect headers provider =>
      exact tame_answered (ordinary_oauthRedirect auth headers provider)
  | oauthCallback headers ip provider query =>
      exact tame_answered (ordinarily <| granting_oauthCallback auth headers ip provider query)
  | me req =>
      exact (steady_behindAuth req me fun user => trivial).mono fun _ => Cmd.Steady.tame
  | logout req body =>
      exact (steady_behindAuth req _ fun user => plain_logout auth user body).mono
        fun _ => Cmd.Steady.tame
  | deleteAccount req =>
      exact (steady_behindAuth req _ fun user => plain_deleteAccount auth user).mono
        fun _ => Cmd.Steady.tame

/-! ## Lookups and deletions of a token -/

/-- The event looked this reset token up and found it. -/
def finds (token : String) : Event Choice Cmd Reply → Bool
  | ⟨_, _, .get .reset key, .ok (some _)⟩ => key = token
  | _ => false

/-- The event tried to delete this reset token. -/
def drops (token : String) : Event Choice Cmd Reply → Bool
  | ⟨_, _, .del .reset key, _⟩ => key = token
  | _ => false

/-- The event failed to delete this reset token, as far as its task can tell. -/
def failsToDrop (token : String) : Event Choice Cmd Reply → Bool
  | ⟨_, _, .del .reset key, .error _⟩ => key = token
  | _ => false

/-- The event changed a password hash. -/
def changesPassword : Event Choice Cmd Reply → Bool
  | ⟨_, _, .updatePassword _ _, .ok rows⟩ => 0 < rows
  | _ => false

section Events

variable {token : String} {i : Nat} {e : Choice} {c : Cmd} {s : State}

theorem finds_exec (h : finds token ⟨i, e, c, (exec i e c s).1⟩ = true) :
    c = .get .reset token ∧
      ((s.state.cached .reset).get s.state.now token).isSome = true := by
  cases c with
  | get ns key =>
      cases ns with
      | reset =>
          cases hreply : (exec i e (.get .reset key) s).1 with
          | error err =>
              rw [hreply] at h
              cases h
          | ok value =>
              cases value with
              | none =>
                  rw [hreply] at h
                  cases h
              | some userId =>
                  rw [hreply] at h
                  obtain rfl : key = token := of_decide_eq_true h
                  have hget := Except.ok.inj (World.answer_ok hreply).2
                  exact ⟨rfl, by rw [hget]; rfl⟩
      | _ => cases h
  | _ => cases h

theorem drops_exec {r : Reply c} (h : drops token ⟨i, e, c, r⟩ = true) :
    c = .del .reset token := by
  cases c with
  | del ns key =>
      cases ns with
      | reset =>
          obtain rfl : key = token := of_decide_eq_true h
          rfl
      | _ => cases h
  | _ => cases h

theorem failsToDrop_drops {ev : Event Choice Cmd Reply} (h : drops token ev = false) :
    failsToDrop token ev = false := by
  obtain ⟨i, e, c, r⟩ := ev
  cases c with
  | del ns key =>
      cases ns with
      | reset =>
          cases r with
          | error err => exact h
          | ok u => rfl
      | _ => rfl
  | _ => rfl

/-- A deletion either fails or leaves the token spent. -/
theorem drops_or_spent (h : drops token ⟨i, e, c, (exec i e c s).1⟩ = true) :
    failsToDrop token ⟨i, e, c, (exec i e c s).1⟩ = true ∨
      Spent .reset token (exec i e c s).2 := by
  obtain rfl := drops_exec h
  cases hreply : (exec i e (.del .reset token) s).1 with
  | error err => exact Or.inl (decide_eq_true rfl)
  | ok u => exact Or.inr (Spent.of_del hreply)

end Events

/-- A run in which a token that is stored is looked up only when all who have found
it before have tried to delete it. -/
def OneAtATime : Condition Choice Call Cmd State := fun i _ _ e c s =>
  Fresh e c s ∧
    match c with
    | .get .reset token => ((s.state.cached .reset).get s.state.now token).isSome = true →
        ∀ ev ∈ s.log, finds token ev = true → ev.task ≠ i → Did (drops token) ev.task s
    | _ => True

/-- Of two requests that have found a token one has failed to delete it, and who has
tried to delete it has failed or has spent it. -/
structure Claimed (s : State) : Prop where
  lone : ∀ token i j, i ≠ j → Did (finds token) i s → Did (finds token) j s →
    Did (failsToDrop token) i s ∨ Did (failsToDrop token) j s
  dropped : ∀ token i, Did (drops token) i s →
    Did (failsToDrop token) i s ∨ Spent .reset token s

theorem Claimed.of_empty {s : State} (h : s.log = []) : Claimed s where
  lone token i j _ hi _ := by
    obtain ⟨ev, hmem, _⟩ := hi
    simp [h] at hmem
  dropped token i hi := by
    obtain ⟨ev, hmem, _⟩ := hi
    simp [h] at hmem

theorem Claimed.step {l : Nat} {k : Call} {s₀ : State} {e : Choice} {c : Cmd} {s : State}
    (h : Claimed s) (hok : OneAtATime l k s₀ e c s) (htame : c.Tame auth) :
    Claimed (exec l e c s).2 := by
  have hnew : ∀ token j, l ≠ j → finds token ⟨l, e, c, (exec l e c s).1⟩ = true →
      Did (finds token) j s → Did (failsToDrop token) j s := by
    intro token j hj hfinds hdid
    obtain ⟨rfl, hlive⟩ := finds_exec hfinds
    obtain ⟨ev, hmem, rfl, hev⟩ := hdid
    rcases h.dropped token ev.task (hok.2 hlive ev hmem hev (Ne.symm hj)) with hfailed | hspent
    · exact hfailed
    · rw [hspent.2] at hlive
      cases hlive
  constructor
  · intro token i j hij hi hj
    rcases did_step.mp hi with hi | ⟨rfl, hfinds⟩
    · rcases did_step.mp hj with hj | ⟨rfl, hfinds⟩
      · exact (h.lone token i j hij hi hj).imp Did.step Did.step
      · exact Or.inl (hnew token i (Ne.symm hij) hfinds hi).step
    · rcases did_step.mp hj with hj | ⟨rfl, _⟩
      · exact Or.inr (hnew token j hij hfinds hj).step
      · exact absurd rfl hij
  · intro token i hi
    rcases did_step.mp hi with hi | ⟨rfl, hdrops⟩
    · rcases h.dropped token i hi with hfailed | hspent
      · exact Or.inl hfailed.step
      · refine Or.inr (hspent.step hok.1 fun value ttl hc => ?_)
        subst hc
        exact htame
    · rcases drops_or_spent hdrops with hfailed | hspent
      · exact Or.inl (did_step.mpr (Or.inr ⟨rfl, hfailed⟩))
      · exact Or.inr hspent

/-- Task `i` has not failed to delete the token. -/
def Unfailed (token : String) (i : Nat) (s : State) : Prop :=
  ∀ ev ∈ s.eventsOf i, failsToDrop token ev = false

/-- A reset that succeeds has found its token and deleted it. The condition on the
run may rely on a task that has just begun not having done anything. -/
def resetContract (auth : AuthService) : Contract Choice Call Cmd State Outcome where
  ok i k s₀ e c s := OneAtATime i k s₀ e c s ∧ s₀.eventsOf i = []
  inv := Claimed
  guar _ c _ := c.Tame auth
  post i k _ a s := ∀ body response, k = .resetPassword body → a = .answered (.ok response) →
    Did (finds body.token) i s ∧ Unfailed body.token i s

section Outlines

variable {i : Nat} {k : Call} {s₀ : State} {token : String}

theorem Did.stable (p : Event Choice Cmd Reply → Bool) :
    Stable exec (resetContract auth) i (Did p i) := by
  intro j k s₁ e c s _ _ _ _ h
  exact h.step

theorem Unfailed.stable : Stable exec (resetContract auth) i (Unfailed token i) :=
  Stable.eventsOf fun events => ∀ ev ∈ events, failsToDrop token ev = false

theorem Unfailed.step {e : Choice} {c : Cmd} {s : State} (h : Unfailed token i s)
    (hown : failsToDrop token ⟨i, e, c, (exec i e c s).1⟩ = false) :
    Unfailed token i (exec i e c s).2 := by
  intro ev hev
  rw [exec, Exec.recorded_eventsOf_self, List.mem_append, List.mem_singleton] at hev
  rcases hev with hold | rfl
  · exact h ev hold
  · exact hown

/-- A part of the handler that does not touch the token. -/
theorem outline_sparing {β : Type} {p : Action β} {P : State → Prop}
    (hP : Stable exec (resetContract auth) i P)
    (hstep : ∀ e c s, P s → P (exec i e c s).2)
    (h : p.All fun c => c.Tame auth ∧ ∀ key, c ≠ .del .reset key) :
    Outline exec (resetContract auth) i k s₀ p (fun s => P s ∧ Unfailed token i s)
      fun _ s => P s ∧ Unfailed token i s := by
  refine Outline.keep (hP.and Unfailed.stable) (h.mono fun c hc e s _ hs _ =>
    ⟨hc.1, hstep e c s hs.1, hs.2.step (failsToDrop_drops ?_)⟩)
  by_contra hdrops
  exact hc.2 token (drops_exec (Bool.eq_true_of_not_eq_false hdrops))

theorem outline_resetPassword (body : ResetPasswordRequest) :
    Outline exec (resetContract auth) i k s₀ (resetPassword auth body).run
      (fun s => s.eventsOf i = s₀.eventsOf i)
      fun r s => ∀ response, r = .ok response →
        Did (finds body.token) i s ∧ Unfailed body.token i s := by
  have hfound : Stable exec (resetContract auth) i fun s =>
      Did (finds body.token) i s ∧ Unfailed body.token i s :=
    (Did.stable _).and Unfailed.stable
  have hplain : ∀ c : Cmd, c.Ordinary auth → c.Tame auth ∧ ∀ key, c ≠ .del .reset key := by
    intro c h
    refine ⟨h.tame, fun key hc => ?_⟩
    subst hc
    simp [Cmd.Ordinary] at h
  have herror : ∀ (err : ApiError) (s : State) (p : Prop),
      ∀ response : Response, Except.error err = .ok response → p := by
    intro err s p response h
    cases h
  refine Outline.bindExcept (Q := fun _ s => s.eventsOf i = s₀.eventsOf i)
    (Outline.ret fun s _ h => h) (fun _ => ?_) fun err s _ _ => herror err s _
  refine Outline.bindExcept (Q := fun _ s => s.eventsOf i = s₀.eventsOf i)
    (Outline.ret fun s _ h => h) (fun _ => ?_) fun err s _ _ => herror err s _
  -- the lookup
  refine Outline.bindExcept
    (Q := fun r s => ∀ userId, r = .ok (some userId) →
      Did (finds body.token) i s ∧ Unfailed body.token i s)
    (Outline.adapt (Outline.step (fun r s => ∀ userId, r = .ok (some userId) →
        Did (finds body.token) i s ∧ Unfailed body.token i s)
      (fun _ => Stable.all fun _ => Stable.imp fun _ => hfound) ?_ fun r =>
        Outline.ret fun s _ hs userId hr => ?_)) (fun owner => ?_)
    fun err s _ _ => herror err s _
  · intro e s _ hs hok
    have hnone : Unfailed body.token i s := by
      intro ev hev
      rw [hs, hok.2] at hev
      cases hev
    refine ⟨trivial, fun userId hreply => ⟨did_step.mpr (Or.inr ⟨rfl, ?_⟩), hnone.step rfl⟩⟩
    rw [hreply]
    exact decide_eq_true rfl
  · cases r with
    | error err => cases hr
    | ok value => exact hs userId (by rw [Except.ok.inj hr])
  cases owner with
  | none => exact Outline.ret fun s _ _ response h => by cases h
  | some userId =>
      have hstep : ∀ e c s, Did (finds body.token) i s →
          Did (finds body.token) i (exec i e c s).2 := fun e c s h => h.step
      have hsparing : ∀ {β : Type} {p : Action β},
          (p.All fun c => c.Tame auth ∧ ∀ key, c ≠ .del .reset key) →
          Outline exec (resetContract auth) i k s₀ p
            (fun s => Did (finds body.token) i s ∧ Unfailed body.token i s)
            fun _ s => Did (finds body.token) i s ∧ Unfailed body.token i s :=
        fun h => outline_sparing (Did.stable _) hstep h
      refine Outline.bindExcept ((hsparing (((plain_hashPassword auth _).mono fun _ => Cmd.Plain.ordinary).mono hplain)).mono
        (fun s _ hs => hs userId rfl) fun _ _ _ h => h) (fun hash => ?_)
        fun err s _ _ => herror err s _
      refine Outline.bindExcept (hsparing (Program.All.adapt
        ⟨⟨trivial, fun _ h => (by cases h)⟩, fun _ => trivial⟩)) (fun rows => ?_)
        fun err s _ _ => herror err s _
      -- the deletion
      refine Outline.bindExcept
        (Q := fun r s => r = .ok () → Did (finds body.token) i s ∧ Unfailed body.token i s)
        (Outline.adapt (Outline.step (fun r s => r = .ok () →
            Did (finds body.token) i s ∧ Unfailed body.token i s)
          (fun _ => Stable.imp fun _ => hfound) ?_ fun r => Outline.ret fun s _ hs hr => ?_))
        (fun _ => ?_) fun err s _ _ => herror err s _
      · intro e s _ hs _
        refine ⟨fun h => (by cases h), fun hreply => ⟨hs.1.step, hs.2.step ?_⟩⟩
        rw [hreply]
        rfl
      · cases r with
        | error err => cases hr
        | ok u => exact hs rfl
      refine Outline.bindExcept (Q := fun _ s => Did (finds body.token) i s ∧
        Unfailed body.token i s) (Outline.ret fun s _ hs => hs rfl) (fun _ => ?_)
        fun err s _ _ => herror err s _
      refine Outline.bindLift (hsparing ?_) fun _ => Outline.ret fun s _ hs response _ => hs
      rw [sessionDestroyAllForUser_run]
      refine ⟨⟨trivial, fun _ h => (by cases h)⟩, fun renamed => ?_⟩
      cases renamed with
      | error err => trivial
      | ok u =>
          exact ⟨⟨trivial, fun _ h => (by cases h)⟩, fun _ => ⟨⟨trivial, fun _ h => (by cases h)⟩,
            fun _ => ⟨⟨trivial, fun _ h => (by cases h)⟩, fun _ =>
              ⟨⟨trivial, fun _ h => (by cases h)⟩, fun _ => trivial⟩⟩⟩⟩

end Outlines

theorem resetContract_holds :
    (resetContract auth).Holds (api auth) fun s => s.log = [] where
  inv_init _ h := .of_empty h
  inv_step i k s₀ e c s hinv hok hguar := hinv.step hok.1 hguar
  post_stable i k s₀ a := Stable.all fun body => Stable.all fun _ => Stable.imp fun _ =>
    Stable.imp fun _ => (Did.stable (finds body.token)).and Unfailed.stable
  body i k s₀ _ := by
    have hother : (∀ body, k ≠ .resetPassword body) →
        Outline exec (resetContract auth) i k s₀ (k.body auth) (fun _ => True)
          ((resetContract auth).post i k s₀) := by
      intro hk
      refine (Outline.keep (Stable.const True) ((tame_call k).mono fun c hc e s _ _ _ =>
        ⟨hc, trivial⟩)).mono (fun _ _ h => h) fun a s _ _ body response hcall => ?_
      exact absurd hcall (hk body)
    cases k with
    | resetPassword body =>
        refine ⟨fun s => s.eventsOf i = s₀.eventsOf i, Stable.eventsOf fun events =>
          events = s₀.eventsOf i, rfl, ?_⟩
        refine Outline.bind (outline_resetPassword body) fun r => Outline.ret
          fun s _ hs body' response hcall hresult => ?_
        cases hcall
        cases hresult
        exact hs response rfl
    | _ => exact ⟨fun _ => True, Stable.const True, trivial, hother fun _ h => nomatch h⟩

/-- Request `i` has changed a password hash with this reset token and was answered
with success. -/
def ResetBy (cfg : Config Call Cmd Reply State Outcome) (token : String) (i : Nat) : Prop :=
  ∃ t body response, cfg.Returned i t (.answered (.ok response)) ∧
    t.call = .resetPassword body ∧ body.token = token ∧ Did changesPassword i cfg.shared

/-- At most one request resets a password with this token. -/
def ResetOnce (cfg : Config Call Cmd Reply State Outcome) (token : String) : Prop :=
  ∀ i j, ResetBy cfg token i → ResetBy cfg token j → i = j

/-- In every run in which no request looks a stored token up while another one that
has found it has yet to delete it, one request at most resets a password with it. -/
theorem one_at_a_time_resets_once {cfg : Config Call Cmd Reply State Outcome}
    (h : Reach (api auth) (fun s => s.log = []) OneAtATime cfg) (token : String) :
    ResetOnce cfg token := by
  have hsound := resetContract_holds.sound (h.newcomers rfl fun _ hs => hs)
  have hclaim : ∀ l, ResetBy cfg token l →
      Did (finds token) l cfg.shared ∧ ¬ Did (failsToDrop token) l cfg.shared := by
    rintro l ⟨t, body, response, ht, hcall, rfl, _⟩
    obtain ⟨hfound, hunfailed⟩ := hsound.post ht body response hcall rfl
    refine ⟨hfound, ?_⟩
    rintro ⟨ev, hmem, htask, hfails⟩
    rw [hunfailed ev (Recorded.mem_eventsOf.mpr ⟨hmem, htask⟩)] at hfails
    cases hfails
  intro i j hi hj
  obtain ⟨hfoundi, hfailsi⟩ := hclaim i hi
  obtain ⟨hfoundj, hfailsj⟩ := hclaim j hj
  by_contra hij
  exact (hsound.inv.lone token i j hij hfoundi hfoundj).elim hfailsi hfailsj

instance (i : Nat) (k : Call) (s₀ : State) (e : Choice) (c : Cmd) (s : State) :
    Decidable (OneAtATime i k s₀ e c s) := by
  induction c using Cmd.casesOn with
  | get ns token =>
      induction ns using Namespace.casesOn with
      | reset => exact inferInstanceAs (Decidable (_ ∧ (_ → ∀ ev ∈ s.log, _ → _ → _)))
      | _ => exact inferInstanceAs (Decidable (_ ∧ True))
  | _ => exact inferInstanceAs (Decidable (_ ∧ True))

namespace Sample

def aliceRow : User := ⟨alice, "alice@example.com", none, "local", some "old"⟩

/-- A reset token is drawn, and two requests present it: the second before or after
the first has done its work. -/
def twoResets (apart : Bool) : List (Label Choice Call) :=
  [.start (.forgotPassword "ip" "alice@example.com"),
    .step 0 .calm, .step 0 .calm, .step 0 .calm, .step 0 (drawing "reset-1"),
    .start (.resetPassword ⟨"reset-1", "password-1"⟩), .start (.resetPassword ⟨"reset-1", "password-2"⟩),
    .step 1 .calm] ++ (if apart then [] else [.step 2 .calm]) ++
  [.step 1 (drawing "salt-1"), .step 1 .calm, .step 1 .calm, .step 1 .calm] ++
  (if apart then [.step 2 .calm]
    else [.step 2 (drawing "salt-2"), .step 2 .calm, .step 2 .calm, .step 2 .calm])

end Sample

open Sample

/-- Two requests that both look the token up before either has deleted it both
change the password. -/
theorem two_resets_with_one_token :
    ∃ cfg, Reach (api (Sample.auth .both)) (fun s => s.log = []) Healthy cfg ∧
      ¬ ResetOnce cfg "reset-1" := by
  have hrun : (((Config.initial (State.initial 0 [aliceRow])).followIf (api (Sample.auth .both))
      Healthy (twoResets false)).filter fun cfg =>
        Did changesPassword 1 cfg.shared ∧ Did changesPassword 2 cfg.shared).map
        (fun cfg => cfg.summary.tail)
      = some [(.resetPassword ⟨"reset-1", "password-1"⟩, 5, 12,
          some (.answered (.ok ⟨200, [], .message "Password updated successfully"⟩))),
        (.resetPassword ⟨"reset-1", "password-2"⟩, 6, 16,
          some (.answered (.ok ⟨200, [], .message "Password updated successfully"⟩)))] := by
    decide
  obtain ⟨cfg, hfilter, hsummary⟩ := Option.map_eq_some_iff.mp hrun
  obtain ⟨hfollow, hchanged⟩ := Option.filter_eq_some_iff.mp hfilter
  obtain ⟨hfirst, hsecond⟩ := of_decide_eq_true hchanged
  obtain ⟨t, ht, htcall, _⟩ := cfg.returned_of_summary (i := 1)
    (by rw [← List.getElem?_tail, hsummary]; rfl)
  obtain ⟨u, hu, hucall, _⟩ := cfg.returned_of_summary (i := 2)
    (by rw [← List.getElem?_tail, hsummary]; rfl)
  refine ⟨cfg, Reach.of_followIf (.initial rfl) hfollow, fun h => ?_⟩
  exact absurd (h 1 2 ⟨t, _, _, ht, htcall, rfl, hfirst⟩ ⟨u, _, _, hu, hucall, rfl, hsecond⟩)
    (by decide)

/-- The second of two requests that come one after the other is refused. -/
theorem one_at_a_time_resets_once_run : ∃ cfg, ResetBy cfg "reset-1" 1 ∧
    cfg.summary[2]? = some (.resetPassword ⟨"reset-1", "password-2"⟩, 6, 12,
      some (.answered (.error (.unauthorized "Invalid or expired reset token")))) ∧
    ResetOnce cfg "reset-1" := by
  have hrun : (((Config.initial (State.initial 0 [aliceRow])).followIf (api (Sample.auth .both))
      OneAtATime (twoResets true)).filter fun cfg => Did changesPassword 1 cfg.shared).map
        (fun cfg => cfg.summary.tail)
      = some [(.resetPassword ⟨"reset-1", "password-1"⟩, 5, 11,
          some (.answered (.ok ⟨200, [], .message "Password updated successfully"⟩))),
        (.resetPassword ⟨"reset-1", "password-2"⟩, 6, 12,
          some (.answered (.error (.unauthorized "Invalid or expired reset token"))))] := by
    decide
  obtain ⟨cfg, hfilter, hsummary⟩ := Option.map_eq_some_iff.mp hrun
  obtain ⟨hfollow, hchanged⟩ := Option.filter_eq_some_iff.mp hfilter
  obtain ⟨t, ht, htcall, _⟩ := cfg.returned_of_summary (i := 1)
    (by rw [← List.getElem?_tail, hsummary]; rfl)
  refine ⟨cfg, ⟨t, _, _, ht, htcall, rfl, of_decide_eq_true hchanged⟩, ?_, ?_⟩
  · rw [← List.getElem?_tail, hsummary]
    rfl
  · exact one_at_a_time_resets_once (Reach.of_followIf (.initial rfl) hfollow) "reset-1"

end FullStackHex
