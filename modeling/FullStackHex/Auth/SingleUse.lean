import FullStackHex.Auth.ResetRuns

/-!
Values that are stored under a new key and taken once: refresh tokens and the states of OAuth.
A request draws one key at most; what is taken was there, comes from the request that drew its
key, and is there for nobody else.
-/

namespace FullStackHex

open Concurrent Expiring

section Once

variable {auth : AuthService}

/-! ## Every call draws at most one key -/

theorem undrawn {α : Type} {p : Action α} (h : p.All (Cmd.Plain auth)) :
    p.All fun c => ¬ c.DrawsKey := h.mono fun _ hc => hc.steady.not_drawsKey

theorem once_setFresh (ns : Namespace) (value : ns.Value) (ttl : UInt64) :
    (orFail (cacheSetFresh ns value ttl)).run.Once Cmd.DrawsKey :=
  ⟨fun _ _ => trivial, fun _ => trivial⟩

theorem once_signIn (status : Nat) (user : UserInfo) :
    (signIn auth status user).run.Once Cmd.DrawsKey := by
  refine Program.Once.bindExcept_of_all (undrawn (plain_createToken auth _ _ _ _)) fun access => ?_
  refine Program.Once.bindExcept (once_setFresh .refresh _ _) fun refresh => ?_
  apply @undrawn auth
  refine Program.All.bindExcept (plain_setAuthCookies auth _ _ _ _ _ _ _) fun cookies => ?_
  refine Program.All.bindExcept (plain_openSession auth user) fun id => ?_
  exact Program.All.bindExcept trivial fun cookies => trivial

theorem once_register (ip : String) (body : RegisterRequest) :
    (register auth ip body).run.Once Cmd.DrawsKey := by
  refine Program.Once.bindExcept_of_all (undrawn (plain_checkRateLimit auth _ _ _)) fun _ => ?_
  refine Program.Once.bindExcept_of_all trivial fun _ => ?_
  refine Program.Once.bindExcept_of_all (Program.All.adapt ⟨id, fun _ => trivial⟩) fun existing => ?_
  refine Program.Once.bindExcept_of_all trivial fun _ => ?_
  refine Program.Once.bindExcept_of_all (undrawn (plain_hashPassword auth _)) fun hash => ?_
  refine Program.Once.bindExcept_of_all (Program.All.lift ⟨id, fun _ => trivial⟩) fun inserted => ?_
  match inserted with
  | .error .uniqueViolation => trivial
  | .error (.failed _) => trivial
  | .ok userId => exact once_signIn _ _

theorem once_login (ip : String) (body : LoginRequest) :
    (login auth ip body).run.Once Cmd.DrawsKey := by
  have hfail : (failLogin ip : Handler).run.Once Cmd.DrawsKey :=
    .of_all (undrawn (plain_failLogin auth ip))
  refine Program.Once.bindExcept_of_all (undrawn (plain_checkLoginLimits auth ip body.email)) fun _ => ?_
  refine Program.Once.bindExcept_of_all (Program.All.adapt ⟨id, fun _ => trivial⟩) fun user => ?_
  cases user with
  | none => exact hfail
  | some user =>
      dsimp only
      split
      · exact hfail
      · split
        · trivial
        · exact hfail
        · exact once_signIn _ _

theorem once_forgotPassword (ip email : String) :
    (forgotPassword auth ip email).run.Once Cmd.DrawsKey := by
  refine Program.Once.bindExcept_of_all (undrawn (plain_checkRateLimit auth _ _ _)) fun _ => ?_
  refine Program.Once.bindExcept_of_all trivial fun _ => ?_
  refine Program.Once.bindExcept_of_all (Program.All.adapt ⟨id, fun _ => trivial⟩) fun user => ?_
  refine Program.Once.bindExcept ?_ fun _ => trivial
  cases user with
  | none => trivial
  | some user => exact Program.Once.bindExcept (once_setFresh .reset _ _) fun _ => trivial

theorem once_refreshUser (userId : Uuid) :
    (refreshUser auth userId).run.Once Cmd.DrawsKey := by
  refine Program.Once.bindExcept_of_all (Program.All.adapt ⟨id, fun _ => trivial⟩) fun user => ?_
  cases user with
  | none => trivial
  | some user =>
      refine Program.Once.bindExcept_of_all
        (Program.All.adapt (undrawn (plain_createToken auth _ _ _ _))) fun access => ?_
      refine Program.Once.bindExcept (once_setFresh .refresh _ _) fun refresh => ?_
      exact Program.All.bindExcept (undrawn (plain_setAuthCookies auth _ _ _ _ _ _ _))
        fun _ => trivial

theorem once_refresh (headers : Headers) (body : Option String) :
    (refresh auth headers body).run.Once Cmd.DrawsKey := by
  unfold refresh
  cases presentedRefreshToken headers body with
  | none => trivial
  | some token =>
      refine Program.Once.bindExcept_of_all (Program.All.adapt ⟨id, fun _ => trivial⟩) fun owner => ?_
      cases owner with
      | none => trivial
      | some userId => exact once_refreshUser userId

theorem once_oauthRedirect (headers : Headers) (provider : String) :
    (oauthRedirect auth headers provider).run.Once Cmd.DrawsKey := by
  refine Program.Once.bindExcept_of_all trivial fun provider => ?_
  refine Program.Once.bindExcept_of_all trivial fun _ => ?_
  split
  · trivial
  · exact Program.Once.bindExcept (once_setFresh .oauthCsrf _ _) fun _ => trivial

theorem once_oauthCallback (headers : Headers) (ip provider : String)
    (query : OAuthCallbackQuery) :
    (oauthCallback auth headers ip provider query).run.Once Cmd.DrawsKey := by
  refine Program.Once.bindExcept_of_all trivial fun provider => ?_
  refine Program.Once.bindExcept_of_all (undrawn (plain_checkRateLimit auth _ _ _)) fun _ => ?_
  refine Program.Once.bindExcept_of_all (Program.All.adapt ⟨id, fun _ => trivial⟩) fun stored => ?_
  cases stored with
  | none => trivial
  | some text =>
      refine Program.Once.bindExcept_of_all trivial fun stored => ?_
      refine Program.Once.bindExcept_of_all trivial fun state => ?_
      refine Program.Once.bindExcept_of_all trivial fun _ => ?_
      refine Program.Once.bindExcept_of_all (Program.All.lift ⟨id, fun _ => trivial⟩) fun profile => ?_
      cases profile with
      | none => trivial
      | some profile =>
          refine Program.Once.bindExcept_of_all (Program.All.adapt ⟨id, fun _ => trivial⟩) fun userId => ?_
          refine Program.Once.bindExcept_of_all (undrawn (plain_createToken auth _ _ _ _)) fun access => ?_
          refine Program.Once.bindExcept (once_setFresh .refresh _ _) fun refresh => ?_
          apply @undrawn auth
          refine Program.All.bindExcept (plain_openSession auth _) fun id => ?_
          exact Program.All.bindExcept (plain_setAuthCookies auth _ _ _ _ _ _ _)
            fun _ => trivial

theorem once_call (k : Call) : (k.body auth).Once Cmd.DrawsKey := by
  have hanswered : ∀ {p : Handler}, p.run.Once Cmd.DrawsKey →
      (p.run.bind fun r => .ret (Outcome.answered r)).Once Cmd.DrawsKey :=
    fun h => h.bind fun _ => trivial
  have hsteady : ∀ {p : Action Outcome}, p.All (Cmd.Steady auth) → p.Once Cmd.DrawsKey :=
    fun h => .of_all (h.mono fun _ => Cmd.Steady.not_drawsKey)
  cases k with
  | pass ms => exact hsteady ⟨trivial, fun _ => trivial⟩
  | lookup id => exact hsteady (Program.All.bind (steady_sessionGet id) fun _ => trivial)
  | register ip body => exact hanswered (once_register ip body)
  | login ip body => exact hanswered (once_login ip body)
  | forgotPassword ip email => exact hanswered (once_forgotPassword ip email)
  | resetPassword body =>
      exact hsteady (Program.All.bind ((steady_resetPassword auth body).mono fun _ h => h.1)
        fun _ => trivial)
  | refresh headers body => exact hanswered (once_refresh headers body)
  | oauthRedirect headers provider => exact hanswered (once_oauthRedirect headers provider)
  | oauthCallback headers ip provider query =>
      exact hanswered (once_oauthCallback headers ip provider query)
  | me req => exact hsteady (steady_behindAuth req me fun user => trivial)
  | logout req body => exact hsteady (steady_behindAuth req _ fun user => plain_logout auth user body)
  | deleteAccount req =>
      exact hsteady (steady_behindAuth req _ fun user => plain_deleteAccount auth user)

end Once

/-! ## Events -/

/-- The event stores a value under this key, which it has drawn. -/
def issues (ns : Namespace) (key : String) : Event Choice Cmd Reply → Bool
  | ⟨_, e, .setFresh ns' _ _, _⟩ => ns' = ns ∧ e.token = key
  | _ => false

/-- The event takes what is stored under this key. -/
def takes (ns : Namespace) (key : String) : Event Choice Cmd Reply → Bool
  | ⟨_, _, .getdel ns' key', .ok (some _)⟩ => ns' = ns ∧ key' = key
  | _ => false

/-- Something is stored under the key. -/
def Live (ns : Namespace) (s : State) (key : String) : Prop :=
  (s.state.cached ns).get s.state.now key ≠ none

/-- The value was stored under the key when the key was drawn. -/
def Stored (ns : Namespace) (s : State) (key : String) (value : ns.Value) : Prop :=
  ∃ ev ∈ s.log, ev.choice.token = key ∧ ∃ ttl, ev.command = .setFresh ns value ttl

/-- The text was drawn as a session id or token. -/
def Drawn (s : State) (key : String) : Prop :=
  ∃ ev ∈ s.log, key ∈ ev.command.drawn ev.choice

instance (s : State) (key : String) : Decidable (Drawn s key) :=
  inferInstanceAs (Decidable (∃ ev ∈ s.log, _))

/-- Generated session ids and tokens never repeat. -/
def NeverRepeats : Condition Choice Call Cmd State := fun _ _ _ e c s =>
  ∀ key ∈ c.drawn e, ¬ Drawn s key

instance (i : Nat) (k : Call) (s₀ : State) (e : Choice) (c : Cmd) (s : State) :
    Decidable (NeverRepeats i k s₀ e c s) :=
  inferInstanceAs (Decidable (∀ key ∈ c.drawn e, _))

/-- A key under which something is stored in the namespace is new there. -/
def NeverReissues (ns : Namespace) : Condition Choice Call Cmd State := fun _ _ _ e c s =>
  match c with
  | .setFresh ns' _ _ => ns' = ns → ∀ ev ∈ s.log, issues ns e.token ev = false
  | _ => True

instance (ns : Namespace) (i : Nat) (k : Call) (s₀ : State) (e : Choice) (c : Cmd) (s : State) :
    Decidable (NeverReissues ns i k s₀ e c s) := by
  unfold NeverReissues
  induction c using Cmd.casesOn <;> infer_instance

section Exec

variable {auth : AuthService} {ns : Namespace} {i j : Nat} {e : Choice} {c : Cmd} {s : State}
  {key : String}

theorem Stored.step {value : ns.Value} (h : Stored ns s key value) :
    Stored ns (exec i e c s).2 key value := by
  obtain ⟨ev, hmem, hev⟩ := h
  exact ⟨ev, Exec.recorded_grows _ i e c s hmem, hev⟩

theorem issues_iff {ev : Event Choice Cmd Reply} : issues ns key ev = true ↔
    ev.choice.token = key ∧ ∃ value ttl, ev.command = .setFresh ns value ttl := by
  obtain ⟨i, e, c, r⟩ := ev
  constructor
  · intro h
    cases c with
    | setFresh ns' value ttl =>
        obtain ⟨rfl, hkey⟩ := of_decide_eq_true h
        exact ⟨hkey, value, ttl, rfl⟩
    | _ => cases h
  · rintro ⟨hkey, value, ttl, rfl⟩
    exact decide_eq_true ⟨rfl, hkey⟩

theorem Stored.issues {value : ns.Value} (h : Stored ns s key value) :
    ∃ ev ∈ s.log, issues ns key ev = true ∧ ∃ ttl, ev.command = .setFresh ns value ttl := by
  obtain ⟨ev, hmem, htoken, ttl, hcommand⟩ := h
  exact ⟨ev, hmem, issues_iff.mpr ⟨htoken, value, ttl, hcommand⟩, ttl, hcommand⟩

/-- What never repeats at all is never issued twice. -/
theorem neverReissues_of_neverRepeats {i : Nat} {k : Call} {s₀ : State}
    (h : NeverRepeats i k s₀ e c s) : NeverReissues ns i k s₀ e c s := by
  cases c with
  | setFresh ns' value ttl =>
      intro _ ev hmem
      by_contra hissues
      obtain ⟨hkey, _, _, hcommand⟩ := issues_iff.mp (Bool.not_eq_false _ ▸ hissues)
      refine h e.token (List.mem_singleton_self _) ⟨ev, hmem, ?_⟩
      rw [hcommand, ← hkey]
      exact List.mem_singleton_self _
  | _ => trivial

theorem takes_iff {ev : Event Choice Cmd Reply} : takes ns key ev = true ↔
    ∃ i e value, ev = ⟨i, e, .getdel ns key, .ok (some value)⟩ := by
  constructor
  · intro h
    obtain ⟨i, e, c, r⟩ := ev
    cases c with
    | getdel ns' key' =>
        match r with
        | .error err => cases h
        | .ok none => cases h
        | .ok (some value) =>
            obtain ⟨rfl, rfl⟩ := of_decide_eq_true h
            exact ⟨i, e, value, rfl⟩
    | _ => cases h
  · rintro ⟨i, e, value, rfl⟩
    exact decide_eq_true ⟨rfl, rfl⟩

/-- What is taken was there, and is not there any more. -/
theorem getdel_exec {value : ns.Value} (h : (exec i e (.getdel ns key) s).1 = .ok (some value)) :
    (s.state.cached ns).get s.state.now key = some value ∧
      ¬ Live ns (exec i e (.getdel ns key) s).2 key := by
  obtain ⟨hfault, hget⟩ := World.answer_ok h
  refine ⟨Except.ok.inj hget, ?_⟩
  unfold Live
  simp only [exec, Exec.recorded_state, World.exec, hfault, World.answer_none,
    World.setCached_self, Store.get_del_self, ne_eq, not_true_eq_false, not_false_eq_true]

/-- Nothing but its own draw stores a value under a key. -/
theorem get_step (hns : ns ≠ .blacklist) (htame : c.Tame auth) {value : ns.Value}
    (hget : ((exec i e c s).2.state.cached ns).get (exec i e c s).2.state.now key = some value) :
    (s.state.cached ns).get s.state.now key = some value ∨
      issues ns key ⟨i, e, c, (exec i e c s).1⟩ = true ∧ Stored ns (exec i e c s).2 key value := by
  rcases (World.exec_effect e c s.state).cached_some hget with hbefore | ⟨ttl, rfl | ⟨rfl, rfl⟩⟩
  · exact .inl hbefore
  · cases ns with
    | blacklist => exact absurd rfl hns
    | _ => exact absurd htame id
  · exact .inr ⟨issues_iff.mpr ⟨rfl, value, ttl, rfl⟩, _, Exec.recorded_last _ i e _ s, rfl, ttl, rfl⟩

end Exec

/-! ## What holds in every state -/

/-- What is stored was stored when its key was drawn, and so was what has been taken; what has
been taken is gone, and nobody else has taken it. Only one request has drawn the key. -/
structure SingleUse (ns : Namespace) (s : State) : Prop where
  stored : ∀ key value, (s.state.cached ns).get s.state.now key = some value →
    Stored ns s key value
  given : ∀ i e key value,
    (⟨i, e, .getdel ns key, .ok (some value)⟩ : Event Choice Cmd Reply) ∈ s.log →
      Stored ns s key value
  gone : ∀ key i, Did (takes ns key) i s → ¬ Live ns s key
  lone : ∀ key i j, Did (takes ns key) i s → Did (takes ns key) j s → i = j
  sole : ∀ key i j, Did (issues ns key) i s → Did (issues ns key) j s → i = j

section SingleUse

variable {auth : AuthService} {ns : Namespace} {i : Nat} {e : Choice} {c : Cmd} {s : State}
  {key : String}

theorem SingleUse.issued (h : SingleUse ns s) (hdid : Did (takes ns key) i s) :
    ∃ j, Did (issues ns key) j s := by
  obtain ⟨ev, hmem, -, htakes⟩ := hdid
  obtain ⟨j, e, value, rfl⟩ := takes_iff.mp htakes
  obtain ⟨ev', hmem', hissues, -⟩ := (h.given j e key value hmem).issues
  exact ⟨ev'.task, ev', hmem', rfl, hissues⟩

/-- A key that is issued was not issued before. -/
theorem NeverReissues.unissued {k : Call} {s₀ : State} (h : NeverReissues ns i k s₀ e c s)
    (hissues : issues ns key ⟨i, e, c, (exec i e c s).1⟩ = true) (j : Nat) :
    ¬ Did (issues ns key) j s := by
  rintro ⟨ev, hmem, -, hbefore⟩
  obtain ⟨rfl, _, _, rfl⟩ := issues_iff.mp hissues
  rw [h rfl ev hmem] at hbefore
  cases hbefore

theorem SingleUse.step (h : SingleUse ns s) (hns : ns ≠ .blacklist)
    {k : Call} {s₀ : State} (hfresh : NeverReissues ns i k s₀ e c s) (htame : c.Tame auth) :
    SingleUse ns (exec i e c s).2 := by
  have htaken : ∀ key, takes ns key ⟨i, e, c, (exec i e c s).1⟩ = true →
      Live ns s key ∧ ¬ Live ns (exec i e c s).2 key := by
    intro key htakes
    obtain ⟨_, _, value, hev⟩ := takes_iff.mp htakes
    simp only [Event.mk.injEq] at hev
    obtain ⟨rfl, rfl, rfl, hreply⟩ := hev
    obtain ⟨hget, hgone⟩ := getdel_exec (eq_of_heq hreply)
    refine ⟨?_, hgone⟩
    unfold Live
    rw [hget]
    exact Option.some_ne_none value
  -- what has been taken is not there to be taken again
  have hagain : ∀ key j, Did (takes ns key) j s →
      takes ns key ⟨i, e, c, (exec i e c s).1⟩ ≠ true :=
    fun key j hdid htakes => h.gone key j hdid (htaken key htakes).1
  constructor
  · intro key value hget
    rcases get_step hns htame hget with hbefore | ⟨-, hstored⟩
    · exact (h.stored key value hbefore).step
    · exact hstored
  · intro j e' key value hmem
    rcases (Exec.mem_recorded_log _ i e c s).mp hmem with hmem | hev
    · exact (h.given j e' key value hmem).step
    · simp only [Event.mk.injEq] at hev
      obtain ⟨rfl, rfl, rfl, hreply⟩ := hev
      have hgot : (exec j e' (.getdel ns key) s).1 = .ok (some value) := (eq_of_heq hreply).symm
      exact (h.stored key value (getdel_exec hgot).1).step
  · intro key j hdid hlive
    rcases did_step.mp hdid with hdid | ⟨rfl, htakes⟩
    · obtain ⟨value, hvalue⟩ := Option.ne_none_iff_exists'.mp hlive
      rcases get_step hns htame hvalue with hbefore | ⟨hissues, -⟩
      · refine h.gone key j hdid ?_
        unfold Live
        rw [hbefore]
        exact Option.some_ne_none value
      · obtain ⟨l, hissued⟩ := h.issued hdid
        exact hfresh.unissued hissues l hissued
    · exact (htaken key htakes).2 hlive
  · intro key j l hj hl
    rcases did_step.mp hj with hj | ⟨rfl, htakes⟩
    · rcases did_step.mp hl with hl | ⟨rfl, htakes⟩
      · exact h.lone key j l hj hl
      · exact absurd htakes (hagain key j hj)
    · rcases did_step.mp hl with hl | ⟨rfl, -⟩
      · exact absurd htakes (hagain key l hl)
      · rfl
  · intro key j l hj hl
    rcases did_step.mp hj with hj | ⟨rfl, hissues⟩
    · rcases did_step.mp hl with hl | ⟨rfl, hissues⟩
      · exact h.sole key j l hj hl
      · exact absurd hj (hfresh.unissued hissues j)
    · rcases did_step.mp hl with hl | ⟨rfl, -⟩
      · exact absurd hl (hfresh.unissued hissues l)
      · rfl

/-- Nothing has happened, and nothing is stored. -/
def Unstored (ns : Namespace) (s : State) : Prop := s.log = [] ∧ s.state.cached ns = .empty

theorem SingleUse.of_unstored (h : Unstored ns s) : SingleUse ns s where
  stored key value hget := by
    rw [h.2] at hget
    cases hget
  given i e key value hmem := by simp [h.1] at hmem
  gone key i hdid := by
    obtain ⟨ev, hmem, -⟩ := hdid
    simp [h.1] at hmem
  lone key i j hdid := by
    obtain ⟨ev, hmem, -⟩ := hdid
    simp [h.1] at hmem
  sole key i j hdid := by
    obtain ⟨ev, hmem, -⟩ := hdid
    simp [h.1] at hmem

variable {cfg : Config Call Cmd Reply State Outcome}

theorem reach_singleUse (hns : ns ≠ .blacklist)
    (h : Reach (api auth) (Unstored ns) (NeverReissues ns) cfg) : SingleUse ns cfg.shared := by
  induction h with
  | initial hs => exact .of_unstored hs
  | start k _ ih => exact ih
  | resume h htask hprog hok ih =>
      have htree := (h.issued rfl (fun s hs => hs.1) tame_call).1 _ (List.mem_of_getElem? htask)
      rw [hprog] at htree
      exact ih.step hns hok htree.1

theorem reach_neverReissues {init : State → Prop} (h : Reach (api auth) init NeverRepeats cfg) :
    Reach (api auth) init (NeverReissues ns) cfg :=
  h.mono fun _ _ _ _ _ _ => neverReissues_of_neverRepeats

/-- A request draws one key at most. -/
theorem issues_once {ok : Condition Choice Call Cmd State}
    (h : Reach (api auth) (Unstored ns) ok cfg) {key key' : String} {ns₁ ns₂ : Namespace} (hfirst : Did (issues ns₁ key) i cfg.shared)
    (hsecond : Did (issues ns₂ key') i cfg.shared) : key = key' := by
  obtain ⟨ev, hev, htask, hissues⟩ := hfirst
  obtain ⟨ev', hev', htask', hissues'⟩ := hsecond
  obtain ⟨hkey, _, _, hcommand⟩ := issues_iff.mp hissues
  obtain ⟨hkey', _, _, hcommand'⟩ := issues_iff.mp hissues'
  have hsame : ev = ev' := h.only rfl (fun s hs => hs.1) once_call hev hev'
    (htask.trans htask'.symm) (by rw [hcommand]; trivial) (by rw [hcommand']; trivial)
  rw [← hkey, ← hkey', hsame]

end SingleUse

end FullStackHex
