import FullStackHex.Auth.SingleUse
import FullStackHex.Auth.LogoutRuns

/-!
Which sessions a deletion of an account leaves behind. The handler destroys the session of its
own request, if that has one, and leaves the other sessions of the user alone. A deletion by
cookie puts the empty key on the blacklist, which turns every cookie away for `jwt_expiry`.
-/

namespace FullStackHex

open Concurrent Expiring

/-! ## The sessions of a run -/

/-- A session that was created, and when its lifetime ends. -/
structure Creation where
  id : String
  userId : Uuid
  ends : Nat
  deriving DecidableEq

/-- The time that passes in a part of the log. -/
def elapsed : List (Event Choice Cmd Reply) → Nat
  | [] => 0
  | ⟨_, _, .pass ms, _⟩ :: rest => ms + elapsed rest
  | _ :: rest => elapsed rest

/-- The creations of a part of the log that ends at `now`. -/
def creationsUntil (now : Nat) : List (Event Choice Cmd Reply) → List Creation
  | [] => []
  | ⟨_, e, .sessionCreate session ttl, .ok _⟩ :: rest =>
      ⟨e.token, session.userId, now - elapsed rest + 1000 * ttl⟩ :: creationsUntil now rest
  | _ :: rest => creationsUntil now rest

/-- Every session that a run has created. -/
def State.creations (s : State) : List Creation := creationsUntil s.state.now s.log

/-- The users whose rows the run has deleted. -/
def State.deleted (s : State) : List Uuid :=
  s.log.filterMap fun
    | ⟨_, _, .deleteUser userId, .ok rows⟩ => if 0 < rows then some userId else none
    | _ => none

section Creations

variable {i : Nat} {e : Choice} {c : Cmd} {s : State}

theorem elapsed_append (earlier later : List (Event Choice Cmd Reply)) :
    elapsed (earlier ++ later) = elapsed earlier + elapsed later := by
  induction earlier with
  | nil => exact (Nat.zero_add _).symm
  | cons ev rest ih =>
      obtain ⟨l, e, c, r⟩ := ev
      cases c with
      | pass ms => simp only [List.cons_append, elapsed, ih, Nat.add_assoc]
      | _ => exact ih

theorem creationsUntil_append (now : Nat) (earlier later : List (Event Choice Cmd Reply)) :
    creationsUntil (now + elapsed later) (earlier ++ later)
      = creationsUntil now earlier ++ creationsUntil (now + elapsed later) later := by
  induction earlier with
  | nil => rfl
  | cons ev rest ih =>
      obtain ⟨l, e, c, r⟩ := ev
      cases c with
      | sessionCreate session ttl =>
          match r with
          | .error err => exact ih
          | .ok id =>
              simp only [List.cons_append, creationsUntil, ih, elapsed_append,
                Nat.add_sub_add_right]
      | _ => exact ih

theorem exec_now : (exec i e c s).2.state.now
    = s.state.now + elapsed [⟨i, e, c, (exec i e c s).1⟩] := by
  have heffect := World.exec_effect e c s.state
  cases c with
  | pass ms => rfl
  | _ => exact heffect.now (fun _ h => nomatch h)

theorem sessionCreate_ok {session : Session} {ttl : Nat} :
    (∃ id, (exec i e (.sessionCreate session ttl) s).1 = .ok id) ↔
      e.fault = .none ∧ (deadline s.state.now ttl).isSome := by
  change (∃ id, (s.state.answer e.fault (s.state.sessionCreate session ttl e.token)).1 = .ok id) ↔ _
  unfold World.sessionCreate
  cases hdeadline : deadline s.state.now ttl with
  | none => cases e.fault <;> simp [World.answer]
  | some d => cases e.fault <;> simp [World.answer]

/-- A creation that succeeds adds one session. -/
theorem mem_creations_step {x : Creation} : x ∈ (exec i e c s).2.creations ↔
    x ∈ s.creations ∨ ∃ session ttl, c = .sessionCreate session ttl ∧ e.fault = .none ∧
      (deadline s.state.now ttl).isSome ∧
        x = ⟨e.token, session.userId, s.state.now + 1000 * ttl⟩ := by
  have hlog : (exec i e c s).2.creations = s.creations
      ++ creationsUntil (exec i e c s).2.state.now [⟨i, e, c, (exec i e c s).1⟩] := by
    unfold State.creations
    rw [exec_now]
    exact creationsUntil_append _ _ _
  rw [hlog, List.mem_append]
  refine or_congr_right ?_
  cases c with
  | sessionCreate session ttl =>
      have hnow : (exec i e (.sessionCreate session ttl) s).2.state.now = s.state.now :=
        (World.exec_effect e _ s.state).now fun _ h => nomatch h
      rw [hnow]
      generalize hreply : (exec i e (.sessionCreate session ttl) s).1 = reply
      match reply with
      | .error err =>
          refine ⟨fun h => absurd h List.not_mem_nil, ?_⟩
          rintro ⟨session', ttl', hc, hfault, hdeadline, -⟩
          cases hc
          obtain ⟨id, hid⟩ := sessionCreate_ok.mpr ⟨hfault, hdeadline⟩
          rw [hid] at hreply
          cases hreply
      | .ok id =>
          obtain ⟨hfault, hdeadline⟩ := sessionCreate_ok.mp ⟨id, hreply⟩
          change x ∈ [(⟨e.token, session.userId, s.state.now + 1000 * ttl⟩ : Creation)] ↔ _
          rw [List.mem_singleton]
          constructor
          · exact fun hx => ⟨session, ttl, rfl, hfault, hdeadline, hx⟩
          · rintro ⟨session', ttl', hc, -, -, hx⟩
            cases hc
            exact hx
  | _ =>
      refine ⟨fun h => absurd h List.not_mem_nil, ?_⟩
      rintro ⟨session, ttl, hc, -⟩
      cases hc

/-- The id of a session that was created was drawn. -/
theorem drawn_of_mem_creations {x : Creation} (hx : x ∈ s.creations) : Drawn s x.id := by
  unfold State.creations at hx
  unfold Drawn
  generalize s.state.now = now at hx
  generalize s.log = log at hx ⊢
  induction log with
  | nil => cases hx
  | cons ev rest ih =>
      have hlater : x ∈ creationsUntil now rest → ∃ ev' ∈ ev :: rest,
          x.id ∈ ev'.command.drawn ev'.choice := fun hx => by
        obtain ⟨ev', hmem, hdrawn⟩ := ih hx
        exact ⟨ev', List.mem_cons_of_mem _ hmem, hdrawn⟩
      obtain ⟨l, e, c, r⟩ := ev
      cases c with
      | sessionCreate session ttl =>
          match r with
          | .error err => exact hlater hx
          | .ok id =>
              rcases List.mem_cons.mp hx with rfl | hx
              · exact ⟨_, List.mem_cons_self, List.mem_singleton_self _⟩
              · exact hlater hx
      | _ => exact hlater hx

end Creations

/-! ## When a deletion closes an account -/

/-- The empty key stands on the blacklist until then. -/
def Covered (ends : Nat) (s : State) : Prop :=
  ∃ t ∈ s.state.cached .blacklist "", t.value = true ∧ ∃ d ∈ t.deadline, ends ≤ d

/-- Each session of the user has ended, is in neither store, or ends before cookies are let
through again. -/
def Shut (userId : Uuid) (s : State) : Prop :=
  ∀ x ∈ s.creations, x.userId = userId → s.state.now < x.ends →
    Covered x.ends s ∨ s.state.Absent x.id

/-- The step gives the user no session, and a session of theirs that it caches is in Redis; a
session that ends before cookies are let through again does not count. -/
def Closes (userId : Uuid) (e : Choice) (c : Cmd) (s : State) : Prop :=
  match c with
  | .sessionCreate session ttl =>
      session.userId = userId → e.fault = .none → Covered (s.state.now + 1000 * ttl) s
  | .sessionCachePut id _ => ∀ x ∈ s.creations, x.id = id → x.userId = userId →
      s.state.now < x.ends → Covered x.ends s ∨ (s.state.sessions.get s.state.now id).isSome
  | _ => True

/-- When the row of a user is deleted, no session of theirs is left, and none comes afterwards. -/
def DeletionOk : Condition Choice Call Cmd State := fun i k s₀ e c s =>
  NeverRepeats i k s₀ e c s ∧ (∀ userId ∈ s.deleted, Closes userId e c s) ∧
    match c with
    | .deleteUser userId => e.fault = .none → (s.state.userById userId).isSome → Shut userId s
    | _ => True

instance (ends : Nat) (s : State) : Decidable (Covered ends s) :=
  inferInstanceAs (Decidable (∃ t ∈ _, _ ∧ ∃ d ∈ _, _))

instance (userId : Uuid) (s : State) : Decidable (Shut userId s) :=
  inferInstanceAs (Decidable (∀ x ∈ _, _ → _ → _))

instance (userId : Uuid) (e : Choice) (c : Cmd) (s : State) :
    Decidable (Closes userId e c s) := by
  unfold Closes
  induction c using Cmd.casesOn <;> infer_instance

instance (i : Nat) (k : Call) (s₀ : State) (e : Choice) (c : Cmd) (s : State) :
    Decidable (DeletionOk i k s₀ e c s) := by
  unfold DeletionOk
  induction c using Cmd.casesOn <;> infer_instance

section Shut

variable {auth : AuthService} {i : Nat} {e : Choice} {c : Cmd} {s : State} {userId : Uuid}

theorem Covered.step {ends : Nat} (h : Covered ends s) (hbounded : Bounded auth s)
    (htame : c.Tame auth) : Covered ends (exec i e c s).2 := by
  obtain ⟨t, ht, hvalue, d, hd, hle⟩ := h
  rcases (World.exec_effect e c s.state).blacklist htame "" with hold | hnew
  · exact ⟨t, hold.trans ht, hvalue, d, hd, hle⟩
  · obtain ⟨-, d', hd', hbound⟩ := hbounded "" t ht
    obtain rfl := Option.some.inj (hd.symm.trans hd')
    exact ⟨_, hnew, rfl, _, rfl, by omega⟩

theorem Shut.step (h : Shut userId s) (hfresh : ∀ key ∈ c.drawn e, ¬ Drawn s key)
    (hcloses : Closes userId e c s) (hbounded : Bounded auth s) (htame : c.Tame auth) :
    Shut userId (exec i e c s).2 := by
  have heffect := World.exec_effect e c s.state
  have hnow : s.state.now ≤ (exec i e c s).2.state.now := heffect.now_le
  intro x hx huser hlive
  rcases mem_creations_step.mp hx with hold | ⟨session, ttl, rfl, hfault, -, rfl⟩
  · rcases h x hold huser (by omega) with hcovered | ⟨hredis, hcache⟩
    · exact .inl (hcovered.step hbounded htame)
    · have hleft : (exec i e c s).2.state.sessions.get (exec i e c s).2.state.now x.id = none := by
        rcases heffect.live hredis with hnone | ⟨session, ttl, rfl, hid⟩
        · exact hnone
        · exact absurd (drawn_of_mem_creations hold) (hfresh x.id (List.mem_singleton.mpr hid.symm))
      by_cases hlookup : (exec i e c s).2.state.sessionCache.lookup x.id = none
      · exact .inr ⟨hleft, hlookup⟩
      · obtain ⟨entry, hentry⟩ := Option.ne_none_iff_exists'.mp hlookup
        rcases heffect.sessionCache hentry with hcached | rfl
        · rw [hcache] at hcached
          cases hcached
        · rcases hcloses x hold rfl huser (by omega) with hcovered | hredis'
          · exact .inl (hcovered.step hbounded htame)
          · rw [hredis] at hredis'
            cases hredis'
  · exact .inl ((hcloses huser hfault).step hbounded htame)

/-- A row that was deleted was there. -/
theorem deleteUser_ok {rows : Nat}
    (h : (World.exec e (.deleteUser userId) s.state).1 = .ok rows) (hrows : 0 < rows) : e.fault = .none ∧ (s.state.userById userId).isSome := by
  change (s.state.answerDb e.fault (.ok (s.state.deleteUser userId).1, _)).1 = .ok rows at h
  cases hfault : e.fault with
  | none =>
      rw [hfault] at h
      refine ⟨rfl, ?_⟩
      have hcount : 0 < s.state.users.countP fun user => user.id = userId := by
        rw [← Except.ok.inj h] at hrows
        exact hrows
      obtain ⟨user, hmem, hid⟩ := List.countP_pos_iff.mp hcount
      exact List.find?_isSome.mpr ⟨user, hmem, hid⟩
  | refused message =>
      rw [hfault] at h
      cases h
  | lost message =>
      rw [hfault] at h
      cases h

theorem mem_deleted_step (h : userId ∈ (exec i e c s).2.deleted) : userId ∈ s.deleted ∨
    (c = .deleteUser userId ∧ e.fault = .none ∧ (s.state.userById userId).isSome) := by
  unfold State.deleted at h
  rw [exec, Exec.recorded_log, List.filterMap_append, List.mem_append] at h
  refine h.imp_right fun hnew => ?_
  obtain ⟨ev, hev, hfound⟩ := List.mem_filterMap.mp hnew
  obtain rfl := List.mem_singleton.mp hev
  generalize hreply : (World.exec e c s.state).1 = reply at hfound
  cases c with
  | deleteUser other =>
      cases reply with
      | error err => cases hfound
      | ok rows =>
          dsimp only at hfound
          split_ifs at hfound with hrows
          obtain rfl := Option.some.inj hfound
          exact ⟨rfl, deleteUser_ok hreply hrows⟩
  | _ => cases hfound

/-- What holds in every state: an account that was deleted is shut. -/
def Secured (auth : AuthService) (s : State) : Prop :=
  Bounded auth s ∧ ∀ userId ∈ s.deleted, Shut userId s

theorem Secured.step {k : Call} {s₀ : State} (h : Secured auth s)
    (hok : DeletionOk i k s₀ e c s) (htame : c.Tame auth) : Secured auth (exec i e c s).2 := by
  refine ⟨h.1.step htame, fun userId hdeleted => ?_⟩
  rcases mem_deleted_step hdeleted with hold | ⟨rfl, hfault, huser⟩
  · exact (h.2 userId hold).step hok.1 (hok.2.1 userId hold) h.1 htame
  · exact (hok.2.2 hfault huser).step hok.1 trivial h.1 htame

variable {cfg : Config Call Cmd Reply State Outcome}

theorem reach_secured
    (h : Reach (api auth) (fun s => s.log = [] ∧ Bounded auth s) DeletionOk cfg) :
    Secured auth cfg.shared := by
  induction h with
  | @initial s hs =>
      refine ⟨hs.2, fun userId hdeleted => ?_⟩
      change userId ∈ s.deleted at hdeleted
      unfold State.deleted at hdeleted
      rw [hs.1] at hdeleted
      cases hdeleted
  | start k _ ih => exact ih
  | resume h htask hprog hok ih =>
      have htree := (h.issued rfl (fun s hs => hs.1) tame_call).1 _ (List.mem_of_getElem? htask)
      rw [hprog] at htree
      exact ih.step hok htree.1

/-- A deletion that succeeds has deleted the row. -/
theorem deleteAccount_deletes {user : AuthUser} {events : List (Event Choice Cmd Reply)}
    {response : Response}
    (h : (deleteAccount auth user).run.Follows events (.ret (.ok response))) :
    ∃ l e rows, 0 < rows ∧
      (⟨l, e, .deleteUser user.userId, .ok rows⟩ : Event Choice Cmd Reply) ∈ events := by
  unfold deleteAccount at h
  obtain ⟨listed, later₁, _, hevents, -, h₁⟩ := h.returned
  obtain ⟨destroyed, later₂, _, hlater₁, -, h₂⟩ := h₁.returned
  obtain ⟨noted, later₃, _, hlater₂, -, h₃⟩ := h₂.returned
  obtain ⟨deleting, later₄, rows, hlater₃, hdelete, h₄⟩ := h₃.returned
  obtain ⟨_, _, _, -, hfound, -⟩ := h₄.returned
  have hrows : 0 < rows := by
    have hpassed := Program.ret.inj hfound.of_ret.2
    by_contra hzero
    rw [Nat.eq_zero_of_not_pos hzero] at hpassed
    cases hpassed
  have hcmd : Program.Follows (.cmd (.deleteUser user.userId) fun r => .ret (r.mapError
      fun _ => ApiError.internalError "Failed to delete account")) deleting (.ret (.ok rows)) :=
    hdelete
  rcases hcmd.of_cmd with ⟨-, hret⟩ | ⟨l, e, r, rest, rfl, hrest⟩
  · cases hret
  · match r with
    | .error err => cases hrest.of_ret.2
    | .ok found =>
        obtain rfl : rows = found := Except.ok.inj (Program.ret.inj hrest.of_ret.2)
        refine ⟨l, e, rows, hrows, ?_⟩
        rw [hevents, hlater₁, hlater₂, hlater₃]
        simp

/-- A request that was served has been through its handler. -/
theorem follows_behindAuth {req : Request} {handler : AuthUser → Handler} {user : AuthUser}
    {result : Except ApiError Response} {events : List (Event Choice Cmd Reply)}
    (h : (behindAuth auth req handler).Follows events (.ret (.served user result))) :
    ∃ later, later <:+ events ∧ (handler user).run.Follows later (.ret result) := by
  obtain ⟨before, later, passage, rfl, -, hlater⟩ := h.of_bind_ret
  match passage with
  | .forbidden => cases hlater.of_ret.2
  | .next none => cases hlater.of_ret.2
  | .next (some user') =>
      obtain ⟨handling, rest, result', rfl, hhandler, hret⟩ := hlater.of_bind_ret
      obtain ⟨rfl, hsame⟩ := hret.of_ret
      cases hsame
      rw [List.append_nil]
      exact ⟨handling, List.suffix_append _ _, hhandler⟩

/-- The user of a deletion that succeeds is among the deleted. -/
theorem deleted_of_returned {init : State → Prop} {ok : Condition Choice Call Cmd State}
    (h : Reach (api auth) init ok cfg) (hinit : ∀ s, init s → s.log = [])
    {t : Task Call Cmd Reply State Outcome} {req : Request} {user : AuthUser}
    {response : Response} (ht : cfg.Returned i t (.served user (.ok response)))
    (hcall : t.call = .deleteAccount req) : user.userId ∈ cfg.shared.deleted := by
  have hfollows := h.follows rfl hinit ht.1
  rw [ht.2, hcall] at hfollows
  obtain ⟨later, hsuffix, hlater⟩ := follows_behindAuth hfollows
  obtain ⟨l, e, rows, hrows, hmem⟩ := deleteAccount_deletes hlater
  have hlog := (Recorded.mem_eventsOf.mp (hsuffix.subset hmem)).1
  exact List.mem_filterMap.mpr ⟨_, hlog, if_pos hrows⟩

/-! A deletion by cookie shuts every account for a while. -/

/-- No session ends later than an entry of the blacklist that is written now. -/
def Timely (auth : AuthService) (s : State) : Prop :=
  ∀ x ∈ s.creations, x.ends ≤ s.state.now + 1000 * auth.config.jwtExpiry.toNat

theorem Timely.step (h : Timely auth s) (htame : c.Tame auth) :
    Timely auth (exec i e c s).2 := by
  have hnow : s.state.now ≤ (exec i e c s).2.state.now :=
    (World.exec_effect e c s.state).now_le
  intro x hx
  rcases mem_creations_step.mp hx with hold | ⟨session, ttl, rfl, -, -, rfl⟩
  · have := h x hold
    omega
  · obtain rfl : ttl = auth.config.jwtExpiry.toNat := htame
    dsimp only
    omega

theorem reach_timely {ok : Condition Choice Call Cmd State}
    (h : Reach (api auth) (fun s => s.log = []) ok cfg) : Timely auth cfg.shared := by
  induction h with
  | @initial s hs =>
      intro x hx
      change x ∈ creationsUntil s.state.now s.log at hx
      rw [hs] at hx
      cases hx
  | start k _ ih => exact ih
  | resume h htask hprog _ ih =>
      have htree := (h.issued rfl (fun s hs => hs) tame_call).1 _ (List.mem_of_getElem? htask)
      rw [hprog] at htree
      exact ih.step htree.1

/-- Once the empty key is on the blacklist, all sessions that exist end before it is let through
again. -/
theorem Timely.shut (h : Timely auth s)
    (hlisted : (exec i e (.set .blacklist "" true auth.config.jwtExpiry.toNat) s).1 = .ok ())
    (userId : Uuid) :
    Shut userId (exec i e (.set .blacklist "" true auth.config.jwtExpiry.toNat) s).2 := by
  obtain ⟨hfault, hset⟩ := World.answer_ok hlisted
  intro x hx _ _
  rcases mem_creations_step.mp hx with hold | ⟨_, _, hc, -⟩
  · refine .inl ⟨⟨true, some (s.state.now + 1000 * auth.config.jwtExpiry.toNat)⟩, ?_, rfl, _, rfl,
      h x hold⟩
    simp only [exec, Exec.recorded_state, World.exec, hfault, World.answer_none, World.set] at hset ⊢
    cases hdeadline : deadline s.state.now auth.config.jwtExpiry.toNat with
    | none =>
        rw [hdeadline] at hset
        cases hset
    | some d =>
        obtain ⟨-, -, rfl⟩ := deadline_eq_some.mp hdeadline
        dsimp only
        rw [World.setCached_self, Store.set_self]
        exact Option.mem_some_self _
  · cases hc

end Shut

namespace Sample

/-- Alice registers and deletes her account; the steps are those of the deletion. -/
def deletion (req : Request) (steps : Nat) : List (Label Choice Call) :=
  registration ++ .start (.deleteAccount req) :: List.replicate steps (.step 1 .calm)

/-- A deletion by the access token. -/
def bearerDeletion : Request := ⟨.delete, "/auth/me", bearer "alice.token"⟩

/-- A deletion by the session cookie. -/
def cookieDeletion : Request :=
  ⟨.delete, "/auth/me",
    { cookies "session=s-1; csrf_token=csrf" with csrf := some "csrf" }⟩

def aliceRecord : Session := ⟨alice, "alice@example.com", none, "local", 0⟩

def aliceVisit : Request := ⟨.get, "/auth/me", cookies "session=s-1"⟩

end Sample

open Sample

end FullStackHex
