import FullStackHex.Cache.SessionRuns

/-!
Calls of `session_destroy_all_for_user` for one user that overlap. All of them
rename the set of the user to one temporary key, so a call can overwrite or delete
a list that another one has yet to read. Where none does, every session of the set
has left Redis once all calls have returned that overlap.
-/

namespace FullStackHex

open Concurrent Expiring

/-! ## What a call has taken upon itself -/

/-- A call that has renamed the set still has to read it, and the sessions that a
call has read it still has to delete. -/
structure Duty where
  moving : Bool
  holding : List String
  deriving DecidableEq

def Duty.none : Duty := ⟨false, []⟩

def Duty.after (u : Uuid) (d : Duty) : Event Choice Cmd Reply → Duty
  | ⟨_, _, .renameSessions v, .ok _⟩ => if v = u then { d with moving := true } else d
  | ⟨_, _, .destroyingMembers v, reply⟩ => if v = u then ⟨false, reply.toOption.getD []⟩ else d
  | ⟨_, _, .delSessions _, _⟩ => { d with holding := [] }
  | _ => d

/-- The duty of task `i` towards user `u`. -/
def State.duty (s : State) (u : Uuid) (i : Nat) : Duty :=
  (s.eventsOf i).foldl (Duty.after u) .none

/-- What the event read from the temporary key of the user. -/
def idsRead (u : Uuid) : Event Choice Cmd Reply → List String
  | ⟨_, _, .destroyingMembers v, reply⟩ => if v = u then reply.toOption.getD [] else []
  | _ => []

/-- A call has read that the session is to be deleted. -/
def Read (u : Uuid) (s : State) (sessionId : String) : Prop :=
  ∃ ev ∈ s.log, sessionId ∈ idsRead u ev

/-- What the temporary key of the user lists, expired or not. -/
def World.renamed (w : World) (u : Uuid) : List String :=
  ((w.destroying u).map Timed.value).getD []

/-- The session is in Redis, stands under the temporary key, and no call has read it. -/
def Unread (u : Uuid) (s : State) (sessionId : String) : Prop :=
  sessionId ∈ s.state.renamed u ∧ (s.state.sessions.get s.state.now sessionId).isSome ∧
    ¬ Read u s sessionId

/-- Only commands of a destruction for `u` change a duty towards `u`. -/
def Cmd.Destroys (u : Uuid) (c : Cmd) : Prop := c = .renameSessions u ∨ c = .destroyingMembers u

section Events

variable {u : Uuid} {i j : Nat} {e : Choice} {c : Cmd} {s : State}

theorem duty_self : (exec i e c s).2.duty u i
    = (s.duty u i).after u ⟨i, e, c, (exec i e c s).1⟩ := by
  unfold State.duty
  rw [exec, Exec.recorded_eventsOf_self, List.foldl_append]
  rfl

theorem duty_of_newcomer (h : s.eventsOf i = []) : s.duty u i = .none := by
  unfold State.duty
  rw [h]
  rfl

theorem duty_ne (h : j ≠ i) : (exec j e c s).2.duty u i = s.duty u i := by
  unfold State.duty
  rw [exec, Exec.recorded_eventsOf_ne h]

theorem duty_none_of_plain {ev : Event Choice Cmd Reply} (h : ¬ ev.command.Destroys u) :
    Duty.none.after u ev = .none := by
  obtain ⟨i, e, c, r⟩ := ev
  cases c with
  | renameSessions v =>
      have hv : v ≠ u := fun hv => h (Or.inl (by rw [hv]))
      cases r with
      | error err => rfl
      | ok x => simp [Duty.after, hv]
  | destroyingMembers v =>
      have hv : v ≠ u := fun hv => h (Or.inr (by rw [hv]))
      simp [Duty.after, hv]
  | _ => rfl

theorem moving_after {d : Duty} {r : Reply c}
    (h : (d.after u ⟨i, e, c, r⟩).moving = true) :
    d.moving = true ∨ c = .renameSessions u := by
  cases c with
  | renameSessions v =>
      by_cases hv : v = u
      · exact Or.inr (by rw [hv])
      · cases r with
        | error err => exact Or.inl h
        | ok x => exact Or.inl (by simpa [Duty.after, hv] using h)
  | destroyingMembers v =>
      by_cases hv : v = u
      · simp [Duty.after, hv] at h
      · exact Or.inl (by simpa [Duty.after, hv] using h)
  | _ => exact Or.inl h

theorem moving_kept {d : Duty} {r : Reply c} (h : d.moving = true)
    (hc : c ≠ .destroyingMembers u) : (d.after u ⟨i, e, c, r⟩).moving = true := by
  cases c with
  | renameSessions v =>
      cases r with
      | error err => exact h
      | ok x =>
          unfold Duty.after
          dsimp only
          split
          · rfl
          · exact h
  | destroyingMembers v =>
      have hv : v ≠ u := fun hv => hc (by rw [hv])
      simpa [Duty.after, hv] using h
  | _ => exact h

theorem holding_kept {d : Duty} {r : Reply c} {id : String} (h : id ∈ d.holding)
    (hc : c ≠ .destroyingMembers u) (hdel : ∀ ids, c ≠ .delSessions ids) :
    id ∈ (d.after u ⟨i, e, c, r⟩).holding := by
  cases c with
  | renameSessions v =>
      cases r with
      | error err => exact h
      | ok x =>
          unfold Duty.after
          dsimp only
          split <;> exact h
  | destroyingMembers v =>
      have hv : v ≠ u := fun hv => hc (by rw [hv])
      simpa [Duty.after, hv] using h
  | delSessions ids => exact absurd rfl (hdel ids)
  | _ => exact h

/-- Who reads the temporary key holds what it read. -/
theorem holding_of_read {d : Duty} {r : Reply c} {id : String}
    (h : id ∈ idsRead u ⟨i, e, c, r⟩) : id ∈ (d.after u ⟨i, e, c, r⟩).holding := by
  cases c with
  | destroyingMembers v =>
      simp only [idsRead] at h
      split_ifs at h with hv
      · simpa [Duty.after, hv] using h
      · cases h
  | _ => cases h

/-- Who has a duty has issued one of these commands. -/
theorem duty_cause (h : s.duty u i ≠ .none) :
    ∃ ev ∈ s.log, ev.task = i ∧ ev.command.Destroys u := by
  by_contra hnone
  refine h ?_
  unfold State.duty
  have hplain : ∀ ev ∈ s.eventsOf i, ¬ ev.command.Destroys u := by
    intro ev hev hdestroys
    obtain ⟨hlog, htask⟩ := Recorded.mem_eventsOf.mp hev
    exact hnone ⟨ev, hlog, htask, hdestroys⟩
  generalize s.eventsOf i = events at hplain
  induction events with
  | nil => rfl
  | cons ev rest ih =>
      rw [List.foldl_cons, duty_none_of_plain (hplain ev (List.mem_cons_self ..))]
      exact ih fun other hother => hplain other (List.mem_cons_of_mem _ hother)

theorem read_step {id : String} : Read u (exec i e c s).2 id ↔
    Read u s id ∨ id ∈ idsRead u ⟨i, e, c, (exec i e c s).1⟩ := by
  unfold Read
  simp only [exec, Exec.recorded_log, Exec.recorded_reply, List.mem_append, List.mem_singleton,
    or_and_right, exists_or, exists_eq_left]

theorem idsRead_exec {id : String} (h : id ∈ idsRead u ⟨i, e, c, (exec i e c s).1⟩) :
    c = .destroyingMembers u ∧ id ∈ s.state.renamed u := by
  cases c with
  | destroyingMembers v =>
      simp only [idsRead] at h
      split_ifs at h with hv
      · subst hv
        refine ⟨rfl, ?_⟩
        cases hreply : (exec i e (.destroyingMembers v) s).1 with
        | error err =>
            rw [hreply] at h
            cases h
        | ok ids =>
            rw [hreply] at h
            have hget := Except.ok.inj (World.answer_ok hreply).2
            cases hraw : s.state.destroying.get s.state.now v with
            | none =>
                rw [hraw] at hget
                subst hget
                cases h
            | some members =>
                obtain ⟨t, ht, _, rfl⟩ := Store.get_eq_some.mp hraw
                rw [hraw] at hget
                subst hget
                simpa [World.renamed, ht, Except.toOption] using h
      · cases h
  | _ => cases h

end Events

/-! ## What a step can do to the list -/

/-- What the temporary key lists comes from the set, or goes with the key. -/
theorem World.Effect.destroying {e : Choice} {w w' : World} {c : Cmd} (h : Effect e w c w')
    (u : Uuid) : w'.destroying u = w.destroying u ∨
      (c = .renameSessions u ∧ ∃ t, w.userSessions.entry w.now u = some t ∧
        w'.destroying u = some t) ∨
      (c = .delDestroying u ∧ w'.destroying u = none) := by
  cases h with
  | same h => exact Or.inl (by rw [h.destroying])
  | rename v t ht =>
      by_cases hv : u = v
      · subst hv
        exact Or.inr (Or.inl ⟨rfl, t, ht, Store.set_self _ _ _⟩)
      · exact Or.inl (Store.set_ne hv)
  | delDestroying v =>
      by_cases hv : u = v
      · subst hv
        exact Or.inr (Or.inr ⟨rfl, Store.del_self _ _⟩)
      · exact Or.inl (Store.del_ne hv)
  | _ => exact Or.inl rfl

/-- Steps at which no list is lost: where the set is renamed, every session that the
call is to destroy is in the set or has been taken out of it by another call, and no
unread list is overwritten; an unread list does not expire and is not deleted. -/
def KeepsLists (u : Uuid) : Condition Choice SessionCall Cmd State := fun i k s₀ e c s =>
  Healthy i k s₀ e c s ∧
    match c with
    | .renameSessions v => v = u →
        (∀ id ∈ k.targets s₀, s.state.sessions.get s.state.now id = none ∨ Read u s id ∨
          id ∈ s.state.members u ∨ id ∈ s.state.renamed u) ∧
        ((s.state.userSessions.get s.state.now u).isSome = true →
          ∀ id ∈ s.state.renamed u, ¬ Unread u s id)
    | .destroyingMembers v => v = u →
        (s.state.destroying.get s.state.now u).isSome = true ∨
          ∀ id ∈ s.state.renamed u, ¬ Unread u s id
    | .delDestroying v => v = u → ∀ id ∈ s.state.renamed u, ¬ Unread u s id
    | _ => True

/-- What a call for `u` keeps to: it reads the temporary key only after it has
renamed the set, and deletes all that it has read. -/
def Dutiful (u : Uuid) (i : Nat) (c : Cmd) (s : State) : Prop :=
  match c with
  | .renameSessions v => v = u → s.duty u i = .none
  | .destroyingMembers v => v = u → s.duty u i = ⟨true, []⟩
  | .delSessions ids => ∀ id ∈ (s.duty u i).holding, id ∈ ids
  | _ => True

/-- Every unread session is awaited by a call, and every session that was read and
is still there is held by one. -/
structure Accounted (u : Uuid) (s : State) : Prop where
  listed : ∀ t id, s.state.userSessions u = some t → id ∈ t.value → Named s id
  renamed : ∀ id ∈ s.state.renamed u, Named s id
  read : ∀ id, Read u s id → Named s id
  mover : ∀ id, Unread u s id → ∃ m, (s.duty u m).moving = true
  holder : ∀ id, Read u s id → (s.state.sessions.get s.state.now id).isSome = true →
    ∃ m, id ∈ (s.duty u m).holding

section Step

variable {u : Uuid} {i : Nat} {k : SessionCall} {s₀ : State} {e : Choice} {c : Cmd} {s : State}

/-- A known session that is there after a step was there before it. -/
theorem live_before {id : String} (hnamed : Named s id) (hfresh : Fresh e c s)
    (h : ((exec i e c s).2.state.sessions.get (exec i e c s).2.state.now id).isSome = true) :
    (s.state.sessions.get s.state.now id).isSome = true := by
  by_contra hnone
  rw [Bool.not_eq_true, Option.isSome_eq_false_iff, Option.isNone_iff_eq_none] at hnone
  have hleft : Left id s := ⟨hnamed, hnone⟩
  rw [(hleft.step (i := i) hfresh).2] at h
  cases h

/-- RENAME succeeds where the set is there. -/
theorem rename_reply (hfault : e.fault = .none)
    (hset : (s.state.userSessions.get s.state.now u).isSome = true) :
    (exec i e (.renameSessions u) s).1 = .ok () := by
  cases hentry : s.state.userSessions.entry s.state.now u with
  | none => simp [Store.get, hentry] at hset
  | some t =>
      simp only [exec, Exec.recorded_reply, World.exec, hfault, World.answer_none,
        World.renameSessions, hentry]

/-- A session that is unread after a step was so before it, unless the step has
renamed the set. -/
theorem unread_step (h : Accounted u s) (hok : KeepsLists u i k s₀ e c s) {id : String}
    (hunread : Unread u (exec i e c s).2 id) :
    Unread u s id ∨ (c = .renameSessions u ∧ id ∈ s.state.members u ∧
      (s.state.userSessions.get s.state.now u).isSome = true) := by
  obtain ⟨hmem, hlive, hread⟩ := hunread
  have hnotread : ¬ Read u s id := fun h => hread (read_step.mpr (Or.inl h))
  rcases (World.exec_effect e c s.state).destroying u with hsame | ⟨rfl, t, ht, hnew⟩ | ⟨rfl, hnone⟩
  · have hmem' : id ∈ s.state.renamed u := by
      unfold World.renamed at *
      rwa [← hsame]
    exact Or.inl ⟨hmem', live_before (h.renamed id hmem') hok.1.2 hlive, hnotread⟩
  · refine Or.inr ⟨rfl, ?_, ?_⟩
    · have : (exec i e (.renameSessions u) s).2.state.destroying u = some t := hnew
      simp only [World.renamed, this, Option.map_some, Option.getD_some] at hmem
      simpa [World.members, Store.get, ht] using hmem
    · simp [Store.get, ht]
  · have : (exec i e (.delDestroying u) s).2.state.destroying u = none := hnone
    simp [World.renamed, this] at hmem

/-- Reading the temporary key leaves nothing unread. -/
theorem unread_of_read (hok : KeepsLists u i k s₀ e (.destroyingMembers u) s) {id : String}
    (h : Unread u s id) :
    id ∈ idsRead u ⟨i, e, .destroyingMembers u, (exec i e (.destroyingMembers u) s).1⟩ := by
  rcases hok.2 rfl with halive | hnone
  · cases hget : s.state.destroying.get s.state.now u with
    | none => simp [hget] at halive
    | some ids =>
        obtain ⟨t, ht, _, rfl⟩ := Store.get_eq_some.mp hget
        have hmem := h.1
        simp only [World.renamed, ht, Option.map_some, Option.getD_some] at hmem
        simpa [idsRead, exec, World.exec, hok.1.1, hget, Except.toOption] using hmem
  · exact absurd h (hnone id h.1)

/-- A session that a call holds is gone when the call has deleted what it holds. -/
theorem dead_of_delSessions {ids : List String} {id : String} (hfault : e.fault = .none)
    (hid : id ∈ ids) :
    (exec i e (.delSessions ids) s).2.state.sessions.get
      (exec i e (.delSessions ids) s).2.state.now id = none := by
  have hids : ids ≠ [] := List.ne_nil_of_mem hid
  simp only [exec, Exec.recorded_state, World.exec, hfault, World.answer_none,
    World.delSessions, if_neg hids]
  rw [Store.get_eq_none]
  intro t ht
  exact absurd hid (Store.foldl_del_eq_some.mp ht).1

theorem holder_step (hok : KeepsLists u i k s₀ e c s)
    (hguar : Dutiful u i c s) {id : String} {m : Nat} (hnamed : Named s id)
    (hm : id ∈ (s.duty u m).holding) :
    Left id (exec i e c s).2 ∨ id ∈ ((exec i e c s).2.duty u m).holding := by
  by_cases hmi : i = m
  · subst hmi
    by_cases hdel : ∃ ids, c = .delSessions ids
    · obtain ⟨ids, rfl⟩ := hdel
      exact Or.inl ⟨hnamed.step, dead_of_delSessions hok.1.1 (hguar id hm)⟩
    · refine Or.inr ?_
      rw [duty_self]
      refine holding_kept hm (fun hc => ?_) fun ids hc => hdel ⟨ids, hc⟩
      subst hc
      rw [hguar rfl] at hm
      cases hm
  · rw [duty_ne hmi]
    exact Or.inr hm

theorem Accounted.step (h : Accounted u s) (hok : KeepsLists u i k s₀ e c s)
    (hguar : Dutiful u i c s) : Accounted u (exec i e c s).2 := by
  have heffect := World.exec_effect e c s.state
  have hrenamed : ∀ id ∈ (exec i e c s).2.state.renamed u, Named s id := by
    intro id hid
    rcases heffect.destroying u with hsame | ⟨rfl, t, ht, hnew⟩ | ⟨rfl, hnone⟩
    · refine h.renamed id ?_
      unfold World.renamed at *
      rwa [← hsame]
    · have : (exec i e (.renameSessions u) s).2.state.destroying u = some t := hnew
      simp only [World.renamed, this, Option.map_some, Option.getD_some] at hid
      exact h.listed t id (Store.entry_eq_some.mp ht).1 hid
    · have : (exec i e (.delDestroying u) s).2.state.destroying u = none := hnone
      simp [World.renamed, this] at hid
  have hread : ∀ id, Read u (exec i e c s).2 id → Named s id := by
    intro id hid
    rcases read_step.mp hid with hold | hnew
    · exact h.read id hold
    · exact h.renamed id (idsRead_exec hnew).2
  constructor
  · intro t id ht hid
    rcases heffect.userSessions ht hid with ⟨t', hold, hmem⟩ | ⟨session, ttl, rfl, _, rfl⟩
    · exact (h.listed t' id hold hmem).step
    · exact named_step.mpr (Or.inr (Or.inr (List.mem_singleton_self _)))
  · exact fun id hid => (hrenamed id hid).step
  · exact fun id hid => (hread id hid).step
  · intro id hunread
    rcases unread_step h hok hunread with hold | ⟨rfl, _, hset⟩
    · obtain ⟨m, hm⟩ := h.mover id hold
      refine ⟨m, ?_⟩
      by_cases hmi : i = m
      · subst hmi
        rw [duty_self]
        refine moving_kept hm fun hc => ?_
        subst hc
        exact hunread.2.2 (read_step.mpr (Or.inr (unread_of_read hok hold)))
      · rwa [duty_ne hmi]
    · refine ⟨i, ?_⟩
      rw [duty_self, rename_reply hok.1.1 hset]
      simp [Duty.after]
  · intro id hid hlive
    have hbefore := live_before (hread id hid) hok.1.2 hlive
    rcases read_step.mp hid with hold | hnew
    · obtain ⟨m, hm⟩ := h.holder id hold hbefore
      rcases holder_step hok hguar (h.read id hold) hm with hleft | hkept
      · rw [hleft.2] at hlive
        cases hlive
      · exact ⟨m, hkept⟩
    · refine ⟨i, ?_⟩
      rw [duty_self]
      exact holding_of_read hnew

end Step

/-! ## What a call leaves behind -/

/-- Task `m` is task `i`, or had done something before task `i` did. -/
def Early (s : State) (m i : Nat) : Prop := m = i ∨ s.Before m i

/-- A session that task `i` was to destroy has left Redis, or will be read or deleted
by a call that began before task `i` was done. -/
def Owed (u : Uuid) (i : Nat) (id : String) (s : State) : Prop :=
  Named s id ∧ (s.state.sessions.get s.state.now id = none ∨
    (Unread u s id ∧ ∀ m, (s.duty u m).moving = true → Early s m i) ∨
    ∃ m, id ∈ (s.duty u m).holding ∧ Early s m i)

/-- A destruction of the sessions of `u` has no duties left when it returns, and all
that it was to destroy is owed by a call that began before that. -/
def destroyContract (u : Uuid) : Contract Choice SessionCall Cmd State SessionResult where
  ok i k s₀ e c s := KeepsLists u i k s₀ e c s ∧ s₀.eventsOf i = []
  inv := Accounted u
  guar := Dutiful u
  post i k s₀ _ s := (s₀.eventsOf i = [] → s.duty u i = .none) ∧
    (k = .destroyAllForUser u → ∀ id ∈ s₀.state.members u, Owed u i id s)

theorem Early.step {m i j : Nat} {e : Choice} {c : Cmd} {s : State} (h : Early s m i) :
    Early (exec j e c s).2 m i := h.imp_right Recorded.Before.step

theorem Owed.preserved (u : Uuid) (i : Nat) (id : String) :
    Preserved exec (destroyContract u) (Owed u i id) := by
  intro j k s₀ e c s hinv hok hguar h
  obtain ⟨hnamed, hcases⟩ := h
  refine ⟨hnamed.step, ?_⟩
  rcases hcases with hdead | ⟨hunread, hearly⟩ | ⟨m, hm, hearly⟩
  · have hleft : Left id s := ⟨hnamed, hdead⟩
    exact Or.inl (hleft.step hok.1.1.2).2
  · by_cases hlive : ((exec j e c s).2.state.sessions.get
        (exec j e c s).2.state.now id).isSome = true
    · refine Or.inr ?_
      rcases (World.exec_effect e c s.state).destroying u with hsame | ⟨rfl, t, ht, _⟩ | ⟨rfl, _⟩
      · by_cases hread : id ∈ idsRead u ⟨j, e, c, (exec j e c s).1⟩
        · -- the session was unread, and who reads it has been moving
          refine Or.inr ⟨j, ?_, ?_⟩
          · rw [duty_self]
            exact holding_of_read hread
          · obtain ⟨rfl, _⟩ := idsRead_exec hread
            exact (hearly j (by rw [hguar rfl])).step
        · refine Or.inl ⟨⟨?_, hlive, fun h => ?_⟩, fun m hm => ?_⟩
          · have hmem := hunread.1
            unfold World.renamed at *
            have : (exec j e c s).2.state.destroying u = s.state.destroying u := hsame
            rwa [this]
          · exact (read_step.mp h).elim hunread.2.2 hread
          · by_cases hmj : j = m
            · subst hmj
              rw [duty_self] at hm
              rcases moving_after hm with hold | rfl
              · exact (hearly j hold).step
              · -- the set is not there, or the list would be overwritten
                cases hset : s.state.userSessions.get s.state.now u with
                | none =>
                    refine (hearly j ?_).step
                    have hentry : s.state.userSessions.entry s.state.now u = none := by
                      simpa [Store.get] using hset
                    simpa [exec, World.exec, hok.1.1.1, World.renameSessions, hentry,
                      Duty.after] using hm
                | some ids =>
                    exact absurd hunread ((hok.1.2 rfl).2 (by rw [hset]; rfl) id hunread.1)
            · rw [duty_ne hmj] at hm
              exact (hearly m hm).step
      · exact absurd hunread ((hok.1.2 rfl).2 (by simp [Store.get, ht]) id hunread.1)
      · exact absurd hunread (hok.1.2 rfl id hunread.1)
    · rw [Bool.not_eq_true, Option.isSome_eq_false_iff, Option.isNone_iff_eq_none] at hlive
      exact Or.inl hlive
  · rcases holder_step hok.1 hguar hnamed hm with hleft | hkept
    · exact Or.inl hleft.2
    · exact Or.inr (Or.inr ⟨m, hkept, hearly.step⟩)

section Outlines

variable {u : Uuid} {i : Nat} {k : SessionCall} {s₀ : State}

/-- Who has a duty towards `u` when task `i` does something has done something before. -/
theorem early_of_duty {e : Choice} {c : Cmd} {s : State} {m : Nat} (h : s.duty u m ≠ .none) :
    Early (exec i e c s).2 m i := by
  obtain ⟨ev, hmem, rfl, _⟩ := duty_cause h
  exact Or.inr (Recorded.Before.of_mem hmem)

theorem owed_of_rename {e : Choice} {s : State} (hinv : Accounted u s)
    (hok : KeepsLists u i k s₀ e (.renameSessions u) s) {id : String}
    (hid : id ∈ k.targets s₀) (hnamed : Named s id) :
    Owed u i id (exec i e (.renameSessions u) s).2 := by
  refine ⟨hnamed.step, ?_⟩
  by_cases hlive : ((exec i e (.renameSessions u) s).2.state.sessions.get
      (exec i e (.renameSessions u) s).2.state.now id).isSome = true
  · have hbefore := live_before hnamed hok.1.2 hlive
    have hmover : ∀ m, ((exec i e (.renameSessions u) s).2.duty u m).moving = true →
        Early (exec i e (.renameSessions u) s).2 m i := by
      intro m hm
      by_cases hmi : i = m
      · exact Or.inl hmi.symm
      · rw [duty_ne hmi] at hm
        exact early_of_duty (u := u) fun hnone => by simp [hnone, Duty.none] at hm
    by_cases hread : Read u s id
    · obtain ⟨m, hm⟩ := hinv.holder id hread hbefore
      refine Or.inr (Or.inr ⟨m, ?_, early_of_duty (u := u) fun hnone => ?_⟩)
      · by_cases hmi : i = m
        · subst hmi
          rw [duty_self]
          exact holding_kept hm (fun h => nomatch h) fun _ h => nomatch h
        · rwa [duty_ne hmi]
      · simp [hnone, Duty.none] at hm
    · have hnotread : ¬ Read u (exec i e (.renameSessions u) s).2 id :=
        fun h => (read_step.mp h).elim hread fun hnew => nomatch hnew
      refine Or.inr (Or.inl ⟨⟨?_, hlive, hnotread⟩, hmover⟩)
      cases hentry : s.state.userSessions.entry s.state.now u with
      | some t =>
          have hset : (s.state.userSessions.get s.state.now u).isSome = true := by
            simp [Store.get, hentry]
          have hmem : id ∈ t.value := by
            rcases (hok.2 rfl).1 id hid with hdead | hread' | hlisted | hrenamed
            · rw [hdead] at hbefore
              cases hbefore
            · exact absurd hread' hread
            · simpa [World.members, Store.get, hentry] using hlisted
            · exact absurd ⟨hrenamed, hbefore, hread⟩ ((hok.2 rfl).2 hset id hrenamed)
          simpa [World.renamed, exec, World.exec, hok.1.1, World.renameSessions, hentry] using hmem
      | none =>
          have hmem : id ∈ s.state.renamed u := by
            rcases (hok.2 rfl).1 id hid with hdead | hread' | hlisted | hrenamed
            · rw [hdead] at hbefore
              cases hbefore
            · exact absurd hread' hread
            · simp [World.members, Store.get, hentry] at hlisted
            · exact hrenamed
          simpa [World.renamed, exec, World.exec, hok.1.1, World.renameSessions, hentry] using hmem
  · rw [Bool.not_eq_true, Option.isSome_eq_false_iff, Option.isNone_iff_eq_none] at hlive
    exact Or.inl hlive

theorem duty_stable (d : Duty) :
    Stable exec (destroyContract u) i fun s => s.duty u i = d :=
  Stable.eventsOf fun events => events.foldl (Duty.after u) .none = d

/-- The assertion of a call whose duty is `d`, once it has renamed the set. -/
theorem Owed.stable (d : Duty) : Stable exec (destroyContract u) i fun s =>
    s.duty u i = d ∧ ∀ id ∈ s₀.state.members u, Owed u i id s :=
  (duty_stable d).and (Stable.all fun id => Stable.imp fun _ => (Owed.preserved u i id).stable)

theorem outline_destroyAll (u : Uuid) :
    Outline exec (destroyContract u) i (.destroyAllForUser u) s₀ (sessionDestroyAllForUser u)
      (fun s => s.eventsOf i = s₀.eventsOf i ∧ ∀ id ∈ s₀.state.members u, Named s id)
      fun _ s => s.duty u i = .none ∧ ∀ id ∈ s₀.state.members u, Owed u i id s := by
  have hkept : ∀ {e : Choice} {c : Cmd} {s : State}, Accounted u s →
      (destroyContract u).ok i (.destroyAllForUser u) s₀ e c s → Dutiful u i c s →
      (∀ id ∈ s₀.state.members u, Owed u i id s) →
      ∀ id ∈ s₀.state.members u, Owed u i id (exec i e c s).2 := by
    intro e c s hinv hok hguar hs id hid
    exact Owed.preserved u i id i _ s₀ e c s hinv hok hguar (hs id hid)
  rw [sessionDestroyAllForUser_run]
  -- RENAME
  refine Outline.step
    (fun renamed s => s.duty u i = ⟨renamed.isOk, []⟩ ∧
      ∀ id ∈ s₀.state.members u, Owed u i id s) (fun _ => Owed.stable _) ?_ ?_
  · intro e s hinv hs hok
    have hnone : s.duty u i = .none := duty_of_newcomer (hs.1.trans hok.2)
    refine ⟨fun _ => hnone, ?_, fun id hid => owed_of_rename hinv hok.1 hid (hs.2 id hid)⟩
    rw [duty_self, hnone]
    cases (exec i e (.renameSessions u) s).1 with
    | error err => rfl
    | ok x => simp [Duty.after, Duty.none, Except.isOk, Except.toBool]
  · intro renamed
    cases renamed with
    | error err => exact Outline.ret fun s _ hs => hs
    | ok x =>
        -- SMEMBERS
        refine Outline.step
          (fun members s => s.duty u i = ⟨false, members.toOption.getD []⟩ ∧
            ∀ id ∈ s₀.state.members u, Owed u i id s) (fun _ => Owed.stable _) ?_ fun members => ?_
        · intro e s hinv hs hok
          have hguar : Dutiful u i (.destroyingMembers u) s := fun _ => hs.1
          refine ⟨hguar, ?_, hkept hinv hok hguar hs.2⟩
          rw [duty_self]
          simp [Duty.after]
        -- DEL of the temporary key
        refine Outline.step
          (fun _ s => s.duty u i = ⟨false, members.toOption.getD []⟩ ∧
            ∀ id ∈ s₀.state.members u, Owed u i id s) (fun _ => Owed.stable _) ?_ fun _ => ?_
        · intro e s hinv hs hok
          refine ⟨trivial, ?_, hkept hinv hok trivial hs.2⟩
          rw [duty_self, hs.1]
          rfl
        -- DEL of the sessions
        refine Outline.step
          (fun _ s => s.duty u i = .none ∧ ∀ id ∈ s₀.state.members u, Owed u i id s)
          (fun _ => Owed.stable _) ?_ fun _ => ?_
        · intro e s hinv hs hok
          have hguar : Dutiful u i (.delSessions (members.toOption.getD [])) s := by
            intro id hid
            rwa [hs.1] at hid
          refine ⟨hguar, ?_, hkept hinv hok hguar hs.2⟩
          rw [duty_self, hs.1]
          rfl
        -- the cache
        refine Outline.step
          (fun _ s => s.duty u i = .none ∧ ∀ id ∈ s₀.state.members u, Owed u i id s)
          (fun _ => Owed.stable _) ?_ fun _ => Outline.ret fun s _ hs => hs
        intro e s hinv hs hok
        refine ⟨trivial, ?_, hkept hinv hok trivial hs.2⟩
        rw [duty_self, hs.1]
        rfl

/-- A call that is no destruction for `u` has no duty towards `u`. -/
theorem outline_idle {β : Type} {p : Action β} (h : p.All fun c => ¬ c.Destroys u) :
    Outline exec (destroyContract u) i k s₀ p
      (fun s => s.duty u i = s₀.duty u i) fun _ s => s.duty u i = s₀.duty u i := by
  refine Outline.keep (duty_stable _) (h.mono fun c hc e s _ hs hok => ?_)
  have hnone : s₀.duty u i = .none := duty_of_newcomer hok.2
  refine ⟨?_, ?_⟩
  · cases c with
    | renameSessions v =>
        intro hv
        exact absurd (Or.inl (by rw [hv])) hc
    | destroyingMembers v =>
        intro hv
        exact absurd (Or.inr (by rw [hv])) hc
    | delSessions ids =>
        intro id hid
        rw [hs, hnone] at hid
        cases hid
    | _ => trivial
  · rw [duty_self, hs, hnone]
    exact duty_none_of_plain hc

end Outlines

theorem destroys_run (userId u : Uuid) : (sessionDestroyAllForUser userId).All
    fun c => c.Destroys u → userId = u := by
  have hplain : ∀ c : Cmd, (∀ v, c ≠ .renameSessions v) → (∀ v, c ≠ .destroyingMembers v) →
      c.Destroys u → userId = u :=
    fun c h₁ h₂ hc => hc.elim (fun h => absurd h (h₁ u)) fun h => absurd h (h₂ u)
  rw [sessionDestroyAllForUser_run]
  refine ⟨fun h => ?_, fun renamed => ?_⟩
  · rcases h with h | h
    · exact Cmd.renameSessions.inj h
    · cases h
  · cases renamed with
    | error err => trivial
    | ok x =>
        refine ⟨fun h => ?_, fun members => ?_⟩
        · rcases h with h | h
          · cases h
          · exact Cmd.destroyingMembers.inj h
        · exact ⟨hplain _ (fun _ h => nomatch h) (fun _ h => nomatch h), fun _ =>
            ⟨hplain _ (fun _ h => nomatch h) (fun _ h => nomatch h), fun _ =>
              ⟨hplain _ (fun _ h => nomatch h) (fun _ h => nomatch h), fun _ => trivial⟩⟩⟩

/-- Only a destruction for `u` issues its commands. -/
theorem destroys_call (u : Uuid) (k : SessionCall) :
    k.body.All fun c => c.Destroys u → k = .destroyAllForUser u := by
  have hplain : ∀ c : Cmd, (∀ v, c ≠ .renameSessions v) → (∀ v, c ≠ .destroyingMembers v) →
      c.Destroys u → k = .destroyAllForUser u :=
    fun c h₁ h₂ hc => hc.elim (fun h => absurd h (h₁ u)) fun h => absurd h (h₂ u)
  cases k with
  | destroyAllForUser userId =>
      refine Program.All.bind ((destroys_run userId u).mono fun c h hc => ?_) fun _ => trivial
      rw [h hc]
  | create session ttl =>
      exact ⟨hplain _ (fun _ h => nomatch h) (fun _ h => nomatch h), fun _ => trivial⟩
  | pass ms =>
      exact ⟨hplain _ (fun _ h => nomatch h) (fun _ h => nomatch h), fun _ => trivial⟩
  | destroy sessionId =>
      refine Program.All.bind (q := (sessionDestroy sessionId).run) ?_ fun _ => trivial
      rw [sessionDestroy_run]
      refine ⟨hplain _ (fun _ h => nomatch h) (fun _ h => nomatch h), fun destroyed => ?_⟩
      cases destroyed with
      | error err => trivial
      | ok x => exact ⟨hplain _ (fun _ h => nomatch h) (fun _ h => nomatch h), fun _ => trivial⟩
  | get sessionId =>
      refine Program.All.bind (q := (sessionGet sessionId).run) ?_ fun _ => trivial
      rw [sessionGet_run]
      refine ⟨hplain _ (fun _ h => nomatch h) (fun _ h => nomatch h), fun cached => ?_⟩
      cases cached with
      | some session => trivial
      | none =>
          refine ⟨hplain _ (fun _ h => nomatch h) (fun _ h => nomatch h), fun found => ?_⟩
          match found with
          | .error err => trivial
          | .ok none => trivial
          | .ok (some session) =>
              exact ⟨hplain _ (fun _ h => nomatch h) (fun _ h => nomatch h), fun _ => trivial⟩

/-- The session store before anything has happened. -/
def Blank (s : State) : Prop :=
  s.log = [] ∧ s.state.userSessions = .empty ∧ s.state.destroying = .empty

theorem Blank.accounted {s : State} (u : Uuid) (h : Blank s) : Accounted u s where
  listed t id ht := by
    rw [h.2.1] at ht
    cases ht
  renamed id hid := by
    rw [World.renamed, h.2.2] at hid
    cases hid
  read id hid := by
    obtain ⟨ev, hmem, _⟩ := hid
    simp [h.1] at hmem
  mover id hid := by
    have hmem := hid.1
    rw [World.renamed, h.2.2] at hmem
    cases hmem
  holder id hid := by
    obtain ⟨ev, hmem, _⟩ := hid
    simp [h.1] at hmem

theorem destroyContract_holds (u : Uuid) : (destroyContract u).Holds sessionSystem Blank where
  inv_init _ h := h.accounted u
  inv_step i k s₀ e c s hinv hok hguar := hinv.step hok.1 hguar
  post_stable i k s₀ a := by
    refine (Stable.imp fun _ => duty_stable _).and (Stable.imp fun _ => ?_)
    exact Stable.all fun id => Stable.imp fun _ => (Owed.preserved u i id).stable
  body i k s₀ hinv := by
    by_cases hk : k = .destroyAllForUser u
    · subst hk
      refine ⟨fun s => s.eventsOf i = s₀.eventsOf i ∧ ∀ id ∈ s₀.state.members u, Named s id,
        (Stable.eventsOf fun events => events = s₀.eventsOf i).and (Stable.all fun id =>
          Stable.imp fun _ => (Named.preserved id).stable), ⟨rfl, fun id hid => ?_⟩, ?_⟩
      · obtain ⟨t, ht, hmem⟩ := get_members hid
        exact hinv.listed t id ht hmem
      · exact Outline.bind (outline_destroyAll u) fun _ => Outline.ret fun s _ hs =>
          ⟨fun _ => hs.1, fun _ => hs.2⟩
    · refine ⟨fun s => s.duty u i = s₀.duty u i, duty_stable _, rfl, ?_⟩
      refine (outline_idle ((destroys_call u k).mono fun c hc h => hk (hc h))).mono
        (fun _ _ h => h) fun a s _ hs => ⟨fun hnone => ?_, fun h => absurd h hk⟩
      rw [hs, duty_of_newcomer hnone]

/-- Once a destruction for `u`, and every other one that began before it was done, has
returned, no session is in Redis that the set of `u` listed when it began. -/
def ClearsListed (u : Uuid) (cfg : Config SessionCall Cmd Reply State SessionResult) : Prop :=
  ∀ i t a, cfg.Returned i t a → t.call = .destroyAllForUser u →
    (∀ j t', cfg.tasks[j]? = some t' → t'.call = .destroyAllForUser u → t'.began ≤ t.last →
      ∃ b, cfg.Returned j t' b) →
    ∀ id ∈ t.before.state.members u,
      cfg.shared.state.sessions.get cfg.shared.state.now id = none

/-- In every run in which no list is lost, overlapping destructions for one user
delete all the sessions that they found. -/
theorem destructions_clear (u : Uuid)
    {cfg : Config SessionCall Cmd Reply State SessionResult}
    (h : Reach sessionSystem Blank (KeepsLists u) cfg) : ClearsListed u cfg := by
  have hempty : ∀ s, Blank s → s.log = [] := fun s hs => hs.1
  have hsound := (destroyContract_holds u).sound (h.newcomers rfl hempty)
  have hchronicled := h.chronicled rfl hempty
  have hissued := (h.issued rfl hempty (destroys_call u)).2
  intro i t a ht hcall hall id hid
  -- a call that began before and still has a duty has not returned
  have hidle : ∀ m, Early cfg.shared m i → cfg.shared.duty u m = .none := by
    intro m hearly
    rcases hearly with rfl | hbefore
    · exact (hsound.post ht).1 (hchronicled.newcomer ht.1)
    · by_contra hduty
      obtain ⟨ev, hmem, rfl, hdestroys⟩ := duty_cause hduty
      obtain ⟨t', ht'⟩ : ∃ t', cfg.tasks[ev.task]? = some t' :=
        ⟨_, List.getElem?_eq_getElem (hchronicled.task ev hmem)⟩
      have hbegan : t'.began ≤ t.last := hchronicled.began_of_before ht.1 ht' hbefore
      obtain ⟨b, hb⟩ := hall _ t' ht' (hissued ev hmem t' ht' hdestroys) hbegan
      exact hduty ((hsound.post hb).1 (hchronicled.newcomer ht'))
  have howed := (hsound.post ht).2 hcall id hid
  rcases howed.2 with hdead | ⟨hunread, hearly⟩ | ⟨m, hm, hearly⟩
  · exact hdead
  · obtain ⟨m, hm⟩ := hsound.inv.mover id hunread
    rw [hidle m (hearly m hm)] at hm
    cases hm
  · rw [hidle m hearly] at hm
    cases hm

instance (u : Uuid) (s : State) (id : String) : Decidable (Read u s id) :=
  inferInstanceAs (Decidable (∃ ev ∈ s.log, _))

instance (u : Uuid) (s : State) (id : String) : Decidable (Unread u s id) :=
  inferInstanceAs (Decidable (_ ∧ _ ∧ _))

instance (u : Uuid) (i : Nat) (k : SessionCall) (s₀ : State) (e : Choice) (c : Cmd)
    (s : State) : Decidable (KeepsLists u i k s₀ e c s) := by
  induction c using Cmd.casesOn with
  | renameSessions v =>
      exact inferInstanceAs (Decidable (_ ∧ (_ → (∀ id ∈ _, _) ∧ (_ → ∀ id ∈ _, _))))
  | destroyingMembers v => exact inferInstanceAs (Decidable (_ ∧ (_ → _ ∨ ∀ id ∈ _, _)))
  | delDestroying v => exact inferInstanceAs (Decidable (_ ∧ (_ → ∀ id ∈ _, _)))
  | _ => exact inferInstanceAs (Decidable (_ ∧ True))

namespace Sample

/-- Two destructions and a login in between; the second one renames the new set
before or after the first one has read what it renamed. -/
def overlapping (late : Bool) : List (Label Choice SessionCall) :=
  [.start (.create session 900), .step 0 (drawing "s-1"),
    .start (.destroyAllForUser session.userId), .step 1 .calm,
    .start (.create session 900), .step 2 (drawing "s-2"),
    .start (.destroyAllForUser session.userId)] ++
  (if late then [.step 1 .calm, .step 3 .calm] else [.step 3 .calm, .step 1 .calm]) ++
  [.step 3 .calm, .step 1 .calm, .step 3 .calm, .step 1 .calm, .step 3 .calm,
    .step 1 .calm, .step 3 .calm]

end Sample

/-- The command was answered with an error. -/
def failed : Event Choice Cmd Reply → Bool
  | ⟨_, _, .sessionCreate _ _, .error _⟩ | ⟨_, _, .renameSessions _, .error _⟩
  | ⟨_, _, .destroyingMembers _, .error _⟩ | ⟨_, _, .delDestroying _, .error _⟩
  | ⟨_, _, .delSessions _, .error _⟩ => true
  | _ => false

open Sample

/-- A call overwrites the list that another one has renamed and not yet read. No
command fails, and the session of that list survives both. -/
theorem overwritten_list_survives :
    ∃ cfg, Reach sessionSystem Blank Healthy cfg ∧
      (∀ ev ∈ cfg.shared.log, failed ev = false) ∧ ¬ ClearsListed session.userId cfg := by
  have hrun : (((Config.initial (State.initial 0 [])).followIf sessionSystem Healthy
      (overlapping false)).filter fun cfg =>
        (∀ ev ∈ cfg.shared.log, failed ev = false) ∧
        (∀ t ∈ cfg.tasks, t.program.result?.isSome = true) ∧
        (∃ t ∈ cfg.tasks[1]?, "s-1" ∈ t.before.state.members session.userId) ∧
        (cfg.shared.state.sessions.get cfg.shared.state.now "s-1").isSome = true).map
        (fun cfg => cfg.summary[1]?)
      = some (some (.destroyAllForUser session.userId, 2, 14, some .done)) := by
    decide
  obtain ⟨cfg, hfilter, hsummary⟩ := Option.map_eq_some_iff.mp hrun
  obtain ⟨hfollow, hfacts⟩ := Option.filter_eq_some_iff.mp hfilter
  obtain ⟨hfailed, hdone, hlisted, hlive⟩ := of_decide_eq_true hfacts
  obtain ⟨t, ht, htcall, _⟩ := cfg.returned_of_summary hsummary
  refine ⟨cfg, Reach.of_followIf (.initial ⟨rfl, rfl, rfl⟩) hfollow, hfailed, fun h => ?_⟩
  have hid : "s-1" ∈ t.before.state.members session.userId := by
    obtain ⟨t', ht', hmem⟩ := hlisted
    rw [ht.1] at ht'
    cases ht'
    exact hmem
  rw [h 1 t _ ht htcall (fun j t' ht' _ _ => ?_) "s-1" hid] at hlive
  · cases hlive
  · obtain ⟨b, hb⟩ := Option.isSome_iff_exists.mp (hdone t' (List.mem_of_getElem? ht'))
    exact ⟨b, ht', (Program.result?_eq_some _ _).mp hb⟩

/-- Two destructions that overlap without harm. -/
theorem destructions_clear_both : ∃ cfg,
    cfg.summary = [(.create session 900, 0, 1, some (.created (.ok "s-1"))),
      (.destroyAllForUser session.userId, 2, 14, some .done),
      (.create session 900, 4, 5, some (.created (.ok "s-2"))),
      (.destroyAllForUser session.userId, 6, 15, some .done)] ∧
    ClearsListed session.userId cfg := by
  have hrun : ((Config.initial (State.initial 0 [])).followIf sessionSystem
      (KeepsLists session.userId) (overlapping true)).map Config.summary
      = some [(.create session 900, 0, 1, some (.created (.ok "s-1"))),
        (.destroyAllForUser session.userId, 2, 14, some .done),
        (.create session 900, 4, 5, some (.created (.ok "s-2"))),
        (.destroyAllForUser session.userId, 6, 15, some .done)] := by
    decide
  obtain ⟨cfg, hfollow, hsummary⟩ := Option.map_eq_some_iff.mp hrun
  exact ⟨cfg, hsummary, destructions_clear session.userId
    (Reach.of_followIf (.initial ⟨rfl, rfl, rfl⟩) hfollow)⟩

end FullStackHex
