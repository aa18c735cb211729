import FullStackHex.Runs
import FullStackHex.Cache.Session

/-!
The session store under any interleaving of its calls. The store and the cache
in the process are written in separate steps, so a session that was destroyed
can come back: a lookup that read it before may still put it into the cache.
-/

namespace FullStackHex

open Concurrent Expiring

/-- Neither store has the session. -/
def World.Absent (w : World) (sessionId : String) : Prop :=
  w.sessions.get w.now sessionId = none ∧ w.sessionCache.lookup sessionId = none

/-- The session is known and neither store has it. -/
def Gone (sessionId : String) (s : State) : Prop :=
  Named s sessionId ∧ s.state.Absent sessionId

/-- What is stored was created: by whom is read from the log. -/
structure Consistent (s : State) : Prop where
  stored : ∀ id t, s.state.sessions id = some t → Issued s t.value.userId id
  cached : ∀ id entry, s.state.sessionCache.lookup id = some entry →
    Issued s entry.2.userId id
  listed : ∀ u t id, s.state.userSessions u = some t → id ∈ t.value → Issued s u id
  unique : ∀ u v id, Issued s u id → Issued s v id → u = v

/-- A session that a step puts into the cache was created. -/
def Honest (c : Cmd) (s : State) : Prop :=
  ∀ id session, c = .sessionCachePut id session → Issued s session.userId id

/-- A step that caches a session finds it in Redis still. -/
def PutsLive (c : Cmd) (s : State) : Prop :=
  ∀ id session, c = .sessionCachePut id session →
    (s.state.sessions.get s.state.now id).isSome

/-! ## What a step can add to the stores -/

section Step

variable {e : Choice} {w w' : World} {c : Cmd}

/-- A session in Redis was there before the step, or the step created it. -/
theorem World.Effect.sessions (h : Effect e w c w') {id : String} {t : Timed Session}
    (ht : w'.sessions id = some t) :
    w.sessions id = some t ∨
    (∃ ttl, c = .sessionCreate t.value ttl ∧ e.token = id ∧
      deadline w.now ttl = t.deadline) ∨
    ∃ ttl t', c = .sessionExpire id ttl ∧ w.sessions.entry w.now id = some t' ∧
      t'.value = t.value := by
  cases h with
  | same h => exact Or.inl (h.sessions ▸ ht)
  | create session ttl d hd =>
      rcases Store.set_eq_some.mp ht with ⟨rfl, rfl⟩ | ⟨_, hold⟩
      · exact Or.inr (Or.inl ⟨ttl, rfl, rfl, hd⟩)
      · exact Or.inl hold
  | destroy other => exact Or.inl (Store.del_eq_some.mp ht).2
  | expireNow other _ => exact Or.inl (Store.del_eq_some.mp ht).2
  | extend other ttl d old hd hold =>
      rcases Store.set_eq_some.mp ht with ⟨rfl, rfl⟩ | ⟨_, hkept⟩
      · exact Or.inr (Or.inr ⟨ttl, old, rfl, hold, rfl⟩)
      · exact Or.inl hkept
  | delSessions ids hids => exact Or.inl (Store.foldl_del_eq_some.mp ht).2
  | _ => exact Or.inl ht

theorem World.Effect.sessions_value (h : Effect e w c w') {id : String} {t : Timed Session}
    (ht : w'.sessions id = some t) :
    (∃ t', w.sessions id = some t' ∧ t'.value = t.value) ∨
      ∃ ttl, c = .sessionCreate t.value ttl ∧ e.token = id := by
  rcases h.sessions ht with hold | ⟨ttl, hc, hid, _⟩ | ⟨_, t', _, hentry, hvalue⟩
  · exact Or.inl ⟨t, hold, rfl⟩
  · exact Or.inr ⟨ttl, hc, hid⟩
  · exact Or.inl ⟨t', (Store.entry_eq_some.mp hentry).1, hvalue⟩

/-- Only its creation makes a session live. -/
theorem World.Effect.live (h : Effect e w c w') {id : String}
    (hnone : w.sessions.get w.now id = none) :
    w'.sessions.get w'.now id = none ∨ ∃ session ttl, c = .sessionCreate session ttl ∧
      e.token = id := by
  by_contra hnot
  rw [not_or] at hnot
  obtain ⟨v, hget⟩ := Option.ne_none_iff_exists'.mp hnot.1
  obtain ⟨t, ht, hlive, rfl⟩ := Store.get_eq_some.mp hget
  have hlive' := Timed.alive_of_le h.now_le hlive
  rcases h.sessions ht with hold | ⟨ttl, hc, hid, _⟩ | ⟨_, t', _, hentry, _⟩
  · rw [Store.get_eq_none.mp hnone t hold] at hlive'
    cases hlive'
  · exact hnot.2 ⟨t.value, ttl, hc, hid⟩
  · obtain ⟨hold, hlive'⟩ := Store.entry_eq_some.mp hentry
    rw [Store.get_eq_none.mp hnone t' hold] at hlive'
    cases hlive'

/-- A cached session was cached before the step, or the step caches it. -/
theorem World.Effect.sessionCache (h : Effect e w c w') {id : String} {entry : Nat × Session}
    (hentry : w'.sessionCache.lookup id = some entry) :
    w.sessionCache.lookup id = some entry ∨ c = .sessionCachePut id entry.2 := by
  cases h with
  | same h => exact Or.inl (h.sessionCache ▸ hentry)
  | cacheErase other hc => exact Or.inl (Table.lookup_erase_of_some hentry).2
  | cachePut other session =>
      simp only [World.sessionCachePut] at hentry
      by_cases hid : id = other
      · subst hid
        rw [AList.lookup_insert] at hentry
        cases hentry
        exact Or.inr rfl
      · rw [AList.lookup_insert_ne hid] at hentry
        split_ifs at hentry
        · cases hentry
        · exact Or.inl hentry
  | cacheRetain userId => exact Or.inl (Table.lookup_retain.mp hentry).1
  | _ => exact Or.inl hentry

/-- A member of a user's set was one before the step, or the step created it. -/
theorem World.Effect.userSessions (h : Effect e w c w') {u : Uuid} {t : Timed (List String)}
    {id : String} (ht : w'.userSessions u = some t) (hid : id ∈ t.value) :
    (∃ t', w.userSessions u = some t' ∧ id ∈ t'.value) ∨
      ∃ session ttl, c = .sessionCreate session ttl ∧ session.userId = u ∧ e.token = id := by
  cases h with
  | same h => exact Or.inl ⟨t, h.userSessions ▸ ht, hid⟩
  | create session ttl d hd =>
      rcases Store.set_eq_some.mp ht with ⟨rfl, rfl⟩ | ⟨_, hold⟩
      · rcases List.mem_insert_iff.mp hid with rfl | hmem
        · exact Or.inr ⟨session, ttl, rfl, rfl, rfl⟩
        · cases hget : w.userSessions.get w.now session.userId with
          | none => simp [hget] at hmem
          | some ids =>
              obtain ⟨t', ht', _, rfl⟩ := Store.get_eq_some.mp hget
              exact Or.inl ⟨t', ht', by simpa [hget] using hmem⟩
      · exact Or.inl ⟨t, hold, hid⟩
  | destroy other =>
      simp only [World.sessionDestroy] at ht
      cases hget : w.sessions.get w.now other with
      | none =>
          rw [hget] at ht
          exact Or.inl ⟨t, ht, hid⟩
      | some session =>
          rw [hget] at ht
          exact Or.inl (srem_mem ht hid)
  | rename userId moved hmoved => exact Or.inl ⟨t, (Store.del_eq_some.mp ht).2, hid⟩
  | _ => exact Or.inl ⟨t, ht, hid⟩

end Step

theorem Consistent.step {i : Nat} {e : Choice} {c : Cmd} {s : State} (h : Consistent s)
    (hfresh : Fresh e c s) (hput : Honest c s) : Consistent (exec i e c s).2 := by
  have heffect := World.exec_effect e c s.state
  constructor
  · intro id t ht
    rcases heffect.sessions_value ht with ⟨t', hold, hvalue⟩ | ⟨ttl, hc, hid⟩
    · exact hvalue ▸ (h.stored id t' hold).step
    · exact issued_step.mpr (Or.inr ⟨hid, t.value, ttl, hc, rfl⟩)
  · intro id entry hentry
    rcases heffect.sessionCache hentry with hold | hc
    · exact (h.cached id entry hold).step
    · exact (hput id entry.2 hc).step
  · intro u t id ht hid
    rcases heffect.userSessions ht hid with ⟨t', hold, hmem⟩ | ⟨session, ttl, hc, hu, htoken⟩
    · exact (h.listed u t' id hold hmem).step
    · exact issued_step.mpr (Or.inr ⟨htoken, session, ttl, hc, hu⟩)
  · intro u v id hu hv
    -- a fresh id was not issued before, so both come from one event
    have hnew : ∀ {a b : Uuid} {session : Session} {ttl : Nat}, Issued s a id →
        e.token = id → c = .sessionCreate session ttl → a = b := by
      intro a b session ttl hold htoken hc
      subst hc
      exact absurd (htoken ▸ hold.named) (hfresh e.token (List.mem_singleton_self _))
    rcases issued_step.mp hu with hu | ⟨htu, su, tu, hcu, rfl⟩
    · rcases issued_step.mp hv with hv | ⟨htv, sv, tv, hcv, rfl⟩
      · exact h.unique u v id hu hv
      · exact hnew hu htv hcv
    · rcases issued_step.mp hv with hv | ⟨htv, sv, tv, hcv, rfl⟩
      · exact (hnew hv htu hcu).symm
      · rw [hcu] at hcv
        cases hcv
        rfl

/-! ## Assertions about calls in flight -/

section Rules

variable {κ α : Type} {K : Contract Choice κ Cmd State α} {i : Nat} {k : κ} {s₀ : State}

/-- What the rules below ask of a contract: draws are fresh, and a session that
a step puts into the cache was created and is in Redis still. -/
structure Careful (K : Contract Choice κ Cmd State α) : Prop where
  consistent : ∀ s, K.inv s → Consistent s
  fresh : ∀ i k s₀ e c s, K.ok i k s₀ e c s → Fresh e c s
  putsLive : ∀ i k s₀ e c s, K.ok i k s₀ e c s → PutsLive c s
  honest : ∀ i c s, K.guar i c s → Honest c s

/-- The session is known and has left Redis. -/
def Left (sessionId : String) (s : State) : Prop :=
  Named s sessionId ∧ s.state.sessions.get s.state.now sessionId = none

theorem Left.step {e : Choice} {c : Cmd} {s : State} {sessionId : String}
    (h : Left sessionId s) (hfresh : Fresh e c s) :
    Left sessionId (exec i e c s).2 := by
  refine ⟨h.1.step, ?_⟩
  rcases (World.exec_effect e c s.state).live h.2 with hnone | ⟨session, ttl, rfl, rfl⟩
  · exact hnone
  · exact absurd h.1 (hfresh e.token (List.mem_singleton_self _))

/-- What is gone stays gone, as long as no step caches a session that has left Redis. -/
theorem Gone.step {e : Choice} {c : Cmd} {s : State} {sessionId : String}
    (h : Gone sessionId s) (hfresh : Fresh e c s) (hput : PutsLive c s) :
    Gone sessionId (exec i e c s).2 := by
  have hleft : Left sessionId s := ⟨h.1, h.2.1⟩
  refine ⟨h.1.step, (hleft.step hfresh).2, ?_⟩
  by_contra hsome
  obtain ⟨entry, hentry⟩ := Option.ne_none_iff_exists'.mp hsome
  rcases (World.exec_effect e c s.state).sessionCache hentry with hold | hc
  · rw [h.2.2] at hold
    cases hold
  · have hlive := hput sessionId entry.2 hc
    rw [h.2.1] at hlive
    cases hlive

theorem Left.preserved (hK : Careful K) (sessionId : String) :
    Preserved exec K (Left sessionId) := by
  intro j k s₀ e c s _ hok _ h
  exact h.step (hK.fresh j k s₀ e c s hok)

theorem Gone.preserved (hK : Careful K) (sessionId : String) :
    Preserved exec K (Gone sessionId) := by
  intro j k s₀ e c s _ hok _ h
  exact h.step (hK.fresh j k s₀ e c s hok) (hK.putsLive j k s₀ e c s hok)

theorem Left.stable (hK : Careful K) (sessionId : String) :
    Stable exec K i (Left sessionId) := (Left.preserved hK sessionId).stable

theorem Gone.stable (hK : Careful K) (sessionId : String) :
    Stable exec K i (Gone sessionId) := (Gone.preserved hK sessionId).stable

/-- The commands that look one session up or destroy it. -/
def Cmd.OnSession : Cmd → Prop
  | .sessionCacheGet _ | .sessionGet _ | .sessionCachePut _ _ | .sessionDestroy _
  | .sessionCacheRemove _ => True
  | _ => False

theorem World.sessionCacheGet_hit {w : World} {sessionId : String} {session : Session}
    (h : (w.sessionCacheGet sessionId).1 = some session) :
    ∃ expiry, w.sessionCache.lookup sessionId = some (expiry, session) := by
  unfold sessionCacheGet at h
  split at h
  · rename_i expiry found hlookup
    split_ifs at h
    · cases h
      exact ⟨expiry, hlookup⟩
  · cases h

theorem World.sessionGet_hit {e : Choice} {w : World} {sessionId : String} {session : Session}
    (h : (World.exec e (.sessionGet sessionId) w).1 = .ok (some session)) :
    w.sessions.get w.now sessionId = some session :=
  Except.ok.inj (World.answer_ok h).2

theorem sessionGet_run (sessionId : String) : (sessionGet sessionId).run =
    .cmd (.sessionCacheGet sessionId) fun cached =>
      match cached with
      | some session => .ret (.ok session)
      | none => .cmd (.sessionGet sessionId) fun found =>
          match found with
          | .error err => .ret (.error err)
          | .ok none => .ret (.error .sessionNotFound)
          | .ok (some session) =>
              .cmd (.sessionCachePut sessionId session) fun _ => .ret (.ok session) := by
  refine congrArg (Program.cmd (R := Reply) (Cmd.sessionCacheGet sessionId)) (funext fun cached => ?_)
  cases cached with
  | some session => rfl
  | none =>
      refine congrArg (Program.cmd (R := Reply) (Cmd.sessionGet sessionId)) (funext fun found => ?_)
      match found with
      | .error err => rfl
      | .ok none => rfl
      | .ok (some session) => rfl

/-- A lookup returns a session that was created, and none that was gone before. -/
theorem outline_sessionGet (hK : Careful K)
    (hguar : ∀ c s, c.OnSession → Honest c s → K.guar i c s) (sessionId : String) (p : Prop) :
    Outline exec K i k s₀ (sessionGet sessionId).run
      (fun s => p → Gone sessionId s)
      (fun r s => ∀ session, r = .ok session → ¬ p ∧ Issued s session.userId sessionId) := by
  have hgone : Stable exec K i fun s => p → Gone sessionId s :=
    Stable.imp fun _ => Gone.stable hK sessionId
  have hfound : ∀ session : Session, Stable exec K i fun s =>
      ¬ p ∧ Issued s session.userId sessionId :=
    fun session => (Stable.const _).and (Issued.stable _ _)
  rw [sessionGet_run]
  refine Outline.step
    (fun cached s => cached.elim (p → Gone sessionId s)
      fun session => ¬ p ∧ Issued s session.userId sessionId) ?_ ?_ ?_
  · intro cached
    cases cached with
    | none => exact hgone
    | some session => exact hfound session
  · intro e s hinv hs hok
    have hnext : p → Gone sessionId (exec i e (.sessionCacheGet sessionId) s).2 :=
      fun hp => (hs hp).step (hK.fresh i k s₀ e _ s hok) (hK.putsLive i k s₀ e _ s hok)
    refine ⟨hguar _ s trivial (fun _ _ h => nomatch h), ?_⟩
    cases hreply : (exec i e (.sessionCacheGet sessionId) s).1 with
    | none => exact hnext
    | some session =>
        obtain ⟨expiry, hlookup⟩ := World.sessionCacheGet_hit hreply
        refine ⟨fun hp => ?_, ?_⟩
        · rw [(hs hp).2.2] at hlookup
          cases hlookup
        · exact ((hK.consistent s hinv).cached _ _ hlookup).step
  · intro cached
    cases cached with
    | some session =>
        refine Outline.ret fun s _ hs other hother => ?_
        cases hother
        exact hs
    | none =>
        refine Outline.step
          (fun found s => ∀ session, found = .ok (some session) →
            ¬ p ∧ Issued s session.userId sessionId) ?_ ?_ ?_
        · intro found
          exact Stable.all fun session => Stable.imp fun _ => hfound session
        · intro e s hinv hs hok
          refine ⟨hguar _ s trivial (fun _ _ h => nomatch h), fun session hreply => ?_⟩
          have hget := World.sessionGet_hit hreply
          refine ⟨fun hp => ?_, ?_⟩
          · rw [(hs hp).2.1] at hget
            cases hget
          · obtain ⟨t, ht, _, rfl⟩ := Store.get_eq_some.mp hget
            exact ((hK.consistent s hinv).stored _ _ ht).step
        · intro found
          match found with
          | .error err => exact Outline.ret fun s _ _ session h => by cases h
          | .ok none => exact Outline.ret fun s _ _ session h => by cases h
          | .ok (some session) =>
              refine Outline.step (fun _ s => ¬ p ∧ Issued s session.userId sessionId)
                (fun _ => hfound session) ?_ fun _ => Outline.ret fun s _ hs other hother => ?_
              · intro e s hinv hs hok
                obtain ⟨hp, hissued⟩ := hs session rfl
                refine ⟨hguar _ s trivial fun id other hc => ?_, hp, hissued.step⟩
                cases hc
                exact hissued
              · cases hother
                exact hs

theorem sessionDestroy_run (sessionId : String) : (sessionDestroy sessionId).run =
    .cmd (.sessionDestroy sessionId) fun destroyed =>
      match destroyed with
      | .error err => .ret (.error err)
      | .ok () => .cmd (.sessionCacheRemove sessionId) fun _ => .ret (.ok ()) := by
  refine congrArg (Program.cmd (R := Reply) (Cmd.sessionDestroy sessionId))
    (funext fun destroyed => ?_)
  cases destroyed with
  | error err => rfl
  | ok u => rfl

/-- A destruction that returns `Ok` leaves the session in neither store, and
without a fault it returns `Ok`. -/
theorem outline_sessionDestroy (hK : Careful K)
    (hguar : ∀ c s, c.OnSession → Honest c s → K.guar i c s) (sessionId : String) :
    Outline exec K i k s₀ (sessionDestroy sessionId).run (fun _ => True)
      (fun r s => (r = .ok () → Gone sessionId s) ∧
        ((∀ e s, K.ok i k s₀ e (.sessionDestroy sessionId) s → e.fault = .none) → r = .ok ())) := by
  rw [sessionDestroy_run]
  refine Outline.step (fun destroyed s => (destroyed = .ok () → Left sessionId s) ∧
      ((∀ e s, K.ok i k s₀ e (.sessionDestroy sessionId) s → e.fault = .none) →
        destroyed = .ok ()))
    (fun _ => (Stable.imp fun _ => Left.stable hK sessionId).and (Stable.const _)) ?_ ?_
  · intro e s _ _ hok
    refine ⟨hguar _ s trivial (fun _ _ h => (by cases h)), fun hreply => ?_, fun hcalm => ?_⟩
    · obtain ⟨hfault, _⟩ := World.answer_ok hreply
      refine ⟨named_step.mpr (Or.inr (Or.inl (List.mem_singleton_self _))), ?_⟩
      simp only [exec, Exec.recorded_state, World.exec, hfault, World.answer_none,
        World.sessionDestroy, Store.get_del_self]
    · simp only [exec, Exec.recorded_reply, World.exec, hcalm e s hok, World.answer_none]
  · intro destroyed
    cases destroyed with
    | error err => exact Outline.ret fun s _ hs => ⟨fun h => (by cases h), fun h => by cases hs.2 h⟩
    | ok u =>
        refine Outline.step (fun _ s => Gone sessionId s) (fun _ => Gone.stable hK sessionId) ?_
          fun _ => Outline.ret fun s _ hs => ⟨fun _ => hs, fun _ => rfl⟩
        intro e s _ hs hok
        obtain ⟨hnamed, hget⟩ := hs.1 rfl
        refine ⟨hguar _ s trivial (fun _ _ h => (by cases h)), hnamed.step, ?_, ?_⟩
        · exact hget
        · simp [exec, World.exec, AList.lookup_erase]

end Rules

/-! ## Runs of the session store -/

/-- The calls of the session store, and the passing of time. -/
inductive SessionCall where
  | get (sessionId : String)
  | create (session : Session) (ttl : UInt64)
  | destroy (sessionId : String)
  | destroyAllForUser (userId : Uuid)
  | pass (ms : Nat)
  deriving DecidableEq, Repr

inductive SessionResult where
  | got (result : Except CacheError Session)
  | created (result : Except CacheError String)
  | destroyed (result : Except CacheError Unit)
  | done
  deriving DecidableEq

def SessionCall.body : SessionCall → Action SessionResult
  | .get id => return .got (← (sessionGet id).run)
  | .create session ttl => return .created (← (sessionCreate session ttl).run)
  | .destroy id => return .destroyed (← (sessionDestroy id).run)
  | .destroyAllForUser userId => do
      sessionDestroyAllForUser userId
      return .done
  | .pass ms => do
      ask (.pass ms)
      return .done

def sessionSystem : System Choice SessionCall Cmd Reply State SessionResult where
  exec := exec
  body := SessionCall.body

def World.members (w : World) (userId : Uuid) : List String :=
  (w.userSessions.get w.now userId).getD []

theorem get_members {w : World} {userId : Uuid} {id : String} (h : id ∈ w.members userId) :
    ∃ t, w.userSessions userId = some t ∧ id ∈ t.value := by
  unfold World.members at h
  cases hget : w.userSessions.get w.now userId with
  | none => simp [hget] at h
  | some ids =>
      obtain ⟨t, ht, _, rfl⟩ := Store.get_eq_some.mp hget
      exact ⟨t, ht, by simpa [hget] using h⟩

/-- No Redis errors, and new session ids. -/
def Healthy {κ : Type} : Condition Choice κ Cmd State := fun _ _ _ e c s =>
  e.fault = .none ∧ Fresh e c s

/-- The sessions that a call, begun in this state, is to destroy. -/
def SessionCall.targets (call : SessionCall) (before : State) : List String :=
  match call with
  | .destroy id => [id]
  | .destroyAllForUser userId => before.state.members userId
  | _ => []

/-- A destruction that did not fail. -/
def SessionResult.succeeded : SessionResult → Bool
  | .destroyed (.ok ()) | .done => true
  | _ => false

/-- Whatever a destruction that has returned was to destroy is not found by any
lookup that began later. -/
def StaysDestroyed (cfg : Config SessionCall Cmd Reply State SessionResult) : Prop :=
  ∀ (i j : Nat) (t g : Task SessionCall Cmd Reply State SessionResult) (id : String)
    (a : SessionResult) (session : Session),
    cfg.Returned i t a → a.succeeded = true → id ∈ t.call.targets t.before →
    cfg.Returned j g (.got (.ok session)) → g.call = .get id → ¬ t.last < g.began

/-- What a user's set has to list for its sessions to be destroyed: it is there
when it is renamed, and when it is read it lists all targets, those that are gone
already aside. -/
def DestroysListed (k : SessionCall) (s₀ : State) (c : Cmd) (s : State) : Prop :=
  match c with
  | .renameSessions userId =>
      (s.state.userSessions.get s.state.now userId).isSome = true ∨
        ∀ id ∈ k.targets s₀, s.state.Absent id
  | .destroyingMembers userId =>
      ∀ id ∈ k.targets s₀, s.state.sessions.get s.state.now id = none ∨
        id ∈ (s.state.destroying.get s.state.now userId).getD []
  | _ => True

/-- A step at which no destroyed session can survive. -/
def Orderly : Condition Choice SessionCall Cmd State := fun i k s₀ e c s =>
  Healthy i k s₀ e c s ∧ PutsLive c s ∧ DestroysListed k s₀ c s

instance (w : World) (sessionId : String) : Decidable (w.Absent sessionId) :=
  inferInstanceAs (Decidable (_ ∧ _))

instance (c : Cmd) (s : State) : Decidable (PutsLive c s) := by
  induction c using Cmd.casesOn with
  | sessionCachePut id session =>
      exact decidable_of_iff ((s.state.sessions.get s.state.now id).isSome = true)
        ⟨fun h _ _ hc => by cases hc; exact h, fun h => h id session rfl⟩
  | _ => exact .isTrue fun _ _ h => nomatch h

instance (k : SessionCall) (s₀ : State) (c : Cmd) (s : State) :
    Decidable (DestroysListed k s₀ c s) := by
  induction c using Cmd.casesOn with
  | renameSessions userId => exact inferInstanceAs (Decidable (_ ∨ _))
  | destroyingMembers userId => exact inferInstanceAs (Decidable (∀ id ∈ _, _ ∨ _))
  | _ => exact .isTrue trivial

instance {κ : Type} (i : Nat) (k : κ) (s₀ : State) (e : Choice) (c : Cmd) (s : State) :
    Decidable (Healthy i k s₀ e c s) := inferInstanceAs (Decidable (_ ∧ _))

instance (i : Nat) (k : SessionCall) (s₀ : State) (e : Choice) (c : Cmd) (s : State) :
    Decidable (Orderly i k s₀ e c s) := inferInstanceAs (Decidable (_ ∧ _ ∧ _))

/-- A lookup finds nothing that was gone when it began, and a destruction leaves
nothing of what it was to destroy. -/
def sessionContract : Contract Choice SessionCall Cmd State SessionResult where
  ok := Orderly
  inv := Consistent
  guar _ c s := Honest c s
  post _ k s₀ a s :=
    (∀ id session, k = .get id → a = .got (.ok session) → ¬ Gone id s₀) ∧
    ∀ id, a.succeeded = true → id ∈ k.targets s₀ → Gone id s

theorem sessionContract_careful : Careful sessionContract where
  consistent _ h := h
  fresh _ _ _ _ _ _ h := h.1.2
  putsLive _ _ _ _ _ _ h := h.2.1
  honest _ _ _ h := h

theorem sessionDestroyAllForUser_run (userId : Uuid) : sessionDestroyAllForUser userId =
    .cmd (.renameSessions userId) fun renamed =>
      match renamed with
      | .error _ => .ret ()
      | .ok () => .cmd (.destroyingMembers userId) fun members =>
          .cmd (.delDestroying userId) fun _ =>
            .cmd (.delSessions (members.toOption.getD [])) fun _ =>
              .cmd (.sessionCacheRetain userId) .ret := by
  refine congrArg (Program.cmd (R := Reply) (Cmd.renameSessions userId))
    (funext fun renamed => ?_)
  cases renamed with
  | error err => rfl
  | ok u => rfl

section

variable {i : Nat} {k : SessionCall} {s₀ : State}

/-- The sessions that the set listed at the beginning are gone at the end. -/
theorem outline_destroyAllForUser (userId : Uuid) :
    Outline exec sessionContract i (.destroyAllForUser userId) s₀
      (sessionDestroyAllForUser userId)
      (fun s => ∀ id ∈ s₀.state.members userId, Issued s userId id)
      (fun _ s => ∀ id ∈ s₀.state.members userId, Gone id s) := by
  have hK := sessionContract_careful
  have hissued : Stable exec sessionContract i fun s =>
      ∀ id ∈ s₀.state.members userId, Issued s userId id :=
    Stable.all fun id => Stable.imp fun _ => Issued.stable userId id
  have hgone : Stable exec sessionContract i fun s =>
      ∀ id ∈ s₀.state.members userId, Gone id s :=
    Stable.all fun id => Stable.imp fun _ => Gone.stable hK id
  have hleft : Stable exec sessionContract i fun s =>
      ∀ id ∈ s₀.state.members userId, Left id s :=
    Stable.all fun id => Stable.imp fun _ => Left.stable hK id
  have hread : ∀ ids : List String, Stable exec sessionContract i fun s =>
      ∀ id ∈ s₀.state.members userId, Left id s ∨ id ∈ ids :=
    fun ids => Stable.all fun id => Stable.imp fun _ =>
      (Left.stable hK id).or (Stable.const _)
  rw [sessionDestroyAllForUser_run]
  -- RENAME
  refine Outline.step
    (fun renamed s => (∀ id ∈ s₀.state.members userId, Issued s userId id) ∧
      ∀ err, renamed = .error err → ∀ id ∈ s₀.state.members userId, Gone id s)
    (fun _ => hissued.and (Stable.all fun _ => Stable.imp fun _ => hgone)) ?_ ?_
  · intro e s _ hs hok
    refine ⟨(fun _ _ h => (by cases h)), fun id hid => (hs id hid).step, ?_⟩
    intro err hreply id hid
    have habsent : s.state.Absent id := by
      rcases hok.2.2 with hset | hall
      · -- the set is there, so RENAME succeeds
        exfalso
        simp only [exec, Exec.recorded_reply, World.exec, hok.1.1, World.answer_none,
          World.renameSessions] at hreply
        cases hentry : s.state.userSessions.entry s.state.now userId with
        | none => simp [Store.get, hentry] at hset
        | some t => simp [hentry] at hreply
      · exact hall id hid
    have hgone : Gone id s := ⟨(hs id hid).named, habsent⟩
    exact hgone.step hok.1.2 hok.2.1
  · intro renamed
    cases renamed with
    | error err => exact Outline.ret fun s _ hs => hs.2 err rfl
    | ok u =>
        -- SMEMBERS
        refine Outline.step
          (fun members s => (∀ id ∈ s₀.state.members userId, Issued s userId id) ∧
            ∀ id ∈ s₀.state.members userId, Left id s ∨ id ∈ members.toOption.getD [])
          (fun _ => hissued.and (hread _)) ?_ fun members => ?_
        · intro e s _ hs hok
          refine ⟨(fun _ _ h => (by cases h)), fun id hid => (hs.1 id hid).step, fun id hid => ?_⟩
          rcases hok.2.2 id hid with hnone | hmem
          · have hleft : Left id s := ⟨(hs.1 id hid).named, hnone⟩
            exact Or.inl (hleft.step hok.1.2)
          · refine Or.inr ?_
            simpa only [exec, Exec.recorded_reply, World.exec, hok.1.1, World.answer_none,
              Except.toOption, Option.getD_some] using hmem
        -- DEL of the temporary key
        refine Outline.step
          (fun _ s => (∀ id ∈ s₀.state.members userId, Issued s userId id) ∧
            ∀ id ∈ s₀.state.members userId, Left id s ∨ id ∈ members.toOption.getD [])
          (fun _ => hissued.and (hread _)) ?_ fun _ => ?_
        · intro e s _ hs hok
          exact ⟨(fun _ _ h => (by cases h)), fun id hid => (hs.1 id hid).step,
            fun id hid => (hs.2 id hid).imp_left fun h => h.step hok.1.2⟩
        -- DEL of the sessions
        refine Outline.step
          (fun _ s => (∀ id ∈ s₀.state.members userId, Issued s userId id) ∧
            ∀ id ∈ s₀.state.members userId, Left id s)
          (fun _ => hissued.and hleft) ?_ fun _ => ?_
        · intro e s _ hs hok
          refine ⟨(fun _ _ h => (by cases h)), fun id hid => (hs.1 id hid).step, fun id hid => ?_⟩
          rcases hs.2 id hid with hleft | hmem
          · exact hleft.step hok.1.2
          · refine ⟨((hs.1 id hid).named).step, ?_⟩
            have hids : members.toOption.getD [] ≠ [] := List.ne_nil_of_mem hmem
            simp only [exec, Exec.recorded_state, World.exec, hok.1.1, World.answer_none,
              World.delSessions, if_neg hids]
            rw [Store.get_eq_none]
            intro t ht
            exact absurd hmem (Store.foldl_del_eq_some.mp ht).1
        -- the cache
        refine Outline.step (fun _ s => ∀ id ∈ s₀.state.members userId, Gone id s)
          (fun _ => hgone) ?_ fun _ => Outline.ret fun s _ hs => hs
        intro e s hinv hs hok
        refine ⟨(fun _ _ h => (by cases h)), fun id hid => ?_⟩
        have hleft := (hs.2 id hid).step (i := i) hok.1.2
        refine ⟨hleft.1, hleft.2, ?_⟩
        by_contra hsome
        obtain ⟨entry, hentry⟩ := Option.ne_none_iff_exists'.mp hsome
        obtain ⟨hlookup, hother⟩ := Table.lookup_retain.mp hentry
        have howner := hinv.unique _ _ id (hinv.cached id entry hlookup) (hs.1 id hid)
        simp [howner] at hother

/-- A call that only issues commands that cache nothing. -/
theorem outline_plain {p : Action SessionResult}
    (h : p.All fun c => ∀ id session, c ≠ .sessionCachePut id session) :
    Outline exec sessionContract i k s₀ p (fun _ => True) fun _ _ => True := by
  refine Outline.keep (Stable.const True) ?_
  induction p with
  | ret a => trivial
  | cmd c next ih =>
      exact ⟨fun e s _ _ _ => ⟨fun id session hc => absurd hc (h.1 id session), trivial⟩,
        fun reply => ih reply (h.2 reply)⟩

end

theorem sessionContract_holds : sessionContract.Holds sessionSystem Consistent where
  inv_init _ h := h
  inv_step i k s₀ e c s hinv hok hguar := hinv.step hok.1.2 hguar
  post_stable i k s₀ a := by
    refine (Stable.const _).and (Stable.all fun id => Stable.imp fun _ => Stable.imp fun _ => ?_)
    exact Gone.stable sessionContract_careful id
  body i k s₀ hinv := by
    have hK := sessionContract_careful
    cases k with
    | get sessionId =>
        refine ⟨fun s => Gone sessionId s₀ → Gone sessionId s,
          Stable.imp fun _ => Gone.stable hK sessionId, fun h => h, ?_⟩
        refine Outline.bind (outline_sessionGet hK (fun _ _ _ h => h) sessionId
          (Gone sessionId s₀)) fun r => Outline.ret fun s _ hs => ⟨?_, fun _ _ h => nomatch h⟩
        intro other session hcall hresult
        cases hcall
        cases hresult
        exact (hs session rfl).1
    | create session ttl =>
        refine ⟨fun _ => True, Stable.const _, trivial, ?_⟩
        refine (outline_plain ?_).mono (fun _ _ h => h) fun a s _ _ =>
          ⟨(fun _ _ h => nomatch h), fun _ _ h => nomatch h⟩
        exact ⟨(fun _ _ h => nomatch h), fun _ => trivial⟩
    | destroy sessionId =>
        refine ⟨fun _ => True, Stable.const _, trivial, ?_⟩
        refine Outline.bind (outline_sessionDestroy hK (fun _ _ _ h => h) sessionId)
          fun r => Outline.ret fun s _ hs => ⟨(fun _ _ h => nomatch h), ?_⟩
        intro other hdone hcovers
        cases r with
        | error err => cases hdone
        | ok u =>
            obtain rfl := List.mem_singleton.mp hcovers
            exact hs.1 rfl
    | destroyAllForUser userId =>
        refine ⟨fun s => ∀ id ∈ s₀.state.members userId, Issued s userId id,
          Stable.all fun id => Stable.imp fun _ => Issued.stable userId id, ?_, ?_⟩
        · intro id hid
          obtain ⟨t, ht, hmem⟩ := get_members hid
          exact hinv.listed userId t id ht hmem
        · refine Outline.bind (outline_destroyAllForUser userId) fun _ =>
            Outline.ret fun s _ hs => ⟨(fun _ _ h => nomatch h), ?_⟩
          exact fun id _ hcovers => hs id hcovers
    | pass ms =>
        refine ⟨fun _ => True, Stable.const _, trivial, ?_⟩
        refine (outline_plain ?_).mono (fun _ _ h => h) fun a s _ _ =>
          ⟨(fun _ _ h => nomatch h), fun _ _ h => nomatch h⟩
        exact ⟨(fun _ _ h => nomatch h), fun _ => trivial⟩

/-- Nothing is stored, and nothing has happened. -/
def State.initial (now : Nat) (users : List User) : State := ⟨World.initial now users, []⟩

theorem State.initial_consistent (now : Nat) (users : List User) :
    Consistent (State.initial now users) where
  stored id t h := nomatch h
  cached id entry h := nomatch h
  listed u t id h := nomatch h
  unique u v id h := by
    obtain ⟨ev, hmem, _⟩ := h
    cases hmem

/-- In every run whose steps are orderly, what was destroyed stays destroyed. -/
theorem orderly_stays_destroyed {cfg : Config SessionCall Cmd Reply State SessionResult}
    (h : Reach sessionSystem Consistent Orderly cfg) : StaysDestroyed cfg := by
  have hsound := sessionContract_holds.sound h
  intro i j t g id a session ht hdone hcovers hg hcall hlater
  have hgone : Gone id g.before :=
    (hsound.before i j t g a ht hg.1 hlater).2 id hdone hcovers
  exact (hsound.post hg).1 id session hcall rfl hgone

namespace Sample

def session : Session := ⟨alice, "alice@example.com", none, "local", 0⟩

def drawing (token : String) : Choice := { Choice.calm with token := token }

/-- A lookup reads the session from Redis, the session is destroyed, and only then
the lookup puts it into the cache. -/
def staleLookup : List (Label Choice SessionCall) :=
  [.start (.create session 900), .step 0 (drawing "s"),
    .start (.get "s"), .step 1 .calm, .step 1 .calm,
    .start (.destroy "s"), .step 2 .calm, .step 2 .calm,
    .step 1 .calm,
    .start (.get "s"), .step 3 .calm]

end Sample

open Sample

/-- A session is created, destroyed and looked up. -/
theorem orderly_stays_destroyed_run : ∃ cfg : Config SessionCall Cmd Reply State SessionResult,
    cfg.summary = [(.create session 900, 0, 1, some (.created (.ok "s"))),
      (.destroy "s", 2, 4, some (.destroyed (.ok ()))),
      (.get "s", 5, 7, some (.got (.error .sessionNotFound)))] ∧ StaysDestroyed cfg := by
  have hrun : ((Config.initial (State.initial 0 [])).followIf sessionSystem Orderly
      [.start (.create session 900), .step 0 (drawing "s"), .start (.destroy "s"),
        .step 1 .calm, .step 1 .calm, .start (.get "s"), .step 2 .calm,
        .step 2 .calm]).map Config.summary
      = some [(.create session 900, 0, 1, some (.created (.ok "s"))),
        (.destroy "s", 2, 4, some (.destroyed (.ok ()))),
        (.get "s", 5, 7, some (.got (.error .sessionNotFound)))] := by
    decide
  obtain ⟨cfg, hfollow, hsummary⟩ := Option.map_eq_some_iff.mp hrun
  exact ⟨cfg, hsummary, orderly_stays_destroyed
    (Reach.of_followIf (.initial (State.initial_consistent 0 [])) hfollow)⟩

/-- Without errors and with new ids, a session that was destroyed is found again. -/
theorem stale_lookup_revives :
    ∃ cfg, Reach sessionSystem Consistent Healthy cfg ∧ ¬ StaysDestroyed cfg := by
  have hrun : ((Config.initial (State.initial 0 [])).followIf sessionSystem Healthy
      staleLookup).map Config.summary
      = some [(.create session 900, 0, 1, some (.created (.ok "s"))),
        (.get "s", 2, 8, some (.got (.ok session))),
        (.destroy "s", 5, 7, some (.destroyed (.ok ()))),
        (.get "s", 9, 10, some (.got (.ok session)))] := by
    decide
  obtain ⟨cfg, hfollow, hsummary⟩ := Option.map_eq_some_iff.mp hrun
  obtain ⟨t, ht, htcall, _, hlast⟩ :=
    cfg.returned_of_summary (i := 2) (by rw [hsummary]; rfl)
  obtain ⟨g, hg, hgcall, hbegan, _⟩ :=
    cfg.returned_of_summary (i := 3) (by rw [hsummary]; rfl)
  refine ⟨cfg, Reach.of_followIf (.initial (State.initial_consistent 0 [])) hfollow, fun h => ?_⟩
  refine h 2 3 t g "s" _ session ht rfl ?_ hg hgcall ?_
  · rw [htcall]
    exact List.mem_singleton_self _
  · omega

end FullStackHex
