import FullStackHex.Cache.Session
import FullStackHex.Library.Trace

/-!
One process that calls the session store, one call after another, while time passes:
when its cache cannot be told from Redis, and when the index of a user has all
sessions of that user.
-/

namespace FullStackHex

open Concurrent Expiring

/-- A call, with the id that `session_create` draws, or the passing of time. -/
inductive StoreCall where
  | create (session : Session) (ttl : UInt64) (id : String)
  | get (sessionId : String)
  | refresh (sessionId : String) (ttl : UInt64)
  | destroy (sessionId : String)
  | destroyAllForUser (userId : Uuid)
  | pass (ms : Nat)
  deriving DecidableEq, Repr

/-- The state after a call; Redis does not fail. -/
def StoreCall.run (w : World) : StoreCall → World
  | .create session ttl id =>
      (alone { Choice.calm with token := id } (sessionCreate session ttl) w).2
  | .get id => w.lookedUp id
  | .refresh id ttl => (alone .calm (sessionRefresh id ttl) w).2
  | .destroy id => (alone .calm (sessionDestroy id) w).2
  | .destroyAllForUser userId => (w.perform (sessionDestroyAllForUser userId)).2
  | .pass ms => { w with now := w.now + ms }

def World.after (w : World) (calls : List StoreCall) : World := calls.foldl StoreCall.run w

/-- The ids that a run draws. -/
def StoreCall.drawn : StoreCall → List String
  | .create _ _ id => [id]
  | _ => []

section Runs

variable {w : World} {call : StoreCall} {calls : List StoreCall}

/-- Every call can be made. -/
def StoreCall.step (w : World) (call : StoreCall) : Option World := some (call.run w)

theorem run_step : Trace.run StoreCall.step w calls = some (w.after calls) := by
  induction calls generalizing w with
  | nil => rfl
  | cons call rest ih => exact ih

/-- A property holds after each part of a run exactly when the calls keep it. -/
theorem after_iff_each {p : World → Prop} {q : World → StoreCall → Prop}
    (inv : World → List StoreCall → Prop)
    (hstep : ∀ w call rest, inv w (call :: rest) → p w →
      (p (call.run w) ↔ q w call) ∧ (q w call → inv (call.run w) rest))
    (hinv : inv w calls) (hp : p w) :
    (∀ n, p (w.after (calls.take n))) ↔ Trace.Each StoreCall.step q w calls := by
  have hiff : Trace.Throughout StoreCall.step p w calls ↔ Trace.Each StoreCall.step q w calls := by
    apply Trace.throughout_iff_each inv _ hinv hp
    intro w call rest w' hw hpw hrun
    obtain rfl := Option.some.inj hrun
    exact hstep w call rest hw hpw
  rw [← hiff, Trace.throughout_iff]
  simp only [run_step, Option.some.injEq, forall_eq']

/-! ## What a call does -/

theorem StoreCall.run_create (session : Session) (ttl : UInt64) (id : String) :
    (StoreCall.create session ttl id).run w = (w.sessionCreate session ttl.toNat id).2 := rfl

theorem StoreCall.run_get (id : String) : (StoreCall.get id).run w = w.lookedUp id := rfl

theorem StoreCall.run_refresh (id : String) (ttl : UInt64) :
    (StoreCall.refresh id ttl).run w = (w.sessionExpire id ttl.toNat).2 := rfl

theorem StoreCall.run_destroy (id : String) :
    (StoreCall.destroy id).run w
      = { w.sessionDestroy id with sessionCache := w.sessionCache.erase id } := rfl

/-- Without a set nothing is done; else its members and the set are gone, and so is what is cached
of the user. -/
theorem StoreCall.run_destroyAllForUser (userId : Uuid) :
    (StoreCall.destroyAllForUser userId).run w =
      match w.userSessions.entry w.now userId with
      | none => w
      | some t => { w with
          userSessions := w.userSessions.del userId
          destroying := (w.destroying.set userId t).del userId
          sessions := t.value.foldl Store.del w.sessions
          sessionCache := w.sessionCache.retain fun _ entry => entry.2.userId ≠ userId } := by
  unfold StoreCall.run sessionDestroyAllForUser
  cases hset : w.userSessions.entry w.now userId with
  | none =>
      simp only [Program.bind_def, World.perform, Program.run_bind, Program.run_command,
        Program.run_ret, World.exec, Choice.calm_fault, World.answer_none, World.renameSessions,
        hset]
      rfl
  | some t =>
      have hlive := (Store.entry_eq_some.mp hset).2
      have hmembers : (w.destroying.set userId t).get w.now userId = some t.value :=
        Store.get_set_self hlive
      simp only [Program.bind_def, World.perform, Program.run_bind, Program.run_command,
        Program.run_ret, World.exec, Choice.calm_fault, World.answer_none, World.renameSessions,
        hset, hmembers, Option.getD_some, Except.toOption]
      unfold World.delSessions
      by_cases hids : t.value = []
      · simp [hids]
      · simp [hids]

/-- A session that is stored was stored before, or the call creates it. -/
theorem StoreCall.run_sessions {id : String} {t : Timed Session}
    (ht : (call.run w).sessions id = some t) :
    (∃ t', w.sessions id = some t' ∧ t'.value = t.value) ∨ ∃ ttl, call = .create t.value ttl id := by
  cases call with
  | create session ttl other =>
      rw [run_create, World.sessionCreate] at ht
      split at ht
      · exact .inl ⟨t, ht, rfl⟩
      · rcases Store.set_eq_some.mp ht with ⟨rfl, rfl⟩ | ⟨_, hold⟩
        · exact .inr ⟨ttl, rfl⟩
        · exact .inl ⟨t, hold, rfl⟩
  | get other =>
      rw [run_get, w.lookedUp_same other] at ht
      exact .inl ⟨t, ht, rfl⟩
  | refresh other ttl =>
      rw [run_refresh, World.sessionExpire] at ht
      split at ht
      · exact .inl ⟨t, (Store.del_eq_some.mp ht).2, rfl⟩
      · split at ht
        · exact .inl ⟨t, ht, rfl⟩
        · exact .inl ⟨t, ht, rfl⟩
        · rename_i d old _ hold
          rcases Store.set_eq_some.mp ht with ⟨rfl, rfl⟩ | ⟨_, hkept⟩
          · exact .inl ⟨old, (Store.entry_eq_some.mp hold).1, rfl⟩
          · exact .inl ⟨t, hkept, rfl⟩
  | destroy other => exact .inl ⟨t, (Store.del_eq_some.mp ht).2, rfl⟩
  | destroyAllForUser userId =>
      rw [run_destroyAllForUser] at ht
      split at ht
      · exact .inl ⟨t, ht, rfl⟩
      · exact .inl ⟨t, (Store.foldl_del_eq_some.mp ht).2, rfl⟩
  | pass ms => exact .inl ⟨t, ht, rfl⟩

/-- A member of a set was one before, or the call creates it. -/
theorem StoreCall.run_userSessions {userId : Uuid} {id : String} {t : Timed (List String)}
    (ht : (call.run w).userSessions userId = some t) (hid : id ∈ t.value) :
    (∃ t', w.userSessions userId = some t' ∧ id ∈ t'.value) ∨
      ∃ session ttl, call = .create session ttl id ∧ session.userId = userId := by
  cases call with
  | create session ttl other =>
      rw [run_create, World.sessionCreate] at ht
      split at ht
      · exact .inl ⟨t, ht, hid⟩
      · rcases Store.set_eq_some.mp ht with ⟨rfl, rfl⟩ | ⟨_, hold⟩
        · rcases List.mem_insert_iff.mp hid with rfl | hmem
          · exact .inr ⟨session, ttl, rfl, rfl⟩
          · cases hget : w.userSessions.get w.now session.userId with
            | none => simp [hget] at hmem
            | some ids =>
                obtain ⟨t', ht', _, rfl⟩ := Store.get_eq_some.mp hget
                exact .inl ⟨t', ht', by simpa [hget] using hmem⟩
        · exact .inl ⟨t, hold, hid⟩
  | get other =>
      rw [run_get, w.lookedUp_same other] at ht
      exact .inl ⟨t, ht, hid⟩
  | refresh other ttl =>
      rw [run_refresh, World.sessionExpire] at ht
      split at ht
      · exact .inl ⟨t, ht, hid⟩
      · split at ht <;> exact .inl ⟨t, ht, hid⟩
  | destroy other =>
      rw [run_destroy] at ht
      simp only [World.sessionDestroy] at ht
      cases hget : w.sessions.get w.now other with
      | none =>
          rw [hget] at ht
          exact .inl ⟨t, ht, hid⟩
      | some session =>
          rw [hget] at ht
          exact .inl (srem_mem ht hid)
  | destroyAllForUser other =>
      rw [run_destroyAllForUser] at ht
      split at ht
      · exact .inl ⟨t, ht, hid⟩
      · exact .inl ⟨t, (Store.del_eq_some.mp ht).2, hid⟩
  | pass ms => exact .inl ⟨t, ht, hid⟩

/-- What is cached was cached before, or the call looks it up and finds it in Redis. -/
theorem StoreCall.run_sessionCache {id : String} {entry : Nat × Session}
    (hentry : (call.run w).sessionCache.lookup id = some entry) :
    w.sessionCache.lookup id = some entry ∨
      call = .get id ∧ w.sessions.get w.now id = some entry.2 := by
  cases call with
  | create session ttl other =>
      rw [run_create, World.sessionCreate] at hentry
      split at hentry <;> exact .inl hentry
  | get other =>
      have hkept : ∀ {key e}, (w.sessionCacheGet other).2.sessionCache.lookup key = some e →
          w.sessionCache.lookup key = some e := by
        intro key e h
        unfold World.sessionCacheGet at h
        split at h
        · split at h
          · exact h
          · exact (Table.lookup_erase_of_some h).2
        · exact h
      rw [run_get, (alone_sessionGet other w).2] at hentry
      split at hentry
      · exact .inl (hkept hentry)
      · rename_i session _ hget
        simp only [World.sessionCachePut] at hentry
        by_cases hid : id = other
        · subst hid
          rw [AList.lookup_insert] at hentry
          obtain rfl := Option.some.inj hentry
          exact .inr ⟨rfl, hget⟩
        · rw [AList.lookup_insert_ne hid] at hentry
          split at hentry
          · cases hentry
          · exact .inl (hkept hentry)
      · exact .inl (hkept hentry)
  | refresh other ttl =>
      rw [run_refresh, World.sessionExpire] at hentry
      split at hentry
      · exact .inl hentry
      · split at hentry <;> exact .inl hentry
  | destroy other => exact .inl (Table.lookup_erase_of_some hentry).2
  | destroyAllForUser userId =>
      rw [run_destroyAllForUser] at hentry
      split at hentry
      · exact .inl hentry
      · exact .inl (Table.lookup_retain.mp hentry).1
  | pass ms => exact .inl hentry

/-! ## The cache against Redis -/

/-- `session_get` finds a session exactly when GET would. -/
def World.Transparent (w : World) : Prop :=
  ∀ id session, (alone .calm (sessionGet id) w).1 = .ok session ↔
    w.sessions.get w.now id = some session

/-- A cached session that is still served is in Redis. -/
def World.Faithful (w : World) : Prop :=
  ∀ id expiry session, w.sessionCache.lookup id = some (expiry, session) → w.now < expiry →
    w.sessions.get w.now id = some session

theorem World.sessionCacheGet_eq_some {id : String} {session : Session} :
    (w.sessionCacheGet id).1 = some session ↔
      ∃ expiry, w.sessionCache.lookup id = some (expiry, session) ∧ w.now < expiry := by
  unfold sessionCacheGet
  cases hlookup : w.sessionCache.lookup id with
  | none => simp
  | some entry =>
      obtain ⟨expiry, cached⟩ := entry
      dsimp only
      split
      · rename_i hlive
        simp [hlive]
      · rename_i hdead
        simp [hdead]

theorem World.transparent_iff : w.Transparent ↔ w.Faithful := by
  have hresult : ∀ id session, (alone .calm (sessionGet id) w).1 = .ok session ↔
      w.resolve id = some session := by
    intro id session
    rw [(alone_sessionGet id w).1]
    cases w.resolve id with
    | none => simp
    | some found => simp
  unfold Transparent
  simp only [hresult]
  unfold resolve
  constructor
  · intro h id expiry session hlookup hlive
    have hcached := World.sessionCacheGet_eq_some.mpr ⟨expiry, hlookup, hlive⟩
    exact (h id session).mp (by rw [hcached, Option.some_or])
  · intro h id session
    cases hcached : (w.sessionCacheGet id).1 with
    | none => rw [Option.none_or]
    | some found =>
        obtain ⟨expiry, hlookup, hlive⟩ := World.sessionCacheGet_eq_some.mp hcached
        rw [Option.some_or, h id expiry found hlookup hlive]

/-- No session ends while its copy in the cache is still served: not by the passing of time, and
not by an EXPIRE that deletes it. -/
def StoreCall.LeavesNoCopy (w : World) : StoreCall → Prop
  | .pass ms => ∀ id expiry session, w.sessionCache.lookup id = some (expiry, session) →
      w.now + ms < expiry → w.sessions.get (w.now + ms) id ≠ none
  | .refresh id ttl => World.endsAtOnce ttl.toNat = true → (w.sessionCacheGet id).1 = none
  | _ => True

/-- The sets of a user hold ids of sessions of that user. -/
def World.Owned (w : World) : Prop :=
  ∀ userId t id t', w.userSessions userId = some t → id ∈ t.value → w.sessions id = some t' →
    t'.value.userId = userId

/-- The id is nowhere. -/
structure World.Unused (w : World) (id : String) : Prop where
  session : w.sessions id = none
  member : ∀ userId t, w.userSessions userId = some t → id ∉ t.value
  copy : w.sessionCache.lookup id = none

/-- The ids that are still to be drawn are new. -/
structure World.Ready (w : World) (calls : List StoreCall) : Prop where
  owned : w.Owned
  nodup : (calls.flatMap StoreCall.drawn).Nodup
  unused : ∀ id ∈ calls.flatMap StoreCall.drawn, w.Unused id

theorem World.Unused.run {id : String} (h : w.Unused id) (hdrawn : id ∉ call.drawn) :
    (call.run w).Unused id := by
  constructor
  · by_contra hsome
    obtain ⟨t, ht⟩ := Option.ne_none_iff_exists'.mp hsome
    rcases StoreCall.run_sessions ht with ⟨t', hold, -⟩ | ⟨ttl, rfl⟩
    · rw [h.session] at hold
      cases hold
    · exact hdrawn (List.mem_singleton_self _)
  · intro userId t ht hid
    rcases StoreCall.run_userSessions ht hid with ⟨t', hold, hmem⟩ | ⟨session, ttl, rfl, -⟩
    · exact h.member userId t' hold hmem
    · exact hdrawn (List.mem_singleton_self _)
  · by_contra hsome
    obtain ⟨entry, hentry⟩ := Option.ne_none_iff_exists'.mp hsome
    rcases StoreCall.run_sessionCache hentry with hold | ⟨rfl, hget⟩
    · rw [h.copy] at hold
      cases hold
    · obtain ⟨t, ht, -⟩ := Store.get_eq_some.mp hget
      rw [h.session] at ht
      cases ht

theorem World.Ready.run {rest : List StoreCall} (h : w.Ready (call :: rest)) :
    (call.run w).Ready rest := by
  have hnodup := h.nodup
  rw [List.flatMap_cons, List.nodup_append'] at hnodup
  refine ⟨?_, hnodup.2.1, fun id hid => ?_⟩
  · intro userId t id t' ht hid ht'
    rcases StoreCall.run_userSessions ht hid with ⟨old, hold, hmem⟩ | ⟨session, ttl, rfl, rfl⟩
    · rcases StoreCall.run_sessions ht' with ⟨stored, hstored, hvalue⟩ | ⟨ttl, rfl⟩
      · exact hvalue ▸ h.owned userId old id stored hold hmem hstored
      · exact absurd hmem ((h.unused id (by simp [StoreCall.drawn])).member userId old hold)
    · rcases StoreCall.run_sessions ht' with ⟨stored, hstored, -⟩ | ⟨ttl', hcall⟩
      · have hunused := (h.unused id (by simp [StoreCall.drawn])).session
        rw [hunused] at hstored
        cases hstored
      · injection hcall with hsession
        rw [← hsession]
  · apply (h.unused id (by rw [List.flatMap_cons]; exact List.mem_append_right _ hid)).run
    exact fun hmem => hnodup.2.2 hmem hid

/-- One call keeps the cache faithful exactly when it leaves no copy behind. -/
theorem StoreCall.faithful_run {rest : List StoreCall} (hready : w.Ready (call :: rest))
    (h : w.Faithful) : (call.run w).Faithful ↔ call.LeavesNoCopy w := by
  cases call with
  | create session ttl id =>
      have hunused := (hready.unused id (by simp [drawn])).copy
      apply iff_of_true _ trivial
      rw [run_create, World.sessionCreate]
      split
      · exact h
      · intro other expiry cached hlookup hlive
        have hne : other ≠ id := by
          rintro rfl
          rw [hunused] at hlookup
          cases hlookup
        exact (Store.get_set_ne hne).trans (h other expiry cached hlookup hlive)
  | get id =>
      apply iff_of_true _ trivial
      intro other expiry cached hlookup hlive
      have hsame := w.lookedUp_same id
      rcases run_sessionCache hlookup with hold | ⟨hcall, hget⟩
      · rw [run_get, hsame] at hlive ⊢
        exact h other expiry cached hold hlive
      · rw [run_get, hsame]
        exact hget
  | refresh id ttl =>
      rw [run_refresh, World.sessionExpire]
      split
      · rename_i hends
        constructor
        · intro hafter _
          by_contra hcopy
          obtain ⟨session, hsession⟩ := Option.ne_none_iff_exists'.mp hcopy
          obtain ⟨expiry, hlookup, hlive⟩ := World.sessionCacheGet_eq_some.mp hsession
          have hget := hafter id expiry session hlookup hlive
          rw [Store.get_del_self] at hget
          cases hget
        · intro hnone other expiry cached hlookup hlive
          have hne : other ≠ id := by
            rintro rfl
            have hcopy : (w.sessionCacheGet other).1 = some cached :=
              World.sessionCacheGet_eq_some.mpr ⟨expiry, hlookup, hlive⟩
            rw [hnone hends] at hcopy
            cases hcopy
          exact (Store.get_del_ne hne).trans (h other expiry cached hlookup hlive)
      · rename_i hends
        have hleaves : LeavesNoCopy w (.refresh id ttl) := fun hyes => absurd hyes hends
        apply iff_of_true _ hleaves
        split
        · exact h
        · exact h
        · rename_i d t hd ht
          intro other expiry cached hlookup hlive
          by_cases hid : other = id
          · subst hid
            have hold := h other expiry cached hlookup hlive
            obtain ⟨t', ht', hlive', rfl⟩ := Store.get_eq_some.mp hold
            have hsame := (Store.entry_eq_some.mp ht).1
            rw [ht'] at hsame
            obtain rfl := Option.some.inj hsame
            obtain ⟨hpos, -, rfl⟩ := deadline_eq_some.mp hd
            apply Store.get_set_self
            simp only [Timed.alive, decide_eq_true_eq]
            omega
          · exact (Store.get_set_ne hid).trans (h other expiry cached hlookup hlive)
  | destroy id =>
      apply iff_of_true _ trivial
      intro other expiry cached hlookup hlive
      obtain ⟨hne, hold⟩ := Table.lookup_erase_of_some hlookup
      exact (Store.get_del_ne hne).trans (h other expiry cached hold hlive)
  | destroyAllForUser userId =>
      apply iff_of_true _ trivial
      rw [run_destroyAllForUser]
      split
      · exact h
      · rename_i t ht
        intro other expiry cached hlookup hlive
        obtain ⟨hold, howner⟩ := Table.lookup_retain.mp hlookup
        obtain ⟨t', ht', hlive', rfl⟩ := Store.get_eq_some.mp (h other expiry cached hold hlive)
        have hnot : other ∉ t.value := by
          intro hmem
          have := hready.owned userId t other t' (Store.entry_eq_some.mp ht).1 hmem ht'
          simp [this] at howner
        exact Store.get_eq_some.mpr ⟨t', Store.foldl_del_eq_some.mpr ⟨hnot, ht'⟩, hlive', rfl⟩
  | pass ms =>
      constructor
      · intro hafter id expiry session hlookup hlive hnone
        have hget := hafter id expiry session hlookup hlive
        change w.sessions.get (w.now + ms) id = some session at hget
        rw [hnone] at hget
        cases hget
      · intro hkept id expiry session hlookup hlive
        change w.sessions.get (w.now + ms) id = some session
        have hlive : w.now + ms < expiry := hlive
        obtain ⟨later, hlater⟩ :=
          Option.ne_none_iff_exists'.mp (hkept id expiry session hlookup hlive)
        have hearlier := Store.get_of_le (Nat.le_add_right w.now ms) hlater
        rw [h id expiry session hlookup (by omega)] at hearlier
        rw [hlater, Option.some.inj hearlier]

theorem World.initial_ready (now : Nat) (users : List User)
    (hnew : (calls.flatMap StoreCall.drawn).Nodup) : (World.initial now users).Ready calls := by
  refine ⟨?_, hnew, fun id _ => ⟨rfl, ?_, rfl⟩⟩
  · intro userId t id t' ht
    cases ht
  · intro userId t ht
    cases ht

/-- In a run whose session ids are new, the cache is not to be told from Redis in any state
exactly when no call and no passing of time leaves a copy in the cache of a session that has
ended. -/
theorem cache_unobservable_iff (now : Nat) (users : List User) (calls : List StoreCall)
    (hnew : (calls.flatMap StoreCall.drawn).Nodup) :
    (∀ n, ((World.initial now users).after (calls.take n)).Transparent) ↔
      Trace.Each StoreCall.step (fun w call => call.LeavesNoCopy w) (World.initial now users) calls := by
  apply after_iff_each World.Ready
  · intro w call rest hready htransparent
    rw [World.transparent_iff] at htransparent ⊢
    exact ⟨StoreCall.faithful_run hready htransparent, fun _ => hready.run⟩
  · exact World.initial_ready now users hnew
  · rw [World.transparent_iff]
    intro id expiry session hlookup
    cases hlookup

/-! ## The index of a user -/

/-- The set of a user, while it lives, has the sessions of that user that live. -/
def World.Listed (w : World) : Prop :=
  ∀ id session, w.sessions.get w.now id = some session →
    ∃ ids, w.userSessions.get w.now session.userId = some ids ∧ id ∈ ids

/-- Every live session is listed, and a destruction of all sessions of a user leaves none. -/
structure World.Indexed (w : World) : Prop where
  listed : w.Listed
  destroyed : ∀ userId id session,
    ((StoreCall.destroyAllForUser userId).run w).sessions.get w.now id = some session →
      session.userId ≠ userId

/-- The passing of time that ends a set ends the sessions in it. -/
def StoreCall.EndsListed (w : World) : StoreCall → Prop
  | .pass ms => ∀ userId t, w.userSessions.entry w.now userId = some t →
      t.alive (w.now + ms) = false → ∀ id ∈ t.value, ∀ session,
        w.sessions.get (w.now + ms) id = some session → session.userId ≠ userId
  | _ => True

theorem World.Listed.destroyed (h : w.Listed) {userId : Uuid} {id : String} {session : Session}
    (hget : ((StoreCall.destroyAllForUser userId).run w).sessions.get w.now id = some session) :
    session.userId ≠ userId ∧ w.sessions.get w.now id = some session := by
  rw [StoreCall.run_destroyAllForUser] at hget
  cases hset : w.userSessions.entry w.now userId with
  | none =>
      rw [hset] at hget
      refine ⟨?_, hget⟩
      rintro rfl
      obtain ⟨ids, hids, -⟩ := h id session hget
      rw [Store.get, hset] at hids
      cases hids
  | some t =>
      rw [hset] at hget
      obtain ⟨t', ht', hlive, rfl⟩ := Store.get_eq_some.mp hget
      obtain ⟨hnot, hold⟩ := Store.foldl_del_eq_some.mp ht'
      have hbefore := Store.get_eq_some.mpr ⟨t', hold, hlive, rfl⟩
      refine ⟨?_, hbefore⟩
      rintro rfl
      obtain ⟨ids, hids, hmem⟩ := h id t'.value hbefore
      rw [Store.get, hset] at hids
      exact hnot (Option.some.inj hids ▸ hmem)

theorem World.indexed_iff : w.Indexed ↔ w.Listed :=
  ⟨World.Indexed.listed, fun h => ⟨h, fun _ _ _ hget => (h.destroyed hget).1⟩⟩

theorem alive_deadline {V : Type} {v : V} {now ttl d : Nat} (hd : deadline now ttl = some d) :
    (⟨v, some d⟩ : Timed V).alive now = true := by
  obtain ⟨hpos, -, rfl⟩ := deadline_eq_some.mp hd
  simp only [Timed.alive, decide_eq_true_eq]
  omega

/-- A member that is not the one removed stays in the set. -/
theorem get_srem {st : Store Uuid (List String)} {now : Nat} {u v : Uuid} {id other : String}
    {ids : List String} (hget : st.get now v = some ids) (hmem : other ∈ ids) (hne : other ≠ id) :
    ∃ ids', (World.srem st now u id).get now v = some ids' ∧ other ∈ ids' := by
  unfold World.srem
  cases hset : st.entry now u with
  | none => exact ⟨ids, hget, hmem⟩
  | some t =>
      dsimp only
      by_cases hv : v = u
      · subst hv
        rw [Store.get, hset] at hget
        obtain rfl := Option.some.inj hget
        have hrest : other ∈ t.value.filter fun o => o ≠ id :=
          List.mem_filter.mpr ⟨hmem, decide_eq_true hne⟩
        rw [if_neg (List.ne_nil_of_mem hrest)]
        have hlive := (Store.entry_eq_some.mp hset).2
        exact ⟨_, Store.get_set_self (t := { t with value := _ }) hlive, hrest⟩
      · refine ⟨ids, ?_, hmem⟩
        split
        · exact (Store.get_del_ne hv).trans hget
        · exact (Store.get_set_ne hv).trans hget

/-- One call keeps the index complete exactly when it ends no set before the sessions in it. -/
theorem StoreCall.listed_run (h : w.Listed) : (call.run w).Listed ↔ call.EndsListed w := by
  cases call with
  | create session ttl id =>
      apply iff_of_true _ trivial
      rw [run_create, World.sessionCreate]
      split
      · exact h
      · rename_i d hd
        intro other found hget
        have hset : ∀ {ids : List String}, (w.userSessions.set session.userId
            ⟨ids, some d⟩).get w.now session.userId = some ids := fun {ids} =>
          Store.get_set_self (t := ⟨ids, some d⟩) (alive_deadline hd)
        by_cases hother : other = id
        · subst hother
          rw [show (w.sessions.set other ⟨session, some d⟩).get w.now other = some session from
            Store.get_set_self (t := ⟨session, some d⟩) (alive_deadline hd)] at hget
          obtain rfl := Option.some.inj hget
          exact ⟨_, hset, List.mem_insert_self⟩
        · rw [show (w.sessions.set id ⟨session, some d⟩).get w.now other
            = w.sessions.get w.now other from Store.get_set_ne hother] at hget
          obtain ⟨ids, hids, hmem⟩ := h other found hget
          by_cases howner : found.userId = session.userId
          · rw [howner] at hids ⊢
            refine ⟨_, hset, List.mem_insert_of_mem ?_⟩
            rw [hids]
            exact hmem
          · exact ⟨ids, (Store.get_set_ne howner).trans hids, hmem⟩
  | get id =>
      apply iff_of_true _ trivial
      rw [run_get, w.lookedUp_same id]
      exact h
  | refresh id ttl =>
      apply iff_of_true _ trivial
      rw [run_refresh, World.sessionExpire]
      split
      · intro other found hget
        by_cases hother : other = id
        · subst hother
          rw [Store.get_del_self] at hget
          cases hget
        · exact h other found ((Store.get_del_ne hother).symm.trans hget)
      · split
        · exact h
        · exact h
        · rename_i d t hd ht
          obtain ⟨hstored, hlive⟩ := Store.entry_eq_some.mp ht
          intro other found hget
          by_cases hother : other = id
          · subst hother
            obtain ⟨t', ht', -, rfl⟩ := Store.get_eq_some.mp hget
            have hset : some ⟨t.value, some d⟩ = some t' := (Store.set_self ..).symm.trans ht'
            obtain rfl := Option.some.inj hset
            exact h other t.value (Store.get_eq_some.mpr ⟨t, hstored, hlive, rfl⟩)
          · exact h other found ((Store.get_set_ne hother).symm.trans hget)
  | destroy id =>
      apply iff_of_true _ trivial
      rw [run_destroy]
      intro other found hget
      have hother : other ≠ id := by
        rintro rfl
        have hgone : (w.sessions.del other).get w.now other = none := Store.get_del_self ..
        rw [show (w.sessions.del other).get w.now other = some found from hget] at hgone
        cases hgone
      obtain ⟨ids, hids, hmem⟩ := h other found ((Store.get_del_ne hother).symm.trans hget)
      simp only [World.sessionDestroy]
      cases w.sessions.get w.now id with
      | none => exact ⟨ids, hids, hmem⟩
      | some session => exact get_srem hids hmem hother
  | destroyAllForUser userId =>
      apply iff_of_true _ trivial
      intro id found hget
      have hnow : ((destroyAllForUser userId).run w).now = w.now := by
        rw [run_destroyAllForUser]
        split <;> rfl
      rw [hnow] at hget ⊢
      obtain ⟨howner, hbefore⟩ := h.destroyed hget
      obtain ⟨ids, hids, hmem⟩ := h id found hbefore
      refine ⟨ids, ?_, hmem⟩
      rw [run_destroyAllForUser]
      split
      · exact hids
      · exact (Store.get_del_ne howner).trans hids
  | pass ms =>
      constructor
      · intro hafter userId t ht hend id hid session hget
        rintro rfl
        obtain ⟨ids, hids, -⟩ := hafter id session hget
        obtain ⟨t', ht', hlive, -⟩ := Store.get_eq_some.mp hids
        have hsame : w.userSessions session.userId = some t' := ht'
        rw [(Store.entry_eq_some.mp ht).1] at hsame
        obtain rfl := Option.some.inj hsame
        rw [show t.alive (w.now + ms) = true from hlive] at hend
        cases hend
      · intro hends id session hget
        have hlater : w.sessions.get (w.now + ms) id = some session := hget
        obtain ⟨ids, hids, hmem⟩ := h id session (Store.get_of_le (Nat.le_add_right _ ms) hlater)
        obtain ⟨t, ht, hlive, rfl⟩ := Store.get_eq_some.mp hids
        refine ⟨t.value, ?_, hmem⟩
        cases hend : t.alive (w.now + ms) with
        | true => exact Store.get_eq_some.mpr ⟨t, ht, hend, rfl⟩
        | false => exact absurd rfl (hends session.userId t (Store.entry_eq_some.mpr ⟨ht, hlive⟩) hend
            id hmem session hlater)

/-- In a run from an empty store every state has its live sessions in the sets of their users
exactly when time never ends a set before a session in it. -/
theorem index_complete_iff (now : Nat) (users : List User) (calls : List StoreCall) :
    (∀ n, ((World.initial now users).after (calls.take n)).Indexed) ↔
      Trace.Each StoreCall.step (fun w call => call.EndsListed w) (World.initial now users) calls := by
  apply after_iff_each fun _ _ => True
  · intro w call rest _ hindexed
    rw [World.indexed_iff] at hindexed ⊢
    exact ⟨StoreCall.listed_run hindexed, fun _ => trivial⟩
  · trivial
  · rw [World.indexed_iff]
    intro id session hget
    cases hget

end Runs

namespace Sample

/-- Two sessions of one user: the second is short, and a lookup has it in the cache. -/
def carol : Session :=
  ⟨⟨"33333333-3333-3333-3333-333333333333", by decide⟩, "carol@example.com", none, "local", 0⟩

def shortSession : List StoreCall := [.create carol 900 "s", .create carol 1 "t", .get "t", .pass 1000]

end Sample

open Sample

/-- Sessions that are looked up, extended and destroyed while no time passes. -/
theorem cache_unobservable_iff_extended :
    ((World.initial 0 []).after [StoreCall.create carol 900 "s", .get "s", .refresh "s" 60,
      .get "s", .destroy "s", .get "s"]).Transparent := by
  apply (cache_unobservable_iff 0 [] [StoreCall.create carol 900 "s", .get "s",
    .refresh "s" 60, .get "s", .destroy "s", .get "s"] (by decide)).mpr _ 6
  refine fun _ _ => ⟨trivial, fun _ _ => ⟨trivial, fun _ hrun => ⟨?_, fun _ _ => ⟨trivial,
    fun _ _ => ⟨trivial, fun _ _ => ⟨trivial, trivial⟩⟩⟩⟩⟩⟩
  exact fun hends => absurd hends (by decide)

/-- A session of one second, looked up at once, is found in the cache when that second is over. -/
theorem ended_session_served :
    ¬ ((World.initial 0 []).after shortSession).Transparent := by
  intro h
  have hfound := (h "t" carol).mp (by decide)
  exact absurd hfound (by decide)

/-- A login that ends sooner takes the set of the user with it: the session that was there before
lives, is in no set, and survives the destruction of all sessions of its user. -/
theorem unlisted_session :
    let w := (World.initial 0 []).after shortSession
    ¬ w.Indexed ∧ ((StoreCall.destroyAllForUser carol.userId).run w).sessions.get w.now "s"
      = some carol := by
  refine ⟨fun h => ?_, by decide⟩
  exact h.destroyed carol.userId "s" carol (by decide) rfl

end FullStackHex
