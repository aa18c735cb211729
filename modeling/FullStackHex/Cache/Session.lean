import FullStackHex.World

/-!
The session store, from `cache/src/session.rs`: sessions live in Redis, with an
index of the session ids of each user, and lookups are kept in the process.
-/

namespace FullStackHex

open Concurrent Expiring

/-- Create a session; the id is random. -/
def sessionCreate (session : Session) (ttl : UInt64) : ExceptT CacheError Action String :=
  .mk (ask (.sessionCreate session ttl.toNat))

/-- Destroy all sessions of a user. A set that is missing ends the call early;
other failures are only logged. -/
def sessionDestroyAllForUser (userId : Uuid) : Action Unit := do
  match ← ask (.renameSessions userId) with
  | .error _ => return ()
  | .ok () =>
      let sessionIds := (← ask (.destroyingMembers userId)).toOption.getD []
      let _ ← ask (.delDestroying userId)
      let _ ← ask (.delSessions sessionIds)
      ask (.sessionCacheRetain userId)

def sessionGet (sessionId : String) : ExceptT CacheError Action Session := do
  match ← (ask (.sessionCacheGet sessionId) : Action (Option Session)) with
  | some session => return session
  | none =>
      match ← ExceptT.mk (ask (.sessionGet sessionId)) with
      | some session =>
          let _ ← (ask (.sessionCachePut sessionId session) : Action Unit)
          return session
      | none => throw .sessionNotFound

def sessionDestroy (sessionId : String) : ExceptT CacheError Action Unit := do
  let _ ← ExceptT.mk (ask (.sessionDestroy sessionId))
  let _ ← (ask (.sessionCacheRemove sessionId) : Action Unit)

def sessionRefresh (sessionId : String) (ttl : UInt64) : ExceptT CacheError Action Unit :=
  .mk (ask (.sessionExpire sessionId ttl.toNat))

/-- What `session_get` finds: the cached session, else the one in Redis. -/
def World.resolve (w : World) (sessionId : String) : Option Session :=
  (w.sessionCacheGet sessionId).1.or (w.sessions.get w.now sessionId)

/-- Two states that differ in their session caches only. -/
def World.SameButCache (w w' : World) : Prop :=
  w' = { w with sessionCache := w'.sessionCache }

theorem World.sessionCacheGet_same (w : World) (sessionId : String) :
    w.SameButCache (w.sessionCacheGet sessionId).2 := by
  unfold sessionCacheGet
  split
  · split <;> rfl
  · rfl

theorem World.sessionCacheGet_size (w : World) (sessionId : String) :
    (w.sessionCacheGet sessionId).2.sessionCache.size ≤ w.sessionCache.size := by
  unfold sessionCacheGet
  split
  · split
    · exact le_refl _
    · dsimp only
      rw [Table.size_erase]
      split <;> omega
  · exact le_refl _

/-- The state that a lookup leaves behind. -/
def World.lookedUp (w : World) (sessionId : String) : World :=
  (alone .calm (sessionGet sessionId) w).2

theorem alone_sessionGet (sessionId : String) (w : World) :
    alone .calm (sessionGet sessionId) w
      = ((w.resolve sessionId).elim (.error .sessionNotFound) .ok, w.lookedUp sessionId) ∧
    w.lookedUp sessionId =
      match (w.sessionCacheGet sessionId).1, w.sessions.get w.now sessionId with
      | some _, _ => (w.sessionCacheGet sessionId).2
      | none, some session => (w.sessionCacheGet sessionId).2.sessionCachePut sessionId session
      | none, none => (w.sessionCacheGet sessionId).2 := by
  have hsame := w.sessionCacheGet_same sessionId
  unfold World.lookedUp sessionGet World.resolve
  rw [alone_bind, alone_lift]
  simp only [Program.run_command, Program.run_ret, World.exec]
  cases hcache : (w.sessionCacheGet sessionId).1 with
  | some session => exact ⟨rfl, rfl⟩
  | none =>
      have hget : (w.sessionCacheGet sessionId).2.sessions.get
          (w.sessionCacheGet sessionId).2.now sessionId = w.sessions.get w.now sessionId := by
        rw [hsame]
      simp only [alone_bind, alone_mk, Program.run_command, Program.run_ret, World.exec,
        Choice.calm_fault, World.answer_none, Option.none_or, hget]
      cases w.sessions.get w.now sessionId with
      | none => exact ⟨rfl, rfl⟩
      | some session => exact ⟨rfl, rfl⟩

theorem World.lookedUp_same (w : World) (sessionId : String) :
    w.SameButCache (w.lookedUp sessionId) := by
  rw [(alone_sessionGet sessionId w).2]
  have hsame := w.sessionCacheGet_same sessionId
  unfold SameButCache at *
  split
  · exact hsame
  · rw [hsame]
    rfl
  · exact hsame

theorem srem_mem {st : Store Uuid (List String)} {now : Nat} {u v : Uuid} {id other : String}
    {t : Timed (List String)} (h : World.srem st now u id v = some t) (hmem : other ∈ t.value) :
    ∃ t', st v = some t' ∧ other ∈ t'.value := by
  unfold World.srem at h
  cases hentry : st.entry now u with
  | none =>
      rw [hentry] at h
      exact ⟨t, h, hmem⟩
  | some t' =>
      simp only [hentry] at h
      split_ifs at h
      · exact ⟨t, (Store.del_eq_some.mp h).2, hmem⟩
      · rcases Store.set_eq_some.mp h with ⟨rfl, rfl⟩ | ⟨_, ht⟩
        · exact ⟨t', (Store.entry_eq_some.mp hentry).1, (List.mem_filter.mp hmem).1⟩
        · exact ⟨t, ht, hmem⟩

end FullStackHex
