import FullStackHex.World

/-!
What one step can do to each part of the world. Every lemma lists all effects
on one field, under any fault; a step that is not listed leaves it alone.
-/

namespace FullStackHex

open Concurrent Expiring

namespace World

variable (e : Choice) (c : Cmd) (w : World)

/-- Under a fault a command has its effect or none. -/
theorem answer_effect {α : Type} (f : Fault) (r : Except CacheError α × World) :
    (w.answer f r).2 = w ∨ (w.answer f r).2 = r.2 := by
  cases f with
  | none => exact Or.inr rfl
  | refused message => exact Or.inl rfl
  | lost message => exact Or.inr rfl

theorem answerDb_effect {α : Type} (f : Fault) (r : Except DbError α × World) :
    (w.answerDb f r).2 = w ∨ (w.answerDb f r).2 = r.2 := by
  cases f with
  | none => exact Or.inr rfl
  | refused message => exact Or.inl rfl
  | lost message => exact Or.inr rfl

/-- The fields that hold sessions and cached values. -/
structure SameStores (w w' : World) : Prop where
  now : w'.now = w.now
  sessions : w'.sessions = w.sessions
  sessionCache : w'.sessionCache = w.sessionCache
  userSessions : w'.userSessions = w.userSessions
  destroying : w'.destroying = w.destroying
  cached : w'.cached = w.cached

theorem SameStores.refl (w : World) : SameStores w w := ⟨rfl, rfl, rfl, rfl, rfl, rfl⟩

theorem SameStores.answer {α : Type} {w : World} {r : Except CacheError α × World}
    (h : SameStores w r.2) (f : Fault) : SameStores w (w.answer f r).2 := by
  rcases w.answer_effect f r with heq | heq
  · rw [heq]
    exact .refl w
  · rwa [heq]

theorem SameStores.answerDb {α : Type} {w : World} {r : Except DbError α × World}
    (h : SameStores w r.2) (f : Fault) : SameStores w (w.answerDb f r).2 := by
  rcases w.answerDb_effect f r with heq | heq
  · rw [heq]
    exact .refl w
  · rwa [heq]

/-- Commands that write none of these fields. -/
def Inert : Cmd → Prop
  | .pass _ | .sessionCacheGet _ | .sessionCachePut _ _ | .sessionCacheRemove _
  | .sessionCacheRetain _ | .sessionCreate _ _ | .sessionDestroy _ | .sessionExpire _ _
  | .renameSessions _ | .delDestroying _ | .delSessions _ | .set _ _ _ _ | .setFresh _ _ _
  | .del _ _ | .getdel _ _ => False
  | _ => True

theorem backoffRead_same (key : String) : SameStores w (w.backoffRead key).2 := by
  unfold backoffRead
  split <;> exact ⟨rfl, rfl, rfl, rfl, rfl, rfl⟩

theorem backoffIncrement_same (key : String) (t₁ t₂ t₃ t₄ : Nat) :
    SameStores w (w.backoffIncrement key t₁ t₂ t₃ t₄).2 := by
  unfold backoffIncrement
  dsimp only
  split <;> exact ⟨rfl, rfl, rfl, rfl, rfl, rfl⟩

theorem rateLimit_same (key : String) (start now max ttl : Nat) (member : String) :
    SameStores w (w.rateLimit key start now max ttl member).2 := by
  unfold rateLimit
  dsimp only
  split <;> split <;> exact ⟨rfl, rfl, rfl, rfl, rfl, rfl⟩

theorem rateLimitPurge_same (key : String) (limit : Int) :
    SameStores w (w.rateLimitPurge key limit) := by
  unfold rateLimitPurge
  split
  · exact .refl w
  · dsimp only
    split <;> exact ⟨rfl, rfl, rfl, rfl, rfl, rfl⟩

theorem addUser_same (user : User) : SameStores w (w.addUser user).2 := by
  unfold addUser
  split
  · exact .refl w
  · split
    · exact .refl w
    · exact ⟨rfl, rfl, rfl, rfl, rfl, rfl⟩

theorem upsertUser_same (user : User) : SameStores w (w.upsertUser user).2 := by
  unfold upsertUser
  split
  · exact w.addUser_same user
  · dsimp only
    split <;> exact ⟨rfl, rfl, rfl, rfl, rfl, rfl⟩

theorem updatePassword_same (hash : String) (id : Uuid) :
    SameStores w (w.updatePassword hash id).2 := by
  unfold updatePassword
  dsimp only
  split <;> exact ⟨rfl, rfl, rfl, rfl, rfl, rfl⟩

theorem exec_inert (h : Inert c) : SameStores w (exec e c w).2 := by
  cases c with
  | pass | sessionCacheGet | sessionCachePut | sessionCacheRemove | sessionCacheRetain
  | sessionCreate | sessionDestroy | sessionExpire | renameSessions | delDestroying
  | delSessions | set | setFresh | del | getdel => cases h
  | now | draw | exchangeCode | releasePermit => exact ⟨rfl, rfl, rfl, rfl, rfl, rfl⟩
  | acquirePermit =>
      simp only [exec, acquirePermit]
      split <;> exact ⟨rfl, rfl, rfl, rfl, rfl, rfl⟩
  | reserveConnection userId max =>
      simp only [exec, reserveConnection]
      split <;> exact ⟨rfl, rfl, rfl, rfl, rfl, rfl⟩
  | sessionGet | destroyingMembers | get | rateLimitCard =>
      exact (SameStores.refl w).answer e.fault
  | backoffRead key => exact (w.backoffRead_same key).answer e.fault
  | backoffIncrement key t₁ t₂ t₃ t₄ =>
      exact (w.backoffIncrement_same key t₁ t₂ t₃ t₄).answer e.fault
  | rateLimit key start now max ttl =>
      exact (w.rateLimit_same key start now max ttl e.token).answer e.fault
  | rateLimitPurge key limit =>
      exact SameStores.answer (r := (.ok (), _)) (w.rateLimitPurge_same key limit) e.fault
  | selectUserByEmail | selectUserById => exact (SameStores.refl w).answerDb e.fault
  | insertUser => exact (w.addUser_same _).answerDb e.fault
  | upsertUser => exact (w.upsertUser_same _).answerDb e.fault
  | updatePassword hash id => exact (w.updatePassword_same hash id).answerDb e.fault
  | deleteNotes id =>
      have h : SameStores w (w.deleteNotes id) := ⟨rfl, rfl, rfl, rfl, rfl, rfl⟩
      exact SameStores.answerDb (r := (.ok (), _)) h e.fault
  | deleteUser id =>
      have h : SameStores w (w.deleteUser id).2 := ⟨rfl, rfl, rfl, rfl, rfl, rfl⟩
      exact SameStores.answerDb (r := (.ok _, _)) h e.fault

/-- Everything that a step can do to these fields. -/
inductive Effect (e : Choice) (w : World) : Cmd → World → Prop
  | same {c : Cmd} {w' : World} (h : SameStores w w') : Effect e w c w'
  | pass (ms : Nat) : Effect e w (.pass ms) { w with now := w.now + ms }
  | cacheErase {c : Cmd} (id : String)
      (hc : c = .sessionCacheGet id ∨ c = .sessionCacheRemove id) :
      Effect e w c { w with sessionCache := w.sessionCache.erase id }
  | cachePut (id : String) (session : Session) :
      Effect e w (.sessionCachePut id session) (w.sessionCachePut id session)
  | cacheRetain (userId : Uuid) : Effect e w (.sessionCacheRetain userId) { w with
      sessionCache := w.sessionCache.retain fun _ entry => entry.2.userId ≠ userId }
  | create (session : Session) (ttl d : Nat) (hd : deadline w.now ttl = some d) :
      Effect e w (.sessionCreate session ttl) { w with
        sessions := w.sessions.set e.token ⟨session, some d⟩
        userSessions := w.userSessions.set session.userId
          ⟨((w.userSessions.get w.now session.userId).getD []).insert e.token, some d⟩ }
  | destroy (id : String) : Effect e w (.sessionDestroy id) (w.sessionDestroy id)
  | expireNow (id : String) (ttl : Nat) :
      Effect e w (.sessionExpire id ttl) { w with sessions := w.sessions.del id }
  | extend (id : String) (ttl d : Nat) (t : Timed Session) (hd : deadline w.now ttl = some d)
      (ht : w.sessions.entry w.now id = some t) :
      Effect e w (.sessionExpire id ttl)
        { w with sessions := w.sessions.set id ⟨t.value, some d⟩ }
  | rename (userId : Uuid) (t : Timed (List String))
      (ht : w.userSessions.entry w.now userId = some t) :
      Effect e w (.renameSessions userId) { w with
        userSessions := w.userSessions.del userId
        destroying := w.destroying.set userId t }
  | delDestroying (userId : Uuid) :
      Effect e w (.delDestroying userId) { w with destroying := w.destroying.del userId }
  | delSessions (ids : List String) (hids : ids ≠ []) :
      Effect e w (.delSessions ids) { w with sessions := ids.foldl Store.del w.sessions }
  | store {c : Cmd} (ns : Namespace) (key : String) (value : ns.Value) (ttl d : Nat)
      (hc : c = .set ns key value ttl ∨ c = .setFresh ns value ttl ∧ key = e.token)
      (hd : deadline w.now ttl = some d) :
      Effect e w c (w.setCached ns ((w.cached ns).set key ⟨value, some d⟩))
  | drop {c : Cmd} (ns : Namespace) (key : String)
      (hc : c = .del ns key ∨ c = .getdel ns key) :
      Effect e w c (w.setCached ns ((w.cached ns).del key))

theorem Effect.answer {α : Type} {e : Choice} {w : World} {c : Cmd}
    {r : Except CacheError α × World} (h : Effect e w c r.2) (f : Fault) :
    Effect e w c (w.answer f r).2 := by
  rcases w.answer_effect f r with heq | heq
  · rw [heq]
    exact .same (.refl w)
  · rwa [heq]

theorem set_effect {c : Cmd} {ns : Namespace} {key : String} {value : ns.Value} {ttl : Nat}
    (hc : c = .set ns key value ttl ∨ c = .setFresh ns value ttl ∧ key = e.token) :
    Effect e w c (w.set ns key value ttl).2 := by
  unfold set
  cases hd : deadline w.now ttl with
  | none => exact .same (.refl w)
  | some d => exact .store ns key value ttl d hc hd

/-- One step of the world. -/
theorem exec_effect : Effect e w c (exec e c w).2 := by
  by_cases h : Inert c
  · exact .same (exec_inert e c w h)
  · cases c with
    | pass ms => exact .pass ms
    | sessionCacheGet id =>
        simp only [exec, sessionCacheGet]
        split
        · split
          · exact .same (.refl w)
          · exact .cacheErase id (Or.inl rfl)
        · exact .same (.refl w)
    | sessionCachePut id session => exact .cachePut id session
    | sessionCacheRemove id => exact .cacheErase id (Or.inr rfl)
    | sessionCacheRetain userId => exact .cacheRetain userId
    | sessionCreate session ttl =>
        refine Effect.answer ?_ e.fault
        unfold sessionCreate
        cases hd : deadline w.now ttl with
        | none => exact .same (.refl w)
        | some d => exact .create session ttl d hd
    | sessionDestroy id => exact (Effect.destroy id).answer (r := (.ok (), _)) e.fault
    | sessionExpire id ttl =>
        refine Effect.answer ?_ e.fault
        unfold sessionExpire
        split
        · exact .expireNow id ttl
        · cases hd : deadline w.now ttl with
          | none => exact .same (.refl w)
          | some d =>
              cases ht : w.sessions.entry w.now id with
              | none => exact .same (.refl w)
              | some t => exact .extend id ttl d t hd ht
    | renameSessions userId =>
        refine Effect.answer ?_ e.fault
        unfold renameSessions
        cases ht : w.userSessions.entry w.now userId with
        | none => exact .same (.refl w)
        | some t => exact .rename userId t ht
    | delDestroying userId => exact (Effect.delDestroying userId).answer (r := (.ok (), _)) e.fault
    | delSessions ids =>
        refine Effect.answer ?_ e.fault
        unfold delSessions
        split
        · exact .same (.refl w)
        · rename_i hids
          exact .delSessions ids hids
    | set ns key value ttl => exact (set_effect e w (Or.inl rfl)).answer e.fault
    | setFresh ns value ttl =>
        have hset : Effect e w (.setFresh ns value ttl) (w.set ns e.token value ttl).2 :=
          set_effect e w (Or.inr ⟨rfl, rfl⟩)
        exact Effect.answer (r := ((w.set ns e.token value ttl).1.map fun _ => e.token, _)) hset
          e.fault
    | del ns key => exact (Effect.drop ns key (Or.inl rfl)).answer (r := (.ok (), _)) e.fault
    | getdel ns key => exact (Effect.drop ns key (Or.inr rfl)).answer (r := (.ok _, _)) e.fault
    | _ => exact absurd trivial h

theorem Effect.now_le {e : Choice} {w w' : World} {c : Cmd} (h : Effect e w c w') :
    w.now ≤ w'.now := by
  cases h with
  | same h => exact h.now.ge
  | pass ms => exact Nat.le_add_right _ _
  | _ => exact le_refl _

/-- Only the passing of time changes the time. -/
theorem Effect.now {e : Choice} {w w' : World} {c : Cmd} (h : Effect e w c w')
    (hc : ∀ ms, c ≠ .pass ms) : w'.now = w.now := by
  cases h with
  | same h => exact h.now
  | pass ms => exact absurd rfl (hc ms)
  | _ => rfl

/-- A cached value was there before, or has just been stored. -/
theorem Effect.cached_some {e : Choice} {w w' : World} {c : Cmd} (h : Effect e w c w')
    {ns : Namespace} {key : String} {value : ns.Value}
    (hget : (w'.cached ns).get w'.now key = some value) :
    (w.cached ns).get w.now key = some value ∨ ∃ ttl,
      c = .set ns key value ttl ∨ (c = .setFresh ns value ttl ∧ key = e.token) := by
  have hsame : w'.cached ns = w.cached ns → (w.cached ns).get w.now key = some value := by
    intro hcached
    rw [hcached] at hget
    exact Store.get_of_le h.now_le hget
  cases h with
  | same h => exact Or.inl (hsame (by rw [h.cached]))
  | store ns' key' stored ttl d hc hd =>
      by_cases hns : ns = ns'
      · subst hns
        rw [setCached_self] at hget
        by_cases hkey : key = key'
        · subst hkey
          obtain ⟨t, ht, -, hvalue⟩ := Store.get_eq_some.mp hget
          rw [Store.set_self] at ht
          obtain rfl := Option.some.inj ht
          obtain rfl : stored = value := hvalue
          exact Or.inr ⟨ttl, hc⟩
        · exact Or.inl ((Store.get_set_ne hkey).symm.trans hget)
      · exact Or.inl (hsame (setCached_ne hns))
  | drop ns' key' hc =>
      by_cases hns : ns = ns'
      · subst hns
        rw [setCached_self] at hget
        by_cases hkey : key = key'
        · subst hkey
          rw [Store.get_del_self] at hget
          cases hget
        · exact Or.inl ((Store.get_del_ne hkey).symm.trans hget)
      · exact Or.inl (hsame (setCached_ne hns))
  | _ => exact Or.inl (hsame rfl)

/-- Only a write puts a cached value where none was. -/
theorem Effect.cached_none {e : Choice} {w w' : World} {c : Cmd} (h : Effect e w c w')
    {ns : Namespace} {key : String} (hnone : (w.cached ns).get w.now key = none) :
    (w'.cached ns).get w'.now key = none ∨ ∃ value ttl,
      c = .set ns key value ttl ∨ (c = .setFresh ns value ttl ∧ key = e.token) := by
  cases hget : (w'.cached ns).get w'.now key with
  | none => exact Or.inl rfl
  | some value =>
      rcases h.cached_some hget with hbefore | ⟨ttl, hc⟩
      · rw [hnone] at hbefore
        cases hbefore
      · exact Or.inr ⟨value, ttl, hc⟩

/-- Commands that write a cached value. -/
def WritesCached : Cmd → Prop
  | .set _ _ _ _ | .setFresh _ _ _ | .del _ _ | .getdel _ _ => True
  | _ => False

theorem Effect.cached {e : Choice} {w w' : World} {c : Cmd} (h : Effect e w c w')
    (hc : ¬ WritesCached c) : w'.cached = w.cached := by
  cases h with
  | same h => exact h.cached
  | store ns key value ttl d hstore =>
      rcases hstore with rfl | ⟨rfl, -⟩
      · exact absurd trivial hc
      · exact absurd trivial hc
  | drop ns key hdrop =>
      rcases hdrop with rfl | rfl
      · exact absurd trivial hc
      · exact absurd trivial hc
  | _ => rfl

/-! ## The tables -/

/-- The two tables of Postgres. -/
structure SameTables (w w' : World) : Prop where
  users : w'.users = w.users
  notes : w'.notes = w.notes

theorem SameTables.refl (w : World) : SameTables w w := ⟨rfl, rfl⟩

theorem SameTables.answer {α : Type} {w : World} {r : Except CacheError α × World}
    (h : SameTables w r.2) (f : Fault) : SameTables w (w.answer f r).2 := by
  rcases w.answer_effect f r with heq | heq
  · rw [heq]
    exact .refl w
  · rwa [heq]

theorem SameTables.answerDb {α : Type} {w : World} {r : Except DbError α × World}
    (h : SameTables w r.2) (f : Fault) : SameTables w (w.answerDb f r).2 := by
  rcases w.answerDb_effect f r with heq | heq
  · rw [heq]
    exact .refl w
  · rwa [heq]

/-- Statements that write a table. -/
def WritesTable : Cmd → Prop
  | .insertUser _ _ _ | .upsertUser _ _ _ | .updatePassword _ _ | .deleteNotes _
  | .deleteUser _ => True
  | _ => False

theorem set_tables (ns : Namespace) (key : String) (value : ns.Value) (ttl : Nat) :
    SameTables w (w.set ns key value ttl).2 := by
  unfold set
  split <;> exact ⟨rfl, rfl⟩

/-- Only the statements that write a table change it. -/
theorem exec_tables (h : ¬ WritesTable c) : SameTables w (exec e c w).2 := by
  cases c with
  | insertUser | upsertUser | updatePassword | deleteNotes | deleteUser => exact absurd trivial h
  | sessionCacheGet id =>
      simp only [exec, sessionCacheGet]
      split
      · split <;> exact ⟨rfl, rfl⟩
      · exact ⟨rfl, rfl⟩
  | acquirePermit =>
      simp only [exec, acquirePermit]
      split <;> exact ⟨rfl, rfl⟩
  | reserveConnection userId max =>
      simp only [exec, reserveConnection]
      split <;> exact ⟨rfl, rfl⟩
  | sessionCreate session ttl =>
      refine SameTables.answer ?_ e.fault
      unfold sessionCreate
      split <;> exact ⟨rfl, rfl⟩
  | sessionExpire id ttl =>
      refine SameTables.answer ?_ e.fault
      unfold sessionExpire
      split
      · exact ⟨rfl, rfl⟩
      · split <;> exact ⟨rfl, rfl⟩
  | renameSessions userId =>
      refine SameTables.answer ?_ e.fault
      unfold renameSessions
      split <;> exact ⟨rfl, rfl⟩
  | delSessions ids =>
      refine SameTables.answer ?_ e.fault
      unfold delSessions
      split <;> exact ⟨rfl, rfl⟩
  | set ns key value ttl => exact (w.set_tables ns key value ttl).answer e.fault
  | setFresh ns value ttl =>
      exact SameTables.answer (r := ((w.set ns e.token value ttl).1.map fun _ => e.token, _))
        (w.set_tables ns e.token value ttl) e.fault
  | backoffRead key =>
      have hread : SameTables w (w.backoffRead key).2 := by
        unfold backoffRead
        split <;> exact ⟨rfl, rfl⟩
      exact SameTables.answer (r := (.ok _, _)) hread e.fault
  | backoffIncrement key t₁ t₂ t₃ t₄ =>
      refine SameTables.answer ?_ e.fault
      unfold backoffIncrement
      dsimp only
      split <;> exact ⟨rfl, rfl⟩
  | rateLimit key windowStart now max ttl =>
      refine SameTables.answer ?_ e.fault
      unfold rateLimit
      dsimp only
      split <;> split <;> exact ⟨rfl, rfl⟩
  | rateLimitPurge key limit =>
      have hpurge : SameTables w (w.rateLimitPurge key limit) := by
        unfold rateLimitPurge
        split
        · exact ⟨rfl, rfl⟩
        · dsimp only
          split <;> exact ⟨rfl, rfl⟩
      exact SameTables.answer (r := (.ok (), _)) hpurge e.fault
  | sessionGet | destroyingMembers | get | rateLimitCard =>
      exact (SameTables.refl w).answer e.fault
  | sessionDestroy | delDestroying | del | getdel =>
      refine SameTables.answer ?_ e.fault
      exact ⟨rfl, rfl⟩
  | selectUserByEmail | selectUserById => exact SameTables.answerDb (.refl w) e.fault
  | _ => exact ⟨rfl, rfl⟩

/-- Everything that a step can do to the rows of `users`. -/
inductive UserEffect (w : World) : Cmd → List User → Prop
  | same {c : Cmd} : UserEffect w c w.users
  | add {c : Cmd} (user : User) (hid : ∀ row ∈ w.users, row.id ≠ user.id)
      (hemail : ∀ row ∈ w.users, row.email ≠ user.email) : UserEffect w c (w.users ++ [user])
  | change {c : Cmd} (f : User → User) (hid : ∀ row, (f row).id = row.id)
      (hemail : ∀ row, (f row).email = row.email) : UserEffect w c (w.users.map f)
  | delete (userId : Uuid) :
      UserEffect w (.deleteUser userId) (w.users.filter fun user => user.id ≠ userId)

theorem UserEffect.answerDb {α : Type} {w : World} {c : Cmd} {r : Except DbError α × World}
    (h : UserEffect w c r.2.users) (f : Fault) : UserEffect w c (w.answerDb f r).2.users := by
  rcases w.answerDb_effect f r with heq | heq
  · rw [heq]
    exact .same
  · rwa [heq]

/-- A row is added if neither its id nor its email is taken. -/
theorem addUser_effect (user : User) : UserEffect w c (w.addUser user).2.users := by
  unfold addUser
  split
  · exact .same
  · split
    · exact .same
    · rename_i hfree
      simp only [Bool.or_eq_true, not_or, Bool.not_eq_true, Option.isSome_eq_false_iff,
        Option.isNone_iff_eq_none, userById, userByEmail, List.find?_eq_none,
        decide_eq_true_eq] at hfree
      exact .add user hfree.1 hfree.2

/-- An insertion that succeeds. -/
theorem addUser_ok {w : World} {user : User} {id : Uuid} (h : (w.addUser user).1 = .ok id) :
    id = user.id ∧ w.userByEmail user.email = none ∧
      (w.addUser user).2 = { w with users := w.users ++ [user] } := by
  unfold addUser at h ⊢
  split at h
  · cases h
  · rename_i hfits
    rw [if_neg hfits]
    split at h
    · cases h
    · rename_i hfree
      rw [if_neg hfree]
      refine ⟨(Except.ok.inj h).symm, ?_, rfl⟩
      simp only [Bool.or_eq_true, not_or, Bool.not_eq_true, Option.isSome_eq_false_iff,
        Option.isNone_iff_eq_none] at hfree
      exact hfree.2

theorem addUser_error {w : World} {user : User} {err : DbError}
    (h : (w.addUser user).1 = .error err) : (w.addUser user).2 = w := by
  unfold addUser at h ⊢
  split at h
  · rename_i hfits
    rw [if_pos hfits]
  · rename_i hfits
    rw [if_neg hfits]
    split at h
    · rename_i htaken
      rw [if_pos htaken]
    · cases h

theorem upsertUser_effect (user : User) : UserEffect w c (w.upsertUser user).2.users := by
  unfold upsertUser
  split
  · exact w.addUser_effect c user
  · dsimp only
    split
    · exact .change _ (fun row => by split <;> rfl) (fun row => by split <;> rfl)
    · exact .same

theorem updatePassword_effect (hash : String) (id : Uuid) :
    UserEffect w c (w.updatePassword hash id).2.users := by
  unfold updatePassword
  dsimp only
  split
  · exact .change _ (fun row => by split <;> rfl) (fun row => by split <;> rfl)
  · exact .same

/-- One step of the table. -/
theorem exec_users : UserEffect w c (exec e c w).2.users := by
  by_cases h : WritesTable c
  · cases c with
    | insertUser => exact (w.addUser_effect _ _).answerDb e.fault
    | upsertUser => exact (w.upsertUser_effect _ _).answerDb e.fault
    | updatePassword hash id => exact (w.updatePassword_effect _ hash id).answerDb e.fault
    | deleteNotes id =>
        have h : UserEffect w (.deleteNotes id) (w.deleteNotes id).users := .same
        exact UserEffect.answerDb (r := ((.ok () : Except DbError Unit), w.deleteNotes id)) h e.fault
    | deleteUser id =>
        exact UserEffect.answerDb (r := ((.ok _ : Except DbError Nat), (w.deleteUser id).2))
          (.delete id) e.fault
    | _ => cases h
  · rw [(exec_tables e c w h).users]
    exact .same

/-- The constraints of the table: no id and no email stands in two rows. -/
structure Distinct (users : List User) : Prop where
  ids : (users.map User.id).Nodup
  emails : (users.map User.email).Nodup

theorem UserEffect.distinct {w : World} {c : Cmd} {users : List User} (h : UserEffect w c users)
    (hw : Distinct w.users) : Distinct users := by
  cases h with
  | same => exact hw
  | add user hid hemail =>
      constructor
      · rw [List.map_append, List.nodup_append]
        refine ⟨hw.ids, List.nodup_singleton _, ?_⟩
        simpa using hid
      · rw [List.map_append, List.nodup_append]
        refine ⟨hw.emails, List.nodup_singleton _, ?_⟩
        simpa using hemail
  | change f hid hemail =>
      constructor
      · have hsame : User.id ∘ f = User.id := funext hid
        rw [List.map_map, hsame]
        exact hw.ids
      · have hsame : User.email ∘ f = User.email := funext hemail
        rw [List.map_map, hsame]
        exact hw.emails
  | delete userId =>
      exact ⟨hw.ids.sublist (List.filter_sublist.map _), hw.emails.sublist (List.filter_sublist.map _)⟩

/-- A row stays unless its user is deleted. -/
theorem UserEffect.email_mem {w : World} {c : Cmd} {users : List User} (h : UserEffect w c users)
    (hc : ∀ userId, c ≠ .deleteUser userId) {email : String}
    (hemail : email ∈ w.users.map User.email) : email ∈ users.map User.email := by
  cases h with
  | same => exact hemail
  | add user =>
      rw [List.map_append]
      exact List.mem_append_left _ hemail
  | change f hid hsame =>
      have hcomp : User.email ∘ f = User.email := funext hsame
      rwa [List.map_map, hcomp]
  | delete userId => exact absurd rfl (hc userId)

end World

end FullStackHex
