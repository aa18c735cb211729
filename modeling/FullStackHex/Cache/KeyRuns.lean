import FullStackHex.Cache.Keys

/-!
The backend on a Redis of texts against the backend on `World`: whatever is stored, every command
is answered alike and changes the same key, so that all runs are the same.
-/

namespace FullStackHex

open Concurrent Expiring Codec JsonText

/-! ## The key spaces of a world as one map -/

/-- What `World` has under a key. -/
abbrev RedisKey.Held : RedisKey → Type
  | .session _ => Session
  | .userSessions _ => List String
  | .destroying _ => List String
  | .cached ns _ => ns.Value
  | .backoff _ => Nat
  | .rateLimit _ => List (Nat × String)

/-- What Redis has under the text of the key. -/
def RedisKey.encode : (k : RedisKey) → k.Held → Redis.Value
  | .session _, value => .text (sessionText value)
  | .userSessions _, ids => .set ids
  | .destroying _, ids => .set ids
  | .cached ns _, value => .text (ns.write value)
  | .backoff _, count => .text (toString (show Nat from count))
  | .rateLimit _, entries => .sorted entries

def RedisKey.timed (k : RedisKey) (t : Timed k.Held) : Timed Redis.Value :=
  ⟨k.encode t.value, t.deadline⟩

namespace World

def raw (w : World) : (k : RedisKey) → Option (Timed k.Held)
  | .session id => w.sessions id
  | .userSessions u => w.userSessions u
  | .destroying u => w.destroying u
  | .cached ns key => w.cached ns key
  | .backoff key => w.backoff key
  | .rateLimit key => w.rateLimits key

def put (w : World) : (k : RedisKey) → Option (Timed k.Held) → World
  | .session id, v => { w with sessions := Function.update w.sessions id v }
  | .userSessions u, v => { w with userSessions := Function.update w.userSessions u v }
  | .destroying u, v => { w with destroying := Function.update w.destroying u v }
  | .cached ns key, v => w.setCached ns (Function.update (w.cached ns) key v)
  | .backoff key, v => { w with backoff := Function.update w.backoff key v }
  | .rateLimit key, v => { w with rateLimits := Function.update w.rateLimits key v }

/-- What has not expired. -/
def live (w : World) (k : RedisKey) : Option (Timed k.Held) :=
  (w.raw k).filter fun t => t.alive w.now

def slot (w : World) (k : RedisKey) : Option (Timed Redis.Value) := (w.live k).map k.timed

/-- The world without what is in Redis. -/
def bare (w : World) : World where
  now := w.now
  sessionCache := w.sessionCache
  sessions := .empty
  userSessions := .empty
  destroying := .empty
  cached _ := .empty
  backoff := .empty
  rateLimits := .empty
  users := w.users
  notes := w.notes
  permits := w.permits
  userConnections := w.userConnections

variable {w : World} {k k' : RedisKey} {v : Option (Timed k.Held)}

@[simp] theorem put_now : (w.put k v).now = w.now := by cases k <;> rfl

@[simp] theorem put_bare : (w.put k v).bare = w.bare := by cases k <;> rfl

theorem raw_put_self : (w.put k v).raw k = v := by
  cases k with
  | cached ns key =>
      simp only [put, raw, setCached_self, Function.update_self]
  | _ => exact Function.update_self _ _ _

theorem raw_put_ne (h : k' ≠ k) : (w.put k v).raw k' = w.raw k' := by
  have hne : ∀ {κ V : Type} [DecidableEq κ] (make : κ → RedisKey) {st : κ → V} {a b : κ} {x : V},
      make b ≠ make a → Function.update st a x b = st b := by
    intro κ V _ make st a b x hmake
    exact Function.update_of_ne (fun hab => hmake (congrArg make hab)) _ _
  cases k with
  | session id =>
      cases k' with
      | session id' => exact hne RedisKey.session h
      | _ => rfl
  | userSessions u =>
      cases k' with
      | userSessions u' => exact hne RedisKey.userSessions h
      | _ => rfl
  | destroying u =>
      cases k' with
      | destroying u' => exact hne RedisKey.destroying h
      | _ => rfl
  | cached ns key =>
      cases k' with
      | cached ns' key' =>
          by_cases hns : ns' = ns
          · subst hns
            simp only [put, raw, setCached_self]
            exact hne (RedisKey.cached ns') h
          · simp only [put, raw, setCached_ne hns]
      | _ => rfl
  | backoff key =>
      cases k' with
      | backoff key' => exact hne RedisKey.backoff h
      | _ => rfl
  | rateLimit key =>
      cases k' with
      | rateLimit key' => exact hne RedisKey.rateLimit h
      | _ => rfl

theorem timed_filter (now : Nat) (x : Option (Timed k.Held)) :
    (x.filter fun t => t.alive now).map k.timed
      = (x.map k.timed).filter fun t => t.alive now := by
  cases x with
  | none => rfl
  | some t =>
      have halive : (k.timed t).alive now = t.alive now := rfl
      simp only [Option.map_some, Option.filter_some, halive]
      split <;> rfl

theorem slot_put : (w.put k v).slot
    = Function.update w.slot k ((v.map k.timed).filter fun t => t.alive w.now) := by
  funext k'
  by_cases h : k' = k
  · subst h
    rw [Function.update_self, slot, live, put_now, raw_put_self, timed_filter]
  · rw [Function.update_of_ne h, slot, live, put_now, raw_put_ne h, slot, live]

theorem live_put_self : (w.put k v).live k = v.filter fun t => t.alive w.now := by
  rw [live, put_now, raw_put_self]

theorem put_put (v' : Option (Timed k.Held)) : (w.put k v).put k v' = w.put k v' := by
  cases k with
  | cached ns key =>
      simp only [put, setCached, Function.update_self, Function.update_idem]
  | _ => simp only [put, Function.update_idem]

end World

/-! ## Agreement -/

section Agreement

open Redis

variable {keyPrefix : String} {b : Backend} {w : World} {α β : Type}

/-- Redis has under its texts what the world has under its keys, and the rest is the same. -/
structure Agree (keyPrefix : String) (b : Backend) (w : World) : Prop where
  held : Refinement.Holds (RedisKey.text keyPrefix) (fun _ => True) (b.redis.entry w.now) w.slot
  process : b.process = w.bare

theorem Agree.now (h : Agree keyPrefix b w) : b.process.now = w.now := by
  rw [h.process]
  rfl

theorem Agree.read (h : Agree keyPrefix b w) (k : RedisKey) :
    b.redis.entry w.now (k.text keyPrefix) = (w.live k).map k.timed := h.held.value k trivial

theorem Agree.write (h : Agree keyPrefix b w) (k : RedisKey) (v : Option (Timed k.Held)) :
    Agree keyPrefix
      { b with redis := Function.update b.redis (k.text keyPrefix) (v.map k.timed) }
      (w.put k v) := by
  constructor
  · rw [World.put_now, Store.entry_update, World.slot_put]
    exact h.held.update (RedisKey.text_injective keyPrefix).injOn trivial _
  · exact h.process.trans World.put_bare.symm

/-- What has expired may be written out. -/
theorem Agree.same (h : Agree keyPrefix b w) (k : RedisKey) :
    Agree keyPrefix b (w.put k (w.live k)) := by
  have hslot : ((w.live k).map k.timed).filter (fun t => t.alive w.now) = w.slot k := by
    rw [← World.timed_filter, World.live, Option.filter_filter, World.slot, World.live]
    simp only [Bool.and_self]
  have hsame : (w.put k (w.live k)).slot = w.slot := by
    rw [World.slot_put, hslot, Function.update_eq_self]
  constructor
  · rw [World.put_now, hsame]
    exact h.held
  · exact h.process.trans World.put_bare.symm

theorem Agree.absent (h : Agree keyPrefix b w) {k : RedisKey} (hk : w.live k = none) :
    Agree keyPrefix b (w.put k none) := hk ▸ h.same k

/-- Time passes: what is in Redis and what is in the world expire together. -/
theorem Agree.pass (h : Agree keyPrefix b w) (ms : Nat) :
    Agree keyPrefix { b with process := { b.process with now := b.process.now + ms } }
      { w with now := w.now + ms } := by
  have hentry : b.redis.entry (w.now + ms)
      = fun n => (b.redis.entry w.now n).filter fun t => t.alive (w.now + ms) := by
    funext n
    exact Store.entry_of_le (Nat.le_add_right _ _) n
  have hslot : ({ w with now := w.now + ms } : World).slot
      = fun k => (w.slot k).filter fun t => t.alive (w.now + ms) := by
    funext k
    have hraw : ({ w with now := w.now + ms } : World).raw k = w.raw k := by cases k <;> rfl
    have hlive : ({ w with now := w.now + ms } : World).live k
        = (w.live k).filter fun t => t.alive (w.now + ms) := by
      unfold World.live
      rw [hraw]
      exact @Store.entry_of_le Unit _ (fun _ => w.raw k) _ _ (Nat.le_add_right _ _) ()
    rw [World.slot, hlive, World.timed_filter, World.slot]
  constructor
  · rw [hentry, hslot]
    exact h.held.filter _
  · rw [h.process]
    rfl

/-- The script answers with `r.1` and leaves what stands for `r.2`. -/
def Matches (keyPrefix : String) (b : Backend) (p : Batch α) (r : Except CacheError α × World) :
    Prop :=
  (perform p b.redis).1 = r.1 ∧
    Agree keyPrefix { b with redis := (perform p b.redis).2 } r.2

theorem Matches.of_perform {p : Batch α} {a : Except CacheError α} {db : Db}
    (hp : perform p b.redis = (a, db)) (h : Agree keyPrefix { b with redis := db } w) :
    Matches keyPrefix b p (a, w) := by
  unfold Matches
  rw [hp]
  exact ⟨rfl, h⟩

theorem Matches.pure (h : Agree keyPrefix b w) (a : α) :
    Matches keyPrefix b (pure a) (.ok a, w) := ⟨rfl, h⟩

theorem Matches.throw (h : Agree keyPrefix b w) (err : CacheError) :
    Matches keyPrefix b (throw err : Batch α) (.error err, w) := ⟨rfl, h⟩

/-- A script goes on where its first part has left off. -/
theorem Matches.bind {p : Batch α} {f : α → Batch β} {a : α} {w' : World}
    {r : Except CacheError β × World} (hp : Matches keyPrefix b p (.ok a, w'))
    (hf : ∀ b', b'.process = b.process → Agree keyPrefix b' w' → Matches keyPrefix b' (f a) r) :
    Matches keyPrefix b (p >>= f) r := by
  have hstep : perform p b.redis = (.ok a, (perform p b.redis).2) := Prod.ext hp.1 rfl
  obtain ⟨hreply, hagree⟩ := hf { b with redis := (perform p b.redis).2 } rfl hp.2
  unfold Matches
  rw [perform_step hstep]
  exact ⟨hreply, hagree⟩

theorem Matches.fail {p : Batch α} {f : α → Batch β} {err : CacheError} {w' : World}
    (hp : Matches keyPrefix b p (.error err, w')) :
    Matches keyPrefix b (p >>= f) (.error err, w') := by
  have hstep : perform p b.redis = (.error err, (perform p b.redis).2) := Prod.ext hp.1 rfl
  unfold Matches
  rw [perform_fail hstep]
  exact ⟨rfl, hp.2⟩

/-- A fault of the connection strikes both alike. -/
theorem Matches.script {p : Batch α} {r : Except CacheError α × World}
    (h : Agree keyPrefix b w) (hp : Matches keyPrefix b p r) (fault : Fault) :
    (b.script fault p).1 = (w.answer fault r).1 ∧
      Agree keyPrefix (b.script fault p).2 (w.answer fault r).2 := by
  cases fault with
  | none => exact hp
  | refused message => exact ⟨rfl, h⟩
  | lost message => exact ⟨rfl, hp.2⟩

/-! ## Commands -/

theorem matches_del (h : Agree keyPrefix b w) (k : RedisKey) :
    Matches keyPrefix b (del (k.text keyPrefix)) (.ok (), w.put k none) :=
  .of_perform rfl (h.write k none)

theorem matches_write (h : Agree keyPrefix b w) (k : RedisKey) (t : Timed k.Held) :
    Matches keyPrefix b (write (k.text keyPrefix) (some (k.timed t)))
      (.ok (), w.put k (some t)) :=
  .of_perform rfl (h.write k (some t))

theorem perform_lookup_of (h : Agree keyPrefix b w) (k : RedisKey) {f : Option (Timed Value) → Batch α}
    {r : Except CacheError α × World}
    (hf : Matches keyPrefix b (f ((w.live k).map k.timed)) r) :
    Matches keyPrefix b (lookup w.now (k.text keyPrefix) >>= f) r := by
  have hstep : perform (lookup w.now (k.text keyPrefix)) b.redis
      = (.ok ((w.live k).map k.timed), b.redis) := by
    rw [perform_lookup, h.read]
  unfold Matches
  rw [perform_step hstep]
  exact hf

theorem matches_getText (h : Agree keyPrefix b w) {k : RedisKey} {text : k.Held → String}
    (htext : ∀ value, k.encode value = .text (text value)) :
    Matches keyPrefix b (getText w.now (k.text keyPrefix))
      (.ok ((w.live k).map fun t => text t.value), w) := by
  refine perform_lookup_of h k ?_
  cases w.live k with
  | none => exact .pure h _
  | some t =>
      simp only [Option.map_some, RedisKey.timed, htext]
      exact .pure h _

theorem matches_setEx (h : Agree keyPrefix b w) {k : RedisKey} {text : k.Held → String}
    (htext : ∀ value, k.encode value = .text (text value)) (value : k.Held) (secs : Nat) :
    Matches keyPrefix b (setEx w.now (k.text keyPrefix) (text value) secs)
      (match deadline w.now secs with
      | none => (.error (invalidExpire "set"), w)
      | some d => (.ok (), w.put k (some ⟨value, some d⟩))) := by
  unfold setEx
  cases deadline w.now secs with
  | none => exact .throw h _
  | some d =>
      have hwrite := matches_write h k ⟨value, some d⟩
      rwa [RedisKey.timed, htext] at hwrite

theorem matches_expire (h : Agree keyPrefix b w) (k : RedisKey) {secs : Nat} (hsecs : 0 < secs) :
    Matches keyPrefix b (expire w.now (k.text keyPrefix) secs)
      (match deadline w.now secs with
      | none => (.error (invalidExpire "expire"), w)
      | some d =>
          match w.live k with
          | none => (.ok (), w)
          | some t => (.ok (), w.put k (some ⟨t.value, some d⟩))) := by
  unfold expire
  rw [if_neg (by omega)]
  cases deadline w.now secs with
  | none => exact .throw h _
  | some d =>
      refine perform_lookup_of h k ?_
      cases w.live k with
      | none => exact .pure h _
      | some t => exact matches_write h k ⟨t.value, some d⟩

/-! ## Sessions -/

theorem destroying_text (u : Uuid) :
    (RedisKey.destroying u).text keyPrefix
      = (RedisKey.userSessions u).text keyPrefix ++ ":destroying" := by
  simp only [RedisKey.text, RedisKey.parts, makeKey, String.append_assoc]

/-- A deadline that is kept has not passed. -/
theorem keptDeadline_alive {κ U V : Type} (st : Store κ V) (key : κ) (value : U) :
    (⟨value, (st.entry w.now key).bind Timed.deadline⟩ : Timed U).alive w.now = true := by
  cases ht : st.entry w.now key with
  | none => rfl
  | some t => exact (Store.entry_eq_some.mp ht).2

theorem matches_sadd (h : Agree keyPrefix b w) (u : Uuid) (id : String) :
    Matches keyPrefix b (sadd w.now ((RedisKey.userSessions u).text keyPrefix) id)
      (.ok (), w.put (.userSessions u) (some
        ⟨((w.userSessions.get w.now u).getD []).insert id,
          (w.userSessions.entry w.now u).bind Timed.deadline⟩)) := by
  refine perform_lookup_of h (.userSessions u) ?_
  have hlive : w.live (.userSessions u) = w.userSessions.entry w.now u := rfl
  rw [hlive, Store.get]
  cases w.userSessions.entry w.now u with
  | none => exact matches_write h (.userSessions u) ⟨[id], none⟩
  | some t => exact matches_write h (.userSessions u) ⟨t.value.insert id, t.deadline⟩

theorem matches_srem (h : Agree keyPrefix b w) (u : Uuid) (id : String) :
    Matches keyPrefix b (srem w.now ((RedisKey.userSessions u).text keyPrefix) id)
      (.ok (), { w with userSessions := World.srem w.userSessions w.now u id }) := by
  refine perform_lookup_of h (.userSessions u) ?_
  have hlive : w.live (.userSessions u) = w.userSessions.entry w.now u := rfl
  rw [hlive, World.srem]
  cases w.userSessions.entry w.now u with
  | none => exact .pure h _
  | some t =>
      simp only [Option.map_some]
      split_ifs with hrest
      · have hdel := matches_del h (.userSessions u)
        simp only [RedisKey.timed, RedisKey.encode, hrest, if_true]
        exact hdel
      · have hwrite := matches_write h (.userSessions u)
          ⟨t.value.filter fun other => other ≠ id, t.deadline⟩
        simp only [RedisKey.timed, RedisKey.encode, hrest, if_false]
        exact hwrite

theorem matches_createSession (h : Agree keyPrefix b w) (session : Session) (ttl : Nat)
    (id : String) :
    Matches keyPrefix b (Redis.createSession w.now ((RedisKey.session id).text keyPrefix)
      ((RedisKey.userSessions session.userId).text keyPrefix) (sessionText session) id ttl)
      (w.sessionCreate session ttl id) := by
  have hset := matches_setEx h (k := .session id) (fun _ => rfl) session ttl
  unfold Redis.createSession World.sessionCreate
  cases hd : deadline w.now ttl with
  | none =>
      rw [hd] at hset
      exact hset.fail
  | some d =>
      rw [hd] at hset
      obtain ⟨hpos, _, rfl⟩ := deadline_eq_some.mp hd
      refine hset.bind fun b₁ _ h₁ => ?_
      refine (matches_sadd h₁ session.userId id).bind fun b₂ _ h₂ => ?_
      have hexpire := matches_expire h₂ (.userSessions session.userId) hpos
      rw [World.live_put_self, Option.filter_some, if_pos (keptDeadline_alive _ _ _)] at hexpire
      simp only [World.put_now, hd] at hexpire
      refine hexpire.bind fun b₃ _ h₃ => ?_
      rw [World.put_put] at h₃
      exact .pure h₃ id

/-- EXPIRE of `session_refresh`, on an `i64`. -/
theorem matches_sessionExpire (h : Agree keyPrefix b w) (id : String) (ttl : Nat) :
    Matches keyPrefix b
      (if World.endsAtOnce ttl then del ((RedisKey.session id).text keyPrefix)
        else expire w.now ((RedisKey.session id).text keyPrefix) ttl)
      (w.sessionExpire id ttl) := by
  unfold World.sessionExpire
  split
  · exact matches_del h (.session id)
  · rename_i hends
    have hpos : 0 < ttl := by
      rcases Nat.eq_zero_or_pos ttl with rfl | hpos
      · exact absurd rfl hends
      · exact hpos
    have hexpire := matches_expire h (.session id) hpos
    have hlive : w.live (.session id) = w.sessions.entry w.now id := rfl
    rw [hlive] at hexpire
    cases hd : deadline w.now ttl with
    | none =>
        rw [hd] at hexpire
        exact hexpire
    | some d =>
        rw [hd] at hexpire
        cases ht : w.sessions.entry w.now id with
        | none =>
            rw [ht] at hexpire
            exact hexpire
        | some t =>
            rw [ht] at hexpire
            exact hexpire

theorem matches_destroySession (h : Agree keyPrefix b w) (id : String) :
    Matches keyPrefix b (Redis.destroySession w.now ((RedisKey.session id).text keyPrefix) id
      (keyPrefix ++ ":user_sessions")) (.ok (), w.sessionDestroy id) := by
  refine (matches_getText h (k := .session id) fun _ => rfl).bind fun b₁ _ h₁ => ?_
  have hlive : w.live (.session id) = w.sessions.entry w.now id := rfl
  have hkey : ∀ u : Uuid, keyPrefix ++ ":user_sessions" ++ ":" ++ u.text
      = (RedisKey.userSessions u).text keyPrefix := by
    intro u
    have hname : (":user_sessions" : String) = ":" ++ "user_sessions" := by decide +kernel
    simp only [RedisKey.text, RedisKey.parts, makeKey, hname, String.append_assoc]
    rfl
  unfold World.sessionDestroy Store.get
  rw [hlive]
  cases w.sessions.entry w.now id with
  | none => exact matches_del h₁ (.session id)
  | some t =>
      simp only [Option.map_some, Option.bind_some, ownerOf_text, hkey]
      exact (matches_srem h₁ t.value.userId id).bind fun b₂ _ h₂ => matches_del h₂ (.session id)

theorem matches_rename (h : Agree keyPrefix b w) (u : Uuid) :
    Matches keyPrefix b (rename w.now ((RedisKey.userSessions u).text keyPrefix)
      ((RedisKey.userSessions u).text keyPrefix ++ ":destroying")) (w.renameSessions u) := by
  refine perform_lookup_of h (.userSessions u) ?_
  have hlive : w.live (.userSessions u) = w.userSessions.entry w.now u := rfl
  rw [hlive, World.renameSessions, ← destroying_text]
  cases w.userSessions.entry w.now u with
  | none => exact .throw h _
  | some t =>
      exact (matches_del h (.userSessions u)).bind fun b₁ _ h₁ => matches_write h₁ (.destroying u) t

theorem matches_smembers (h : Agree keyPrefix b w) (u : Uuid) :
    Matches keyPrefix b (smembers w.now ((RedisKey.userSessions u).text keyPrefix ++ ":destroying"))
      (.ok ((w.destroying.get w.now u).getD []), w) := by
  rw [← destroying_text]
  refine perform_lookup_of h (.destroying u) ?_
  have hlive : w.live (.destroying u) = w.destroying.entry w.now u := rfl
  rw [hlive, Store.get]
  cases w.destroying.entry w.now u with
  | none => exact .pure h _
  | some t => exact .pure h _

theorem matches_delAll (h : Agree keyPrefix b w) (ids : List String) :
    Matches keyPrefix b (delAll (ids.map fun id => (RedisKey.session id).text keyPrefix))
      (w.delSessions ids) := by
  have hall : ∀ {b : Backend} {w : World}, Agree keyPrefix b w →
      Matches keyPrefix b ((ids.map fun id => (RedisKey.session id).text keyPrefix).forM del)
        (.ok (), { w with sessions := ids.foldl Store.del w.sessions }) := by
    induction ids with
    | nil => exact fun h => .pure h _
    | cons id rest ih =>
        intro b w h
        exact (matches_del h (.session id)).bind fun b₁ _ h₁ => ih h₁
  unfold delAll World.delSessions
  simp only [List.map_eq_nil_iff]
  split_ifs with hids
  · exact .throw h _
  · exact hall h

/-! ## Cached values -/

theorem matches_decode {γ : Type} {p : Batch (Option String)} {value : Option γ}
    {text : γ → String} {read : String → Option γ} (hread : ∀ a, read (text a) = some a)
    {w' : World} (hp : Matches keyPrefix b p (.ok (value.map text), w')) :
    Matches keyPrefix b (Backend.decode p read) (.ok value, w') := by
  refine hp.bind fun b₁ _ h₁ => ?_
  cases value with
  | none => exact .pure h₁ _
  | some a =>
      simp only [Option.map_some, hread, decoded]
      exact .pure h₁ _

theorem matches_sessionGet (h : Agree keyPrefix b w) (id : String) :
    Matches keyPrefix b
      (Backend.decode (getText w.now ((RedisKey.session id).text keyPrefix)) readSession)
      (.ok (w.sessions.get w.now id), w) := by
  have hget := matches_getText h (k := .session id) fun _ => rfl
  apply matches_decode readSession_text
  rw [Store.get, Option.map_map]
  exact hget

theorem matches_get (h : Agree keyPrefix b w) (ns : Namespace) (key : String) :
    Matches keyPrefix b
      (Backend.decode (getText w.now ((RedisKey.cached ns key).text keyPrefix)) ns.read)
      (.ok ((w.cached ns).get w.now key), w) := by
  have hget := matches_getText h (k := .cached ns key) fun _ => rfl
  apply matches_decode ns.read_write
  rw [Store.get, Option.map_map]
  exact hget

theorem matches_set (h : Agree keyPrefix b w) (ns : Namespace) (key : String) (value : ns.Value)
    (ttl : Nat) :
    Matches keyPrefix b (setEx w.now ((RedisKey.cached ns key).text keyPrefix) (ns.write value) ttl)
      (w.set ns key value ttl) := by
  have hset := matches_setEx h (k := .cached ns key) (fun _ => rfl) value ttl
  unfold World.set
  cases hd : deadline w.now ttl with
  | none =>
      rw [hd] at hset
      exact hset
  | some d =>
      rw [hd] at hset
      exact hset

theorem matches_setFresh (h : Agree keyPrefix b w) (ns : Namespace) (key : String)
    (value : ns.Value) (ttl : Nat) :
    Matches keyPrefix b (do
        setEx w.now ((RedisKey.cached ns key).text keyPrefix) (ns.write value) ttl
        return key)
      ((w.set ns key value ttl).1.map fun _ => key, (w.set ns key value ttl).2) := by
  have hset := matches_set h ns key value ttl
  cases hr : w.set ns key value ttl with
  | mk r w' =>
      rw [hr] at hset
      cases r with
      | error err => exact hset.fail
      | ok u => exact hset.bind fun b₁ _ h₁ => .pure h₁ key

theorem write_refresh_ne (u : Uuid) : Namespace.refresh.write u ≠ "" := by
  intro h
  have hlength := congrArg (fun s => s.toList.length) h
  simp [Namespace.write, JsonText.write, quote] at hlength

theorem matches_getDel (h : Agree keyPrefix b w) {k : RedisKey} {text : k.Held → String}
    (htext : ∀ value, k.encode value = .text (text value)) :
    Matches keyPrefix b (getDel w.now (k.text keyPrefix))
      (.ok ((w.live k).map fun t => text t.value), w.put k none) := by
  refine (matches_getText h htext).bind fun b₁ _ h₁ => ?_
  cases hlive : w.live k with
  | none => exact .pure (h₁.absent hlive) _
  | some t => exact (matches_del h₁ k).bind fun b₂ _ h₂ => .pure h₂ _

/-- The script of `refresh_token_rotate` is a GETDEL, for texts that are not empty. -/
theorem matches_rotate (h : Agree keyPrefix b w) {k : RedisKey} {text : k.Held → String}
    (htext : ∀ value, k.encode value = .text (text value)) (hne : ∀ value, text value ≠ "") :
    Matches keyPrefix b (do
        let found ← Redis.rotate w.now (k.text keyPrefix)
        return if found = "" then none else some found)
      (.ok ((w.live k).map fun t => text t.value), w.put k none) := by
  have hrotate : Matches keyPrefix b (Redis.rotate w.now (k.text keyPrefix))
      (.ok (((w.live k).map fun t => text t.value).getD ""), w.put k none) := by
    refine (matches_getText h htext).bind fun b₁ _ h₁ => ?_
    cases hlive : w.live k with
    | none => exact .pure (h₁.absent hlive) _
    | some t => exact (matches_del h₁ k).bind fun b₂ _ h₂ => .pure h₂ _
  refine hrotate.bind fun b₁ _ h₁ => ?_
  cases w.live k with
  | none => exact .pure h₁ _
  | some t =>
      simp only [Option.map_some, Option.getD_some, if_neg (hne t.value)]
      exact .pure h₁ _

theorem matches_take (h : Agree keyPrefix b w) (ns : Namespace) (key : String) :
    Matches keyPrefix b (Backend.take w.now ns ((RedisKey.cached ns key).text keyPrefix))
      (.ok ((w.cached ns).get w.now key), w.setCached ns ((w.cached ns).del key)) := by
  have hgetDel := matches_getDel h (k := .cached ns key) fun _ => rfl
  have hvalue : ((w.cached ns).get w.now key).map ns.write
      = (w.live (.cached ns key)).map fun t => ns.write t.value := by
    rw [Store.get, Option.map_map]
    rfl
  cases ns with
  | refresh =>
      apply matches_decode Namespace.refresh.read_write
      rw [hvalue]
      exact matches_rotate h (k := .cached .refresh key) (fun _ => rfl) write_refresh_ne
  | reset =>
      apply matches_decode Namespace.reset.read_write
      rw [hvalue]
      exact hgetDel
  | blacklist =>
      apply matches_decode Namespace.blacklist.read_write
      rw [hvalue]
      exact hgetDel
  | oauthCsrf =>
      apply matches_decode Namespace.oauthCsrf.read_write
      rw [hvalue]
      exact hgetDel

/-! ## Counters -/

theorem parseDigits_toString (n : Nat) : parseDigits (toString n).toList = some n := by
  have hdigits : (toString n).toList = Nat.toDigits 10 n := Nat.toList_repr
  rw [hdigits, parseDigits_toDigits]

theorem matches_ttl (h : Agree keyPrefix b w) {k : RedisKey} {t : Timed k.Held}
    (ht : w.live k = some t) :
    Matches keyPrefix b (ttl w.now (k.text keyPrefix))
      (.ok (t.deadline.elim (-1) fun d => ((d - w.now + 500) / 1000 : Nat)), w) := by
  refine perform_lookup_of h k ?_
  rw [ht]
  obtain ⟨value, _ | d⟩ := t
  · exact .pure h _
  · exact .pure h _

theorem matches_backoffCheck (h : Agree keyPrefix b w) (key : String) :
    Matches keyPrefix b (Redis.backoffCheck w.now ((RedisKey.backoff key).text keyPrefix))
      (.ok ((w.backoff.entry w.now key).bind fun t => t.deadline.map fun d =>
        (toString t.value, (((d - w.now + 500) / 1000 : Nat) : Int))), (w.backoffRead key).2) := by
  refine (matches_getText h (k := .backoff key) fun _ => rfl).bind fun b₁ _ h₁ => ?_
  have hlive : w.live (.backoff key) = w.backoff.entry w.now key := rfl
  unfold World.backoffRead
  rw [hlive]
  cases hentry : w.backoff.entry w.now key with
  | none => exact .pure h₁ _
  | some t =>
      obtain ⟨count, _ | d⟩ := t
      · refine (matches_ttl h₁ (hlive.trans hentry)).bind fun b₂ _ h₂ => ?_
        rw [Option.elim_none, if_pos rfl]
        exact (matches_del h₂ (.backoff key)).bind fun b₃ _ h₃ => .pure h₃ _
      · refine (matches_ttl h₁ (hlive.trans hentry)).bind fun b₂ _ h₂ => ?_
        rw [Option.elim_some, if_neg (by omega)]
        exact .pure h₂ _

theorem matches_backoffRead (h : Agree keyPrefix b w) (key : String) :
    Matches keyPrefix b (Backend.backoffNumbers w.now ((RedisKey.backoff key).text keyPrefix))
      (.ok (w.backoffRead key).1, (w.backoffRead key).2) := by
  refine (matches_backoffCheck h key).bind fun b₁ _ h₁ => ?_
  unfold World.backoffRead at h₁ ⊢
  cases hentry : w.backoff.entry w.now key with
  | none =>
      rw [hentry] at h₁
      exact .pure h₁ _
  | some t =>
      rw [hentry] at h₁
      obtain ⟨count, _ | d⟩ := t
      · exact .pure h₁ _
      · simp only [Option.bind_some, Option.map_some, parseDigits_toString]
        exact .pure h₁ _

theorem matches_incr (h : Agree keyPrefix b w) (key : String) :
    Matches keyPrefix b (incr w.now ((RedisKey.backoff key).text keyPrefix))
      (.ok ((w.backoff.get w.now key).getD 0 + 1), w.put (.backoff key) (some
        ⟨(w.backoff.get w.now key).getD 0 + 1,
          (w.backoff.entry w.now key).bind Timed.deadline⟩)) := by
  refine perform_lookup_of h (.backoff key) ?_
  have hlive : w.live (.backoff key) = w.backoff.entry w.now key := rfl
  rw [hlive, Store.get]
  cases w.backoff.entry w.now key with
  | none =>
      exact (matches_write h (.backoff key) ⟨(1 : Nat), none⟩).bind fun b₁ _ h₁ => .pure h₁ _
  | some t =>
      simp only [Option.map_some, RedisKey.timed, RedisKey.encode, parseDigits_toString]
      exact (matches_write h (.backoff key) ⟨(t.value + 1 : Nat), t.deadline⟩).bind
        fun b₁ _ h₁ => .pure h₁ _

theorem matches_backoffIncrement (h : Agree keyPrefix b w) (key : String) {t₁ t₂ t₃ t₄ : Nat}
    (h₁ : 0 < t₁) (h₂ : 0 < t₂) (h₃ : 0 < t₃) (h₄ : 0 < t₄) :
    Matches keyPrefix b
      (Redis.backoffIncrement w.now ((RedisKey.backoff key).text keyPrefix) t₁ t₂ t₃ t₄)
      (w.backoffIncrement key t₁ t₂ t₃ t₄) := by
  refine (matches_incr h key).bind fun b₁ _ hb₁ => ?_
  unfold World.backoffIncrement
  generalize (w.backoff.get w.now key).getD 0 + 1 = count at hb₁ ⊢
  have hsecs : 0 < if count = 1 then t₁ else if count < 5 then t₂ else if count < 10 then t₃
      else t₄ := by
    split_ifs <;> assumption
  have hexpire := matches_expire hb₁ (.backoff key) hsecs
  rw [World.live_put_self, Option.filter_some, if_pos (keptDeadline_alive _ _ _)] at hexpire
  simp only [World.put_now] at hexpire
  dsimp only
  cases hd : deadline w.now (if count = 1 then t₁ else if count < 5 then t₂ else if count < 10
      then t₃ else t₄) with
  | none =>
      rw [hd] at hexpire
      exact hexpire.fail
  | some d =>
      rw [hd] at hexpire
      refine hexpire.bind fun b₂ _ hb₂ => ?_
      rw [World.put_put] at hb₂
      exact .pure hb₂ count

/-! ## Rate limits -/

theorem purge_live (key : String) (limit : Int) :
    (w.rateLimitPurge key limit).live (.rateLimit key)
      = if (World.zremrangebyscore limit (w.rateLimitEntries key)).isEmpty then none
        else some ⟨World.zremrangebyscore limit (w.rateLimitEntries key),
          (w.rateLimits.entry w.now key).bind Timed.deadline⟩ := by
  unfold World.rateLimitPurge World.rateLimitEntries Store.get
  have hlive : w.live (.rateLimit key) = w.rateLimits.entry w.now key := rfl
  cases hentry : w.rateLimits.entry w.now key with
  | none => exact hlive.trans hentry
  | some t =>
      simp only [Option.map_some, Option.getD_some, Option.bind_some]
      have halive : t.alive w.now = true := (Store.entry_eq_some.mp hentry).2
      split_ifs with hempty
      · exact World.live_put_self (v := none)
      · have hput := World.live_put_self (w := w) (k := .rateLimit key)
          (v := some ⟨World.zremrangebyscore limit t.value, t.deadline⟩)
        have hkept : (⟨World.zremrangebyscore limit t.value, t.deadline⟩ : Timed _).alive w.now
            = true := halive
        rw [Option.filter_some, if_pos hkept] at hput
        exact hput

theorem purge_put (key : String) (limit : Int) (v : Option (Timed (List (Nat × String)))) :
    (w.rateLimitPurge key limit).put (.rateLimit key) v = w.put (.rateLimit key) v := by
  unfold World.rateLimitPurge
  cases w.rateLimits.entry w.now key with
  | none => rfl
  | some t =>
      dsimp only
      split_ifs with hempty
      · exact World.put_put (k := .rateLimit key) (v := none) v
      · exact World.put_put (k := .rateLimit key) (v := some _) v

theorem matches_purge (h : Agree keyPrefix b w) (key : String) (limit : Int) :
    Matches keyPrefix b (zremrangebyscore w.now ((RedisKey.rateLimit key).text keyPrefix) limit)
      (.ok (), w.rateLimitPurge key limit) := by
  refine perform_lookup_of h (.rateLimit key) ?_
  have hlive : w.live (.rateLimit key) = w.rateLimits.entry w.now key := rfl
  rw [hlive, World.rateLimitPurge]
  cases w.rateLimits.entry w.now key with
  | none => exact .pure h _
  | some t =>
      simp only [Option.map_some, RedisKey.timed, RedisKey.encode]
      split_ifs with hempty
      · exact matches_del h (.rateLimit key)
      · exact matches_write h (.rateLimit key)
          ⟨World.zremrangebyscore limit t.value, t.deadline⟩

theorem matches_zcard (h : Agree keyPrefix b w) (key : String) :
    Matches keyPrefix b (zcard w.now ((RedisKey.rateLimit key).text keyPrefix))
      (.ok (w.rateLimitEntries key).length, w) := by
  refine perform_lookup_of h (.rateLimit key) ?_
  have hlive : w.live (.rateLimit key) = w.rateLimits.entry w.now key := rfl
  rw [hlive, World.rateLimitEntries, Store.get]
  cases w.rateLimits.entry w.now key with
  | none => exact .pure h _
  | some t => exact .pure h _

theorem matches_zadd (h : Agree keyPrefix b w) (key : String) (score : Nat) (member : String) :
    Matches keyPrefix b (zadd w.now ((RedisKey.rateLimit key).text keyPrefix) score member)
      (.ok (), w.put (.rateLimit key) (some ⟨World.zadd (w.rateLimitEntries key) score member,
        (w.rateLimits.entry w.now key).bind Timed.deadline⟩)) := by
  refine perform_lookup_of h (.rateLimit key) ?_
  have hlive : w.live (.rateLimit key) = w.rateLimits.entry w.now key := rfl
  rw [hlive, World.rateLimitEntries, Store.get]
  cases w.rateLimits.entry w.now key with
  | none => exact matches_write h (.rateLimit key) ⟨[(score, member)], none⟩
  | some t =>
      exact matches_write h (.rateLimit key) ⟨World.zadd t.value score member, t.deadline⟩

theorem matches_firstScore (h : Agree keyPrefix b w) (key : String) :
    Matches keyPrefix b (firstScore w.now ((RedisKey.rateLimit key).text keyPrefix))
      (.ok (match (w.rateLimitEntries key).map Prod.fst with
        | [] => none
        | score :: scores => some (scores.foldl min score)), w) := by
  refine perform_lookup_of h (.rateLimit key) ?_
  have hlive : w.live (.rateLimit key) = w.rateLimits.entry w.now key := rfl
  rw [hlive, World.rateLimitEntries, Store.get]
  cases w.rateLimits.entry w.now key with
  | none => exact .pure h _
  | some t =>
      simp only [Option.map_some, RedisKey.timed, RedisKey.encode, Option.getD_some]
      cases t.value.map Prod.fst with
      | nil => exact .pure h _
      | cons score scores => exact .pure h _

theorem purge_now (key : String) (limit : Int) : (w.rateLimitPurge key limit).now = w.now := by
  unfold World.rateLimitPurge
  split
  · rfl
  · dsimp only
    split <;> rfl

theorem matches_rateLimit (h : Agree keyPrefix b w) (key : String) (windowStart now max : Nat)
    {ttl : Nat} (httl : 0 < ttl) (member : String) :
    Matches keyPrefix b
      (Redis.rateLimit w.now ((RedisKey.rateLimit key).text keyPrefix) windowStart now max ttl member)
      (w.rateLimit key windowStart now max ttl member) := by
  refine (matches_purge h key windowStart).bind fun b₁ _ h₁ => ?_
  have hlive := purge_live (w := w) key windowStart
  have hput := purge_put (w := w) key windowStart
  have hnow := purge_now (w := w) key windowStart
  unfold World.rateLimit
  generalize w.rateLimitPurge key windowStart = w₁ at h₁ hlive hput hnow
  generalize World.zremrangebyscore windowStart (w.rateLimitEntries key) = kept at hlive ⊢
  have hentry : w₁.rateLimits.entry w₁.now key
      = if kept.isEmpty then none
        else some ⟨kept, (w.rateLimits.entry w.now key).bind Timed.deadline⟩ := hlive
  have hentries : w₁.rateLimitEntries key = kept := by
    rw [World.rateLimitEntries, Store.get, hentry]
    cases kept <;> rfl
  have hkeep : (w₁.rateLimits.entry w₁.now key).bind Timed.deadline
      = if kept.isEmpty then none else (w.rateLimits.entry w.now key).bind Timed.deadline := by
    rw [hentry]
    cases kept <;> rfl
  have hcard := matches_zcard h₁ key
  rw [hnow, hentries] at hcard
  have halive : ∀ entries : List (Nat × String), (⟨entries, if kept.isEmpty then none
      else (w.rateLimits.entry w.now key).bind Timed.deadline⟩ : Timed _).alive w.now = true := by
    intro entries
    split_ifs
    · rfl
    · exact keptDeadline_alive _ _ _
  refine hcard.bind fun b₂ _ h₂ => ?_
  dsimp only
  by_cases hroom : kept.length < World.toDouble max
  · rw [if_pos hroom, if_pos hroom]
    have hadd := matches_zadd h₂ key (World.toDouble now) member
    rw [hkeep, hput, hnow, hentries] at hadd
    generalize (if kept.isEmpty then none
      else (w.rateLimits.entry w.now key).bind Timed.deadline) = keep at hadd halive ⊢
    refine hadd.bind fun b₃ _ h₃ => ?_
    have hexpire := matches_expire h₃ (.rateLimit key) httl
    rw [World.live_put_self, Option.filter_some, if_pos (halive _)] at hexpire
    simp only [World.put_now] at hexpire
    cases hd : deadline w.now ttl with
    | none =>
        rw [hd] at hexpire
        exact hexpire.fail
    | some d =>
        rw [hd] at hexpire
        refine hexpire.bind fun b₄ _ h₄ => ?_
        rw [World.put_put] at h₄
        exact .pure h₄ _
  · rw [if_neg hroom, if_neg hroom]
    have hfirst := matches_firstScore h₂ key
    rw [hnow, hentries] at hfirst
    refine hfirst.bind fun b₃ _ h₃ => ?_
    cases kept with
    | nil =>
        have hgone := h₃.absent hlive
        rw [hput] at hgone
        exact .throw hgone _
    | cons entry rest =>
        have hsame := h₃.same (.rateLimit key)
        rw [hlive, hput] at hsame
        exact .pure hsame _

/-! ## The process and the tables -/

/-- A step that neither reads nor writes what is in Redis, nor the clock. -/
structure Aside (f : World → α × World) : Prop where
  reply : ∀ w, (f w.bare).1 = (f w).1
  bare : ∀ w, (f w.bare).2 = (f w).2.bare
  slot : ∀ w, (f w).2.slot = w.slot
  now : ∀ w, (f w).2.now = w.now

theorem Agree.aside {f : World → α × World} (hf : Aside f) (h : Agree keyPrefix b w) :
    (f b.process).1 = (f w).1 ∧
      Agree keyPrefix { b with process := (f b.process).2 } (f w).2 := by
  rw [h.process]
  refine ⟨hf.reply w, ?_, hf.bare w⟩
  rw [hf.now, hf.slot]
  exact h.held

/-- What is kept beside Redis, after a step. -/
structure Beside where
  sessionCache : Table String (Nat × Session)
  users : List User
  notes : List Note
  permits : Nat
  userConnections : Uuid → Nat

def World.beside (w : World) : Beside :=
  ⟨w.sessionCache, w.users, w.notes, w.permits, w.userConnections⟩

def World.withBeside (w : World) (s : Beside) : World :=
  { w with sessionCache := s.sessionCache, users := s.users, notes := s.notes,
           permits := s.permits, userConnections := s.userConnections }

theorem Aside.of {f : World → α × World} (reply : Beside → Nat → α) (next : Beside → Nat → Beside)
    (hf : ∀ w, f w = (reply w.beside w.now, w.withBeside (next w.beside w.now))) : Aside f := by
  constructor
  · intro w
    rw [hf, hf]
    rfl
  · intro w
    rw [hf, hf]
    rfl
  · intro w
    rw [hf]
    funext k
    cases k <;> rfl
  · intro w
    rw [hf]
    rfl

/-- A step that looks at `g` first. -/
theorem Aside.cases {γ : Type} {f : World → α × World} (g : World → γ)
    (hg : ∀ w, g w.bare = g w) (hf : ∀ c, ∃ f', Aside f' ∧ ∀ w, g w = c → f w = f' w) :
    Aside f := by
  constructor
  · intro w
    obtain ⟨f', hf', heq⟩ := hf (g w)
    rw [heq w rfl, heq w.bare (hg w)]
    exact hf'.reply w
  · intro w
    obtain ⟨f', hf', heq⟩ := hf (g w)
    rw [heq w rfl, heq w.bare (hg w)]
    exact hf'.bare w
  · intro w
    obtain ⟨f', hf', heq⟩ := hf (g w)
    rw [heq w rfl]
    exact hf'.slot w
  · intro w
    obtain ⟨f', hf', heq⟩ := hf (g w)
    rw [heq w rfl]
    exact hf'.now w

/-- A step that asks first whether `p` holds. -/
theorem Aside.ite {f g : World → α × World} (p : World → Prop) [∀ w, Decidable (p w)]
    (hp : ∀ w, p w.bare ↔ p w) (hf : Aside f) (hg : Aside g) :
    Aside fun w => if p w then f w else g w := by
  refine .cases (fun w => decide (p w)) (fun w => decide_eq_decide.mpr (hp w)) fun c => ?_
  cases c with
  | true => exact ⟨f, hf, fun w hw => if_pos (of_decide_eq_true hw)⟩
  | false => exact ⟨g, hg, fun w hw => if_neg (of_decide_eq_false hw)⟩

/-- A step that leaves all as it is. -/
theorem Aside.const (a : α) : Aside fun w => (a, w) := .of (fun _ _ => a) (fun s _ => s) fun _ => rfl

theorem Aside.answerDb {f : World → Except DbError α × World} (hf : Aside f) (fault : Fault) :
    Aside fun w => w.answerDb fault (f w) := by
  cases fault with
  | none => exact hf
  | refused message =>
      exact .of (fun _ _ => .error (.failed message)) (fun s _ => s) fun _ => rfl
  | lost message =>
      constructor
      · intro w
        rfl
      · exact hf.bare
      · exact hf.slot
      · exact hf.now

theorem aside_sessionCacheGet (id : String) : Aside fun w => w.sessionCacheGet id := by
  refine .cases (fun w => (w.now, w.sessionCache.lookup id)) (fun _ => rfl) fun c => ?_
  obtain ⟨now, found⟩ := c
  cases found with
  | none =>
      refine ⟨fun w => (none, w), .const none, fun w hw => ?_⟩
      unfold World.sessionCacheGet
      rw [(Prod.mk.inj hw).2]
  | some entry =>
      obtain ⟨expiry, session⟩ := entry
      refine ⟨fun w => if w.now < expiry then (some session, w)
        else (none, { w with sessionCache := w.sessionCache.erase id }), ?_, fun w hw => ?_⟩
      · refine .ite (fun w => w.now < expiry) (fun _ => Iff.rfl) (.const (some session)) ?_
        exact .of (fun _ _ => none)
          (fun s _ => { s with sessionCache := s.sessionCache.erase id }) fun _ => rfl
      · unfold World.sessionCacheGet
        rw [(Prod.mk.inj hw).2]

theorem aside_acquirePermit : Aside World.acquirePermit :=
  .ite (fun w => 0 < w.permits) (fun _ => Iff.rfl)
    (.of (fun _ _ => true) (fun s _ => { s with permits := s.permits - 1 }) fun _ => rfl)
    (.const false)

theorem aside_reserveConnection (u : Uuid) (max : Nat) :
    Aside fun w => w.reserveConnection u max :=
  .ite (fun w => max ≤ w.userConnections u) (fun _ => Iff.rfl) (.const false)
    (.of (fun _ _ => true) (fun s _ => { s with
      userConnections := Function.update s.userConnections u (s.userConnections u + 1) })
      fun _ => rfl)

theorem aside_addUser (user : User) : Aside fun w => w.addUser user := by
  have herror : ∀ err : DbError, Aside fun w : World => ((.error err : Except DbError Uuid), w) :=
    fun err => .const (Except.error err)
  refine .ite (fun _ => (!fitsColumn 255 user.email || !(user.name.all (fitsColumn 255))
    || !fitsColumn 50 user.provider || !(user.passwordHash.all (fitsColumn 255))) = true)
    (fun _ => Iff.rfl) (herror _) ?_
  refine .ite (fun w => ((w.userById user.id).isSome || (w.userByEmail user.email).isSome) = true)
    (fun _ => Iff.rfl) (herror _) ?_
  exact .of (fun _ _ => .ok user.id) (fun s _ => { s with users := s.users ++ [user] })
    fun _ => rfl

theorem aside_upsertUser (user : User) : Aside fun w => w.upsertUser user := by
  refine .cases (fun w => w.userByEmail user.email) (fun _ => rfl) fun c => ?_
  cases c with
  | none =>
      refine ⟨fun w => w.addUser user, aside_addUser user, fun w hw => ?_⟩
      unfold World.upsertUser
      rw [hw]
  | some row =>
      refine ⟨fun w => if user.name.all (fitsColumn 255) then (.ok row.id, { w with
          users := w.users.map fun other =>
            if other.email = user.email then { other with name := user.name } else other })
        else (.error (.failed "value too long or invalid"), w), ?_, fun w hw => ?_⟩
      · refine .ite (fun _ => user.name.all (fitsColumn 255) = true) (fun _ => Iff.rfl) ?_
          (.const (Except.error (DbError.failed "value too long or invalid")))
        exact .of (fun _ _ => .ok row.id) (fun s _ => { s with users := s.users.map fun other =>
          if other.email = user.email then { other with name := user.name } else other })
          fun _ => rfl
      · unfold World.upsertUser
        rw [hw]

theorem aside_updatePassword (hash : String) (u : Uuid) :
    Aside fun w => w.updatePassword hash u := by
  refine .ite (fun _ => fitsColumn 255 hash = true) (fun _ => Iff.rfl) ?_
    (.const (Except.error (DbError.failed "value too long or invalid")))
  exact .of
    (fun s _ => .ok (s.users.countP fun user => user.id = u && user.provider = "local"))
    (fun s _ => { s with users := s.users.map fun user =>
      if user.id = u && user.provider = "local" then { user with passwordHash := some hash }
      else user }) fun _ => rfl

/-! ## Every command -/

/-- The lifetimes that the scripts of the counters are given are positive. -/
def Cmd.Lasting : Cmd → Prop
  | .backoffIncrement _ t₁ t₂ t₃ t₄ => 0 < t₁ ∧ 0 < t₂ ∧ 0 < t₃ ∧ 0 < t₄
  | .rateLimit _ _ _ _ ttl => 0 < ttl
  | _ => True

theorem Agree.exec (h : Agree keyPrefix b w) (e : Choice) (c : Cmd) (hc : c.Lasting) :
    (Backend.exec keyPrefix e c b).1 = (World.exec e c w).1 ∧
      Agree keyPrefix (Backend.exec keyPrefix e c b).2 (World.exec e c w).2 := by
  have hnow := h.now
  cases c with
  | now =>
      exact ⟨hnow, h⟩
  | pass ms => exact ⟨rfl, h.pass ms⟩
  | draw => exact ⟨rfl, h⟩
  | exchangeCode provider code => exact ⟨rfl, h⟩
  | sessionCacheGet id => exact h.aside (aside_sessionCacheGet id)
  | sessionCachePut id session =>
      refine h.aside (f := World.exec e (.sessionCachePut id session)) ?_
      let kept (s : Beside) : Table String (Nat × Session) :=
        if World.maxSessionCacheEntries ≤ s.sessionCache.size then ∅ else s.sessionCache
      exact .of (fun _ _ => ()) (fun s now => { s with
        sessionCache := (kept s).insert id (now + World.sessionCacheTtl, session) }) fun _ => rfl
  | sessionCacheRemove id =>
      refine h.aside (f := World.exec e (.sessionCacheRemove id)) ?_
      exact .of (fun _ _ => ()) (fun s _ => { s with sessionCache := s.sessionCache.erase id })
        fun _ => rfl
  | sessionCacheRetain u =>
      refine h.aside (f := World.exec e (.sessionCacheRetain u)) ?_
      exact .of (fun _ _ => ()) (fun s _ => { s with
        sessionCache := s.sessionCache.retain fun _ entry => entry.2.userId ≠ u }) fun _ => rfl
  | acquirePermit => exact h.aside aside_acquirePermit
  | releasePermit =>
      refine h.aside (f := World.exec e .releasePermit) ?_
      exact .of (fun _ _ => ()) (fun s _ => { s with permits := s.permits + 1 }) fun _ => rfl
  | reserveConnection u max => exact h.aside (aside_reserveConnection u max)
  | sessionCreate session ttl =>
      exact Matches.script h (hnow ▸ matches_createSession h session ttl e.token) e.fault
  | sessionGet id => exact Matches.script h (hnow ▸ matches_sessionGet h id) e.fault
  | sessionDestroy id => exact Matches.script h (hnow ▸ matches_destroySession h id) e.fault
  | sessionExpire id ttl => exact Matches.script h (hnow ▸ matches_sessionExpire h id ttl) e.fault
  | renameSessions u => exact Matches.script h (hnow ▸ matches_rename h u) e.fault
  | destroyingMembers u => exact Matches.script h (hnow ▸ matches_smembers h u) e.fault
  | delDestroying u =>
      refine Matches.script h ?_ e.fault
      rw [← destroying_text]
      exact matches_del h (.destroying u)
  | delSessions ids => exact Matches.script h (matches_delAll h ids) e.fault
  | get ns key => exact Matches.script h (hnow ▸ matches_get h ns key) e.fault
  | set ns key value ttl => exact Matches.script h (hnow ▸ matches_set h ns key value ttl) e.fault
  | setFresh ns value ttl =>
      exact Matches.script h (hnow ▸ matches_setFresh h ns e.token value ttl) e.fault
  | del ns key => exact Matches.script h (matches_del h (.cached ns key)) e.fault
  | getdel ns key => exact Matches.script h (hnow ▸ matches_take h ns key) e.fault
  | backoffRead key => exact Matches.script h (hnow ▸ matches_backoffRead h key) e.fault
  | backoffIncrement key t₁ t₂ t₃ t₄ =>
      obtain ⟨h₁, h₂, h₃, h₄⟩ := hc
      exact Matches.script h (hnow ▸ matches_backoffIncrement h key h₁ h₂ h₃ h₄) e.fault
  | rateLimit key windowStart now max ttl =>
      exact Matches.script h
        (hnow ▸ matches_rateLimit h key windowStart now max hc e.token) e.fault
  | rateLimitPurge key limit => exact Matches.script h (hnow ▸ matches_purge h key limit) e.fault
  | rateLimitCard key => exact Matches.script h (hnow ▸ matches_zcard h key) e.fault
  | selectUserByEmail email =>
      refine h.aside (f := World.exec e (.selectUserByEmail email)) (Aside.answerDb ?_ e.fault)
      exact .of (fun s _ => if email.toList.contains (Char.ofNat 0)
        then .error (.failed "invalid byte sequence")
        else .ok (s.users.find? fun user => user.email = email)) (fun s _ => s) fun _ => rfl
  | selectUserById u =>
      refine h.aside (f := World.exec e (.selectUserById u)) (Aside.answerDb ?_ e.fault)
      exact .of (fun s _ => .ok (s.users.find? fun user => user.id = u)) (fun s _ => s) fun _ => rfl
  | insertUser email name hash =>
      exact h.aside (f := World.exec e (.insertUser email name hash))
        (Aside.answerDb (aside_addUser _) e.fault)
  | upsertUser email name provider =>
      exact h.aside (f := World.exec e (.upsertUser email name provider))
        (Aside.answerDb (aside_upsertUser _) e.fault)
  | updatePassword hash u =>
      exact h.aside (f := World.exec e (.updatePassword hash u))
        (Aside.answerDb (aside_updatePassword hash u) e.fault)
  | deleteNotes u =>
      refine h.aside (f := World.exec e (.deleteNotes u)) (Aside.answerDb ?_ e.fault)
      exact .of (fun _ _ => .ok ())
        (fun s _ => { s with notes := s.notes.filter fun note => note.userId ≠ u }) fun _ => rfl
  | deleteUser u =>
      refine h.aside (f := World.exec e (.deleteUser u)) (Aside.answerDb ?_ e.fault)
      exact .of (fun s _ => .ok (s.users.countP fun user => user.id = u))
        (fun s _ => { s with notes := s.notes.filter fun note => note.userId ≠ u,
                             users := s.users.filter fun user => user.id ≠ u }) fun _ => rfl

theorem agree_initial (keyPrefix : String) (now : Nat) (users : List User) :
    Agree keyPrefix ⟨.empty, World.initial now users⟩ (World.initial now users) := by
  have hslot : (World.initial now users).slot = fun _ => none := by
    funext k
    cases k <;> rfl
  constructor
  · rw [hslot]
    exact Refinement.holds_empty
  · rfl

end Agreement

/-! ## Runs -/

/-- A system of calls over a Redis of texts. -/
def textual {κ α : Type} (keyPrefix : String) (body : κ → Action α) :
    System Choice κ Cmd Reply (Recorded Choice Cmd Reply Backend) α where
  exec := Exec.recorded fun _ => Backend.exec keyPrefix
  body := body

theorem textual_simulates (keyPrefix : String) :
    Exec.Simulates (fun _ : Nat => Backend.exec keyPrefix) (fun _ => World.exec) Cmd.Lasting
      (Agree keyPrefix) :=
  ⟨fun _ e c _ _ hc h => (h.exec e c hc).1, fun _ e c _ _ hc h => (h.exec e c hc).2⟩

/-- Whatever the calls are and however their commands are interleaved: a run over the texts of
Redis is a run over the world, with the same commands, replies and results. -/
theorem textual_runs {κ α : Type} (keyPrefix : String) (body : κ → Action α)
    {init : State → Prop} {cfg : Config κ Cmd Reply (Recorded Choice Cmd Reply Backend) α}
    (h : Reach (textual keyPrefix body)
      (fun s => ∃ t, init t ∧ Recorded.Alike (Agree keyPrefix) s t)
      (fun _ _ _ _ c _ => c.Lasting) cfg) :
    ∃ cfg' : Config κ Cmd Reply State α,
      Reach ⟨exec, body⟩ init (fun _ _ _ _ c _ => c.Lasting) cfg' ∧
        cfg.summary = cfg'.summary ∧ cfg.shared.log = cfg'.shared.log ∧
        Agree keyPrefix cfg.shared.state cfg'.shared.state := by
  obtain ⟨cfg', hreach, halike⟩ :=
    Reach.simulated (S := textual keyPrefix body) (T := ⟨exec, body⟩) rfl
      (textual_simulates keyPrefix).recorded h
  exact ⟨cfg', hreach, halike.summary, halike.shared⟩

/-- A token is put on the blacklist. -/
theorem textual_runs_blacklist : ∃ cfg' : Config Unit Cmd Reply State (Except CacheError Unit),
    Reach ⟨exec, fun _ => ask (.set .blacklist "b1ac" true 60)⟩
      (fun t => t = ⟨World.initial 0 [], []⟩) (fun _ _ _ _ c _ => c.Lasting) cfg' ∧
      cfg'.summary = [((), 0, 1, some (.ok ()))] := by
  have hinit : ∃ t, t = (⟨World.initial 0 [], []⟩ : State) ∧
      Recorded.Alike (Agree "fullstackhex") ⟨⟨.empty, World.initial 0 []⟩, []⟩ t :=
    ⟨_, rfl, rfl, agree_initial "fullstackhex" 0 []⟩
  have hprog : (ask (.set .blacklist "b1ac" true 60) : Action (Except CacheError Unit))
      = .cmd (.set .blacklist "b1ac" true 60) .ret := rfl
  obtain ⟨cfg', hreach, hsummary, _⟩ := textual_runs "fullstackhex"
    (fun _ : Unit => ask (.set .blacklist "b1ac" true 60))
    (Reach.resume (e := Choice.calm) (i := 0) (.start () (.initial hinit)) rfl hprog trivial)
  exact ⟨cfg', hreach, hsummary.symm.trans rfl⟩

end FullStackHex
