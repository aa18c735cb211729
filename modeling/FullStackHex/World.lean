import FullStackHex.Domain
import FullStackHex.Library.Expiring
import FullStackHex.Library.Interleaving

/-!
What the requests of one backend process share: Redis, the two tables of
Postgres, the in-process session cache, the WebSocket counters and the clock. `exec` is the effect of
one atomic step: a Redis command or Lua script, an SQL statement, a lock
section on `SESSION_CACHE`, a clock reading or a random draw.

Each key space of Redis is a map of its own; `Cache.Keys` shows that no two of
them share a key. The clock counts milliseconds since the epoch and serves
`SystemTime`, `Instant` and Redis alike.
-/

namespace FullStackHex

open Concurrent Expiring

/-- The namespaces that `cache_get` and `cache_set` are used with. -/
inductive Namespace where
  | refresh
  | reset
  | blacklist
  | oauthCsrf
  deriving DecidableEq, Repr

/-- What the JSON text under a key stands for; the states of OAuth are read by their handler, so
there it is the text. -/
abbrev Namespace.Value : Namespace → Type
  | .refresh => Uuid
  | .reset => Uuid
  | .blacklist => Bool
  | .oauthCsrf => String

structure World where
  now : Nat
  sessionCache : Table String (Nat × Session)
  sessions : Store String Session
  userSessions : Store Uuid (List String)
  destroying : Store Uuid (List String)
  cached : (ns : Namespace) → Store String ns.Value
  backoff : Store String Nat
  rateLimits : Store String (List (Nat × String))
  users : List User
  notes : List Note
  permits : Nat
  userConnections : Uuid → Nat

/-- Nothing stored but the rows of `users`; 100 WebSocket permits, the default. -/
def World.initial (now : Nat) (users : List User) : World where
  now := now
  sessionCache := ∅
  sessions := .empty
  userSessions := .empty
  destroying := .empty
  cached _ := .empty
  backoff := .empty
  rateLimits := .empty
  users := users
  notes := []
  permits := 100
  userConnections _ := 0

/-- How Redis or Postgres may fail a command: before or after its effect. -/
inductive Fault where
  | none
  | refused (message : String)
  | lost (message : String)
  deriving DecidableEq, Repr

/-- What the environment chooses at a step: a fault, the random text and the
random UUID of a draw, and the profile an OAuth provider answers with. -/
structure Choice where
  fault : Fault
  token : String
  id : Uuid
  profile : Option (String × Option String)

inductive DbError where
  | uniqueViolation
  | failed (message : String)
  deriving DecidableEq, Repr

/-- `EX ttl`, for a `Duration` of whole seconds. Redis refuses a lifetime that is
not positive or whose end does not fit 64 signed bits; a `u64` that wraps
around in `as i64` is among these. -/
def deadline (now secs : Nat) : Option Nat :=
  if 0 < secs ∧ now + 1000 * secs < 2 ^ 63 then some (now + 1000 * secs) else none

theorem deadline_eq_some {now secs d : Nat} :
    deadline now secs = some d ↔
      0 < secs ∧ now + 1000 * secs < 2 ^ 63 ∧ d = now + 1000 * secs := by
  unfold deadline
  split
  · rename_i h
    rw [Option.some.injEq, eq_comm]
    exact ⟨fun hd => ⟨h.1, h.2, hd⟩, fun hd => hd.2.2⟩
  · rename_i h
    simp only [reduceCtorEq, false_iff]
    rintro ⟨h₁, h₂, _⟩
    exact h ⟨h₁, h₂⟩

def invalidExpire (command : String) : CacheError :=
  .commandFailed ("ERR invalid expire time in '" ++ command ++ "' command")

/-- Text that a `VARCHAR(n)` column can hold. -/
def fitsColumn (n : Nat) (text : String) : Bool :=
  text.length ≤ n && !text.toList.contains (Char.ofNat 0)

inductive Cmd where
  -- the process itself
  | now
  | pass (ms : Nat)
  | draw
  | exchangeCode (provider code : String)
  -- lock sections on `SESSION_CACHE`
  | sessionCacheGet (sessionId : String)
  | sessionCachePut (sessionId : String) (session : Session)
  | sessionCacheRemove (sessionId : String)
  | sessionCacheRetain (userId : Uuid)
  -- WebSocket permits and connection counts
  | acquirePermit
  | releasePermit
  | reserveConnection (userId : Uuid) (max : Nat)
  -- sessions in Redis
  | sessionCreate (session : Session) (ttl : Nat)
  | sessionGet (sessionId : String)
  | sessionDestroy (sessionId : String)
  | sessionExpire (sessionId : String) (ttl : Nat)
  | renameSessions (userId : Uuid)
  | destroyingMembers (userId : Uuid)
  | delDestroying (userId : Uuid)
  | delSessions (sessionIds : List String)
  -- cached values
  | get (ns : Namespace) (key : String)
  | set (ns : Namespace) (key : String) (value : ns.Value) (ttl : Nat)
  | setFresh (ns : Namespace) (value : ns.Value) (ttl : Nat)
  | del (ns : Namespace) (key : String)
  | getdel (ns : Namespace) (key : String)
  -- counters
  | backoffRead (key : String)
  | backoffIncrement (key : String) (tracking first second third : Nat)
  | rateLimit (key : String) (windowStart now max ttl : Nat)
  | rateLimitPurge (key : String) (limit : Int)
  | rateLimitCard (key : String)
  -- Postgres
  | selectUserByEmail (email : String)
  | selectUserById (id : Uuid)
  | insertUser (email : String) (name : Option String) (passwordHash : String)
  | upsertUser (email : String) (name : Option String) (provider : String)
  | updatePassword (passwordHash : String) (userId : Uuid)
  | deleteNotes (userId : Uuid)
  | deleteUser (userId : Uuid)

abbrev Reply : Cmd → Type
  | .now => Nat
  | .pass _ => Unit
  | .draw => String
  | .exchangeCode _ _ => Option (String × Option String)
  | .sessionCacheGet _ => Option Session
  | .sessionCachePut _ _ => Unit
  | .sessionCacheRemove _ => Unit
  | .sessionCacheRetain _ => Unit
  | .acquirePermit => Bool
  | .releasePermit => Unit
  | .reserveConnection _ _ => Bool
  | .sessionCreate _ _ => Except CacheError String
  | .sessionGet _ => Except CacheError (Option Session)
  | .sessionDestroy _ => Except CacheError Unit
  | .sessionExpire _ _ => Except CacheError Unit
  | .renameSessions _ => Except CacheError Unit
  | .destroyingMembers _ => Except CacheError (List String)
  | .delDestroying _ => Except CacheError Unit
  | .delSessions _ => Except CacheError Unit
  | .get ns _ => Except CacheError (Option ns.Value)
  | .set _ _ _ _ => Except CacheError Unit
  | .setFresh _ _ _ => Except CacheError String
  | .del _ _ => Except CacheError Unit
  | .getdel ns _ => Except CacheError (Option ns.Value)
  | .backoffRead _ => Except CacheError (Int × Int)
  | .backoffIncrement _ _ _ _ _ => Except CacheError Nat
  | .rateLimit _ _ _ _ _ => Except CacheError (Int × Int × Int)
  | .rateLimitPurge _ _ => Except CacheError Unit
  | .rateLimitCard _ => Except CacheError Nat
  | .selectUserByEmail _ => Except DbError (Option User)
  | .selectUserById _ => Except DbError (Option User)
  | .insertUser _ _ _ => Except DbError Uuid
  | .upsertUser _ _ _ => Except DbError Uuid
  | .updatePassword _ _ => Except DbError Nat
  | .deleteNotes _ => Except DbError Unit
  | .deleteUser _ => Except DbError Nat

namespace World

/-- At most this many sessions are cached; then the cache is cleared. -/
def maxSessionCacheEntries : Nat := 100000

/-- `SESSION_CACHE_TTL` in milliseconds. -/
def sessionCacheTtl : Nat := 300000

def sessionCacheGet (w : World) (sessionId : String) : Option Session × World :=
  match w.sessionCache.lookup sessionId with
  | some (expiry, session) =>
      if w.now < expiry then (some session, w)
      else (none, { w with sessionCache := w.sessionCache.erase sessionId })
  | none => (none, w)

def sessionCachePut (w : World) (sessionId : String) (session : Session) : World :=
  let kept := if maxSessionCacheEntries ≤ w.sessionCache.size then ∅ else w.sessionCache
  { w with sessionCache := kept.insert sessionId (w.now + sessionCacheTtl, session) }

/-- `try_acquire_owned` of the semaphore. -/
def acquirePermit (w : World) : Bool × World :=
  if 0 < w.permits then (true, { w with permits := w.permits - 1 }) else (false, w)

/-- The lock section on `user_connections`: count one more, up to `max`. -/
def reserveConnection (w : World) (userId : Uuid) (max : Nat) : Bool × World :=
  let current := w.userConnections userId
  if max ≤ current then (false, w)
  else (true, { w with
    userConnections := Function.update w.userConnections userId (current + 1) })

/-- The script of `session_create`: SET EX, SADD, EXPIRE. -/
def sessionCreate (w : World) (session : Session) (ttl : Nat) (id : String) :
    Except CacheError String × World :=
  match deadline w.now ttl with
  | none => (.error (invalidExpire "set"), w)
  | some d =>
      (.ok id, { w with
        sessions := w.sessions.set id ⟨session, some d⟩
        userSessions := w.userSessions.set session.userId
          ⟨((w.userSessions.get w.now session.userId).getD []).insert id, some d⟩ })

/-- SREM; a set that becomes empty is no key any more. -/
def srem (st : Store Uuid (List String)) (now : Nat) (userId : Uuid) (id : String) :
    Store Uuid (List String) :=
  match st.entry now userId with
  | none => st
  | some t =>
      let rest := t.value.filter fun other => other ≠ id
      if rest = [] then st.del userId else st.set userId { t with value := rest }

/-- The script of `session_destroy`: the owner is read from the session. -/
def sessionDestroy (w : World) (sessionId : String) : World :=
  { w with
    sessions := w.sessions.del sessionId
    userSessions :=
      match w.sessions.get w.now sessionId with
      | none => w.userSessions
      | some session => srem w.userSessions w.now session.userId sessionId }

/-- The `i64` of EXPIRE is not positive and still fits 64 bits as milliseconds. -/
def endsAtOnce (ttl : Nat) : Bool := ttl = 0 || 2 ^ 64 - 2 ^ 63 / 1000 ≤ ttl

/-- EXPIRE. A lifetime that is not positive deletes the key. -/
def sessionExpire (w : World) (sessionId : String) (ttl : Nat) :
    Except CacheError Unit × World :=
  if endsAtOnce ttl then (.ok (), { w with sessions := w.sessions.del sessionId })
  else
    match deadline w.now ttl, w.sessions.entry w.now sessionId with
    | none, _ => (.error (invalidExpire "expire"), w)
    | some _, none => (.ok (), w)
    | some d, some t =>
        (.ok (), { w with sessions := w.sessions.set sessionId ⟨t.value, some d⟩ })

/-- RENAME of the set of a user to its temporary key, which keeps the deadline. -/
def renameSessions (w : World) (userId : Uuid) : Except CacheError Unit × World :=
  match w.userSessions.entry w.now userId with
  | none => (.error (.commandFailed "ERR no such key"), w)
  | some t =>
      (.ok (), { w with
        userSessions := w.userSessions.del userId
        destroying := w.destroying.set userId t })

/-- DEL of several session keys. Without any key it is an error. -/
def delSessions (w : World) (sessionIds : List String) : Except CacheError Unit × World :=
  if sessionIds = [] then
    (.error (.commandFailed "ERR wrong number of arguments for 'del' command"), w)
  else (.ok (), { w with sessions := sessionIds.foldl Store.del w.sessions })

def setCached (w : World) (ns : Namespace) (st : Store String ns.Value) : World :=
  { w with cached := Function.update w.cached ns st }

@[simp] theorem setCached_self (w : World) (ns : Namespace) (st : Store String ns.Value) :
    (w.setCached ns st).cached ns = st := Function.update_self _ _ _

@[simp] theorem setCached_ne {w : World} {ns ns' : Namespace} {st : Store String ns.Value}
    (h : ns' ≠ ns) : (w.setCached ns st).cached ns' = w.cached ns' :=
  Function.update_of_ne h _ _

/-- SET EX. -/
def set (w : World) (ns : Namespace) (key : String) (value : ns.Value) (ttl : Nat) :
    Except CacheError Unit × World :=
  match deadline w.now ttl with
  | none => (.error (invalidExpire "set"), w)
  | some d => (.ok (), w.setCached ns ((w.cached ns).set key ⟨value, some d⟩))

/-- The script of `backoff_check`. TTL rounds to the nearest second. -/
def backoffRead (w : World) (key : String) : (Int × Int) × World :=
  match w.backoff.entry w.now key with
  | none => ((-1, -1), w)
  | some ⟨_, none⟩ => ((-1, -1), { w with backoff := w.backoff.del key })
  | some ⟨count, some d⟩ => ((count, ((d - w.now + 500) / 1000 : Nat)), w)

/-- The script of `backoff_increment`: INCR, then EXPIRE by the new count. -/
def backoffIncrement (w : World) (key : String) (tracking first second third : Nat) :
    Except CacheError Nat × World :=
  let count := (w.backoff.get w.now key).getD 0 + 1
  let ttl :=
    if count = 1 then tracking
    else if count < 5 then first
    else if count < 10 then second
    else third
  let keep := (w.backoff.entry w.now key).bind Timed.deadline
  match deadline w.now ttl with
  | none =>
      (.error (invalidExpire "expire"), { w with backoff := w.backoff.set key ⟨count, keep⟩ })
  | some d => (.ok count, { w with backoff := w.backoff.set key ⟨count, some d⟩ })

/-- A number of Lua and a score of a sorted set are doubles: 53 significant bits,
rounded to nearest, ties to even. -/
def toDouble (n : Nat) : Nat :=
  let unit := 2 ^ (n.log2 - 52)
  let low := n / unit * unit
  if unit < 2 * (n % unit) ∨ (unit = 2 * (n % unit) ∧ n / unit % 2 = 1) then low + unit else low

/-- A number of Lua as an integer reply; what does not fit becomes the least `i64`. -/
def luaReply (n : Nat) : Int := if n < 2 ^ 63 then n else -2 ^ 63

/-- ZADD: a member that is in the set already changes its score. -/
def zadd (entries : List (Nat × String)) (score : Nat) (member : String) :
    List (Nat × String) :=
  (entries.filter fun e => e.2 ≠ member) ++ [(score, member)]

/-- The entries of a sorted set that ZREMRANGEBYSCORE leaves, from `-inf` to `limit`. -/
def zremrangebyscore (limit : Int) (entries : List (Nat × String)) : List (Nat × String) :=
  entries.filter fun e => limit < 0 ∨ toDouble limit.toNat < e.1

def rateLimitEntries (w : World) (key : String) : List (Nat × String) :=
  (w.rateLimits.get w.now key).getD []

/-- The script of `rate_limit_check` on a sorted set of times and members. A set that
becomes empty is no key any more. The oldest entry of an empty set is `nil`, and the
script fails on it. -/
def rateLimit (w : World) (key : String) (windowStart now max ttl : Nat) (member : String) :
    Except CacheError (Int × Int × Int) × World :=
  let kept := zremrangebyscore windowStart (w.rateLimitEntries key)
  let keep := if kept.isEmpty then none else (w.rateLimits.entry w.now key).bind Timed.deadline
  let max := toDouble max
  if kept.length < max then
    let added := zadd kept (toDouble now) member
    match deadline w.now ttl with
    | none =>
        (.error (invalidExpire "expire"),
          { w with rateLimits := w.rateLimits.set key ⟨added, keep⟩ })
    | some d =>
        (.ok (1, luaReply (toDouble (toDouble (max - kept.length) - 1)), 0),
          { w with rateLimits := w.rateLimits.set key ⟨added, some d⟩ })
  else
    match kept.map Prod.fst with
    | [] =>
        (.error (.commandFailed "ERR attempt to perform arithmetic on a nil value"),
          { w with rateLimits := w.rateLimits.del key })
    | t :: ts =>
        (.ok (0, 0, luaReply (toDouble (ts.foldl min t + toDouble (toDouble ttl * 1000)))),
          { w with rateLimits := w.rateLimits.set key ⟨kept, keep⟩ })

/-- ZREMRANGEBYSCORE as a command of its own. -/
def rateLimitPurge (w : World) (key : String) (limit : Int) : World :=
  match w.rateLimits.entry w.now key with
  | none => w
  | some t =>
      let kept := zremrangebyscore limit t.value
      if kept.isEmpty then { w with rateLimits := w.rateLimits.del key }
      else { w with rateLimits := w.rateLimits.set key { t with value := kept } }

def userByEmail (w : World) (email : String) : Option User :=
  w.users.find? fun user => user.email = email

def userById (w : World) (id : Uuid) : Option User :=
  w.users.find? fun user => user.id = id

def selectUserByEmail (w : World) (email : String) : Except DbError (Option User) :=
  if email.toList.contains (Char.ofNat 0) then .error (.failed "invalid byte sequence")
  else .ok (w.userByEmail email)

/-- A new row, if its columns fit and neither its id nor its email is taken. -/
def addUser (w : World) (user : User) : Except DbError Uuid × World :=
  if !fitsColumn 255 user.email || !(user.name.all (fitsColumn 255))
      || !fitsColumn 50 user.provider || !(user.passwordHash.all (fitsColumn 255)) then
    (.error (.failed "value too long or invalid"), w)
  else if (w.userById user.id).isSome || (w.userByEmail user.email).isSome then
    (.error .uniqueViolation, w)
  else (.ok user.id, { w with users := w.users ++ [user] })

/-- INSERT .. ON CONFLICT (email) DO UPDATE SET name .. RETURNING id. -/
def upsertUser (w : World) (user : User) : Except DbError Uuid × World :=
  match w.userByEmail user.email with
  | none => w.addUser user
  | some row =>
      let rows := w.users.map fun other =>
        if other.email = user.email then { other with name := user.name } else other
      if user.name.all (fitsColumn 255) then (.ok row.id, { w with users := rows })
      else (.error (.failed "value too long or invalid"), w)

/-- UPDATE users .. WHERE id = .. AND provider = 'local'. -/
def updatePassword (w : World) (passwordHash : String) (userId : Uuid) :
    Except DbError Nat × World :=
  let isLocal (user : User) : Bool := user.id = userId && user.provider = "local"
  let rows := w.users.map fun user =>
    if isLocal user then { user with passwordHash := some passwordHash } else user
  if fitsColumn 255 passwordHash then (.ok (w.users.countP isLocal), { w with users := rows })
  else (.error (.failed "value too long or invalid"), w)

def deleteNotes (w : World) (userId : Uuid) : World :=
  { w with notes := w.notes.filter fun note => note.userId ≠ userId }

/-- DELETE FROM users. The foreign key of `notes` cascades. -/
def deleteUser (w : World) (userId : Uuid) : Nat × World :=
  (w.users.countP fun user => user.id = userId, { w.deleteNotes userId with
    users := w.users.filter fun user => user.id ≠ userId })

/-- The same state at another moment. -/
def atTime (w : World) (t : Nat) : World := { w with now := t }

/-- The answer of a Redis command that would give `r`, under a fault. -/
def answer {α : Type} (w : World) (fault : Fault) (r : Except CacheError α × World) :
    Except CacheError α × World :=
  match fault with
  | .none => r
  | .refused message => (.error (.commandFailed message), w)
  | .lost message => (.error (.commandFailed message), r.2)

def answerDb {α : Type} (w : World) (fault : Fault) (r : Except DbError α × World) :
    Except DbError α × World :=
  match fault with
  | .none => r
  | .refused message => (.error (.failed message), w)
  | .lost message => (.error (.failed message), r.2)

/-- One atomic step. -/
def exec (e : Choice) : (c : Cmd) → World → Reply c × World
  | .now, w => (w.now, w)
  | .pass ms, w => ((), { w with now := w.now + ms })
  | .draw, w => (e.token, w)
  | .exchangeCode _ _, w => (e.profile, w)
  | .sessionCacheGet id, w => w.sessionCacheGet id
  | .sessionCachePut id session, w => ((), w.sessionCachePut id session)
  | .sessionCacheRemove id, w => ((), { w with sessionCache := w.sessionCache.erase id })
  | .sessionCacheRetain userId, w => ((), { w with
      sessionCache := w.sessionCache.retain fun _ entry => entry.2.userId ≠ userId })
  | .acquirePermit, w => w.acquirePermit
  | .releasePermit, w => ((), { w with permits := w.permits + 1 })
  | .reserveConnection userId max, w => w.reserveConnection userId max
  | .sessionCreate session ttl, w => w.answer e.fault (w.sessionCreate session ttl e.token)
  | .sessionGet id, w => w.answer e.fault (.ok (w.sessions.get w.now id), w)
  | .sessionDestroy id, w => w.answer e.fault (.ok (), w.sessionDestroy id)
  | .sessionExpire id ttl, w => w.answer e.fault (w.sessionExpire id ttl)
  | .renameSessions userId, w => w.answer e.fault (w.renameSessions userId)
  | .destroyingMembers userId, w =>
      w.answer e.fault (.ok ((w.destroying.get w.now userId).getD []), w)
  | .delDestroying userId, w =>
      w.answer e.fault (.ok (), { w with destroying := w.destroying.del userId })
  | .delSessions ids, w => w.answer e.fault (w.delSessions ids)
  | .get ns key, w => w.answer e.fault (.ok ((w.cached ns).get w.now key), w)
  | .set ns key value ttl, w => w.answer e.fault (w.set ns key value ttl)
  | .setFresh ns value ttl, w =>
      let r := w.set ns e.token value ttl
      w.answer e.fault (r.1.map fun _ => e.token, r.2)
  | .del ns key, w => w.answer e.fault (.ok (), w.setCached ns ((w.cached ns).del key))
  | .getdel ns key, w => w.answer e.fault
      (.ok ((w.cached ns).get w.now key), w.setCached ns ((w.cached ns).del key))
  | .backoffRead key, w => let r := w.backoffRead key; w.answer e.fault (.ok r.1, r.2)
  | .backoffIncrement key t₁ t₂ t₃ t₄, w =>
      w.answer e.fault (w.backoffIncrement key t₁ t₂ t₃ t₄)
  | .rateLimit key windowStart now max ttl, w =>
      w.answer e.fault (w.rateLimit key windowStart now max ttl e.token)
  | .rateLimitPurge key limit, w => w.answer e.fault (.ok (), w.rateLimitPurge key limit)
  | .rateLimitCard key, w => w.answer e.fault (.ok (w.rateLimitEntries key).length, w)
  | .selectUserByEmail email, w => w.answerDb e.fault (w.selectUserByEmail email, w)
  | .selectUserById id, w => w.answerDb e.fault (.ok (w.userById id), w)
  | .insertUser email name hash, w =>
      w.answerDb e.fault (w.addUser ⟨e.id, email, name, "local", some hash⟩)
  | .upsertUser email name provider, w =>
      w.answerDb e.fault (w.upsertUser ⟨e.id, email, name, provider, none⟩)
  | .updatePassword hash userId, w => w.answerDb e.fault (w.updatePassword hash userId)
  | .deleteNotes userId, w => w.answerDb e.fault (.ok (), w.deleteNotes userId)
  | .deleteUser userId, w =>
      let r := w.deleteUser userId; w.answerDb e.fault (.ok r.1, r.2)

end World

/-- A program of the backend. -/
abbrev Action := Program Cmd Reply

abbrev ask (c : Cmd) : Action (Reply c) := .cmd c .ret

/-- A step without a fault, of a program that draws nothing. -/
def Choice.calm : Choice :=
  ⟨.none, "", ⟨"00000000-0000-0000-0000-000000000000", by decide⟩, none⟩

@[simp] theorem Choice.calm_fault : Choice.calm.fault = .none := rfl

@[simp] theorem World.answer_none {α : Type} (w : World) (r : Except CacheError α × World) :
    w.answer .none r = r := rfl

@[simp] theorem World.answerDb_none {α : Type} (w : World) (r : Except DbError α × World) :
    w.answerDb .none r = r := rfl

/-- A program that may fail, run with nobody else at work. -/
def alone {δ α : Type} (e : Choice) (p : ExceptT δ Action α) (w : World) :
    Except δ α × World :=
  Program.runExcept (World.exec e) p w

/-- A program that does not fail, run with nobody else at work and no fault. -/
abbrev World.perform {α : Type} (w : World) (p : Action α) : α × World :=
  p.run (World.exec .calm) w

section Alone

variable {δ α β : Type} (e : Choice) (w : World)

@[simp] theorem alone_pure (a : α) : alone e (pure a : ExceptT δ Action α) w = (.ok a, w) := rfl

@[simp] theorem alone_throw (err : δ) :
    alone e (throw err : ExceptT δ Action α) w = (.error err, w) := rfl

@[simp] theorem alone_mk (p : Action (Except δ α)) :
    alone e (.mk p) w = p.run (World.exec e) w := rfl

@[simp] theorem alone_lift (p : Action α) :
    alone e (liftM p : ExceptT δ Action α) w
      = (.ok (p.run (World.exec e) w).1, (p.run (World.exec e) w).2) :=
  Program.runExcept_lift _ p w

@[simp] theorem alone_exceptLift (p : Action α) :
    alone e (ExceptT.lift p : ExceptT δ Action α) w
      = (.ok (p.run (World.exec e) w).1, (p.run (World.exec e) w).2) :=
  Program.runExcept_lift _ p w

@[simp] theorem alone_except (r : Except δ α) :
    alone e (liftM r : ExceptT δ Action α) w = (r, w) := rfl

@[simp] theorem alone_adapt {ε : Type} (g : δ → ε) (p : ExceptT δ Action α) :
    alone e (ExceptT.adapt g p) w = ((alone e p w).1.mapError g, (alone e p w).2) :=
  Program.runExcept_adapt _ g p w

/-- A program that may fail, as a part of one that looks at the result itself. -/
@[simp] theorem run_exceptRun (p : ExceptT δ Action α) :
    Program.run (World.exec e) p.run w = alone e p w := rfl

theorem alone_ite (c : Prop) [Decidable c] (p q : ExceptT δ Action α) :
    alone e (if c then p else q) w = if c then alone e p w else alone e q w := by
  split <;> rfl

theorem alone_bind (p : ExceptT δ Action α) (f : α → ExceptT δ Action β) :
    alone e (p >>= f) w =
      match alone e p w with
      | (.ok a, w') => alone e (f a) w'
      | (.error err, w') => (.error err, w') := by
  unfold alone
  rw [Program.runExcept_bind]
  rcases Program.runExcept (World.exec e) p w with ⟨_ | _, _⟩ <;> rfl

end Alone

end FullStackHex
