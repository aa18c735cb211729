import FullStackHex.World
import FullStackHex.Library.JsonDocument

/-!
Redis as the cache crate finds it: one space of text keys, over texts, sets and sorted sets. The
commands, and the Lua scripts of `cache/src` as sequences of them. A script runs as a whole; when
one of its commands fails, what it has done so far stays.
-/

namespace FullStackHex

open Concurrent Expiring Codec JsonText

namespace Redis

inductive Value where
  | text (s : String)
  | set (members : List String)
  | sorted (entries : List (Nat × String))
  deriving DecidableEq, Repr

abbrev Db := Store String Value

abbrev Batch (α : Type) := ExceptT CacheError (StateM Db) α

/-- What a script returns, and what it leaves. -/
def perform {α : Type} (p : Batch α) (db : Db) : Except CacheError α × Db := p.run db

def wrongType : CacheError :=
  .commandFailed "WRONGTYPE Operation against a key holding the wrong kind of value"

def notInteger : CacheError := .commandFailed "ERR value is not an integer or out of range"

/-- What stands under a key that has not expired. -/
def lookup (now : Nat) (key : String) : Batch (Option (Timed Value)) :=
  .mk fun db => (.ok (db.entry now key), db)

def write (key : String) (v : Option (Timed Value)) : Batch Unit :=
  .mk fun db => (.ok (), Function.update db key v)

section Perform

variable {α β : Type} (db : Db)

@[simp] theorem perform_pure (a : α) : perform (pure a : Batch α) db = (.ok a, db) := rfl

@[simp] theorem perform_throw (err : CacheError) :
    perform (throw err : Batch α) db = (.error err, db) := rfl

@[simp] theorem perform_lift (r : Except CacheError α) :
    perform (liftM r : Batch α) db = (r, db) := rfl

@[simp] theorem perform_lookup (now : Nat) (key : String) :
    perform (lookup now key) db = (.ok (db.entry now key), db) := rfl

@[simp] theorem perform_write (key : String) (v : Option (Timed Value)) :
    perform (write key v) db = (.ok (), Function.update db key v) := rfl

theorem perform_bind (p : Batch α) (f : α → Batch β) :
    perform (p >>= f) db =
      match perform p db with
      | (.ok a, db') => perform (f a) db'
      | (.error err, db') => (.error err, db') := by
  have hbind : perform (p >>= f) db
      = perform (.mk (ExceptT.bindCont f (perform p db).1)) (perform p db).2 := rfl
  rw [hbind]
  rcases perform p db with ⟨_ | _, _⟩ <;> rfl

/-- A script goes on after a command that succeeds. -/
theorem perform_step {p : Batch α} {f : α → Batch β} {db db' : Db} {a : α}
    (h : perform p db = (.ok a, db')) : perform (p >>= f) db = perform (f a) db' := by
  rw [perform_bind, h]

theorem perform_fail {p : Batch α} {f : α → Batch β} {db db' : Db} {err : CacheError}
    (h : perform p db = (.error err, db')) : perform (p >>= f) db = (.error err, db') := by
  rw [perform_bind, h]

end Perform

/-! ## Commands -/

section Commands

variable (now : Nat) (key : String)

/-- GET. -/
def getText : Batch (Option String) := do
  match ← lookup now key with
  | none => return none
  | some ⟨.text s, _⟩ => return some s
  | some _ => throw wrongType

/-- SET with EX. -/
def setEx (s : String) (secs : Nat) : Batch Unit :=
  match deadline now secs with
  | none => throw (invalidExpire "set")
  | some d => write key (some ⟨.text s, some d⟩)

def del : Batch Unit := write key none

/-- DEL of several keys. -/
def delAll (keys : List String) : Batch Unit :=
  if keys = [] then throw (.commandFailed "ERR wrong number of arguments for 'del' command")
  else keys.forM del

/-- GETDEL. -/
def getDel : Batch (Option String) := do
  match ← getText now key with
  | none => return none
  | some s =>
      del key
      return some s

/-- EXPIRE. A lifetime of nothing deletes the key. -/
def expire (secs : Nat) : Batch Unit :=
  if secs = 0 then del key
  else
    match deadline now secs with
    | none => throw (invalidExpire "expire")
    | some d => do
        match ← lookup now key with
        | none => return ()
        | some t => write key (some ⟨t.value, some d⟩)

/-- RENAME to another key. -/
def rename (other : String) : Batch Unit := do
  match ← lookup now key with
  | none => throw (.commandFailed "ERR no such key")
  | some t =>
      write key none
      write other (some t)

/-- SADD. -/
def sadd (member : String) : Batch Unit := do
  match ← lookup now key with
  | none => write key (some ⟨.set [member], none⟩)
  | some ⟨.set members, d⟩ => write key (some ⟨.set (members.insert member), d⟩)
  | some _ => throw wrongType

/-- SREM. A set that becomes empty is no key any more. -/
def srem (member : String) : Batch Unit := do
  match ← lookup now key with
  | none => return ()
  | some ⟨.set members, d⟩ =>
      let rest := members.filter fun other => other ≠ member
      write key (if rest = [] then none else some ⟨.set rest, d⟩)
  | some _ => throw wrongType

/-- SMEMBERS. -/
def smembers : Batch (List String) := do
  match ← lookup now key with
  | none => return []
  | some ⟨.set members, _⟩ => return members
  | some _ => throw wrongType

/-- INCR. It keeps the deadline. -/
def incr : Batch Nat := do
  match ← lookup now key with
  | none =>
      write key (some ⟨.text (toString 1), none⟩)
      return 1
  | some ⟨.text s, d⟩ =>
      match parseDigits s.toList with
      | none => throw notInteger
      | some count =>
          write key (some ⟨.text (toString (count + 1)), d⟩)
          return count + 1
  | some _ => throw wrongType

/-- TTL, in seconds, to the nearest. -/
def ttl : Batch Int := do
  match ← lookup now key with
  | none => return -2
  | some ⟨_, none⟩ => return -1
  | some ⟨_, some d⟩ => return ((d - now + 500) / 1000 : Nat)

/-- ZREMRANGEBYSCORE from `-inf`. -/
def zremrangebyscore (limit : Int) : Batch Unit := do
  match ← lookup now key with
  | none => return ()
  | some ⟨.sorted entries, d⟩ =>
      let kept := World.zremrangebyscore limit entries
      write key (if kept.isEmpty then none else some ⟨.sorted kept, d⟩)
  | some _ => throw wrongType

/-- ZCARD. -/
def zcard : Batch Nat := do
  match ← lookup now key with
  | none => return 0
  | some ⟨.sorted entries, _⟩ => return entries.length
  | some _ => throw wrongType

/-- ZADD. -/
def zadd (score : Nat) (member : String) : Batch Unit := do
  match ← lookup now key with
  | none => write key (some ⟨.sorted [(score, member)], none⟩)
  | some ⟨.sorted entries, d⟩ =>
      write key (some ⟨.sorted (World.zadd entries score member), d⟩)
  | some _ => throw wrongType

/-- The score that ZRANGE 0 0 WITHSCORES answers with. -/
def firstScore : Batch (Option Nat) := do
  match ← lookup now key with
  | none => return none
  | some ⟨.sorted entries, _⟩ =>
      match entries.map Prod.fst with
      | [] => return none
      | score :: scores => return some (scores.foldl min score)
  | some _ => throw wrongType

end Commands

/-! ## Scripts -/

section Scripts

variable (now : Nat)

/-- The script of `session_create`. -/
def createSession (key userKey json sessionId : String) (secs : Nat) : Batch String := do
  setEx now key json secs
  sadd now userKey sessionId
  expire now userKey secs
  return sessionId

/-- `session['user_id']` of a document that `cjson.decode` reads. -/
def ownerOf (json : String) : Option String :=
  (parse json).bind fun session => (session.get "user_id").asStr

/-- The script of `session_destroy`. -/
def destroySession (key sessionId userKeys : String) : Batch Unit := do
  match (← getText now key).bind ownerOf with
  | some userId => srem now (userKeys ++ ":" ++ userId) sessionId
  | none => pure ()
  del key

/-- The script of `refresh_token_rotate`; no text stands for none. -/
def rotate (key : String) : Batch String := do
  match ← getText now key with
  | some s =>
      del key
      return s
  | none => return ""

/-- The script of `backoff_check`. -/
def backoffCheck (key : String) : Batch (Option (String × Int)) := do
  match ← getText now key with
  | none => return none
  | some count =>
      let secs ← ttl now key
      if secs = -1 then
        del key
        return none
      else return some (count, secs)

/-- The script of `backoff_increment`. -/
def backoffIncrement (key : String) (tracking first second third : Nat) : Batch Nat := do
  let count ← incr now key
  expire now key
    (if count = 1 then tracking
    else if count < 5 then first
    else if count < 10 then second
    else third)
  return count

/-- The script of `rate_limit_check`. -/
def rateLimit (key : String) (windowStart time max ttl : Nat) (member : String) :
    Batch (Int × Int × Int) := do
  zremrangebyscore now key windowStart
  let count ← zcard now key
  let max := World.toDouble max
  if count < max then
    zadd now key (World.toDouble time) member
    expire now key ttl
    return (1, World.luaReply (World.toDouble (World.toDouble (max - count) - 1)), 0)
  else
    match ← firstScore now key with
    | none => throw (.commandFailed "ERR attempt to perform arithmetic on a nil value")
    | some score =>
        return (0, 0,
          World.luaReply (World.toDouble (score + World.toDouble (World.toDouble ttl * 1000))))

end Scripts

end Redis

end FullStackHex
