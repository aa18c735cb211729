import FullStackHex.Cache.Redis
import FullStackHex.Library.Refinement
import FullStackHex.Library.Simulation
import FullStackHex.Runs

/-!
The key spaces of `World` in the one key space of Redis. `RedisKey.text` is what `make_key` builds;
no two keys have the same text, so a script on texts touches the key spaces as `World.exec` says.
Values are kept as the JSON that the cache crate writes, and read back from it.
-/

namespace FullStackHex

open Concurrent Expiring Codec JsonText

/-! ## Keys -/

/-- `make_key` of a client with this `key_prefix`. -/
def makeKey (keyPrefix ns key : String) : String := keyPrefix ++ ":" ++ ns ++ ":" ++ key

/-- The namespaces that `make_key` is called with for stored values. -/
inductive KeySpace where
  | session
  | userSessions
  | cached (ns : Namespace)
  | backoff
  | rateLimit
  deriving DecidableEq

def KeySpace.text : KeySpace → String
  | .session => "session"
  | .userSessions => "user_sessions"
  | .cached .refresh => "refresh"
  | .cached .reset => "reset"
  | .cached .blacklist => "blacklist"
  | .cached .oauthCsrf => "oauth_csrf"
  | .backoff => "backoff"
  | .rateLimit => "ratelimit"

/-- All that is kept in Redis. -/
inductive RedisKey where
  | session (sessionId : String)
  | userSessions (userId : Uuid)
  | destroying (userId : Uuid)
  | cached (ns : Namespace) (key : String)
  | backoff (key : String)
  | rateLimit (key : String)
  deriving DecidableEq

/-- The namespace of a key, and what follows it. -/
def RedisKey.parts : RedisKey → KeySpace × String
  | .session sessionId => (.session, sessionId)
  | .userSessions userId => (.userSessions, userId.text)
  | .destroying userId => (.userSessions, userId.text ++ ":destroying")
  | .cached ns key => (.cached ns, key)
  | .backoff key => (.backoff, key)
  | .rateLimit key => (.rateLimit, key)

def RedisKey.text (keyPrefix : String) (k : RedisKey) : String :=
  makeKey keyPrefix k.parts.1.text k.parts.2

theorem KeySpace.no_colon (space : KeySpace) : ':' ∉ space.text.toList := by
  cases space with
  | cached ns => cases ns <;> decide +kernel
  | session | userSessions | backoff | rateLimit => decide +kernel

theorem KeySpace.text_inj {a b : KeySpace} (h : a.text = b.text) : a = b := by
  have hall : ∀ a ∈ [session, userSessions, cached .refresh, cached .reset, cached .blacklist,
      cached .oauthCsrf, backoff, rateLimit], ∀ b ∈ [session, userSessions, cached .refresh,
      cached .reset, cached .blacklist, cached .oauthCsrf, backoff, rateLimit],
      a.text = b.text → a = b := by decide +kernel
  apply hall a _ b _ h
  · rcases a with _ | _ | ns | _ | _ <;> first | decide | (cases ns <;> decide)
  · rcases b with _ | _ | ns | _ | _ <;> first | decide | (cases ns <;> decide)

theorem makeKey_inj {keyPrefix ns ns' key key' : String} (hns : ':' ∉ ns.toList)
    (hns' : ':' ∉ ns'.toList) (h : makeKey keyPrefix ns key = makeKey keyPrefix ns' key') :
    ns = ns' ∧ key = key' := by
  have htext := congrArg String.toList h
  have hcolon : (":" : String).toList = [':'] := rfl
  simp only [makeKey, String.toList_append, hcolon, List.append_assoc, List.singleton_append]
    at htext
  have hrest := (List.cons.inj (List.append_cancel_left htext)).2
  obtain ⟨hfirst, hsecond⟩ := append_separator_inj hns hns' hrest
  exact ⟨String.toList_inj.mp hfirst, String.toList_inj.mp hsecond⟩

/-- The set that is being destroyed has a longer key than any set in use. -/
theorem destroying_ne (u v : Uuid) : u.text ++ ":destroying" ≠ v.text := by
  intro h
  have hlength := congrArg (fun s => s.toList.length) h
  have hu := (isUuid_getElem u.wellFormed).1
  have hv := (isUuid_getElem v.wellFormed).1
  have hmore : (":destroying" : String).toList.length = 11 := by decide +kernel
  simp only [String.toList_append, List.length_append] at hlength
  omega

theorem Uuid.text_inj {u v : Uuid} (h : u.text = v.text) : u = v := by
  cases u
  cases v
  cases h
  rfl

theorem RedisKey.parts_inj {k k' : RedisKey} (h : k.parts = k'.parts) : k = k' := by
  obtain ⟨hspace, hkey⟩ := Prod.mk.inj h
  cases k with
  | session id =>
      cases k' with
      | session id' => exact congrArg RedisKey.session hkey
      | _ => cases hspace
  | userSessions u =>
      cases k' with
      | userSessions v => exact congrArg RedisKey.userSessions (Uuid.text_inj hkey)
      | destroying v => exact absurd hkey.symm (destroying_ne v u)
      | _ => cases hspace
  | destroying u =>
      cases k' with
      | userSessions v => exact absurd hkey (destroying_ne u v)
      | destroying v =>
          have htext := congrArg String.toList hkey
          simp only [String.toList_append] at htext
          exact congrArg RedisKey.destroying
            (Uuid.text_inj (String.toList_inj.mp (List.append_cancel_right htext)))
      | _ => cases hspace
  | cached ns key =>
      cases k' with
      | cached ns' key' =>
          cases hspace
          exact congrArg (RedisKey.cached ns) hkey
      | _ => cases hspace
  | backoff key =>
      cases k' with
      | backoff key' => exact congrArg RedisKey.backoff hkey
      | _ => cases hspace
  | rateLimit key =>
      cases k' with
      | rateLimit key' => exact congrArg RedisKey.rateLimit hkey
      | _ => cases hspace

/-- No two keys of Redis have the same text. -/
theorem RedisKey.text_injective (keyPrefix : String) :
    Function.Injective (RedisKey.text keyPrefix) := by
  intro k k' h
  obtain ⟨hspace, hkey⟩ := makeKey_inj k.parts.1.no_colon k'.parts.1.no_colon h
  exact RedisKey.parts_inj (Prod.ext (KeySpace.text_inj hspace) hkey)

/-! ## Values -/

/-- The document of a session. -/
def sessionDocument (session : Session) : Json :=
  .object [("user_id".toList, .string session.userId.text.toList),
    ("email".toList, .string session.email.toList),
    ("name".toList, session.name.elim .null fun name => .string name.toList),
    ("provider".toList, .string session.provider.toList),
    ("created_at".toList, .ofNat session.createdAt)]

/-- `serde_json::to_string` of a session. -/
def sessionText (session : Session) : String := String.ofList (write (sessionDocument session))

def readUuid (text : String) : Option Uuid :=
  if h : isUuid text = true then some ⟨text, h⟩ else none

def readName : Json → Option (Option String)
  | .null => some none
  | .string text => some (some (String.ofList text))
  | _ => none

/-- `serde_json::from_str` of a session. -/
def readSession (text : String) : Option Session := do
  let session ← parse text
  let userId ← (session.get "user_id").asStr
  let userId ← readUuid userId
  let email ← (session.get "email").asStr
  let name ← readName (session.get "name")
  let provider ← (session.get "provider").asStr
  let createdAt ← (session.get "created_at").asNat
  some ⟨userId, email, name, provider, createdAt⟩

/-- What `cache_set` writes under a key of the namespace. -/
def Namespace.write : (ns : Namespace) → ns.Value → String
  | .refresh, (userId : Uuid) => String.ofList (JsonText.write (.string userId.text.toList))
  | .reset, (userId : Uuid) => String.ofList (JsonText.write (.string userId.text.toList))
  | .blacklist, (listed : Bool) => String.ofList (JsonText.write (.bool listed))
  | .oauthCsrf, (text : String) => text

/-- What `cache_get` reads from it. -/
def Namespace.read : (ns : Namespace) → String → Option ns.Value
  | .refresh, text => (parse text).bind Json.asStr |>.bind readUuid
  | .reset, text => (parse text).bind Json.asStr |>.bind readUuid
  | .blacklist, text => (parse text).bind fun doc =>
      match doc with
      | .bool listed => some listed
      | _ => none
  | .oauthCsrf, text => some text

/-- `CacheError::SerializationFailed`; the message of `serde_json` is left out. -/
def decoded {α : Type} (value : Option α) : Except CacheError α :=
  match value with
  | some a => .ok a
  | none => .error (.serializationFailed "")

@[simp] theorem readUuid_text (u : Uuid) : readUuid u.text = some u := dif_pos u.wellFormed

theorem parse_sessionText (session : Session) :
    parse (sessionText session) = some (sessionDocument session) := by
  apply parse_write
  intro m hm
  simp only [List.mem_cons, List.not_mem_nil, or_false] at hm
  rcases hm with rfl | rfl | rfl | rfl | rfl
  · trivial
  · trivial
  · cases session.name <;> trivial
  · trivial
  · exact numeral_toDigits session.createdAt

theorem session_fields (session : Session) :
    (sessionDocument session).get "user_id" = .string session.userId.text.toList ∧
      (sessionDocument session).get "email" = .string session.email.toList ∧
      (sessionDocument session).get "name"
        = session.name.elim .null (fun name => .string name.toList) ∧
      (sessionDocument session).get "provider" = .string session.provider.toList ∧
      (sessionDocument session).get "created_at" = .ofNat session.createdAt := by
  refine ⟨?_, ?_, ?_, ?_, ?_⟩
  all_goals
    unfold sessionDocument Json.get
    simp only [List.reverse_cons, List.reverse_nil, List.nil_append, List.cons_append,
      List.lookup_cons]
    rfl

theorem readSession_text (session : Session) :
    readSession (sessionText session) = some session := by
  obtain ⟨huser, hemail, hname, hprovider, hcreated⟩ := session_fields session
  have hread : readName (session.name.elim .null fun name => .string name.toList)
      = some session.name := by
    cases session.name with
    | none => rfl
    | some name => simp [readName]
  unfold readSession
  simp only [parse_sessionText, huser, hemail, hname, hprovider, hcreated, Json.asStr, hread,
    Option.bind_eq_bind, Option.bind_some, String.ofList_toList, readUuid_text, Json.asNat_ofNat]

theorem ownerOf_text (session : Session) :
    Redis.ownerOf (sessionText session) = some session.userId.text := by
  simp [Redis.ownerOf, parse_sessionText, (session_fields session).1, Json.asStr]

theorem Namespace.read_write (ns : Namespace) (value : ns.Value) :
    ns.read (ns.write value) = some value := by
  cases ns with
  | refresh => simp [Namespace.read, Namespace.write, parse_write_string, Json.asStr]
  | reset => simp [Namespace.read, Namespace.write, parse_write_string, Json.asStr]
  | blacklist => cases value <;> rfl
  | oauthCsrf => rfl

/-! ## The commands of the backend on a Redis of texts -/

/-- A `World` whose key spaces are in one Redis; what `process` has of them is not looked at. -/
structure Backend where
  redis : Redis.Db
  process : World

namespace Backend

variable {α : Type}

/-- The answer to a script under a fault of the connection. -/
def script (b : Backend) (fault : Fault) (p : Redis.Batch α) : Except CacheError α × Backend :=
  let r := Redis.perform p b.redis
  match fault with
  | .none => (r.1, { b with redis := r.2 })
  | .refused message => (.error (.commandFailed message), b)
  | .lost message => (.error (.commandFailed message), { b with redis := r.2 })

/-- A text that is there is decoded by the client. -/
def decode (p : Redis.Batch (Option String)) (read : String → Option α) :
    Redis.Batch (Option α) := do
  match ← p with
  | none => return none
  | some text => return some (← decoded (read text))

/-- `cache_get_delete`, and `refresh_token_rotate` for refresh tokens. -/
def take (now : Nat) (ns : Namespace) (key : String) : Redis.Batch (Option ns.Value) :=
  match ns with
  | .refresh => decode (do
      let text ← Redis.rotate now key
      return if text = "" then none else some text) Namespace.refresh.read
  | ns => decode (Redis.getDel now key) ns.read

/-- The count and the remaining seconds of `backoff_check`, as numbers. -/
def backoffNumbers (now : Nat) (key : String) : Redis.Batch (Int × Int) := do
  match ← Redis.backoffCheck now key with
  | none => return (-1, -1)
  | some (count, secs) =>
      match parseDigits count.toList with
      | none => throw (.commandFailed "Could not convert to i64")
      | some count => return ((count : Int), secs)

/-- One atomic step. -/
def exec (keyPrefix : String) (e : Choice) : (c : Cmd) → Backend → Reply c × Backend
  | .sessionCreate session ttl, b => b.script e.fault <|
      Redis.createSession b.process.now ((RedisKey.session e.token).text keyPrefix)
        ((RedisKey.userSessions session.userId).text keyPrefix) (sessionText session) e.token ttl
  | .sessionGet id, b => b.script e.fault <|
      decode (Redis.getText b.process.now ((RedisKey.session id).text keyPrefix)) readSession
  | .sessionDestroy id, b => b.script e.fault <|
      Redis.destroySession b.process.now ((RedisKey.session id).text keyPrefix) id
        (keyPrefix ++ ":user_sessions")
  | .sessionExpire id ttl, b => b.script e.fault <|
      let key := (RedisKey.session id).text keyPrefix
      if World.endsAtOnce ttl then Redis.del key else Redis.expire b.process.now key ttl
  | .renameSessions userId, b => b.script e.fault <|
      let key := (RedisKey.userSessions userId).text keyPrefix
      Redis.rename b.process.now key (key ++ ":destroying")
  | .destroyingMembers userId, b => b.script e.fault <|
      Redis.smembers b.process.now ((RedisKey.userSessions userId).text keyPrefix ++ ":destroying")
  | .delDestroying userId, b => b.script e.fault <|
      Redis.del ((RedisKey.userSessions userId).text keyPrefix ++ ":destroying")
  | .delSessions ids, b => b.script e.fault <|
      Redis.delAll (ids.map fun id => (RedisKey.session id).text keyPrefix)
  | .get ns key, b => b.script e.fault <|
      decode (Redis.getText b.process.now ((RedisKey.cached ns key).text keyPrefix)) ns.read
  | .set ns key value ttl, b => b.script e.fault <|
      Redis.setEx b.process.now ((RedisKey.cached ns key).text keyPrefix) (ns.write value) ttl
  | .setFresh ns value ttl, b => b.script e.fault <| do
      Redis.setEx b.process.now ((RedisKey.cached ns e.token).text keyPrefix) (ns.write value) ttl
      return e.token
  | .del ns key, b => b.script e.fault <| Redis.del ((RedisKey.cached ns key).text keyPrefix)
  | .getdel ns key, b => b.script e.fault <|
      take b.process.now ns ((RedisKey.cached ns key).text keyPrefix)
  | .backoffRead key, b => b.script e.fault <|
      backoffNumbers b.process.now ((RedisKey.backoff key).text keyPrefix)
  | .backoffIncrement key t₁ t₂ t₃ t₄, b => b.script e.fault <|
      Redis.backoffIncrement b.process.now ((RedisKey.backoff key).text keyPrefix) t₁ t₂ t₃ t₄
  | .rateLimit key windowStart now max ttl, b => b.script e.fault <|
      Redis.rateLimit b.process.now ((RedisKey.rateLimit key).text keyPrefix) windowStart now max
        ttl e.token
  | .rateLimitPurge key limit, b => b.script e.fault <|
      Redis.zremrangebyscore b.process.now ((RedisKey.rateLimit key).text keyPrefix) limit
  | .rateLimitCard key, b => b.script e.fault <|
      Redis.zcard b.process.now ((RedisKey.rateLimit key).text keyPrefix)
  | c, b => let r := World.exec e c b.process; (r.1, { b with process := r.2 })

end Backend

end FullStackHex
