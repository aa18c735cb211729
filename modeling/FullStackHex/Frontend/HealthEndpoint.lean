import FullStackHex.Api.Health
import FullStackHex.Library.JsonDocument

/-!
The health endpoint of the frontend server, from `lib/health.ts` and `pages/api/health.ts`: what it
makes of an answer of the backend, and its cache. Requests wait for the backend at the same time,
and the last of them that is answered leaves the cache as it made it. Clients keep what they get
with its tag, and may ask whether it is still good.
-/

namespace FullStackHex

open JsonText

namespace HealthEndpoint

/-! ## Values of JavaScript -/

/-- `String(value)`. -/
def jsString : Json → String
  | .null => "null"
  | .bool b => toString b
  | .number digits => String.ofList digits
  | .string text => String.ofList text
  | .array items => joined items
  | .object _ => "[object Object]"
where
  /-- Items that are null are left blank. -/
  joined : List Json → String
    | [] => ""
    | [v] => item v
    | v :: v' :: vs => item v ++ "," ++ joined (v' :: vs)
  item : Json → String
    | .null => ""
    | v => jsString v

def truthy : Json → Bool
  | .null => false
  | .bool b => b
  | .number digits => digits.any fun c => '1' ≤ c && c ≤ '9'
  | .string text => !text.isEmpty
  | .array _ | .object _ => true

/-! ## The services -/

inductive Service where
  | rust
  | db
  | redis
  | storage
  | python
  | auth
  deriving DecidableEq, Repr

def Service.id : Service → String
  | .rust => "rust"
  | .db => "db"
  | .redis => "redis"
  | .storage => "storage"
  | .python => "python"
  | .auth => "auth"

def serviceIds : List Service := [.rust, .db, .redis, .storage, .python, .auth]

/-- `entry?.status`, or what stands in for it. -/
def statusOf (d : Json) (svc : Service) : String :=
  match (d.get svc.id).get "status" with
  | .null => if svc = .auth then "disabled" else "error"
  | status => jsString status

/-- What is said of the services when the backend cannot be read. -/
def unreachable : Service → String
  | .rust => "error"
  | .db => "error"
  | .redis => "unavailable"
  | .storage => "unavailable"
  | .python => "unavailable"
  | .auth => "disabled"

def entries (status : Service → String) : List (List Char × Json) :=
  serviceIds.map fun svc => (svc.id.toList, Health.statusJson (status svc))

/-- The body of an answer of the backend, or nothing if the fetch fails. -/
def aggregateHealth (reply : Option String) : Json :=
  match reply.bind parse with
  | none | some .null => .object (entries unreachable)
  | some d =>
      let flags := d.get "feature_flags"
      .object (entries (statusOf d)
        ++ if truthy flags then [("feature_flags".toList, flags)] else [])

/-- The body of the endpoint's own answer. -/
def bodyOf (reply : Option String) : String := String.ofList (write (aggregateHealth reply))

/-! ## The cache -/

def ttlMs : Nat := 2000

/-- The code units of UTF-16. -/
def codeUnits (c : Char) : List Nat :=
  if c.toNat < 0x10000 then [c.toNat]
  else [0xd800 + (c.toNat - 0x10000) / 1024, 0xdc00 + (c.toNat - 0x10000) % 1024]

def hash (input : String) : Nat :=
  (input.toList.flatMap codeUnits).foldl (fun h unit => (h * 32 + h + unit) % 2 ^ 32) 5381

/-- A digit of `toString(36)`. -/
def digit36 (n : Nat) : Char := Char.ofNat (if n < 10 then 48 + n else 87 + n)

def text36 (n : Nat) : String :=
  if n = 0 then "0" else String.ofList ((Nat.digits 36 n).reverse.map digit36)

def etag (body : String) : String := "\"" ++ text36 (hash body) ++ "\""

structure Cached where
  timestamp : Nat
  body : String
  etag : String

/-- A request that waits for the backend: when it came, and the copy that its client asks about. -/
structure Pending where
  client : Nat
  now : Nat
  held : Option String

inductive Answer where
  | notModified (etag : String)
  | full (body etag : String)

/-- An answer of the backend, and when it was asked for. -/
structure Check where
  started : Nat
  reply : Option String

/-- What a client has in the end, and when it asked. -/
structure Shown where
  asked : Nat
  body : String

structure State where
  now : Nat
  cache : Option Cached
  pending : List Pending
  copies : Nat → Option String
  checks : List Check
  shown : List Shown

def State.initial (now : Nat) : State := ⟨now, none, [], fun _ => none, [], []⟩

inductive Act where
  | wait (ms : Nat)
  -- a client asks, with or without the tag of its copy
  | request (client : Nat) (revalidate : Bool)
  -- the backend's answer to a waiting request is there
  | fetched (i : Nat) (reply : Option String)

/-- What the cache answers to a tag. -/
def Cached.answer (c : Cached) (ifNoneMatch : Option String) : Answer :=
  if ifNoneMatch = some c.etag then .notModified c.etag else .full c.body c.etag

/-- The client takes the answer. Nobody asks about a copy that is not there. -/
def State.take (s : State) (p : Pending) : Answer → State
  | .notModified _ => { s with shown := s.shown ++ (p.held.map (Shown.mk p.now)).toList }
  | .full body _ => { s with
      copies := Function.update s.copies p.client (some body)
      shown := s.shown ++ [⟨p.now, body⟩] }

def State.respond (s : State) (p : Pending) (c : Cached) : State :=
  s.take p (c.answer (p.held.map etag))

def step (s : State) : Act → Option State
  | .wait ms => some { s with now := s.now + ms }
  | .request client revalidate =>
      let p : Pending := ⟨client, s.now, if revalidate then s.copies client else none⟩
      match s.cache.filter fun c => s.now - c.timestamp < ttlMs with
      | some c => some (s.respond p c)
      | none => some { s with pending := s.pending ++ [p] }
  | .fetched i reply => do
      let p ← s.pending[i]?
      let body := bodyOf reply
      let c : Cached := ⟨p.now, body, etag body⟩
      some (State.respond { s with
        cache := some c
        pending := s.pending.eraseIdx i
        checks := s.checks ++ [⟨p.now, reply⟩] } p c)

/-! ## What clients have -/

/-- A check for a request of that time: begun before it, by less than the lifetime. -/
def Check.Recent (c : Check) (asked : Nat) : Prop := c.started ≤ asked ∧ asked - c.started < ttlMs

/-- A body that was made of some answer of the backend. -/
def Made (s : State) (body : String) : Prop := ∃ c ∈ s.checks, body = bodyOf c.reply

/-- What a client has was made of an answer of the backend, and bears the tag of a recent check. -/
def ShownRecent (s : State) : Prop :=
  ∀ v ∈ s.shown, Made s v.body ∧
    ∃ c ∈ s.checks, c.Recent v.asked ∧ etag v.body = etag (bodyOf c.reply)

structure Sound (s : State) : Prop where
  cached : ∀ c, s.cache = some c → c.timestamp ≤ s.now ∧ c.etag = etag c.body ∧
    ∃ check ∈ s.checks, check.started = c.timestamp ∧ c.body = bodyOf check.reply
  waiting : ∀ p ∈ s.pending, p.now ≤ s.now ∧ ∀ body ∈ p.held, Made s body
  copies : ∀ client, ∀ body ∈ s.copies client, Made s body
  shown : ShownRecent s

variable {s s' : State} {p : Pending} {c : Cached}

theorem sound_initial (now : Nat) : Sound (.initial now) := by
  constructor
  · intro c hc
    cases hc
  · intro p hp
    cases hp
  · intro client body hbody
    cases hbody
  · intro v hv
    cases hv

@[simp] theorem take_cache (s : State) (p : Pending) (a : Answer) :
    (s.take p a).cache = s.cache := by cases a <;> rfl

@[simp] theorem take_checks (s : State) (p : Pending) (a : Answer) :
    (s.take p a).checks = s.checks := by cases a <;> rfl

@[simp] theorem take_pending (s : State) (p : Pending) (a : Answer) :
    (s.take p a).pending = s.pending := by cases a <;> rfl

@[simp] theorem take_now (s : State) (p : Pending) (a : Answer) :
    (s.take p a).now = s.now := by cases a <;> rfl

/-- What the client has after an answer: the cached body, or its own one that bears the same tag. -/
theorem shown_respond {v : Shown} (htag : c.etag = etag c.body) (hv : v ∈ (s.respond p c).shown) :
    v ∈ s.shown ∨ v.asked = p.now ∧ etag v.body = etag c.body ∧
      (v.body = c.body ∨ p.held = some v.body) := by
  unfold State.respond Cached.answer at hv
  split_ifs at hv with hmatch
  · simp only [State.take, List.mem_append, Option.mem_toList] at hv
    rcases hv with hv | hv
    · exact .inl hv
    · right
      obtain ⟨held, hheld, rfl⟩ := Option.map_eq_some_iff.mp hv
      rw [hheld] at hmatch
      have hsame := Option.some.inj hmatch
      exact ⟨rfl, hsame.trans htag, .inr hheld⟩
  · simp only [State.take, List.mem_append, List.mem_singleton] at hv
    rcases hv with hv | rfl
    · exact .inl hv
    · exact .inr ⟨rfl, rfl, .inl rfl⟩

theorem copies_respond {client : Nat} {body : String}
    (hbody : body ∈ (s.respond p c).copies client) : body ∈ s.copies client ∨ body = c.body := by
  unfold State.respond Cached.answer at hbody
  split_ifs at hbody
  · exact .inl hbody
  · change body ∈ Function.update s.copies p.client (some c.body) client at hbody
    by_cases hclient : client = p.client
    · rw [hclient, Function.update_self] at hbody
      exact .inr (Option.mem_some.mp hbody).symm
    · rw [Function.update_of_ne hclient] at hbody
      exact .inl hbody

/-- An answer out of the cache, with a check behind it that is recent for the request. -/
theorem Sound.respond (h : Sound s) (hcache : s.cache = some c)
    (hrecent : c.timestamp ≤ p.now ∧ p.now - c.timestamp < ttlMs)
    (hheld : ∀ body ∈ p.held, Made s body) : Sound (s.respond p c) := by
  obtain ⟨-, htag, check, hcheck, hstarted, hbody⟩ := h.cached c hcache
  have hchecks : (s.respond p c).checks = s.checks := take_checks _ _ _
  have hnow : (s.respond p c).now = s.now := take_now _ _ _
  have hmade : ∀ body, Made (s.respond p c) body ↔ Made s body := by
    intro body
    unfold Made
    rw [hchecks]
  constructor
  · intro c' hc'
    have hsame : (s.respond p c).cache = s.cache := take_cache _ _ _
    rw [hsame] at hc'
    rw [hnow, hchecks]
    exact h.cached c' hc'
  · intro q hq
    have hsame : (s.respond p c).pending = s.pending := take_pending _ _ _
    rw [hsame] at hq
    rw [hnow]
    exact ⟨(h.waiting q hq).1, fun body hb => (hmade body).mpr ((h.waiting q hq).2 body hb)⟩
  · intro client body hb
    rw [hmade]
    rcases copies_respond hb with hold | rfl
    · exact h.copies client body hold
    · exact ⟨check, hcheck, hbody⟩
  · intro v hv
    rw [hmade, hchecks]
    rcases shown_respond htag hv with hold | ⟨hasked, hsame, hfrom⟩
    · exact h.shown v hold
    · constructor
      · rcases hfrom with hfrom | hfrom
        · exact ⟨check, hcheck, hfrom.trans hbody⟩
        · exact hheld v.body hfrom
      · refine ⟨check, hcheck, ?_, hbody ▸ hsame⟩
        unfold Check.Recent
        rw [hstarted, hasked]
        exact hrecent

theorem Sound.wait (h : Sound s) (ms : Nat) : Sound { s with now := s.now + ms } := by
  constructor
  · intro c hc
    obtain ⟨hpast, hrest⟩ := h.cached c hc
    exact ⟨hpast.trans (Nat.le_add_right _ _), hrest⟩
  · exact fun p hp => ⟨(h.waiting p hp).1.trans (Nat.le_add_right _ _), (h.waiting p hp).2⟩
  · exact h.copies
  · exact h.shown

/-- A check is over. What was cached before may have been of a later request. -/
theorem Sound.store (h : Sound s) {i : Nat} (hp : s.pending[i]? = some p) (reply : Option String) :
    Sound { s with
      cache := some ⟨p.now, bodyOf reply, etag (bodyOf reply)⟩
      pending := s.pending.eraseIdx i
      checks := s.checks ++ [⟨p.now, reply⟩] } := by
  have hmade : ∀ {body}, Made s body → Made { s with
      cache := some ⟨p.now, bodyOf reply, etag (bodyOf reply)⟩
      pending := s.pending.eraseIdx i
      checks := s.checks ++ [⟨p.now, reply⟩] } body := by
    rintro body ⟨check, hcheck, hbody⟩
    exact ⟨check, List.mem_append_left _ hcheck, hbody⟩
  constructor
  · rintro c hc
    obtain rfl := Option.some.inj hc
    exact ⟨(h.waiting p (List.mem_of_getElem? hp)).1, rfl, ⟨p.now, reply⟩, by simp, rfl, rfl⟩
  · intro q hq
    obtain ⟨hpast, hheld⟩ := h.waiting q (List.mem_of_mem_eraseIdx hq)
    exact ⟨hpast, fun body hb => hmade (hheld body hb)⟩
  · exact fun client body hb => hmade (h.copies client body hb)
  · intro v hv
    obtain ⟨hv, check, hcheck, hrest⟩ := h.shown v hv
    exact ⟨hmade hv, check, List.mem_append_left _ hcheck, hrest⟩

theorem Sound.step {a : Act} (h : Sound s) (hs : step s a = some s') : Sound s' := by
  cases a with
  | wait ms =>
      obtain rfl := Option.some.inj hs
      exact h.wait ms
  | request client revalidate =>
      have hheld : ∀ body ∈ (if revalidate then s.copies client else none), Made s body := by
        intro body hb
        split_ifs at hb
        · exact h.copies client body hb
        · cases hb
      unfold HealthEndpoint.step at hs
      dsimp only at hs
      split at hs
      · rename_i c hc
        obtain rfl := Option.some.inj hs
        obtain ⟨hcache, hfresh⟩ := Option.filter_eq_some_iff.mp hc
        exact h.respond hcache ⟨(h.cached c hcache).1, of_decide_eq_true hfresh⟩ hheld
      · obtain rfl := Option.some.inj hs
        constructor
        · exact h.cached
        · intro p hp
          rcases List.mem_append.mp hp with hp | hp
          · exact h.waiting p hp
          · rw [List.mem_singleton.mp hp]
            exact ⟨le_rfl, hheld⟩
        · exact h.copies
        · exact h.shown
  | fetched i reply =>
      obtain ⟨p, hp, hs⟩ := Option.bind_eq_some_iff.mp hs
      obtain rfl := Option.some.inj hs
      apply (h.store hp reply).respond rfl
      · exact ⟨le_rfl, by rw [Nat.sub_self]; decide⟩
      · rintro body hb
        obtain ⟨check, hcheck, hbody⟩ := (h.waiting p (List.mem_of_getElem? hp)).2 body hb
        exact ⟨check, List.mem_append_left _ hcheck, hbody⟩

/-! ## Bodies are documents -/

theorem get_fits {v : Json} {depth : Nat} (h : v.Fits (depth + 1)) (key : String) :
    (v.get key).Fits depth := by
  have hnull : Json.null.Fits depth := by cases depth <;> exact trivial
  cases v with
  | object members =>
      change ((members.reverse.lookup key.toList).getD .null).Fits depth
      cases hfound : members.reverse.lookup key.toList with
      | none => exact hnull
      | some value =>
          obtain ⟨before, after, hmembers, -⟩ := List.lookup_eq_some_iff.mp hfound
          apply h (key.toList, value)
          rw [← List.mem_reverse, hmembers]
          simp
  | _ => exact hnull

theorem entries_fit (status : Service → String) {m : List Char × Json}
    (h : m ∈ entries status) : m.2.Fits 126 := by
  obtain ⟨svc, -, rfl⟩ := List.mem_map.mp h
  intro inner hinner
  rw [List.mem_singleton.mp hinner]
  trivial

theorem aggregateHealth_fits (reply : Option String) : (aggregateHealth reply).Fits 127 := by
  unfold aggregateHealth
  split
  · exact fun m hm => entries_fit _ hm
  · exact fun m hm => entries_fit _ hm
  · rename_i d _ hparse
    obtain ⟨text, -, hread⟩ := Option.bind_eq_some_iff.mp hparse
    intro m hm
    rcases List.mem_append.mp hm with hm | hm
    · exact entries_fit _ hm
    · split_ifs at hm
      · rw [List.mem_singleton.mp hm]
        exact get_fits (parse_fits hread) "feature_flags"
      · cases hm

/-- A client reads in the body what the endpoint has put into it. -/
theorem parse_bodyOf (reply : Option String) :
    parse (bodyOf reply) = some (aggregateHealth reply) := parse_write (aggregateHealth_fits reply)

/-- In every run, however requests and answers of the backend are interleaved: what a client has
after its request is a document of the endpoint, and bears the tag of a check that had begun less
than two seconds before. -/
theorem shown_recent (now : Nat) (acts : List Act) (s : State)
    (hrun : Trace.run step (.initial now) acts = some s) :
    ShownRecent s ∧ ∀ v ∈ s.shown, ∃ reply, parse v.body = some (aggregateHealth reply) := by
  have hsound := Trace.run_keeps (fun _ _ _ h hs => Sound.step h hs) (sound_initial now) hrun
  refine ⟨hsound.shown, fun v hv => ?_⟩
  obtain ⟨⟨check, -, hbody⟩, -⟩ := hsound.shown v hv
  exact ⟨check.reply, by rw [hbody, parse_bodyOf]⟩

end HealthEndpoint

namespace Sample

/-- Two requests wait at the same time, and the earlier one is answered last. The client of the
first then asks about its copy. -/
def slowCheck : List HealthEndpoint.Act :=
  [.request 0 false, .wait 500, .request 1 false, .fetched 1 none, .wait 700, .fetched 0 none,
    .request 0 true]

def slowlyChecked : HealthEndpoint.State :=
  (Trace.run HealthEndpoint.step (.initial 0) slowCheck).get (by decide)

end Sample

theorem HealthEndpoint.shown_recent_slow :
    HealthEndpoint.ShownRecent Sample.slowlyChecked ∧ ∀ v ∈ Sample.slowlyChecked.shown,
      ∃ reply, parse v.body = some (HealthEndpoint.aggregateHealth reply) :=
  HealthEndpoint.shown_recent 0 Sample.slowCheck Sample.slowlyChecked (Option.some_get _).symm

end FullStackHex
