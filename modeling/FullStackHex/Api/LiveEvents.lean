import FullStackHex.Cache.PubSub

/-!
Live events between processes, from `api/src/live.rs` and `cache/src/pubsub.rs`. All
processes publish to one Redis channel; each has one subscriber connection, which
forwards what arrives to the receivers of its sockets. An event is told by the number
of its broadcast.
-/

namespace FullStackHex

inductive LiveEvent where
  | healthUpdate (service status : String) (detail : Option String)
  | authEvent (kind : String) (email : Option String)
  | connectionStatus (status : String)
  deriving DecidableEq, Repr

/-- A socket of `handle_socket` before and after its `subscribe` returns, and when it is over. -/
inductive SocketPhase where
  | connected
  | subscribed
  | closed
  deriving DecidableEq, Repr

/-- `missed` has what its receiver lost by lagging, what its client was too slow for, and what
the Redis connection of its process lost. -/
structure LiveSocket where
  process : Nat
  phase : SocketPhase
  queue : List Nat
  sent : List Nat
  missed : List Nat
  deriving DecidableEq, Repr

/-- A message for the receiver. One that is behind by more than the capacity loses the oldest. -/
def LiveSocket.push (s : LiveSocket) (n : Nat) : LiveSocket :=
  let queue := s.queue ++ [n]
  if channelCapacity < queue.length then
    { s with queue := queue.tail, missed := s.missed ++ queue.head?.toList }
  else { s with queue := queue }

inductive Stage where
  | skipped
  | pending
  | published
  | failed
  deriving DecidableEq, Repr

/-- A call of `broadcast_event`, and the sockets that were subscribed when it began. -/
structure Broadcast where
  event : LiveEvent
  audience : List Nat
  stage : Stage
  deriving DecidableEq, Repr

/-- `active` is `ACTIVE_WS_CONNECTIONS` of a process, `inbox` what its subscriber connection has
received and not yet forwarded. -/
structure Cluster where
  active : Nat → Nat
  listening : Nat → Bool
  inbox : Nat → List Nat
  sockets : List LiveSocket
  broadcasts : List Broadcast

def Cluster.initial : Cluster := ⟨fun _ => 0, fun _ => false, fun _ => [], [], []⟩

inductive LiveStep where
  -- `handle_socket` begins, its `subscribe` returns, and it ends
  | connect (process : Nat)
  | subscribe (socket : Nat)
  | close (socket : Nat)
  -- the subscriber connection of a process is ready
  | listen (process : Nat)
  -- `broadcast_event` reads the counter, then publishes
  | broadcast (process : Nat) (event : LiveEvent)
  | publish (broadcast : Nat)
  | publishFails (broadcast : Nat)
  -- the subscriber task forwards a message, or the connection loses what it has
  | forward (process : Nat)
  | lose (process : Nat)
  -- a socket sends a message to its client, or gives up on it
  | deliver (socket : Nat)
  | timeout (socket : Nat)
  deriving DecidableEq, Repr

namespace Cluster

def update (c : Cluster) (i : Nat) (s : LiveSocket) : Cluster :=
  { c with sockets := c.sockets.set i s }

/-- What all subscribed sockets of a process do. -/
def each (c : Cluster) (p : Nat) (f : LiveSocket → LiveSocket) : Cluster :=
  { c with sockets := c.sockets.map fun s =>
      if s.process = p ∧ s.phase = .subscribed then f s else s }

def setInbox (c : Cluster) (p : Nat) (inbox : List Nat) : Cluster :=
  { c with inbox := Function.update c.inbox p inbox }

/-- The sockets that are subscribed at this moment. -/
def subscribed (c : Cluster) : List Nat :=
  (List.range c.sockets.length).filter fun i =>
    c.sockets[i]?.any fun s => s.phase = .subscribed

def setStage (c : Cluster) (n : Nat) (b : Broadcast) (stage : Stage) : Cluster :=
  { c with broadcasts := c.broadcasts.set n { b with stage := stage } }

def step (c : Cluster) : LiveStep → Option Cluster
  | .connect p => some { c with
      active := Function.update c.active p (c.active p + 1)
      sockets := c.sockets ++ [⟨p, .connected, [], [], []⟩] }
  | .subscribe i => do
      let s ← c.sockets[i]?
      if s.phase = .connected ∧ c.listening s.process = true then
        some (c.update i { s with phase := .subscribed })
      else none
  | .close i => do
      let s ← c.sockets[i]?
      if s.phase ≠ .closed then
        some { c.update i { s with phase := .closed } with
          active := Function.update c.active s.process (c.active s.process - 1) }
      else none
  | .listen p => some { c with listening := Function.update c.listening p true }
  | .broadcast p event =>
      let stage := if c.active p = 0 then .skipped else .pending
      some { c with broadcasts := c.broadcasts ++ [⟨event, c.subscribed, stage⟩] }
  | .publish n => do
      let b ← c.broadcasts[n]?
      if b.stage = .pending then
        some { c.setStage n b .published with
          inbox := fun p => if c.listening p then c.inbox p ++ [n] else c.inbox p }
      else none
  | .publishFails n => do
      let b ← c.broadcasts[n]?
      if b.stage = .pending then some (c.setStage n b .failed) else none
  | .forward p =>
      match c.inbox p with
      | [] => none
      | n :: rest => some ((c.each p fun s => s.push n).setInbox p rest)
  | .lose p =>
      some ((c.each p fun s => { s with missed := s.missed ++ c.inbox p }).setInbox p [])
  | .deliver i => do
      let s ← c.sockets[i]?
      match s.phase, s.queue with
      | .subscribed, n :: rest => some (c.update i { s with queue := rest, sent := s.sent ++ [n] })
      | _, _ => none
  | .timeout i => do
      let s ← c.sockets[i]?
      match s.phase, s.queue with
      | .subscribed, n :: rest =>
          some (c.update i { s with queue := rest, missed := s.missed ++ [n] })
      | _, _ => none

/-- The event was sent to the client of the socket or missed, or is still on its way to it. -/
def Has (c : Cluster) (n : Nat) (s : LiveSocket) : Prop :=
  n ∈ s.sent ∨ n ∈ s.missed ∨ n ∈ s.queue ∨ n ∈ c.inbox s.process

/-- Every event whose call of `broadcast_event` is over, and for which Redis did not fail, has
reached or is on its way to every socket that was subscribed when the call began and still is. -/
def Delivers (c : Cluster) : Prop :=
  ∀ (n : Nat) b, c.broadcasts[n]? = some b → b.stage ≠ .pending → b.stage ≠ .failed →
    ∀ i ∈ b.audience, ∀ s, c.sockets[i]? = some s → s.phase = .subscribed → c.Has n s

end Cluster

/-- The process that broadcasts has a connection itself, or nobody is subscribed anywhere. -/
def LiveStep.Heard (c : Cluster) : LiveStep → Prop
  | .broadcast p _ => c.active p ≠ 0 ∨ ∀ s ∈ c.sockets, s.phase ≠ .subscribed
  | _ => True

/-- Receivers belong to a process that listens, an audience has no socket that is yet to
subscribe, and all numbers are those of broadcasts. -/
structure Cluster.Sound (c : Cluster) : Prop where
  listening : ∀ (i : Nat) (s : LiveSocket), c.sockets[i]? = some s → s.phase = .subscribed →
    c.listening s.process = true
  audience : ∀ b ∈ c.broadcasts, ∀ i ∈ b.audience, ∃ s, c.sockets[i]? = some s ∧
    s.phase ≠ .connected
  known : ∀ (i : Nat) (s : LiveSocket) n, c.sockets[i]? = some s →
    n ∈ s.sent ∨ n ∈ s.missed ∨ n ∈ s.queue → n < c.broadcasts.length
  arrived : ∀ p, ∀ n ∈ c.inbox p, n < c.broadcasts.length

section Step

variable {c c' : Cluster} {n : Nat} {s : LiveSocket}

theorem LiveSocket.mem_push {m : Nat} : m ∈ (s.push n).sent ∨ m ∈ (s.push n).missed ∨
      m ∈ (s.push n).queue ↔ m = n ∨ m ∈ s.sent ∨ m ∈ s.missed ∨ m ∈ s.queue := by
  unfold push
  dsimp only
  split
  · cases hqueue : s.queue with
    | nil =>
        simp only [List.nil_append, List.tail_cons, List.head?_cons, Option.toList_some,
          List.mem_append, List.mem_singleton, List.not_mem_nil, or_false]
        tauto
    | cons a rest =>
        simp only [List.cons_append, List.tail_cons, List.head?_cons, Option.toList_some,
          List.mem_append, List.mem_cons, List.not_mem_nil, or_false]
        tauto
  · simp only [List.mem_append, List.mem_singleton]
    tauto

/-- What a step that leaves the broadcasts alone may do to a socket. -/
structure LiveSocket.Follows (c c' : Cluster) (s s' : LiveSocket) : Prop where
  process : s'.process = s.process
  phase : s'.phase = .subscribed → s.phase = .subscribed
  later : s.phase ≠ .connected → s'.phase ≠ .connected
  has : s'.phase = .subscribed → ∀ n, c.Has n s → c'.Has n s'
  known : ∀ n, n ∈ s'.sent ∨ n ∈ s'.missed ∨ n ∈ s'.queue → c.Has n s

theorem LiveSocket.Follows.refl (hinbox : c'.inbox = c.inbox) (s : LiveSocket) :
    s.Follows c c' s where
  process := rfl
  phase := id
  later := id
  has := by
    intro _ n hn
    unfold Cluster.Has at *
    rwa [hinbox]
  known := fun n hn => by
    unfold Cluster.Has
    tauto

/-- A step that leaves the broadcasts alone: every socket follows its former state, or is a new
one that is not subscribed. -/
structure Cluster.Quiet (c c' : Cluster) : Prop where
  broadcasts : c'.broadcasts = c.broadcasts
  listening : ∀ p, c.listening p = true → c'.listening p = true
  arrived : ∀ p, ∀ n ∈ c'.inbox p, n ∈ c.inbox p
  old : ∀ (i : Nat) (s : LiveSocket), c.sockets[i]? = some s → ∃ s', c'.sockets[i]? = some s' ∧ s.Follows c c' s'
  new : ∀ (i : Nat) (s' : LiveSocket), c'.sockets[i]? = some s' → c.sockets[i]? = none →
    s'.phase ≠ .subscribed ∧ ∀ n, ¬ (n ∈ s'.sent ∨ n ∈ s'.missed ∨ n ∈ s'.queue)

theorem Cluster.Quiet.sound (h : c.Quiet c') (hsound : c.Sound) : c'.Sound := by
  have hformer : ∀ (i : Nat) (s' : LiveSocket), c'.sockets[i]? = some s' → ∀ s : LiveSocket,
      c.sockets[i]? = some s → s.Follows c c' s' := by
    intro i s' hs' s hs
    obtain ⟨found, hfound, hfollows⟩ := h.old i s hs
    rw [hs'] at hfound
    obtain rfl := Option.some.inj hfound
    exact hfollows
  constructor
  · intro i s' hs' hphase
    cases hs : c.sockets[i]? with
    | none => exact absurd hphase (h.new i s' hs' hs).1
    | some s =>
        have hfollows := hformer i s' hs' s hs
        rw [hfollows.process]
        exact h.listening _ (hsound.listening i s hs (hfollows.phase hphase))
  · intro b hb i hi
    rw [h.broadcasts] at hb
    obtain ⟨s, hs, hphase⟩ := hsound.audience b hb i hi
    obtain ⟨s', hs', hfollows⟩ := h.old i s hs
    exact ⟨s', hs', hfollows.later hphase⟩
  · intro i s' m hs' hm
    rw [h.broadcasts]
    cases hs : c.sockets[i]? with
    | none => exact absurd hm ((h.new i s' hs' hs).2 m)
    | some s =>
        rcases (hformer i s' hs' s hs).known m hm with hm | hm | hm | hm
        · exact hsound.known i s m hs (.inl hm)
        · exact hsound.known i s m hs (.inr (.inl hm))
        · exact hsound.known i s m hs (.inr (.inr hm))
        · exact hsound.arrived _ m hm
  · intro p m hm
    rw [h.broadcasts]
    exact hsound.arrived p m (h.arrived p m hm)

theorem Cluster.Quiet.delivers (h : c.Quiet c') (hdelivers : c.Delivers) : c'.Delivers := by
  intro m b hb hpending hfailed i hi s' hs' hphase
  rw [h.broadcasts] at hb
  cases hs : c.sockets[i]? with
  | none => exact absurd hphase (h.new i s' hs' hs).1
  | some s =>
      obtain ⟨found, hfound, hfollows⟩ := h.old i s hs
      rw [hs'] at hfound
      obtain rfl := Option.some.inj hfound
      exact hfollows.has hphase m (hdelivers m b hb hpending hfailed i hi s hs
        (hfollows.phase hphase))

/-- One socket changes. -/
theorem Cluster.quiet_update {i : Nat} {s' : LiveSocket} (hs : c.sockets[i]? = some s)
    (hfollows : s.Follows c c' s') (hsockets : c'.sockets = c.sockets.set i s')
    (hbroadcasts : c'.broadcasts = c.broadcasts) (hlistening : c'.listening = c.listening)
    (hinbox : c'.inbox = c.inbox) : c.Quiet c' := by
  have hi := (List.getElem?_eq_some_iff.mp hs).1
  constructor
  · exact hbroadcasts
  · intro p hp
    rwa [hlistening]
  · intro p n hn
    rwa [hinbox] at hn
  · intro j old hold
    rw [hsockets]
    by_cases hj : j = i
    · subst hj
      rw [hs] at hold
      obtain rfl := Option.some.inj hold
      exact ⟨s', List.getElem?_set_self hi, hfollows⟩
    · exact ⟨old, (List.getElem?_set_ne (Ne.symm hj)).trans hold, .refl hinbox old⟩
  · intro j new hnew hnone
    rw [hsockets] at hnew
    have hlength : j < (c.sockets.set i s').length := (List.getElem?_eq_some_iff.mp hnew).1
    rw [List.length_set] at hlength
    rw [List.getElem?_eq_none_iff] at hnone
    omega

/-- All receivers of a process change, and with them its inbox. -/
theorem Cluster.quiet_each {p : Nat} {inbox : List Nat} {f : LiveSocket → LiveSocket}
    (hinbox : ∀ n ∈ inbox, n ∈ c.inbox p)
    (hf : ∀ s : LiveSocket, s.process = p → s.phase = .subscribed →
      s.Follows c ((c.each p f).setInbox p inbox) (f s)) : c.Quiet ((c.each p f).setInbox p inbox) := by
  have hother : ∀ q, q ≠ p → ((c.each p f).setInbox p inbox).inbox q = c.inbox q :=
    fun q hq => Function.update_of_ne hq _ _
  have hself : ((c.each p f).setInbox p inbox).inbox p = inbox := Function.update_self ..
  constructor
  · rfl
  · exact fun q hq => hq
  · intro q n hn
    by_cases hq : q = p
    · subst hq
      rw [hself] at hn
      exact hinbox n hn
    · rwa [hother q hq] at hn
  · intro i s hs
    have hget : ((c.each p f).setInbox p inbox).sockets[i]?
        = some (if s.process = p ∧ s.phase = .subscribed then f s else s) := by
      change (c.sockets.map _)[i]? = _
      rw [List.getElem?_map, hs]
      rfl
    refine ⟨_, hget, ?_⟩
    split
    · rename_i hp
      exact hf s hp.1 hp.2
    · rename_i hp
      constructor
      · rfl
      · exact id
      · exact id
      · intro hphase n hn
        have hprocess : s.process ≠ p := fun hp' => hp ⟨hp', hphase⟩
        unfold Cluster.Has at *
        rwa [hother _ hprocess]
      · intro n hn
        unfold Cluster.Has
        tauto
  · intro i s' hs' hnone
    have hget : (c.sockets.map fun s =>
        if s.process = p ∧ s.phase = .subscribed then f s else s)[i]? = some s' := hs'
    rw [List.getElem?_map, hnone] at hget
    cases hget

theorem Cluster.mem_subscribed {i : Nat} :
    i ∈ c.subscribed ↔ ∃ s, c.sockets[i]? = some s ∧ s.phase = .subscribed := by
  unfold subscribed
  rw [List.mem_filter, List.mem_range]
  cases hs : c.sockets[i]? with
  | none => simp
  | some s =>
      have hi := (List.getElem?_eq_some_iff.mp hs).1
      simp [hi]

/-- A broadcast that goes from one stage to another, while an inbox may get its number. -/
theorem Cluster.Sound.setStage {b : Broadcast} {stage : Stage} (inbox : Nat → List Nat)
    (h : c.Sound) (hb : c.broadcasts[n]? = some b)
    (hinbox : ∀ p, ∀ m ∈ inbox p, m ∈ c.inbox p ∨ m = n) :
    Cluster.Sound { c.setStage n b stage with inbox := inbox } := by
  have hn := (List.getElem?_eq_some_iff.mp hb).1
  have hlength : (c.broadcasts.set n { b with stage := stage }).length = c.broadcasts.length :=
    List.length_set
  constructor
  · exact h.listening
  · intro b' hb' i hi
    rcases List.mem_or_eq_of_mem_set hb' with hold | rfl
    · exact h.audience b' hold i hi
    · exact h.audience b (List.mem_of_getElem? hb) i hi
  · intro i s m hs hm
    change m < (c.broadcasts.set n { b with stage := stage }).length
    rw [hlength]
    exact h.known i s m hs hm
  · intro p m hm
    change m < (c.broadcasts.set n { b with stage := stage }).length
    rw [hlength]
    rcases hinbox p m hm with hold | rfl
    · exact h.arrived p m hold
    · exact hn

theorem Cluster.sound_step {l : LiveStep} (h : c.Sound) (hstep : c.step l = some c') :
    c'.Sound ∧ (c.Delivers → (∀ p event, l ≠ .broadcast p event) → c'.Delivers) := by
  have hquiet : c.Quiet c' → c'.Sound ∧
      (c.Delivers → (∀ p event, l ≠ .broadcast p event) → c'.Delivers) :=
    fun hq => ⟨hq.sound h, fun hdelivers _ => hq.delivers hdelivers⟩
  cases l with
  | connect p =>
      obtain rfl := Option.some.inj hstep
      apply hquiet
      constructor
      · rfl
      · exact fun _ hp => hp
      · exact fun _ _ hn => hn
      · intro i s hs
        exact ⟨s, (List.getElem?_append_left (List.getElem?_eq_some_iff.mp hs).1).trans hs,
          .refl (by rfl) s⟩
      · intro i s' hs' hnone
        have hmem : s' ∈ c.sockets ++ [⟨p, .connected, [], [], []⟩] := List.mem_of_getElem? hs'
        rcases List.mem_append.mp hmem with hold | hnew
        · have hi := List.getElem?_eq_none_iff.mp hnone
          rw [show (c.sockets ++ [⟨p, .connected, [], [], []⟩])[i]?
            = [(⟨p, .connected, [], [], []⟩ : LiveSocket)][i - c.sockets.length]? from
              List.getElem?_append_right hi] at hs'
          obtain rfl := List.mem_singleton.mp (List.mem_of_getElem? hs')
          simp
        · obtain rfl := List.mem_singleton.mp hnew
          simp
  | subscribe i =>
      obtain ⟨s, hs, hstep⟩ := Option.bind_eq_some_iff.mp hstep
      split at hstep
      · rename_i hready
        obtain rfl := Option.some.inj hstep
        have hi := (List.getElem?_eq_some_iff.mp hs).1
        have hself : (c.sockets.set i { s with phase := .subscribed })[i]?
            = some { s with phase := .subscribed } := List.getElem?_set_self hi
        have hother : ∀ j, j ≠ i →
            (c.sockets.set i { s with phase := .subscribed })[j]? = c.sockets[j]? :=
          fun j hj => List.getElem?_set_ne (Ne.symm hj)
        refine ⟨⟨?_, ?_, ?_, h.arrived⟩, ?_⟩
        · intro j found hfound hphase
          by_cases hj : j = i
          · subst hj
            obtain rfl := Option.some.inj (hself.symm.trans hfound)
            exact hready.2
          · exact h.listening j found ((hother j hj).symm.trans hfound) hphase
        · intro b hb j hj
          by_cases hij : j = i
          · subst hij
            exact ⟨_, hself, by simp⟩
          · obtain ⟨found, hfound, hphase⟩ := h.audience b hb j hj
            exact ⟨found, (hother j hij).trans hfound, hphase⟩
        · intro j found m hfound hm
          by_cases hj : j = i
          · subst hj
            obtain rfl := Option.some.inj (hself.symm.trans hfound)
            exact h.known j s m hs hm
          · exact h.known j found m ((hother j hj).symm.trans hfound) hm
        · intro hdelivers _ m b hb hpending hfailed j hj found hfound hphase
          by_cases hij : j = i
          · -- a socket that is yet to subscribe is in no audience
            subst hij
            obtain ⟨old, hold, hne⟩ := h.audience b (List.mem_of_getElem? hb) j hj
            rw [hs] at hold
            obtain rfl := Option.some.inj hold
            exact absurd hready.1 hne
          · exact hdelivers m b hb hpending hfailed j hj found
              ((hother j hij).symm.trans hfound) hphase
      · cases hstep
  | close i =>
      obtain ⟨s, hs, hstep⟩ := Option.bind_eq_some_iff.mp hstep
      split at hstep
      · obtain rfl := Option.some.inj hstep
        apply hquiet
        refine Cluster.quiet_update hs ?_ rfl rfl rfl rfl
        constructor
        · rfl
        · exact fun hphase => by cases hphase
        · exact fun _ hphase => by cases hphase
        · exact fun hphase => by cases hphase
        · intro n hn
          unfold Cluster.Has
          tauto
      · cases hstep
  | listen p =>
      obtain rfl := Option.some.inj hstep
      apply hquiet
      constructor
      · rfl
      · intro q hq
        change Function.update c.listening p true q = true
        by_cases hqp : q = p
        · subst hqp
          exact Function.update_self ..
        · rwa [Function.update_of_ne hqp]
      · exact fun _ _ hn => hn
      · exact fun i s hs => ⟨s, hs, .refl (by rfl) s⟩
      · intro i s' hs' hnone
        rw [show c.sockets[i]? = some s' from hs'] at hnone
        cases hnone
  | broadcast p event =>
      obtain rfl := Option.some.inj hstep
      refine ⟨⟨h.listening, ?_, ?_, ?_⟩, fun _ hno => absurd rfl (hno p event)⟩
      · intro b hb i hi
        rcases List.mem_append.mp hb with hold | hnew
        · exact h.audience b hold i hi
        · obtain rfl := List.mem_singleton.mp hnew
          obtain ⟨s, hs, hphase⟩ := Cluster.mem_subscribed.mp hi
          exact ⟨s, hs, by rw [hphase]; decide⟩
      · intro i s m hs hm
        have hlt := h.known i s m hs hm
        simp only [List.length_append, List.length_singleton]
        omega
      · intro q m hm
        have hlt := h.arrived q m hm
        simp only [List.length_append, List.length_singleton]
        omega
  | publish m =>
      obtain ⟨b, hb, hstep⟩ := Option.bind_eq_some_iff.mp hstep
      split at hstep
      · obtain rfl := Option.some.inj hstep
        refine ⟨h.setStage _ hb fun p k hk => ?_, fun hdelivers _ => ?_⟩
        · split at hk
          · simpa using hk
          · exact .inl hk
        · intro k found hfound hpending hfailed i hi s hs hphase
          have hlistening := h.listening i s hs hphase
          by_cases hk : k = m
          · subst hk
            right; right; right
            dsimp only
            rw [if_pos hlistening]
            exact List.mem_append_right _ (List.mem_singleton_self _)
          · have hold : c.broadcasts[k]? = some found :=
              (List.getElem?_set_ne (Ne.symm hk)).symm.trans hfound
            rcases hdelivers k found hold hpending hfailed i hi s hs hphase with hn | hn | hn | hn
            · exact .inl hn
            · exact .inr (.inl hn)
            · exact .inr (.inr (.inl hn))
            · right; right; right
              dsimp only
              rw [if_pos hlistening]
              exact List.mem_append_left _ hn
      · cases hstep
  | publishFails m =>
      obtain ⟨b, hb, hstep⟩ := Option.bind_eq_some_iff.mp hstep
      split at hstep
      · obtain rfl := Option.some.inj hstep
        refine ⟨h.setStage c.inbox hb fun p k hk => .inl hk, fun hdelivers _ => ?_⟩
        intro k found hfound hpending hfailed i hi s hs hphase
        by_cases hk : k = m
        · subst hk
          have hset : (c.broadcasts.set k { b with stage := .failed })[k]?
              = some { b with stage := .failed } :=
            List.getElem?_set_self (List.getElem?_eq_some_iff.mp hb).1
          obtain rfl := Option.some.inj (hset.symm.trans hfound)
          exact absurd rfl hfailed
        · have hold : c.broadcasts[k]? = some found :=
            (List.getElem?_set_ne (Ne.symm hk)).symm.trans hfound
          exact hdelivers k found hold hpending hfailed i hi s hs hphase
      · cases hstep
  | forward p =>
      simp only [Cluster.step] at hstep
      split at hstep
      · cases hstep
      · rename_i m rest hinbox
        obtain rfl := Option.some.inj hstep
        apply hquiet
        apply Cluster.quiet_each
        · intro k hk
          rw [hinbox]
          exact List.mem_cons_of_mem _ hk
        · intro s hprocess hphase
          have hprocess' : (s.push m).process = s.process := by
            unfold LiveSocket.push
            dsimp only
            split <;> rfl
          have hphase' : (s.push m).phase = s.phase := by
            unfold LiveSocket.push
            dsimp only
            split <;> rfl
          have hafter : ((c.each p fun s => s.push m).setInbox p rest).inbox s.process = rest := by
            rw [hprocess]
            exact Function.update_self ..
          constructor
          · exact hprocess'
          · exact fun _ => hphase
          · exact fun hne => hphase' ▸ hne
          · intro _ k hk
            unfold Cluster.Has at *
            rw [hprocess', hafter]
            rw [hprocess, hinbox, List.mem_cons] at hk
            have hpush := (LiveSocket.mem_push (s := s) (n := m) (m := k)).mpr
            tauto
          · intro k hk
            unfold Cluster.Has
            rw [hprocess, hinbox, List.mem_cons]
            have hpush := LiveSocket.mem_push.mp hk
            tauto
  | lose p =>
      obtain rfl := Option.some.inj hstep
      apply hquiet
      apply Cluster.quiet_each
      · exact fun k hk => absurd hk List.not_mem_nil
      · intro s hprocess hphase
        constructor
        · rfl
        · exact fun _ => hphase
        · exact id
        · intro _ k hk
          unfold Cluster.Has at *
          rw [hprocess] at hk
          dsimp only
          rw [List.mem_append]
          tauto
        · intro k hk
          unfold Cluster.Has
          rw [hprocess]
          dsimp only at hk
          rw [List.mem_append] at hk
          tauto
  | deliver i =>
      obtain ⟨s, hs, hstep⟩ := Option.bind_eq_some_iff.mp hstep
      split at hstep
      · rename_i m rest hphase hqueue
        obtain rfl := Option.some.inj hstep
        apply hquiet
        refine Cluster.quiet_update hs ?_ rfl rfl rfl rfl
        constructor
        · rfl
        · exact id
        · exact id
        · intro _ k hk
          unfold Cluster.Has at *
          rw [hqueue, List.mem_cons] at hk
          simp only [List.mem_append, List.mem_singleton]
          tauto
        · intro k hk
          unfold Cluster.Has
          rw [hqueue, List.mem_cons]
          simp only [List.mem_append, List.mem_singleton] at hk
          tauto
      · cases hstep
  | timeout i =>
      obtain ⟨s, hs, hstep⟩ := Option.bind_eq_some_iff.mp hstep
      split at hstep
      · rename_i m rest hphase hqueue
        obtain rfl := Option.some.inj hstep
        apply hquiet
        refine Cluster.quiet_update hs ?_ rfl rfl rfl rfl
        constructor
        · rfl
        · exact id
        · exact id
        · intro _ k hk
          unfold Cluster.Has at *
          rw [hqueue, List.mem_cons] at hk
          simp only [List.mem_append, List.mem_singleton]
          tauto
        · intro k hk
          unfold Cluster.Has
          rw [hqueue, List.mem_cons]
          simp only [List.mem_append, List.mem_singleton] at hk
          tauto
      · cases hstep

/-- A broadcast that is skipped reaches nobody. -/
theorem Cluster.delivers_broadcast {p : Nat} {event : LiveEvent} (h : c.Sound)
    (hdelivers : c.Delivers) (hstep : c.step (.broadcast p event) = some c') :
    c'.Delivers ↔ (LiveStep.broadcast p event).Heard c := by
  obtain rfl := Option.some.inj hstep
  constructor
  · intro hafter
    by_contra hnot
    unfold LiveStep.Heard at hnot
    push Not at hnot
    obtain ⟨hactive, s, hs, hphase⟩ := hnot
    obtain ⟨i, hi⟩ := List.mem_iff_getElem?.mp hs
    have hnew : (c.broadcasts ++ [⟨event, c.subscribed, if c.active p = 0 then Stage.skipped
        else .pending⟩])[c.broadcasts.length]? = some ⟨event, c.subscribed, .skipped⟩ := by
      rw [if_pos hactive, List.getElem?_concat_length]
    have hhas := hafter c.broadcasts.length _ hnew (by simp) (by simp) i
      (Cluster.mem_subscribed.mpr ⟨s, hi, hphase⟩) s hi hphase
    rcases hhas with hn | hn | hn | hn
    · exact lt_irrefl _ (h.known i s _ hi (.inl hn))
    · exact lt_irrefl _ (h.known i s _ hi (.inr (.inl hn)))
    · exact lt_irrefl _ (h.known i s _ hi (.inr (.inr hn)))
    · exact lt_irrefl _ (h.arrived _ _ hn)
  · intro hheard k b hb hpending hfailed i hi s hs hphase
    by_cases hold : k < c.broadcasts.length
    · exact hdelivers k b ((List.getElem?_append_left hold).symm.trans hb) hpending hfailed i hi s
        hs hphase
    · exfalso
      have hlast : (c.broadcasts ++ [⟨event, c.subscribed, if c.active p = 0 then Stage.skipped
          else .pending⟩])[k]? = some b := hb
      rw [List.getElem?_append_right (by omega)] at hlast
      obtain rfl := List.mem_singleton.mp (List.mem_of_getElem? hlast)
      rcases hheard with hactive | hnobody
      · exact hpending (if_neg hactive)
      · exact hnobody s (List.mem_of_getElem? hs) hphase

/-- When nothing is on its way any more, what is delivered was sent or missed. -/
theorem Cluster.Delivers.still (h : c.Delivers) (hinbox : ∀ p, c.inbox p = [])
    (hqueue : ∀ s ∈ c.sockets, s.queue = []) (hpending : ∀ b ∈ c.broadcasts, b.stage ≠ .pending)
    {b : Broadcast} (hb : c.broadcasts[n]? = some b) (hfailed : b.stage ≠ .failed) {i : Nat}
    (hi : i ∈ b.audience) (hs : c.sockets[i]? = some s) (hphase : s.phase = .subscribed) :
    n ∈ s.sent ∨ n ∈ s.missed := by
  rcases h n b hb (hpending b (List.mem_of_getElem? hb)) hfailed i hi s hs hphase with
    hn | hn | hn | hn
  · exact .inl hn
  · exact .inr hn
  · rw [hqueue s (List.mem_of_getElem? hs)] at hn
    cases hn
  · rw [hinbox] at hn
    cases hn

end Step

end FullStackHex
