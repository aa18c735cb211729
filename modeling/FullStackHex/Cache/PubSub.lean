import FullStackHex.Domain
import FullStackHex.Library.Trace

/-!
The pub/sub helpers of `cache/src/pubsub.rs`: one `RedisClient`, the task that its first
`subscribe` starts, and the receivers of all calls. Another process that publishes is not told
from this one. `recv` is that of a tokio broadcast channel.
-/

namespace FullStackHex

/-- The capacity of the broadcast channel between the subscriber task and its receivers. -/
def channelCapacity : Nat := 256

structure PubSubMessage where
  channel : String
  payload : String
  deriving DecidableEq, Repr

/-- How far `run_subscriber` is. -/
inductive TaskPhase where
  -- before `init` and `subscribe` have succeeded
  | connecting
  -- Redis sends to it
  | attached
  -- `ready_tx` has been set
  | announced
  -- `message_rx` is there
  | forwarding
  | ended
  | failed
  deriving DecidableEq, Repr

/-- `channel` is what the task has subscribed to, `wire` what Redis has sent to it and `sent` what
it has sent to the broadcast channel, which `senders` handles can still send to. -/
structure SharedSubscriber where
  channel : String
  task : TaskPhase
  ready : Option (Except String Unit)
  senders : Nat
  wire : List PubSubMessage
  sent : List PubSubMessage
  deriving DecidableEq, Repr

/-- What `get_or_init` makes: one handle for the client, one for the task. -/
def SharedSubscriber.start (fullChannel : String) : SharedSubscriber where
  channel := fullChannel
  task := .connecting
  ready := none
  senders := 2
  wire := []
  sent := []

/-- What `subscribe` returns once `ready` is set. -/
def SharedSubscriber.answer (sh : SharedSubscriber) : Option (Except CacheError Unit) :=
  sh.ready.map fun result => result.mapError .commandFailed

inductive Recv where
  | message (m : PubSubMessage)
  | lagged (n : Nat)
  | closed
  deriving DecidableEq, Repr

/-- `recv` of a receiver that has read up to `next`, and where it stands then; `none` while it
waits. -/
def SharedSubscriber.recv (sh : SharedSubscriber) (next : Nat) : Option (Recv × Nat) :=
  if next + channelCapacity < sh.sent.length then
    some (.lagged (sh.sent.length - channelCapacity - next), sh.sent.length - channelCapacity)
  else
    match sh.sent[next]? with
    | some m => some (.message m, next + 1)
    | none => if sh.senders = 0 then some (.closed, next) else none

/-- Whether `handle_socket` leaves its loop on what its receiver gives it. -/
def Recv.leavesLoop : Recv → Bool
  | .message _ => false
  | .lagged _ => false
  | .closed => true

/-- How many messages it stands for. -/
def Recv.width : Recv → Nat
  | .message _ => 1
  | .lagged k => k
  | .closed => 0

/-- `channel` is the argument of its `subscribe`, `since` the number of messages that had been
published when that call returned. -/
structure Receiver where
  channel : String
  since : Nat
  next : Nat
  outcomes : List Recv
  deriving DecidableEq, Repr

/-- `waiting` has the calls of `subscribe` that have not returned, `published` the arguments of
`publish`. -/
structure PubSub where
  keyPrefix : String
  reachable : Bool
  shared : Option SharedSubscriber
  waiting : List String
  receivers : List Receiver
  published : List (String × String)
  deriving DecidableEq, Repr

/-- What the task does next, or what becomes of it. -/
inductive TaskStep where
  | attach
  | refuse (message : String)
  | announce
  | listen
  | arrive
  | streamEnds
  deriving DecidableEq, Repr

namespace SharedSubscriber

/-- `run_subscriber`. What arrives before `message_rx` is there is lost; when the loop is left,
`ready_tx` is set once more. -/
def step (sh : SharedSubscriber) (reachable : Bool) : TaskStep → Option SharedSubscriber
  | .attach =>
      if sh.task = .connecting ∧ reachable then some { sh with task := .attached } else none
  | .refuse message =>
      if sh.task = .connecting ∧ !reachable then some { sh with
        task := .failed
        ready := some (.error message)
        senders := sh.senders - 1 }
      else none
  | .announce =>
      if sh.task = .attached then some { sh with task := .announced, ready := some (.ok ()) }
      else none
  | .listen => if sh.task = .announced then some { sh with task := .forwarding } else none
  | .arrive =>
      match sh.wire with
      | [] => none
      | m :: rest => some { sh with
          wire := rest
          sent := if sh.task = .forwarding then sh.sent ++ [m] else sh.sent }
  | .streamEnds =>
      if sh.task = .forwarding then some { sh with
        task := .ended
        ready := some (.ok ())
        senders := sh.senders - 1
        wire := [] }
      else none

/-- Redis sends a message to the task, if it is for the channel of its subscription. -/
def carry (sh : SharedSubscriber) (m : PubSubMessage) : SharedSubscriber :=
  { sh with
    wire :=
      if m.channel = sh.channel ∧ sh.task ∈ [.attached, .announced, .forwarding] then
        sh.wire ++ [m]
      else sh.wire }

end SharedSubscriber

inductive PubSubStep where
  | subscribe (channel : String)
  | answer (call : Nat)
  | publish (channel payload : String)
  | recv (receiver : Nat)
  | task (t : TaskStep)
  -- what becomes of Redis
  | down
  | up
  deriving DecidableEq, Repr

namespace PubSub

def initial (keyPrefix : String) : PubSub := ⟨keyPrefix, true, none, [], [], []⟩

/-- `make_key` with the namespace of pub/sub. -/
def makeKey (s : PubSub) (channel : String) : String := s.keyPrefix ++ ":pubsub:" ++ channel

/-- The message that a call of `publish` sends. -/
def message (s : PubSub) (call : String × String) : PubSubMessage :=
  ⟨s.makeKey call.1, call.2⟩

def step (s : PubSub) : PubSubStep → Option PubSub
  | .subscribe channel => some { s with
      shared := s.shared.or (some (.start (s.makeKey channel)))
      waiting := s.waiting ++ [channel] }
  | .answer call => do
      let channel ← s.waiting[call]?
      let sh ← s.shared
      match ← sh.answer with
      | .ok () => some { s with
          waiting := s.waiting.eraseIdx call
          receivers := s.receivers ++ [⟨channel, s.published.length, sh.sent.length, []⟩] }
      | .error _ => some { s with waiting := s.waiting.eraseIdx call }
  | .publish channel payload => some { s with
      shared := s.shared.map fun sh => sh.carry (s.message (channel, payload))
      published := s.published ++ [(channel, payload)] }
  | .recv receiver => do
      let r ← s.receivers[receiver]?
      let sh ← s.shared
      let (outcome, next) ← sh.recv r.next
      let r' := { r with next := next, outcomes := r.outcomes ++ [outcome] }
      return { s with receivers := s.receivers.set receiver r' }
  | .task t => do
      let sh ← s.shared
      let sh' ← sh.step s.reachable t
      return { s with shared := some sh' }
  | .down => some { s with reachable := false }
  | .up => some { s with reachable := true }

/-! ## The task, `ready` and the handles -/

/-- What `ready` and the handles are in each phase of the task, and when there are receivers. -/
def InPhase (sh : SharedSubscriber) (receivers : List Receiver) : Prop :=
  match sh.task with
  | .connecting => sh.ready = none ∧ sh.senders = 2 ∧ receivers = []
  | .attached => sh.ready = none ∧ sh.senders = 2 ∧ receivers = []
  | .announced => sh.ready = some (.ok ()) ∧ sh.senders = 2
  | .forwarding => sh.ready = some (.ok ()) ∧ sh.senders = 2
  | .ended => sh.ready = some (.ok ()) ∧ sh.senders = 1
  | .failed => (∃ message, sh.ready = some (.error message)) ∧ sh.senders = 1 ∧ receivers = []

/-- The receivers count only while `ready` does not say that the task is there. -/
theorem InPhase.congr {sh sh' : SharedSubscriber} {receivers receivers' : List Receiver}
    (h : InPhase sh receivers) (htask : sh'.task = sh.task) (hready : sh'.ready = sh.ready)
    (hsenders : sh'.senders = sh.senders)
    (hnone : sh.ready ≠ some (.ok ()) → receivers = [] → receivers' = []) :
    InPhase sh' receivers' := by
  unfold InPhase at h ⊢
  rw [htask, hready, hsenders]
  cases hphase : sh.task with
  | connecting =>
      rw [hphase] at h
      exact ⟨h.1, h.2.1, hnone (by rw [h.1]; exact nofun) h.2.2⟩
  | attached =>
      rw [hphase] at h
      exact ⟨h.1, h.2.1, hnone (by rw [h.1]; exact nofun) h.2.2⟩
  | failed =>
      rw [hphase] at h
      obtain ⟨⟨message, hmessage⟩, hone, hempty⟩ := h
      exact ⟨⟨message, hmessage⟩, hone, hnone (by rw [hmessage]; exact nofun) hempty⟩
  | _ =>
      rw [hphase] at h
      exact h

theorem InPhase.task {sh sh' : SharedSubscriber} {receivers : List Receiver} {reachable : Bool}
    {t : TaskStep} (h : InPhase sh receivers) (hstep : sh.step reachable t = some sh') :
    InPhase sh' receivers := by
  cases t with
  | arrive =>
      unfold SharedSubscriber.step at hstep
      cases hwire : sh.wire with
      | nil =>
          rw [hwire] at hstep
          cases hstep
      | cons m rest =>
          rw [hwire] at hstep
          obtain rfl := Option.some.inj hstep
          exact h.congr rfl rfl rfl fun _ => id
  | _ =>
      unfold InPhase at h
      simp only [SharedSubscriber.step, Option.ite_none_right_eq_some, Option.some.injEq] at hstep
      obtain ⟨hguard, rfl⟩ := hstep
      simp_all [InPhase]

/-- A client whose task and flags agree. -/
structure Wired (s : PubSub) : Prop where
  unused : s.shared = none → s.waiting = [] ∧ s.receivers = []
  phase : ∀ sh, s.shared = some sh → InPhase sh s.receivers

theorem wired_initial (keyPrefix : String) : Wired (initial keyPrefix) where
  unused _ := ⟨rfl, rfl⟩
  phase _ h := nomatch h

theorem Wired.of_shared {s : PubSub} {sh : SharedSubscriber} (hshared : s.shared = some sh)
    (h : InPhase sh s.receivers) : Wired s where
  unused hnone := by cases hshared.symm.trans hnone
  phase sh' hsh := by
    obtain rfl := Option.some.inj (hshared.symm.trans hsh)
    exact h

theorem step_answer {s s' : PubSub} {call : Nat} (h : s.step (.answer call) = some s') :
    ∃ channel sh, s.waiting[call]? = some channel ∧ s.shared = some sh ∧
      ((sh.ready = some (.ok ()) ∧ s' = { s with
          waiting := s.waiting.eraseIdx call
          receivers := s.receivers ++ [⟨channel, s.published.length, sh.sent.length, []⟩] }) ∨
        ((∃ message, sh.ready = some (.error message)) ∧
          s' = { s with waiting := s.waiting.eraseIdx call })) := by
  simp only [PubSub.step, Option.bind_eq_bind, Option.bind_eq_some_iff] at h
  obtain ⟨channel, hchannel, sh, hshared, result, hanswer, hstep⟩ := h
  refine ⟨channel, sh, hchannel, hshared, ?_⟩
  obtain ⟨ready, hready, rfl⟩ := Option.map_eq_some_iff.mp hanswer
  cases ready with
  | ok u => exact Or.inl ⟨hready, (Option.some.inj hstep).symm⟩
  | error message => exact Or.inr ⟨⟨message, hready⟩, (Option.some.inj hstep).symm⟩

theorem step_recv {s s' : PubSub} {receiver : Nat} (h : s.step (.recv receiver) = some s') :
    ∃ r sh outcome next, s.receivers[receiver]? = some r ∧ s.shared = some sh ∧
      sh.recv r.next = some (outcome, next) ∧ s' = { s with
        receivers := s.receivers.set receiver
          { r with next := next, outcomes := r.outcomes ++ [outcome] } } := by
  simp only [PubSub.step, Option.bind_eq_bind, Option.bind_eq_some_iff, Option.pure_def,
    Option.some.injEq] at h
  obtain ⟨r, hr, sh, hshared, ⟨outcome, next⟩, hrecv, rfl⟩ := h
  exact ⟨r, sh, outcome, next, hr, hshared, hrecv, rfl⟩

theorem step_task {s s' : PubSub} {t : TaskStep} (h : s.step (.task t) = some s') :
    ∃ sh sh', s.shared = some sh ∧ sh.step s.reachable t = some sh' ∧
      s' = { s with shared := some sh' } := by
  simp only [PubSub.step, Option.bind_eq_bind, Option.bind_eq_some_iff, Option.pure_def,
    Option.some.injEq] at h
  obtain ⟨sh, hshared, sh', htask, rfl⟩ := h
  exact ⟨sh, sh', hshared, htask, rfl⟩

theorem Wired.step {s s' : PubSub} {c : PubSubStep} (h : Wired s) (hstep : s.step c = some s') :
    Wired s' := by
  cases c with
  | subscribe channel =>
      obtain rfl := Option.some.inj hstep
      cases hshared : s.shared with
      | none =>
          have hstart : InPhase (.start (s.makeKey channel)) s.receivers :=
            ⟨rfl, rfl, (h.unused hshared).2⟩
          exact .of_shared rfl hstart
      | some sh => exact .of_shared rfl (h.phase sh hshared)
  | answer call =>
      obtain ⟨channel, sh, -, hshared, ⟨hready, rfl⟩ | ⟨-, rfl⟩⟩ := step_answer hstep
      · refine .of_shared hshared ((h.phase sh hshared).congr rfl rfl rfl fun hclosed => ?_)
        exact absurd hready hclosed
      · exact .of_shared hshared (h.phase sh hshared)
  | publish channel payload =>
      obtain rfl := Option.some.inj hstep
      cases hshared : s.shared with
      | none => exact ⟨fun _ => h.unused hshared, fun sh hsh => nomatch hsh⟩
      | some sh =>
          exact .of_shared rfl ((h.phase sh hshared).congr rfl rfl rfl fun _ => id)
  | recv receiver =>
      obtain ⟨r, sh, outcome, next, -, hshared, -, rfl⟩ := step_recv hstep
      refine .of_shared hshared ((h.phase sh hshared).congr rfl rfl rfl fun _ hnil => ?_)
      rw [hnil]
      rfl
  | task t =>
      obtain ⟨sh, sh', hshared, htask, rfl⟩ := step_task hstep
      exact .of_shared rfl ((h.phase sh hshared).task htask)
  | down =>
      obtain rfl := Option.some.inj hstep
      exact ⟨h.unused, h.phase⟩
  | up =>
      obtain rfl := Option.some.inj hstep
      exact ⟨h.unused, h.phase⟩

/-! ## What a receiver may rely on -/

/-- `subscribe` gives a receiver only while the task forwards to it, the receivers of a task that
is over are closed once they are drained, and no call fails while Redis can be reached. -/
structure Sound (s : PubSub) : Prop where
  opens : ∀ sh, s.shared = some sh → sh.answer = some (.ok ()) →
    sh.task = .announced ∨ sh.task = .forwarding
  closes : ∀ sh, s.shared = some sh → sh.task = .ended ∨ sh.task = .failed →
    ∀ r ∈ s.receivers, r.next = sh.sent.length →
      ∃ outcome next, sh.recv r.next = some (outcome, next) ∧ outcome.leavesLoop = true
  recovers : ∀ sh, s.shared = some sh → s.reachable = true →
    ∀ err, sh.answer ≠ some (.error err)

/-- The task does not end, and Redis does not come back after the first connection has failed. -/
def Lasting (s : PubSub) : PubSubStep → Prop
  | .task .streamEnds => False
  | .up => ∀ sh ∈ s.shared, sh.task ≠ .failed
  | _ => True

/-- In a client whose flags agree: the task is not over, or its connection has failed and Redis is
still away. -/
theorem sound_iff {s : PubSub} (h : Wired s) : Sound s ↔ ∀ sh ∈ s.shared,
    sh.task ≠ .ended ∧ (sh.task = .failed → s.reachable = false) := by
  constructor
  · intro hsound sh hsh
    have hphase := h.phase sh hsh
    constructor
    · intro hended
      unfold InPhase at hphase
      rw [hended] at hphase
      have hanswer : sh.answer = some (.ok ()) := by
        rw [SharedSubscriber.answer, hphase.1]
        rfl
      have halive := hsound.opens sh hsh hanswer
      rw [hended] at halive
      simp at halive
    · intro hfailed
      unfold InPhase at hphase
      rw [hfailed] at hphase
      obtain ⟨⟨message, hready⟩, -, -⟩ := hphase
      cases hreachable : s.reachable with
      | false => rfl
      | true =>
          refine absurd ?_ (hsound.recovers sh hsh hreachable (.commandFailed message))
          rw [SharedSubscriber.answer, hready]
          rfl
  · intro hall
    constructor
    · intro sh hsh hanswer
      have hphase := h.phase sh hsh
      obtain ⟨hended, -⟩ := hall sh hsh
      obtain ⟨result, hready, -⟩ := Option.map_eq_some_iff.mp hanswer
      unfold InPhase at hphase
      cases htask : sh.task with
      | announced => exact Or.inl rfl
      | forwarding => exact Or.inr rfl
      | ended => exact absurd htask hended
      | failed =>
          rw [htask] at hphase
          obtain ⟨⟨message, hfailed⟩, -, -⟩ := hphase
          rw [SharedSubscriber.answer, hfailed] at hanswer
          cases hanswer
      | _ =>
          rw [htask] at hphase
          rw [hphase.1] at hready
          cases hready
    · intro sh hsh hover r hr
      have hphase := h.phase sh hsh
      rcases hover with hended | hfailed
      · exact absurd hended (hall sh hsh).1
      · unfold InPhase at hphase
        rw [hfailed] at hphase
        rw [hphase.2.2] at hr
        cases hr
    · intro sh hsh hreachable err hanswer
      have hphase := h.phase sh hsh
      obtain ⟨result, hready, hresult⟩ := Option.map_eq_some_iff.mp hanswer
      cases result with
      | ok u => cases hresult
      | error message =>
          unfold InPhase at hphase
          cases htask : sh.task with
          | failed =>
              rw [(hall sh hsh).2 htask] at hreachable
              cases hreachable
          | _ =>
              rw [htask] at hphase
              rw [hphase.1] at hready
              cases hready

/-- Only the end of a task makes it `ended`, and only a refused connection `failed`. -/
theorem phase_step {sh sh' : SharedSubscriber} {reachable : Bool} {t : TaskStep}
    (h : sh.step reachable t = some sh') :
    (sh'.task = .ended ↔ t = .streamEnds ∨ sh.task = .ended) ∧
      (sh'.task = .failed → sh.task = .failed ∨ reachable = false) := by
  cases t with
  | arrive =>
      unfold SharedSubscriber.step at h
      cases hwire : sh.wire with
      | nil =>
          rw [hwire] at h
          cases h
      | cons m rest =>
          rw [hwire] at h
          obtain rfl := Option.some.inj h
          simp
          tauto
  | _ =>
      simp only [SharedSubscriber.step, Option.ite_none_right_eq_some, Option.some.injEq] at h
      obtain ⟨hguard, rfl⟩ := h
      simp_all

/-- A step keeps the client sound if and only if neither the task ends nor Redis comes back to a
client whose first connection has failed. -/
theorem sound_step {s s' : PubSub} {c : PubSubStep} (h : Wired s) (hsound : Sound s)
    (hstep : s.step c = some s') : Sound s' ↔ Lasting s c := by
  rw [sound_iff (h.step hstep)]
  rw [sound_iff h] at hsound
  cases c with
  | subscribe channel =>
      obtain rfl := Option.some.inj hstep
      refine ⟨fun _ => trivial, fun _ sh hsh => ?_⟩
      rcases Option.or_eq_some_iff.mp hsh with hold | ⟨-, hnew⟩
      · exact hsound sh hold
      · obtain rfl := Option.some.inj hnew
        exact ⟨nofun, nofun⟩
  | answer call =>
      obtain ⟨channel, sh, -, -, ⟨-, rfl⟩ | ⟨-, rfl⟩⟩ := step_answer hstep
      · exact ⟨fun _ => trivial, fun _ => hsound⟩
      · exact ⟨fun _ => trivial, fun _ => hsound⟩
  | publish channel payload =>
      obtain rfl := Option.some.inj hstep
      refine ⟨fun _ => trivial, fun _ sh hsh => ?_⟩
      obtain ⟨old, hold, rfl⟩ := Option.map_eq_some_iff.mp hsh
      exact hsound old hold
  | recv receiver =>
      obtain ⟨r, sh, outcome, next, -, -, -, rfl⟩ := step_recv hstep
      exact ⟨fun _ => trivial, fun _ => hsound⟩
  | down =>
      obtain rfl := Option.some.inj hstep
      exact ⟨fun _ => trivial, fun _ sh hsh => ⟨(hsound sh hsh).1, fun _ => rfl⟩⟩
  | up =>
      obtain rfl := Option.some.inj hstep
      constructor
      · intro hafter sh hsh hfailed
        cases (hafter sh hsh).2 hfailed
      · intro hlasting sh hsh
        exact ⟨(hsound sh hsh).1, fun hfailed => absurd hfailed (hlasting sh hsh)⟩
  | task t =>
      obtain ⟨sh, sh', hshared, htask, rfl⟩ := step_task hstep
      obtain ⟨hended, hfailed⟩ := phase_step htask
      obtain ⟨hlives, haway⟩ := hsound sh hshared
      constructor
      · intro hafter
        have hnot := mt hended.mpr (hafter sh' rfl).1
        cases t with
        | streamEnds => exact hnot (Or.inl rfl)
        | _ => exact trivial
      · intro hlasting other hother
        obtain rfl := Option.some.inj hother
        constructor
        · intro hdone
          rcases hended.mp hdone with rfl | hold
          · exact hlasting
          · exact hlives hold
        · intro hnow
          exact (hfailed hnow).elim haway id

/-- In every run of one client: `subscribe` returns a receiver only while the task forwards, a
drained receiver of a task that is over is closed, and no call fails while Redis can be reached,
in all states on the way, if and only if the task's stream never ends and Redis does not come back
after the first connection has failed. -/
theorem sound_throughout_iff (keyPrefix : String) (steps : List PubSubStep) :
    Trace.Throughout PubSub.step Sound (initial keyPrefix) steps ↔
      Trace.Each PubSub.step Lasting (initial keyPrefix) steps := by
  have hsound : Sound (initial keyPrefix) :=
    (sound_iff (wired_initial keyPrefix)).mpr fun sh hsh => nomatch hsh
  refine Trace.throughout_iff_each (fun s _ => Wired s) ?_ (wired_initial keyPrefix) hsound
  intro s c rest s' hwired hsound hstep
  exact ⟨sound_step hwired hsound hstep, fun _ => hwired.step hstep⟩

/-! ## What a receiver is given -/

/-- What the receiver has asked for: what was published to its channel since its `subscribe` has
returned. -/
def expected (s : PubSub) (r : Receiver) : List PubSubMessage :=
  ((s.published.drop r.since).filter fun call => call.1 = r.channel).map s.message

/-- What is on its way to a receiver. -/
def pending (sh : SharedSubscriber) (r : Receiver) : List PubSubMessage :=
  sh.sent.drop r.next ++ sh.wire

/-- Outcomes that read the first `n` messages of a list in order, but for gaps of messages that are
older than the last `channelCapacity`. -/
inductive Reads (messages : List PubSubMessage) : List Recv → Nat → Prop where
  | start : Reads messages [] 0
  | message {outcomes : List Recv} {n : Nat} {m : PubSubMessage} :
      Reads messages outcomes n → messages[n]? = some m →
      Reads messages (outcomes ++ [.message m]) (n + 1)
  | lagged {outcomes : List Recv} {n k : Nat} :
      Reads messages outcomes n → 0 < k → n + k + channelCapacity ≤ messages.length →
      Reads messages (outcomes ++ [.lagged k]) (n + k)

/-- A receiver that has read a part of what it asked for, and exactly the rest is on its way. -/
def Given (s : PubSub) (sh : SharedSubscriber) (r : Receiver) : Prop :=
  ∃ n, Reads (s.expected r) r.outcomes n ∧ (s.expected r).drop n = pending sh r

def Faithful (s : PubSub) : Prop :=
  ∀ sh ∈ s.shared, ∀ r ∈ s.receivers, Given s sh r

/-- A step of the task that loses no message on its way. -/
def Keeps (sh : SharedSubscriber) : TaskStep → Prop
  | .arrive => sh.task = .forwarding
  | .streamEnds => sh.wire = []
  | _ => True

/-- Where a receiver that asked for a channel gets all of it and nothing else: a message is sent
to those who asked for its channel if and only if the task is there for this channel, nobody
begins while an older message is on its way, and no message is lost before a receiver. -/
def Routed (s : PubSub) : PubSubStep → Prop
  | .publish channel _ => ∀ sh ∈ s.shared, ∀ r ∈ s.receivers, r.channel = channel ↔
      s.makeKey channel = sh.channel ∧ sh.task ∈ [.attached, .announced, .forwarding]
  | .answer _ => ∀ sh ∈ s.shared, sh.ready = some (.ok ()) → sh.wire = []
  | .task t => ∀ sh ∈ s.shared, Keeps sh t ∨ s.receivers = []
  | _ => True

theorem Reads.eq_sum {messages : List PubSubMessage} {outcomes : List Recv} {n : Nat}
    (h : Reads messages outcomes n) : n = (outcomes.map Recv.width).sum := by
  induction h with
  | start => rfl
  | message _ _ ih =>
      rw [List.map_append, List.sum_append, ← ih]
      rfl
  | lagged _ _ _ ih =>
      rw [List.map_append, List.sum_append, ← ih]
      rfl

theorem Reads.le_length {messages : List PubSubMessage} {outcomes : List Recv} {n : Nat}
    (h : Reads messages outcomes n) : n ≤ messages.length := by
  cases h with
  | start => exact Nat.zero_le _
  | message _ hm => exact (List.getElem?_eq_some_iff.mp hm).1
  | lagged _ _ hle => omega

theorem Reads.append {messages : List PubSubMessage} {outcomes : List Recv} {n : Nat}
    (h : Reads messages outcomes n) (more : List PubSubMessage) :
    Reads (messages ++ more) outcomes n := by
  induction h with
  | start => exact .start
  | @message outcomes n m _ hm ih =>
      have hlt : n < messages.length := (List.getElem?_eq_some_iff.mp hm).1
      exact .message ih (by rwa [List.getElem?_append_left hlt])
  | lagged _ hpos hle ih =>
      exact .lagged ih hpos (by rw [List.length_append]; omega)

/-- Receivers stand within what has been sent and published. -/
structure Placed (s : PubSub) : Prop where
  since : ∀ r ∈ s.receivers, r.since ≤ s.published.length
  next : ∀ sh ∈ s.shared, ∀ r ∈ s.receivers, r.next ≤ sh.sent.length

theorem placed_initial (keyPrefix : String) : Placed (initial keyPrefix) where
  since _ h := nomatch h
  next _ h := nomatch h

theorem recv_le {sh : SharedSubscriber} {next next' : Nat} {outcome : Recv}
    (hle : next ≤ sh.sent.length) (h : sh.recv next = some (outcome, next')) :
    next' ≤ sh.sent.length := by
  unfold SharedSubscriber.recv at h
  split at h
  · cases h
    omega
  · split at h
    · rename_i hm
      cases h
      exact (List.getElem?_eq_some_iff.mp hm).1
    · split at h
      · cases h
        exact hle
      · cases h

theorem sent_le {sh sh' : SharedSubscriber} {reachable : Bool} {t : TaskStep}
    (h : sh.step reachable t = some sh') : sh.sent.length ≤ sh'.sent.length := by
  cases t with
  | arrive =>
      unfold SharedSubscriber.step at h
      cases hwire : sh.wire with
      | nil =>
          rw [hwire] at h
          cases h
      | cons m rest =>
          rw [hwire] at h
          obtain rfl := Option.some.inj h
          dsimp only
          split <;> simp
  | _ =>
      simp only [SharedSubscriber.step, Option.ite_none_right_eq_some, Option.some.injEq] at h
      obtain ⟨-, rfl⟩ := h
      exact le_refl _

theorem Placed.step {s s' : PubSub} {c : PubSubStep} (h : Placed s) (hwired : Wired s)
    (hstep : s.step c = some s') : Placed s' := by
  cases c with
  | subscribe channel =>
      obtain rfl := Option.some.inj hstep
      refine ⟨h.since, fun sh hsh r hr => ?_⟩
      rcases Option.or_eq_some_iff.mp hsh with hold | ⟨hnone, -⟩
      · exact h.next sh hold r hr
      · have hempty : s.receivers = [] := (hwired.unused hnone).2
        rw [hempty] at hr
        cases hr
  | answer call =>
      obtain ⟨channel, sh, -, hshared, ⟨-, rfl⟩ | ⟨-, rfl⟩⟩ := step_answer hstep
      · constructor
        · intro r hr
          rcases List.mem_append.mp hr with hold | hnew
          · exact h.since r hold
          · rw [List.mem_singleton.mp hnew]
        · intro sh' hsh r hr
          obtain rfl := Option.some.inj (hshared.symm.trans hsh)
          rcases List.mem_append.mp hr with hold | hnew
          · exact h.next sh hsh r hold
          · rw [List.mem_singleton.mp hnew]
      · exact ⟨h.since, h.next⟩
  | publish channel payload =>
      obtain rfl := Option.some.inj hstep
      constructor
      · intro r hr
        rw [List.length_append]
        exact Nat.le_add_right_of_le (h.since r hr)
      · intro sh' hsh r hr
        obtain ⟨sh, hold, rfl⟩ := Option.map_eq_some_iff.mp hsh
        exact h.next sh hold r hr
  | recv receiver =>
      obtain ⟨r, sh, outcome, next, hr, hshared, hrecv, rfl⟩ := step_recv hstep
      have hmem : r ∈ s.receivers := List.mem_of_getElem? hr
      constructor
      · intro r' hr'
        rcases List.mem_or_eq_of_mem_set hr' with hold | rfl
        · exact h.since r' hold
        · exact h.since r hmem
      · intro sh' hsh r' hr'
        obtain rfl := Option.some.inj (hshared.symm.trans hsh)
        rcases List.mem_or_eq_of_mem_set hr' with hold | rfl
        · exact h.next sh hsh r' hold
        · exact recv_le (h.next sh hsh r hmem) hrecv
  | task t =>
      obtain ⟨sh, sh', hshared, htask, rfl⟩ := step_task hstep
      refine ⟨h.since, fun other hother r hr => ?_⟩
      obtain rfl := Option.some.inj hother
      exact (h.next sh hshared r hr).trans (sent_le htask)
  | down =>
      obtain rfl := Option.some.inj hstep
      exact ⟨h.since, h.next⟩
  | up =>
      obtain rfl := Option.some.inj hstep
      exact ⟨h.since, h.next⟩

theorem expected_congr {s s' : PubSub} (hkeys : s'.keyPrefix = s.keyPrefix)
    (hpublished : s'.published = s.published) : s'.expected = s.expected := by
  funext r
  unfold expected message makeKey
  rw [hkeys, hpublished]

/-- A receiver that begins has nothing to expect yet, so nothing may be on its way. -/
theorem given_new {s : PubSub} {sh : SharedSubscriber} (channel : String) :
    Given s sh ⟨channel, s.published.length, sh.sent.length, []⟩ ↔ sh.wire = [] := by
  have hexpected : s.expected ⟨channel, s.published.length, sh.sent.length, []⟩ = [] := by
    simp [expected]
  have hpending : pending sh ⟨channel, s.published.length, sh.sent.length, []⟩ = sh.wire := by
    simp [pending]
  unfold Given
  rw [hexpected, hpending]
  constructor
  · rintro ⟨n, -, hrest⟩
    rw [← hrest, List.drop_nil]
  · intro hwire
    exact ⟨0, .start, hwire.symm⟩

/-- What one more message adds to what a receiver expects. -/
theorem expected_publish {s s' : PubSub} {r : Receiver} {call : String × String}
    (hsince : r.since ≤ s.published.length) (hkeys : s'.keyPrefix = s.keyPrefix)
    (hpublished : s'.published = s.published ++ [call]) :
    s'.expected r = s.expected r ++ if r.channel = call.1 then [s.message call] else [] := by
  unfold expected message makeKey
  rw [hkeys, hpublished, List.drop_append_of_le_length hsince, List.filter_append,
    List.map_append]
  congr 1
  by_cases hchannel : r.channel = call.1
  · simp [hchannel]
  · simp [hchannel, Ne.symm hchannel]

theorem pending_carry (sh : SharedSubscriber) (m : PubSubMessage) (r : Receiver) :
    pending (sh.carry m) r = pending sh r ++
      if m.channel = sh.channel ∧ sh.task ∈ [.attached, .announced, .forwarding] then [m]
      else [] := by
  unfold pending SharedSubscriber.carry
  dsimp only
  split
  · rw [List.append_assoc]
  · rw [List.append_nil]

/-- A message reaches a receiver if and only if it asked for it. -/
theorem Given.publish {s s' : PubSub} {sh : SharedSubscriber} {r : Receiver}
    {call : String × String} (h : Given s sh r) (hsince : r.since ≤ s.published.length)
    (hkeys : s'.keyPrefix = s.keyPrefix) (hpublished : s'.published = s.published ++ [call]) :
    Given s' (sh.carry (s.message call)) r ↔ (r.channel = call.1 ↔
      s.makeKey call.1 = sh.channel ∧ sh.task ∈ [.attached, .announced, .forwarding]) := by
  obtain ⟨n, hreads, hrest⟩ := h
  have hrest' : (s'.expected r).drop n = (pending sh r) ++
      if r.channel = call.1 then [s.message call] else [] := by
    rw [expected_publish hsince hkeys hpublished, List.drop_append_of_le_length hreads.le_length,
      hrest]
  have hreads' : Reads (s'.expected r) r.outcomes n := by
    rw [expected_publish hsince hkeys hpublished]
    exact hreads.append _
  have hgiven : Given s' (sh.carry (s.message call)) r ↔
      (s'.expected r).drop n = pending (sh.carry (s.message call)) r := by
    constructor
    · rintro ⟨k, hk, hdrop⟩
      obtain rfl : k = n := hk.eq_sum.trans hreads'.eq_sum.symm
      exact hdrop
    · exact fun hdrop => ⟨n, hreads', hdrop⟩
  rw [hgiven, hrest', pending_carry, List.append_cancel_left_eq]
  have hchannel : (s.message call).channel = s.makeKey call.1 := rfl
  rw [hchannel]
  by_cases hasked : r.channel = call.1
  · rw [if_pos hasked]
    split
    · rename_i hcarried
      exact ⟨fun _ => ⟨fun _ => hcarried, fun _ => hasked⟩, fun _ => rfl⟩
    · rename_i hlost
      exact ⟨nofun, fun hiff => absurd (hiff.mp hasked) hlost⟩
  · rw [if_neg hasked]
    split
    · rename_i hcarried
      exact ⟨nofun, fun hiff => absurd (hiff.mpr hcarried) hasked⟩
    · rename_i hlost
      exact ⟨fun _ => ⟨fun h => absurd h hasked, fun h => absurd h hlost⟩, fun _ => rfl⟩

/-- What `recv` returns is the next message of those the receiver expects, or a gap. -/
theorem Given.recv {s : PubSub} {sh : SharedSubscriber} {r : Receiver} {outcome : Recv}
    {next : Nat} (h : Given s sh r) (hsenders : sh.senders ≠ 0)
    (hrecv : sh.recv r.next = some (outcome, next)) :
    Given s sh { r with next := next, outcomes := r.outcomes ++ [outcome] } := by
  obtain ⟨n, hreads, hrest⟩ := h
  have hexpected : s.expected { r with next := next, outcomes := r.outcomes ++ [outcome] }
      = s.expected r := rfl
  unfold Given
  rw [hexpected]
  unfold SharedSubscriber.recv at hrecv
  split at hrecv
  · rename_i hlag
    obtain ⟨rfl, rfl⟩ := Prod.mk.inj (Option.some.inj hrecv)
    have hlength : (s.expected r).length - n = sh.sent.length - r.next + sh.wire.length := by
      rw [← List.length_drop, hrest, pending, List.length_append, List.length_drop]
    have hle := hreads.le_length
    have hgap : 0 < sh.sent.length - channelCapacity - r.next := by omega
    have hroom : n + (sh.sent.length - channelCapacity - r.next) + channelCapacity
        ≤ (s.expected r).length := by
      omega
    refine ⟨n + (sh.sent.length - channelCapacity - r.next), .lagged hreads hgap hroom, ?_⟩
    rw [← List.drop_drop, hrest]
    unfold pending
    have hinside : sh.sent.length - channelCapacity - r.next ≤ (sh.sent.drop r.next).length := by
      rw [List.length_drop]
      omega
    have hnext : r.next + (sh.sent.length - channelCapacity - r.next)
        = sh.sent.length - channelCapacity := by
      omega
    rw [List.drop_append_of_le_length hinside, List.drop_drop, hnext]
  · split at hrecv
    · rename_i m hm
      obtain ⟨rfl, rfl⟩ := Prod.mk.inj (Option.some.inj hrecv)
      have hlt : r.next < sh.sent.length := (List.getElem?_eq_some_iff.mp hm).1
      have hpending : pending sh r = m :: (sh.sent.drop (r.next + 1) ++ sh.wire) := by
        unfold pending
        rw [List.drop_eq_getElem_cons hlt, (List.getElem?_eq_some_iff.mp hm).2, List.cons_append]
      rw [hpending] at hrest
      have hnth : (s.expected r)[n]? = some m := by
        rw [← List.head?_drop, hrest]
        rfl
      refine ⟨n + 1, .message hreads hnth, ?_⟩
      rw [← List.tail_drop, hrest]
      rfl
    · cases hrecv

theorem InPhase.senders_ne_zero {sh : SharedSubscriber} {receivers : List Receiver}
    (h : InPhase sh receivers) : sh.senders ≠ 0 := by
  unfold InPhase at h
  cases htask : sh.task with
  | _ =>
      rw [htask] at h
      simp_all

/-- What becomes of the messages on their way when the task takes a step: they stay on their way,
unless one arrives before the task listens or the stream ends. -/
theorem given_task {s s' : PubSub} {sh sh' : SharedSubscriber} {reachable : Bool} {t : TaskStep}
    (hstep : sh.step reachable t = some sh') (hexpected : s'.expected = s.expected)
    {r : Receiver} (h : Given s sh r) (hnext : r.next ≤ sh.sent.length) :
    Given s' sh' r ↔ Keeps sh t := by
  have hgiven : Given s' sh' r ↔ pending sh' r = pending sh r := by
    obtain ⟨n, hreads, hrest⟩ := h
    unfold Given
    rw [hexpected]
    constructor
    · rintro ⟨k, hk, hdrop⟩
      obtain rfl : k = n := hk.eq_sum.trans hreads.eq_sum.symm
      exact hdrop.symm.trans hrest
    · exact fun heq => ⟨n, hreads, hrest.trans heq.symm⟩
  rw [hgiven]
  cases t with
  | arrive =>
      unfold SharedSubscriber.step at hstep
      cases hwire : sh.wire with
      | nil =>
          rw [hwire] at hstep
          cases hstep
      | cons m rest =>
          rw [hwire] at hstep
          obtain rfl := Option.some.inj hstep
          unfold pending
          rw [hwire]
          dsimp only
          split
          · rename_i hlistens
            refine ⟨fun _ => hlistens, fun _ => ?_⟩
            rw [List.drop_append_of_le_length hnext, List.append_assoc]
            rfl
          · rename_i hdeaf
            refine ⟨fun heq => ?_, fun hlistens => absurd hlistens hdeaf⟩
            have hlength := congrArg List.length heq
            simp at hlength
  | streamEnds =>
      simp only [SharedSubscriber.step, Option.ite_none_right_eq_some, Option.some.injEq] at hstep
      obtain ⟨-, rfl⟩ := hstep
      unfold pending
      rw [List.append_cancel_left_eq]
      exact eq_comm
  | _ =>
      simp only [SharedSubscriber.step, Option.ite_none_right_eq_some, Option.some.injEq] at hstep
      obtain ⟨-, rfl⟩ := hstep
      exact iff_true_intro rfl

/-- A step leaves every receiver with what it asked for if and only if it is routed. -/
theorem faithful_step {s s' : PubSub} {c : PubSubStep} (hwired : Wired s) (hplaced : Placed s)
    (h : Faithful s) (hstep : s.step c = some s') : Faithful s' ↔ Routed s c := by
  cases c with
  | subscribe channel =>
      obtain rfl := Option.some.inj hstep
      refine ⟨fun _ => trivial, fun _ sh hsh r hr => ?_⟩
      rcases Option.or_eq_some_iff.mp hsh with hold | ⟨hnone, -⟩
      · exact h sh hold r hr
      · have hempty : s.receivers = [] := (hwired.unused hnone).2
        rw [hempty] at hr
        cases hr
  | answer call =>
      obtain ⟨channel, sh, -, hshared, ⟨hready, rfl⟩ | ⟨⟨message, hready⟩, rfl⟩⟩ :=
        step_answer hstep
      · constructor
        · intro hafter sh' hsh _
          obtain rfl := Option.some.inj (hshared.symm.trans hsh)
          exact (given_new channel).mp (hafter sh hshared _
            (List.mem_append_right _ (List.mem_singleton_self _)))
        · intro hrouted sh' hsh r hr
          obtain rfl := Option.some.inj (hshared.symm.trans hsh)
          rcases List.mem_append.mp hr with hold | hnew
          · exact h sh hshared r hold
          · rw [List.mem_singleton.mp hnew]
            exact (given_new channel).mpr (hrouted sh hshared hready)
      · refine ⟨fun _ sh' hsh hok => ?_, fun _ => h⟩
        obtain rfl := Option.some.inj (hshared.symm.trans hsh)
        cases hready.symm.trans hok
  | publish channel payload =>
      have heq := Option.some.inj hstep
      have hkeys : s'.keyPrefix = s.keyPrefix := by rw [← heq]
      have hpublished : s'.published = s.published ++ [(channel, payload)] := by rw [← heq]
      have hshared : s'.shared
          = s.shared.map fun sh => sh.carry (s.message (channel, payload)) := by
        rw [← heq]
      have hreceivers : s'.receivers = s.receivers := by rw [← heq]
      constructor
      · intro hafter sh hsh r hr
        have hgiven : Given s' (sh.carry (s.message (channel, payload))) r :=
          hafter _ (by rw [hshared]; exact Option.mem_map_of_mem _ hsh) r (hreceivers ▸ hr)
        exact ((h sh hsh r hr).publish (hplaced.since r hr) hkeys hpublished).mp hgiven
      · intro hrouted sh' hsh r hr
        rw [hshared] at hsh
        rw [hreceivers] at hr
        obtain ⟨sh, hold, rfl⟩ := Option.map_eq_some_iff.mp hsh
        exact ((h sh hold r hr).publish (hplaced.since r hr) hkeys hpublished).mpr
          (hrouted sh hold r hr)
  | recv receiver =>
      obtain ⟨r, sh, outcome, next, hr, hshared, hrecv, rfl⟩ := step_recv hstep
      refine ⟨fun _ => trivial, fun _ sh' hsh r' hr' => ?_⟩
      obtain rfl := Option.some.inj (hshared.symm.trans hsh)
      have hsenders := (hwired.phase sh hshared).senders_ne_zero
      rcases List.mem_or_eq_of_mem_set hr' with hold | rfl
      · exact h sh hshared r' hold
      · exact (h sh hshared r (List.mem_of_getElem? hr)).recv hsenders hrecv
  | task t =>
      obtain ⟨sh, sh', hshared, htask, heq⟩ := step_task hstep
      have hexpected : s'.expected = s.expected :=
        expected_congr (by rw [heq]) (by rw [heq])
      have hshared' : s'.shared = some sh' := by rw [heq]
      have hreceivers : s'.receivers = s.receivers := by rw [heq]
      have hkeeps : ∀ r ∈ s.receivers, (Given s' sh' r ↔ Keeps sh t) := fun r hr =>
        given_task htask hexpected (h sh hshared r hr) (hplaced.next sh hshared r hr)
      constructor
      · intro hafter other hother
        obtain rfl := Option.some.inj (hshared.symm.trans hother)
        cases hnone : s.receivers with
        | nil => exact Or.inr rfl
        | cons r rest =>
            have hr : r ∈ s.receivers := by simp [hnone]
            exact Or.inl ((hkeeps r hr).mp (hafter sh' hshared' r (hreceivers ▸ hr)))
      · intro hrouted other hother r hr
        obtain rfl := Option.some.inj (hshared'.symm.trans hother)
        rw [hreceivers] at hr
        rcases hrouted sh hshared with hkept | hnone
        · exact (hkeeps r hr).mpr hkept
        · rw [hnone] at hr
          cases hr
  | down =>
      obtain rfl := Option.some.inj hstep
      exact ⟨fun _ => trivial, fun _ => h⟩
  | up =>
      obtain rfl := Option.some.inj hstep
      exact ⟨fun _ => trivial, fun _ => h⟩

/-- In every run of one client: in all states on the way every receiver has read, in order and up
to the lag of the broadcast channel, what was published to its channel since its `subscribe` has
returned, and exactly the rest of it is on its way, if and only if every step is routed. -/
theorem faithful_throughout_iff (keyPrefix : String) (steps : List PubSubStep) :
    Trace.Throughout PubSub.step Faithful (initial keyPrefix) steps ↔
      Trace.Each PubSub.step Routed (initial keyPrefix) steps := by
  refine Trace.throughout_iff_each (fun s _ => Wired s ∧ Placed s) ?_
    ⟨wired_initial keyPrefix, placed_initial keyPrefix⟩ fun sh hsh => nomatch hsh
  intro s c rest s' ⟨hwired, hplaced⟩ hfaithful hstep
  exact ⟨faithful_step hwired hplaced hfaithful hstep,
    fun _ => ⟨hwired.step hstep, hplaced.step hwired hstep⟩⟩

end PubSub

namespace Sample

/-- A socket has a receiver of channel `a`. -/
def opened : List PubSubStep :=
  [.subscribe "a", .task .attach, .task .announce, .task .listen, .answer 0]

/-- Its task has forwarded one message. -/
def oneForwarded : SharedSubscriber :=
  ⟨"fsh:pubsub:a", .forwarding, some (.ok ()), 2, [], [⟨"fsh:pubsub:a", "m"⟩]⟩

/-- Its stream has ended. -/
def endedTask : SharedSubscriber := ⟨"fsh:pubsub:a", .ended, some (.ok ()), 1, [], []⟩

end Sample

open Sample

/-- A call of `subscribe` for a second channel gives a receiver of the first one, which reads a
message that was not published to its channel. -/
theorem PubSub.second_channel_not_faithful : ¬ Trace.Throughout PubSub.step Faithful
    (initial "fsh")
    (opened ++ [.subscribe "b", .answer 0, .publish "a" "m", .task .arrive, .recv 1]) := by
  intro h
  have hrun : Trace.run PubSub.step (initial "fsh")
      (opened ++ [.subscribe "b", .answer 0, .publish "a" "m", .task .arrive, .recv 1])
      = some ⟨"fsh", true, some oneForwarded, [], [⟨"a", 0, 0, []⟩,
          ⟨"b", 0, 1, [.message ⟨"fsh:pubsub:a", "m"⟩]⟩], [("a", "m")]⟩ := by
    decide
  have hfaithful := Trace.throughout_iff.mp h 10 _ hrun
  obtain ⟨n, hreads, -⟩ := hfaithful oneForwarded rfl
    ⟨"b", 0, 1, [.message ⟨"fsh:pubsub:a", "m"⟩]⟩ (by simp)
  have hn : n = 1 := hreads.eq_sum
  have hle := hreads.le_length
  have hnothing : (⟨"fsh", true, some oneForwarded, [], [⟨"a", 0, 0, []⟩,
      ⟨"b", 0, 1, [.message ⟨"fsh:pubsub:a", "m"⟩]⟩], [("a", "m")]⟩ : PubSub).expected
        ⟨"b", 0, 1, [.message ⟨"fsh:pubsub:a", "m"⟩]⟩ = [] := by
    decide
  rw [hnothing, hn] at hle
  simp at hle

/-- After the stream has ended, `subscribe` goes on to give receivers; they wait for ever. -/
theorem PubSub.ended_task_not_sound : ¬ Trace.Throughout PubSub.step Sound (initial "fsh")
    (opened ++ [.task .streamEnds, .subscribe "a", .answer 0]) := by
  intro h
  have hrun : Trace.run PubSub.step (initial "fsh")
      (opened ++ [.task .streamEnds, .subscribe "a", .answer 0])
      = some ⟨"fsh", true, some endedTask, [], [⟨"a", 0, 0, []⟩, ⟨"a", 0, 0, []⟩], []⟩ := by
    decide
  have hsound := Trace.throughout_iff.mp h 8 _ hrun
  obtain ⟨outcome, next, hrecv, -⟩ :=
    hsound.closes endedTask rfl (Or.inl rfl) ⟨"a", 0, 0, []⟩ (by simp) rfl
  have hwaits : endedTask.recv 0 = none := by decide
  cases hwaits.symm.trans hrecv

end FullStackHex
