import FullStackHex.Library.Header
import FullStackHex.Library.Json
import FullStackHex.Library.Percent
import FullStackHex.Library.Trace

/-!
The reconnecting event stream of `lib/live.ts`. JavaScript runs one callback at a time, but a
listener may call the handle while an event is being emitted, so an emission is a sequence of
steps over the list of listeners as it is by then. The browser, with its sockets and timers, is
part of the state, and so is what has happened. A status is notified by the stream itself; a
message that looks like one is a message.
-/

namespace FullStackHex

open JsonText

namespace LiveStream

def maxRetries : Nat := 10

inductive Status where
  | connected
  | reconnecting
  | offline
  deriving DecidableEq, Repr

/-- What listeners are called with. -/
inductive Notice where
  | status (status : Status)
  | message (event : Json)

/-- The page, and the option of `connectLiveStream`. -/
structure Page where
  https : Bool
  host : String
  token : Option String

/-- The bytes that `encodeURIComponent` leaves. -/
def keptInComponent (b : UInt8) : Bool :=
  Percent.unreserved b || ("!*'()".toList.map Percent.byte).contains b

def encodeURIComponent (text : String) : String :=
  Http.textOf (Percent.encode keptInComponent (Codec.utf8 text))

def Page.url (page : Page) : String :=
  let url := (if page.https then "wss:" else "ws:") ++ "//" ++ page.host ++ "/api/live"
  match page.token.filter fun token => token ≠ "" with
  | some token => url ++ "?token=" ++ encodeURIComponent token
  | none => url

/-! ## The browser and the closure -/

/-- A socket that is opening or open, one that `close()` has been called on, and one that has
fired its close event. -/
inductive Socket where
  | live
  | closing
  | dead
  deriving DecidableEq, Repr

/-- What is left to do after an emission. -/
inductive After where
  | done
  | setTimer
  deriving DecidableEq, Repr

/-- Between two callbacks, or in an emission before the listener with this index. -/
inductive Control where
  | idle
  | emitting (event : Notice) (index : Nat) (after : After)

inductive Event where
  | created (socket : Nat) (url : String)
  | opened (socket : Nat)
  | attempted
  | notified (status : Status)
  | registered (listener : Nat)
  | called (listener : Nat) (event : Notice)
  | closed

/-- Listeners, sockets and timers are numbered as they come. The log starts with what happened
last. -/
structure State where
  listeners : List Nat
  ws : Option Nat
  closed : Bool
  retryCount : Nat
  retryTimer : Option Nat
  sockets : List Socket
  timers : List Nat
  nextTimer : Nat
  nextListener : Nat
  control : Control
  log : List Event

def State.blank : State := ⟨[], none, false, 0, none, [], [], 0, 0, .idle, []⟩

def State.say (s : State) (e : Event) : State := { s with log := e :: s.log }

def State.emit (s : State) (event : Notice) (after : After) : State :=
  { s with control := .emitting event 0 after }

def State.notifyStatus (s : State) (status : Status) (after : After) : State :=
  (s.say (.notified status)).emit (.status status) after

def State.scheduleReconnect (s : State) : State :=
  if s.closed then s
  else if maxRetries ≤ s.retryCount then s.notifyStatus .offline .done
  else { s with retryCount := s.retryCount + 1 }.notifyStatus .reconnecting .setTimer

/-- `connect`, for a constructor that throws or not. -/
def State.connect (page : Page) (throws : Bool) (s : State) : State :=
  if s.closed then s
  else if throws then s.scheduleReconnect
  else { s with
    ws := some s.sockets.length
    sockets := s.sockets ++ [Socket.live] }.say (.created s.sockets.length page.url)

def State.close (s : State) : State :=
  let timers := match s.retryTimer with
    | some t => s.timers.filter fun t' => t' ≠ t
    | none => s.timers
  let sockets := match s.ws with
    | some i => s.sockets.set i .closing
    | none => s.sockets
  { s with
    closed := true
    retryTimer := none
    timers := timers
    sockets := sockets
    ws := none
    listeners := [] }.say .closed

/-- The event of a message: an object whose `type` is a text. `none` is no JSON. -/
def messageEvent (data : Option Json) : Option Json :=
  data.filter fun v => (v.get "type").asStr.isSome

/-- The white space of a regular expression of JavaScript. -/
def jsSpace (c : Char) : Bool :=
  let n := c.toNat
  (9 ≤ n && n ≤ 13) || n == 0x20 || n == 0xa0 || n == 0x1680 || (0x2000 ≤ n && n ≤ 0x200a)
    || n == 0x2028 || n == 0x2029 || n == 0x202f || n == 0x205f || n == 0x3000 || n == 0xfeff

/-- One of the alternatives `403|404|forbidden|not\s*found|refused`, at the start. -/
def refusalAt (cs : List Char) : Bool :=
  ["403", "404", "forbidden", "refused"].any (fun text => text.toList.isPrefixOf cs)
    || ("not".toList.isPrefixOf cs && "found".toList.isPrefixOf ((cs.drop 3).dropWhile jsSpace))

def refused (reason : String) : Bool :=
  (reason.toList.map Char.toLower).tails.any refusalAt

/-- A close event after which there is no other attempt. -/
def permanent (code : Nat) (reason : String) : Bool :=
  code ∈ [1003, 1008, 1009, 1011, 1015] || refused reason

def State.onclose (s : State) (code : Nat) (reason : String) : State :=
  let s := { s with ws := none }
  if s.closed then s
  else if permanent code reason then s.notifyStatus .offline .done
  else s.scheduleReconnect

/-! ## Steps -/

inductive Act where
  -- events of a socket
  | opened (socket : Nat)
  | message (socket : Nat) (data : Option Json)
  | failed (socket : Nat)
  | closed (socket : Nat) (code : Nat) (reason : String)
  | fire (timer : Nat) (throws : Bool)
  -- the next step of an emission
  | next
  -- calls of the handle
  | onEvent
  | close

/-- A socket fires events until its close event, when no other callback runs. -/
def State.socketAt (s : State) (i : Nat) : Option Socket :=
  match s.control with
  | .idle => s.sockets[i]?.filter fun socket => socket ≠ .dead
  | _ => none

def step (page : Page) (s : State) : Act → Option State
  | .opened i => (s.socketAt i).map fun _ =>
      ({ s with retryCount := 0 }.say (.opened i)).notifyStatus .connected .done
  | .message i data => (s.socketAt i).map fun _ =>
      match messageEvent data with
      | some event => s.emit (.message event) .done
      | none => s
  | .failed i => (s.socketAt i).map fun _ => s
  | .closed i code reason => (s.socketAt i).map fun socket =>
      let s := { s with sockets := s.sockets.set i .dead }
      -- `close()` has taken its handler away
      if socket = .closing then s else s.onclose code reason
  | .fire t throws =>
      match s.control with
      | .idle =>
          if t ∈ s.timers then
            let s := { s with timers := s.timers.erase t, retryTimer := none }
            some ((if s.closed then s else s.say .attempted).connect page throws)
          else none
      | _ => none
  | .next =>
      match s.control with
      | .idle => none
      | .emitting event index after =>
          match s.listeners[index]?, after with
          | some l, _ =>
              some ({ s with control := .emitting event (index + 1) after }.say (.called l event))
          | none, .done => some { s with control := .idle }
          | none, .setTimer => some { s with
              control := .idle
              retryTimer := some s.nextTimer
              timers := s.nextTimer :: s.timers
              nextTimer := s.nextTimer + 1 }
  | .onEvent => some ({ s with
      listeners := s.listeners ++ [s.nextListener]
      nextListener := s.nextListener + 1 }.say (.registered s.nextListener))
  | .close => some s.close

/-- `connectLiveStream`, for a constructor that throws or not. -/
def connectLiveStream (page : Page) (throws : Bool) : State := State.blank.connect page throws

/-! ## What the stream promises -/

/-- Attempts to reconnect since the last socket opened. -/
def attemptsSinceOpen : List Event → Nat
  | [] => 0
  | .opened _ :: _ => 0
  | .attempted :: past => attemptsSinceOpen past + 1
  | _ :: past => attemptsSinceOpen past

/-- An event may follow these: no socket after `close()` or after the stream went offline, which
it does once; at most ten attempts between two opens; and no call of a listener that was registered
before a `close()`. -/
def Proper (past : List Event) : Event → Prop
  | .created _ _ => .closed ∉ past ∧ .notified .offline ∉ past
  | .notified .offline => .notified .offline ∉ past
  | .attempted => attemptsSinceOpen past < maxRetries
  | .called l _ => ∀ later earlier, past = later ++ .closed :: earlier → .registered l ∉ earlier
  | _ => True

/-- Each event is proper after the ones before it. -/
def Lawful : List Event → Prop
  | [] => True
  | e :: past => Proper past e ∧ Lawful past

/-- How many timers are still to be set. -/
def Control.sets : Control → Nat
  | .emitting _ _ .setTimer => 1
  | _ => 0

/-- The timers that are set, or are about to be, and will create a socket when they fire. -/
def State.pending (s : State) : Nat :=
  if s.closed then 0 else s.timers.length + s.control.sets

def State.live (s : State) : Nat := s.sockets.count .live

/-- Either one socket that is open or opening, or one reconnect to come, or neither. -/
def OneConnection (s : State) : Prop := s.live + s.pending ≤ 1

/-- While the handle is not closed: attempts are counted, the only socket is the one that `ws`
names, and nothing is left once the stream is offline. -/
structure Sound (s : State) : Prop where
  lawful : Lawful s.log
  one : OneConnection s
  named : ∀ i : Nat, s.sockets[i]? = some .live → s.ws = some i
  gone : s.closed = true → s.live = 0
  closing : ∀ i : Nat, s.sockets[i]? = some .closing → s.closed = true
  closedLog : .closed ∈ s.log → s.closed = true
  retries : s.closed = false →
    attemptsSinceOpen s.log + s.pending ≤ s.retryCount ∧ s.retryCount ≤ maxRetries
  offline : s.closed = false → .notified .offline ∈ s.log → s.live = 0 ∧ s.pending = 0
  fresh : ∀ l ∈ s.listeners, ∀ later earlier, s.log = later ++ .closed :: earlier →
    .registered l ∉ earlier
  numbered : ∀ l, .registered l ∈ s.log → l < s.nextListener

variable {page : Page} {s s' : State}

theorem attemptsSinceOpen_cons_le {e : Event} (past : List Event) (h : e ≠ .attempted) :
    attemptsSinceOpen (e :: past) ≤ attemptsSinceOpen past := by
  cases e with
  | attempted => exact absurd rfl h
  | opened i => exact Nat.zero_le _
  | _ => exact le_rfl

/-- A split of a longer log at a `close()` that is not its newest event. -/
theorem split_cons {e : Event} {past later earlier : List Event} (he : e ≠ .closed)
    (h : e :: past = later ++ .closed :: earlier) :
    ∃ rest, past = rest ++ .closed :: earlier := by
  cases later with
  | nil =>
      cases h
      exact absurd rfl he
  | cons first rest =>
      cases h
      exact ⟨rest, rfl⟩

namespace Sound

theorem blank : Sound .blank := by
  constructor
  · trivial
  · exact Nat.zero_le 1
  · intro i hi
    cases hi
  · intro h
    rfl
  · intro i hi
    cases hi
  · intro h
    cases h
  · intro _
    exact ⟨Nat.zero_le _, Nat.zero_le _⟩
  · intro _ h
    cases h
  · intro l hl
    cases hl
  · intro l hl
    cases hl

theorem count_le (h : Sound s) {e : Event} (he : e ≠ .attempted) :
    s.closed = false → attemptsSinceOpen (e :: s.log) + s.pending ≤ s.retryCount := by
  intro hopen
  have hle := attemptsSinceOpen_cons_le s.log he
  exact le_trans (Nat.add_le_add_right hle _) (h.retries hopen).1

/-- Something happens that is neither a `close()` nor a registration. -/
theorem say (h : Sound s) {e : Event} (hproper : Proper s.log e) (hclosed : e ≠ .closed)
    (hregistered : ∀ l, e ≠ .registered l)
    (hcount : s.closed = false → attemptsSinceOpen (e :: s.log) + s.pending ≤ s.retryCount)
    (hoffline : e = .notified .offline → s.closed = false → s.live = 0 ∧ s.pending = 0) :
    Sound (s.say e) := by
  constructor
  · exact ⟨hproper, h.lawful⟩
  · exact h.one
  · exact h.named
  · exact h.gone
  · exact h.closing
  · intro hmem
    rcases List.mem_cons.mp hmem with heq | hmem
    · exact absurd heq.symm hclosed
    · exact h.closedLog hmem
  · intro hopen
    exact ⟨hcount hopen, (h.retries hopen).2⟩
  · intro hopen hmem
    rcases List.mem_cons.mp hmem with heq | hmem
    · exact hoffline heq.symm hopen
    · exact h.offline hopen hmem
  · intro l hl later earlier hlog
    obtain ⟨rest, hrest⟩ := split_cons hclosed hlog
    exact h.fresh l hl rest earlier hrest
  · intro l hl
    rcases List.mem_cons.mp hl with heq | hl
    · exact absurd heq.symm (hregistered l)
    · exact h.numbered l hl

/-- A status other than `offline` is notified. -/
theorem sayStatus (h : Sound s) {status : Status} (hstatus : status ≠ .offline) :
    Sound (s.say (.notified status)) := by
  apply h.say _ (by simp) (by simp) (h.count_le (by simp))
  · intro heq
    exact absurd (Event.notified.inj heq) hstatus
  · cases status with
    | offline => exact absurd rfl hstatus
    | _ => trivial

/-- Another point of control, and other timers and counts: the sum is what matters. -/
theorem timing (h : Sound s) (control : Control) (retryCount : Nat) {retryTimer : Option Nat}
    {timers : List Nat} {nextTimer : Nat}
    (hopen : s.closed = false → s.live + (timers.length + control.sets) ≤ 1 ∧
      attemptsSinceOpen s.log + (timers.length + control.sets) ≤ retryCount ∧
      retryCount ≤ maxRetries ∧
      (.notified .offline ∈ s.log → timers.length + control.sets = 0)) :
    Sound { s with
      control := control
      retryCount := retryCount
      retryTimer := retryTimer
      timers := timers
      nextTimer := nextTimer } := by
  have hpending : ({ s with
      control := control
      retryCount := retryCount
      retryTimer := retryTimer
      timers := timers
      nextTimer := nextTimer } : State).pending
        = if s.closed then 0 else timers.length + control.sets := rfl
  constructor
  · exact h.lawful
  · unfold OneConnection
    rw [hpending]
    split
    · rename_i hclosed
      exact (h.gone hclosed).le.trans (Nat.zero_le 1)
    · rename_i hclosed
      exact (hopen (Bool.not_eq_true _ ▸ hclosed)).1
  · exact h.named
  · exact h.gone
  · exact h.closing
  · exact h.closedLog
  · intro hclosed
    rw [hpending, if_neg (by rw [hclosed]; decide)]
    exact ⟨(hopen hclosed).2.1, (hopen hclosed).2.2.1⟩
  · intro hclosed hmem
    rw [hpending, if_neg (by rw [hclosed]; decide)]
    exact ⟨(h.offline hclosed hmem).1, (hopen hclosed).2.2.2 hmem⟩
  · exact h.fresh
  · exact h.numbered

theorem pending_open (hopen : s.closed = false) :
    s.pending = s.timers.length + s.control.sets := by
  unfold State.pending
  rw [if_neg (by rw [hopen]; decide)]

/-- The control moves on, with the same timer still to be set, or none. -/
theorem goto (h : Sound s) {control : Control} (hsets : control.sets = s.control.sets) :
    Sound { s with control := control } := by
  apply h.timing
  intro hopen
  have hone : s.live + s.pending ≤ 1 := h.one
  obtain ⟨hcount, hmax⟩ := h.retries hopen
  have hoff := h.offline hopen
  rw [pending_open hopen] at hone hcount hoff
  rw [hsets]
  exact ⟨hone, hcount, hmax, fun hmem => (hoff hmem).2⟩

/-- Nothing is connected and nothing is to come, but the stream is not offline. -/
structure Adrift (s : State) : Prop where
  isOpen : s.closed = false
  live : s.live = 0
  pending : s.pending = 0
  online : .notified .offline ∉ s.log

theorem notifyOffline (h : Sound s) (ha : Adrift s) : Sound (s.notifyStatus .offline .done) := by
  have hsaid : Sound (s.say (.notified .offline)) :=
    h.say ha.online (by simp) (by simp) (h.count_le (by simp)) fun _ _ => ⟨ha.live, ha.pending⟩
  apply hsaid.goto
  have hpending := ha.pending
  rw [pending_open ha.isOpen] at hpending
  exact (Nat.eq_zero_of_add_eq_zero_left hpending).symm

theorem scheduleReconnect (h : Sound s) (ha : Adrift s) : Sound s.scheduleReconnect := by
  have hpending := ha.pending
  rw [pending_open ha.isOpen] at hpending
  obtain ⟨hcount, hmax⟩ := h.retries ha.isOpen
  rw [ha.pending] at hcount
  unfold State.scheduleReconnect
  rw [if_neg (by rw [ha.isOpen]; decide)]
  split
  · exact h.notifyOffline ha
  · have hsaid : Sound (s.say (.notified .reconnecting)) := h.sayStatus (by simp)
    apply hsaid.timing (.emitting (.status .reconnecting) 0 .setTimer) (s.retryCount + 1)
    intro _
    have hlive := ha.live
    have hsum : s.timers.length + Control.sets (.emitting (.status .reconnecting) 0 .setTimer) = 1 :=
      congrArg (· + 1) (Nat.eq_zero_of_add_eq_zero_right hpending)
    change s.live + _ ≤ 1 ∧ attemptsSinceOpen s.log + _ ≤ _ ∧ _
    refine ⟨?_, ?_, by omega, fun hmem => ?_⟩
    · change s.live + (s.timers.length + _) ≤ 1
      omega
    · change attemptsSinceOpen s.log + (s.timers.length + _) ≤ _
      omega
    · rcases List.mem_cons.mp hmem with heq | hmem
      · cases heq
      · exact absurd hmem ha.online

theorem none_live (hlive : s.live = 0) (i : Nat) : s.sockets[i]? ≠ some .live := by
  intro hi
  exact List.count_eq_zero.mp hlive (List.mem_of_getElem? hi)

theorem connect (h : Sound s) (ha : s.closed = false → Adrift s) (throws : Bool) :
    Sound (s.connect page throws) := by
  unfold State.connect
  split
  · exact h
  rename_i hclosed
  have hopen : s.closed = false := Bool.not_eq_true _ ▸ hclosed
  have ha := ha hopen
  split
  · exact h.scheduleReconnect ha
  constructor
  · exact ⟨⟨fun hmem => hclosed (h.closedLog hmem), ha.online⟩, h.lawful⟩
  · have hlive := ha.live
    have hcount : (s.sockets ++ [Socket.live]).count .live = s.live + 1 := List.count_append
    have hpending := ha.pending
    change (s.sockets ++ [Socket.live]).count .live + s.pending ≤ 1
    omega
  · intro i hi
    rcases Nat.lt_trichotomy i s.sockets.length with hlt | rfl | hgt
    · rw [show (State.say _ _).sockets = s.sockets ++ [.live] from rfl,
        List.getElem?_append_left hlt] at hi
      exact absurd hi (none_live ha.live i)
    · rfl
    · have hnone : (s.sockets ++ [Socket.live])[i]? = none := by simp; omega
      exact absurd (hnone.symm.trans hi) (by simp)
  · intro htrue
    exact absurd htrue hclosed
  · intro i hi
    rcases Nat.lt_or_ge i s.sockets.length with hlt | hge
    · rw [show (State.say _ _).sockets = s.sockets ++ [.live] from rfl,
        List.getElem?_append_left hlt] at hi
      exact h.closing i hi
    · rw [show (State.say _ _).sockets = s.sockets ++ [.live] from rfl,
        List.getElem?_append_right hge] at hi
      have hmem := List.mem_of_getElem? hi
      simp at hmem
  · intro hmem
    rcases List.mem_cons.mp hmem with heq | hmem
    · cases heq
    · exact h.closedLog hmem
  · exact h.retries
  · intro _ hmem
    rcases List.mem_cons.mp hmem with heq | hmem
    · cases heq
    · exact absurd hmem ha.online
  · intro l hl later earlier hlog
    obtain ⟨rest, hrest⟩ := split_cons (by simp) hlog
    exact h.fresh l hl rest earlier hrest
  · intro l hl
    rcases List.mem_cons.mp hl with heq | hl
    · cases heq
    · exact h.numbered l hl

/-- When the live socket changes there is none. -/
theorem live_set (h : Sound s) {i : Nat} {socket : Socket} (hi : s.sockets[i]? = some .live)
    (hsocket : socket ≠ .live) : (s.sockets.set i socket).count .live = 0 := by
  obtain ⟨hlt, hget⟩ := List.getElem?_eq_some_iff.mp hi
  have hone : s.sockets.count .live + s.pending ≤ 1 := h.one
  rw [List.count_set hlt, hget, if_pos (by simp), if_neg (by simpa using hsocket)]
  omega

/-- A socket that is not live stays so. -/
theorem live_set_other {i : Nat} {socket : Socket} (hi : s.sockets[i]? ≠ some .live)
    (hsocket : socket ≠ .live) : (s.sockets.set i socket).count .live = s.live := by
  by_cases hlt : i < s.sockets.length
  · rw [List.getElem?_eq_getElem hlt] at hi
    have hne : s.sockets[i] ≠ .live := fun heq => hi (congrArg some heq)
    rw [List.count_set hlt, if_neg (by simpa using hne), if_neg (by simpa using hsocket)]
    rfl
  · rw [List.set_eq_of_length_le (by omega)]
    rfl

theorem close (h : Sound s) : Sound s.close := by
  have hlive : s.close.live = 0 := by
    change List.count _ (match s.ws with
      | some i => s.sockets.set i .closing
      | none => s.sockets) = 0
    cases hws : s.ws with
    | none =>
        apply List.count_eq_zero.mpr
        intro hmem
        obtain ⟨i, hi⟩ := List.mem_iff_getElem?.mp hmem
        have := h.named i hi
        rw [hws] at this
        cases this
    | some i =>
        by_cases hi : s.sockets[i]? = some .live
        · exact h.live_set hi (by simp)
        · refine (live_set_other hi (by simp)).trans ?_
          apply List.count_eq_zero.mpr
          intro hmem
          obtain ⟨j, hj⟩ := List.mem_iff_getElem?.mp hmem
          have hname := h.named j hj
          rw [hws] at hname
          exact hi (Option.some.inj hname ▸ hj)
  constructor
  · exact ⟨trivial, h.lawful⟩
  · exact hlive.le.trans (Nat.zero_le 1)
  · intro i hi
    exact absurd hi (none_live hlive i)
  · exact fun _ => hlive
  · exact fun _ _ => rfl
  · exact fun _ => rfl
  · intro hopen
    cases hopen
  · intro hopen
    cases hopen
  · intro l hl
    cases hl
  · intro l hl
    rcases List.mem_cons.mp hl with heq | hl
    · cases heq
    · exact h.numbered l hl

theorem live_pos {i : Nat} (hi : s.sockets[i]? = some .live) : 0 < s.live :=
  List.count_pos_iff.mpr (List.mem_of_getElem? hi)

/-- A live socket is one of a handle that is not closed, with no timer and not offline. -/
theorem of_live (h : Sound s) {i : Nat} (hi : s.sockets[i]? = some .live) :
    s.closed = false ∧ s.pending = 0 ∧ .notified .offline ∉ s.log := by
  have hpos := live_pos hi
  have hone : s.live + s.pending ≤ 1 := h.one
  have hopen : s.closed = false := by
    by_contra hclosed
    rw [Bool.not_eq_false] at hclosed
    have := h.gone hclosed
    omega
  refine ⟨hopen, by omega, fun hmem => ?_⟩
  have := (h.offline hopen hmem).1
  omega

/-- The close event of the live socket leaves the stream adrift. -/
theorem lose (h : Sound s) {i : Nat} (hi : s.sockets[i]? = some .live) :
    Sound { s with sockets := s.sockets.set i .dead, ws := none } ∧
      Adrift { s with sockets := s.sockets.set i .dead, ws := none } := by
  obtain ⟨hopen, hpending, honline⟩ := h.of_live hi
  have hlive := h.live_set hi (show Socket.dead ≠ .live by simp)
  constructor
  · constructor
    · exact h.lawful
    · change (s.sockets.set i .dead).count .live + s.pending ≤ 1
      omega
    · intro j hj
      exact absurd (List.mem_of_getElem? hj) (List.count_eq_zero.mp hlive)
    · exact fun _ => hlive
    · intro j hj
      by_cases hij : i = j
      · subst hij
        obtain ⟨hlt, -⟩ := List.getElem?_eq_some_iff.mp hi
        rw [List.getElem?_set_self hlt] at hj
        cases hj
      · rw [List.getElem?_set_ne hij] at hj
        exact h.closing j hj
    · exact h.closedLog
    · exact h.retries
    · exact fun _ hmem => absurd hmem honline
    · exact h.fresh
    · exact h.numbered
  · exact ⟨hopen, hlive, hpending, honline⟩

/-- The close event of a socket that `close()` has been called on. -/
theorem drop (h : Sound s) {i : Nat} (hi : s.sockets[i]? = some .closing) :
    Sound { s with sockets := s.sockets.set i .dead } := by
  have hclosed := h.closing i hi
  have hlive : (s.sockets.set i .dead).count .live = 0 := by
    rw [live_set_other (by rw [hi]; simp) (by simp)]
    exact h.gone hclosed
  have hpending : s.pending = 0 := if_pos hclosed
  constructor
  · exact h.lawful
  · change (s.sockets.set i .dead).count .live + s.pending ≤ 1
    omega
  · intro j hj
    exact absurd (List.mem_of_getElem? hj) (List.count_eq_zero.mp hlive)
  · exact fun _ => hlive
  · exact fun _ _ => hclosed
  · exact h.closedLog
  · exact h.retries
  · intro hopen
    exact absurd (hopen.symm.trans hclosed) (by decide)
  · exact h.fresh
  · exact h.numbered

theorem onclose (h : Sound s) {i : Nat} (hi : s.sockets[i]? = some .live) (code : Nat)
    (reason : String) :
    Sound (({ s with sockets := s.sockets.set i .dead } : State).onclose code reason) := by
  obtain ⟨hlost, ha⟩ := h.lose hi
  unfold State.onclose
  dsimp only
  split
  · exact hlost
  · split
    · exact hlost.notifyOffline ha
    · exact hlost.scheduleReconnect ha

/-- The open event of a socket. -/
theorem opened (h : Sound s) {i : Nat} {socket : Socket} (hi : s.socketAt i = some socket) :
    Sound (({ s with retryCount := 0 }.say (.opened i)).notifyStatus .connected .done) := by
  have hcontrol : s.control.sets = 0 ∧ s.sockets[i]? = some socket ∧ socket ≠ .dead := by
    unfold State.socketAt at hi
    split at hi
    · rename_i hidle
      obtain ⟨hget, hne⟩ := Option.filter_eq_some_iff.mp hi
      rw [hidle]
      exact ⟨rfl, hget, by simpa using hne⟩
    · cases hi
  obtain ⟨hsets, hget, hdead⟩ := hcontrol
  have hsaid : Sound ((s.say (.opened i)).say (.notified .connected)) :=
    (h.say (e := .opened i) trivial (by simp) (by simp) (h.count_le (by simp))
      (by simp)).sayStatus (by simp)
  apply hsaid.timing (.emitting (.status .connected) 0 .done) 0
  intro hopen
  change s.closed = false at hopen
  have hlive : s.sockets[i]? = some .live := by
    cases socket with
    | live => exact hget
    | closing => exact absurd (h.closing i hget) (by rw [hopen]; decide)
    | dead => exact absurd rfl hdead
  obtain ⟨-, hpending, honline⟩ := h.of_live hlive
  have hone : s.live + s.pending ≤ 1 := h.one
  rw [pending_open hopen] at hpending hone
  have htimers : s.timers.length = 0 := Nat.eq_zero_of_add_eq_zero_right hpending
  change s.live + (s.timers.length + 0) ≤ 1 ∧ 0 + (s.timers.length + 0) ≤ 0 ∧ _ ∧ _
  refine ⟨by omega, by omega, Nat.zero_le _, fun _ => ?_⟩
  exact htimers

/-- A timer fires: the reconnect that was to come is attempted. -/
theorem fire (h : Sound s) (hidle : s.control = .idle) {t : Nat} (ht : t ∈ s.timers)
    (throws : Bool) :
    Sound ((if ({ s with timers := s.timers.erase t, retryTimer := none } : State).closed
      then { s with timers := s.timers.erase t, retryTimer := none }
      else ({ s with timers := s.timers.erase t, retryTimer := none } : State).say
        .attempted).connect page throws) := by
  have hlength := List.length_erase_of_mem ht
  have hpos := List.length_pos_of_mem ht
  have hsets : s.control.sets = 0 := by rw [hidle]; rfl
  have hone : s.live + s.pending ≤ 1 := h.one
  have herased : Sound { s with timers := s.timers.erase t, retryTimer := none } := by
    apply h.timing
    intro hopen
    obtain ⟨hcount, hmax⟩ := h.retries hopen
    rw [pending_open hopen] at hone hcount
    exact ⟨by omega, by omega, hmax, fun hmem => by omega⟩
  split
  · rename_i hclosed
    exact herased.connect (fun hopen => absurd (hopen.symm.trans hclosed) (by decide)) throws
  · rename_i hclosed
    have hopen : s.closed = false := Bool.not_eq_true _ ▸ hclosed
    obtain ⟨hcount, hmax⟩ := h.retries hopen
    have hoffline := h.offline hopen
    rw [pending_open hopen] at hone hcount hoffline
    have hpending : ({ s with timers := s.timers.erase t, retryTimer := none } : State).pending = 0 := by
      refine (pending_open (s := { s with timers := s.timers.erase t, retryTimer := none })
        hopen).trans ?_
      change (s.timers.erase t).length + s.control.sets = 0
      omega
    have hsaid := herased.say (e := .attempted)
      (show attemptsSinceOpen s.log < maxRetries by omega) (by simp) (by simp)
      (fun _ => by
        rw [hpending]
        change attemptsSinceOpen s.log + 1 + 0 ≤ s.retryCount
        omega) (by simp)
    apply hsaid.connect (fun _ => ⟨hopen, ?_, hpending, ?_⟩) throws
    · change s.live = 0
      omega
    · intro hmem
      rcases List.mem_cons.mp hmem with heq | hmem
      · cases heq
      · have := (hoffline hmem).2
        omega

theorem onEvent (h : Sound s) : Sound ({ s with
    listeners := s.listeners ++ [s.nextListener]
    nextListener := s.nextListener + 1 }.say (.registered s.nextListener)) := by
  constructor
  · exact ⟨trivial, h.lawful⟩
  · exact h.one
  · exact h.named
  · exact h.gone
  · exact h.closing
  · intro hmem
    rcases List.mem_cons.mp hmem with heq | hmem
    · cases heq
    · exact h.closedLog hmem
  · exact h.retries
  · intro hopen hmem
    rcases List.mem_cons.mp hmem with heq | hmem
    · cases heq
    · exact h.offline hopen hmem
  · intro l hl later earlier hlog
    obtain ⟨rest, hrest⟩ := split_cons (by simp) hlog
    rcases List.mem_append.mp hl with hl | hl
    · exact h.fresh l hl rest earlier hrest
    · intro hmem
      rw [List.mem_singleton.mp hl] at hmem
      have hold : Event.registered s.nextListener ∈ s.log := by
        rw [hrest]
        exact List.mem_append_right _ (List.mem_cons_of_mem _ hmem)
      exact Nat.lt_irrefl _ (h.numbered _ hold)
  · intro l hl
    rcases List.mem_cons.mp hl with heq | hl
    · cases heq
      exact Nat.lt_succ_self _
    · exact (h.numbered l hl).trans (Nat.lt_succ_self _)

theorem socketAt_eq_some {i : Nat} {socket : Socket} :
    s.socketAt i = some socket ↔
      s.control = .idle ∧ s.sockets[i]? = some socket ∧ socket ≠ .dead := by
  unfold State.socketAt
  cases s.control with
  | idle => simp [Option.filter_eq_some_iff]
  | emitting event index after => simp

/-- What one step keeps. -/
theorem step {a : Act} (h : Sound s) (hs : step page s a = some s') : Sound s' := by
  cases a with
  | opened i =>
      obtain ⟨socket, hi, rfl⟩ := Option.map_eq_some_iff.mp hs
      exact h.opened hi
  | message i data =>
      obtain ⟨socket, hi, rfl⟩ := Option.map_eq_some_iff.mp hs
      obtain ⟨hidle, -, -⟩ := socketAt_eq_some.mp hi
      split
      · exact h.goto (by rw [hidle]; rfl)
      · exact h
  | failed i =>
      obtain ⟨socket, -, rfl⟩ := Option.map_eq_some_iff.mp hs
      exact h
  | closed i code reason =>
      obtain ⟨socket, hi, rfl⟩ := Option.map_eq_some_iff.mp hs
      obtain ⟨-, hget, hdead⟩ := socketAt_eq_some.mp hi
      cases socket with
      | live => exact h.onclose hget code reason
      | closing => exact h.drop hget
      | dead => exact absurd rfl hdead
  | fire t throws =>
      simp only [LiveStream.step] at hs
      split at hs
      · rename_i hidle
        split at hs
        · rename_i ht
          cases hs
          exact h.fire hidle ht throws
        · cases hs
      · cases hs
  | next =>
      simp only [LiveStream.step] at hs
      split at hs
      · cases hs
      · rename_i event index after hcontrol
        cases hlistener : s.listeners[index]? with
        | some l =>
            rw [hlistener] at hs
            cases hs
            have hmoved : Sound { s with control := .emitting event (index + 1) after } := by
              apply h.goto
              rw [hcontrol]
              cases after <;> rfl
            exact hmoved.say (e := .called l event) (h.fresh l (List.mem_of_getElem? hlistener))
              (by simp) (by simp) (hmoved.count_le (by simp)) (by simp)
        | none =>
            rw [hlistener] at hs
            cases after with
            | done =>
                cases hs
                apply h.goto
                rw [hcontrol]
                rfl
            | setTimer =>
                cases hs
                apply h.timing
                intro hopen
                have hone : s.live + s.pending ≤ 1 := h.one
                obtain ⟨hcount, hmax⟩ := h.retries hopen
                have hoffline := h.offline hopen
                rw [pending_open hopen, hcontrol] at hone hcount hoffline
                exact ⟨hone, hcount, hmax, fun hmem => (hoffline hmem).2⟩
  | onEvent =>
      cases hs
      exact h.onEvent
  | close =>
      cases hs
      exact h.close

end Sound

/-- In every run of a handle, whatever sockets, timers and listeners do: there is one connection
or one reconnect to come at most, and every event is proper after the ones before it. -/
theorem connectLiveStream_lawful (page : Page) (throws : Bool) (acts : List Act) (s : State)
    (hrun : Trace.run (step page) (connectLiveStream page throws) acts = some s) :
    OneConnection s ∧ Lawful s.log := by
  have hstart : Sound (connectLiveStream page throws) :=
    Sound.blank.connect (fun _ => ⟨rfl, rfl, rfl, List.not_mem_nil⟩) throws
  have hsound : Sound s := Trace.run_keeps (fun _ _ _ h hs => h.step hs) hstart hrun
  exact ⟨hsound.one, hsound.lawful⟩

end LiveStream

namespace Sample

def livePage : LiveStream.Page := ⟨true, "example.com", none⟩

/-- The socket is lost, and the only listener closes the handle when it hears of the reconnect. The
timer that is set all the same creates nothing. -/
def closedWithin : List LiveStream.Act :=
  [.onEvent, .opened 0, .next, .next, .closed 0 1006 "", .next, .close, .next, .fire 0 false]

def abandoned : LiveStream.State :=
  (Trace.run (LiveStream.step livePage) (LiveStream.connectLiveStream livePage false)
    closedWithin).get (by decide)

example : abandoned.sockets = [.dead] ∧ abandoned.timers = [] := by decide

end Sample

theorem LiveStream.connectLiveStream_lawful_abandoned :
    LiveStream.OneConnection Sample.abandoned ∧ LiveStream.Lawful Sample.abandoned.log :=
  LiveStream.connectLiveStream_lawful Sample.livePage false Sample.closedWithin Sample.abandoned
    (Option.some_get _).symm

end FullStackHex
