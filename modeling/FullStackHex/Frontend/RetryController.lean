import FullStackHex.Library.Trace

/-!
The retry controller of `lib/health.ts`. It keeps the handle of one timer; the timers that are
really pending are the browser's. `onRetry` and `onGiveUp` may call the controller themselves, so
the callback of a timer is a sequence of steps.
-/

namespace FullStackHex

namespace RetryController

structure Options where
  maxDelay : ℚ
  initialDelay : ℚ
  maxAttempts : Option Nat
  onGiveUp : Bool
  deriving DecidableEq

/-- The variables of the closure, and the timers of the browser that have not fired. -/
structure Controller where
  timer : Option Nat
  delay : ℚ
  attempts : Nat
  pending : List Nat
  next : Nat
  deriving DecidableEq

namespace Controller

def create (o : Options) : Controller := ⟨none, o.initialDelay, 0, [], 0⟩

def schedule (c : Controller) : Controller :=
  { c with timer := some c.next, pending := c.next :: c.pending, next := c.next + 1 }

def doCancel (c : Controller) : Controller :=
  match c.timer with
  | some handle => { c with timer := none, pending := c.pending.filter (· ≠ handle) }
  | none => c

def doReset (o : Options) (c : Controller) : Controller :=
  { c.doCancel with delay := o.initialDelay, attempts := 0 }

def doStart (c : Controller) : Controller := { c.doCancel with attempts := 0 }.schedule

/-- The timer fires: it is not pending any more, but its handle stays. -/
def fired (c : Controller) (handle : Nat) : Controller :=
  { c with pending := c.pending.filter (· ≠ handle) }

/-- The condition after `attempts++`. -/
def givesUp (o : Options) (c : Controller) : Bool := o.maxAttempts.any (· ≤ c.attempts + 1)

def gaveUp (c : Controller) : Controller := { c with attempts := c.attempts + 1, timer := none }

/-- What the callback does with its delay, and then with its next timer. -/
def goOn (o : Options) (c : Controller) : Controller :=
  { c with
    attempts := c.attempts + 1
    delay := if c.delay < o.maxDelay then min (c.delay * 2) o.maxDelay else c.delay }.schedule

end Controller

/-! ## Runs -/

inductive Op where
  | start
  | cancel
  | reset
  deriving DecidableEq, Repr

inductive Event where
  | called (op : Op)
  | scheduled (delay : ℚ)
  | retried
  | gaveUp
  deriving DecidableEq

/-- Which function of the user is running. -/
inductive Control where
  | idle
  | retrying
  | givingUp
  deriving DecidableEq, Repr

inductive Label where
  /-- A call from outside, or from the function that is running. -/
  | call (op : Op)
  | fire (handle : Nat)
  | returns
  | throws
  deriving DecidableEq, Repr

/-- The last event of the log is the first of the list. -/
structure Run where
  controller : Controller
  control : Control
  log : List Event
  deriving DecidableEq

namespace Run

def initial (o : Options) : Run := ⟨.create o, .idle, []⟩

def call (o : Options) (s : Run) : Op → Run
  | .start => { s with
      controller := s.controller.doStart
      log := .scheduled s.controller.delay :: .called .start :: s.log }
  | .cancel => { s with controller := s.controller.doCancel, log := .called .cancel :: s.log }
  | .reset => { s with controller := s.controller.doReset o, log := .called .reset :: s.log }

/-- The callback after `onRetry`. -/
def afterRetry (o : Options) (s : Run) : Run :=
  if s.controller.givesUp o then
    if o.onGiveUp then ⟨s.controller.gaveUp, .givingUp, .gaveUp :: s.log⟩
    else ⟨s.controller.gaveUp, .idle, s.log⟩
  else
    ⟨s.controller.goOn o, .idle, .scheduled (s.controller.goOn o).delay :: s.log⟩

def step (o : Options) (s : Run) : Label → Option Run
  | .call op => some (s.call o op)
  | .fire handle =>
      if s.control = .idle ∧ handle ∈ s.controller.pending then
        some ⟨s.controller.fired handle, .retrying, .retried :: s.log⟩
      else none
  | .returns =>
      match s.control with
      | .idle => none
      | .retrying => some (s.afterRetry o)
      | .givingUp => some { s with control := .idle }
  | .throws => if s.control = .idle then none else some { s with control := .idle }

end Run

/-! ## What is promised -/

/-- The controller was started, and has not been cancelled or reset since. -/
def running : List Event → Bool
  | [] => false
  | .called .start :: _ => true
  | .called _ :: _ => false
  | _ :: older => running older

/-- `onRetry` is only called while the controller is running. -/
def Silent : List Event → Prop
  | [] => True
  | .retried :: older => running older = true ∧ Silent older
  | _ :: older => Silent older

/-- How often an event has come since the last start. -/
def sinceStart (e : Event) (log : List Event) : Nat :=
  (log.takeWhile (· ≠ .called .start)).count e

/-- A delay that comes from the first one by doubling, up to the greatest. -/
def Doubled (o : Options) (delay : ℚ) : Prop :=
  ∃ k : Nat, delay = min (o.initialDelay * 2 ^ k) o.maxDelay

structure Proper (o : Options) (s : Run) : Prop where
  timers : s.controller.pending.length ≤ 1
  silent : Silent s.log
  delays : o.initialDelay ≤ o.maxDelay → ∀ delay, .scheduled delay ∈ s.log → Doubled o delay
  bounded : ∀ n, o.maxAttempts = some n →
    sinceStart .retried s.log ≤ n ∧ sinceStart .gaveUp s.log ≤ 1

/-- When `onRetry` returns, the last thing that has happened is that it was called, or the controller
gives up and no timer is pending. With no attempts at all, no timer fires. -/
def Harmless (o : Options) (s : Run) : Label → Prop
  | .fire _ => o.maxAttempts ≠ some 0
  | .returns => s.control = .retrying →
      if s.controller.givesUp o then s.controller.pending = [] else s.log.head? = some .retried
  | _ => True

instance (o : Options) (s : Run) (label : Label) : Decidable (Harmless o s label) := by
  cases label <;> unfold Harmless <;> infer_instance

/-! ## The log -/

section Log

variable {e : Event} {log : List Event}

theorem sinceStart_start : sinceStart e (.called .start :: log) = 0 := by
  unfold sinceStart
  rw [List.takeWhile_cons_of_neg (by simp)]
  rfl

theorem sinceStart_same (e : Event) (log : List Event) (he : e ≠ .called .start) :
    sinceStart e (e :: log) = sinceStart e log + 1 := by
  unfold sinceStart
  rw [List.takeWhile_cons_of_pos (by simpa using he), List.count_cons_self]

theorem sinceStart_other (e x : Event) (log : List Event) (hx : x ≠ .called .start) (hne : x ≠ e) :
    sinceStart e (x :: log) = sinceStart e log := by
  unfold sinceStart
  rw [List.takeWhile_cons_of_pos (by simpa using hx), List.count_cons_of_ne hne]

end Log

/-! ## The controller -/

namespace Controller

variable {o : Options} {c : Controller}

/-- No timer is pending but that of the handle. -/
def Held (c : Controller) : Prop :=
  c.pending = [] ∨ ∃ handle, c.pending = [handle] ∧ c.timer = some handle

theorem Held.doCancel (h : c.Held) : c.doCancel.pending = [] := by
  rcases h with hnone | ⟨handle, hpending, htimer⟩
  · unfold Controller.doCancel
    split
    · rw [hnone]
      rfl
    · exact hnone
  · unfold Controller.doCancel
    rw [htimer]
    dsimp only
    rw [hpending]
    simp

theorem doCancel_delay : c.doCancel.delay = c.delay := by
  unfold doCancel
  split
  · rfl
  · rfl

theorem held_schedule (h : c.pending = []) : c.schedule.Held := by
  refine .inr ⟨c.next, ?_, rfl⟩
  change c.next :: c.pending = _
  rw [h]

theorem Held.fired {handle : Nat} (h : c.Held) (hmem : handle ∈ c.pending) :
    (c.fired handle).pending = [] := by
  rcases h with hnone | ⟨handle', hpending, -⟩
  · rw [hnone] at hmem
    exact absurd hmem List.not_mem_nil
  · unfold Controller.fired
    rw [hpending] at hmem ⊢
    obtain rfl := List.mem_singleton.mp hmem
    simp

theorem doubled_initial (h : o.initialDelay ≤ o.maxDelay) : Doubled o o.initialDelay :=
  ⟨0, by rw [pow_zero, mul_one, min_eq_left h]⟩

theorem doubled_goOn (h : Doubled o c.delay) : Doubled o (c.goOn o).delay := by
  obtain ⟨k, hk⟩ := h
  change Doubled o (if c.delay < o.maxDelay then min (c.delay * 2) o.maxDelay else c.delay)
  split_ifs with hless
  · refine ⟨k + 1, ?_⟩
    have hbelow : c.delay = o.initialDelay * 2 ^ k := by
      rcases min_choice (o.initialDelay * 2 ^ k) o.maxDelay with hmin | hmin
      · exact hk.trans hmin
      · exact absurd (hk.trans hmin) hless.ne
    rw [hbelow, pow_succ, mul_assoc]
  · exact ⟨k, hk⟩

end Controller

/-! ## Runs in which the calls are harmless -/

structure Run.Sound (o : Options) (s : Run) : Prop where
  held : s.controller.Held
  /-- Whoever waits for a timer was started, and has attempts left. -/
  armed : s.controller.pending ≠ [] → running s.log = true ∧
    sinceStart .retried s.log = s.controller.attempts ∧ sinceStart .gaveUp s.log = 0 ∧
    ∀ n, o.maxAttempts = some n → n = 0 ∨ s.controller.attempts < n
  retrying : s.control = .retrying → sinceStart .gaveUp s.log = 0 ∧
    (s.log.head? = some .retried → s.controller.pending = [] ∧ running s.log = true ∧
      sinceStart .retried s.log = s.controller.attempts + 1)
  bounded : ∀ n, o.maxAttempts = some n →
    sinceStart .retried s.log ≤ n ∧ sinceStart .gaveUp s.log ≤ 1
  silent : Silent s.log
  delay : o.initialDelay ≤ o.maxDelay → Doubled o s.controller.delay
  delays : o.initialDelay ≤ o.maxDelay → ∀ delay, .scheduled delay ∈ s.log → Doubled o delay

section Steps

variable {o : Options} {s s' : Run}

theorem Run.Sound.proper (h : s.Sound o) : Proper o s where
  timers := by
    rcases h.held with hnone | ⟨handle, hpending, -⟩
    · rw [hnone]
      exact Nat.zero_le 1
    · rw [hpending]
      exact Nat.le_refl 1
  silent := h.silent
  delays := h.delays
  bounded := h.bounded

theorem Run.Sound.initial : (Run.initial o).Sound o where
  held := .inl rfl
  armed := fun hpending => absurd rfl hpending
  retrying := fun heq => nomatch heq
  bounded := fun n _ => ⟨Nat.zero_le n, Nat.zero_le 1⟩
  silent := trivial
  delay := Controller.doubled_initial
  delays := fun _ _ hmem => absurd hmem List.not_mem_nil

theorem Run.Sound.start (h : s.Sound o) : (s.call o .start).Sound o := by
  have hzero : ∀ e : Event, (∀ delay, e ≠ .scheduled delay) →
      sinceStart e (.scheduled s.controller.delay :: .called .start :: s.log) = 0 := by
    intro e he
    have hother := sinceStart_other e (.scheduled s.controller.delay) (.called .start :: s.log)
      (fun heq => nomatch heq) (he _).symm
    exact hother.trans sinceStart_start
  have hretried := hzero .retried fun _ heq => nomatch heq
  have hgaveUp := hzero .gaveUp fun _ heq => nomatch heq
  exact {
    held := Controller.held_schedule h.held.doCancel
    armed := fun _ => ⟨rfl, hretried, hgaveUp, fun n _ => Nat.eq_zero_or_pos n⟩
    retrying := fun _ => ⟨hgaveUp, fun heq => nomatch Option.some.inj heq⟩
    bounded := fun n _ => ⟨hretried.le.trans (Nat.zero_le n), hgaveUp.le.trans (Nat.zero_le 1)⟩
    silent := h.silent
    delay := fun hle => by
      change Doubled o s.controller.doCancel.delay
      rw [Controller.doCancel_delay]
      exact h.delay hle
    delays := by
      intro hle delay hmem
      rcases List.mem_cons.mp hmem with hnew | hold
      · obtain rfl := Event.scheduled.inj hnew
        exact h.delay hle
      · exact h.delays hle delay ((List.mem_cons.mp hold).resolve_left fun heq => nomatch heq) }

/-- A call after which no timer is pending. -/
theorem Run.Sound.stop (op : Op) (h : s.Sound o) (hop : op ≠ .start)
    (hlog : s'.log = .called op :: s.log) (hpending : s'.controller.pending = [])
    (hdelay : o.initialDelay ≤ o.maxDelay → Doubled o s'.controller.delay)
    (hcontrol : s'.control = s.control) : s'.Sound o := by
  have hnew : Event.called op ≠ .called .start := fun heq => hop (Event.called.inj heq)
  have hretried : sinceStart .retried s'.log = sinceStart .retried s.log := by
    rw [hlog]
    exact sinceStart_other _ _ _ hnew fun heq => nomatch heq
  have hgaveUp : sinceStart .gaveUp s'.log = sinceStart .gaveUp s.log := by
    rw [hlog]
    exact sinceStart_other _ _ _ hnew fun heq => nomatch heq
  exact {
    held := .inl hpending
    armed := fun hne => absurd hpending hne
    retrying := by
      intro hretrying
      rw [hgaveUp, hlog]
      exact ⟨(h.retrying (hcontrol.symm.trans hretrying)).1, fun heq => nomatch Option.some.inj heq⟩
    bounded := by
      rw [hretried, hgaveUp]
      exact h.bounded
    silent := by
      rw [hlog]
      exact h.silent
    delay := hdelay
    delays := by
      intro hle delay hmem
      rw [hlog] at hmem
      exact h.delays hle delay ((List.mem_cons.mp hmem).resolve_left fun heq => nomatch heq) }

theorem Run.Sound.call (h : s.Sound o) (op : Op) : (s.call o op).Sound o := by
  cases op with
  | start => exact h.start
  | cancel =>
      have hdelay : o.initialDelay ≤ o.maxDelay → Doubled o s.controller.doCancel.delay := by
        rw [Controller.doCancel_delay]
        exact h.delay
      exact h.stop .cancel (fun heq => nomatch heq) rfl h.held.doCancel hdelay rfl
  | reset =>
      exact h.stop .reset (fun heq => nomatch heq) rfl h.held.doCancel
        Controller.doubled_initial rfl

theorem Run.Sound.fire {handle : Nat} (h : s.Sound o) (hsome : o.maxAttempts ≠ some 0)
    (hmem : handle ∈ s.controller.pending) :
    Run.Sound o ⟨s.controller.fired handle, .retrying, .retried :: s.log⟩ := by
  obtain ⟨hrunning, hretried, hgaveUp, hattempts⟩ := h.armed (List.ne_nil_of_mem hmem)
  have hnone : (s.controller.fired handle).pending = [] := h.held.fired hmem
  have hcount : sinceStart .retried (.retried :: s.log) = s.controller.attempts + 1 := by
    rw [sinceStart_same .retried s.log (fun heq => nomatch heq), hretried]
  have hnever : sinceStart .gaveUp (.retried :: s.log) = 0 := by
    rw [← hgaveUp]
    exact sinceStart_other _ _ _ (fun heq => nomatch heq) (fun heq => nomatch heq)
  exact {
    held := .inl hnone
    armed := fun hne => absurd hnone hne
    retrying := fun _ => ⟨hnever, fun _ => ⟨hnone, hrunning, hcount⟩⟩
    bounded := by
      intro n hn
      rcases hattempts n hn with rfl | hless
      · exact absurd hn hsome
      · exact ⟨hcount.le.trans hless, hnever.le.trans (Nat.zero_le 1)⟩
    silent := ⟨hrunning, h.silent⟩
    delay := h.delay
    delays := fun hle delay hmem =>
      h.delays hle delay ((List.mem_cons.mp hmem).resolve_left fun heq => nomatch heq) }

theorem Run.Sound.rests (h : s.Sound o) (control : Control) (hcontrol : control ≠ .retrying) :
    Run.Sound o { s with control := control } where
  held := h.held
  armed := h.armed
  retrying := fun heq => absurd heq hcontrol
  bounded := h.bounded
  silent := h.silent
  delay := h.delay
  delays := h.delays

theorem Run.Sound.afterRetry (h : s.Sound o) (hretrying : s.control = .retrying)
    (hharmless : Harmless o s .returns) : (s.afterRetry o).Sound o := by
  have hquiet := hharmless hretrying
  obtain ⟨hgaveUp, hhead⟩ := h.retrying hretrying
  unfold Run.afterRetry
  split_ifs at hquiet ⊢ with hgives hnotice
  · have hcount : sinceStart .gaveUp (.gaveUp :: s.log) = 1 := by
      rw [sinceStart_same .gaveUp s.log (fun heq => nomatch heq), hgaveUp]
    have hretried : sinceStart .retried (.gaveUp :: s.log) = sinceStart .retried s.log :=
      sinceStart_other _ _ _ (fun heq => nomatch heq) fun heq => nomatch heq
    exact {
      held := .inl hquiet
      armed := fun hne => absurd hquiet hne
      retrying := fun heq => nomatch heq
      bounded := fun n hn => ⟨hretried.le.trans (h.bounded n hn).1, hcount.le⟩
      silent := h.silent
      delay := h.delay
      delays := fun hle delay hmem =>
        h.delays hle delay ((List.mem_cons.mp hmem).resolve_left fun heq => nomatch heq) }
  · exact {
      held := .inl hquiet
      armed := fun hne => absurd hquiet hne
      retrying := fun heq => nomatch heq
      bounded := h.bounded
      silent := h.silent
      delay := h.delay
      delays := h.delays }
  · obtain ⟨hnone, hrunning, hretried⟩ := hhead hquiet
    have hother : ∀ e : Event, (∀ delay, e ≠ .scheduled delay) →
        sinceStart e (.scheduled (s.controller.goOn o).delay :: s.log) = sinceStart e s.log :=
      fun e he => sinceStart_other _ _ _ (fun heq => nomatch heq) (he _).symm
    have hsame := hother .retried fun _ heq => nomatch heq
    have hnever := (hother .gaveUp fun _ heq => nomatch heq).trans hgaveUp
    exact {
      held := Controller.held_schedule hnone
      armed := by
        refine fun _ => ⟨hrunning, hsame.trans hretried, hnever, fun n hn => .inr ?_⟩
        unfold Controller.givesUp at hgives
        rw [hn, Option.any_some, decide_eq_true_eq] at hgives
        exact Nat.not_le.mp hgives
      retrying := fun heq => nomatch heq
      bounded := fun n hn => ⟨hsame.le.trans (h.bounded n hn).1, hnever.le.trans (Nat.zero_le 1)⟩
      silent := h.silent
      delay := fun hle => Controller.doubled_goOn (h.delay hle)
      delays := by
        intro hle delay hmem
        rcases List.mem_cons.mp hmem with hnew | hold
        · obtain rfl := Event.scheduled.inj hnew
          exact Controller.doubled_goOn (h.delay hle)
        · exact h.delays hle delay hold }

theorem Run.Sound.step {label : Label} (h : s.Sound o) (hharmless : Harmless o s label)
    (hs : s.step o label = some s') : s'.Sound o := by
  cases label with
  | call op =>
      obtain rfl := Option.some.inj hs
      exact h.call op
  | fire handle =>
      simp only [Run.step] at hs
      split_ifs at hs with hfire
      obtain rfl := Option.some.inj hs
      exact h.fire hharmless hfire.2
  | returns =>
      simp only [Run.step] at hs
      split at hs
      · exact nomatch hs
      · next hretrying =>
          obtain rfl := Option.some.inj hs
          exact h.afterRetry hretrying hharmless
      · obtain rfl := Option.some.inj hs
        exact h.rests .idle fun heq => nomatch heq
  | throws =>
      simp only [Run.step] at hs
      split_ifs at hs
      obtain rfl := Option.some.inj hs
      exact h.rests .idle fun heq => nomatch heq

end Steps

/-- In every run in which `onRetry` leaves its controller alone, except where it gives up with no
timer pending, the timers, the calls, the delays and the attempts are as they should be. -/
theorem proper_throughout (o : Options) (labels : List Label)
    (h : Trace.Each (Run.step o) (Harmless o) (.initial o) labels) :
    Trace.Throughout (Run.step o) (Proper o) (.initial o) labels :=
  h.throughout (fun s => s.Sound o) (fun _ _ _ hsound hharmless hs => hsound.step hharmless hs)
    (fun _ hsound => hsound.proper) .initial

namespace Sample

def options : Options := ⟨30000, 1000, some 2, true⟩

/-- It is cancelled once, and gives up at the end. -/
def calm : List Label :=
  [.call .start, .fire 0, .returns, .call .cancel, .call .start, .fire 2, .returns, .fire 3,
    .returns, .returns]

/-- `onRetry` starts the controller again. -/
def startsAgain : List Label := [.call .start, .fire 0, .call .start, .returns]

/-- `onRetry` cancels the controller. -/
def cancels : List Label := [.call .start, .fire 0, .call .cancel, .returns, .fire 1]

end Sample

open RetryController.Sample

theorem proper_throughout_calm :
    Trace.Throughout (Run.step options) (Proper options) (.initial options) calm :=
  proper_throughout options calm (by decide +kernel)

/-- A start in `onRetry` leaves two timers, and after a cancel there `onRetry` is called again. -/
theorem restart_two_timers :
    ((Trace.run (Run.step options) (.initial options) startsAgain).map
      fun s => s.controller.pending) = some [2, 1] ∧
    ¬ Trace.Throughout (Run.step options) (Proper options) (.initial options) startsAgain ∧
    ((Trace.run (Run.step options) (.initial options) cancels).map fun s => s.log)
      = some [.retried, .scheduled 2000, .called .cancel, .retried, .scheduled 1000,
        .called .start] ∧
    ¬ Trace.Throughout (Run.step options) (Proper options) (.initial options) cancels := by
  have htwo : ((Trace.run (Run.step options) (.initial options) startsAgain).map
      fun s => s.controller.pending) = some [2, 1] := by
    decide +kernel
  have hlog : ((Trace.run (Run.step options) (.initial options) cancels).map fun s => s.log)
      = some [.retried, .scheduled 2000, .called .cancel, .retried, .scheduled 1000,
        .called .start] := by
    decide +kernel
  refine ⟨htwo, fun hthroughout => ?_, hlog, fun hthroughout => ?_⟩
  · obtain ⟨s, hs, hpending⟩ := Option.map_eq_some_iff.mp htwo
    have hproper := Trace.throughout_iff.mp hthroughout startsAgain.length s
      (by rw [List.take_length]; exact hs)
    have htimers := hproper.timers
    rw [hpending] at htimers
    exact absurd htimers (by decide)
  · obtain ⟨s, hs, hevents⟩ := Option.map_eq_some_iff.mp hlog
    have hproper := Trace.throughout_iff.mp hthroughout cancels.length s
      (by rw [List.take_length]; exact hs)
    have hsilent := hproper.silent
    rw [hevents] at hsilent
    exact Bool.false_ne_true hsilent.1

end RetryController

end FullStackHex
