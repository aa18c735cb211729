import FullStackHex.Frontend.RetryController

/-!
The health polling of `pages/index.astro`, until the page is left: the retry controller, the
connect timer, the flags of the live stream, and the fetches in flight.
-/

namespace FullStackHex

namespace Dashboard

open RetryController (Controller Options)

/-- The options that the page creates its controller with. -/
def options : Options := ⟨30000, 1000, some 60, true⟩

/-- A fetch in flight; an aborted one has had its signal. -/
inductive Fetch where
  | live
  | aborted
  deriving DecidableEq, Repr

inductive Outcome where
  /-- All services were read; `outage` says whether none of them is up. -/
  | read (outage : Bool)
  | error
  /-- A `DOMException` named `AbortError`. -/
  | abortError
  deriving DecidableEq, Repr

inductive Event where
  | polled
  | fetched
  | failed
  | gaveUp
  deriving DecidableEq, Repr

/-- The last event of the log is the first of the list. -/
structure Page where
  retry : Controller
  connectTimer : Bool
  wsDisconnected : Bool
  wsEverConnected : Bool
  hidden : Bool
  healthAbort : Bool
  inFlight : List Fetch
  log : List Event
  deriving DecidableEq

inductive Label where
  /-- A timer of the controller fires. -/
  | fire (handle : Nat)
  | connectFires
  | complete (fetch : Nat) (outcome : Outcome)
  | connected
  | offline
  | reconnecting
  | message
  | visibilityChange (hidden : Bool)
  | refresh
  deriving DecidableEq, Repr

namespace Page

def fetchHealth (s : Page) : Page :=
  if s.hidden then s
  else { s with
    healthAbort := true
    inFlight := s.inFlight ++ [.live]
    log := .fetched :: s.log }

def stopHealthFetch (s : Page) : Page :=
  if s.healthAbort then
    { s with inFlight := s.inFlight.map fun _ => .aborted, healthAbort := false }
  else s

def startConnectTimeout (s : Page) : Page := { s with connectTimer := true }

def start (s : Page) : Page := { s with retry := s.retry.doStart }

/-- The page is loaded. -/
def initial (hidden : Bool) : Page :=
  (fetchHealth ⟨.create options, false, true, false, hidden, false, [], []⟩).startConnectTimeout

/-- The rest of the callback after `onRetry`. -/
def afterRetry (s : Page) : Page :=
  if s.retry.givesUp options then { s with retry := s.retry.gaveUp, log := .gaveUp :: s.log }
  else { s with retry := s.retry.goOn options }

/-- The callback of the controller's timer, with `fetchHealth` as `onRetry`. -/
def poll (s : Page) (handle : Nat) : Page :=
  (fetchHealth { s with retry := s.retry.fired handle, log := .polled :: s.log }).afterRetry

/-- What `fetchHealth` does after its `await`. -/
def completed (s : Page) : Outcome → Page
  | .read outage => if outage then s.start else s
  | .error => { s with log := .failed :: s.log }.start
  | .abortError => s

/-- Only an aborted fetch ends with an `AbortError`, and none is read to its end. -/
def possible : Fetch → Outcome → Bool
  | .live, .abortError => false
  | .aborted, .read _ => false
  | _, _ => true

def step (s : Page) : Label → Option Page
  | .fire handle => if handle ∈ s.retry.pending then some (s.poll handle) else none
  | .connectFires =>
      if s.connectTimer then
        let s := { s with connectTimer := false }
        some (if s.wsDisconnected && !s.wsEverConnected && !s.hidden then s.start else s)
      else none
  | .complete i outcome => do
      let fetch ← s.inFlight[i]?
      if possible fetch outcome then
        return { s with inFlight := s.inFlight.eraseIdx i }.completed outcome
      else none
  | .connected => some { s with
      wsDisconnected := false
      wsEverConnected := true
      retry := s.retry.doCancel
      connectTimer := false }
  | .offline =>
      let s := { s with wsDisconnected := true }
      some (if s.hidden then s else s.start)
  | .reconnecting => some { s with wsDisconnected := true }
  | .message => some { s with wsDisconnected := false }
  | .visibilityChange hidden =>
      if hidden then
        some (stopHealthFetch { s with
          hidden := true
          retry := s.retry.doCancel
          connectTimer := false })
      else
        let s := fetchHealth { s with hidden := false, retry := s.retry.doReset options }
        some (if s.wsDisconnected && !s.wsEverConnected then s.startConnectTimeout else s)
  | .refresh => some (fetchHealth { s with retry := s.retry.doReset options })

end Page

/-! ## An outage -/

/-- What still happens when the backend is gone and the user does nothing. A timer of the controller
fires only after the fetches have failed. -/
def Outage (s : Page) : Label → Prop
  | .fire _ => s.inFlight = []
  | .connectFires => True
  | .complete _ .error => True
  | .complete _ .abortError => True
  | _ => False

def polls (s : Page) : Nat := s.log.count .polled

def fetches (s : Page) : Nat := s.log.count .fetched

def givenUp (s : Page) : Nat := s.log.count .gaveUp

/-- `onGiveUp` is called once, after at most 60 polls, and no fetch is started after it. -/
def GivesUp (states : Nat → Page) : Prop :=
  ∃ m, givenUp (states m) = givenUp (states 0) + 1 ∧ polls (states m) ≤ polls (states 0) + 60 ∧
    ∀ k, m ≤ k → givenUp (states k) = givenUp (states m) ∧ fetches (states k) = fetches (states m)

/-! ## What a step does -/

section Steps

variable {s s' : Page} {handle : Nat} {label : Label}

/-- `fetchHealth`, until it awaits its answer. -/
structure Fetched (s s' : Page) : Prop where
  retry : s'.retry = s.retry
  connectTimer : s'.connectTimer = s.connectTimer
  hidden : s'.hidden = s.hidden
  inFlight : s'.inFlight = if s.hidden then s.inFlight else s.inFlight ++ [.live]
  polls : polls s' = polls s
  fetches : fetches s' = fetches s + if s.hidden then 0 else 1
  givenUp : givenUp s' = givenUp s

theorem Page.fetched (s : Page) : Fetched s s.fetchHealth := by
  unfold Page.fetchHealth
  split_ifs with hhidden
  · exact ⟨rfl, rfl, rfl, (if_pos hhidden).symm, rfl, by rw [if_pos hhidden]; rfl, rfl⟩
  · exact {
      retry := rfl
      connectTimer := rfl
      hidden := rfl
      inFlight := (if_neg hhidden).symm
      polls := List.count_cons_of_ne (show Event.fetched ≠ .polled by decide)
      fetches := by
        rw [if_neg hhidden]
        exact List.count_cons_self
      givenUp := List.count_cons_of_ne (show Event.fetched ≠ .gaveUp by decide) }

/-- A poll, of a controller whose timer has fired. -/
structure Polled (s s' : Page) : Prop where
  connectTimer : s'.connectTimer = s.connectTimer
  hidden : s'.hidden = s.hidden
  inFlight : s'.inFlight = if s.hidden then s.inFlight else s.inFlight ++ [.live]
  polls : polls s' = polls s + 1
  fetches : fetches s' = fetches s + if s.hidden then 0 else 1
  attempts : s'.retry.attempts = s.retry.attempts + 1
  held : s'.retry.Held
  pending : s'.retry.pending = [] ↔ s.retry.givesUp options = true
  givenUp : givenUp s' = givenUp s + if s.retry.givesUp options then 1 else 0

theorem Page.polled (hheld : s.retry.Held) (hmem : handle ∈ s.retry.pending) :
    Polled s (s.poll handle) := by
  have hnone := hheld.fired hmem
  have hfetched := Page.fetched
    { s with retry := s.retry.fired handle, log := .polled :: s.log }
  have hpolls := hfetched.polls.trans List.count_cons_self
  have hfetches := hfetched.fetches.trans
    (congrArg (· + _) (List.count_cons_of_ne (show Event.polled ≠ .fetched by decide)))
  have hgivenUp := hfetched.givenUp.trans
    (List.count_cons_of_ne (show Event.polled ≠ .gaveUp by decide))
  unfold Page.poll
  generalize Page.fetchHealth _ = t at *
  have hgives : t.retry.givesUp options = s.retry.givesUp options := by
    rw [hfetched.retry]
    rfl
  have hattempts : t.retry.attempts = s.retry.attempts := by
    rw [hfetched.retry]
    rfl
  have hpending : t.retry.pending = [] := by
    rw [hfetched.retry]
    exact hnone
  unfold Page.afterRetry
  split_ifs with hcase
  · rw [hgives] at hcase
    exact {
      connectTimer := hfetched.connectTimer
      hidden := hfetched.hidden
      inFlight := hfetched.inFlight
      polls := (List.count_cons_of_ne (show Event.gaveUp ≠ .polled by decide)).trans hpolls
      fetches := (List.count_cons_of_ne (show Event.gaveUp ≠ .fetched by decide)).trans hfetches
      attempts := congrArg (· + 1) hattempts
      held := .inl hpending
      pending := iff_of_true hpending hcase
      givenUp := by
        rw [if_pos hcase]
        exact List.count_cons_self.trans (congrArg (· + 1) hgivenUp) }
  · rw [hgives] at hcase
    exact {
      connectTimer := hfetched.connectTimer
      hidden := hfetched.hidden
      inFlight := hfetched.inFlight
      polls := hpolls
      fetches := hfetches
      attempts := congrArg (· + 1) hattempts
      held := RetryController.Controller.held_schedule hpending
      pending := iff_of_false (List.cons_ne_nil _ _) hcase
      givenUp := by
        rw [if_neg hcase]
        exact hgivenUp }

theorem Page.held_start (hheld : s.retry.Held) : s.start.retry.Held :=
  RetryController.Controller.held_schedule hheld.doCancel

theorem Page.held_fetchHealth (hheld : s.retry.Held) : s.fetchHealth.retry.Held := by
  rw [s.fetched.retry]
  exact hheld

/-- The controller never loses a timer. -/
theorem Page.held_step (hheld : s.retry.Held) (hs : s.step label = some s') : s'.retry.Held := by
  have hcancelled : s.retry.doCancel.Held := .inl hheld.doCancel
  have hreset : (s.retry.doReset options).Held := .inl hheld.doCancel
  cases label with
  | fire handle =>
      simp only [Page.step] at hs
      split_ifs at hs with hmem
      obtain rfl := Option.some.inj hs
      exact (Page.polled hheld hmem).held
  | connectFires =>
      simp only [Page.step] at hs
      split_ifs at hs
      · obtain rfl := Option.some.inj hs
        exact Page.held_start (s := { s with connectTimer := false }) hheld
      · obtain rfl := Option.some.inj hs
        exact hheld
  | complete i outcome =>
      obtain ⟨fetch, -, hs⟩ := Option.bind_eq_some_iff.mp hs
      split_ifs at hs
      obtain rfl := Option.some.inj hs
      unfold Page.completed
      split
      · split_ifs
        · exact Page.held_start (s := { s with inFlight := _ }) hheld
        · exact hheld
      · exact Page.held_start (s := { s with inFlight := _, log := _ }) hheld
      · exact hheld
  | connected =>
      obtain rfl := Option.some.inj hs
      exact hcancelled
  | offline =>
      simp only [Page.step] at hs
      obtain rfl := Option.some.inj hs
      split_ifs
      · exact hheld
      · exact Page.held_start (s := { s with wsDisconnected := true }) hheld
  | reconnecting =>
      obtain rfl := Option.some.inj hs
      exact hheld
  | message =>
      obtain rfl := Option.some.inj hs
      exact hheld
  | visibilityChange hidden =>
      simp only [Page.step] at hs
      split_ifs at hs
      · obtain rfl := Option.some.inj hs
        unfold Page.stopHealthFetch
        split_ifs
        · exact hcancelled
        · exact hcancelled
      · obtain rfl := Option.some.inj hs
        exact Page.held_fetchHealth (s := { s with hidden := _, retry := _ }) hreset
      · obtain rfl := Option.some.inj hs
        exact Page.held_fetchHealth (s := { s with hidden := _, retry := _ }) hreset
  | refresh =>
      obtain rfl := Option.some.inj hs
      exact Page.held_fetchHealth (s := { s with retry := _ }) hreset

end Steps

/-! ## Steps of an outage -/

section Outages

variable {s s' : Page} {label : Label}

/-- A step in which the controller's timer does not fire. -/
structure Waits (s s' : Page) : Prop where
  hidden : s'.hidden = s.hidden
  polls : polls s' = polls s
  fetches : fetches s' = fetches s
  givenUp : givenUp s' = givenUp s
  fewer : s'.inFlight.length ≤ s.inFlight.length
  less : s'.connectTimer.toNat + s'.inFlight.length < s.connectTimer.toNat + s.inFlight.length
  live : .live ∈ s.inFlight → s'.retry.pending ≠ [] ∨ .live ∈ s'.inFlight
  /-- The controller is started, or left as it is. -/
  retry : s'.retry = s.retry.doStart ∨ s'.retry = s.retry

theorem pending_doStart (c : Controller) : c.doStart.pending ≠ [] := List.cons_ne_nil _ _

theorem waits_connect (h : s.connectTimer = true) (hs : s.step .connectFires = some s') :
    Waits s s' ∧ (s.hidden = true → s'.retry = s.retry) := by
  simp only [Page.step, h, if_true] at hs
  have hless : false.toNat + s.inFlight.length < s.connectTimer.toNat + s.inFlight.length := by
    rw [h]
    change 0 + _ < 1 + _
    omega
  split_ifs at hs with hstarts
  · obtain rfl := Option.some.inj hs
    refine ⟨⟨rfl, rfl, rfl, rfl, Nat.le_refl _, hless, fun _ => .inl (pending_doStart _), .inl rfl⟩,
      fun hhidden => ?_⟩
    simp [hhidden] at hstarts
  · obtain rfl := Option.some.inj hs
    exact ⟨⟨rfl, rfl, rfl, rfl, Nat.le_refl _, hless, .inr, .inr rfl⟩, fun _ => rfl⟩

theorem waits_error {i : Nat} (hs : s.step (.complete i .error) = some s') :
    Waits s s' ∧ s'.retry = s.retry.doStart := by
  obtain ⟨fetch, hfetch, hs⟩ := Option.bind_eq_some_iff.mp hs
  split_ifs at hs
  obtain rfl := Option.some.inj hs
  obtain ⟨hlt, -⟩ := List.getElem?_eq_some_iff.mp hfetch
  have hother : ∀ e : Event, Event.failed ≠ e → (Event.failed :: s.log).count e = s.log.count e :=
    fun e he => List.count_cons_of_ne he
  refine ⟨{
    hidden := rfl
    polls := hother _ (by decide)
    fetches := hother _ (by decide)
    givenUp := hother _ (by decide)
    fewer := List.length_eraseIdx_le s.inFlight i
    less := by
      change s.connectTimer.toNat + (s.inFlight.eraseIdx i).length < _
      rw [List.length_eraseIdx_of_lt hlt]
      omega
    live := fun _ => .inl (pending_doStart _)
    retry := .inl rfl }, rfl⟩

theorem waits_abortError {i : Nat} (hs : s.step (.complete i .abortError) = some s') :
    Waits s s' ∧ s'.retry = s.retry := by
  obtain ⟨fetch, hfetch, hs⟩ := Option.bind_eq_some_iff.mp hs
  split_ifs at hs with hpossible
  obtain rfl := Option.some.inj hs
  obtain ⟨hlt, -⟩ := List.getElem?_eq_some_iff.mp hfetch
  refine ⟨{
    hidden := rfl
    polls := rfl
    fetches := rfl
    givenUp := rfl
    fewer := List.length_eraseIdx_le s.inFlight i
    less := by
      change s.connectTimer.toNat + (s.inFlight.eraseIdx i).length < _
      rw [List.length_eraseIdx_of_lt hlt]
      omega
    live := by
      intro hlive
      obtain ⟨j, hj⟩ := List.getElem?_of_mem hlive
      refine .inr (List.mem_eraseIdx_iff_getElem?.mpr ⟨j, ?_, hj⟩)
      rintro rfl
      obtain rfl := Option.some.inj (hfetch.symm.trans hj)
      exact Bool.false_ne_true hpossible
    retry := .inr rfl }, rfl⟩

/-- In an outage a step is a poll, with no fetch in flight, or one of those. -/
theorem outage_cases (hheld : s.retry.Held) (hout : Outage s label)
    (hs : s.step label = some s') :
    (∃ handle, label = .fire handle ∧ s.retry.pending ≠ [] ∧ s.inFlight = [] ∧ Polled s s') ∨
    ((∀ handle, label ≠ .fire handle) ∧ Waits s s' ∧
      ((∃ i, label = .complete i .error) ∧ s'.retry = s.retry.doStart ∨
        (∀ i, label ≠ .complete i .error) ∧ (s.hidden = true → s'.retry = s.retry))) := by
  cases label with
  | fire handle =>
      simp only [Page.step] at hs
      split_ifs at hs with hmem
      obtain rfl := Option.some.inj hs
      exact .inl ⟨handle, rfl, List.ne_nil_of_mem hmem, hout, Page.polled hheld hmem⟩
  | connectFires =>
      have hconnect : s.connectTimer = true := by
        by_contra hnot
        simp [Page.step, hnot] at hs
      obtain ⟨hwaits, hretry⟩ := waits_connect hconnect hs
      exact .inr ⟨(fun _ heq => nomatch heq), hwaits, .inr ⟨(fun _ heq => nomatch heq), hretry⟩⟩
  | complete i outcome =>
      cases outcome with
      | error =>
          obtain ⟨hwaits, hretry⟩ := waits_error hs
          exact .inr ⟨(fun _ heq => nomatch heq), hwaits, .inl ⟨⟨i, rfl⟩, hretry⟩⟩
      | abortError =>
          obtain ⟨hwaits, hretry⟩ := waits_abortError hs
          exact .inr ⟨(fun _ heq => nomatch heq), hwaits,
            .inr ⟨(fun _ heq => nomatch heq), fun _ => hretry⟩⟩
      | read outage => exact hout.elim
  | connected => exact hout.elim
  | offline => exact hout.elim
  | reconnecting => exact hout.elim
  | message => exact hout.elim
  | visibilityChange hidden => exact hout.elim
  | refresh => exact hout.elim

end Outages

/-! ## On a visible page polling goes on for ever -/

section Runs

variable {states : Nat → Page} {labels : Nat → Option Label} {m n : Nat}

/-- A fetch is started some time: a timer is set, or a fetch that is in flight will set one. -/
structure Alive (s : Page) : Prop where
  visible : s.hidden = false
  held : s.retry.Held
  soon : s.retry.pending ≠ [] ∨ .live ∈ s.inFlight

theorem Waits.alive {s s' : Page} (h : Waits s s') (halive : Alive s) (hheld : s'.retry.Held) :
    Alive s' where
  visible := h.hidden.trans halive.visible
  held := hheld
  soon := by
    rcases halive.soon with hpending | hlive
    · left
      rcases h.retry with hstarted | hsame
      · rw [hstarted]
        exact pending_doStart _
      · rw [hsame]
        exact hpending
    · exact h.live hlive

theorem Polled.alive {s s' : Page} (h : Polled s s') (hvisible : s.hidden = false) : Alive s' where
  visible := h.hidden.trans hvisible
  held := h.held
  soon := by
    right
    rw [h.inFlight, if_neg (ne_true_of_eq_false hvisible)]
    exact List.mem_append_right _ (List.mem_singleton_self _)

theorem Alive.step {s s' : Page} {label : Label} (h : Alive s) (hout : Outage s label)
    (hs : s.step label = some s') : Alive s' := by
  rcases outage_cases h.held hout hs with ⟨_, -, -, -, hpolled⟩ | ⟨-, hwaits, -⟩
  · exact hpolled.alive h.visible
  · exact hwaits.alive h (Page.held_step h.held hs)

/-- Something is left to happen. -/
theorem goes_on (h : Trace.Endless Page.step Outage states labels)
    (hsoon : (states n).retry.pending ≠ [] ∨ .live ∈ (states n).inFlight) :
    ∃ label, labels n = some label := by
  cases hfetches : (states n).inFlight with
  | nil =>
      have hpending : (states n).retry.pending ≠ [] := by
        apply hsoon.resolve_right
        rw [hfetches]
        exact List.not_mem_nil
      obtain ⟨handle, hmem⟩ := List.exists_mem_of_ne_nil _ hpending
      exact h.goes (c := .fire handle) hfetches (if_pos hmem)
  | cons fetch rest =>
      have hpossible : Page.possible fetch .error = true := by
        cases fetch
        · rfl
        · rfl
      have hs : (states n).step (.complete 0 .error) = some (Page.completed
          { states n with inFlight := (states n).inFlight.eraseIdx 0 } .error) := by
        simp only [Page.step]
        rw [hfetches]
        change (if Page.possible fetch .error = true then _ else _) = _
        rw [hpossible]
        rfl
      exact h.goes (c := .complete 0 .error) trivial hs

theorem fetches_le {s s' : Page} {label : Label} (hheld : s.retry.Held) (hout : Outage s label)
    (hs : s.step label = some s') : fetches s ≤ fetches s' := by
  rcases outage_cases hheld hout hs with ⟨_, -, -, -, hpolled⟩ | ⟨-, hwaits, -⟩
  · rw [hpolled.fetches]
    exact Nat.le_add_right _ _
  · exact hwaits.fetches.ge

theorem Alive.fetches_grow (h : Trace.Endless Page.step Outage states labels)
    (halive : Alive (states m)) : ∃ k, m ≤ k ∧ fetches (states m) < fetches (states k) := by
  have hlater : ∀ n, m ≤ n → Alive (states n) ∧ fetches (states m) ≤ fetches (states n) := by
    intro n hn
    apply h.keeps (fun s => Alive s ∧ fetches (states m) ≤ fetches s) _ hn
      ⟨halive, Nat.le_refl _⟩
    rintro s label s' ⟨hthere, hle⟩ hout hs
    exact ⟨hthere.step hout hs, hle.trans (fetches_le hthere.held hout hs)⟩
  obtain ⟨n, hn, handle, hfire⟩ : ∃ n, m ≤ n ∧ ∃ handle, labels n = some (.fire handle) := by
    apply Trace.eventually_of_measure
      (fun n => (states n).connectTimer.toNat + (states n).inFlight.length)
    intro n hn hnot
    obtain ⟨hthere, -⟩ := hlater n hn
    obtain ⟨label, hlabel⟩ := goes_on h hthere.soon
    obtain ⟨hout, hs⟩ := h.move n label hlabel
    rcases outage_cases hthere.held hout hs with ⟨handle, rfl, -⟩ | ⟨-, hwaits, -⟩
    · exact absurd ⟨handle, hlabel⟩ hnot
    · exact hwaits.less
  obtain ⟨hthere, hle⟩ := hlater n hn
  obtain ⟨hout, hs⟩ := h.move n _ hfire
  refine ⟨n + 1, by omega, ?_⟩
  rcases outage_cases hthere.held hout hs with ⟨_, -, -, -, hpolled⟩ | ⟨hother, -⟩
  · rw [hpolled.fetches, if_neg (ne_true_of_eq_false hthere.visible)]
    omega
  · exact absurd rfl (hother handle)

/-- On a visible page `onGiveUp` is not the end. -/
theorem not_givesUp_of_visible (h : Trace.Endless Page.step Outage states labels)
    (hheld : (states 0).retry.Held) (hvisible : (states 0).hidden = false) : ¬ GivesUp states := by
  rintro ⟨m, hgaveUp, -, hend⟩
  have hthen : givenUp (states m) = givenUp (states 0) ∨ Alive (states m) := by
    refine (h.keeps (fun s => s.retry.Held ∧ s.hidden = false ∧
      (givenUp s = givenUp (states 0) ∨ Alive s)) ?_ (Nat.zero_le m)
      ⟨hheld, hvisible, .inl rfl⟩).2.2
    · rintro s label s' ⟨hheld, hvisible, hso⟩ hout hs
      have hheld' := Page.held_step hheld hs
      rcases outage_cases hheld hout hs with ⟨_, -, -, -, hpolled⟩ | ⟨-, hwaits, -⟩
      · exact ⟨hheld', hpolled.hidden.trans hvisible, .inr (hpolled.alive hvisible)⟩
      · refine ⟨hheld', hwaits.hidden.trans hvisible, ?_⟩
        rcases hso with hsame | halive
        · exact .inl (hwaits.givenUp.trans hsame)
        · exact .inr (hwaits.alive halive hheld')
  rcases hthen with hsame | halive
  · omega
  · obtain ⟨k, hk, hmore⟩ := halive.fetches_grow h
    have hno := (hend k hk).2
    omega

/-! ## On a hidden page nothing is fetched -/

/-- The last poll is behind. -/
structure Over (s : Page) : Prop where
  hidden : s.hidden = true
  pending : s.retry.pending = []
  inFlight : s.inFlight = []

theorem Over.step {s s' : Page} {label : Label} (h : Over s) (hout : Outage s label)
    (hs : s.step label = some s') : Over s' ∧ polls s' = polls s ∧ fetches s' = fetches s ∧
      givenUp s' = givenUp s := by
  rcases outage_cases (.inl h.pending) hout hs with ⟨_, -, hpending, -⟩ | ⟨-, hwaits, hcase⟩
  · exact absurd h.pending hpending
  · have hretry : s'.retry = s.retry := by
      rcases hcase with ⟨⟨i, rfl⟩, -⟩ | ⟨-, hsame⟩
      · obtain ⟨fetch, hfetch, -⟩ := Option.bind_eq_some_iff.mp hs
        rw [h.inFlight] at hfetch
        exact nomatch hfetch
      · exact hsame h.hidden
    have hinFlight : s'.inFlight = [] := by
      have hfewer := hwaits.fewer
      rw [h.inFlight] at hfewer
      exact List.length_eq_zero_iff.mp (Nat.le_zero.mp hfewer)
    exact ⟨⟨hwaits.hidden.trans h.hidden, by rw [hretry]; exact h.pending, hinFlight⟩,
      hwaits.polls, hwaits.fetches, hwaits.givenUp⟩

/-- Once it is over, nothing is polled or fetched any more. -/
theorem Over.stays (h : Trace.Endless Page.step Outage states labels) (hover : Over (states m))
    (hle : m ≤ n) : Over (states n) ∧ polls (states n) = polls (states m) ∧
      fetches (states n) = fetches (states m) ∧ givenUp (states n) = givenUp (states m) := by
  apply h.keeps (fun s => Over s ∧ polls s = polls (states m) ∧ fetches s = fetches (states m) ∧
    givenUp s = givenUp (states m)) _ hle ⟨hover, rfl, rfl, rfl⟩
  rintro s label s' ⟨hthere, hpolls, hfetches, hgivenUp⟩ hout hs
  obtain ⟨hthere', hpolls', hfetches', hgivenUp'⟩ := hthere.step hout hs
  exact ⟨hthere', hpolls'.trans hpolls, hfetches'.trans hfetches, hgivenUp'.trans hgivenUp⟩

/-- The timer fires for the last time. -/
def LastPoll (states : Nat → Page) (labels : Nat → Option Label) (n : Nat) : Prop :=
  (∃ handle, labels n = some (.fire handle)) ∧ (states n).retry.givesUp options = true

/-- A hidden page whose timer is set. -/
structure Pending (s : Page) : Prop where
  hidden : s.hidden = true
  held : s.retry.Held
  pending : s.retry.pending ≠ []

theorem Pending.next (h : Trace.Endless Page.step Outage states labels)
    (hpending : Pending (states n)) (hnot : ¬ LastPoll states labels n) :
    Pending (states (n + 1)) ∧
      ((states (n + 1)).connectTimer.toNat + (states (n + 1)).inFlight.length) * 61
          + (60 - (states (n + 1)).retry.attempts)
        < ((states n).connectTimer.toNat + (states n).inFlight.length) * 61
          + (60 - (states n).retry.attempts) := by
  obtain ⟨label, hlabel⟩ := goes_on h (.inl hpending.pending)
  obtain ⟨hout, hs⟩ := h.move n label hlabel
  have hheld := Page.held_step hpending.held hs
  rcases outage_cases hpending.held hout hs with ⟨handle, rfl, -, -, hpolled⟩ | ⟨-, hwaits, -⟩
  · have hgives : ¬ (states n).retry.givesUp options = true := fun hgives =>
      hnot ⟨⟨handle, hlabel⟩, hgives⟩
    have hmore : ¬ 60 ≤ (states n).retry.attempts + 1 := fun hle => hgives (decide_eq_true hle)
    refine ⟨⟨hpolled.hidden.trans hpending.hidden, hheld, fun hnone =>
      hgives (hpolled.pending.mp hnone)⟩, ?_⟩
    rw [hpolled.connectTimer, hpolled.inFlight, if_pos hpending.hidden, hpolled.attempts]
    omega
  · have hless := hwaits.less
    refine ⟨⟨hwaits.hidden.trans hpending.hidden, hheld, ?_⟩, by omega⟩
    rcases hwaits.retry with hstarted | hsame
    · rw [hstarted]
      exact pending_doStart _
    · rw [hsame]
      exact hpending.pending

/-- The timer of a hidden page fires for the last time. -/
theorem Pending.lastPoll (h : Trace.Endless Page.step Outage states labels)
    (hpending : Pending (states m)) : ∃ n, m ≤ n ∧ Pending (states n) ∧ LastPoll states labels n := by
  by_contra hnever
  have hthere : ∀ n, m ≤ n → Pending (states n) := by
    intro n hn
    induction n, hn using Nat.le_induction with
    | base => exact hpending
    | succ n hn ih => exact (ih.next h fun hlast => hnever ⟨n, hn, ih, hlast⟩).1
  obtain ⟨n, -, hfalse⟩ := Trace.eventually_of_measure (p := fun _ => False)
    (fun n => ((states n).connectTimer.toNat + (states n).inFlight.length) * 61
      + (60 - (states n).retry.attempts)) m fun n hn _ =>
        ((hthere n hn).next h fun hlast => hnever ⟨n, hn, hthere n hn, hlast⟩).2
  exact hfalse

/-- After the last poll it is over. -/
theorem LastPoll.over (h : Trace.Endless Page.step Outage states labels)
    (hheld : (states n).retry.Held) (hhidden : (states n).hidden = true)
    (hlast : LastPoll states labels n) : Over (states (n + 1)) ∧
      polls (states (n + 1)) = polls (states n) + 1 ∧
      givenUp (states (n + 1)) = givenUp (states n) + 1 := by
  obtain ⟨⟨handle, hfire⟩, hgives⟩ := hlast
  obtain ⟨hout, hs⟩ := h.move n _ hfire
  rcases outage_cases hheld hout hs with ⟨_, -, -, hinFlight, hpolled⟩ | ⟨hother, -⟩
  · refine ⟨⟨hpolled.hidden.trans hhidden, hpolled.pending.mpr hgives, ?_⟩, hpolled.polls, ?_⟩
    · rw [hpolled.inFlight, if_pos hhidden]
      exact hinFlight
    · rw [hpolled.givenUp, if_pos hgives]
  · exact absurd rfl (hother handle)

/-- Before the last poll: nobody has given up, and the polls are the attempts. -/
structure Before (s₀ s : Page) : Prop where
  hidden : s.hidden = true
  held : s.retry.Held
  givenUp : givenUp s = givenUp s₀
  polls : polls s = polls s₀ ∨ s.inFlight = [] ∧ s.retry.attempts < 60 ∧
    polls s ≤ polls s₀ + s.retry.attempts

theorem Before.next {s₀ : Page} (h : Trace.Endless Page.step Outage states labels)
    (hbefore : Before s₀ (states n)) (hnot : ¬ LastPoll states labels n) :
    Before s₀ (states (n + 1)) := by
  cases hlabel : labels n with
  | none =>
      rw [(h.rest n hlabel).1]
      exact hbefore
  | some label =>
      obtain ⟨hout, hs⟩ := h.move n label hlabel
      have hheld := Page.held_step hbefore.held hs
      rcases outage_cases hbefore.held hout hs with
        ⟨handle, rfl, -, hinFlight, hpolled⟩ | ⟨-, hwaits, hcase⟩
      · have hgives : ¬ (states n).retry.givesUp options = true := fun hgives =>
          hnot ⟨⟨handle, hlabel⟩, hgives⟩
        have hmore : ¬ 60 ≤ (states n).retry.attempts + 1 := fun hle => hgives (decide_eq_true hle)
        refine ⟨hpolled.hidden.trans hbefore.hidden, hheld, ?_, .inr ⟨?_, ?_, ?_⟩⟩
        · rw [hpolled.givenUp, if_neg hgives]
          exact hbefore.givenUp
        · rw [hpolled.inFlight, if_pos hbefore.hidden]
          exact hinFlight
        · rw [hpolled.attempts]
          omega
        · rw [hpolled.polls, hpolled.attempts]
          rcases hbefore.polls with hsame | ⟨-, -, hle⟩
          · omega
          · omega
      · refine ⟨hwaits.hidden.trans hbefore.hidden, hheld,
          hwaits.givenUp.trans hbefore.givenUp, ?_⟩
        rcases hbefore.polls with hsame | ⟨hinFlight, hless, hle⟩
        · exact .inl (hwaits.polls.trans hsame)
        · have hretry : (states (n + 1)).retry = (states n).retry := by
            rcases hcase with ⟨⟨i, rfl⟩, -⟩ | ⟨-, hsame⟩
            · obtain ⟨fetch, hfetch, -⟩ := Option.bind_eq_some_iff.mp hs
              rw [hinFlight] at hfetch
              exact nomatch hfetch
            · exact hsame hbefore.hidden
          have hfewer := hwaits.fewer
          rw [hinFlight] at hfewer
          rw [hretry, hwaits.polls]
          exact .inr ⟨List.length_eq_zero_iff.mp (Nat.le_zero.mp hfewer), hless, hle⟩

/-- On a hidden page a timer that is set ends with `onGiveUp`. -/
theorem Pending.givesUp (h : Trace.Endless Page.step Outage states labels)
    (hheld : (states 0).retry.Held) (hhidden : (states 0).hidden = true)
    (hpending : Pending (states m)) : GivesUp states := by
  obtain ⟨n, -, hthere, hlast⟩ := hpending.lastPoll h
  obtain ⟨hover, hpolls, hgivenUp⟩ := hlast.over h hthere.held hthere.hidden
  have hbefore : ∀ k, k ≤ n → Before (states 0) (states k) := by
    intro k
    induction k with
    | zero => exact fun _ => ⟨hhidden, hheld, rfl, .inl rfl⟩
    | succ k ih =>
        intro hk
        have hthen := ih (by omega)
        refine hthen.next h fun hearly => hthere.pending ?_
        exact ((hearly.over h hthen.held hthen.hidden).1.stays h hk).1.pending
  have hsum := hbefore n (Nat.le_refl n)
  have hattempts : polls (states n) + 1 ≤ polls (states 0) + 60 := by
    rcases hsum.polls with hsame | ⟨-, hless, hle⟩
    · omega
    · omega
  refine ⟨n + 1, by rw [hgivenUp, hsum.givenUp], by omega, fun k hk => ?_⟩
  obtain ⟨-, -, hfetches, hsame⟩ := hover.stays h hk
  exact ⟨hsame, hfetches⟩

/-- Without a timer and without an error nothing comes of a hidden page. -/
theorem not_givesUp_of_quiet (h : Trace.Endless Page.step Outage states labels)
    (hhidden : (states 0).hidden = true) (hnone : (states 0).retry.pending = [])
    (hquiet : ∀ n i, labels n ≠ some (.complete i .error)) : ¬ GivesUp states := by
  rintro ⟨m, hgaveUp, -⟩
  have hkeeps : ∀ n, (states n).hidden = true ∧ (states n).retry.pending = [] ∧
      givenUp (states n) = givenUp (states 0) := by
    intro n
    induction n with
    | zero => exact ⟨hhidden, hnone, rfl⟩
    | succ n ih =>
        obtain ⟨hhidden, hnone, hsame⟩ := ih
        cases hlabel : labels n with
        | none =>
            rw [(h.rest n hlabel).1]
            exact ⟨hhidden, hnone, hsame⟩
        | some label =>
            obtain ⟨hout, hs⟩ := h.move n label hlabel
            rcases outage_cases (.inl hnone) hout hs with ⟨_, -, hpending, -⟩ | ⟨-, hwaits, hcase⟩
            · exact absurd hnone hpending
            · rcases hcase with ⟨⟨i, rfl⟩, -⟩ | ⟨-, hretry⟩
              · exact absurd hlabel (hquiet n i)
              · rw [hretry hhidden, hwaits.givenUp]
                exact ⟨hwaits.hidden.trans hhidden, hnone, hsame⟩
  have hsame := (hkeeps m).2.2
  omega

/-- After an error the timer of a hidden page is set. -/
theorem pending_of_error {i : Nat} (h : Trace.Endless Page.step Outage states labels)
    (hheld : (states 0).retry.Held) (hhidden : (states 0).hidden = true)
    (herror : labels n = some (.complete i .error)) : Pending (states (n + 1)) := by
  have hthere : (states n).retry.Held ∧ (states n).hidden = true := by
    apply h.keeps (fun s => s.retry.Held ∧ s.hidden = true) _ (Nat.zero_le n) ⟨hheld, hhidden⟩
    rintro s label s' ⟨hheld, hhidden⟩ hout hs
    refine ⟨Page.held_step hheld hs, ?_⟩
    rcases outage_cases hheld hout hs with ⟨_, -, -, -, hpolled⟩ | ⟨-, hwaits, -⟩
    · exact hpolled.hidden.trans hhidden
    · exact hwaits.hidden.trans hhidden
  obtain ⟨-, hs⟩ := h.move n _ herror
  obtain ⟨hwaits, hretry⟩ := waits_error hs
  refine ⟨hwaits.hidden.trans hthere.2, Page.held_step hthere.1 hs, ?_⟩
  rw [hretry]
  exact pending_doStart _

end Runs

/-- From the moment that an outage begins, in any run of the page: polling ends, as it should, only
on a hidden page whose controller is running all the same. -/
theorem givesUp_iff (hidden : Bool) (before : List Label) (states : Nat → Page)
    (labels : Nat → Option Label)
    (hbefore : Trace.run Page.step (.initial hidden) before = some (states 0))
    (h : Trace.Endless Page.step Outage states labels) :
    GivesUp states ↔ (states 0).hidden = true ∧
      ((states 0).retry.pending ≠ [] ∨ ∃ n i, labels n = some (.complete i .error)) := by
  have hinitial : (Page.initial hidden).retry.Held := by
    apply Page.held_fetchHealth
    exact .inl rfl
  have hheld : (states 0).retry.Held :=
    @Trace.run_keeps _ _ Page.step _ before (fun s => s.retry.Held)
      (fun _ _ _ => Page.held_step) _ hinitial hbefore
  constructor
  · intro hgives
    cases hvisible : (states 0).hidden with
    | false => exact absurd hgives (not_givesUp_of_visible h hheld hvisible)
    | true =>
        refine ⟨rfl, ?_⟩
        by_contra hnot
        obtain ⟨hnone, hnever⟩ := not_or.mp hnot
        refine not_givesUp_of_quiet h hvisible (of_not_not hnone) ?_ hgives
        exact fun n i herror => hnever ⟨n, i, herror⟩
  · rintro ⟨hhidden, hpending | ⟨n, i, herror⟩⟩
    · exact Pending.givesUp h hheld hhidden ⟨hhidden, hheld, hpending⟩
    · exact (pending_of_error h hheld hhidden herror).givesUp h hheld hhidden

namespace Sample

/-- The connect timer first, then the fetches fail, then the controller's timer. -/
def next (s : Page) : Option Label :=
  if s.connectTimer then some .connectFires
  else match s.inFlight with
    | _ :: _ => some (.complete 0 .error)
    | [] => s.retry.pending.head?.map Label.fire

theorem endless (s : Page) : Trace.Endless Page.step Outage (Trace.follow Page.step next s)
    fun n => next (Trace.follow Page.step next s n) := by
  apply Trace.Endless.of_follow
  · intro s label hlabel
    unfold next at hlabel
    split_ifs at hlabel with hconnect
    · obtain rfl := Option.some.inj hlabel
      exact ⟨trivial, _, if_pos hconnect⟩
    · cases hinFlight : s.inFlight with
      | nil =>
          rw [hinFlight] at hlabel
          obtain ⟨handle, hhandle, rfl⟩ := Option.map_eq_some_iff.mp hlabel
          exact ⟨hinFlight, _, if_pos (List.mem_of_head? hhandle)⟩
      | cons fetch rest =>
          rw [hinFlight] at hlabel
          obtain rfl := Option.some.inj hlabel
          refine ⟨trivial, ?_⟩
          simp only [Page.step, hinFlight]
          cases fetch
          · exact ⟨_, rfl⟩
          · exact ⟨_, rfl⟩
  · intro s hnone label hout
    unfold next at hnone
    split_ifs at hnone with hconnect
    cases hinFlight : s.inFlight with
    | cons fetch rest =>
        rw [hinFlight] at hnone
        exact nomatch hnone
    | nil =>
        rw [hinFlight] at hnone
        have hpending := List.head?_eq_none_iff.mp (Option.map_eq_none_iff.mp hnone)
        cases label with
        | fire handle => exact if_neg (hpending ▸ List.not_mem_nil)
        | connectFires => exact if_neg hconnect
        | complete i outcome =>
            simp only [Page.step, hinFlight]
            rfl
        | connected => exact hout.elim
        | offline => exact hout.elim
        | reconnecting => exact hout.elim
        | message => exact hout.elim
        | visibilityChange hidden => exact hout.elim
        | refresh => exact hout.elim

/-- The page is hidden, and its fetch fails with another error than an `AbortError`. -/
def hiddenPage : Page :=
  ⟨⟨some 0, 1000, 0, [0], 1⟩, false, true, false, true, false, [], [.failed, .fetched]⟩

end Sample

/-- After the page is loaded the backend is gone: `onGiveUp` is never the end. -/
theorem outage_never_ends :
    Trace.Endless Page.step Outage (Trace.follow Page.step Sample.next (.initial false))
      (fun n => Sample.next (Trace.follow Page.step Sample.next (.initial false) n)) ∧
    ¬ GivesUp (Trace.follow Page.step Sample.next (.initial false)) :=
  ⟨Sample.endless _, not_givesUp_of_visible (Sample.endless _) (.inl rfl) rfl⟩

theorem givesUp_hiddenPage : GivesUp (Trace.follow Page.step Sample.next Sample.hiddenPage) :=
  (givesUp_iff false [.visibilityChange true, .complete 0 .error] _ _
    (show Trace.run Page.step (.initial false) _ = some Sample.hiddenPage by decide +kernel)
    (Sample.endless _)).mpr ⟨rfl, .inl (List.cons_ne_nil _ _)⟩

end Dashboard

end FullStackHex
