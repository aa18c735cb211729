import FullStackHex.Library.Interleaving
import FullStackHex.Library.Trace

/-!
The `fetch` of a page, as the script of `components/Layout.astro` replaces it: equal GETs share one
request while it is in flight, and a 401 is followed by a refresh that all calls wait for. Answers
come in any order, and what goes on after an `await` may be taken up at any time later.
-/

namespace FullStackHex

namespace Interceptor

/-! ## Calls -/

/-- The first argument of `fetch`. -/
inductive Input where
  | text (url : String)
  | url (href : String)
  | request (url : String)
  deriving DecidableEq, Repr

def Input.urlStr : Input → String
  | .text s | .url s | .request s => s

/-- The second one; `formData` says whether the body is an instance of `FormData`. -/
structure Init where
  method : Option String
  formData : Bool
  deriving DecidableEq, Repr

inductive Caller where
  | fetch (input : Input) (init : Option Init)
  | fetchUser
  deriving DecidableEq, Repr

def mePath : String := "/api/auth/me"

def Caller.url : Caller → String
  | .fetch input _ => input.urlStr
  | .fetchUser => mePath

def intercepted (url : String) : Bool := "/api/".toList.isPrefixOf url.toList

def plainGet (init : Option Init) : Bool :=
  ((init.bind Init.method).getD "GET").toUpper == "GET" && init.isNone

def formDataBody (init : Option Init) : Bool := (init.map Init.formData).getD false

def hasSession (cookie : String) : Bool :=
  decide ("access_token=".toList <:+: cookie.toList) ||
    decide ("refresh_token=".toList <:+: cookie.toList)

/-- `Response.ok`. -/
def okStatus (status : Nat) : Bool := decide (200 ≤ status) && decide (status ≤ 299)

/-! ## The page -/

inductive Reply where
  | failed
  | response (status : Nat)
  deriving DecidableEq, Repr

/-- A request of the browser's own `fetch`, and its response, whose body is read at most once. A
request that `dedupGet` has made leaves the map when it is answered. -/
structure Sent where
  url : String
  deduped : Bool
  reply : Option Reply
  bodyUsed : Bool
  deriving DecidableEq, Repr

/-- A request of `performRefresh`. -/
inductive Refresh where
  | sent
  | reading
  | finished (ok : Bool)
  deriving DecidableEq, Repr

def Refresh.inFlight : Refresh → Prop
  | .finished _ => False
  | _ => True

inductive Phase where
  | awaiting (request : Nat)
  /-- It has got a 401 and waits for the refresh. -/
  | refreshing (request refresh : Nat)
  /-- It has returned the promise of the browser. -/
  | passed (request : Nat)
  /-- It has returned the response. -/
  | returned (request : Nat)
  /-- It has failed, or has no use for its response. -/
  | done
  deriving DecidableEq, Repr

/-- A call, and whether its caller could read the body, once it has tried. -/
structure Call where
  caller : Caller
  phase : Phase
  body : Option Bool
  deriving DecidableEq, Repr

/-- The request whose response the call waits for or holds. -/
def Call.request (call : Call) : Option Nat :=
  match call.phase with
  | .awaiting q | .refreshing q _ | .passed q | .returned q => some q
  | .done => none

inductive Event where
  /-- The call has sent its request, or has joined one. -/
  | sent (call request : Nat)
  /-- The call has got its first response. -/
  | got (call request status : Nat)
  | refreshed (refresh : Nat) (ok : Bool)
  deriving DecidableEq, Repr

/-- The last event of the log is the first of the list. -/
structure Page where
  requests : List Sent
  inFlightGet : List (String × Nat)
  refreshes : List Refresh
  refreshPromise : Option Nat
  refreshAttempted : Bool
  refreshSucceeded : Bool
  calls : List Call
  log : List Event
  deriving Repr

inductive Label where
  | call (caller : Caller)
  | answer (request : Nat) (reply : Reply)
  /-- A call goes on after an `await`; `throws` says whether `new Request` does. -/
  | resume (call : Nat) (cookie : String) (throws : Bool)
  | refreshAnswer (refresh : Nat) (reply : Reply)
  /-- The body of the answer to a refresh is read; what is done with it may throw. -/
  | refreshRead (refresh : Nat) (throws : Bool)
  /-- A caller reads the body of the response it was given. -/
  | read (call : Nat)
  deriving Repr

namespace Page

def initial : Page := ⟨[], [], [], none, false, false, [], []⟩

def setCall (s : Page) (c : Nat) (call : Call) : Page := { s with calls := s.calls.set c call }

/-- `origFetch`, for the call `c`. -/
def send (s : Page) (c : Nat) (url : String) (deduped : Bool) : Page :=
  { s with
    requests := s.requests ++ [⟨url, deduped, none, false⟩]
    log := .sent c s.requests.length :: s.log }

def dedupGet (s : Page) (c : Nat) (url : String) : Page × Nat :=
  match s.inFlightGet.lookup url with
  | some existing => ({ s with log := .sent c existing :: s.log }, existing)
  | none =>
      ({ s.send c url true with inFlightGet := (url, s.requests.length) :: s.inFlightGet },
        s.requests.length)

/-- What a call does before its first `await`. -/
def begin (s : Page) (c : Nat) (caller : Caller) : Page × Phase :=
  match caller with
  | .fetch input init =>
      if intercepted input.urlStr = false then
        (s.send c input.urlStr false, .passed s.requests.length)
      else if plainGet init then
        ((s.dedupGet c input.urlStr).1, .awaiting (s.dedupGet c input.urlStr).2)
      else (s.send c input.urlStr false, .awaiting s.requests.length)
  | .fetchUser => ((s.dedupGet c mePath).1, .awaiting (s.dedupGet c mePath).2)

/-- `performRefresh`, until it waits for its answer. -/
def performRefresh (s : Page) : Page :=
  { s with
    refreshAttempted := true
    refreshes := s.refreshes ++ [.sent]
    refreshPromise := some s.refreshes.length }

/-- The end of `performRefresh`, and the `finally` after it. -/
def settle (s : Page) (r : Nat) (ok : Bool) : Page :=
  { s with
    refreshes := s.refreshes.set r (.finished ok)
    refreshPromise := none
    refreshSucceeded := s.refreshSucceeded || ok
    log := .refreshed r ok :: s.log }

/-- The body of the response to `q` is asked for. -/
def useBody (s : Page) (q : Nat) (sent : Sent) : Page :=
  { s with requests := s.requests.set q { sent with bodyUsed := true } }

/-- `window.fetch` with its first response. -/
def responded (s : Page) (c q : Nat) (call : Call) (input : Input) (init : Option Init)
    (status : Nat) (cookie : String) : Page :=
  let s := { s with log := .got c q status :: s.log }
  if status = 401 ∧ formDataBody init = false then
    if input.urlStr = mePath ∧
        (hasSession cookie = false ∨ s.refreshAttempted ∧ s.refreshSucceeded = false) then
      s.setCall c { call with phase := .returned q }
    else
      match s.refreshPromise with
      | some r => s.setCall c { call with phase := .refreshing q r }
      | none => s.performRefresh.setCall c { call with phase := .refreshing q s.refreshes.length }
  else s.setCall c { call with phase := .returned q }

/-- `fetchUser` with its response. -/
def userResponded (s : Page) (c q : Nat) (call : Call) (sent : Sent) (status : Nat) : Page :=
  if okStatus status then
    (s.useBody q sent).setCall c { call with phase := .returned q, body := some !sent.bodyUsed }
  else s.setCall c { call with phase := .done }

/-- A call goes on with the response that it has waited for. -/
def received (s : Page) (c q : Nat) (call : Call) (sent : Sent) (cookie : String) : Reply → Page
  | .failed => s.setCall c { call with phase := .done }
  | .response status =>
      match call.caller with
      | .fetch input init => s.responded c q call input init status cookie
      | .fetchUser => s.userResponded c q call sent status

/-- A call goes on after the refresh. -/
def afterRefresh (s : Page) (c q : Nat) (call : Call) (ok throws : Bool) : Page :=
  if ok = true ∧ throws = false then
    (s.send c call.caller.url false).setCall c { call with phase := .passed s.requests.length }
  else s.setCall c { call with phase := .returned q }

def resume (s : Page) (c : Nat) (call : Call) (cookie : String) (throws : Bool) : Option Page :=
  match call.phase with
  | .awaiting q => do
      let sent ← s.requests[q]?
      let reply ← sent.reply
      return s.received c q call sent cookie reply
  | .refreshing q r =>
      match s.refreshes[r]? with
      | some (.finished ok) => some (s.afterRefresh c q call ok throws)
      | _ => none
  | _ => none

def read (s : Page) (c : Nat) (call : Call) : Option Page :=
  match call.body, call.phase with
  | none, .passed q | none, .returned q => do
      let sent ← s.requests[q]?
      match sent.reply with
      | some (.response _) =>
          some ((s.useBody q sent).setCall c { call with body := some !sent.bodyUsed })
      | _ => none
  | _, _ => none

def step (s : Page) : Label → Option Page
  | .call caller =>
      let (s', phase) := s.begin s.calls.length caller
      some { s' with calls := s'.calls ++ [⟨caller, phase, none⟩] }
  | .answer q reply => do
      let sent ← s.requests[q]?
      if sent.reply = none then
        return { s with
          requests := s.requests.set q { sent with reply := some reply }
          inFlightGet :=
            if sent.deduped then s.inFlightGet.filter fun entry => entry.1 ≠ sent.url
            else s.inFlightGet }
      else none
  | .resume c cookie throws => do s.resume c (← s.calls[c]?) cookie throws
  | .refreshAnswer r reply =>
      match s.refreshes[r]?, reply with
      | some .sent, .response status =>
          if okStatus status then some { s with refreshes := s.refreshes.set r .reading }
          else some (s.settle r false)
      | some .sent, .failed => some (s.settle r false)
      | _, _ => none
  | .refreshRead r throws =>
      if s.refreshes[r]? = some .reading then some (s.settle r !throws) else none
  | .read c => do s.read c (← s.calls[c]?)

end Page

/-! ## What the log says -/

def Event.isSend (c : Nat) : Event → Bool
  | .sent c' _ => c' == c
  | _ => false

/-- How often the call has sent its request. -/
def sendCount (c : Nat) (log : List Event) : Nat := log.countP (Event.isSend c)

/-- A refresh has succeeded after the call got a 401. -/
def RefreshedSince (c : Nat) (log : List Event) : Prop :=
  ∃ r q newer older, log = newer ++ .refreshed r true :: older ∧ .got c q 401 ∈ older

/-- No call has sent its request again, except after such a refresh. -/
def Justified : List Event → Prop
  | [] => True
  | e :: older => (∀ c, e.isSend c = true → sendCount c older = 0 ∨ RefreshedSince c older) ∧
      Justified older

/-- The request has been answered with the status. -/
def Page.Responded (s : Page) (q status : Nat) : Prop :=
  ∃ sent, s.requests[q]? = some sent ∧ sent.reply = some (.response status)

structure Orderly (s : Page) : Prop where
  /-- No two refreshes are in flight. -/
  refresh : ∀ (r r' : Nat) (x x' : Refresh), s.refreshes[r]? = some x → s.refreshes[r']? = some x' →
    x.inFlight → x'.inFlight → r = r'
  sends : ∀ c, sendCount c s.log ≤ 2
  again : Justified s.log
  /-- What is not a 401 is returned. -/
  kept : ∀ c q status, .got c q status ∈ s.log → status ≠ 401 →
    s.Responded q status ∧ ∃ call, s.calls[c]? = some call ∧ call.phase = .returned q

/-! ## The invariant -/

/-- How often a call in this phase may have sent its request. -/
def Phase.sends : Phase → Nat
  | .awaiting _ | .refreshing _ _ => 1
  | _ => 2

structure Call.Sound (s : Page) (c : Nat) (call : Call) : Prop where
  request : ∀ q, call.request = some q →
    ∃ sent, s.requests[q]? = some sent ∧ sent.url = call.caller.url
  returned : ∀ q, call.phase = .returned q → ∃ status, s.Responded q status
  sends : sendCount c s.log ≤ call.phase.sends
  got : ∀ q status, .got c q status ∈ s.log →
    s.Responded q status ∧ (status ≠ 401 → call.phase = .returned q)
  refresh : ∀ q r, call.phase = .refreshing q r →
    (∃ status, s.Responded q status) ∧ .got c q 401 ∈ s.log ∧ r < s.refreshes.length ∧
      (s.refreshes[r]? = some (.finished true) → RefreshedSince c s.log)
  unread : ∀ q, call.phase = .awaiting q → call.body = none

/-- The promise is that of the refresh in flight, and the map has requests in flight. -/
structure Page.Wired (s : Page) : Prop where
  refresh : ∀ r (x : Refresh), s.refreshes[r]? = some x → x.inFlight → s.refreshPromise = some r
  promise : ∀ r, s.refreshPromise = some r → ∃ x : Refresh, s.refreshes[r]? = some x ∧ x.inFlight
  inFlight : ∀ url q, (url, q) ∈ s.inFlightGet → s.requests[q]? = some ⟨url, true, none, false⟩

structure Page.Sound (s : Page) : Prop where
  wired : s.Wired
  calls : ∀ c (call : Call), s.calls[c]? = some call → call.Sound s c
  fresh : ∀ c, s.calls.length ≤ c → sendCount c s.log = 0 ∧ ∀ q status, .got c q status ∉ s.log
  justified : Justified s.log

theorem Page.Sound.initial : initial.Sound where
  wired := ⟨(fun _ _ h => nomatch h), (fun _ h => nomatch h), (fun _ _ h => nomatch h)⟩
  calls := fun _ _ h => nomatch h
  fresh := fun _ _ => ⟨rfl, (fun _ _ h => nomatch h)⟩
  justified := trivial

theorem Page.Sound.orderly {s : Page} (h : s.Sound) : Orderly s where
  refresh := by
    intro r r' x x' hx hx' hopen hopen'
    have hr := h.wired.refresh r x hx hopen
    have hr' := h.wired.refresh r' x' hx' hopen'
    exact Option.some.inj (hr.symm.trans hr')
  sends := by
    intro c
    cases hcall : s.calls[c]? with
    | none =>
        have hnone := (h.fresh c (List.getElem?_eq_none_iff.mp hcall)).1
        omega
    | some call =>
        have hle := (h.calls c call hcall).sends
        cases hphase : call.phase <;> simp only [hphase, Phase.sends] at hle <;> omega
  again := h.justified
  kept := by
    intro c q status hgot hstatus
    cases hcall : s.calls[c]? with
    | none => exact absurd hgot ((h.fresh c (List.getElem?_eq_none_iff.mp hcall)).2 q status)
    | some call =>
        obtain ⟨hresponded, hreturned⟩ := (h.calls c call hcall).got q status hgot
        exact ⟨hresponded, call, rfl, hreturned hstatus⟩

/-! ## What a step leaves to the other calls -/

/-- The call that an event is about. -/
def Event.call : Event → Option Nat
  | .sent c _ | .got c _ _ => some c
  | .refreshed _ _ => none

/-- Requests keep their answers, and unread bodies but the one of `used`; the events are those of
the call `who`, and a refresh that has succeeded since is the last event. -/
structure Later (who used : Option Nat) (s s' : Page) : Prop where
  requests : ∀ q sent, s.requests[q]? = some sent → ∃ sent', s'.requests[q]? = some sent' ∧
    sent'.url = sent.url ∧ (∀ reply, sent.reply = some reply → sent'.reply = some reply) ∧
    (used ≠ some q → sent'.bodyUsed = sent.bodyUsed)
  refreshes : s.refreshes.length ≤ s'.refreshes.length
  finished : ∀ r, r < s.refreshes.length → s'.refreshes[r]? = some (.finished true) →
    s.refreshes[r]? = some (.finished true) ∨ s'.log = .refreshed r true :: s.log
  log : ∃ newer, s'.log = newer ++ s.log ∧ ∀ e ∈ newer, ∀ c, e.call = some c → who = some c

section Later

variable {s s' s'' : Page} {who used : Option Nat} {c q status : Nat} {call : Call}

theorem sendCount_sent (log : List Event) :
    sendCount c (.sent c q :: log) = sendCount c log + 1 :=
  List.countP_cons_of_pos (beq_self_eq_true c)

theorem sendCount_append (newer older : List Event) :
    sendCount c (newer ++ older) = sendCount c newer + sendCount c older :=
  List.countP_append

theorem Event.call_of_isSend {e : Event} (h : e.isSend c = true) : e.call = some c := by
  cases e with
  | sent c' q =>
      obtain rfl := eq_of_beq h
      rfl
  | got c' q status => exact absurd h Bool.false_ne_true
  | refreshed r ok => exact absurd h Bool.false_ne_true

theorem sendCount_of_call {newer : List Event} (h : ∀ e ∈ newer, e.call ≠ some c) :
    sendCount c newer = 0 := by
  apply List.countP_eq_zero.mpr
  intro e he hsend
  exact h e he (Event.call_of_isSend hsend)

theorem RefreshedSince.append {log : List Event} (newer : List Event) (h : RefreshedSince c log) :
    RefreshedSince c (newer ++ log) := by
  obtain ⟨r, q, mid, older, rfl, hgot⟩ := h
  exact ⟨r, q, newer ++ mid, older, by rw [List.append_assoc], hgot⟩

theorem Page.Responded.later (h : Later who used s s') (hresponded : s.Responded q status) :
    s'.Responded q status := by
  obtain ⟨sent, hsent, hreply⟩ := hresponded
  obtain ⟨sent', hsent', -, hkeeps, -⟩ := h.requests q sent hsent
  exact ⟨sent', hsent', hkeeps _ hreply⟩

/-- The log of another call has not changed. -/
theorem Later.other (h : Later who used s s') (hother : who ≠ some c) :
    sendCount c s'.log = sendCount c s.log ∧
      ∀ q status, .got c q status ∈ s'.log → .got c q status ∈ s.log := by
  obtain ⟨newer, hlog, hnewer⟩ := h.log
  have hnone : ∀ e ∈ newer, e.call ≠ some c := fun e he hcall => hother (hnewer e he c hcall)
  rw [hlog]
  constructor
  · rw [sendCount_append, sendCount_of_call hnone, Nat.zero_add]
  · intro q status hgot
    rcases List.mem_append.mp hgot with hgot | hgot
    · exact absurd rfl (hnone _ hgot)
    · exact hgot

/-- A call in which nothing has happened stays sound. -/
theorem Call.Sound.later (h : call.Sound s c) (hlater : Later who used s s')
    (hother : who ≠ some c) : call.Sound s' c where
  request := by
    intro q hq
    obtain ⟨sent, hsent, hurl⟩ := h.request q hq
    obtain ⟨sent', hsent', hurl', -⟩ := hlater.requests q sent hsent
    exact ⟨sent', hsent', hurl'.trans hurl⟩
  returned := by
    intro q hq
    obtain ⟨status, hstatus⟩ := h.returned q hq
    exact ⟨status, hstatus.later hlater⟩
  sends := by
    rw [(hlater.other hother).1]
    exact h.sends
  got := by
    intro q status hgot
    obtain ⟨hresponded, hreturned⟩ := h.got q status ((hlater.other hother).2 q status hgot)
    exact ⟨hresponded.later hlater, hreturned⟩
  refresh := by
    intro q r hphase
    obtain ⟨⟨status, hstatus⟩, hgot, hr, hfinished⟩ := h.refresh q r hphase
    obtain ⟨newer, hlog, -⟩ := hlater.log
    refine ⟨⟨status, hstatus.later hlater⟩, ?_, by have := hlater.refreshes; omega, ?_⟩
    · rw [hlog]
      exact List.mem_append_right _ hgot
    · intro hdone
      rcases hlater.finished r hr hdone with hbefore | hnow
      · rw [hlog]
        exact (hfinished hbefore).append newer
      · exact ⟨r, q, [], s.log, hnow, hgot⟩
  unread := h.unread

/-- A step of the call `who`, or of none, after which that call is sound. -/
theorem Page.Sound.of_later (h : s.Sound) (hlater : Later who used s s') (hwired : s'.Wired)
    (hjustified : Justified s'.log) (hlength : s.calls.length ≤ s'.calls.length)
    (hothers : ∀ c call, who ≠ some c → s'.calls[c]? = some call → s.calls[c]? = some call)
    (hown : ∀ c, who = some c → c < s'.calls.length ∧
      ∀ call, s'.calls[c]? = some call → call.Sound s' c) : s'.Sound where
  wired := hwired
  calls := by
    intro c call hcall
    by_cases hwho : who = some c
    · exact (hown c hwho).2 call hcall
    · exact (h.calls c call (hothers c call hwho hcall)).later hlater hwho
  fresh := by
    intro c hc
    have hwho : who ≠ some c := fun hwho => absurd (hown c hwho).1 (by omega)
    obtain ⟨hsends, hgot⟩ := hlater.other hwho
    obtain ⟨hnone, hnever⟩ := h.fresh c (by omega)
    exact ⟨hsends.trans hnone, fun q status hmem => hnever q status (hgot q status hmem)⟩
  justified := hjustified

end Later

/-! ## The parts of a step -/

section Parts

variable {s s' : Page} {who used : Option Nat} {c q r status : Nat} {call call' : Call}

theorem getElem?_of_append {α : Type} {l l' more : List α} {i : Nat} {x : α}
    (h : l' = l ++ more) (hx : l[i]? = some x) : l'[i]? = some x := by
  obtain ⟨hi, rfl⟩ := List.getElem?_eq_some_iff.mp hx
  rw [h, List.getElem?_append_left hi, List.getElem?_eq_getElem hi]

theorem Later.of_append {newRequests : List Sent} {newRefreshes : List Refresh}
    {newer : List Event} (hrequests : s'.requests = s.requests ++ newRequests)
    (hrefreshes : s'.refreshes = s.refreshes ++ newRefreshes) (hlog : s'.log = newer ++ s.log)
    (hnewer : ∀ e ∈ newer, ∀ c, e.call = some c → who = some c) : Later who used s s' where
  requests := fun _ sent hsent =>
    ⟨sent, getElem?_of_append hrequests hsent, rfl, fun _ h => h, fun _ => rfl⟩
  refreshes := by
    rw [hrefreshes, List.length_append]
    omega
  finished := by
    intro r hr hdone
    rw [hrefreshes, List.getElem?_append_left hr] at hdone
    exact .inl hdone
  log := ⟨newer, hlog, hnewer⟩

theorem Later.setCall (h : Later who used s s') (c : Nat) (call : Call) :
    Later who used s (s'.setCall c call) :=
  ⟨h.requests, h.refreshes, h.finished, h.log⟩

theorem Page.Wired.setCall (h : s.Wired) (c : Nat) (call : Call) : (s.setCall c call).Wired :=
  ⟨h.refresh, h.promise, h.inFlight⟩

theorem call_of_mem_singleton {e e' : Event} (hcall : e.call = some c) (he : e' ∈ [e]) :
    ∀ c', e'.call = some c' → some c = some c' := by
  obtain rfl := List.mem_singleton.mp he
  exact fun c' hc' => hcall.symm.trans hc'

theorem Page.Wired.of_append (h : s.Wired) {newRequests : List Sent}
    (hrequests : s'.requests = s.requests ++ newRequests)
    (hrefreshes : s'.refreshes = s.refreshes) (hpromise : s'.refreshPromise = s.refreshPromise)
    (hmap : s'.inFlightGet = s.inFlightGet) : s'.Wired where
  refresh := by
    rw [hrefreshes, hpromise]
    exact h.refresh
  promise := by
    rw [hrefreshes, hpromise]
    exact h.promise
  inFlight := by
    intro url q hmem
    rw [hmap] at hmem
    exact getElem?_of_append hrequests (h.inFlight url q hmem)

/-- A call has begun with a request for its URL whose body nobody has read. -/
structure Began (s : Page) (c : Nat) (url : String) (s' : Page) (q : Nat) : Prop where
  calls : s'.calls = s.calls
  later : Later (some c) none s s'
  wired : s'.Wired
  log : s'.log = .sent c q :: s.log
  request : ∃ sent, s'.requests[q]? = some sent ∧ sent.url = url ∧ sent.bodyUsed = false

theorem Page.Wired.send (h : s.Wired) (url : String) (deduped : Bool) :
    Began s c url (s.send c url deduped) s.requests.length where
  calls := rfl
  later := .of_append rfl (List.append_nil _).symm rfl fun _ => call_of_mem_singleton rfl
  wired := h.of_append rfl rfl rfl rfl
  log := rfl
  request := ⟨_, List.getElem?_concat_length, rfl, rfl⟩

theorem Page.Wired.dedupGet (h : s.Wired) (url : String) :
    Began s c url (s.dedupGet c url).1 (s.dedupGet c url).2 := by
  unfold Page.dedupGet
  cases hlookup : s.inFlightGet.lookup url with
  | some existing =>
      obtain ⟨before, after, hsplit, -⟩ := List.lookup_eq_some_iff.mp hlookup
      have hmem : (url, existing) ∈ s.inFlightGet := by
        rw [hsplit]
        exact List.mem_append_right _ (List.mem_cons_self)
      exact {
        calls := rfl
        later := .of_append (List.append_nil _).symm (List.append_nil _).symm rfl
          fun _ => call_of_mem_singleton rfl
        wired := h.of_append (List.append_nil _).symm rfl rfl rfl
        log := rfl
        request := ⟨_, h.inFlight url existing hmem, rfl, rfl⟩ }
  | none =>
      have hsent := h.send (c := c) url true
      exact {
        calls := rfl
        later := ⟨hsent.later.requests, hsent.later.refreshes, hsent.later.finished,
          hsent.later.log⟩
        wired := by
          refine ⟨hsent.wired.refresh, hsent.wired.promise, fun url' q' hmem => ?_⟩
          rcases List.mem_cons.mp hmem with hnew | hold
          · obtain ⟨rfl, rfl⟩ := Prod.mk.inj hnew
            exact List.getElem?_concat_length
          · exact hsent.wired.inFlight url' q' hold
        log := rfl
        request := hsent.request }

theorem Page.Wired.begin (h : s.Wired) (caller : Caller) :
    ∃ q, Began s c caller.url (s.begin c caller).1 q ∧
      ((s.begin c caller).2 = .awaiting q ∨ (s.begin c caller).2 = .passed q) := by
  unfold Page.begin
  cases caller with
  | fetch input init =>
      dsimp only
      split_ifs
      · exact ⟨_, h.send input.urlStr false, .inr rfl⟩
      · exact ⟨_, h.dedupGet input.urlStr, .inl rfl⟩
      · exact ⟨_, h.send input.urlStr false, .inl rfl⟩
  | fetchUser => exact ⟨_, h.dedupGet mePath, .inl rfl⟩

theorem Later.of_set {sent sent' : Sent} (hsent : s.requests[q]? = some sent)
    (hrequests : s'.requests = s.requests.set q sent') (hurl : sent'.url = sent.url)
    (hreply : ∀ reply, sent.reply = some reply → sent'.reply = some reply)
    (hbody : used ≠ some q → sent'.bodyUsed = sent.bodyUsed)
    (hrefreshes : s'.refreshes = s.refreshes) (hlog : s'.log = s.log) : Later who used s s' where
  requests := by
    intro q' old hold
    rw [hrequests]
    by_cases hq : q = q'
    · subst hq
      obtain rfl := Option.some.inj (hsent.symm.trans hold)
      obtain ⟨hlt, -⟩ := List.getElem?_eq_some_iff.mp hsent
      exact ⟨sent', List.getElem?_set_self hlt, hurl, hreply, hbody⟩
    · refine ⟨old, ?_, rfl, fun _ h => h, fun _ => rfl⟩
      rw [List.getElem?_set_ne hq]
      exact hold
  refreshes := by rw [hrefreshes]
  finished := by
    intro r _ hdone
    rw [hrefreshes] at hdone
    exact .inl hdone
  log := ⟨[], hlog, fun _ he => absurd he List.not_mem_nil⟩

/-- A request that has been answered is not in the map. -/
theorem Page.Wired.of_set {sent sent' : Sent} (h : s.Wired) (hsent : s.requests[q]? = some sent)
    (hreply : sent.reply ≠ none) (hrequests : s'.requests = s.requests.set q sent')
    (hrefreshes : s'.refreshes = s.refreshes) (hpromise : s'.refreshPromise = s.refreshPromise)
    (hmap : s'.inFlightGet = s.inFlightGet) : s'.Wired where
  refresh := by
    rw [hrefreshes, hpromise]
    exact h.refresh
  promise := by
    rw [hrefreshes, hpromise]
    exact h.promise
  inFlight := by
    intro url q' hmem
    rw [hmap] at hmem
    have hold := h.inFlight url q' hmem
    have hq : q ≠ q' := by
      rintro rfl
      obtain rfl := Option.some.inj (hsent.symm.trans hold)
      exact hreply rfl
    rw [hrequests, List.getElem?_set_ne hq]
    exact hold

theorem Page.Wired.answer {sent : Sent} (h : s.Wired) (hsent : s.requests[q]? = some sent)
    {reply : Option Reply} : Page.Wired { s with
      requests := s.requests.set q { sent with reply := reply }
      inFlightGet :=
        if sent.deduped then s.inFlightGet.filter fun entry => entry.1 ≠ sent.url
        else s.inFlightGet } where
  refresh := h.refresh
  promise := h.promise
  inFlight := by
    intro url q' hmem
    have hold : (url, q') ∈ s.inFlightGet ∧ (sent.deduped = true → url ≠ sent.url) := by
      cases hdeduped : sent.deduped with
      | false =>
          simp only [hdeduped, Bool.false_eq_true, if_false] at hmem
          exact ⟨hmem, fun heq => nomatch heq⟩
      | true =>
          simp only [hdeduped, if_true] at hmem
          obtain ⟨hmem, hurl⟩ := List.mem_filter.mp hmem
          exact ⟨hmem, fun _ => of_decide_eq_true hurl⟩
    have hinFlight := h.inFlight url q' hold.1
    have hq : q ≠ q' := by
      rintro rfl
      obtain rfl := Option.some.inj (hsent.symm.trans hinFlight)
      exact hold.2 rfl rfl
    rw [List.getElem?_set_ne hq]
    exact hinFlight

theorem Page.Wired.performRefresh (h : s.Wired) (hnone : s.refreshPromise = none) :
    s.performRefresh.Wired where
  refresh := by
    intro r x hx hopen
    rcases Concurrent.getElem?_snoc hx with hold | ⟨rfl, -⟩
    · have hpromise := h.refresh r x hold hopen
      exact absurd (hpromise.symm.trans hnone) (fun heq => nomatch heq)
    · rfl
  promise := by
    intro r hr
    obtain rfl := Option.some.inj hr
    exact ⟨.sent, List.getElem?_concat_length, trivial⟩
  inFlight := h.inFlight

theorem Page.Wired.settle {x : Refresh} (h : s.Wired) (hx : s.refreshes[r]? = some x)
    (hopen : x.inFlight) (ok : Bool) : (s.settle r ok).Wired where
  refresh := by
    intro r' x' hx' hopen'
    by_cases hr : r = r'
    · subst hr
      obtain ⟨hlt, -⟩ := List.getElem?_eq_some_iff.mp hx
      have hdone := List.getElem?_set_self (a := Refresh.finished ok) hlt
      obtain rfl := Option.some.inj (hx'.symm.trans hdone)
      exact hopen'.elim
    · have hold := (List.getElem?_set_ne hr).symm.trans hx'
      have hpromise := (h.refresh r x hx hopen).symm.trans (h.refresh r' x' hold hopen')
      exact absurd (Option.some.inj hpromise) hr
  promise := fun _ h => nomatch h
  inFlight := h.inFlight

theorem Later.settle (ok : Bool) : Later who used s (s.settle r ok) where
  requests := fun _ sent hsent => ⟨sent, hsent, rfl, fun _ h => h, fun _ => rfl⟩
  refreshes := Nat.le_of_eq List.length_set.symm
  finished := by
    intro r' hr' hdone
    by_cases hr : r = r'
    · subst hr
      have hset := List.getElem?_set_self (a := Refresh.finished ok) hr'
      obtain rfl := Refresh.finished.inj (Option.some.inj (hset.symm.trans hdone))
      exact .inr rfl
    · exact .inl ((List.getElem?_set_ne hr).symm.trans hdone)
  log := ⟨[.refreshed r ok], rfl, fun e he c hc => by
    obtain rfl := List.mem_singleton.mp he
    exact nomatch hc⟩

end Parts

/-! ## Steps keep the invariant -/

section Steps

variable {s s' : Page} {used : Option Nat} {c c' q r status : Nat} {call call' : Call}

theorem Justified.cons {e : Event} {log : List Event} (h : Justified log)
    (hnew : ∀ c, e.isSend c = true → sendCount c log = 0 ∨ RefreshedSince c log) :
    Justified (e :: log) :=
  ⟨hnew, h⟩

theorem Call.Sound.waiting (h : call.Sound s c) (hphase : call.phase.sends = 1) :
    sendCount c s.log ≤ 1 ∧
      ∀ q status, .got c q status ∈ s.log → s.Responded q status ∧ status = 401 := by
  constructor
  · have hle := h.sends
    omega
  · intro q status hgot
    obtain ⟨hresponded, hreturned⟩ := h.got q status hgot
    refine ⟨hresponded, ?_⟩
    by_contra hne
    rw [hreturned hne] at hphase
    exact absurd hphase (show 2 ≠ 1 by decide)

/-- A call that has waited ends. -/
theorem Call.Sound.ends (h : call.Sound s c) (hphase : call.phase.sends = 1)
    (hlater : Later (some c) used s s') (hended : call'.phase.sends = 2)
    (hsends : sendCount c s'.log ≤ sendCount c s.log + 1)
    (hgot : ∀ q status, .got c q status ∈ s'.log → .got c q status ∈ s.log ∨
      s'.Responded q status ∧ call'.phase = .returned q)
    (hrequest : ∀ q, call'.request = some q →
      ∃ sent, s'.requests[q]? = some sent ∧ sent.url = call'.caller.url)
    (hreturned : ∀ q, call'.phase = .returned q → ∃ status, s'.Responded q status) :
    call'.Sound s' c where
  request := hrequest
  returned := hreturned
  sends := by
    have hle := (h.waiting hphase).1
    omega
  got := by
    intro q status hmem
    rcases hgot q status hmem with hold | ⟨hresponded, hreturned⟩
    · obtain ⟨hresponded, rfl⟩ := (h.waiting hphase).2 q status hold
      exact ⟨hresponded.later hlater, fun hne => absurd rfl hne⟩
    · exact ⟨hresponded, fun _ => hreturned⟩
  refresh := by
    intro q r heq
    rw [heq] at hended
    exact absurd hended (show 1 ≠ 2 by decide)
  unread := by
    intro q heq
    rw [heq] at hended
    exact absurd hended (show 1 ≠ 2 by decide)

/-- Only the call `c` has changed. -/
theorem Page.Sound.update (h : s.Sound) (hcall : s.calls[c]? = some call)
    (hlater : Later (some c) used s s') (hwired : s'.Wired) (hjustified : Justified s'.log)
    (hcalls : s'.calls = s.calls.set c call') (hnew : call'.Sound s' c) : s'.Sound := by
  obtain ⟨hlt, -⟩ := List.getElem?_eq_some_iff.mp hcall
  apply h.of_later hlater hwired hjustified
  · rw [hcalls, List.length_set]
  · intro c' other hother hmem
    have hne : c ≠ c' := fun heq => hother (congrArg some heq)
    rw [hcalls, List.getElem?_set_ne hne] at hmem
    exact hmem
  · intro c' hc'
    obtain rfl := Option.some.inj hc'
    rw [hcalls, List.length_set]
    refine ⟨hlt, fun other hmem => ?_⟩
    rw [List.getElem?_set_self hlt] at hmem
    obtain rfl := Option.some.inj hmem
    exact hnew

theorem Page.Sound.calling (h : s.Sound) (caller : Caller) :
    Page.Sound { (s.begin s.calls.length caller).1 with
      calls := (s.begin s.calls.length caller).1.calls ++
        [⟨caller, (s.begin s.calls.length caller).2, none⟩] } := by
  obtain ⟨q, hbegan, hphase⟩ := h.wired.begin (c := s.calls.length) caller
  obtain ⟨hnone, hnever⟩ := h.fresh s.calls.length (Nat.le_refl _)
  generalize s.begin s.calls.length caller = begun at hbegan hphase
  obtain ⟨s', phase⟩ := begun
  dsimp only at hbegan hphase ⊢
  have hlater : Later (some s.calls.length) none s { s' with
      calls := s'.calls ++ [⟨caller, phase, none⟩] } :=
    ⟨hbegan.later.requests, hbegan.later.refreshes, hbegan.later.finished, hbegan.later.log⟩
  rw [hbegan.calls] at hlater ⊢
  apply h.of_later hlater
  · exact ⟨hbegan.wired.refresh, hbegan.wired.promise, hbegan.wired.inFlight⟩
  · change Justified s'.log
    rw [hbegan.log]
    refine h.justified.cons fun c hc => .inl ?_
    obtain rfl := eq_of_beq hc
    exact hnone
  · change s.calls.length ≤ (s.calls ++ [_]).length
    rw [List.length_append]
    omega
  · intro c call hother hmem
    rcases Concurrent.getElem?_snoc hmem with hold | ⟨rfl, -⟩
    · exact hold
    · exact absurd rfl hother
  · intro c hc
    obtain rfl := Option.some.inj hc
    refine ⟨by simp, fun call hmem => ?_⟩
    obtain rfl := Option.some.inj (List.getElem?_concat_length.symm.trans hmem)
    have hsends : sendCount s.calls.length s'.log = 1 := by
      rw [hbegan.log, sendCount_sent, hnone]
    have hgot : ∀ q status, .got s.calls.length q status ∉ s'.log := by
      intro q status hmem
      rw [hbegan.log] at hmem
      exact hnever q status ((List.mem_cons.mp hmem).resolve_left fun heq => nomatch heq)
    obtain ⟨sent, hsent, hurl, -⟩ := hbegan.request
    rcases hphase with rfl | rfl
    · exact {
        request := fun q' hq' => ⟨sent, Option.some.inj hq' ▸ hsent, hurl⟩
        returned := fun _ heq => nomatch heq
        sends := hsends.le
        got := fun q' status hmem => absurd hmem (hgot q' status)
        refresh := fun _ _ heq => nomatch heq
        unread := fun _ _ => rfl }
    · exact {
        request := fun q' hq' => ⟨sent, Option.some.inj hq' ▸ hsent, hurl⟩
        returned := fun _ heq => nomatch heq
        sends := hsends.le.trans (Nat.le_succ 1)
        got := fun q' status hmem => absurd hmem (hgot q' status)
        refresh := fun _ _ heq => nomatch heq
        unread := fun _ _ => rfl }

/-- A step of no call. -/
theorem Page.Sound.quiet (h : s.Sound) (hlater : Later none none s s') (hwired : s'.Wired)
    (hjustified : Justified s'.log) (hcalls : s'.calls = s.calls) : s'.Sound := by
  apply h.of_later hlater hwired hjustified (by rw [hcalls])
  · intro c call _ hmem
    rw [hcalls] at hmem
    exact hmem
  · exact fun c hc => nomatch hc

/-- The answer to a refresh has come, and its body is to be read. -/
theorem Page.Sound.reading (h : s.Sound) (hr : s.refreshes[r]? = some .sent) :
    Page.Sound { s with refreshes := s.refreshes.set r .reading } := by
  obtain ⟨hlt, -⟩ := List.getElem?_eq_some_iff.mp hr
  have hpromise := h.wired.refresh r .sent hr trivial
  refine Page.Sound.quiet h ?_ ?_ h.justified rfl
  · exact {
      requests := fun _ sent hsent => ⟨sent, hsent, rfl, fun _ h => h, fun _ => rfl⟩
      refreshes := Nat.le_of_eq List.length_set.symm
      finished := by
        intro r' _ hdone
        by_cases hne : r = r'
        · subst hne
          have hset := List.getElem?_set_self (a := Refresh.reading) hlt
          exact nomatch Option.some.inj (hset.symm.trans hdone)
        · exact .inl ((List.getElem?_set_ne hne).symm.trans hdone)
      log := ⟨[], rfl, fun _ he => absurd he List.not_mem_nil⟩ }
  · exact {
      refresh := by
        intro r' x hx hopen
        by_cases hne : r = r'
        · exact hne ▸ hpromise
        · exact h.wired.refresh r' x ((List.getElem?_set_ne hne).symm.trans hx) hopen
      promise := by
        intro r' hr'
        obtain rfl := Option.some.inj (hpromise.symm.trans hr')
        exact ⟨.reading, List.getElem?_set_self hlt, trivial⟩
      inFlight := h.wired.inFlight }

/-! ### A call goes on -/

theorem Later.of_log {newer : List Event} (hrequests : s'.requests = s.requests)
    (hrefreshes : s'.refreshes = s.refreshes) (hlog : s'.log = newer ++ s.log)
    (hnewer : ∀ e ∈ newer, ∀ c, e.call = some c → some c' = some c) :
    Later (some c') used s s' :=
  .of_append (hrequests.trans (List.append_nil _).symm) (hrefreshes.trans (List.append_nil _).symm)
    hlog hnewer

/-- A call that has waited ends, and nothing else happens. -/
theorem Page.Sound.ended (h : s.Sound) (hcall : s.calls[c]? = some call)
    (hphase : call.phase.sends = 1) (hcaller : call'.caller = call.caller)
    (hended : call'.phase = .done ∨ call'.phase = .returned q ∧ call.request = some q ∧
      ∃ status, s.Responded q status) : (s.setCall c call').Sound := by
  have hlater : Later (some c) none s (s.setCall c call') :=
    .of_log rfl rfl rfl fun e he => absurd he List.not_mem_nil
  apply h.update hcall hlater (h.wired.of_append (List.append_nil _).symm rfl rfl rfl) h.justified rfl
  have hsound := h.calls c call hcall
  apply hsound.ends hphase hlater
  · rcases hended with hdone | ⟨hreturned, -⟩
    · rw [hdone]
      rfl
    · rw [hreturned]
      rfl
  · exact Nat.le_succ _
  · exact fun q status hgot => .inl hgot
  · intro q' hq'
    rcases hended with hdone | ⟨hreturned, hrequest, -⟩
    · simp [Call.request, hdone] at hq'
    · simp only [Call.request, hreturned] at hq'
      obtain rfl := Option.some.inj hq'
      rw [hcaller]
      exact hsound.request q hrequest
  · intro q' hq'
    rcases hended with hdone | ⟨hreturned, -, hresponded⟩
    · exact nomatch hdone.symm.trans hq'
    · obtain rfl := Phase.returned.inj (hreturned.symm.trans hq')
      exact hresponded

theorem Later.useBody (c : Nat) {sent : Sent} (hsent : s.requests[q]? = some sent) :
    Later (some c) (some q) s (s.useBody q sent) :=
  .of_set hsent rfl rfl (fun _ h => h) (fun hne => absurd rfl hne) rfl rfl

theorem Page.Wired.useBody {sent : Sent} (h : s.Wired) (hsent : s.requests[q]? = some sent)
    (hreply : sent.reply = some (.response status)) : (s.useBody q sent).Wired :=
  h.of_set hsent (hreply ▸ fun heq => nomatch heq) rfl rfl rfl rfl

theorem Call.request_of_awaiting (h : call.phase = .awaiting q) : call.request = some q := by
  unfold Call.request
  rw [h]

theorem Call.request_of_refreshing (h : call.phase = .refreshing q r) :
    call.request = some q := by
  unfold Call.request
  rw [h]

theorem Page.Sound.responded {input : Input} {init : Option Init} {cookie : String}
    (h : s.Sound) (hcall : s.calls[c]? = some call) (hphase : call.phase = .awaiting q)
    (hresponded : s.Responded q status) :
    (s.responded c q call input init status cookie).Sound := by
  have hsound := h.calls c call hcall
  have hwaits : call.phase.sends = 1 := by
    rw [hphase]
    rfl
  have hrequest := hsound.request q (Call.request_of_awaiting hphase)
  have hgotten : ∀ {q' status'}, .got c q' status' ∈ Event.got c q status :: s.log →
      .got c q' status' ∈ s.log ∨ q' = q ∧ status' = status := by
    intro q' status' hmem
    rcases List.mem_cons.mp hmem with heq | hold
    · obtain ⟨-, rfl, rfl⟩ := Event.got.inj heq
      exact .inr ⟨rfl, rfl⟩
    · exact .inl hold
  have hcount : sendCount c (Event.got c q status :: s.log) = sendCount c s.log :=
    List.countP_cons_of_neg Bool.false_ne_true
  have hjustified : Justified (Event.got c q status :: s.log) :=
    h.justified.cons fun _ heq => absurd heq Bool.false_ne_true
  have hlogged : ∀ e ∈ [Event.got c q status], ∀ c', e.call = some c' → some c = some c' :=
    fun _ => call_of_mem_singleton rfl
  have hreturns : ({ s with log := .got c q status :: s.log } : Page).setCall c
      { call with phase := .returned q } |>.Sound := by
    have hlater : Later (some c) none s (({ s with log := .got c q status :: s.log } : Page).setCall c
        { call with phase := .returned q }) := .of_log rfl rfl rfl hlogged
    apply h.update hcall hlater (h.wired.of_append (List.append_nil _).symm rfl rfl rfl) hjustified rfl
    apply hsound.ends hwaits hlater rfl
    · exact hcount.le.trans (Nat.le_succ _)
    · intro q' status' hmem
      rcases hgotten hmem with hold | ⟨rfl, rfl⟩
      · exact .inl hold
      · exact .inr ⟨hresponded, rfl⟩
    · intro q' hq'
      obtain rfl := Option.some.inj hq'
      exact hrequest
    · intro q' hq'
      obtain rfl := Phase.returned.inj hq'
      exact ⟨status, hresponded⟩
  -- A call that waits for a refresh in flight.
  have hwaiting : ∀ {s' : Page} {r : Nat}, Later (some c) none s s' → s'.Wired →
      s'.log = .got c q status :: s.log → s'.refreshPromise = some r → s'.calls = s.calls →
      status = 401 → (s'.setCall c { call with phase := .refreshing q r }).Sound := by
    intro s' r hlater hwired hlog hpromise hcalls h401
    obtain ⟨x, hx, hopen⟩ := hwired.promise r hpromise
    obtain ⟨hlt, -⟩ := List.getElem?_eq_some_iff.mp hx
    have hlater := hlater.setCall c { call with phase := .refreshing q r }
    apply h.update hcall hlater (hwired.setCall c _)
    · change Justified s'.log
      rw [hlog]
      exact hjustified
    · change s'.calls.set c _ = _
      rw [hcalls]
    exact {
      request := by
        intro q' hq'
        obtain rfl := Option.some.inj hq'
        obtain ⟨sent, hsent, hurl⟩ := hrequest
        obtain ⟨sent', hsent', hurl', -⟩ := hlater.requests q sent hsent
        exact ⟨sent', hsent', hurl'.trans hurl⟩
      returned := fun _ heq => nomatch heq
      sends := by
        change sendCount c s'.log ≤ 1
        rw [hlog, hcount]
        exact (hsound.waiting hwaits).1
      got := by
        intro q' status' hmem
        change .got c q' status' ∈ s'.log at hmem
        rw [hlog] at hmem
        rcases hgotten hmem with hold | ⟨rfl, rfl⟩
        · obtain ⟨hthen, rfl⟩ := (hsound.waiting hwaits).2 q' status' hold
          exact ⟨hthen.later hlater, fun hne => absurd rfl hne⟩
        · exact ⟨hresponded.later hlater, fun hne => absurd h401 hne⟩
      refresh := by
        intro q' r' heq
        obtain ⟨rfl, rfl⟩ := Phase.refreshing.inj heq
        refine ⟨⟨status, hresponded.later hlater⟩, ?_, hlt, fun hdone => ?_⟩
        · change .got c q 401 ∈ s'.log
          rw [hlog, h401]
          exact List.mem_cons_self
        · obtain rfl := Option.some.inj (hx.symm.trans hdone)
          exact hopen.elim
      unread := fun _ heq => nomatch heq }
  unfold Page.responded
  dsimp only
  split_ifs with h401 hguest
  · exact hreturns
  · split
    · next r hr =>
        exact hwaiting (.of_log rfl rfl rfl hlogged)
          (h.wired.of_append (List.append_nil _).symm rfl rfl rfl) rfl hr rfl h401.1
    · next hr =>
        have hwired : Page.Wired { s with log := .got c q status :: s.log } :=
          h.wired.of_append (List.append_nil _).symm rfl rfl rfl
        exact hwaiting (.of_append (List.append_nil _).symm rfl rfl hlogged)
          (hwired.performRefresh hr) rfl rfl rfl h401.1
  · exact hreturns

theorem Page.Sound.userResponded {sent : Sent} (h : s.Sound) (hcall : s.calls[c]? = some call)
    (hphase : call.phase = .awaiting q) (hsent : s.requests[q]? = some sent)
    (hreply : sent.reply = some (.response status)) :
    (s.userResponded c q call sent status).Sound := by
  have hsound := h.calls c call hcall
  have hwaits : call.phase.sends = 1 := by
    rw [hphase]
    rfl
  unfold Page.userResponded
  split_ifs
  · have hlater := (Later.useBody c hsent).setCall c
      { call with phase := .returned q, body := some !sent.bodyUsed }
    have hresponded := Page.Responded.later hlater ⟨sent, hsent, hreply⟩
    apply h.update hcall hlater ((h.wired.useBody hsent hreply).setCall c _) h.justified rfl
    apply hsound.ends hwaits hlater rfl (Nat.le_succ _)
    · exact fun q' status' hgot => .inl hgot
    · intro q' hq'
      obtain rfl := Option.some.inj hq'
      obtain ⟨old, hold, hurl⟩ := hsound.request q (Call.request_of_awaiting hphase)
      obtain ⟨sent', hsent', hurl', -⟩ := hlater.requests q old hold
      exact ⟨sent', hsent', hurl'.trans hurl⟩
    · intro q' hq'
      obtain rfl := Phase.returned.inj hq'
      exact ⟨status, hresponded⟩
  · exact h.ended hcall (q := q) hwaits rfl (.inl rfl)

theorem Page.Sound.afterRefresh {ok throws : Bool} (h : s.Sound)
    (hcall : s.calls[c]? = some call) (hphase : call.phase = .refreshing q r)
    (hdone : s.refreshes[r]? = some (.finished ok)) :
    (s.afterRefresh c q call ok throws).Sound := by
  have hsound := h.calls c call hcall
  have hwaits : call.phase.sends = 1 := by
    rw [hphase]
    rfl
  obtain ⟨hresponded, -, -, hsince⟩ := hsound.refresh q r hphase
  unfold Page.afterRefresh
  split_ifs with hagain
  · have hbegan := h.wired.send (c := c) call.caller.url false
    have hlater := hbegan.later.setCall c { call with phase := .passed s.requests.length }
    apply h.update hcall hlater (hbegan.wired.setCall c _) _ rfl
    · apply hsound.ends hwaits hlater rfl
      · exact (sendCount_sent s.log).le
      · exact fun q' status' hgot => .inl ((List.mem_cons.mp hgot).resolve_left fun heq => nomatch heq)
      · intro q' hq'
        obtain rfl := Option.some.inj hq'
        obtain ⟨sent, hsent, hurl, -⟩ := hbegan.request
        exact ⟨sent, hsent, hurl⟩
      · exact fun q' heq => nomatch heq
    · refine h.justified.cons fun c' hc' => .inr ?_
      obtain rfl := eq_of_beq hc'
      exact hsince (hagain.1 ▸ hdone)
  · exact h.ended hcall hwaits rfl (.inr ⟨rfl, Call.request_of_refreshing hphase, hresponded⟩)

theorem Page.Sound.resume {cookie : String} {throws : Bool} (h : s.Sound)
    (hcall : s.calls[c]? = some call) (hs : s.resume c call cookie throws = some s') :
    s'.Sound := by
  unfold Page.resume at hs
  split at hs
  · next q hphase =>
      obtain ⟨sent, hsent, hs⟩ := Option.bind_eq_some_iff.mp hs
      obtain ⟨reply, hreply, hs⟩ := Option.bind_eq_some_iff.mp hs
      obtain rfl := Option.some.inj hs
      cases reply with
      | failed =>
          have hwaits : call.phase.sends = 1 := by
            rw [hphase]
            rfl
          exact h.ended hcall (q := q) hwaits rfl (.inl rfl)
      | response status =>
          unfold Page.received
          dsimp only
          split
          · exact h.responded hcall hphase ⟨sent, hsent, hreply⟩
          · exact h.userResponded hcall hphase hsent hreply
  · next q r hphase =>
      split at hs
      · next ok hdone =>
          obtain rfl := Option.some.inj hs
          exact h.afterRefresh hcall hphase hdone
      · exact nomatch hs
  · exact nomatch hs

/-- What the caller does when it reads the body. -/
theorem Page.read_eq_some (hs : s.read c call = some s') : ∃ q sent status,
    call.body = none ∧ (call.phase = .passed q ∨ call.phase = .returned q) ∧
    s.requests[q]? = some sent ∧ sent.reply = some (.response status) ∧
    s' = (s.useBody q sent).setCall c { call with body := some !sent.bodyUsed } := by
  unfold Page.read at hs
  split at hs
  · next q hbody hphase =>
      obtain ⟨sent, hsent, hs⟩ := Option.bind_eq_some_iff.mp hs
      split at hs
      · next status hreply =>
          exact ⟨q, sent, status, hbody, .inl hphase, hsent, hreply, (Option.some.inj hs).symm⟩
      · exact nomatch hs
  · next q hbody hphase =>
      obtain ⟨sent, hsent, hs⟩ := Option.bind_eq_some_iff.mp hs
      split at hs
      · next status hreply =>
          exact ⟨q, sent, status, hbody, .inr hphase, hsent, hreply, (Option.some.inj hs).symm⟩
      · exact nomatch hs
  · exact nomatch hs

theorem Page.Sound.read (h : s.Sound) (hcall : s.calls[c]? = some call)
    (hs : s.read c call = some s') : s'.Sound := by
  obtain ⟨q, sent, status, -, hphase, hsent, hreply, rfl⟩ := Page.read_eq_some hs
  have hsound := h.calls c call hcall
  have hlater := (Later.useBody c hsent).setCall c { call with body := some !sent.bodyUsed }
  apply h.update hcall hlater ((h.wired.useBody hsent hreply).setCall c _) h.justified rfl
  exact {
    request := by
      intro q' hq'
      obtain ⟨old, hold, hurl⟩ := hsound.request q' hq'
      obtain ⟨sent', hsent', hurl', -⟩ := hlater.requests q' old hold
      exact ⟨sent', hsent', hurl'.trans hurl⟩
    returned := by
      intro q' hq'
      obtain ⟨status', hresponded⟩ := hsound.returned q' hq'
      exact ⟨status', hresponded.later hlater⟩
    sends := hsound.sends
    got := by
      intro q' status' hgot
      obtain ⟨hresponded, hreturned⟩ := hsound.got q' status' hgot
      exact ⟨hresponded.later hlater, hreturned⟩
    refresh := by
      intro q' r' heq
      rcases hphase with hphase | hphase <;> exact nomatch hphase.symm.trans heq
    unread := by
      intro q' heq
      rcases hphase with hphase | hphase <;> exact nomatch hphase.symm.trans heq }

theorem Page.Sound.step {label : Label} (h : s.Sound) (hs : s.step label = some s') :
    s'.Sound := by
  cases label with
  | call caller =>
      obtain rfl := Option.some.inj hs
      exact h.calling caller
  | answer q reply =>
      obtain ⟨sent, hsent, hs⟩ := Option.bind_eq_some_iff.mp hs
      split at hs
      · next hnone =>
          obtain rfl := Option.some.inj hs
          refine h.quiet (.of_set hsent rfl rfl ?_ (fun _ => rfl) rfl rfl) (h.wired.answer hsent)
            h.justified rfl
          exact fun _ heq => nomatch hnone.symm.trans heq
      · exact nomatch hs
  | resume c cookie throws =>
      obtain ⟨call, hcall, hs⟩ := Option.bind_eq_some_iff.mp hs
      exact h.resume hcall hs
  | refreshAnswer r reply =>
      have hsettled : s.refreshes[r]? = some .sent → (s.settle r false).Sound := fun hr =>
        h.quiet (.settle false) (h.wired.settle hr trivial false)
          (h.justified.cons fun _ heq => absurd heq Bool.false_ne_true) rfl
      simp only [Page.step] at hs
      split at hs
      · next status hr =>
          split_ifs at hs
          · obtain rfl := Option.some.inj hs
            exact h.reading hr
          · obtain rfl := Option.some.inj hs
            exact hsettled hr
      · next hr =>
          obtain rfl := Option.some.inj hs
          exact hsettled hr
      · exact nomatch hs
  | refreshRead r throws =>
      simp only [Page.step] at hs
      split_ifs at hs with hr
      obtain rfl := Option.some.inj hs
      exact h.quiet (.settle _) (h.wired.settle hr trivial _)
        (h.justified.cons fun _ heq => absurd heq Bool.false_ne_true) rfl
  | read c =>
      obtain ⟨call, hcall, hs⟩ := Option.bind_eq_some_iff.mp hs
      exact h.read hcall hs

end Steps

end Interceptor

end FullStackHex
