import FullStackHex.Frontend.Interceptor

/-!
Equal GETs that overlap are given one response, whose body only one of them can read.
-/

namespace FullStackHex

namespace Interceptor

def Reply.ok : Reply → Bool
  | .failed => false
  | .response status => okStatus status

/-- The request whose response `fetchUser` reads when it goes on. -/
def Page.userReads (s : Page) (call : Call) : Option Nat :=
  match call.caller, call.phase with
  | .fetchUser, .awaiting q =>
      if (s.requests[q]?.bind Sent.reply).any Reply.ok then some q else none
  | _, _ => none

/-- The call that reads a body in a step, and the request whose response it is. -/
def Page.reads (s : Page) : Label → Option (Nat × Nat)
  | .read c => (s.calls[c]?.bind Call.request).map fun q => (c, q)
  | .resume c _ _ => (s.calls[c]?.bind s.userReads).map fun q => (c, q)
  | _ => none

/-- Whoever reads a body is the only one that the response is for, or that has not read it. -/
def Alone (s : Page) (label : Label) : Prop :=
  ∀ c q, s.reads label = some (c, q) → ∀ c' call', s.calls[c']? = some call' →
    call'.request = some q → c' = c ∨ call'.body ≠ none

/-- A caller can read its body: what the other callers can spoil. -/
structure Call.Readable (s : Page) (call : Call) : Prop where
  read : call.body ≠ some false
  unread : ∀ q sent, call.request = some q → s.requests[q]? = some sent → call.body = none →
    sent.bodyUsed = false

/-- What a caller has from a `fetch` of its own: a response to its request, with a status, and a
body that it can read. -/
structure Call.Transparent (s : Page) (call : Call) : Prop extends call.Readable s where
  request : ∀ q, call.request = some q →
    ∃ sent, s.requests[q]? = some sent ∧ sent.url = call.caller.url
  status : ∀ q, call.phase = .returned q → ∃ status, s.Responded q status

def Readable (s : Page) : Prop :=
  ∀ (c : Nat) (call : Call), s.calls[c]? = some call → call.Readable s

def Transparent (s : Page) : Prop :=
  ∀ (c : Nat) (call : Call), s.calls[c]? = some call → call.Transparent s

section Bodies

variable {s s' : Page} {c q r : Nat} {call call' : Call} {sent : Sent}

theorem Page.Sound.transparent_iff (h : s.Sound) : Transparent s ↔ Readable s := by
  constructor
  · exact fun htransparent c call hcall => (htransparent c call hcall).toReadable
  · intro hreadable c call hcall
    have hsound := h.calls c call hcall
    exact ⟨hreadable c call hcall, hsound.request, hsound.returned⟩

/-- No body has been read. -/
def Untouched (s s' : Page) : Prop :=
  ∀ (q : Nat) (sent sent' : Sent), s.requests[q]? = some sent → s'.requests[q]? = some sent' →
    sent'.bodyUsed = sent.bodyUsed

theorem Untouched.of_append {more : List Sent} (h : s'.requests = s.requests ++ more) :
    Untouched s s' := by
  intro q sent sent' hsent hsent'
  obtain rfl := Option.some.inj ((getElem?_of_append h hsent).symm.trans hsent')
  rfl

/-- The call `call'` is there with nothing read for it: it was there before, with the same
response, or its request is new. -/
structure Comes (s s' : Page) (c : Nat) (call' : Call) : Prop where
  body : call'.body ≠ none → ∃ call, s.calls[c]? = some call ∧ call'.body = call.body
  request : ∀ q, call'.body = none → call'.request = some q →
    (∃ call, s.calls[c]? = some call ∧ call.body = none ∧ call.request = some q) ∨
      ∀ sent, s'.requests[q]? = some sent → sent.bodyUsed = false

theorem Comes.same (h : s.calls[c]? = some call) (hbody : call'.body = call.body)
    (hrequest : ∀ q, call'.request = some q → call.request = some q ∨
      ∀ sent, s'.requests[q]? = some sent → sent.bodyUsed = false) : Comes s s' c call' where
  body := fun _ => ⟨call, h, hbody⟩
  request := by
    intro q hnone hq
    rcases hrequest q hq with hsame | hnew
    · exact .inl ⟨call, h, hbody.symm.trans hnone, hsame⟩
    · exact .inr hnew

/-- Where no body is read, what could be read still can. -/
theorem Readable.untouched (h : s.Sound) (hreadable : Readable s) (huntouched : Untouched s s')
    (hcalls : ∀ c call', s'.calls[c]? = some call' → Comes s s' c call') : Readable s' := by
  intro c call' hcall'
  have hcomes := hcalls c call' hcall'
  constructor
  · intro hfalse
    obtain ⟨call, hcall, hbody⟩ := hcomes.body (hfalse ▸ fun heq => nomatch heq)
    exact (hreadable c call hcall).read (hbody.symm.trans hfalse)
  · intro q sent' hq hsent' hnone
    rcases hcomes.request q hnone hq with ⟨call, hcall, hbody, hrequest⟩ | hnew
    · obtain ⟨sent, hsent, -⟩ := (h.calls c call hcall).request q hrequest
      exact (huntouched q sent sent' hsent hsent').trans
        ((hreadable c call hcall).unread q sent hrequest hsent hbody)
    · exact hnew sent' hsent'

/-- A call takes its next step, without a body. -/
theorem Readable.update (h : s.Sound) (hreadable : Readable s) (huntouched : Untouched s s')
    (hcall : s.calls[c]? = some call) (hcalls : s'.calls = s.calls.set c call')
    (hcomes : Comes s s' c call') : Readable s' := by
  apply hreadable.untouched h huntouched
  intro c' other hother
  rw [hcalls] at hother
  by_cases hne : c = c'
  · subst hne
    obtain ⟨hlt, -⟩ := List.getElem?_eq_some_iff.mp hcall
    obtain rfl := Option.some.inj ((List.getElem?_set_self hlt).symm.trans hother)
    exact hcomes
  · rw [List.getElem?_set_ne hne] at hother
    exact .same hother rfl fun q hq => .inl hq

/-- After a call has read its body, the others can read theirs only if they have another. -/
theorem readable_useBody_iff (hreadable : Readable s) (hcall : s.calls[c]? = some call)
    (hrequest : call.request = some q) (hbody : call.body = none)
    (hsent : s.requests[q]? = some sent) (hread : call'.body = some !sent.bodyUsed) :
    Readable ((s.useBody q sent).setCall c call') ↔
      ∀ c' other, s.calls[c']? = some other → other.request = some q →
        c' = c ∨ other.body ≠ none := by
  have hunused := (hreadable c call hcall).unread q sent hrequest hsent hbody
  obtain ⟨hlt, -⟩ := List.getElem?_eq_some_iff.mp hcall
  obtain ⟨hltq, -⟩ := List.getElem?_eq_some_iff.mp hsent
  have hused : ((s.useBody q sent).setCall c call').requests[q]?
      = some { sent with bodyUsed := true } := List.getElem?_set_self hltq
  constructor
  · intro hafter c' other hother hq
    by_contra hnot
    obtain ⟨hne, hnone⟩ := not_or.mp hnot
    have hothers : ((s.useBody q sent).setCall c call').calls[c']? = some other :=
      (List.getElem?_set_ne (Ne.symm hne)).trans hother
    have hunread := (hafter c' other hothers).unread q _ hq hused (of_not_not hnone)
    exact nomatch hunread
  · intro halone c' other hother
    by_cases hne : c = c'
    · subst hne
      obtain rfl := Option.some.inj ((List.getElem?_set_self hlt).symm.trans hother)
      rw [hunused] at hread
      constructor
      · exact fun hfalse => nomatch hread.symm.trans hfalse
      · exact fun _ _ _ _ hnone => nomatch hread.symm.trans hnone
    · have hold := (List.getElem?_set_ne hne).symm.trans hother
      refine ⟨(hreadable c' other hold).read, fun q' sent' hq' hsent' hnone => ?_⟩
      have hneq : q ≠ q' := by
        rintro rfl
        rcases halone c' other hold hq' with heq | hsome
        · exact hne heq.symm
        · exact hsome hnone
      exact (hreadable c' other hold).unread q' sent' hq'
        ((List.getElem?_set_ne hneq).symm.trans hsent') hnone

end Bodies

section Steps

variable {s s' : Page} {c q r status : Nat} {call : Call} {label : Label}

theorem Page.reads_resume (hcall : s.calls[c]? = some call) (cookie : String) (throws : Bool) :
    s.reads (.resume c cookie throws) = (s.userReads call).map fun q => (c, q) := by
  change (s.calls[c]?.bind s.userReads).map _ = _
  rw [hcall]
  rfl

/-- Whoever reads nothing is no trouble. -/
theorem Alone.of_none (h : s.reads label = none) : Alone s label :=
  fun _ _ hsome => nomatch h.symm.trans hsome

theorem alone_iff (h : s.reads label = some (c, q)) :
    Alone s label ↔ ∀ c' (other : Call), s.calls[c']? = some other → other.request = some q →
      c' = c ∨ other.body ≠ none := by
  constructor
  · exact fun halone => halone c q h
  · intro hothers c₁ q₁ hsome
    obtain ⟨rfl, rfl⟩ := Prod.mk.inj (Option.some.inj (h.symm.trans hsome))
    exact hothers

/-- A call that has got its first response keeps it, for the time being. -/
theorem Page.responded_requests (s : Page) (c q : Nat) (call : Call) (input : Input)
    (init : Option Init) (status : Nat) (cookie : String) :
    ∃ call', (s.responded c q call input init status cookie).calls = s.calls.set c call' ∧
      (s.responded c q call input init status cookie).requests = s.requests ∧
      call'.body = call.body ∧ call'.request = some q := by
  unfold Page.responded
  dsimp only
  split_ifs
  · exact ⟨_, rfl, rfl, rfl, rfl⟩
  · split
    · exact ⟨_, rfl, rfl, rfl, rfl⟩
    · exact ⟨_, rfl, rfl, rfl, rfl⟩
  · exact ⟨_, rfl, rfl, rfl, rfl⟩

theorem Readable.afterRefresh {ok throws : Bool} (h : s.Sound) (hreadable : Readable s)
    (hcall : s.calls[c]? = some call) (hphase : call.phase = .refreshing q r) :
    Readable (s.afterRefresh c q call ok throws) := by
  unfold Page.afterRefresh
  split_ifs
  · refine hreadable.update h (.of_append rfl) hcall rfl (.same hcall rfl fun q' hq' => .inr ?_)
    intro sent hsent
    obtain rfl := Option.some.inj hq'
    obtain rfl := Option.some.inj (List.getElem?_concat_length.symm.trans hsent)
    rfl
  · refine Readable.update h hreadable (.of_append (List.append_nil _).symm) hcall rfl
      (.same hcall rfl fun q' hq' => .inl ?_)
    obtain rfl := Option.some.inj hq'
    exact Call.request_of_refreshing hphase

/-- A call goes on without reading: it keeps its response or drops it. -/
theorem Readable.kept {call' : Call} (h : s.Sound) (hreadable : Readable s)
    (hcall : s.calls[c]? = some call) (hcalls : s'.calls = s.calls.set c call')
    (hrequests : s'.requests = s.requests) (hbody : call'.body = call.body)
    (hrequest : ∀ q, call'.request = some q → call.request = some q) : Readable s' :=
  hreadable.update h (.of_append (hrequests.trans (List.append_nil _).symm)) hcall hcalls
    (.same hcall hbody fun q hq => .inl (hrequest q hq))

theorem readable_resume_iff {cookie : String} {throws : Bool} (h : s.Sound)
    (hreadable : Readable s) (hcall : s.calls[c]? = some call)
    (hs : s.resume c call cookie throws = some s') :
    Readable s' ↔ Alone s (.resume c cookie throws) := by
  have hreads := Page.reads_resume hcall cookie throws
  have hquiet : s.userReads call = none → Readable s' →
      (Readable s' ↔ Alone s (.resume c cookie throws)) := by
    intro hnone hafter
    rw [hnone] at hreads
    exact iff_of_true hafter (.of_none hreads)
  unfold Page.resume at hs
  split at hs
  · next q hphase =>
      obtain ⟨sent, hsent, hs⟩ := Option.bind_eq_some_iff.mp hs
      obtain ⟨reply, hreply, hs⟩ := Option.bind_eq_some_iff.mp hs
      obtain rfl := Option.some.inj hs
      have hrequest := Call.request_of_awaiting hphase
      cases hcaller : call.caller with
      | fetch input init =>
          apply hquiet
          · unfold Page.userReads
            rw [hcaller]
          · cases reply with
            | failed => exact hreadable.kept h hcall rfl rfl rfl fun _ heq => nomatch heq
            | response status =>
                obtain ⟨call', hcalls, hrequests, hbody, hkept⟩ :=
                  s.responded_requests c q call input init status cookie
                unfold Page.received
                rw [hcaller]
                exact hreadable.kept h hcall hcalls hrequests hbody fun q' hq' =>
                  hrequest.trans (hkept.symm.trans hq')
      | fetchUser =>
          have huser : s.userReads call = if reply.ok then some q else none := by
            have hany : (s.requests[q]?.bind Sent.reply).any Reply.ok = reply.ok := by
              rw [hsent, Option.bind_some, hreply]
              rfl
            unfold Page.userReads
            rw [hcaller, hphase, ← hany]
          cases reply with
          | failed =>
              exact hquiet huser (hreadable.kept h hcall rfl rfl rfl fun _ heq => nomatch heq)
          | response status =>
              have hreceived : s.received c q call sent cookie (.response status)
                  = s.userResponded c q call sent status := by
                unfold Page.received
                rw [hcaller]
              rw [hreceived] at hquiet ⊢
              unfold Page.userResponded at hquiet ⊢
              cases hok : okStatus status with
              | true =>
                  rw [huser, if_pos (show Reply.ok (.response status) = true from hok)] at hreads
                  rw [alone_iff hreads, if_pos rfl]
                  exact readable_useBody_iff hreadable hcall hrequest
                    ((h.calls c call hcall).unread q hphase) hsent rfl
              | false =>
                  rw [hok, if_neg Bool.false_ne_true] at hquiet
                  rw [if_neg Bool.false_ne_true]
                  apply hquiet _ (hreadable.kept h hcall rfl rfl rfl fun _ heq => nomatch heq)
                  rw [huser]
                  exact if_neg (ne_true_of_eq_false hok)
  · next q r hphase =>
      split at hs
      · obtain rfl := Option.some.inj hs
        apply hquiet _ (hreadable.afterRefresh h hcall hphase)
        unfold Page.userReads
        rw [hphase]
        cases call.caller <;> rfl
      · exact nomatch hs
  · exact nomatch hs

theorem readable_read_iff (hreadable : Readable s) (hcall : s.calls[c]? = some call)
    (hs : s.read c call = some s') : Readable s' ↔ Alone s (.read c) := by
  obtain ⟨q, sent, status, hbody, hphase, hsent, -, rfl⟩ := Page.read_eq_some hs
  have hrequest : call.request = some q := by
    unfold Call.request
    rcases hphase with hphase | hphase
    · rw [hphase]
    · rw [hphase]
  have hreads : s.reads (.read c) = some (c, q) := by
    change (s.calls[c]?.bind Call.request).map _ = _
    rw [hcall, Option.bind_some, hrequest]
    rfl
  rw [alone_iff hreads]
  exact readable_useBody_iff hreadable hcall hrequest hbody hsent rfl

theorem Readable.calling (h : s.Sound) (hreadable : Readable s) (caller : Caller) :
    Readable { (s.begin s.calls.length caller).1 with
      calls := (s.begin s.calls.length caller).1.calls ++
        [⟨caller, (s.begin s.calls.length caller).2, none⟩] } := by
  obtain ⟨q, hbegan, hphase⟩ := h.wired.begin (c := s.calls.length) caller
  generalize s.begin s.calls.length caller = begun at hbegan hphase
  obtain ⟨s', phase⟩ := begun
  dsimp only at hbegan hphase ⊢
  apply hreadable.untouched h
  · intro q₁ sent sent' hsent hsent'
    obtain ⟨later, hlater, -, -, hunused⟩ := hbegan.later.requests q₁ sent hsent
    obtain rfl := Option.some.inj (hlater.symm.trans hsent')
    exact hunused (fun heq => nomatch heq)
  · intro c call' hcall'
    change (s'.calls ++ [_])[c]? = some call' at hcall'
    rw [hbegan.calls] at hcall'
    rcases Concurrent.getElem?_snoc hcall' with hold | ⟨rfl, rfl⟩
    · exact .same hold rfl fun q hq => .inl hq
    · refine ⟨fun hsome => absurd rfl hsome, fun q' _ hq' => .inr fun sent hsent => ?_⟩
      obtain ⟨sent', hsent', -, hunused⟩ := hbegan.request
      have hsame : q' = q := by
        rcases hphase with rfl | rfl
        · exact (Option.some.inj hq').symm
        · exact (Option.some.inj hq').symm
      rw [hsame] at hsent
      obtain rfl := Option.some.inj (hsent'.symm.trans hsent)
      exact hunused

theorem Readable.answer {reply : Option Reply} {sent : Sent} (h : s.Sound) (hreadable : Readable s)
    (hsent : s.requests[q]? = some sent)
    (hrequests : s'.requests = s.requests.set q { sent with reply := reply })
    (hcalls : s'.calls = s.calls) : Readable s' := by
  apply hreadable.untouched h
  · intro q₁ sent₁ sent' hsent₁ hsent'
    rw [hrequests] at hsent'
    by_cases hq : q = q₁
    · subst hq
      obtain ⟨hlt, -⟩ := List.getElem?_eq_some_iff.mp hsent
      obtain rfl := Option.some.inj (hsent.symm.trans hsent₁)
      obtain rfl := Option.some.inj ((List.getElem?_set_self hlt).symm.trans hsent')
      rfl
    · have hsame := (List.getElem?_set_ne hq).symm.trans hsent'
      obtain rfl := Option.some.inj (hsent₁.symm.trans hsame)
      rfl
  · intro c call' hcall'
    rw [hcalls] at hcall'
    exact .same hcall' rfl fun q hq => .inl hq

/-- The refreshes leave the other requests alone. -/
theorem Readable.refreshing (h : s.Sound) (hreadable : Readable s)
    (hrequests : s'.requests = s.requests) (hcalls : s'.calls = s.calls) : Readable s' := by
  apply hreadable.untouched h (.of_append (hrequests.trans (List.append_nil _).symm))
  intro c call' hcall'
  rw [hcalls] at hcall'
  exact .same hcall' rfl fun q hq => .inl hq

/-- A step spoils a body exactly if it reads one that another call could still read. -/
theorem readable_step_iff (h : s.Sound) (hreadable : Readable s) (hs : s.step label = some s') :
    Readable s' ↔ Alone s label := by
  cases label with
  | call caller =>
      obtain rfl := Option.some.inj hs
      exact iff_of_true (hreadable.calling h caller) (.of_none rfl)
  | answer q reply =>
      obtain ⟨sent, hsent, hs⟩ := Option.bind_eq_some_iff.mp hs
      split at hs
      · obtain rfl := Option.some.inj hs
        exact iff_of_true (hreadable.answer h hsent rfl rfl) (.of_none rfl)
      · exact nomatch hs
  | resume c cookie throws =>
      obtain ⟨call, hcall, hs⟩ := Option.bind_eq_some_iff.mp hs
      exact readable_resume_iff h hreadable hcall hs
  | refreshAnswer r reply =>
      refine iff_of_true ?_ (.of_none rfl)
      simp only [Page.step] at hs
      split at hs
      · split_ifs at hs
        · obtain rfl := Option.some.inj hs
          exact hreadable.refreshing h rfl rfl
        · obtain rfl := Option.some.inj hs
          exact hreadable.refreshing h rfl rfl
      · obtain rfl := Option.some.inj hs
        exact hreadable.refreshing h rfl rfl
      · exact nomatch hs
  | refreshRead r throws =>
      refine iff_of_true ?_ (.of_none rfl)
      simp only [Page.step] at hs
      split_ifs at hs
      obtain rfl := Option.some.inj hs
      exact hreadable.refreshing h rfl rfl
  | read c =>
      obtain ⟨call, hcall, hs⟩ := Option.bind_eq_some_iff.mp hs
      exact readable_read_iff hreadable hcall hs

end Steps

/-- Sharing a request goes unnoticed in a run if, and only if, no body is read that another call
could still read. -/
theorem transparent_iff_alone (labels : List Label) :
    Trace.Throughout Page.step Transparent .initial labels ↔
      Trace.Each Page.step Alone .initial labels := by
  refine Trace.throughout_iff_each (fun s _ => s.Sound) ?_ Page.Sound.initial ?_
  · intro s label _ s' hsound htransparent hs
    have hreadable := hsound.transparent_iff.mp htransparent
    have hsound' := hsound.step hs
    exact ⟨hsound'.transparent_iff.trans (readable_step_iff hsound hreadable hs), fun _ => hsound'⟩
  · exact fun _ _ hcall => nomatch hcall

end Interceptor

namespace Interceptor.Sample

/-- The profile page asks for the user, as the navigation of every page does. -/
def profile : Caller := .fetch (.text "/api/auth/me") none

def bothRead : List Label :=
  [.call profile, .call .fetchUser, .answer 0 (.response 200), .resume 0 "" false,
    .resume 1 "" false, .read 0]

end Interceptor.Sample

open Interceptor.Sample

namespace Interceptor

/-- The navigation reads the only body, and the profile cannot. -/
theorem profile_unreadable :
    (∃ s, Trace.run Page.step .initial bothRead = some s ∧
      s.requests = [⟨"/api/auth/me", true, some (.response 200), true⟩] ∧
      s.calls = [⟨profile, .returned 0, some false⟩, ⟨.fetchUser, .returned 0, some true⟩]) ∧
    ¬ Trace.Throughout Page.step Transparent .initial bothRead := by
  have hrun : (Trace.run Page.step .initial bothRead).map (fun s => (s.requests, s.calls))
      = some ([⟨"/api/auth/me", true, some (.response 200), true⟩],
        [⟨profile, .returned 0, some false⟩, ⟨.fetchUser, .returned 0, some true⟩]) := by
    decide +kernel
  obtain ⟨s, hs, hparts⟩ := Option.map_eq_some_iff.mp hrun
  obtain ⟨hrequests, hcalls⟩ := Prod.mk.inj hparts
  refine ⟨⟨s, hs, hrequests, hcalls⟩, fun hthroughout => ?_⟩
  have htransparent := Trace.throughout_iff.mp hthroughout bothRead.length s
    (by rw [List.take_length]; exact hs)
  exact (htransparent 0 ⟨profile, .returned 0, some false⟩ (by rw [hcalls]; rfl)).read rfl

end Interceptor

end FullStackHex
