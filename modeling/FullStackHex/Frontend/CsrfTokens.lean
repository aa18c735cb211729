import FullStackHex.Auth.Cookies
import FullStackHex.Library.Splitting
import FullStackHex.Library.Trace

/-!
The CSRF token of a browser: the cookie that all its tabs share, and the copy that each tab has in
its session storage. From `lib/csrf.ts`, `components/AuthForm.astro`, the interceptor of
`components/Layout.astro` and the forms of the notes pages. Answers and scripts of all tabs come
in any order.
-/

namespace FullStackHex

namespace CsrfTokens

open AuthCookies

/-! ## The token of a page -/

/-- The cookies that are set with HttpOnly. -/
def httpOnlyCookies : List (List Char) :=
  ["access_token".toList, "refresh_token".toList, "session".toList]

def documentCookie (jar : Cookies.Jar) (now : Nat) : String :=
  (Cookies.Jar.header (jar.filter fun c => c.name ∉ httpOnlyCookies) now).getD ""

/-- `r.split("=")[1]` of the first piece `r` that starts with `csrf_token=`. -/
def tokenOfCookies (documentCookie : String) : Option String :=
  ((Splitting.split "; ".toList documentCookie.toList).find? fun r =>
      "csrf_token=".toList.isPrefixOf r).bind fun r =>
    (Splitting.split "=".toList r)[1]?.map String.ofList

def getCsrfToken (item : Option String) (documentCookie : String) : String :=
  ((truthy item).or (truthy (tokenOfCookies documentCookie))).getD ""

/-! ## Tabs -/

inductive Phase where
  /-- It has its headers, and is about to be sent, for the first time or again. -/
  | ready
  | sent
  /-- It was answered with 401, and waits for the refresh. -/
  | waiting
  deriving DecidableEq, Repr

/-- A state-changing request of a page. `since` counts the tokens that the browser had received
when the one of its header came; without a header, when it was made. -/
structure Submission where
  method : Method
  path : String
  header : Option String
  since : Nat
  phase : Phase
  deriving DecidableEq, Repr

/-- A token in the session storage, and how many tokens the browser had received with it. -/
structure Stored where
  token : PlainText
  since : Nat
  deriving DecidableEq, Repr

/-- An answer whose body the script has yet to read. -/
structure Unread where
  item : Stored
  refreshed : Bool
  deriving DecidableEq, Repr

structure Tab where
  item : Option Stored
  unread : List Unread
  submissions : List Submission
  deriving DecidableEq, Repr

structure Browser where
  now : Nat
  jar : Cookies.Jar
  tabs : List Tab
  /-- The tokens that answers have set as the cookie, the last one at the end. -/
  received : List PlainText
  sent : List Request

inductive Event where
  | wait (ms : Nat)
  /-- A new tab; a tab that is opened from another one copies its session storage. -/
  | openTab (opener : Option Nat)
  /-- The page of the tab is left, with all that its scripts were about to do. -/
  | leave (tab : Nat)
  /-- The answer to a login, a registration or a refresh comes to a tab. -/
  | answer (tab : Nat) (granted : Granted)
  /-- The answer of an OAuth callback, which no script reads. -/
  | callback (granted : Granted)
  /-- The script of the tab stores the token of an answer. -/
  | store (tab answer : Nat)
  /-- `logout` removes the item. -/
  | removeItem (tab : Nat)
  /-- A form is submitted: its headers are made. -/
  | submit (tab : Nat) (method : Method) (path : String)
  | send (tab submission : Nat)
  /-- A request comes back with 401. -/
  | unauthorized (tab submission : Nat)
  deriving DecidableEq, Repr

namespace Browser

def initial (now : Nat) : Browser := ⟨now, [], [], [], []⟩

def setTab (s : Browser) (i : Nat) (tab : Tab) : Browser :=
  { s with tabs := s.tabs.set i tab }

/-- The browser takes the cookies of an answer. -/
def receive (l : Lifetimes) (s : Browser) (g : Granted) : Option Browser :=
  match authCookies l g with
  | .error _ => none
  | .ok cookies => some { s with
      jar := s.jar.receive s.now cookies
      received := s.received ++ [g.csrfToken] }

/-- The headers of a form; a header without a token is left out. -/
def submission (s : Browser) (tab : Tab) (method : Method) (path : String) : Submission where
  method := method
  path := path
  header := truthy (some (getCsrfToken (tab.item.map fun item => item.token.text)
    (documentCookie s.jar s.now)))
  since := (tab.item.map Stored.since).getD s.received.length
  phase := .ready

/-- The request, with the cookies that the browser adds to it. -/
def request (s : Browser) (sub : Submission) : Request :=
  ⟨sub.method, sub.path,
    { Headers.none with cookie := s.jar.header s.now, csrf := sub.header }⟩

end Browser

def stateChanging (method : Method) : Bool :=
  method == .post || method == .put || method == .delete || method == .patch

/-- After a refresh the requests that wait for it are sent again, with the headers that they have;
after a login the page goes to another one. -/
def Tab.stored (tab : Tab) (k : Nat) (u : Unread) : Tab where
  item := some u.item
  unread := if u.refreshed then tab.unread.eraseIdx k else []
  submissions :=
    if u.refreshed then
      tab.submissions.map fun sub => if sub.phase = .waiting then { sub with phase := .ready } else sub
    else []

def Browser.step (l : Lifetimes) (s : Browser) : Event → Option Browser
  | .wait ms => some { s with now := s.now + ms }
  | .openTab opener =>
      let item := (opener.bind fun i => s.tabs[i]?).bind Tab.item
      some { s with tabs := s.tabs ++ [⟨item, [], []⟩] }
  | .leave i => s.tabs[i]?.map fun tab => s.setTab i { tab with unread := [], submissions := [] }
  | .answer i g => do
      let tab ← s.tabs[i]?
      let s ← s.receive l g
      let unread : Unread := ⟨⟨g.csrfToken, s.received.length⟩, g.session.isNone⟩
      return s.setTab i { tab with unread := tab.unread ++ [unread] }
  | .callback g => s.receive l g
  | .store i k => do
      let tab ← s.tabs[i]?
      let unread ← tab.unread[k]?
      return s.setTab i (tab.stored k unread)
  | .removeItem i => s.tabs[i]?.map fun tab => s.setTab i { tab with item := none }
  | .submit i method path => do
      let tab ← s.tabs[i]?
      if stateChanging method then
        return s.setTab i { tab with
          submissions := tab.submissions ++ [s.submission tab method path] }
      else none
  | .send i k => do
      let tab ← s.tabs[i]?
      let sub ← tab.submissions[k]?
      if sub.phase = .ready then
        return { s.setTab i { tab with submissions := tab.submissions.set k { sub with phase := .sent } }
          with sent := s.sent ++ [s.request sub] }
      else none
  | .unauthorized i k => do
      let tab ← s.tabs[i]?
      let sub ← tab.submissions[k]?
      if sub.phase = .sent then
        return s.setTab i { tab with
          submissions := tab.submissions.set k { sub with phase := .waiting } }
      else none

/-! ## The token that a page takes from its cookies -/

theorem intercalate_blank (piece : List Char) (pieces : List (List Char)) :
    [';'].intercalate (piece :: pieces.map fun p => ' ' :: p)
      = [';', ' '].intercalate (piece :: pieces) := by
  induction pieces generalizing piece with
  | nil => rw [List.map_nil, List.intercalate_singleton, List.intercalate_singleton]
  | cons next rest ih =>
      rw [List.map_cons, List.intercalate_cons_cons, List.intercalate_cons_cons, ← ih next]
      cases rest with
      | nil => simp
      | cons more rest =>
          rw [List.map_cons, List.intercalate_cons_cons, List.intercalate_cons_cons]
          simp

theorem isPrefixOf_pair {name value : List Char} (hplain : '=' ∉ name) :
    "csrf_token=".toList.isPrefixOf (Cookies.pairText name value) = decide (name = csrfName) := by
  have hself : '=' ∉ csrfName := by decide
  rw [Bool.eq_iff_iff, List.isPrefixOf_iff_prefix, decide_eq_true_eq]
  constructor
  · rintro ⟨rest, hrest⟩
    have hsplit : csrfName ++ '=' :: rest = name ++ '=' :: value := hrest
    exact (Codec.append_separator_inj hself hplain hsplit).1.symm
  · rintro rfl
    exact ⟨value, rfl⟩

/-- A page that reads its cookies finds the CSRF token that the browser sends. -/
theorem tokenOfCookies_documentCookie {jar : Cookies.Jar} {now : Nat}
    (hvalues : ∀ c ∈ jar, c.name = csrfName → '=' ∉ c.value) :
    tokenOfCookies (documentCookie jar now)
      = (jar.value? now csrfName).map String.ofList := by
  have hvisible : csrfName ∉ httpOnlyCookies := by decide
  have hvalue : jar.value? now csrfName = (((jar.filter fun c => c.name ∉ httpOnlyCookies).filter
      fun c => c.live now).find? (fun c => c.name = csrfName)).map Cookies.Cookie.value := by
    rw [Cookies.Jar.value?, List.find?_filter, List.find?_filter]
    congr 2
    funext c
    by_cases hname : c.name = csrfName
    · simp [hname, hvisible]
    · simp [hname]
  unfold tokenOfCookies documentCookie Cookies.Jar.header
  rw [hvalue]
  cases hlive : (jar.filter fun c => c.name ∉ httpOnlyCookies).filter fun c => c.live now with
  | nil => decide
  | cons c rest =>
      have hpieces : Splitting.split "; ".toList ([';', ' '].intercalate
          ((c :: rest).map Cookies.Cookie.pair)) = (c :: rest).map Cookies.Cookie.pair := by
        apply Splitting.split_intercalate (by simp)
        intro piece hpiece
        obtain ⟨c', -, rfl⟩ := List.mem_map.mp hpiece
        exact c'.not_mem_pair
      have hfound : (fun c : Cookies.Cookie => "csrf_token=".toList.isPrefixOf c.pair)
          = fun c => decide (c.name = csrfName) :=
        funext fun c => isPrefixOf_pair c.legal.plain
      have htext := intercalate_blank c.pair (rest.map Cookies.Cookie.pair)
      rw [List.map_map] at htext
      have hchars := String.toList_ofList (l := [';'].intercalate (c.pair :: rest.map
        ((fun p => ' ' :: p) ∘ Cookies.Cookie.pair)))
      change ((Splitting.split _ (String.ofList ([';'].intercalate (c.pair :: rest.map
        ((fun p => ' ' :: p) ∘ Cookies.Cookie.pair)))).toList).find? _).bind _ = _
      rw [hchars, htext, ← List.map_cons, hpieces, List.find?_map]
      change (((c :: rest).find? fun c => "csrf_token=".toList.isPrefixOf c.pair).map _).bind _ = _
      rw [hfound]
      cases hfind : (c :: rest).find? fun c => decide (c.name = csrfName) with
      | none => rfl
      | some found =>
          have hname : found.name = csrfName := by simpa using List.find?_some hfind
          have hmem : found ∈ jar := by
            have hlisted := List.mem_of_find?_eq_some hfind
            rw [← hlive] at hlisted
            exact List.mem_of_mem_filter (List.mem_of_mem_filter hlisted)
          have hsplit : Splitting.split "=".toList found.pair = [csrfName, found.value] := by
            have hplain : '=' ∉ csrfName := by decide
            change Splitting.split ['='] (found.name ++ (['='] ++ found.value)) = _
            rw [hname, Splitting.split_append hplain, Splitting.split_piece (hvalues found hmem hname)]
          simp only [Option.map_some, Option.bind_some, hsplit]
          rfl

theorem getCsrfToken_item (t : PlainText) (cookie : String) :
    getCsrfToken (some t.text) cookie = t.text := by
  have hitem : truthy (some t.text) = some t.text := by
    simp [truthy, Option.filter_some, t.nonempty]
  unfold getCsrfToken
  rw [hitem]
  rfl

/-! ## Agreement -/

/-- The header carries the value of the cookie that comes with it, and the backend does not
reject the request. -/
def Carries (req : Request) : Prop :=
  (∀ token, req.headers.csrf = some token → req.headers.findCookie "csrf_token" = some token) ∧
    cookieAuthPrepare req ≠ .error ()

def Agrees (s : Browser) : Prop := ∀ req ∈ s.sent, Carries req

/-- No answer has set another token since the one of the header came, and its cookie has not
expired; a request without a header was made with the cookies of now, or goes without a session. -/
def Submission.Current (s : Browser) (sub : Submission) : Prop :=
  match sub.header with
  | some _ => sub.since = s.received.length ∧ s.jar.value? s.now csrfName ≠ none
  | none => sub.since = s.received.length ∨ sentCookie s.jar s.now "session" = none

/-- Every request is current when it is sent, for the first time or again. -/
def UpToDate (s : Browser) : Event → Prop
  | .send i k => ∀ tab sub, s.tabs[i]? = some tab → tab.submissions[k]? = some sub → sub.Current s
  | _ => True

instance (s : Browser) (sub : Submission) : Decidable (sub.Current s) :=
  match h : sub.header with
  | some _ => decidable_of_iff (sub.since = s.received.length ∧ s.jar.value? s.now csrfName ≠ none)
      (by rw [Submission.Current, h])
  | none => decidable_of_iff
      (sub.since = s.received.length ∨ sentCookie s.jar s.now "session" = none)
      (by rw [Submission.Current, h])

instance (s : Browser) (e : Event) : Decidable (UpToDate s e) :=
  match e with
  | .send i k => decidable_of_iff
      (∀ sub ∈ (s.tabs[i]?).bind fun tab => tab.submissions[k]?, sub.Current s) (by
        simp only [UpToDate, Option.mem_def, Option.bind_eq_some_iff]
        exact ⟨fun h tab sub htab hsub => h sub ⟨tab, htab, hsub⟩,
          fun h sub ⟨tab, htab, hsub⟩ => h tab sub htab hsub⟩)
  | .wait _ | .openTab _ | .leave _ | .answer _ _ | .callback _ | .store _ _ | .removeItem _
  | .submit _ _ _ | .unauthorized _ _ => isTrue trivial

/-- The tokens of the answers. -/
def tokens (events : List Event) : List String := events.filterMap fun
  | .answer _ g => some g.csrfToken.text
  | .callback g => some g.csrfToken.text
  | _ => none

/-! ## The invariant -/

/-- The item was the last token when it came. -/
def Browser.Issued (s : Browser) (x : Stored) : Prop :=
  x.since ≤ s.received.length ∧ (s.received.take x.since).getLast? = some x.token

structure Submission.Sound (s : Browser) (sub : Submission) : Prop where
  method : stateChanging sub.method = true
  past : sub.since ≤ s.received.length
  header : ∀ text, sub.header = some text →
    ∃ token, (s.received.take sub.since).getLast? = some token ∧ token.text = text
  bare : sub.header = none → sub.since = s.received.length → s.jar.value? s.now csrfName = none

structure Tab.Sound (s : Browser) (tab : Tab) : Prop where
  item : ∀ x, tab.item = some x → s.Issued x
  unread : ∀ u ∈ tab.unread, s.Issued u.item
  submissions : ∀ sub ∈ tab.submissions, sub.Sound s

/-- The cookie is the last token, and a session cookie does not outlive it. -/
structure Browser.Sound (l : Lifetimes) (s : Browser) : Prop where
  cookie : ∀ c ∈ s.jar, c.name = csrfName →
    ∃ token, s.received.getLast? = some token ∧ c.value = token.text.toList
  session : ∀ c ∈ s.jar, c.name = sessionName → ∃ c' ∈ s.jar, c'.name = csrfName ∧
    ∃ d d', c.expires = some d ∧ c'.expires = some d' ∧ d ≤ d' ∧
      d' ≤ s.now + 1000 * l.jwtExpiry.toNat
  tabs : ∀ tab ∈ s.tabs, tab.Sound s

section Steps

variable {l : Lifetimes} {s s' : Browser} {tab : Tab} {sub : Submission} {i k : Nat}

theorem Browser.Sound.initial (now : Nat) : (Browser.initial now).Sound l := by
  constructor
  · exact fun c hc => absurd hc List.not_mem_nil
  · exact fun c hc => absurd hc List.not_mem_nil
  · exact fun tab htab => absurd htab List.not_mem_nil

/-- What a tab has stays sound when nothing but the time and the cookies change, and no cookie
comes back. -/
theorem Tab.Sound.wait (h : tab.Sound s) (hreceived : s'.received = s.received)
    (hbare : s.jar.value? s.now csrfName = none → s'.jar.value? s'.now csrfName = none) :
    tab.Sound s' := by
  have hissued : ∀ {x}, s.Issued x → s'.Issued x := by
    intro x hx
    unfold Browser.Issued
    rwa [hreceived]
  constructor
  · exact fun x hx => hissued (h.item x hx)
  · exact fun u hu => hissued (h.unread u hu)
  · intro sub hsub
    have hs := h.submissions sub hsub
    constructor
    · exact hs.method
    · rw [hreceived]
      exact hs.past
    · rw [hreceived]
      exact hs.header
    · intro hnone hsince
      rw [hreceived] at hsince
      exact hbare (hs.bare hnone hsince)

/-- Another token makes the ones before it old. -/
theorem Tab.Sound.renewed (h : tab.Sound s) {token : PlainText}
    (hreceived : s'.received = s.received ++ [token]) : tab.Sound s' := by
  have htake : ∀ {n}, n ≤ s.received.length → s'.received.take n = s.received.take n := by
    intro n hn
    rw [hreceived, List.take_append_of_le_length hn]
  have hlength : s'.received.length = s.received.length + 1 := by
    rw [hreceived, List.length_append, List.length_singleton]
  have hissued : ∀ {x}, s.Issued x → s'.Issued x := by
    rintro x ⟨hpast, hlast⟩
    refine ⟨by omega, ?_⟩
    rwa [htake hpast]
  constructor
  · exact fun x hx => hissued (h.item x hx)
  · exact fun u hu => hissued (h.unread u hu)
  · intro sub hsub
    have hs := h.submissions sub hsub
    have hpast := hs.past
    constructor
    · exact hs.method
    · omega
    · rw [htake hpast]
      exact hs.header
    · intro _ hsince
      omega

/-- A change to one tab. -/
theorem Browser.Sound.setTab (h : s.Sound l) (i : Nat) (htab : tab.Sound s) :
    (s.setTab i tab).Sound l := by
  constructor
  · exact h.cookie
  · exact h.session
  · intro other hother
    have hsound : other.Sound s := by
      rcases List.mem_or_eq_of_mem_set hother with hold | rfl
      · exact h.tabs other hold
      · exact htab
    exact hsound.wait rfl id

theorem Browser.Sound.receive {g : Granted} (h : s.Sound l) (hs : s.receive l g = some s') :
    s'.Sound l ∧ s'.received = s.received ++ [g.csrfToken] ∧ s'.tabs = s.tabs ∧ s'.sent = s.sent := by
  unfold Browser.receive at hs
  cases hcookies : authCookies l g with
  | error err =>
      rw [hcookies] at hs
      cases hs
  | ok cookies =>
      rw [hcookies] at hs
      obtain rfl := Option.some.inj hs
      have hrenewed := renewed_receive hcookies s.jar s.now
      refine ⟨?_, rfl, rfl, rfl⟩
      constructor
      · intro c hc hname
        exact ⟨g.csrfToken, List.getLast?_concat, (hrenewed.token c hc hname).1⟩
      · intro c hc hname
        obtain ⟨new, hnew, hnewName⟩ := hrenewed.present
        have hexpires := (hrenewed.token new hnew hnewName).2
        refine ⟨new, hnew, hnewName, ?_⟩
        rcases hrenewed.session c hc hname with hold | hfresh
        · obtain ⟨-, -, -, d, d', hd, -, hle, hbound⟩ := h.session c hold hname
          exact ⟨d, _, hd, hexpires, hle.trans hbound, le_rfl⟩
        · exact ⟨_, _, hfresh, hexpires, le_rfl, le_rfl⟩
      · exact fun tab htab => (h.tabs tab htab).renewed rfl

theorem Browser.Sound.value? (h : s.Sound l) {value : List Char}
    (hvalue : s.jar.value? s.now csrfName = some value) :
    ∃ token, s.received.getLast? = some token ∧ value = token.text.toList := by
  obtain ⟨c, hc, -, hname, rfl⟩ := Cookies.Jar.mem_of_value? hvalue
  exact h.cookie c hc hname

theorem Browser.Sound.tokenOfCookies (h : s.Sound l) :
    tokenOfCookies (documentCookie s.jar s.now)
      = (s.jar.value? s.now csrfName).map String.ofList := by
  apply tokenOfCookies_documentCookie
  intro c hc hname
  obtain ⟨token, -, hvalue⟩ := h.cookie c hc hname
  rw [hvalue]
  exact token.equals_notMem

/-- What a form is submitted with. -/
theorem Browser.Sound.submission (h : s.Sound l) (htab : tab.Sound s) {method : Method}
    (hmethod : stateChanging method = true) (path : String) :
    (s.submission tab method path).Sound s := by
  cases hitem : tab.item with
  | some x =>
      obtain ⟨hpast, hlast⟩ := htab.item x hitem
      have hheader : (s.submission tab method path).header = some x.token.text := by
        simp [Browser.submission, hitem, getCsrfToken_item, truthy, Option.filter_some,
          x.token.nonempty]
      have hsince : (s.submission tab method path).since = x.since := by
        simp [Browser.submission, hitem]
      constructor
      · exact hmethod
      · rwa [hsince]
      · intro text htext
        rw [hheader] at htext
        rw [hsince]
        exact ⟨x.token, hlast, Option.some.inj htext⟩
      · intro hnone
        rw [hheader] at hnone
        cases hnone
  | none =>
      have hheader : (s.submission tab method path).header
          = truthy (some ((truthy ((s.jar.value? s.now csrfName).map String.ofList)).getD "")) := by
        rw [← h.tokenOfCookies]
        simp [Browser.submission, hitem, getCsrfToken, truthy]
      have hsince : (s.submission tab method path).since = s.received.length := by
        simp [Browser.submission, hitem]
      cases hvalue : s.jar.value? s.now csrfName with
      | none =>
          rw [hvalue] at hheader
          constructor
          · exact hmethod
          · exact hsince.le
          · intro text htext
            rw [hheader] at htext
            cases htext
          · exact fun _ _ => hvalue
      | some value =>
          obtain ⟨token, hlast, rfl⟩ := h.value? hvalue
          have htext : (s.submission tab method path).header = some token.text := by
            rw [hheader, hvalue]
            simp [truthy, Option.filter_some, token.nonempty]
          constructor
          · exact hmethod
          · exact hsince.le
          · intro text hsome
            rw [htext] at hsome
            rw [hsince, List.take_length]
            exact ⟨token, hlast, Option.some.inj hsome⟩
          · intro hnone
            rw [htext] at hnone
            cases hnone

/-- A request on its way is sound whatever its phase. -/
theorem Submission.Sound.phase (h : sub.Sound s) (phase : Phase) :
    ({ sub with phase := phase } : Submission).Sound s := ⟨h.method, h.past, h.header, h.bare⟩

theorem Tab.Sound.setPhase (h : tab.Sound s) (hsub : tab.submissions[k]? = some sub)
    (phase : Phase) :
    ({ tab with submissions := tab.submissions.set k { sub with phase := phase } } : Tab).Sound s := by
  constructor
  · exact h.item
  · exact h.unread
  · intro other hother
    rcases List.mem_or_eq_of_mem_set hother with hold | rfl
    · exact h.submissions other hold
    · exact (h.submissions sub (List.mem_of_getElem? hsub)).phase phase

theorem Tab.Sound.stored (h : tab.Sound s) {u : Unread} (hu : u ∈ tab.unread) :
    (tab.stored k u).Sound s := by
  constructor
  · rintro x hx
    obtain rfl := Option.some.inj hx
    exact h.unread u hu
  · intro u' hu'
    unfold Tab.stored at hu'
    dsimp only at hu'
    split at hu'
    · exact h.unread u' (List.mem_of_mem_eraseIdx hu')
    · cases hu'
  · intro sub hsub
    unfold Tab.stored at hsub
    dsimp only at hsub
    split at hsub
    · obtain ⟨old, hold, rfl⟩ := List.mem_map.mp hsub
      split
      · exact (h.submissions old hold).phase .ready
      · exact h.submissions old hold
    · cases hsub

theorem Browser.Sound.step {e : Event} (h : s.Sound l) (hs : s.step l e = some s') :
    s'.Sound l := by
  cases e with
  | wait ms =>
      obtain rfl := Option.some.inj hs
      constructor
      · exact h.cookie
      · intro c hc hname
        obtain ⟨c', hc', hname', d, d', hd, hd', hle, hbound⟩ := h.session c hc hname
        refine ⟨c', hc', hname', d, d', hd, hd', hle, ?_⟩
        dsimp only
        omega
      · intro tab htab
        exact (h.tabs tab htab).wait rfl (Cookies.Jar.value?_none_of_le (Nat.le_add_right _ _))
  | openTab opener =>
      obtain rfl := Option.some.inj hs
      constructor
      · exact h.cookie
      · exact h.session
      · intro tab htab
        have hsound : tab.Sound s := by
          rcases List.mem_append.mp htab with hold | hnew
          · exact h.tabs tab hold
          · obtain rfl := List.mem_singleton.mp hnew
            constructor
            · intro x hx
              obtain ⟨from', hfrom, hitem⟩ := Option.bind_eq_some_iff.mp hx
              obtain ⟨j, -, hj⟩ := Option.bind_eq_some_iff.mp hfrom
              exact (h.tabs from' (List.mem_of_getElem? hj)).item x hitem
            · exact fun u hu => absurd hu List.not_mem_nil
            · exact fun sub hsub => absurd hsub List.not_mem_nil
        exact hsound.wait rfl id
  | leave i =>
      obtain ⟨tab, htab, rfl⟩ := Option.map_eq_some_iff.mp hs
      have hold := h.tabs tab (List.mem_of_getElem? htab)
      apply h.setTab
      constructor
      · exact hold.item
      · exact fun u hu => absurd hu List.not_mem_nil
      · exact fun sub hsub => absurd hsub List.not_mem_nil
  | answer i g =>
      obtain ⟨tab, htab, hs⟩ := Option.bind_eq_some_iff.mp hs
      obtain ⟨mid, hmid, hs⟩ := Option.bind_eq_some_iff.mp hs
      obtain rfl := Option.some.inj hs
      obtain ⟨hsound, hreceived, -, -⟩ := h.receive hmid
      have hold := (h.tabs tab (List.mem_of_getElem? htab)).renewed hreceived
      apply hsound.setTab
      constructor
      · exact hold.item
      · intro u hu
        rcases List.mem_append.mp hu with hu | hu
        · exact hold.unread u hu
        · obtain rfl := List.mem_singleton.mp hu
          refine ⟨le_rfl, ?_⟩
          rw [List.take_length, hreceived]
          exact List.getLast?_concat
      · exact hold.submissions
  | callback g => exact (h.receive hs).1
  | store i k =>
      obtain ⟨tab, htab, hs⟩ := Option.bind_eq_some_iff.mp hs
      obtain ⟨u, hu, hs⟩ := Option.bind_eq_some_iff.mp hs
      obtain rfl := Option.some.inj hs
      exact h.setTab i ((h.tabs tab (List.mem_of_getElem? htab)).stored (List.mem_of_getElem? hu))
  | removeItem i =>
      obtain ⟨tab, htab, rfl⟩ := Option.map_eq_some_iff.mp hs
      have hold := h.tabs tab (List.mem_of_getElem? htab)
      apply h.setTab
      constructor
      · exact fun x hx => nomatch hx
      · exact hold.unread
      · exact hold.submissions
  | submit i method path =>
      obtain ⟨tab, htab, hs⟩ := Option.bind_eq_some_iff.mp hs
      split at hs
      · rename_i hmethod
        obtain rfl := Option.some.inj hs
        have hold := h.tabs tab (List.mem_of_getElem? htab)
        apply h.setTab
        constructor
        · exact hold.item
        · exact hold.unread
        · intro sub hsub
          rcases List.mem_append.mp hsub with hsub | hsub
          · exact hold.submissions sub hsub
          · obtain rfl := List.mem_singleton.mp hsub
            exact h.submission hold hmethod path
      · cases hs
  | send i k =>
      obtain ⟨tab, htab, hs⟩ := Option.bind_eq_some_iff.mp hs
      obtain ⟨sub, hsub, hs⟩ := Option.bind_eq_some_iff.mp hs
      split at hs
      · obtain rfl := Option.some.inj hs
        have hold := h.tabs tab (List.mem_of_getElem? htab)
        have hset := h.setTab i (hold.setPhase hsub .sent)
        exact ⟨hset.cookie, hset.session, fun tab htab => (hset.tabs tab htab).wait rfl id⟩
      · cases hs
  | unauthorized i k =>
      obtain ⟨tab, htab, hs⟩ := Option.bind_eq_some_iff.mp hs
      obtain ⟨sub, hsub, hs⟩ := Option.bind_eq_some_iff.mp hs
      split at hs
      · obtain rfl := Option.some.inj hs
        exact h.setTab i ((h.tabs tab (List.mem_of_getElem? htab)).setPhase hsub .waiting)
      · cases hs

end Steps

/-! ## What a request carries -/

theorem validateCsrfToken_self {token : List Char} (h : token ≠ []) :
    validateCsrfToken token token = true := by
  have hfold : ∀ bytes : List UInt8,
      (bytes.zip bytes).foldl (fun acc xy => acc ||| (xy.1 ^^^ xy.2)) (0 : UInt8) = 0 := by
    intro bytes
    induction bytes with
    | nil => rfl
    | cons b rest ih =>
        rw [List.zip_cons_cons, List.foldl_cons, UInt8.xor_self, UInt8.or_self]
        exact ih
  unfold validateCsrfToken constantTimeStrEq constantTimeEq
  rw [if_neg (by simp [h]), if_neg (by simp), hfold]
  rfl

/-- Of different tokens only the last one is the last one. -/
theorem eq_length_of_last {received : List PlainText} {n : Nat} {earlier last : PlainText}
    (hfresh : (received.map PlainText.text).Nodup) (hpast : n ≤ received.length)
    (hearlier : (received.take n).getLast? = some earlier)
    (hlast : received.getLast? = some last) (hsame : earlier.text = last.text) :
    n = received.length := by
  by_contra hne
  have hlater : received.drop n ≠ [] := by
    intro hnil
    have := List.drop_eq_nil_iff.mp hnil
    omega
  rw [← List.take_append_drop n received, List.map_append, List.nodup_append] at hfresh
  rw [← List.take_append_drop n received, List.getLast?_append_of_ne_nil _ hlater] at hlast
  exact hfresh.2.2 _ (List.mem_map_of_mem (List.mem_of_getLast? hearlier)) _
    (List.mem_map_of_mem (List.mem_of_getLast? hlast)) hsame

section Requests

variable {l : Lifetimes} {s : Browser} {sub : Submission}

theorem request_findCookie : (s.request sub).headers.findCookie "csrf_token"
    = (s.jar.value? s.now csrfName).map String.ofList :=
  findCookie_jar rfl (by decide)

/-- A state-changing request with a session passes if its header is the cookie's value. -/
theorem cookieAuthPrepare_request (hmethod : stateChanging sub.method = true) {id : List Char}
    (hid : sentCookie s.jar s.now "session" = some id) :
    cookieAuthPrepare (s.request sub) =
      if validateCsrfToken ((sentCookie s.jar s.now "csrf_token").getD [])
          ((sub.header.bind headerStr).getD []) then .ok (some (String.ofList id))
      else .error () := by
  have hchanges : sub.method = .post ∨ sub.method = .put ∨ sub.method = .delete ∨
      sub.method = .patch := by
    unfold stateChanging at hmethod
    simp only [Bool.or_eq_true, beq_iff_eq] at hmethod
    tauto
  rw [cookieAuthPrepare_jar rfl, hid]
  exact if_pos hchanges

theorem cookieAuthPrepare_guest (hid : sentCookie s.jar s.now "session" = none) :
    cookieAuthPrepare (s.request sub) = .ok none := by
  rw [cookieAuthPrepare_jar rfl, hid]

/-- Where the CSRF cookie has gone, the session has gone too. -/
theorem Browser.Sound.guest (h : s.Sound l) (hgone : s.jar.value? s.now csrfName = none) :
    sentCookie s.jar s.now "session" = none := by
  have hsession : s.jar.value? s.now sessionName = none := by
    rw [Cookies.Jar.value?_eq_none_iff] at hgone ⊢
    intro c hc hname
    obtain ⟨c', hc', hname', d, d', hd, hd', hle, -⟩ := h.session c hc hname
    have hdead := hgone c' hc' hname'
    unfold Cookies.Cookie.live at hdead ⊢
    rw [hd'] at hdead
    rw [hd]
    have hpast : ¬ s.now < d' := of_decide_eq_false hdead
    exact decide_eq_false (by omega)
  unfold sentCookie
  rw [hsession]
  rfl

/-- A request that is current carries the cookie's value. -/
theorem Submission.Current.carries (h : s.Sound l) (hsub : sub.Sound s) (hcurrent : sub.Current s) :
    Carries (s.request sub) := by
  unfold Submission.Current at hcurrent
  cases hheader : sub.header with
  | some text =>
      rw [hheader] at hcurrent
      obtain ⟨hsince, hsent⟩ := hcurrent
      obtain ⟨value, hvalue⟩ := Option.ne_none_iff_exists'.mp hsent
      obtain ⟨token, hlast, rfl⟩ := h.value? hvalue
      obtain ⟨token', hlast', rfl⟩ := hsub.header text hheader
      rw [hsince, List.take_length, hlast] at hlast'
      obtain rfl := Option.some.inj hlast'
      have hcookie : sentCookie s.jar s.now "csrf_token" = some token.text.toList := by
        unfold sentCookie
        rw [hvalue, Option.filter_some, if_pos (decide_eq_true token.toList_ne_nil)]
      constructor
      · intro text htext
        obtain rfl := Option.some.inj (hheader.symm.trans htext)
        rw [request_findCookie, hvalue, Option.map_some, String.ofList_toList]
      · cases hid : sentCookie s.jar s.now "session" with
        | none =>
            rw [cookieAuthPrepare_guest hid]
            exact fun heq => nomatch heq
        | some id =>
            rw [cookieAuthPrepare_request hsub.method hid, hcookie, hheader, Option.bind_some,
              token.headerStr, Option.getD_some,
              if_pos (validateCsrfToken_self token.toList_ne_nil)]
            exact fun heq => nomatch heq
  | none =>
      rw [hheader] at hcurrent
      have hguest : sentCookie s.jar s.now "session" = none := by
        rcases hcurrent with hsince | hguest
        · exact h.guest (hsub.bare hheader hsince)
        · exact hguest
      constructor
      · intro text htext
        exact nomatch hheader.symm.trans htext
      · rw [cookieAuthPrepare_guest hguest]
        exact fun heq => nomatch heq

/-- With tokens that differ from one another, no other request does. -/
theorem Submission.Sound.current (h : s.Sound l) (hsub : sub.Sound s)
    (hfresh : (s.received.map PlainText.text).Nodup) (hcarries : Carries (s.request sub)) :
    sub.Current s := by
  unfold Submission.Current
  cases hheader : sub.header with
  | some text =>
      have hsent := hcarries.1 text hheader
      rw [request_findCookie] at hsent
      obtain ⟨value, hvalue, rfl⟩ := Option.map_eq_some_iff.mp hsent
      obtain ⟨token, hlast, rfl⟩ := h.value? hvalue
      obtain ⟨token', hlast', hsame⟩ := hsub.header _ hheader
      rw [String.ofList_toList] at hsame
      refine ⟨?_, by rw [hvalue]; exact fun heq => nomatch heq⟩
      exact eq_length_of_last hfresh hsub.past hlast' hlast hsame
  | none =>
      right
      by_contra hsession
      obtain ⟨id, hid⟩ := Option.ne_none_iff_exists'.mp hsession
      apply hcarries.2
      rw [cookieAuthPrepare_request hsub.method hid, hheader]
      simp [validateCsrfToken]

end Requests

/-! ## Runs -/

section Run

variable {l : Lifetimes} {s s' : Browser} {e : Event} {rest : List Event}

/-- What a step sends. -/
theorem sent_cases (h : s.Sound l) (hs : s.step l e = some s') :
    (s'.sent = s.sent ∧ UpToDate s e) ∨
      ∃ i k tab sub, e = .send i k ∧ s.tabs[i]? = some tab ∧ tab.submissions[k]? = some sub ∧
        s'.sent = s.sent ++ [s.request sub] := by
  cases e with
  | wait ms =>
      obtain rfl := Option.some.inj hs
      exact .inl ⟨rfl, trivial⟩
  | openTab opener =>
      obtain rfl := Option.some.inj hs
      exact .inl ⟨rfl, trivial⟩
  | leave i =>
      obtain ⟨tab, -, rfl⟩ := Option.map_eq_some_iff.mp hs
      exact .inl ⟨rfl, trivial⟩
  | answer i g =>
      obtain ⟨tab, -, hs⟩ := Option.bind_eq_some_iff.mp hs
      obtain ⟨mid, hmid, hs⟩ := Option.bind_eq_some_iff.mp hs
      obtain rfl := Option.some.inj hs
      exact .inl ⟨(h.receive hmid).2.2.2, trivial⟩
  | callback g => exact .inl ⟨(h.receive hs).2.2.2, trivial⟩
  | store i k =>
      obtain ⟨tab, -, hs⟩ := Option.bind_eq_some_iff.mp hs
      obtain ⟨u, -, hs⟩ := Option.bind_eq_some_iff.mp hs
      obtain rfl := Option.some.inj hs
      exact .inl ⟨rfl, trivial⟩
  | removeItem i =>
      obtain ⟨tab, -, rfl⟩ := Option.map_eq_some_iff.mp hs
      exact .inl ⟨rfl, trivial⟩
  | submit i method path =>
      obtain ⟨tab, -, hs⟩ := Option.bind_eq_some_iff.mp hs
      split at hs
      · obtain rfl := Option.some.inj hs
        exact .inl ⟨rfl, trivial⟩
      · cases hs
  | send i k =>
      obtain ⟨tab, htab, hs⟩ := Option.bind_eq_some_iff.mp hs
      obtain ⟨sub, hsub, hs⟩ := Option.bind_eq_some_iff.mp hs
      split at hs
      · obtain rfl := Option.some.inj hs
        exact .inr ⟨i, k, tab, sub, rfl, htab, hsub, rfl⟩
      · cases hs
  | unauthorized i k =>
      obtain ⟨tab, -, hs⟩ := Option.bind_eq_some_iff.mp hs
      obtain ⟨sub, -, hs⟩ := Option.bind_eq_some_iff.mp hs
      split at hs
      · obtain rfl := Option.some.inj hs
        exact .inl ⟨rfl, trivial⟩
      · cases hs

/-- The tokens of the answers to come follow on those that have come. -/
theorem received_step (h : s.Sound l) (hs : s.step l e = some s') :
    s'.received.map PlainText.text ++ tokens rest
      = s.received.map PlainText.text ++ tokens (e :: rest) := by
  have hnew : ∀ {g : Granted} {mid : Browser}, s.receive l g = some mid →
      mid.received.map PlainText.text ++ tokens rest
        = s.received.map PlainText.text ++ g.csrfToken.text :: tokens rest := by
    intro g mid hmid
    rw [(h.receive hmid).2.1, List.map_append, List.append_assoc]
    rfl
  cases e with
  | wait ms =>
      obtain rfl := Option.some.inj hs
      rfl
  | openTab opener =>
      obtain rfl := Option.some.inj hs
      rfl
  | leave i =>
      obtain ⟨tab, -, rfl⟩ := Option.map_eq_some_iff.mp hs
      rfl
  | answer i g =>
      obtain ⟨tab, -, hs⟩ := Option.bind_eq_some_iff.mp hs
      obtain ⟨mid, hmid, hs⟩ := Option.bind_eq_some_iff.mp hs
      obtain rfl := Option.some.inj hs
      have hreceived := hnew hmid
      exact hreceived
  | callback g => exact hnew hs
  | store i k =>
      obtain ⟨tab, -, hs⟩ := Option.bind_eq_some_iff.mp hs
      obtain ⟨u, -, hs⟩ := Option.bind_eq_some_iff.mp hs
      obtain rfl := Option.some.inj hs
      rfl
  | removeItem i =>
      obtain ⟨tab, -, rfl⟩ := Option.map_eq_some_iff.mp hs
      rfl
  | submit i method path =>
      obtain ⟨tab, -, hs⟩ := Option.bind_eq_some_iff.mp hs
      split at hs
      · obtain rfl := Option.some.inj hs
        rfl
      · cases hs
  | send i k =>
      obtain ⟨tab, -, hs⟩ := Option.bind_eq_some_iff.mp hs
      obtain ⟨sub, -, hs⟩ := Option.bind_eq_some_iff.mp hs
      split at hs
      · obtain rfl := Option.some.inj hs
        rfl
      · cases hs
  | unauthorized i k =>
      obtain ⟨tab, -, hs⟩ := Option.bind_eq_some_iff.mp hs
      obtain ⟨sub, -, hs⟩ := Option.bind_eq_some_iff.mp hs
      split at hs
      · obtain rfl := Option.some.inj hs
        rfl
      · cases hs

/-- A step that is up to date keeps the agreement. -/
theorem Agrees.step (h : s.Sound l) (hs : s.step l e = some s') (hagrees : Agrees s)
    (hupToDate : UpToDate s e) : Agrees s' := by
  rcases sent_cases h hs with ⟨hsent, -⟩ | ⟨i, k, tab, sub, rfl, htab, hsub, hsent⟩
  · intro req hreq
    rw [hsent] at hreq
    exact hagrees req hreq
  · intro req hreq
    rw [hsent] at hreq
    rcases List.mem_append.mp hreq with hreq | hreq
    · exact hagrees req hreq
    · obtain rfl := List.mem_singleton.mp hreq
      have hsound := (h.tabs tab (List.mem_of_getElem? htab)).submissions sub
        (List.mem_of_getElem? hsub)
      exact (hupToDate tab sub htab hsub).carries h hsound

/-- With different tokens a step that keeps the agreement is up to date. -/
theorem upToDate_of_agrees (h : s.Sound l) (hs : s.step l e = some s')
    (hfresh : (s.received.map PlainText.text).Nodup) (hagrees : Agrees s') : UpToDate s e := by
  rcases sent_cases h hs with ⟨-, hupToDate⟩ | ⟨i, k, tab, sub, rfl, htab, hsub, hsent⟩
  · exact hupToDate
  · intro tab' sub' htab' hsub'
    obtain rfl := Option.some.inj (htab.symm.trans htab')
    obtain rfl := Option.some.inj (hsub.symm.trans hsub')
    have hsound := (h.tabs tab (List.mem_of_getElem? htab)).submissions sub
      (List.mem_of_getElem? hsub)
    apply hsound.current h hfresh
    apply hagrees
    rw [hsent]
    exact List.mem_append_right _ (List.mem_singleton_self _)

end Run

/-- In every run of the tabs of a browser: while every request is current when it is sent, every
request carries the token of its cookie and passes. With tokens that differ from one another,
this holds in no other run. -/
theorem agrees_iff_upToDate (l : Lifetimes) (now : Nat) (events : List Event) :
    (Trace.Each (Browser.step l) UpToDate (.initial now) events →
      Trace.Throughout (Browser.step l) Agrees (.initial now) events) ∧
    ((tokens events).Nodup → Trace.Throughout (Browser.step l) Agrees (.initial now) events →
      Trace.Each (Browser.step l) UpToDate (.initial now) events) := by
  have hinitial : Agrees (.initial now) := fun req hreq => absurd hreq List.not_mem_nil
  constructor
  · intro heach
    apply heach.throughout (fun s => s.Sound l ∧ Agrees s)
    · exact fun s e s' h hupToDate hs => ⟨h.1.step hs, h.2.step h.1 hs hupToDate⟩
    · exact fun s h => h.2
    · exact ⟨.initial now, hinitial⟩
  · intro hfresh hthroughout
    refine (Trace.throughout_iff_each (fun s rest => s.Sound l ∧
      (s.received.map PlainText.text ++ tokens rest).Nodup) ?_ ?_ hinitial).mp hthroughout
    · rintro s e rest s' ⟨hsound, hnodup⟩ hagrees hs
      refine ⟨⟨upToDate_of_agrees hsound hs (List.nodup_append.mp hnodup).1,
        hagrees.step hsound hs⟩, fun _ => ⟨hsound.step hs, ?_⟩⟩
      rwa [received_step hsound hs]
    · exact ⟨.initial now, hfresh⟩

end CsrfTokens

namespace Sample

open CsrfTokens AuthCookies

def lifetimes : Lifetimes := ⟨900, 604800, true⟩

/-- A login with tokens of this name. -/
def signIn (csrf session : PlainText) : Granted := ⟨"access", "refresh", csrf, some session⟩

def firstSignIn : Granted :=
  signIn ⟨"a1", by decide, by decide⟩ ⟨"s1", by decide, by decide⟩

def secondSignIn : Granted :=
  signIn ⟨"b2", by decide, by decide⟩ ⟨"s2", by decide, by decide⟩

/-- A user signs in in one tab and then in another one, and creates a note in the first. -/
def twoTabs : List Event :=
  [.openTab none, .answer 0 firstSignIn, .store 0 0, .openTab none, .answer 1 secondSignIn,
    .store 1 0, .submit 0 .post "/notes", .send 0 0]

def mismatched : Request :=
  ⟨.post, "/notes",
    ⟨none, some "access_token=access; refresh_token=refresh; csrf_token=b2; session=s2", some "a1",
      none⟩⟩

/-- The same with one tab. -/
def oneTab : List Event :=
  [.openTab none, .answer 0 firstSignIn, .store 0 0, .submit 0 .post "/notes", .send 0 0]

end Sample

open Sample

namespace CsrfTokens

/-- The first tab sends the token that it has, with the cookies of the second login. -/
theorem other_tab_signs_in :
    (∃ s, Trace.run (Browser.step lifetimes) (.initial 0) twoTabs = some s ∧
      mismatched ∈ s.sent) ∧
    mismatched.headers.findCookie "csrf_token" = some "b2" ∧
    cookieAuthPrepare mismatched = .error () ∧
    ¬ Trace.Throughout (Browser.step lifetimes) Agrees (.initial 0) twoTabs := by
  have hlast : (Trace.run (Browser.step lifetimes) (.initial 0) twoTabs).bind
      (fun s => s.sent.getLast?) = some mismatched := by
    decide +kernel
  have hrejected : cookieAuthPrepare mismatched = .error () := by decide
  obtain ⟨s, hrun, hsent⟩ := Option.bind_eq_some_iff.mp hlast
  have hmem := List.mem_of_getLast? hsent
  refine ⟨⟨s, hrun, hmem⟩, by decide, hrejected, fun hthroughout => ?_⟩
  have hagrees := Trace.throughout_iff.mp hthroughout twoTabs.length s
    (by rw [List.take_length]; exact hrun)
  exact (hagrees mismatched hmem).2 hrejected

/-- With one tab the run is up to date, and what it sends passes. -/
theorem agrees_iff_upToDate_oneTab :
    Trace.Throughout (Browser.step lifetimes) Agrees (.initial 0) oneTab :=
  (agrees_iff_upToDate lifetimes 0 oneTab).1 (by decide +kernel)

end CsrfTokens

end FullStackHex
