import FullStackHex.Api.LiveEvents
import FullStackHex.Frontend.HealthEndpoint
import FullStackHex.Frontend.LiveStream

/-!
What the dashboard shows of the services, from `health` in `api/src/health.rs` over
`lib/health.ts` and `lib/live.ts` to `lib/health-ui.ts` and `pages/index.astro`. A check of the
backend gets to a page on two ways: in the answer to a poll, and as one live event for each service.
-/

namespace FullStackHex

open JsonText

namespace HealthPage

open HealthEndpoint

/-! ## The backend -/

/-- What `health` finds. -/
structure Report where
  db : Health.Dependency.Probe .db
  redis : Health.Dependency.Probe .redis
  python : Health.Dependency.Probe .python
  storage : Bool
  auth : Bool
  maintenanceMode : Bool

namespace Report

def value (r : Report) : Service → Json
  | .rust => .object [("service".toList, .string "api".toList),
      ("status".toList, .string "ok".toList)]
  | .db => Health.Dependency.value .db r.db
  | .redis => Health.Dependency.value .redis r.redis
  | .python => Health.Dependency.value .python r.python
  | .storage => Health.statusJson (if r.storage then "ok" else "disabled")
  | .auth => Health.statusJson (if r.auth then "ok" else "disabled")

/-- The body of the answer. The keys of a map of `serde_json` are in order. -/
def document (r : Report) : Json :=
  .object [("auth".toList, r.value .auth), ("db".toList, r.value .db),
    ("feature_flags".toList, .object [("maintenance_mode".toList, .bool r.maintenanceMode)]),
    ("python".toList, r.value .python), ("redis".toList, r.value .redis),
    ("rust".toList, r.value .rust), ("storage".toList, r.value .storage)]

def text (r : Report) : String := String.ofList (write r.document)

def maxDetailLength : Nat := 500

def truncate (s : String) : String := String.ofList (s.toList.take maxDetailLength)

/-- Whether the event of a service says more than its status. -/
def detailed : Service → Bool
  | .rust | .auth => false
  | .db | .redis | .storage | .python => true

def status (r : Report) (svc : Service) : String :=
  ((r.value svc).get "status").asStr.getD "unknown"

/-- The event of a service. -/
def event (r : Report) (svc : Service) : LiveEvent :=
  .healthUpdate svc.id (r.status svc)
    (if detailed svc then ((r.value svc).get "error").asStr.map truncate else none)

end Report

/-- A field that is left out when it is not there. -/
def optional (key : String) (value : Option String) : List (List Char × Json) :=
  (value.map fun text => (key.toList, Json.string text.toList)).toList

end HealthPage

/-- The type, and the fields as its content. -/
def LiveEvent.toJson : LiveEvent → Json
  | .healthUpdate service status detail => tagged "health_update"
      ([("service".toList, .string service.toList), ("status".toList, .string status.toList)]
        ++ HealthPage.optional "detail" detail)
  | .authEvent kind email => tagged "auth_event"
      (("kind".toList, .string kind.toList) :: HealthPage.optional "email" email)
  | .connectionStatus status => tagged "connection_status"
      [("status".toList, .string status.toList)]
where
  tagged (type : String) (fields : List (List Char × Json)) : Json :=
    .object [("type".toList, .string type.toList), ("data".toList, .object fields)]

/-- What is published. -/
def LiveEvent.text (e : LiveEvent) : String := String.ofList (write e.toJson)

namespace HealthPage

open HealthEndpoint

/-! ## The page -/

/-- The elements of a service. A diagnosis is visible unless it is empty. -/
structure Card where
  dot : String
  text : String
  sr : String
  detail : String
  diag : String
  deriving DecidableEq, Repr

structure Page where
  card : Service → Card
  outage : Bool

def orElse (a b : String) : String := if a = "" then b else a

/-- `value || other`. -/
def jsOr (value : Json) (other : String) : String := if truthy value then jsString value else other

namespace Page

def initial : Page :=
  ⟨fun svc => ⟨"dot loading", "checking…", svc.id ++ ": checking…", "", ""⟩, false⟩

/-- The elements of other services are not there. -/
def update (p : Page) (id : String) (f : Card → Card) : Page :=
  match serviceIds.find? fun svc => svc.id = id with
  | some svc => { p with card := Function.update p.card svc (f (p.card svc)) }
  | none => p

def setStatus (p : Page) (id status label : String) : Page :=
  p.update id fun c =>
    let text := orElse label (orElse status "…")
    { c with dot := "dot " ++ orElse status "loading", text := text, sr := id ++ ": " ++ text }

def setDetail (p : Page) (id text : String) : Page := p.update id fun c => { c with detail := text }

def setDiagnostic (p : Page) (id text : String) : Page :=
  p.update id fun c => { c with diag := text }

def showOutage (p : Page) (visible : Bool) : Page := { p with outage := visible }

/-- `entry.fix || entry.error || ""`. -/
def hint (entry : Json) : String := jsOr (entry.get "fix") (jsOr (entry.get "error") "")

def errorLabel (entry : Json) : String :=
  if truthy (entry.get "error") then "error: " ++ jsString (entry.get "error")
  else jsOr (entry.get "status") "unknown"

/-- Ok, error, or something between them. -/
def tone (status : Option String) : String :=
  if status = some "ok" then "ok" else if status = some "error" then "error" else "degraded"

def isOk (entry : Json) : Bool := (entry.get "status").asStr = some "ok"

def diagnose (p : Page) (svc : Service) (entry : Json) : Page :=
  if isOk entry then p else p.setDiagnostic svc.id (hint entry)

def present (p : Page) (svc : Service) (dot label : String) (entry : Json) : Page :=
  (p.setStatus svc.id dot label).diagnose svc entry

def pythonDot (status : Option String) : String :=
  if status = some "ok" then "ok" else if status = some "unavailable" then "degraded" else "error"

def pythonLabel (status : Option String) : String :=
  if status = some "ok" then "ok"
  else if status = some "unavailable" then "not running"
  else if status = some "error" then "error"
  else "unknown"

/-- For a way to write a value with indentation. -/
def pythonDetail (stringify : Json → String) (entry : Json) : String :=
  if truthy (entry.get "detail") then stringify (entry.get "detail")
  else if truthy (entry.get "error") then jsString (entry.get "error")
  else ""

def showAuth (p : Page) (entry : Json) : Page :=
  if isOk entry then (p.setStatus Service.auth.id "ok" "enabled").setDetail Service.auth.id ""
  else
    ((p.setStatus Service.auth.id "degraded" "disabled").setDetail Service.auth.id
      (jsOr (entry.get "fix") "JWT_SECRET not set — auth disabled")).setDiagnostic Service.auth.id
        (jsOr (entry.get "fix") "")

/-- One service of a poll. -/
def showEntry (stringify : Json → String) (data : Json) (p : Page) (svc : Service) : Page :=
  let entry := data.get svc.id
  let status := (entry.get "status").asStr
  let label := jsOr (entry.get "status") "unknown"
  if !truthy entry then p.setStatus svc.id "error" "unknown"
  else
    match svc with
    | .rust => p.present .rust (if status = some "ok" then "ok" else "error") label entry
    | .db => p.present .db (tone status) (errorLabel entry) entry
    | .redis => p.present .redis (tone status) label entry
    | .storage => p.present .storage (tone status) (errorLabel entry) entry
    | .python =>
        (p.present .python (pythonDot status) (pythonLabel status) entry).setDetail
          Service.python.id (pythonDetail stringify entry)
    | .auth => p.showAuth entry

def isFullOutage (data : Json) : Bool := serviceIds.all fun svc => !isOk (data.get svc.id)

/-- `fetchHealth` cannot read its answer. -/
def failed (p : Page) : Page :=
  (serviceIds.foldl (fun p svc =>
    (p.setStatus svc.id "error" (if svc = .rust then "unreachable" else "—")).setDiagnostic
      svc.id "") p).showOutage true

/-- `fetchHealth` with the body of its answer, if there is one. -/
def polled (stringify : Json → String) (p : Page) (body : Option String) : Page :=
  match body.bind parse with
  | none | some .null => p.failed
  | some data =>
      let p := serviceIds.foldl (showEntry stringify data) p
      if isFullOutage data then p.showOutage true else p

/-- What `applyHealthUpdate` makes of the data of its event. -/
def updateService (p : Page) (data : Json) : Page :=
  let service := jsString (data.get "service")
  let status := data.get "status"
  if status.asStr = some "ok" then
    ((p.setStatus service "ok" "ok").setDetail service "").setDiagnostic service ""
  else
    let p := p.setStatus service "error" (jsOr status "")
    if truthy (data.get "detail") then p.setDetail service (jsString (data.get "detail")) else p

def applyHealthUpdate (p : Page) (event : Json) : Page :=
  if (event.get "type").asStr = some "health_update" then
    match event.get "data" with
    -- the handler throws
    | .null => p
    | data => p.updateService data
  else p

/-- A message of the live stream. -/
def heard (p : Page) (text : String) : Page :=
  match LiveStream.messageEvent (parse text) with
  | some event =>
      if (event.get "type").asStr = some "connection_status" then p else p.applyHealthUpdate event
  | none => p

end Page

/-! ## Frames -/

section Frames

variable {stringify : Json → String} {p : Page} {svc other : Service} {r : Report}

theorem mem_serviceIds (svc : Service) : svc ∈ serviceIds := by
  cases svc <;> decide

theorem find_id (svc : Service) : serviceIds.find? (fun s => s.id = svc.id) = some svc := by
  cases svc <;> rfl

theorem update_id (p : Page) (svc : Service) (f : Card → Card) :
    p.update svc.id f = { p with card := Function.update p.card svc (f (p.card svc)) } := by
  unfold Page.update
  rw [find_id]

@[simp] theorem outage_update (p : Page) (id : String) (f : Card → Card) :
    (p.update id f).outage = p.outage := by
  unfold Page.update
  split
  · rfl
  · rfl

@[simp] theorem outage_setStatus (p : Page) (id status label : String) :
    (p.setStatus id status label).outage = p.outage := outage_update _ _ _

@[simp] theorem outage_setDetail (p : Page) (id text : String) :
    (p.setDetail id text).outage = p.outage := outage_update _ _ _

@[simp] theorem outage_setDiagnostic (p : Page) (id text : String) :
    (p.setDiagnostic id text).outage = p.outage := outage_update _ _ _

theorem card_update_ne (h : other ≠ svc) (p : Page) (f : Card → Card) :
    (p.update svc.id f).card other = p.card other := by
  rw [update_id]
  exact Function.update_of_ne h _ _

theorem card_update_self (p : Page) (f : Card → Card) :
    (p.update svc.id f).card svc = f (p.card svc) := by
  rw [update_id]
  exact Function.update_self _ _ _

theorem setStatus_ne (h : other ≠ svc) (p : Page) (status label : String) :
    (p.setStatus svc.id status label).card other = p.card other := card_update_ne h _ _

theorem setDetail_ne (h : other ≠ svc) (p : Page) (text : String) :
    (p.setDetail svc.id text).card other = p.card other := card_update_ne h _ _

theorem setDiagnostic_ne (h : other ≠ svc) (p : Page) (text : String) :
    (p.setDiagnostic svc.id text).card other = p.card other := card_update_ne h _ _

theorem dot_setStatus (p : Page) (svc : Service) (status label : String) :
    ((p.setStatus svc.id status label).card svc).dot = "dot " ++ orElse status "loading" := by
  unfold Page.setStatus
  rw [card_update_self]

theorem dot_setDetail (p : Page) (svc : Service) (text : String) :
    ((p.setDetail svc.id text).card svc).dot = (p.card svc).dot := by
  unfold Page.setDetail
  rw [card_update_self]

theorem dot_setDiagnostic (p : Page) (svc : Service) (text : String) :
    ((p.setDiagnostic svc.id text).card svc).dot = (p.card svc).dot := by
  unfold Page.setDiagnostic
  rw [card_update_self]

/-! ## One service of a poll -/

theorem present_ne (h : other ≠ svc) (p : Page) (dot label : String) (entry : Json) :
    (p.present svc dot label entry).card other = p.card other := by
  unfold Page.present Page.diagnose
  split
  · exact setStatus_ne h _ _ _
  · rw [setDiagnostic_ne h, setStatus_ne h]

theorem dot_present (p : Page) (svc : Service) (dot label : String) (entry : Json) :
    ((p.present svc dot label entry).card svc).dot = "dot " ++ orElse dot "loading" := by
  unfold Page.present Page.diagnose
  split
  · exact dot_setStatus _ _ _ _
  · rw [dot_setDiagnostic, dot_setStatus]

theorem outage_present (p : Page) (svc : Service) (dot label : String) (entry : Json) :
    (p.present svc dot label entry).outage = p.outage := by
  unfold Page.present Page.diagnose
  split
  · exact outage_setStatus _ _ _ _
  · rw [outage_setDiagnostic, outage_setStatus]

theorem showAuth_ne (h : other ≠ .auth) (p : Page) (entry : Json) :
    (p.showAuth entry).card other = p.card other := by
  unfold Page.showAuth
  split
  · rw [setDetail_ne h, setStatus_ne h]
  · rw [setDiagnostic_ne h, setDetail_ne h, setStatus_ne h]

theorem dot_showAuth (p : Page) (entry : Json) :
    ((p.showAuth entry).card .auth).dot
      = "dot " ++ if Page.isOk entry then "ok" else "degraded" := by
  unfold Page.showAuth
  split
  · rw [dot_setDetail, dot_setStatus]
    rfl
  · rw [dot_setDiagnostic, dot_setDetail, dot_setStatus]
    rfl

theorem outage_showAuth (p : Page) (entry : Json) : (p.showAuth entry).outage = p.outage := by
  unfold Page.showAuth
  split
  · rw [outage_setDetail, outage_setStatus]
  · rw [outage_setDiagnostic, outage_setDetail, outage_setStatus]

theorem showEntry_ne (h : other ≠ svc) (data : Json) (p : Page) :
    (p.showEntry stringify data svc).card other = p.card other := by
  unfold Page.showEntry
  dsimp only
  split
  · exact setStatus_ne h _ _ _
  · cases svc with
    | rust | db | redis | storage => exact present_ne h _ _ _ _
    | python => rw [setDetail_ne h, present_ne h]
    | auth => exact showAuth_ne h _ _

theorem outage_showEntry (data : Json) (p : Page) :
    (p.showEntry stringify data svc).outage = p.outage := by
  unfold Page.showEntry
  dsimp only
  split
  · exact outage_setStatus _ _ _ _
  · cases svc with
    | rust | db | redis | storage => exact outage_present _ _ _ _ _
    | python => rw [outage_setDetail, outage_present]
    | auth => exact outage_showAuth _ _

/-- The dot that a poll gives to a service. -/
def polledTone (svc : Service) (status : String) : String :=
  if status = "ok" then "ok"
  else
    match svc with
    | .rust => "error"
    | .db | .redis | .storage => if status = "error" then "error" else "degraded"
    | .python => if status = "unavailable" then "degraded" else "error"
    | .auth => "degraded"

theorem dot_showEntry {data : Json} {status : String} (p : Page)
    (h : data.get svc.id = Health.statusJson status) :
    ((p.showEntry stringify data svc).card svc).dot = "dot " ++ polledTone svc status := by
  have hstatus : ((Health.statusJson status).get "status").asStr = some status := by
    change some (String.ofList status.toList) = some status
    rw [String.ofList_toList]
  have hok : Page.isOk (Health.statusJson status) = decide (status = "ok") := by
    unfold Page.isOk
    rw [hstatus]
    simp
  have htruthy : (!truthy (Health.statusJson status)) = false := rfl
  unfold Page.showEntry polledTone
  dsimp only
  rw [h, hstatus, htruthy, if_neg Bool.false_ne_true]
  cases svc with
  | rust =>
      rw [dot_present]
      by_cases hs : status = "ok" <;> simp [hs, orElse]
  | db | redis | storage =>
      rw [dot_present, Page.tone]
      by_cases hs : status = "ok"
      · simp [hs, orElse]
      · by_cases he : status = "error" <;> simp [hs, he, orElse]
  | python =>
      rw [dot_setDetail, dot_present, Page.pythonDot]
      by_cases hs : status = "ok"
      · simp [hs, orElse]
      · by_cases he : status = "unavailable" <;> simp [hs, he, orElse]
  | auth =>
      rw [dot_showAuth, hok]
      by_cases hs : status = "ok" <;> simp [hs]

/-- The last step about a service decides, and the others leave it alone. -/
theorem dot_foldl {f : Page → Service → Page} {tone : Service → String}
    (hne : ∀ p svc other, other ≠ svc → (f p svc).card other = p.card other)
    (hself : ∀ p svc, ((f p svc).card svc).dot = tone svc) {svcs : List Service}
    (hsvc : svc ∈ svcs) (p : Page) : ((svcs.foldl f p).card svc).dot = tone svc := by
  induction svcs using List.reverseRecOn with
  | nil => cases hsvc
  | append_singleton before last ih =>
      rw [List.foldl_append, List.foldl_cons, List.foldl_nil]
      by_cases hlast : svc = last
      · rw [hlast]
        exact hself _ _
      · rw [hne _ _ _ hlast]
        apply ih
        simpa [hlast] using hsvc

theorem outage_foldl {f : Page → Service → Page} (hf : ∀ p svc, (f p svc).outage = p.outage)
    (svcs : List Service) (p : Page) : (svcs.foldl f p).outage = p.outage := by
  induction svcs generalizing p with
  | nil => rfl
  | cons svc rest ih => rw [List.foldl_cons, ih, hf]

end Frames

/-! ## What the endpoint says of a report -/

section Bodies

variable {r : Report} {svc : Service}

@[simp] theorem statusJson_status (status : String) :
    (Health.statusJson status).get "status" = .string status.toList := rfl

/-- What the endpoint says of a service. -/
def told (reply : Option String) : Service → String :=
  match reply.bind parse with
  | none | some .null => unreachable
  | some d => statusOf d

theorem get_entries (status : Service → String) (flags : Json) (svc : Service) :
    (Json.object (entries status
      ++ if truthy flags then [("feature_flags".toList, flags)] else [])).get svc.id
        = Health.statusJson (status svc) := by
  split
  · cases svc <;> rfl
  · cases svc <;> rfl

theorem get_aggregateHealth (reply : Option String) (svc : Service) :
    (aggregateHealth reply).get svc.id = Health.statusJson (told reply svc) := by
  unfold aggregateHealth told
  rcases reply.bind parse with _ | d
  · cases svc <;> rfl
  · cases d with
    | null => cases svc <;> rfl
    | _ => exact get_entries _ _ _

theorem jsString_string (text : String) : jsString (.string text.toList) = text := by
  rw [jsString, String.ofList_toList]

theorem asStr_string (text : String) : (Json.string text.toList).asStr = some text :=
  congrArg some String.ofList_toList

/-- A status that is a text, in an object that is not deep. -/
structure Stated (v : Json) : Prop where
  text : ∃ status : String, v.get "status" = .string status.toList
  fits : v.Fits 126

theorem stated_statusJson (status : String) : Stated (Health.statusJson status) := by
  refine ⟨⟨status, rfl⟩, fun m hm => ?_⟩
  rw [List.mem_singleton.mp hm]
  trivial

theorem stated_formatted (v : Json) : Stated (Health.formatHealthValue v) := by
  refine ⟨⟨_, rfl⟩, fun m hm => ?_⟩
  simp only [List.mem_cons, List.not_mem_nil, or_false] at hm
  rcases hm with rfl | rfl
  · trivial
  · trivial

theorem stated_value (r : Report) (svc : Service) : Stated (r.value svc) := by
  cases svc with
  | rust =>
      refine ⟨⟨"ok", rfl⟩, fun m hm => ?_⟩
      simp only [List.mem_cons, List.not_mem_nil, or_false] at hm
      rcases hm with rfl | rfl
      · trivial
      · trivial
  | db =>
      change Stated (Health.Dependency.value .db r.db)
      rcases r.db with ⟨_ | _⟩ | _ | _
      all_goals exact stated_statusJson _
  | redis =>
      change Stated (Health.Dependency.value .redis r.redis)
      rcases r.redis with _ | _ | _
      all_goals exact stated_statusJson _
  | python =>
      change Stated (Health.Dependency.value .python r.python)
      rcases r.python with _ | v
      · exact stated_statusJson _
      · exact stated_formatted v
  | storage => exact stated_statusJson _
  | auth => exact stated_statusJson _

theorem get_status (r : Report) (svc : Service) :
    (r.value svc).get "status" = .string (r.status svc).toList := by
  obtain ⟨status, hstatus⟩ := (stated_value r svc).text
  unfold Report.status
  rw [hstatus, asStr_string, Option.getD_some]

theorem document_fits (r : Report) : r.document.Fits 127 := by
  intro m hm
  simp only [List.mem_cons, List.not_mem_nil, or_false] at hm
  rcases hm with rfl | rfl | rfl | rfl | rfl | rfl | rfl
  case inr.inr.inl =>
    intro flag hflag
    rw [List.mem_singleton.mp hflag]
    trivial
  all_goals
    dsimp only
    exact (stated_value r _).fits

theorem parse_text (r : Report) : parse r.text = some r.document := parse_write (document_fits r)

theorem get_document (r : Report) (svc : Service) : r.document.get svc.id = r.value svc := by
  cases svc <;> simp [Report.document, Json.get, Service.id, List.lookup]

theorem told_text (r : Report) (svc : Service) : told (some r.text) svc = r.status svc := by
  have hparse : (some r.text).bind parse = some r.document := by
    rw [Option.bind_some, parse_text]
  unfold told
  rw [hparse]
  change statusOf r.document svc = r.status svc
  unfold statusOf
  rw [get_document, get_status]
  exact jsString_string _

/-! ## The two ways of a report -/

theorem get_optional {key other : String} (h : other.toList ≠ key.toList)
    (fields : List (List Char × Json)) (value : Option String) :
    (Json.object (fields ++ optional key value)).get other = (Json.object fields).get other := by
  cases value with
  | none => rw [show optional key none = [] from rfl, List.append_nil]
  | some text =>
      unfold optional Json.get
      simp [List.lookup, beq_false_of_ne h]

theorem optional_fits {key : String} {value : Option String} {m : List Char × Json} (depth : Nat)
    (h : m ∈ optional key value) : m.2.Fits depth := by
  cases value with
  | none => cases h
  | some text =>
      rw [List.mem_singleton.mp h]
      cases depth <;> trivial

theorem parse_event (service status : String) (detail : Option String) :
    parse (LiveEvent.healthUpdate service status detail).text
      = some (LiveEvent.healthUpdate service status detail).toJson := by
  apply parse_write
  intro m hm
  simp only [List.mem_cons, List.not_mem_nil, or_false] at hm
  rcases hm with rfl | rfl
  · trivial
  · intro field hfield
    simp only [List.mem_append, List.mem_cons, List.not_mem_nil, or_false] at hfield
    rcases hfield with (rfl | rfl) | hdetail
    · trivial
    · trivial
    · exact optional_fits 125 hdetail

/-- The dot that an event gives to its service. -/
def heardTone (status : String) : String := if status = "ok" then "ok" else "error"

theorem truthy_string (text : String) : truthy (.string text.toList) = !decide (text = "") := by
  have hempty : text.toList = [] ↔ text = "" := by
    rw [← String.toList_empty, String.toList_inj]
  change (!text.toList.isEmpty) = _
  rw [Bool.eq_iff_iff]
  simp [hempty]

theorem jsOr_string (text : String) : jsOr (.string text.toList) "" = text := by
  unfold jsOr
  rw [truthy_string, jsString_string]
  by_cases h : text = "" <;> simp [h]

def eventFields (r : Report) (svc : Service) : List (List Char × Json) :=
  [("service".toList, .string svc.id.toList), ("status".toList, .string (r.status svc).toList)]
    ++ optional "detail"
      (if Report.detailed svc then ((r.value svc).get "error").asStr.map Report.truncate else none)

/-- What the page does with the event of a service. -/
theorem heard_event (p : Page) (r : Report) (svc : Service) :
    p.heard (r.event svc).text
      = if r.status svc = "ok" then
          ((p.setStatus svc.id "ok" "ok").setDetail svc.id "").setDiagnostic svc.id ""
        else
          let p := p.setStatus svc.id "error" (r.status svc)
          let detail := (Json.object (eventFields r svc)).get "detail"
          if truthy detail then p.setDetail svc.id (jsString detail) else p := by
  have htype : ((r.event svc).toJson.get "type").asStr = some "health_update" := asStr_string _
  have hdata : (r.event svc).toJson.get "data" = .object (eventFields r svc) := rfl
  have hservice : (Json.object (eventFields r svc)).get "service" = .string svc.id.toList := by
    rw [eventFields, get_optional (by decide)]
    rfl
  have hstatus : (Json.object (eventFields r svc)).get "status"
      = .string (r.status svc).toList := by
    rw [eventFields, get_optional (by decide)]
    rfl
  have hmessage : LiveStream.messageEvent (parse (r.event svc).text)
      = some (r.event svc).toJson := by
    unfold LiveStream.messageEvent
    rw [Report.event, parse_event, ← Report.event, Option.filter_some, htype]
    rfl
  unfold Page.heard
  rw [hmessage]
  dsimp only
  rw [htype, if_neg (by decide), Page.applyHealthUpdate, htype, hdata, if_pos rfl]
  dsimp only
  rw [Page.updateService, hservice, hstatus, asStr_string, jsString_string, jsOr_string]
  simp only [Option.some.injEq]

theorem heard_ne {other : Service} (h : other ≠ svc) (p : Page) (r : Report) :
    (p.heard (r.event svc).text).card other = p.card other := by
  rw [heard_event]
  dsimp only
  split_ifs
  · rw [setDiagnostic_ne h, setDetail_ne h, setStatus_ne h]
  · rw [setDetail_ne h, setStatus_ne h]
  · exact setStatus_ne h _ _ _

theorem dot_heard (p : Page) (r : Report) (svc : Service) :
    ((p.heard (r.event svc).text).card svc).dot = "dot " ++ heardTone (r.status svc) := by
  rw [heard_event, heardTone]
  dsimp only
  split_ifs
  · rw [dot_setDiagnostic, dot_setDetail, dot_setStatus]
    rfl
  · rw [dot_setDetail, dot_setStatus]
    rfl
  · rw [dot_setStatus]
    rfl

theorem polled_body (stringify : Json → String) (p : Page) (reply : Option String) :
    p.polled stringify (some (bodyOf reply))
      = let shown := serviceIds.foldl (Page.showEntry stringify (aggregateHealth reply)) p
        if Page.isFullOutage (aggregateHealth reply) then shown.showOutage true else shown := by
  have hparse : (some (bodyOf reply)).bind parse = some (aggregateHealth reply) := by
    rw [Option.bind_some, parse_bodyOf]
  have hobject : ∃ members, aggregateHealth reply = .object members := by
    unfold aggregateHealth
    split
    · exact ⟨_, rfl⟩
    · exact ⟨_, rfl⟩
    · exact ⟨_, rfl⟩
  obtain ⟨members, hmembers⟩ := hobject
  unfold Page.polled
  rw [hparse, hmembers]

theorem dot_polled (stringify : Json → String) (p : Page) (reply : Option String) (svc : Service) :
    ((p.polled stringify (some (bodyOf reply))).card svc).dot
      = "dot " ++ polledTone svc (told reply svc) := by
  have hfold : ((serviceIds.foldl
      (Page.showEntry stringify (aggregateHealth reply)) p).card svc).dot
      = "dot " ++ polledTone svc (told reply svc) := by
    apply dot_foldl
    · exact fun p svc other h => showEntry_ne h _ p
    · exact fun p svc => dot_showEntry p (get_aggregateHealth reply svc)
    · exact mem_serviceIds svc
  rw [polled_body]
  dsimp only
  split
  · exact hfold
  · exact hfold

theorem isFullOutage_iff (reply : Option String) :
    Page.isFullOutage (aggregateHealth reply) = true ↔ ∀ svc, told reply svc ≠ "ok" := by
  have hok : ∀ svc, Page.isOk ((aggregateHealth reply).get svc.id)
      = decide (told reply svc = "ok") := by
    intro svc
    unfold Page.isOk
    rw [get_aggregateHealth, statusJson_status, asStr_string]
    simp
  unfold Page.isFullOutage
  simp [hok, mem_serviceIds]

theorem outage_polled (stringify : Json → String) (p : Page) (reply : Option String) :
    (p.polled stringify (some (bodyOf reply))).outage = true
      ↔ p.outage = true ∨ ∀ svc, told reply svc ≠ "ok" := by
  have hfold : (serviceIds.foldl (Page.showEntry stringify (aggregateHealth reply)) p).outage
      = p.outage := outage_foldl (fun p _ => outage_showEntry _ p) serviceIds p
  rw [polled_body, ← isFullOutage_iff]
  dsimp only
  split
  · simp_all [Page.showOutage]
  · simp_all

/-! ## Where the ways differ -/

/-- Every service is configured, and the sidecar is not said to be away. -/
structure Report.Running (r : Report) : Prop where
  db : r.db ≠ .notConfigured
  redis : r.redis ≠ none
  python : r.status .python ≠ "unavailable"
  storage : r.storage = true
  auth : r.auth = true

theorem polledTone_ok {status : String} : polledTone svc status = "ok" ↔ status = "ok" := by
  unfold polledTone
  cases svc <;> split_ifs <;> simp_all

theorem heardTone_ok {status : String} : heardTone status = "ok" ↔ status = "ok" := by
  unfold heardTone
  split_ifs <;> simp_all

/-- The page has one way to say that something is wrong when it hears it, and two when it polls. -/
theorem polledTone_eq_heardTone {status : String} :
    polledTone svc status = heardTone status ↔ status = "ok" ∨
      match svc with
      | .rust => True
      | .db | .redis | .storage => status = "error"
      | .python => status ≠ "unavailable"
      | .auth => False := by
  unfold polledTone heardTone
  cases svc <;> split_ifs <;> simp_all

theorem status_of {status : String} (h : r.value svc = Health.statusJson status) :
    r.status svc = status := by
  unfold Report.status
  rw [h, statusJson_status, asStr_string, Option.getD_some]

theorem db_iff (r : Report) :
    r.status .db = "ok" ∨ r.status .db = "error" ↔ r.db ≠ .notConfigured := by
  cases hdb : r.db with
  | connected result =>
      cases result with
      | ok =>
          have hs : r.status .db = "ok" := status_of (congrArg (Health.Dependency.value .db) hdb)
          simp [hs]
      | error e =>
          have hs : r.status .db = "error" := status_of (congrArg (Health.Dependency.value .db) hdb)
          simp [hs]
  | notConfigured =>
      have hs : r.status .db = "disabled" := status_of (congrArg (Health.Dependency.value .db) hdb)
      simp [hs]
  | connectionFailed message =>
      have hs : r.status .db = "error" := status_of (congrArg (Health.Dependency.value .db) hdb)
      simp [hs]

theorem redis_iff (r : Report) :
    r.status .redis = "ok" ∨ r.status .redis = "error" ↔ r.redis ≠ none := by
  cases hredis : r.redis with
  | none =>
      have hs : r.status .redis = "disabled" :=
        status_of (congrArg (Health.Dependency.value .redis) hredis)
      simp [hs]
  | some result =>
      cases result with
      | ok =>
          have hs : r.status .redis = "ok" :=
            status_of (congrArg (Health.Dependency.value .redis) hredis)
          simp [hs]
      | error e =>
          have hs : r.status .redis = "error" :=
            status_of (congrArg (Health.Dependency.value .redis) hredis)
          simp [hs]

theorem storage_iff (r : Report) :
    r.status .storage = "ok" ∨ r.status .storage = "error" ↔ r.storage = true := by
  rw [status_of (show r.value .storage = Health.statusJson _ from rfl)]
  cases r.storage <;> simp

theorem auth_iff (r : Report) : r.status .auth = "ok" ↔ r.auth = true := by
  rw [status_of (show r.value .auth = Health.statusJson _ from rfl)]
  cases r.auth <;> simp

theorem python_iff (r : Report) :
    r.status .python = "ok" ∨ r.status .python ≠ "unavailable"
      ↔ r.status .python ≠ "unavailable" := by
  constructor
  · rintro (hok | hother)
    · rw [hok]
      decide
    · exact hother
  · exact .inr

theorem tones_agree_iff (r : Report) :
    (∀ svc, polledTone svc (r.status svc) = heardTone (r.status svc)) ↔ r.Running := by
  simp only [polledTone_eq_heardTone]
  constructor
  · intro h
    exact ⟨(db_iff r).mp (h .db), (redis_iff r).mp (h .redis), (python_iff r).mp (h .python),
      (storage_iff r).mp (h .storage), (auth_iff r).mp ((h .auth).resolve_right id)⟩
  · intro h svc
    cases svc with
    | rust => exact .inr trivial
    | db => exact (db_iff r).mpr h.db
    | redis => exact (redis_iff r).mpr h.redis
    | storage => exact (storage_iff r).mpr h.storage
    | python => exact .inr h.python
    | auth => exact .inl ((auth_iff r).mpr h.auth)

theorem dot_inj {a b : String} : "dot " ++ a = "dot " ++ b ↔ a = b := by
  simp

theorem dot_ok {a : String} : "dot " ++ a = "dot ok" ↔ a = "ok" :=
  dot_inj (b := "ok")

/-- The page after the events of some services, in their order. -/
def hearAll (r : Report) (p : Page) (svcs : List Service) : Page :=
  svcs.foldl (fun p svc => p.heard (r.event svc).text) p

theorem dot_hearAll {svcs : List Service} (hsvc : svc ∈ svcs) (r : Report) (p : Page) :
    ((hearAll r p svcs).card svc).dot = "dot " ++ heardTone (r.status svc) := by
  apply dot_foldl
  · exact fun p svc other h => heard_ne h p r
  · exact fun p svc => dot_heard p r svc
  · exact hsvc

end Bodies

/-! ## Runs of a page -/

/-- What happens to a page: the endpoint answers a poll, after an answer of the backend or none;
a poll gets no answer; the live stream has a message. -/
inductive Act where
  | polled (reply : Option String)
  | lost
  | heard (text : String)

def step (stringify : Json → String) (p : Page) : Act → Page
  | .polled reply => p.polled stringify (some (bodyOf reply))
  | .lost => p.polled stringify none
  | .heard text => p.heard text

/-- A step after which the outage is shown, whatever was shown before. -/
def Act.Alarming : Act → Prop
  | .polled reply => ∀ svc, told reply svc ≠ "ok"
  | .lost => True
  | .heard _ => False

theorem outage_updateService (p : Page) (data : Json) :
    (p.updateService data).outage = p.outage := by
  unfold Page.updateService
  dsimp only
  split_ifs
  · rw [outage_setDiagnostic, outage_setDetail, outage_setStatus]
  · rw [outage_setDetail, outage_setStatus]
  · rw [outage_setStatus]

theorem outage_applyHealthUpdate (p : Page) (event : Json) :
    (p.applyHealthUpdate event).outage = p.outage := by
  unfold Page.applyHealthUpdate
  split_ifs
  · split
    · rfl
    · exact outage_updateService _ _
  · rfl

theorem outage_heard (p : Page) (text : String) : (p.heard text).outage = p.outage := by
  unfold Page.heard
  split
  · split_ifs
    · rfl
    · exact outage_applyHealthUpdate _ _
  · rfl

/-- No step takes the outage back. -/
theorem outage_step (stringify : Json → String) (p : Page) (a : Act) :
    (step stringify p a).outage = true ↔ p.outage = true ∨ a.Alarming := by
  cases a with
  | polled reply => exact outage_polled stringify p reply
  | lost => exact ⟨fun _ => .inr trivial, fun _ => rfl⟩
  | heard text =>
      change (p.heard text).outage = true ↔ p.outage = true ∨ False
      rw [outage_heard, or_false]

theorem outage_run (stringify : Json → String) (acts : List Act) (p : Page) :
    (acts.foldl (step stringify) p).outage = true ↔ p.outage = true ∨ ∃ a ∈ acts, a.Alarming := by
  induction acts generalizing p with
  | nil => simp
  | cons a rest ih =>
      rw [List.foldl_cons, ih, outage_step]
      simp [or_assoc]

/-- For every report: a poll and the events of the six services, in any order, both show a service
as ok exactly if it is, and they show the same for all services exactly if every service is
configured and the sidecar is not said to be away. -/
theorem paths_agree_iff (stringify : Json → String) (r : Report) (p p' : Page)
    (svcs : List Service) (horder : svcs.Perm serviceIds) :
    let shown := p.polled stringify (some (bodyOf (some r.text)))
    let heard := hearAll r p' svcs
    (∀ svc, (shown.card svc).dot = "dot ok" ↔ r.status svc = "ok")
      ∧ (∀ svc, (heard.card svc).dot = "dot ok" ↔ r.status svc = "ok")
      ∧ ((∀ svc, (shown.card svc).dot = (heard.card svc).dot) ↔ r.Running) := by
  have hshown : ∀ svc, ((p.polled stringify (some (bodyOf (some r.text)))).card svc).dot
      = "dot " ++ polledTone svc (r.status svc) := by
    intro svc
    rw [dot_polled, told_text]
  have hheard : ∀ svc, ((hearAll r p' svcs).card svc).dot = "dot " ++ heardTone (r.status svc) :=
    fun svc => dot_hearAll (horder.mem_iff.mpr (mem_serviceIds svc)) r p'
  dsimp only
  refine ⟨fun svc => ?_, fun svc => ?_, ?_⟩
  · rw [hshown, dot_ok, polledTone_ok]
  · rw [hheard, dot_ok, heardTone_ok]
  · rw [← tones_agree_iff]
    apply forall_congr'
    intro svc
    rw [hshown, hheard, dot_inj]

end HealthPage

namespace Sample

def shuffled : List HealthEndpoint.Service := [.auth, .python, .rust, .storage, .redis, .db]

/-- Redis is down, and there is no sidecar. -/
def halfUp : HealthPage.Report where
  db := .connected (.ok ())
  redis := some (.error (.commandFailed "timeout"))
  python := .error (.connectionFailed "refused")
  storage := true
  auth := true
  maintenanceMode := false

end Sample

theorem HealthPage.paths_agree_iff_shuffled :
    (∀ svc, ((HealthPage.Page.initial.polled (fun _ => "")
        (some (HealthEndpoint.bodyOf (some Sample.halfUp.text)))).card svc).dot
          = ((HealthPage.hearAll Sample.halfUp .initial Sample.shuffled).card svc).dot) ↔
      Sample.halfUp.Running :=
  (HealthPage.paths_agree_iff (fun _ => "") Sample.halfUp .initial .initial Sample.shuffled
    (by decide)).2.2

namespace HealthPage

open HealthEndpoint

end HealthPage

end FullStackHex
