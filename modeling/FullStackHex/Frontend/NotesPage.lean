import FullStackHex.Api.NoteWalks
import FullStackHex.Library.Trace

/-!
The list of notes in `pages/notes/index.astro`, whose requests are answered by `list_notes`. The
notes of the user stay the same; clicks, answers and failures come in any order.
-/

namespace FullStackHex

open Keyset

namespace NotesPage

def perPage : Int := 20

/-- A request of `loadNotes`. -/
structure Load where
  append : Bool
  cursor : Option String
  deriving DecidableEq

/-- The variables of the script, which elements are shown, whether the pagination has its button,
and the notes whose rows are in the body of the table. -/
structure State where
  nextCursor : Option String
  hasMore : Bool
  loadingShown : Bool
  tableShown : Bool
  errorShown : Bool
  emptyShown : Bool
  loadMoreButton : Bool
  rows : List Note
  inFlight : List Load
  deriving DecidableEq

inductive Label where
  | loadMore
  | retry
  | succeed (load : Nat)
  | fail (load : Nat)
  deriving DecidableEq, Repr

namespace State

/-- `loadNotes`, up to its request. -/
def loadNotes (append : Bool) (s : State) : State :=
  { s with
    loadingShown := !append || s.loadingShown
    tableShown := append && s.tableShown
    errorShown := false
    emptyShown := false
    inFlight := s.inFlight ++ [⟨append, s.nextCursor.filter (· ≠ "")⟩] }

def renderLoadMore (s : State) : State := { s with loadMoreButton := s.hasMore }

/-- The rest of `loadNotes` on an answer. -/
def received (load : Load) (data : PaginatedNotes) (s : State) : State :=
  let s := { s with nextCursor := data.nextCursor, hasMore := data.hasMore, loadingShown := false }
  if data.items = [] then { s with emptyShown := !load.append || s.emptyShown }.renderLoadMore
  else
    { s with
      tableShown := true
      rows := if load.append then s.rows ++ data.items else data.items }.renderLoadMore

/-- Its `catch`. -/
def failed (s : State) : State := { s with loadingShown := false, errorShown := true }

def initial : State := loadNotes false ⟨none, true, true, false, false, false, false, [], []⟩

def step (table : NoteTable) (userId : Uuid) (s : State) : Label → Option State
  | .loadMore => if s.tableShown && s.loadMoreButton then some (s.loadNotes true) else none
  | .retry => if s.errorShown then some (s.loadNotes false) else none
  | .succeed i => do
      let load ← s.inFlight[i]?
      match listNotes table userId load.cursor perPage with
      | .error _ => none
      | .ok data => some { s.received load data with inFlight := s.inFlight.eraseIdx i }
  | .fail i => do
      let _ ← s.inFlight[i]?
      some { s.failed with inFlight := s.inFlight.eraseIdx i }

end State

/-! ## What the page is to show -/

/-- All notes of the user, the way the server orders them. -/
def order (table : NoteTable) (userId : Uuid) : List Note :=
  (matching Note.key none (table.rowsOf userId)).map Note.blank

/-- The cursor that points past the last of the notes shown, if there are others. -/
def cursorPast (shown rest : List Note) : Option String :=
  if rest = [] then none else shown.getLast?.map fun n => encodeCursor n.createdAt n.id.text

/-- The rows are the notes up to some point, and the cursor is there. -/
structure Shows (table : NoteTable) (userId : Uuid) (s : State) : Prop where
  inOrder : ∃ rest, order table userId = s.rows ++ rest ∧
    s.nextCursor = cursorPast s.rows rest ∧ (s.hasMore = true ↔ rest ≠ [])
  nodup : s.rows.Nodup
  complete : s.hasMore = false → ∀ note ∈ table.rowsOf userId, s.rows.count note.blank = 1

/-- An append succeeds only at the cursor that the page still has, and a load of the whole list
only if it was started without one. -/
def InStep (s : State) : Label → Prop
  | .succeed i => ∀ load ∈ s.inFlight[i]?,
      load.cursor = if load.append then s.nextCursor else none
  | _ => True

instance (s : State) (label : Label) : Decidable (InStep s label) :=
  match label with
  | .succeed i => inferInstanceAs (Decidable (∀ load ∈ s.inFlight[i]?,
      load.cursor = if load.append then s.nextCursor else none))
  | .loadMore | .retry | .fail _ => inferInstanceAs (Decidable True)

/-! ## What a cursor reads -/

/-- What is before the page that is read with a cursor, and what is not. -/
inductive Reads (notes : List Note) : Option String → List Note → List Note → Prop where
  | first : Reads notes none [] notes
  | after (before : List Note) (last : Note) (rest : List Note)
      (hnotes : notes = before ++ last :: rest) (hrest : rest ≠ []) :
      Reads notes (some (encodeCursor last.createdAt last.id.text)) (before ++ [last]) rest

/-- The page that follows some notes. -/
def answer (before rest : List Note) : PaginatedNotes :=
  ⟨rest.take 20, cursorPast (before ++ rest.take 20) (rest.drop 20), !(rest.drop 20).isEmpty, 20⟩

section Reads

variable {table : NoteTable} {userId : Uuid} {cursor : Option String}
  {notes shown before rest before' rest' : List Note}

theorem nodup_keys_order : ((order table userId).map Note.key).Nodup := by
  have hdescending : Descending Note.key (matching Note.key none (table.rowsOf userId)) :=
    descending_matching (table.key_nodup userId)
  have hblank : (order table userId).map Note.key
      = (matching Note.key none (table.rowsOf userId)).map Note.key := by
    rw [order, List.map_map]
    rfl
  rw [hblank]
  apply List.pairwise_map.mpr
  exact hdescending.imp fun hlt => hlt.ne'

theorem nodup_order : (order table userId).Nodup := nodup_keys_order.of_map _

theorem Reads.eq_append (h : Reads notes cursor before rest) : notes = before ++ rest := by
  cases h with
  | first => rfl
  | after before last rest hnotes _ => rw [hnotes, List.append_assoc, List.singleton_append]

theorem Reads.cursor_eq (h : Reads notes cursor before rest) : cursor = cursorPast before rest := by
  cases h with
  | first =>
      unfold cursorPast
      split_ifs
      · rfl
      · rfl
  | after before last rest _ hrest =>
      rw [cursorPast, if_neg hrest, List.getLast?_concat]
      rfl

theorem encodeCursor_ne_empty (t : Timestamp) (id : Uuid) : encodeCursor t id.text ≠ "" := by
  intro hempty
  have hread := cursorOf_encodeCursor t id
  rw [hempty] at hread
  have hnone : cursorOf (some "") = none := by decide
  rw [hnone] at hread
  cases hread

/-- A cursor is never an empty text. -/
theorem cursorPast_filter (shown rest : List Note) :
    (cursorPast shown rest).filter (· ≠ "") = cursorPast shown rest := by
  unfold cursorPast
  split_ifs
  · rfl
  · cases shown.getLast? with
    | none => rfl
    | some last =>
        have hne := encodeCursor_ne_empty last.createdAt last.id
        rw [Option.map_some, Option.filter_some, if_pos (decide_eq_true hne)]

/-- The cursor that points past what is shown reads what is not. -/
theorem reads_cursorPast (hnotes : notes = shown ++ rest) (h : cursorPast shown rest ≠ none) :
    Reads notes (cursorPast shown rest) shown rest := by
  unfold cursorPast at h ⊢
  split_ifs at h ⊢ with hrest
  · exact absurd rfl h
  · cases shown using List.reverseRecOn with
    | nil => exact absurd rfl h
    | append_singleton shown last _ =>
        rw [List.append_assoc] at hnotes
        rw [List.getLast?_concat]
        exact .after shown last rest hnotes hrest

theorem Reads.ne_nil (h : Reads notes cursor before rest) (hcursor : cursor ≠ none) :
    before ≠ [] ∧ rest ≠ [] := by
  cases h with
  | first => exact absurd rfl hcursor
  | after before last rest _ hrest => exact ⟨List.append_ne_nil_of_right_ne_nil _ (by simp), hrest⟩

/-- The server goes on there. -/
theorem Reads.matching_eq (h : Reads (order table userId) cursor before rest) :
    ∃ bound, Cursor cursor bound ∧
      (matching Note.key bound (table.rowsOf userId)).map Note.blank = rest := by
  cases h with
  | first => exact ⟨none, .first, rfl⟩
  | after before last rest hnotes _ =>
      obtain ⟨front, back, hmatching, -, hback⟩ := List.map_eq_append_iff.mp hnotes
      obtain ⟨note, after, rfl, rfl, rfl⟩ := List.map_eq_cons_iff.mp hback
      refine ⟨some note.key, .after note, ?_⟩
      exact congrArg (List.map Note.blank) (matching_after (table.key_nodup userId) hmatching)

theorem Reads.unique (h : Reads (order table userId) cursor before rest)
    (h' : Reads (order table userId) cursor before' rest') : before = before' ∧ rest = rest' := by
  obtain ⟨bound, hbound, hrest⟩ := h.matching_eq
  obtain ⟨bound', hbound', hrest'⟩ := h'.matching_eq
  obtain rfl : bound = bound' :=
    Except.ok.inj ((boundOf_cursor hbound).symm.trans (boundOf_cursor hbound'))
  obtain rfl : rest = rest' := hrest.symm.trans hrest'
  exact ⟨List.append_cancel_right (h.eq_append.symm.trans h'.eq_append), rfl⟩

theorem cursorPast_append (before : List Note) {shown rest : List Note} (h : shown ≠ []) :
    cursorPast (before ++ shown) rest = cursorPast shown rest := by
  unfold cursorPast
  rw [List.getLast?_append_of_ne_nil _ h]

/-- A page, as it is shown. -/
theorem ofPage_page (table : NoteTable) (userId : Uuid) (bound : Option NoteKey)
    (hrest : (matching Note.key bound (table.rowsOf userId)).map Note.blank = rest) :
    PaginatedNotes.ofPage (page Note.key 20 bound (table.rowsOf userId)) perPage
      = ⟨rest.take 20, cursorPast (rest.take 20) (rest.drop 20), !(rest.drop 20).isEmpty, 20⟩ := by
  have hlength : (matching Note.key bound (table.rowsOf userId)).length = rest.length := by
    rw [← hrest, List.length_map]
  have hitems : ((matching Note.key bound (table.rowsOf userId)).take 20).map Note.blank
      = rest.take 20 := by
    rw [← hrest, List.map_take]
  have hmore : decide (20 < (matching Note.key bound (table.rowsOf userId)).length)
      = !(rest.drop 20).isEmpty := by
    apply Bool.eq_iff_iff.mpr
    rw [hlength, decide_eq_true_iff, Bool.not_eq_true', List.isEmpty_eq_false_iff, Ne,
      List.drop_eq_nil_iff]
    omega
  have hlast : (((matching Note.key bound (table.rowsOf userId)).take 20).getLast?.map
      fun n => encodeCursor n.createdAt n.id.text)
      = (rest.take 20).getLast?.map fun n => encodeCursor n.createdAt n.id.text := by
    rw [← hitems, List.getLast?_map, Option.map_map]
    rfl
  unfold PaginatedNotes.ofPage page cursorPast
  dsimp only
  rw [hitems, hmore, hlast]
  cases hrest : rest.drop 20 with
  | nil => rfl
  | cons note others => rfl

/-- The server answers with the next notes, and the cursor past them. -/
theorem Reads.listNotes_eq (h : Reads (order table userId) cursor before rest) :
    listNotes table userId cursor perPage = .ok (answer before rest) := by
  obtain ⟨bound, hbound, hrest⟩ := h.matching_eq
  have hlimit : pageLimit perPage = 20 := by decide
  rw [FullStackHex.listNotes_eq table userId perPage hbound, hlimit,
    ofPage_page table userId bound hrest]
  by_cases hnone : rest = []
  · rw [hnone]
    rfl
  · have htake : rest.take 20 ≠ [] := by simp [hnone]
    rw [answer, cursorPast_append before htake]

end Reads

/-! ## What the steps keep -/

/-- The rows are the notes up to the cursor, and every request reads from some point on. -/
structure Good (table : NoteTable) (userId : Uuid) (s : State) : Prop where
  shown : ∃ rest, order table userId = s.rows ++ rest ∧ s.nextCursor = cursorPast s.rows rest ∧
    (s.tableShown = true → (s.hasMore = true ↔ rest ≠ []))
  button : s.loadMoreButton = true → s.nextCursor ≠ none
  loads : ∀ load ∈ s.inFlight,
    (∃ before rest, Reads (order table userId) load.cursor before rest) ∧
      (load.append = true → load.cursor ≠ none)

section Steps

variable {table : NoteTable} {userId : Uuid} {s s' : State} {load : Load} {data : PaginatedNotes}
  {before rest : List Note}

theorem mem_order {note : Note} (h : note ∈ table.rowsOf userId) :
    note.blank ∈ order table userId :=
  List.mem_map_of_mem (mem_matching.mpr ⟨h, fun _ hb => nomatch hb⟩)

theorem Good.shows (h : Good table userId s) (htable : s.tableShown = true) :
    Shows table userId s := by
  obtain ⟨rest, hnotes, hcursor, hmore⟩ := h.shown
  have hnodup : (s.rows ++ rest).Nodup := hnotes ▸ nodup_order
  refine ⟨⟨rest, hnotes, hcursor, hmore htable⟩, hnodup.of_append_left, ?_⟩
  intro hend note hnote
  have hrest : rest = [] := by
    by_contra hne
    rw [(hmore htable).mpr hne] at hend
    cases hend
  have hrows : s.rows = order table userId := by rw [hnotes, hrest, List.append_nil]
  rw [hrows]
  exact List.count_eq_one_of_mem nodup_order (mem_order hnote)

theorem good_initial : Good table userId .initial where
  shown := ⟨order table userId, rfl, by rw [cursorPast]; split_ifs <;> rfl, fun h => nomatch h⟩
  button := fun h => nomatch h
  loads := by
    intro load hload
    obtain rfl := List.mem_singleton.mp hload
    exact ⟨⟨[], _, .first⟩, fun h => nomatch h⟩

theorem Good.loadNotes (h : Good table userId s) {append : Bool}
    (hbutton : append = true → s.loadMoreButton = true) :
    Good table userId (s.loadNotes append) := by
  obtain ⟨rest, hnotes, hcursor, hmore⟩ := h.shown
  have hfilter : s.nextCursor.filter (· ≠ "") = s.nextCursor := by
    rw [hcursor, cursorPast_filter]
  refine ⟨⟨rest, hnotes, hcursor, fun ht => hmore (Bool.and_eq_true_iff.mp ht).2⟩, h.button, ?_⟩
  intro load hload
  rcases List.mem_append.mp hload with hold | hnew
  · exact h.loads load hold
  · obtain rfl := List.mem_singleton.mp hnew
    rw [hfilter]
    refine ⟨?_, fun happend => h.button (hbutton happend)⟩
    by_cases hnone : s.nextCursor = none
    · rw [hnone]
      exact ⟨[], _, .first⟩
    · rw [hcursor] at hnone ⊢
      exact ⟨s.rows, rest, reads_cursorPast hnotes hnone⟩

theorem Good.fewer (h : Good table userId s) {loads : List Load} (hloads : loads ⊆ s.inFlight) :
    Good table userId { s with inFlight := loads } :=
  ⟨h.shown, h.button, fun load hload => h.loads load (hloads hload)⟩

theorem Good.failed (h : Good table userId s) : Good table userId s.failed :=
  ⟨h.shown, h.button, h.loads⟩

/-! ### An answer -/

theorem received_fields : (s.received load data).nextCursor = data.nextCursor ∧
    (s.received load data).hasMore = data.hasMore ∧
    (s.received load data).loadMoreButton = data.hasMore ∧
    (s.received load data).inFlight = s.inFlight := by
  unfold State.received
  by_cases hitems : data.items = []
  · rw [if_pos hitems]
    exact ⟨rfl, rfl, rfl, rfl⟩
  · rw [if_neg hitems]
    exact ⟨rfl, rfl, rfl, rfl⟩

theorem received_rows_of_ne (h : data.items ≠ []) : (s.received load data).tableShown = true ∧
    (s.received load data).rows = (if load.append then s.rows else []) ++ data.items := by
  unfold State.received
  rw [if_neg h]
  refine ⟨rfl, ?_⟩
  change (if load.append then s.rows ++ data.items else data.items) = _
  split_ifs
  · rfl
  · rfl

theorem received_rows_of_nil (h : data.items = []) : (s.received load data).rows = s.rows := by
  unfold State.received
  rw [if_pos h]
  rfl

/-- A load that is in step reads what the rows lack. -/
theorem Good.before_eq (h : Good table userId s)
    (hreads : Reads (order table userId) load.cursor before rest)
    (happend : load.append = true → load.cursor ≠ none)
    (hin : load.cursor = if load.append then s.nextCursor else none) :
    before = if load.append then s.rows else [] := by
  obtain ⟨rest', hnotes, hcursor, -⟩ := h.shown
  cases hload : load.append with
  | true =>
      rw [hload, if_pos rfl, hcursor] at hin
      have hsome := happend hload
      rw [hin] at hsome hreads
      exact (hreads.unique (reads_cursorPast hnotes hsome)).1
  | false =>
      rw [hload, if_neg Bool.false_ne_true] at hin
      rw [hin] at hreads
      exact (hreads.unique .first).1

theorem cursorPast_ne_none {shown rest : List Note} (hshown : shown ≠ []) (hrest : rest ≠ []) :
    cursorPast shown rest ≠ none := by
  rw [cursorPast, if_neg hrest, List.getLast?_eq_some_getLast hshown]
  exact Option.some_ne_none _

theorem Good.received (h : Good table userId s)
    (hreads : Reads (order table userId) load.cursor before rest)
    (hbefore : before = if load.append then s.rows else []) :
    Good table userId (s.received load (answer before rest)) := by
  obtain ⟨hcursor, hmore, hbutton, hinFlight⟩ :=
    @received_fields s load (answer before rest)
  have hnotes := hreads.eq_append
  have hrows : (s.received load (answer before rest)).rows = before ++ rest.take 20 := by
    by_cases hitems : rest.take 20 = []
    · have hrest : rest = [] := by simpa using hitems
      rw [received_rows_of_nil hitems, hitems, List.append_nil]
      split_ifs at hbefore
      · exact hbefore.symm
      · -- a user without notes
        obtain ⟨rest', hshown, -, -⟩ := h.shown
        rw [hnotes, hbefore, hrest, List.append_nil] at hshown
        rw [hbefore]
        exact (List.append_eq_nil_iff.mp hshown.symm).1
    · rw [(received_rows_of_ne hitems).2, hbefore]
      rfl
  have hdrop : (answer before rest).hasMore = true ↔ rest.drop 20 ≠ [] := by
    change (!(rest.drop 20).isEmpty) = true ↔ _
    rw [Bool.not_eq_true', List.isEmpty_eq_false_iff]
  refine ⟨⟨rest.drop 20, ?_, ?_, ?_⟩, ?_, ?_⟩
  · rw [hrows, List.append_assoc, List.take_append_drop, hnotes]
  · rw [hrows, hcursor]
    rfl
  · intro _
    rw [hmore]
    exact hdrop
  · intro hshown
    rw [hbutton, hdrop] at hshown
    have htake : rest.take 20 ≠ [] := by
      intro hnone
      obtain rfl : rest = [] := by simpa using hnone
      exact hshown rfl
    rw [hcursor]
    exact cursorPast_ne_none (List.append_ne_nil_of_right_ne_nil _ htake) hshown
  · rw [hinFlight]
    exact h.loads

/-- An element that is there once is at one place. -/
theorem length_eq_of_nodup {α : Type} {shown before : List α} {a : α} {after after' : List α}
    (hnodup : (before ++ a :: after).Nodup)
    (h : before ++ a :: after = shown ++ a :: after') : before.length = shown.length := by
  have hbefore : (before ++ a :: after)[before.length]? = some a := by simp
  have hshown : (before ++ a :: after)[shown.length]? = some a := by
    rw [h]
    simp
  have hlt : before.length < (before ++ a :: after).length := by simp
  exact (List.getElem?_inj hlt hnodup).mp (hbefore.trans hshown.symm)

/-- The rows are in order only after a load that was in step. -/
theorem Good.in_step_of_shows (h : Good table userId s)
    (hreads : Reads (order table userId) load.cursor before rest)
    (happend : load.append = true → load.cursor ≠ none)
    (hshows : (s.received load (answer before rest)).tableShown = true →
      Shows table userId (s.received load (answer before rest))) :
    load.cursor = if load.append then s.nextCursor else none := by
  have hnotes := hreads.eq_append
  obtain ⟨rest', hshown, hcursor, -⟩ := h.shown
  by_cases hnone : load.cursor = none
  · rw [if_neg fun htrue => happend htrue hnone]
    exact hnone
  · obtain ⟨hbefore, hrest⟩ := hreads.ne_nil hnone
    obtain ⟨note, after, rfl⟩ := List.exists_cons_of_ne_nil hrest
    have hitems : (answer before (note :: after)).items ≠ [] := List.cons_ne_nil _ _
    obtain ⟨htable, hrows⟩ := @received_rows_of_ne s load _ hitems
    obtain ⟨others, hothers, -, -⟩ := (hshows htable).inOrder
    rw [hrows, List.append_assoc] at hothers
    have hnodup : (before ++ note :: after).Nodup := hnotes ▸ nodup_order
    have hlength := length_eq_of_nodup hnodup (hnotes.symm.trans hothers)
    split_ifs at hlength ⊢
    · -- an append goes on where the rows end
      obtain ⟨rfl, rfl⟩ := List.append_inj (hnotes.symm.trans hshown) hlength
      rw [hreads.cursor_eq, hcursor]
    · exact absurd (List.length_eq_zero_iff.mp hlength) hbefore

/-- Each step that is in step leaves the rows in order, and no other. -/
theorem Good.step (h : Good table userId s) {label : Label}
    (hs : s.step table userId label = some s') :
    ((s'.tableShown = true → Shows table userId s') ↔ InStep s label) ∧
      (InStep s label → Good table userId s') := by
  cases label with
  | loadMore =>
      simp only [State.step] at hs
      split_ifs at hs with hshown
      obtain rfl := Option.some.inj hs
      have hnext : Good table userId (s.loadNotes true) :=
        h.loadNotes fun _ => (Bool.and_eq_true_iff.mp hshown).2
      exact ⟨iff_of_true hnext.shows trivial, fun _ => hnext⟩
  | retry =>
      simp only [State.step] at hs
      split_ifs at hs
      obtain rfl := Option.some.inj hs
      have hnext : Good table userId (s.loadNotes false) := h.loadNotes fun hfalse => nomatch hfalse
      exact ⟨iff_of_true hnext.shows trivial, fun _ => hnext⟩
  | fail i =>
      obtain ⟨load, -, hs⟩ := Option.bind_eq_some_iff.mp hs
      obtain rfl := Option.some.inj hs
      have hloads : s.inFlight.eraseIdx i ⊆ s.failed.inFlight := List.eraseIdx_subset
      have hnext := h.failed.fewer hloads
      exact ⟨iff_of_true hnext.shows trivial, fun _ => hnext⟩
  | succeed i =>
      obtain ⟨load, hload, hs⟩ := Option.bind_eq_some_iff.mp hs
      obtain ⟨⟨before, rest, hreads⟩, happend⟩ := h.loads load (List.mem_of_getElem? hload)
      rw [hreads.listNotes_eq] at hs
      obtain rfl := Option.some.inj hs
      have hin : InStep s (.succeed i) ↔
          load.cursor = if load.append then s.nextCursor else none := by
        change (∀ l ∈ s.inFlight[i]?, _) ↔ _
        rw [hload]
        exact ⟨fun hall => hall load rfl, fun heq _ hl => Option.some.inj hl ▸ heq⟩
      have hloads : s.inFlight.eraseIdx i ⊆ (s.received load (answer before rest)).inFlight := by
        rw [received_fields.2.2.2]
        exact List.eraseIdx_subset
      have hnext := fun hstep =>
        (h.received hreads (h.before_eq hreads happend hstep)).fewer hloads
      rw [hin]
      refine ⟨⟨fun hshows => ?_, fun hstep => (hnext hstep).shows⟩, hnext⟩
      apply h.in_step_of_shows hreads happend
      intro htable
      obtain ⟨hinOrder, hnodup, hcomplete⟩ := hshows htable
      exact ⟨hinOrder, hnodup, hcomplete⟩

/-- Whenever the table is shown its rows are in order, in exactly the runs whose answers are to
requests that start where the page goes on. -/
theorem shows_throughout (table : NoteTable) (userId : Uuid) (labels : List Label) :
    Trace.Throughout (State.step table userId)
        (fun s => s.tableShown = true → Shows table userId s) .initial labels ↔
      Trace.Each (State.step table userId) InStep .initial labels := by
  apply Trace.throughout_iff_each fun s _ => Good table userId s
  · intro s label rest s' hgood _ hs
    exact hgood.step hs
  · exact good_initial
  · exact fun htable => nomatch htable

end Steps

namespace Sample

def userId : Uuid := ⟨"11111111-1111-4111-8111-111111111111", by decide +kernel⟩

def noteId (i : Fin 21) : Uuid where
  text := "22222222-2222-4222-8222-2222222222" ++ toString (10 + i.val)
  wellFormed := by
    revert i
    decide +kernel

def createdAt (i : Fin 21) : Timestamp := ⟨i.val, by omega, by omega⟩

/-- One note more than a page has. -/
def table : NoteTable where
  rows := (List.finRange 21).map fun i => ⟨noteId i, userId, "title", "", createdAt i, createdAt i⟩
  primaryKey := by decide +kernel

def labels : List Label := [.succeed 0, .loadMore, .fail 0, .retry, .succeed 0]

end Sample

/-- The second page takes the place of the first one. -/
theorem retry_keeps_cursor :
    (Trace.run (State.step Sample.table Sample.userId) .initial Sample.labels).map
        (fun s => (s.tableShown, s.hasMore, s.rows))
      = some (true, false, (order Sample.table Sample.userId).drop 20) ∧
    ¬ Trace.Throughout (State.step Sample.table Sample.userId)
        (fun s => s.tableShown = true → Shows Sample.table Sample.userId s) .initial
        Sample.labels := by
  have hlast : (Trace.run (State.step Sample.table Sample.userId) .initial Sample.labels).map
      (fun s => (s.tableShown, s.hasMore, s.rows))
      = some (true, false, (order Sample.table Sample.userId).drop 20) := by decide +kernel
  refine ⟨hlast, fun hthroughout => ?_⟩
  obtain ⟨s, hrun, hs⟩ := Option.map_eq_some_iff.mp hlast
  obtain ⟨hshown, hmore, hrows⟩ : s.tableShown = true ∧ s.hasMore = false ∧
      s.rows = (order Sample.table Sample.userId).drop 20 := by
    simpa only [Prod.mk.injEq] using hs
  have hshows := Trace.throughout_iff.mp hthroughout Sample.labels.length s
    (by rw [List.take_length]; exact hrun) hshown
  obtain ⟨rest, hnotes, -, -⟩ := hshows.inOrder
  have hprefix : (order Sample.table Sample.userId).drop 20 <+: order Sample.table Sample.userId :=
    ⟨rest, hrows ▸ hnotes.symm⟩
  exact absurd hprefix (by decide +kernel)

end NotesPage

end FullStackHex
