import FullStackHex.Domain
import FullStackHex.Library.Codec
import FullStackHex.Library.Keyset

/-!
The notes of `api/src/notes.rs`: one table, its four statements, and the pages of
`list_notes`. Every handler is one SQL statement, so a run is the sequence of
their effects.
-/

namespace FullStackHex

open Codec Keyset

def hexValue (c : Char) : Nat :=
  if c.isDigit then c.toNat - '0'.toNat
  else if 'a' ≤ c ∧ c ≤ 'f' then c.toNat - 'a'.toNat + 10
  else c.toNat - 'A'.toNat + 10

/-- The 128 bits behind the text of a UUID, whose order is that of the column. -/
def uuidValue (text : String) : Nat :=
  (text.toList.filter isHexDigit).foldl (fun n c => 16 * n + hexValue c) 0

abbrev Uuid.value (u : Uuid) : Nat := uuidValue u.text

/-- `Uuid::parse_str`: simple, hyphenated, in braces or as a URN. -/
def uuidParses (text : String) : Bool :=
  let cs := text.toList
  (cs.length == 32 && cs.all isHexDigit) || isUuid text
    || (cs.head? == some '{' && cs.getLast? == some '}' && isUuid (String.ofList cs.tail.dropLast))
    || (cs.take 9 == "urn:uuid:".toList && isUuid (String.ofList (cs.drop 9)))

/-- What follows so many groups of four digits, with a hyphen between two or without. -/
def uuidGroups : Nat → List Char → Option (List Char)
  | 0, cs => some cs
  | n + 1, a :: b :: c :: d :: rest =>
      if isHexDigit a && isHexDigit b && isHexDigit c && isHexDigit d then
        uuidGroups n (if n ≠ 0 ∧ rest.head? = some '-' then rest.tail else rest)
      else none
  | _ + 1, _ => none

/-- The input of the type `uuid` of Postgres. -/
def postgresUuid (text : String) : Bool :=
  match text.toList with
  | '{' :: cs => uuidGroups 8 cs == some ['}']
  | cs => uuidGroups 8 cs == some []

/-- `::uuid`. -/
def castUuid (context text : String) : Except ApiError Nat :=
  if postgresUuid text then .ok (uuidValue text) else .error (.internalError context)

/-- The range of `DateTime::from_timestamp_micros`. -/
def chronoTime (micros : Int) : Bool :=
  -8334601315200000000 ≤ micros && micros ≤ 8210266876799999999

/-- The range of the type `timestamptz`, from 4713 BC to 294276 AD. -/
def postgresTime (micros : Int) : Bool :=
  -210866803200000000 ≤ micros && micros < 9224318016000000000

/-- `::timestamptz`. -/
def castTimestamptz (context : String) (micros : Int) : Except ApiError Int :=
  if postgresTime micros then .ok micros else .error (.internalError context)

/-- What `(created_at, id)` compares by. -/
abbrev NoteKey := Int ×ₗ Nat

def Note.key (note : Note) : NoteKey := toLex (note.createdAt.micros, note.id.value)

/-- `notes`, with its primary key. -/
structure NoteTable where
  rows : List Note
  primaryKey : (rows.map fun note => note.id.value).Nodup

structure PaginatedNotes where
  items : List Note
  nextCursor : Option String
  hasMore : Bool
  perPage : Int

def encodeCursor (createdAt : Timestamp) (id : String) : String :=
  encodeText (toString createdAt.micros ++ ":" ++ id)

def decodeCursor (cursor : String) : Option (Int × String) := do
  let raw ← decodeText cursor
  let (micros, id) ← splitOnce ':' raw
  return (← parseI64 micros, id)

/-- The cursor of a request; what is no cursor counts as none. -/
def cursorOf (cursor : Option String) : Option (Int × String) := do
  let (micros, id) ← cursor.bind decodeCursor
  if chronoTime micros && uuidParses id then some (micros, id) else none

/-- What the next page starts below. -/
def boundOf (cursor : Option String) : Except ApiError (Option NoteKey) :=
  match cursorOf cursor with
  | none => .ok none
  | some (micros, id) => do
      let createdAt ← castTimestamptz "failed to list notes" micros
      let value ← castUuid "failed to list notes" id
      .ok (some (toLex (createdAt, value)))

/-- WHERE user_id = ... -/
def NoteTable.rowsOf (table : NoteTable) (userId : Uuid) : List Note :=
  table.rows.filter fun note => note.userId = userId

/-- AND (created_at, id) < .. ORDER BY created_at DESC, id DESC LIMIT ... -/
def NoteTable.select (table : NoteTable) (userId : Uuid) (bound : Option NoteKey) (limit : Nat) :
    List Note :=
  (matching Note.key bound (table.rowsOf userId)).take limit

/-- The bodies are not read. -/
def Note.blank (note : Note) : Note := { note with body := "" }

def listNotes (table : NoteTable) (userId : Uuid) (cursor : Option String) (perPage : Int) :
    Except ApiError PaginatedNotes := do
  let limit := max 1 (min perPage 100)
  let bound ← boundOf cursor
  let rows := table.select userId bound (limit + 1).toNat
  let hasMore : Bool := limit.toNat < rows.length
  let items := (rows.take limit.toNat).map Note.blank
  let nextCursor := if hasMore then items.getLast?.map fun n => encodeCursor n.createdAt n.id.text
    else none
  return ⟨items, nextCursor, hasMore, limit⟩

/-- The checks of `create_note` and `update_note`. Lengths are in bytes. -/
def checkNote (title body : String) : Except ApiError Unit := do
  if title.toList.all isWhiteSpace then throw (.validationError "title is required")
  if 255 < title.utf8ByteSize then
    throw (.validationError "title must be 255 characters or fewer")
  if 100000 < body.utf8ByteSize then throw (.validationError "body must be 100KB or fewer")

/-- Postgres holds no text with a zero character. -/
def storable (text : String) : Bool := !text.toList.contains (Char.ofNat 0)

/-- The id that Postgres chooses and the moment of the statement are given; an id that is taken
violates the primary key. -/
def createNote (table : NoteTable) (userId : Uuid) (title body : String) (id : Uuid)
    (now : Timestamp) : Except ApiError Note × NoteTable :=
  match checkNote title body with
  | .error e => (.error e, table)
  | .ok () =>
      if h : id.value ∈ table.rows.map (fun note => note.id.value) then
        (.error (.internalError "failed to create note"), table)
      else if storable title && storable body then
        let note : Note := ⟨id, userId, title, body, now, now⟩
        (.ok note, ⟨note :: table.rows, List.nodup_cons.mpr ⟨h, table.primaryKey⟩⟩)
      else (.error (.internalError "failed to create note"), table)

/-- The row with an id, if it belongs to the user. -/
def Note.isRow (note : Note) (userId : Uuid) (value : Nat) : Bool :=
  note.id.value = value && note.userId = userId

def getNote (table : NoteTable) (userId : Uuid) (id : String) : Except ApiError Note :=
  if !uuidParses id then .error (.validationError "invalid note id")
  else
    match castUuid "failed to get note" id with
    | .error e => .error e
    | .ok value =>
        match table.rows.find? fun note => note.isRow userId value with
        | none => .error (.notFound "note not found")
        | some note => .ok note

/-- SET title, body, updated_at: the id and the time of creation stay as they are. -/
def Note.rewrite (userId : Uuid) (value : Nat) (title body : String) (now : Timestamp)
    (note : Note) : Note :=
  if note.isRow userId value then { note with title := title, body := body, updatedAt := now }
  else note

theorem Note.rewrite_same (userId : Uuid) (value : Nat) (title body : String) (now : Timestamp)
    (note : Note) :
    (note.rewrite userId value title body now).id = note.id ∧
      (note.rewrite userId value title body now).userId = note.userId ∧
      (note.rewrite userId value title body now).createdAt = note.createdAt := by
  unfold Note.rewrite
  split <;> exact ⟨rfl, rfl, rfl⟩

def NoteTable.update (table : NoteTable) (userId : Uuid) (value : Nat) (title body : String)
    (now : Timestamp) : NoteTable where
  rows := table.rows.map (Note.rewrite userId value title body now)
  primaryKey := by
    have hids : (fun note : Note => note.id.value) ∘ Note.rewrite userId value title body now
        = fun note => note.id.value := by
      funext note
      exact congrArg Uuid.value (note.rewrite_same userId value title body now).1
    rw [List.map_map, hids]
    exact table.primaryKey

def NoteTable.delete (table : NoteTable) (userId : Uuid) (value : Nat) : NoteTable where
  rows := table.rows.filter fun note => !note.isRow userId value
  primaryKey := table.primaryKey.sublist (List.filter_sublist.map _)

def updateNote (table : NoteTable) (userId : Uuid) (id title body : String) (now : Timestamp) :
    Except ApiError Note × NoteTable :=
  if !uuidParses id then (.error (.validationError "invalid note id"), table)
  else
    match checkNote title body, castUuid "failed to update note" id with
    | .error e, _ | .ok (), .error e => (.error e, table)
    | .ok (), .ok value =>
        if !(storable title && storable body) then
          (.error (.internalError "failed to update note"), table)
        else
          let table' := table.update userId value title body now
          match table'.rows.find? fun note => note.isRow userId value with
          | none => (.error (.notFound "note not found"), table)
          | some note => (.ok note, table')

def deleteNote (table : NoteTable) (userId : Uuid) (id : String) :
    Except ApiError Unit × NoteTable :=
  if !uuidParses id then (.error (.validationError "invalid note id"), table)
  else
    match castUuid "failed to delete note" id with
    | .error e => (.error e, table)
    | .ok value =>
        if table.rows.any fun note => note.isRow userId value then
          (.ok (), table.delete userId value)
        else (.error (.notFound "note not found"), table)

/-- A request that writes notes, with what the database chooses for it. -/
inductive NoteCall where
  | create (userId : Uuid) (title body : String) (id : Uuid) (now : Timestamp)
  | update (userId : Uuid) (id title body : String) (now : Timestamp)
  | delete (userId : Uuid) (id : String)

def NoteTable.apply (table : NoteTable) : NoteCall → NoteTable
  | .create userId title body id now => (createNote table userId title body id now).2
  | .update userId id title body now => (updateNote table userId id title body now).2
  | .delete userId id => (deleteNote table userId id).2

def NoteTable.applyAll (table : NoteTable) (calls : List NoteCall) : NoteTable :=
  calls.foldl NoteTable.apply table

/-! ## The rows of one user -/

theorem NoteTable.rowsOf_update (table : NoteTable) (userId owner : Uuid) (value : Nat)
    (title body : String) (now : Timestamp) :
    (table.update owner value title body now).rowsOf userId
      = (table.rowsOf userId).map (Note.rewrite owner value title body now) := by
  have huser : (fun note : Note => decide (note.userId = userId)) ∘
      Note.rewrite owner value title body now = fun note => decide (note.userId = userId) := by
    funext note
    rw [Function.comp_apply, (note.rewrite_same owner value title body now).2.1]
  unfold NoteTable.rowsOf NoteTable.update
  rw [List.filter_map, huser]

theorem NoteTable.rowsOf_delete (table : NoteTable) (userId owner : Uuid) (value : Nat) :
    (table.delete owner value).rowsOf userId
      = (table.rowsOf userId).filter fun note => !note.isRow owner value := by
  unfold NoteTable.rowsOf NoteTable.delete
  rw [List.filter_filter, List.filter_filter]
  exact List.filter_congr fun note _ => Bool.and_comm _ _

/-! ## One page -/

theorem Timestamp.inRange (t : Timestamp) :
    chronoTime t.micros = true ∧ postgresTime t.micros = true := by
  have hlow := t.low
  have hhigh := t.high
  simp only [chronoTime, postgresTime, Bool.and_eq_true, decide_eq_true_eq]
  omega

/-- A cursor that `list_notes` has given is read as the note it was made for. -/
theorem cursorOf_encodeCursor (t : Timestamp) (id : Uuid) :
    cursorOf (some (encodeCursor t id.text)) = some (t.micros, id.text) := by
  have hsplit : splitOnce ':' (toString t.micros ++ ":" ++ id.text)
      = some (toString t.micros, id.text) :=
    splitOnce_append _ (not_mem_toString (by decide) (by decide))
  have hlow := t.low
  have hhigh := t.high
  have hparse : parseI64 (toString t.micros) = some t.micros :=
    parseI64_toString (by omega) (by omega)
  have hdecode : decodeCursor (encodeCursor t id.text) = some (t.micros, id.text) := by
    simp only [decodeCursor, encodeCursor, decodeText_encodeText, Option.bind_eq_bind,
      Option.bind_some, hsplit, hparse]
    rfl
  have hid : uuidParses id.text = true := by simp [uuidParses, id.wellFormed]
  simp only [cursorOf, Option.bind_some, hdecode, Option.bind_eq_bind, t.inRange.1, hid,
    Bool.and_self, if_true]

/-! ## Texts of a UUID -/

theorem not_isHexDigit_hyphen : isHexDigit '-' = false := by decide

/-- Groups of digits without hyphens are read, and a hyphen after them if more are to come. -/
theorem uuidGroups_append {m k : Nat} {cs rest : List Char} (hm : 0 < m)
    (hlength : cs.length = 4 * m) (hhex : ∀ c ∈ cs, isHexDigit c = true) :
    uuidGroups (m + k) (cs ++ rest)
      = uuidGroups k (if k ≠ 0 ∧ rest.head? = some '-' then rest.tail else rest) := by
  induction m generalizing cs with
  | zero => omega
  | succ m ih =>
      match cs, hlength with
      | a :: b :: c :: d :: more, hlength =>
          simp only [List.length_cons] at hlength
          simp only [List.forall_mem_cons] at hhex
          obtain ⟨ha, hb, hc, hd, hmore⟩ := hhex
          have hsum : m + 1 + k = m + k + 1 := by omega
          rw [hsum]
          simp only [List.cons_append, uuidGroups, ha, hb, hc, hd, Bool.and_self, if_true]
          cases m with
          | zero =>
              rw [List.length_eq_zero_iff.mp (show more.length = 0 by omega)]
              simp
          | succ m =>
              have hhead : ¬ (more ++ rest).head? = some '-' := by
                intro hhyphen
                obtain ⟨e, after, rfl⟩ : ∃ e after, more = e :: after :=
                  List.exists_cons_of_length_pos (by omega)
                obtain rfl : e = '-' := by simpa using hhyphen
                exact absurd (hmore _ List.mem_cons_self) (by rw [not_isHexDigit_hyphen]; decide)
              rw [if_neg fun h => hhead h.2]
              exact ih (by omega) (by omega) hmore

/-- A run of digits of a hyphenated form, from one place up to another. -/
theorem isHexDigit_of_run {s : String} (h : isUuid s = true) {i n : Nat}
    (hrun : ∀ j < n, ¬ (i + j = 8 ∨ i + j = 13 ∨ i + j = 18 ∨ i + j = 23)) :
    ∀ c ∈ (s.toList.drop i).take n, isHexDigit c = true := by
  intro c hc
  obtain ⟨j, hj⟩ := List.mem_iff_getElem?.mp hc
  have hlt : j < n := by
    by_contra hge
    rw [List.getElem?_take, if_neg hge] at hj
    cases hj
  rw [List.getElem?_take_of_lt hlt, List.getElem?_drop] at hj
  have hchar := (isUuid_getElem h).2 _ c hj
  rwa [if_neg (hrun j hlt)] at hchar

/-- Up to the next hyphen. -/
theorem drop_eq_run {s : String} (h : isUuid s = true) (i n : Nat)
    (hhyphen : i + n = 8 ∨ i + n = 13 ∨ i + n = 18 ∨ i + n = 23) :
    s.toList.drop i = (s.toList.drop i).take n ++ '-' :: s.toList.drop (i + n + 1) := by
  obtain ⟨hlength, hchars⟩ := isUuid_getElem h
  have hlt : i + n < s.toList.length := by omega
  have hchar := hchars (i + n) _ (List.getElem?_eq_getElem hlt)
  rw [if_pos hhyphen] at hchar
  have hrest : (s.toList.drop i).drop n = '-' :: s.toList.drop (i + n + 1) := by
    rw [List.drop_drop, List.drop_eq_getElem_cons hlt, hchar]
  rw [← hrest, List.take_append_drop]

/-- The hyphenated form. -/
theorem uuidGroups_hyphenated {s : String} (h : isUuid s = true) (rest : List Char) :
    uuidGroups 8 (s.toList ++ rest) = some rest := by
  have hlength := (isUuid_getElem h).1
  have htake : ∀ i n, i + n ≤ 36 → ((s.toList.drop i).take n).length = n := by
    intro i n hle
    rw [List.length_take, List.length_drop]
    omega
  have hsplit : s.toList = (s.toList.drop 0).take 8 ++ '-' :: ((s.toList.drop 9).take 4 ++
      '-' :: ((s.toList.drop 14).take 4 ++ '-' :: ((s.toList.drop 19).take 4 ++
        '-' :: (s.toList.drop 24).take 12))) := by
    have hlast : (s.toList.drop 24).take 12 = s.toList.drop 24 :=
      List.take_of_length_le (by rw [List.length_drop]; omega)
    rw [hlast, ← drop_eq_run h 19 4 (by decide), ← drop_eq_run h 14 4 (by decide),
      ← drop_eq_run h 9 4 (by decide), ← drop_eq_run h 0 8 (by decide), List.drop_zero]
  have hgroups : ∀ (m k i : Nat) (more : List Char), 0 < m → i + 4 * m ≤ 36 →
      (∀ j < 4 * m, ¬ (i + j = 8 ∨ i + j = 13 ∨ i + j = 18 ∨ i + j = 23)) →
      uuidGroups (m + (k + 1)) ((s.toList.drop i).take (4 * m) ++ '-' :: more)
        = uuidGroups (k + 1) more := by
    intro m k i more hm hle hplaces
    rw [uuidGroups_append hm (htake i _ hle) (isHexDigit_of_run h hplaces),
      if_pos ⟨Nat.succ_ne_zero k, rfl⟩, List.tail_cons]
  have hlast : uuidGroups (3 + 0) ((s.toList.drop 24).take (4 * 3) ++ rest) = some rest := by
    rw [uuidGroups_append (by decide) (htake 24 _ (by decide)) (isHexDigit_of_run h (by decide)),
      if_neg fun hk => hk.1 rfl, uuidGroups]
  rw [hsplit]
  simp only [List.append_assoc, List.cons_append]
  calc uuidGroups (2 + (5 + 1)) ((s.toList.drop 0).take (4 * 2) ++ '-' :: _)
      = uuidGroups (1 + (4 + 1)) ((s.toList.drop 9).take (4 * 1) ++ '-' :: _) :=
        hgroups 2 5 0 _ (by decide) (by decide) (by decide)
    _ = uuidGroups (1 + (3 + 1)) ((s.toList.drop 14).take (4 * 1) ++ '-' :: _) :=
        hgroups 1 4 9 _ (by decide) (by decide) (by decide)
    _ = uuidGroups (1 + (2 + 1)) ((s.toList.drop 19).take (4 * 1) ++ '-' :: _) :=
        hgroups 1 3 14 _ (by decide) (by decide) (by decide)
    _ = uuidGroups (3 + 0) ((s.toList.drop 24).take (4 * 3) ++ rest) :=
        hgroups 1 2 19 _ (by decide) (by decide) (by decide)
    _ = some rest := hlast

theorem postgresUuid_of_isUuid {s : String} (h : isUuid s = true) : postgresUuid s = true := by
  have hread := uuidGroups_hyphenated h []
  rw [List.append_nil] at hread
  unfold postgresUuid
  split
  · rename_i cs hcs
    have hbrace := (isUuid_getElem h).2 0 '\x7b' (by rw [hcs]; rfl)
    exact absurd hbrace (by decide)
  · rw [hread, beq_self_eq_true]

theorem castUuid_text (context : String) (u : Uuid) : castUuid context u.text = .ok u.value := by
  rw [castUuid, if_pos (postgresUuid_of_isUuid u.wellFormed)]

/-- The bound behind a cursor that a page has given. -/
inductive Cursor : Option String → Option NoteKey → Prop where
  | first : Cursor none none
  | after (note : Note) :
      Cursor (some (encodeCursor note.createdAt note.id.text)) (some note.key)

/-- `limit` as a number of rows. -/
def pageLimit (perPage : Int) : Nat := (max 1 (min perPage 100)).toNat

theorem pageLimit_pos (perPage : Int) : 0 < pageLimit perPage := by
  unfold pageLimit
  omega

/-- The answer made of a page of the keyset. -/
def PaginatedNotes.ofPage (p : Page Note) (perPage : Int) : PaginatedNotes where
  items := p.items.map Note.blank
  nextCursor :=
    if p.more then p.items.getLast?.map fun n => encodeCursor n.createdAt n.id.text else none
  hasMore := p.more
  perPage := max 1 (min perPage 100)

theorem boundOf_cursor {cursor : Option String} {bound : Option NoteKey} (h : Cursor cursor bound) :
    boundOf cursor = .ok bound := by
  cases h with
  | first => rfl
  | after note =>
      unfold boundOf
      rw [cursorOf_encodeCursor]
      simp only [castTimestamptz, note.createdAt.inRange.2, if_true, castUuid_text]
      rfl

/-- One page is the page of the keyset below the bound. -/
theorem listNotes_eq (table : NoteTable) (userId : Uuid) (perPage : Int) {cursor : Option String}
    {bound : Option NoteKey} (h : Cursor cursor bound) :
    listNotes table userId cursor perPage = .ok
      (.ofPage (page Note.key (pageLimit perPage) bound (table.rowsOf userId)) perPage) := by
  let p := page Note.key (pageLimit perPage) bound (table.rowsOf userId)
  have hlimit : (max 1 (min perPage 100) + 1).toNat = pageLimit perPage + 1 := by
    unfold pageLimit
    omega
  have hlimit' : (max 1 (min perPage 100)).toNat = pageLimit perPage := rfl
  have hlength : (table.select userId bound (pageLimit perPage + 1)).length
      = min (pageLimit perPage + 1) (matching Note.key bound (table.rowsOf userId)).length :=
    List.length_take
  have hmore : decide (pageLimit perPage < (table.select userId bound (pageLimit perPage + 1)).length)
      = p.more := by
    apply decide_eq_decide.mpr
    rw [hlength]
    omega
  have hitems : (table.select userId bound (pageLimit perPage + 1)).take (pageLimit perPage)
      = p.items := by
    unfold NoteTable.select
    rw [List.take_take, min_eq_left (by omega)]
    rfl
  have hlast : ((p.items.map Note.blank).getLast?.map fun n => encodeCursor n.createdAt n.id.text)
      = p.items.getLast?.map fun n => encodeCursor n.createdAt n.id.text := by
    rw [List.getLast?_map, Option.map_map]
    rfl
  unfold listNotes
  rw [boundOf_cursor h]
  simp only [hlimit, hlimit', Except.bind, bind]
  rw [hmore, hitems, hlast]
  rfl

end FullStackHex
