import FullStackHex.Api.Notes
import FullStackHex.Auth.Service
import FullStackHex.Library.Noninterference

/-!
Notes belong to a user. Every statement of `api/src/notes.rs` names its user, so what a user
reads depends on the rows of that user alone, and the calls of others leave them as they are.
-/

namespace FullStackHex

open Keyset Noninterference

inductive NoteRequest where
  | list (userId : Uuid) (cursor : Option String) (perPage : Int)
  | get (userId : Uuid) (id : String)
  | write (call : NoteCall)

def NoteCall.userId : NoteCall → Uuid
  | .create userId _ _ _ _ => userId
  | .update userId _ _ _ _ => userId
  | .delete userId _ => userId

def NoteRequest.userId : NoteRequest → Uuid
  | .list userId _ _ => userId
  | .get userId _ => userId
  | .write call => call.userId

inductive NoteBody where
  | page (notes : PaginatedNotes)
  | note (note : Note)
  | empty
  | error (error : ApiError)

structure NoteAnswer where
  status : Nat
  body : NoteBody

def NoteAnswer.of {α : Type} (status : Nat) (body : α → NoteBody) : Except ApiError α → NoteAnswer
  | .ok a => ⟨status, body a⟩
  | .error e => ⟨e.status, .error e⟩

def NoteTable.handle (table : NoteTable) : NoteRequest → NoteAnswer × NoteTable
  | .list userId cursor perPage => (.of 200 .page (listNotes table userId cursor perPage), table)
  | .get userId id => (.of 200 .note (getNote table userId id), table)
  | .write (.create userId title body id now) =>
      let r := createNote table userId title body id now
      (.of 201 .note r.1, r.2)
  | .write (.update userId id title body now) =>
      let r := updateNote table userId id title body now
      (.of 200 .note r.1, r.2)
  | .write (.delete userId id) =>
      let r := deleteNote table userId id
      (.of 204 (fun _ => .empty) r.1, r.2)

def NoteRequest.isOf (userId : Uuid) (req : NoteRequest) : Bool := req.userId = userId

/-- The id that Postgres chooses for a new note of the user is not taken. -/
def NoteRequest.Fresh (userId : Uuid) (table : NoteTable) : NoteRequest → Prop
  | .write (.create owner _ _ id _) =>
      owner = userId → id.value ∉ table.rows.map fun note => note.id.value
  | _ => True

instance NoteRequest.decidableFresh (userId : Uuid) (table : NoteTable) (req : NoteRequest) :
    Decidable (req.Fresh userId table) :=
  match req with
  | .write (.create owner _ _ id _) =>
      inferInstanceAs (Decidable (owner = userId →
        id.value ∉ table.rows.map fun note => note.id.value))
  | .write (.update _ _ _ _ _) | .write (.delete _ _) => inferInstanceAs (Decidable True)
  | .list _ _ _ | .get _ _ => inferInstanceAs (Decidable True)

/-- The statuses and bodies that the user is answered. -/
abbrev answersTo (userId : Uuid) : NoteTable → List NoteRequest → List NoteAnswer :=
  observed NoteTable.handle (NoteRequest.isOf userId)

/-- Every new note of the user gets an id that is not taken. -/
abbrev NoConflicts (userId : Uuid) : NoteTable → List NoteRequest → Prop :=
  Trace.Each (after NoteTable.handle) (NoteRequest.Fresh userId)

section Ownership

variable {table table' : NoteTable} {userId owner : Uuid}

/-! ## The rows of one user -/

theorem NoteTable.find_isRow (table : NoteTable) (userId : Uuid) (value : Nat) :
    (table.rows.find? fun note => note.isRow userId value)
      = (table.rowsOf userId).find? fun note => note.id.value = value := by
  unfold rowsOf
  rw [List.find?_filter]
  refine congrArg (fun p => table.rows.find? p) (funext fun note => ?_)
  unfold Note.isRow
  rw [Bool.and_comm]
  simp

theorem NoteTable.any_isRow (table : NoteTable) (userId : Uuid) (value : Nat) :
    (table.rows.any fun note => note.isRow userId value)
      = (table.rowsOf userId).any fun note => note.id.value = value := by
  rw [← List.isSome_find?, ← List.isSome_find?, table.find_isRow]

theorem Note.isRow_other {note : Note} {value : Nat} (hnote : note.userId = userId)
    (hother : owner ≠ userId) : note.isRow owner value = false := by
  unfold Note.isRow
  rw [hnote]
  simp [hother.symm]

/-- The rows of a user after a statement of another user. -/
theorem NoteTable.rowsOf_update_other (hother : owner ≠ userId) (value : Nat)
    (title body : String) (now : Timestamp) :
    (table.update owner value title body now).rowsOf userId = table.rowsOf userId := by
  rw [rowsOf_update]
  refine (List.map_congr_left fun note hnote => ?_).trans (List.map_id _)
  have hmine : note.userId = userId := by simpa using (List.mem_filter.mp hnote).2
  unfold Note.rewrite
  rw [note.isRow_other hmine hother]
  rfl

theorem NoteTable.rowsOf_delete_other (hother : owner ≠ userId) (value : Nat) :
    (table.delete owner value).rowsOf userId = table.rowsOf userId := by
  rw [rowsOf_delete, List.filter_eq_self]
  intro note hnote
  have hmine : note.userId = userId := by simpa using (List.mem_filter.mp hnote).2
  rw [note.isRow_other hmine hother]
  rfl

theorem rowsOf_createNote_other (hother : owner ≠ userId) (title body : String) (id : Uuid)
    (now : Timestamp) :
    (createNote table owner title body id now).2.rowsOf userId = table.rowsOf userId := by
  unfold createNote
  split
  · rfl
  · split
    · rfl
    · split
      · exact List.filter_cons_of_neg (by simpa using hother)
      · rfl

theorem rowsOf_updateNote_other (hother : owner ≠ userId) (id title body : String)
    (now : Timestamp) :
    (updateNote table owner id title body now).2.rowsOf userId = table.rowsOf userId := by
  unfold updateNote
  split
  · rfl
  · split
    · rfl
    · rfl
    · split
      · rfl
      · dsimp only
        split
        · rfl
        · exact NoteTable.rowsOf_update_other hother _ title body now

theorem rowsOf_deleteNote_other (hother : owner ≠ userId) (id : String) :
    (deleteNote table owner id).2.rowsOf userId = table.rowsOf userId := by
  unfold deleteNote
  split
  · rfl
  · split
    · rfl
    · split
      · exact NoteTable.rowsOf_delete_other hother _
      · rfl

theorem NoteTable.rowsOf_handle_other {req : NoteRequest} (hother : req.userId ≠ userId) :
    (table.handle req).2.rowsOf userId = table.rowsOf userId := by
  cases req with
  | list owner cursor perPage => rfl
  | get owner id => rfl
  | write call =>
      cases call with
      | create owner title body id now => exact rowsOf_createNote_other hother title body id now
      | update owner id title body now => exact rowsOf_updateNote_other hother id title body now
      | delete owner id => exact rowsOf_deleteNote_other hother id

/-! ## The calls of the user -/

section Own

variable (halike : table.rowsOf userId = table'.rowsOf userId)
include halike

theorem listNotes_alike (cursor : Option String) (perPage : Int) :
    listNotes table userId cursor perPage = listNotes table' userId cursor perPage := by
  unfold listNotes NoteTable.select
  rw [halike]

theorem getNote_alike (id : String) : getNote table userId id = getNote table' userId id := by
  unfold getNote
  simp only [NoteTable.find_isRow, halike]

theorem createNote_alike (title body : String) {id : Uuid} (now : Timestamp)
    (hfresh : id.value ∉ table.rows.map fun note => note.id.value)
    (hfresh' : id.value ∉ table'.rows.map fun note => note.id.value) :
    (createNote table userId title body id now).1 = (createNote table' userId title body id now).1 ∧
      (createNote table userId title body id now).2.rowsOf userId
        = (createNote table' userId title body id now).2.rowsOf userId := by
  unfold createNote
  cases checkNote title body with
  | error e => exact ⟨rfl, halike⟩
  | ok _ =>
      simp only [dif_neg hfresh, dif_neg hfresh']
      split
      · refine ⟨rfl, ?_⟩
        have hcons : ∀ note : Note, note.userId = userId → ∀ rows : List Note,
            (note :: rows).filter (fun note => note.userId = userId)
              = note :: rows.filter fun note => note.userId = userId :=
          fun note hnote rows => List.filter_cons_of_pos (by simpa using hnote)
        exact (hcons _ rfl _).trans ((congrArg _ halike).trans (hcons _ rfl _).symm)
      · exact ⟨rfl, halike⟩

theorem updateNote_alike (id title body : String) (now : Timestamp) :
    (updateNote table userId id title body now).1 = (updateNote table' userId id title body now).1 ∧
      (updateNote table userId id title body now).2.rowsOf userId
        = (updateNote table' userId id title body now).2.rowsOf userId := by
  unfold updateNote
  split
  · exact ⟨rfl, halike⟩
  · split
    · exact ⟨rfl, halike⟩
    · exact ⟨rfl, halike⟩
    · rename_i value _ _
      have hupdated : (table.update userId value title body now).rowsOf userId
          = (table'.update userId value title body now).rowsOf userId := by
        rw [NoteTable.rowsOf_update, NoteTable.rowsOf_update, halike]
      split
      · exact ⟨rfl, halike⟩
      · simp only [NoteTable.find_isRow, hupdated]
        split
        · exact ⟨rfl, halike⟩
        · exact ⟨rfl, hupdated⟩

theorem deleteNote_alike (id : String) :
    (deleteNote table userId id).1 = (deleteNote table' userId id).1 ∧
      (deleteNote table userId id).2.rowsOf userId
        = (deleteNote table' userId id).2.rowsOf userId := by
  unfold deleteNote
  split
  · exact ⟨rfl, halike⟩
  · split
    · exact ⟨rfl, halike⟩
    · simp only [NoteTable.any_isRow, halike]
      split
      · exact ⟨rfl, by rw [NoteTable.rowsOf_delete, NoteTable.rowsOf_delete, halike]⟩
      · exact ⟨rfl, halike⟩

end Own

end Ownership

/-- Two tables with the same rows of the user look the same to it. -/
theorem notes_unwinding (userId : Uuid) :
    Unwinding NoteTable.handle (NoteRequest.isOf userId)
      (fun table table' => table.rowsOf userId = table'.rowsOf userId)
      (NoteRequest.Fresh userId) where
  own := by
    intro table table' req hmine halike hfresh hfresh'
    obtain rfl : req.userId = userId := of_decide_eq_true hmine
    cases req with
    | list owner cursor perPage =>
        exact ⟨congrArg (NoteAnswer.of 200 .page) (listNotes_alike halike cursor perPage), halike⟩
    | get owner id =>
        exact ⟨congrArg (NoteAnswer.of 200 .note) (getNote_alike halike id), halike⟩
    | write call =>
        cases call with
        | create owner title body id now =>
            obtain ⟨hanswer, hrows⟩ :=
              createNote_alike halike title body now (hfresh rfl) (hfresh' rfl)
            exact ⟨congrArg (NoteAnswer.of 201 .note) hanswer, hrows⟩
        | update owner id title body now =>
            obtain ⟨hanswer, hrows⟩ := updateNote_alike halike id title body now
            exact ⟨congrArg (NoteAnswer.of 200 .note) hanswer, hrows⟩
        | delete owner id =>
            obtain ⟨hanswer, hrows⟩ := deleteNote_alike halike id
            exact ⟨congrArg (NoteAnswer.of 204 fun _ => .empty) hanswer, hrows⟩
  other := by
    intro table table' req hmine halike
    exact (NoteTable.rowsOf_handle_other (of_decide_eq_false hmine)).trans halike

/-- Whatever others do with notes, a user is answered as if it were alone. -/
theorem notes_noninterference (userId : Uuid) (table : NoteTable) (calls : List NoteRequest)
    (hfresh : NoConflicts userId table calls)
    (halone : NoConflicts userId table (calls.filter (NoteRequest.isOf userId))) :
    answersTo userId table calls
      = answersTo userId table (calls.filter (NoteRequest.isOf userId)) :=
  (notes_unwinding userId).observed_filter rfl hfresh halone

namespace Sample

/-- The only note, and it is not Alice's. -/
def noteOfBob : Note := ⟨bob, bob, "plan", "secret", ⟨0, by decide, by decide⟩, ⟨0, by decide, by decide⟩⟩

def oneNote : NoteTable := ⟨[noteOfBob], by decide⟩

def noon : Timestamp := ⟨43200000000, by decide, by decide⟩

/-- Each of the two reaches for the note of the other. -/
def crossing : List NoteRequest :=
  [.write (.create alice "list" "milk" alice noon), .write (.update bob alice.text "mine" "now" noon),
    .get alice bob.text, .write (.delete alice bob.text), .write (.delete bob alice.text),
    .get alice alice.text]

end Sample

open Sample

/-- Alice finds her own note as she wrote it. -/
theorem notes_noninterference_crossing :
    answersTo alice oneNote crossing
      = answersTo alice oneNote (crossing.filter (NoteRequest.isOf alice)) :=
  notes_noninterference alice oneNote crossing
    (by decide) (by decide)

end FullStackHex
