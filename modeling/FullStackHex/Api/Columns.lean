import FullStackHex.Api.NoteOwnership
import FullStackHex.Auth.RegisterRuns

/-!
What the handlers let through to the text columns of `users` and `notes` in `db/migrations`:
their own checks count bytes or look at a few characters, the columns count characters and hold
no zero character.
-/

namespace FullStackHex

open Concurrent Codec

namespace Columns

/-- A column of `VARCHAR(limit)`, or of `TEXT`. -/
structure Column where
  table : String
  name : String
  limit : Option Nat
  deriving DecidableEq, Repr

def Column.holds (column : Column) (text : String) : Bool :=
  column.limit.all (text.length ≤ ·) && storable text

def usersEmail : Column := ⟨"users", "email", some 255⟩

def usersName : Column := ⟨"users", "name", some 255⟩

def notesTitle : Column := ⟨"notes", "title", some 255⟩

def notesBody : Column := ⟨"notes", "body", none⟩

/-- A request whose texts are written to a table. -/
inductive Write where
  | register (ip : String) (body : RegisterRequest)
  | createNote (title body : String)
  | updateNote (id title body : String)

/-- The checks of the handler itself. -/
def Write.validate : Write → Except ApiError Unit
  | .register _ body => validateRegistration body
  | .createNote title body | .updateNote _ title body => checkNote title body

/-- What is written where. -/
def Write.values : Write → List (Column × String)
  | .register _ body =>
      (usersEmail, body.email) :: body.name.toList.map fun name => (usersName, name)
  | .createNote title body | .updateNote _ title body => [(notesTitle, title), (notesBody, body)]

def NotInternal {α : Type} (r : Except ApiError α) : Prop :=
  ∀ message, r ≠ .error (.internalError message)

/-- With Redis and Postgres answering, with fresh ids, and for the id of a note that Postgres
reads, the answer is no internal error. -/
def Write.Unharmed (auth : AuthService) : Write → Prop
  | .register ip body => (FullStackHex.register auth ip body).run.ReturnsOn Unfailing NotInternal
  | .createNote title body => ∀ table userId id now,
      id.value ∉ table.rows.map (fun note => note.id.value) →
        NotInternal (FullStackHex.createNote table userId title body id now).1
  | .updateNote id title body => ∀ table userId now,
      (castUuid "failed to update note" id).isOk →
        NotInternal (FullStackHex.updateNote table userId id title body now).1

/-- The columns hold the values, and nothing fails because of them. -/
def Write.Accepted (auth : AuthService) (w : Write) : Prop :=
  (∀ entry ∈ w.values, entry.1.holds entry.2 = true) ∧ w.Unharmed auth

/-- No text has a zero character, and those of a registration have at most 255 characters. -/
def Write.fitting (w : Write) : Bool :=
  w.values.all (fun entry => storable entry.2) &&
    match w with
    | .register _ body => body.email.length ≤ 255 && body.name.all (·.length ≤ 255)
    | _ => true

/-! ## Lengths -/

/-- A character takes a byte at least. -/
theorem length_le_utf8ByteSize (s : String) : s.length ≤ s.utf8ByteSize := by
  have hbytes : s.utf8ByteSize = (utf8 s).length := by
    rw [← String.size_toByteArray, ← String.utf8Encode_toList]
    exact List.size_toByteArray
  rw [hbytes, ← String.length_toList, utf8]
  generalize s.toList = cs
  induction cs with
  | nil => exact le_rfl
  | cons c cs ih =>
      have hpos : 0 < (String.utf8EncodeChar c).length :=
        List.length_pos_of_ne_nil String.utf8EncodeChar_ne_nil
      rw [List.flatMap_cons, List.length_append, List.length_cons]
      omega

/-- The checks one after the other. -/
theorem checkNote_eq (title body : String) :
    checkNote title body =
      if title.toList.all isWhiteSpace then .error (.validationError "title is required")
      else if 255 < title.utf8ByteSize then
        .error (.validationError "title must be 255 characters or fewer")
      else if 100000 < body.utf8ByteSize then
        .error (.validationError "body must be 100KB or fewer")
      else .ok () := by
  unfold checkNote
  split_ifs <;> rfl

theorem checkNote_ok {title body : String} (h : checkNote title body = .ok ()) :
    title.length ≤ 255 := by
  rw [checkNote_eq] at h
  split_ifs at h with hblank hlong hbody
  exact (length_le_utf8ByteSize title).trans (not_lt.mp hlong)

theorem notInternal_checkNote (title body : String) : NotInternal (checkNote title body) := by
  intro message h
  rw [checkNote_eq] at h
  split_ifs at h <;> cases h

section Writes

variable {auth : AuthService} {w : Write} {id title body : String}

theorem unharmed_register (hworks : auth.Works) (ip : String) {body : RegisterRequest}
    (hvalid : validateRegistration body = .ok ()) (hfits : body.Fits) :
    (Write.register ip body).Unharmed auth := by
  refine (returnsOn_register hworks ip hvalid hfits).mono ?_
  rintro r (⟨response, rfl, -⟩ | rfl | ⟨message, rfl⟩) text h
  · cases h
  · cases h
  · cases h

theorem unharmed_createNote {title body : String} (hvalid : checkNote title body = .ok ())
    (htitle : storable title = true) (hbody : storable body = true) :
    (Write.createNote title body).Unharmed auth := by
  intro table userId id now hfresh message
  unfold createNote
  rw [hvalid]
  simp only [hfresh, dif_neg, not_false_eq_true, htitle, hbody, Bool.and_self, if_true]
  exact fun h => (by cases h)

theorem unharmed_updateNote {id title body : String} (hvalid : checkNote title body = .ok ())
    (htitle : storable title = true) (hbody : storable body = true) :
    (Write.updateNote id title body).Unharmed auth := by
  intro table userId now hcast message
  obtain ⟨value, hvalue⟩ := isOk_iff.mp hcast
  unfold updateNote
  split
  · exact fun h => nomatch h
  · rw [hvalid, hvalue]
    simp only [htitle, hbody, Bool.and_self, Bool.not_true, if_false, Bool.false_eq_true]
    split
    · exact fun h => nomatch h
    · exact fun h => nomatch h

theorem fitsColumn_iff {text : String} :
    fitsColumn 255 text = true ↔ text.length ≤ 255 ∧ storable text = true := by
  rw [fitsColumn, Bool.and_eq_true, decide_eq_true_eq, storable]

theorem fits_of_fitting {ip : String} {body : RegisterRequest}
    (h : (Write.register ip body).fitting = true) : body.Fits := by
  simp only [Write.fitting, Write.values, List.all_cons, List.all_map, Bool.and_eq_true,
    decide_eq_true_eq] at h
  obtain ⟨⟨hemail, hname⟩, hemailLength, hnameLength⟩ := h
  refine ⟨fitsColumn_iff.mpr ⟨hemailLength, hemail⟩, ?_⟩
  cases hbody : body.name with
  | none => rfl
  | some name =>
      rw [hbody] at hname hnameLength
      have hstorable : storable name = true := by simpa using hname
      exact fitsColumn_iff.mpr ⟨of_decide_eq_true hnameLength, hstorable⟩

theorem holds_note_iff {title body : String} (hvalid : checkNote title body = .ok ()) :
    (notesTitle.holds title = true ∧ notesBody.holds body = true) ↔
      storable title = true ∧ storable body = true := by
  have hlength := checkNote_ok hvalid
  simp [Column.holds, notesTitle, notesBody, hlength]

/-- Creation and update have the same values. -/
theorem fitting_note (hnote : w = .createNote title body ∨ w = .updateNote id title body) :
    w.fitting = true ↔ storable title = true ∧ storable body = true := by
  rcases hnote with rfl | rfl
  · simp [Write.fitting, Write.values]
  · simp [Write.fitting, Write.values]

/-- A validated request is accepted exactly if it is fitting. -/
theorem write_accepted_iff (hworks : auth.Works) (hvalid : w.validate = .ok ()) :
    w.Accepted auth ↔ w.fitting = true := by
  cases w with
  | register ip body =>
      constructor
      · rintro ⟨hholds, -⟩
        have hemail := hholds _ List.mem_cons_self
        simp only [Column.holds, usersEmail, Option.all_some, Bool.and_eq_true] at hemail
        simp only [Write.fitting, Write.values, List.all_cons, hemail.1, hemail.2, Bool.true_and]
        cases hname : body.name with
        | none => rfl
        | some name =>
            have hheld := hholds (usersName, name) (by simp [Write.values, hname])
            simp only [Column.holds, usersName, Option.all_some, Bool.and_eq_true] at hheld
            simp [hheld.1, hheld.2]
      · intro hfitting
        have hfits := fits_of_fitting hfitting
        refine ⟨fun entry hentry => ?_, unharmed_register hworks ip hvalid hfits⟩
        rcases List.mem_cons.mp hentry with rfl | hentry
        · exact hfits.1
        · obtain ⟨name, hname, rfl⟩ := List.mem_map.mp hentry
          have hbody : body.name = some name := Option.mem_toList.mp hname
          have hheld := hfits.2
          rw [hbody] at hheld
          exact hheld
  | createNote title body =>
      rw [@fitting_note _ "" _ _ (.inl rfl), ← holds_note_iff hvalid]
      constructor
      · intro h
        exact ⟨h.1 _ List.mem_cons_self, h.1 _ (List.mem_cons_of_mem _ List.mem_cons_self)⟩
      · intro hholds
        obtain ⟨htitle, hbody⟩ := (holds_note_iff hvalid).mp hholds
        exact ⟨by simpa [Write.values] using hholds, unharmed_createNote hvalid htitle hbody⟩
  | updateNote id title body =>
      rw [fitting_note (.inr rfl), ← holds_note_iff hvalid]
      constructor
      · intro h
        exact ⟨h.1 _ List.mem_cons_self, h.1 _ (List.mem_cons_of_mem _ List.mem_cons_self)⟩
      · intro hholds
        obtain ⟨htitle, hbody⟩ := (holds_note_iff hvalid).mp hholds
        exact ⟨by simpa [Write.values] using hholds, unharmed_updateNote hvalid htitle hbody⟩

end Writes

open Sample

/-- A title of 255 bytes is short enough for its column. -/
theorem accepted_note :
    (Write.createNote (String.ofList (List.replicate 255 'a')) "").Accepted working :=
  (write_accepted_iff working_works (by decide +kernel)).mpr (by decide +kernel)

/-- A zero character in a title, and an email of 256 characters, pass the checks. -/
theorem unfit_pass :
    (Write.createNote "a\u0000" "").validate = .ok () ∧
      notesTitle.holds "a\u0000" = false ∧
      (createNote oneNote alice "a\u0000" "" alice noon).1
        = .error (.internalError "failed to create note") ∧
      (Write.register "10.0.0.1" ⟨String.ofList ('@' :: List.replicate 255 'a'), "correct horse",
        none⟩).validate = .ok () ∧
      usersEmail.holds (String.ofList ('@' :: List.replicate 255 'a')) = false := by
  decide +kernel

end Columns

end FullStackHex
