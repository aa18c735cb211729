import FullStackHex.Api.Columns

/-!
The note ids and cursors that the handlers of `api/src/notes.rs` bind, and what Postgres makes of
them: `Uuid::parse_str` and the type `uuid` read different texts, chrono and `timestamptz` have
different ranges.
-/

namespace FullStackHex

open Codec Columns

namespace NoteIds

/-- A request that finds notes by an id or a cursor of the client. -/
inductive Lookup where
  | get (id : String)
  | update (id title body : String)
  | delete (id : String)
  | list (cursor : Option String) (perPage : Int)

/-- A value for Postgres to read. -/
inductive Bound where
  | uuid (text : String)
  | timestamptz (micros : Int)
  deriving DecidableEq, Repr

def Bound.accepted : Bound → Bool
  | .uuid text => postgresUuid text
  | .timestamptz micros => postgresTime micros

def isUrn (text : String) : Bool := text.toList.take 9 == "urn:uuid:".toList

/-- No URN, and no time before 4713 BC. -/
def Bound.plain : Bound → Bool
  | .uuid text => !isUrn text
  | .timestamptz micros => -210866803200000000 ≤ micros

/-- What is bound for the id or the cursor, if the handler does not reject it. -/
def Lookup.binds : Lookup → List Bound
  | .get id | .delete id => if uuidParses id then [.uuid id] else []
  | .update id title body =>
      if uuidParses id ∧ checkNote title body = .ok () then [.uuid id] else []
  | .list cursor _ =>
      match cursorOf cursor with
      | none => []
      | some (micros, id) => [.timestamptz micros, .uuid id]

/-- No database error, whatever the table and the user are; an update has texts that its columns
hold. -/
def Lookup.Unharmed : Lookup → Prop
  | .get id => ∀ table userId, NotInternal (getNote table userId id)
  | .update id title body => storable title = true → storable body = true → ∀ table userId now,
      NotInternal (updateNote table userId id title body now).1
  | .delete id => ∀ table userId, NotInternal (deleteNote table userId id).1
  | .list cursor perPage => ∀ table userId, NotInternal (listNotes table userId cursor perPage)

/-- Postgres reads what is bound, and so nothing fails. -/
def Lookup.Handled (l : Lookup) : Prop := (∀ v ∈ l.binds, v.accepted = true) ∧ l.Unharmed

/-! ## The two grammars -/

theorem not_isHexDigit_u : isHexDigit 'u' = false := by decide

theorem uuidGroups_simple {cs : List Char} (hlength : cs.length = 32)
    (hhex : ∀ c ∈ cs, isHexDigit c = true) : uuidGroups 8 cs = some [] := by
  have hread := @uuidGroups_append 8 0 cs [] (by decide) hlength hhex
  rwa [List.append_nil, if_neg fun h => h.1 rfl, uuidGroups] at hread

theorem not_isUrn {text : String} {c : Char} {cs : List Char} (htext : text.toList = c :: cs)
    (hc : c ≠ 'u') : isUrn text = false := by
  have hname : "urn:uuid:".toList = 'u' :: "rn:uuid:".toList := by decide
  rw [isUrn, htext, hname, beq_eq_false_iff_ne]
  intro h
  rw [List.take_succ_cons] at h
  exact hc (List.cons.inj h).1

theorem ne_u_of_isHexDigit {c : Char} (h : isHexDigit c = true) : c ≠ 'u' ∧ c ≠ '\x7b' := by
  constructor
  · rintro rfl
    exact absurd h (by decide)
  · rintro rfl
    exact absurd h (by decide)

theorem simple_accepted {text : String} (hlength : text.toList.length = 32)
    (hhex : ∀ c ∈ text.toList, isHexDigit c = true) :
    postgresUuid text = true ∧ isUrn text = false := by
  obtain ⟨c, cs, hcs⟩ := List.exists_cons_of_length_pos (show 0 < text.toList.length by omega)
  obtain ⟨hu, hbrace⟩ := ne_u_of_isHexDigit (hhex c (hcs ▸ List.mem_cons_self))
  refine ⟨?_, not_isUrn hcs hu⟩
  unfold postgresUuid
  split
  · rename_i more hmore
    rw [hcs] at hmore
    exact absurd (List.cons.inj hmore).1 hbrace
  · rw [uuidGroups_simple hlength hhex, beq_self_eq_true]

theorem hyphenated_accepted {text : String} (h : isUuid text = true) :
    postgresUuid text = true ∧ isUrn text = false := by
  obtain ⟨hlength, hchars⟩ := isUuid_getElem h
  obtain ⟨c, cs, hcs⟩ := List.exists_cons_of_length_pos (show 0 < text.toList.length by omega)
  have hhex : isHexDigit c = true := by
    have hchar := hchars 0 c (by rw [hcs]; rfl)
    rwa [if_neg (by decide)] at hchar
  exact ⟨postgresUuid_of_isUuid h, not_isUrn hcs (ne_u_of_isHexDigit hhex).1⟩

theorem braced_accepted {text : String} (hhead : text.toList.head? = some '\x7b')
    (hlast : text.toList.getLast? = some '\x7d')
    (hinner : isUuid (String.ofList text.toList.tail.dropLast) = true) :
    postgresUuid text = true ∧ isUrn text = false := by
  obtain ⟨cs, hcs⟩ : ∃ cs, text.toList = '\x7b' :: cs := by
    cases htext : text.toList with
    | nil =>
        rw [htext] at hhead
        cases hhead
    | cons c cs =>
        rw [htext, List.head?_cons] at hhead
        exact ⟨cs, by rw [Option.some.inj hhead]⟩
  rw [hcs, List.tail_cons] at hinner
  have hne : cs ≠ [] := by
    rintro rfl
    exact absurd (isUuid_getElem hinner).1 (by decide)
  have hend : cs = cs.dropLast ++ ['\x7d'] := by
    rw [hcs, List.getLast?_cons_of_ne_nil hne, List.getLast?_eq_some_getLast hne] at hlast
    rw [← Option.some.inj hlast]
    exact (List.dropLast_concat_getLast hne).symm
  refine ⟨?_, not_isUrn hcs (by decide)⟩
  have hread := uuidGroups_hyphenated hinner ['\x7d']
  rw [String.toList_ofList, ← hend] at hread
  unfold postgresUuid
  rw [hcs]
  simp only [hread, beq_self_eq_true]

theorem urn_refused {text : String} (h : isUrn text = true) : postgresUuid text = false := by
  obtain ⟨cs, hcs⟩ : ∃ cs, text.toList = 'u' :: cs := by
    have hname : "urn:uuid:".toList = 'u' :: "rn:uuid:".toList := by decide
    rw [isUrn, beq_iff_eq, hname] at h
    cases htext : text.toList with
    | nil =>
        rw [htext] at h
        cases h
    | cons c cs =>
        rw [htext, List.take_succ_cons] at h
        exact ⟨cs, by rw [(List.cons.inj h).1]⟩
  have hnone : uuidGroups 8 ('u' :: cs) = none := by
    match cs with
    | [] => rfl
    | [_] => rfl
    | [_, _] => rfl
    | b :: c :: d :: rest => simp [uuidGroups, not_isHexDigit_u]
  unfold postgresUuid
  rw [hcs]
  simp [hnone]

/-- Of what `Uuid::parse_str` accepts, Postgres refuses the URNs. -/
theorem postgresUuid_iff {text : String} (h : uuidParses text = true) :
    postgresUuid text = true ↔ isUrn text = false := by
  simp only [uuidParses, Bool.or_eq_true, Bool.and_eq_true, beq_iff_eq] at h
  rcases h with ((⟨hlength, hhex⟩ | hyphenated) | ⟨⟨hhead, hlast⟩, hinner⟩) | ⟨hurn, -⟩
  · obtain ⟨haccepted, hplain⟩ := simple_accepted hlength (List.all_eq_true.mp hhex)
    exact iff_of_true haccepted hplain
  · obtain ⟨haccepted, hplain⟩ := hyphenated_accepted hyphenated
    exact iff_of_true haccepted hplain
  · obtain ⟨haccepted, hplain⟩ := braced_accepted hhead hlast hinner
    exact iff_of_true haccepted hplain
  · have hname : isUrn text = true := by rw [isUrn, hurn, beq_self_eq_true]
    exact iff_of_false (by rw [urn_refused hname]; decide) (by rw [hname]; decide)

/-- Of the times that chrono has, Postgres refuses the early ones. -/
theorem postgresTime_iff {micros : Int} (h : chronoTime micros = true) :
    postgresTime micros = true ↔ -210866803200000000 ≤ micros := by
  simp only [chronoTime, postgresTime, Bool.and_eq_true, decide_eq_true_eq] at *
  omega

/-! ## The handlers -/

theorem cursorOf_some {cursor : Option String} {micros : Int} {id : String}
    (h : cursorOf cursor = some (micros, id)) :
    chronoTime micros = true ∧ uuidParses id = true := by
  obtain ⟨⟨micros', id'⟩, -, hchecked⟩ := Option.bind_eq_some_iff.mp h
  dsimp only at hchecked
  split at hchecked
  · rename_i hboth
    rw [Bool.and_eq_true] at hboth
    obtain ⟨rfl, rfl⟩ := Prod.mk.inj (Option.some.inj hchecked)
    exact hboth
  · cases hchecked

/-- What is bound is accepted exactly if it is plain. -/
theorem accepted_iff_plain {l : Lookup} {v : Bound} (h : v ∈ l.binds) :
    v.accepted = true ↔ v.plain = true := by
  have huuid : ∀ text, uuidParses text = true →
      ((Bound.uuid text).accepted = true ↔ (Bound.uuid text).plain = true) := by
    intro text hparses
    rw [Bound.accepted, Bound.plain, Bool.not_eq_true']
    exact postgresUuid_iff hparses
  cases l with
  | get id =>
      obtain ⟨hparses, hv⟩ : uuidParses id = true ∧ v = .uuid id := by
        simpa [Lookup.binds] using h
      exact hv ▸ huuid id hparses
  | delete id =>
      obtain ⟨hparses, hv⟩ : uuidParses id = true ∧ v = .uuid id := by
        simpa [Lookup.binds] using h
      exact hv ▸ huuid id hparses
  | update id title body =>
      obtain ⟨⟨hparses, -⟩, hv⟩ :
          (uuidParses id = true ∧ checkNote title body = .ok ()) ∧ v = .uuid id := by
        simpa [Lookup.binds] using h
      exact hv ▸ huuid id hparses
  | list cursor perPage =>
      simp only [Lookup.binds] at h
      cases hcursor : cursorOf cursor with
      | none =>
          rw [hcursor] at h
          cases h
      | some bound =>
          obtain ⟨micros, id⟩ := bound
          obtain ⟨htime, hparses⟩ := cursorOf_some hcursor
          rw [hcursor] at h
          simp only [List.mem_cons, List.not_mem_nil, or_false] at h
          rcases h with rfl | rfl
          · rw [Bound.accepted, Bound.plain, decide_eq_true_eq]
            exact postgresTime_iff htime
          · exact huuid id hparses

theorem castUuid_accepted {text : String} (context : String) (h : postgresUuid text = true) :
    castUuid context text = .ok (uuidValue text) := if_pos h

theorem unharmed_get {id : String} (h : uuidParses id = true → postgresUuid id = true) :
    (Lookup.get id).Unharmed := by
  intro table userId message
  unfold getNote
  by_cases hparses : uuidParses id = true
  · simp only [hparses, castUuid_accepted _ (h hparses), Bool.not_true, Bool.false_eq_true, if_false]
    split
    · exact fun h => nomatch h
    · exact fun h => nomatch h
  · simp only [hparses, Bool.not_false, if_true]
    exact fun h => nomatch h

theorem unharmed_delete {id : String} (h : uuidParses id = true → postgresUuid id = true) :
    (Lookup.delete id).Unharmed := by
  intro table userId message
  unfold deleteNote
  by_cases hparses : uuidParses id = true
  · simp only [hparses, castUuid_accepted _ (h hparses), Bool.not_true, Bool.false_eq_true, if_false]
    split
    · exact fun h => nomatch h
    · exact fun h => nomatch h
  · simp only [hparses, Bool.not_false, if_true]
    exact fun h => nomatch h

theorem unharmed_update {id title body : String}
    (h : uuidParses id = true → checkNote title body = .ok () → postgresUuid id = true) :
    (Lookup.update id title body).Unharmed := by
  intro htitle hbody table userId now message
  unfold updateNote
  by_cases hparses : uuidParses id = true
  · cases hvalid : checkNote title body with
    | error e =>
        simp only [hparses, Bool.not_true, Bool.false_eq_true, if_false]
        rintro ⟨⟩
        exact notInternal_checkNote title body message hvalid
    | ok _ =>
        simp only [hparses, castUuid_accepted _ (h hparses hvalid), htitle, hbody, Bool.and_self,
          Bool.not_true, Bool.false_eq_true, if_false]
        split
        · exact fun h => nomatch h
        · exact fun h => nomatch h
  · simp only [hparses, Bool.not_false, if_true]
    exact fun h => nomatch h

theorem boundOf_accepted {cursor : Option String} (h : ∀ micros id,
    cursorOf cursor = some (micros, id) → postgresTime micros = true ∧ postgresUuid id = true) :
    ∃ bound, boundOf cursor = .ok bound := by
  unfold boundOf
  cases hcursor : cursorOf cursor with
  | none => exact ⟨none, rfl⟩
  | some bound =>
      obtain ⟨micros, id⟩ := bound
      obtain ⟨htime, hid⟩ := h micros id hcursor
      simp only [castTimestamptz, htime, if_true, castUuid_accepted _ hid]
      exact ⟨_, rfl⟩

theorem unharmed_list {cursor : Option String} {perPage : Int} (h : ∀ micros id,
    cursorOf cursor = some (micros, id) → postgresTime micros = true ∧ postgresUuid id = true) :
    (Lookup.list cursor perPage).Unharmed := by
  intro table userId message
  obtain ⟨bound, hbound⟩ := boundOf_accepted h
  unfold listNotes
  rw [hbound]
  exact fun h => nomatch h

open Sample

def urnOfBob : String := "urn:uuid:" ++ bob.text

/-- A cursor whose time is a microsecond before the first that Postgres has. -/
def earlyCursor : String := encodeText ("-210866803200000001:" ++ bob.text)

end NoteIds

end FullStackHex
