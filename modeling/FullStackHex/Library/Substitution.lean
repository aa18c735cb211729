import FullStackHex.Library.Splitting

/-!
All matches of a pattern replaced from left to right, as `re.sub` does it. Of the pattern only the
length of its match is needed. A pattern that begins with a separator, and goes on within the
piece after it, replaces the pieces one by one.
-/

namespace Substitution

variable {α : Type}

/-- So many elements belong to a match that has been replaced; a length of 0 is no match. -/
def subFrom (matchLength : List α → Nat) (replacement : List α) : Nat → List α → List α
  | _, [] => []
  | skip + 1, _ :: rest => subFrom matchLength replacement skip rest
  | 0, a :: rest =>
      match matchLength (a :: rest) with
      | 0 => a :: subFrom matchLength replacement 0 rest
      | n + 1 => replacement ++ subFrom matchLength replacement n rest

def sub (matchLength : List α → Nat) (replacement text : List α) : List α :=
  subFrom matchLength replacement 0 text

/-- A fixed sequence of classes. -/
def sequenceMatches : List (α → Bool) → List α → Bool
  | [], _ => true
  | _ :: _, [] => false
  | p :: classes, a :: rest => p a && sequenceMatches classes rest

/-- The pieces, each with the separator before it. -/
def joined (a : α) (pieces : List (List α)) : List α := pieces.flatMap (a :: ·)

/-- The pattern matches nowhere but at a separator, and looks no further than to the next one. -/
structure Within (a : α) (matchLength : List α → Nat) : Prop where
  only : ∀ b rest, b ≠ a → matchLength (b :: rest) = 0
  within : ∀ piece, a ∉ piece → matchLength (a :: piece) ≤ piece.length + 1
  before : ∀ piece rest, a ∉ piece → matchLength (a :: (piece ++ a :: rest)) = matchLength (a :: piece)

/-- What becomes of a piece when the pattern is replaced by the separator and a token. -/
def replaced (a : α) (matchLength : List α → Nat) (token piece : List α) : List α :=
  match matchLength (a :: piece) with
  | 0 => piece
  | n + 1 => token ++ piece.drop n

variable {a : α} {matchLength : List α → Nat} {replacement token piece rest : List α} {n : Nat}

theorem subFrom_skip (h : n ≤ piece.length) :
    subFrom matchLength replacement n (piece ++ rest)
      = subFrom matchLength replacement 0 (piece.drop n ++ rest) := by
  induction piece generalizing n with
  | nil =>
      obtain rfl : n = 0 := Nat.le_zero.mp h
      rfl
  | cons b piece ih =>
      cases n with
      | zero => rfl
      | succ n =>
          rw [List.cons_append, subFrom, ih (Nat.le_of_succ_le_succ h), List.drop_succ_cons]

theorem subFrom_piece (hwithin : Within a matchLength) (h : a ∉ piece) :
    subFrom matchLength replacement 0 (piece ++ rest)
      = piece ++ subFrom matchLength replacement 0 rest := by
  induction piece with
  | nil => rfl
  | cons b piece ih =>
      rw [List.mem_cons, not_or] at h
      have hnone := hwithin.only b (piece ++ rest) (Ne.symm h.1)
      rw [List.cons_append, subFrom, hnone]
      dsimp only
      rw [ih h.2, List.cons_append]

/-- One piece, before the next separator or the end. -/
theorem subFrom_separator (hwithin : Within a matchLength) (h : a ∉ piece)
    (hsame : matchLength (a :: (piece ++ rest)) = matchLength (a :: piece)) :
    subFrom matchLength (a :: token) 0 (a :: (piece ++ rest))
      = a :: replaced a matchLength token piece ++ subFrom matchLength (a :: token) 0 rest := by
  have hlength := hwithin.within piece h
  unfold replaced
  rw [subFrom, hsame]
  cases hmatch : matchLength (a :: piece) with
  | zero =>
      dsimp only
      rw [subFrom_piece hwithin h, List.cons_append]
  | succ n =>
      dsimp only
      rw [hmatch] at hlength
      have hdrop : a ∉ piece.drop n := fun hmem => h (List.mem_of_mem_drop hmem)
      rw [subFrom_skip (Nat.le_of_succ_le_succ hlength), subFrom_piece hwithin hdrop,
        List.cons_append, List.cons_append, List.append_assoc]

/-- Every piece is replaced for itself. -/
theorem sub_joined (hwithin : Within a matchLength) {pieces : List (List α)}
    (h : ∀ piece ∈ pieces, a ∉ piece) :
    sub matchLength (a :: token) (joined a pieces)
      = joined a (pieces.map (replaced a matchLength token)) := by
  unfold sub
  induction pieces with
  | nil => rfl
  | cons piece rest ih =>
      have hpiece := h piece List.mem_cons_self
      have hrest := ih fun p hp => h p (List.mem_cons_of_mem _ hp)
      have hsame : matchLength (a :: (piece ++ joined a rest)) = matchLength (a :: piece) := by
        cases rest with
        | nil =>
            change matchLength (a :: (piece ++ [])) = _
            rw [List.append_nil]
        | cons next rest => exact hwithin.before piece _ hpiece
      change subFrom matchLength (a :: token) 0 (a :: (piece ++ joined a rest)) = _
      rw [subFrom_separator hwithin hpiece hsame, hrest]
      rfl

theorem not_mem_replaced (h : a ∉ piece) (htoken : a ∉ token) :
    a ∉ replaced a matchLength token piece := by
  unfold replaced
  split
  · exact h
  · rw [List.mem_append, not_or]
    exact ⟨htoken, fun hmem => h (List.mem_of_mem_drop hmem)⟩

/-! ## The pieces again -/

theorem joined_eq_intercalate (a : α) (pieces : List (List α)) :
    joined a pieces = [a].intercalate ([] :: pieces) := by
  induction pieces with
  | nil => rfl
  | cons piece rest ih =>
      cases rest with
      | nil =>
          rw [List.intercalate_cons_cons, List.intercalate_singleton]
          exact congrArg (a :: ·) (List.append_nil piece)
      | cons next rest =>
          rw [List.intercalate_cons_cons] at ih ⊢
          rw [List.intercalate_cons_cons]
          change a :: (piece ++ joined a (next :: rest)) = _
          rw [ih]
          simp

theorem split_joined [DecidableEq α] {pieces : List (List α)} (h : ∀ piece ∈ pieces, a ∉ piece) :
    Splitting.split [a] (joined a pieces) = [] :: pieces := by
  rw [joined_eq_intercalate]
  apply Splitting.split_intercalate (List.cons_ne_nil _ _)
  intro piece hpiece
  rcases List.mem_cons.mp hpiece with rfl | hmem
  · exact List.not_mem_nil
  · exact h piece hmem

theorem joined_inj [DecidableEq α] {pieces pieces' : List (List α)}
    (h : ∀ piece ∈ pieces, a ∉ piece) (h' : ∀ piece ∈ pieces', a ∉ piece)
    (heq : joined a pieces = joined a pieces') : pieces = pieces' := by
  have hsplit := split_joined h
  rw [heq, split_joined h'] at hsplit
  exact (List.cons.inj hsplit).2.symm

/-! ## Sequences of classes -/

theorem length_of_sequenceMatches {classes : List (α → Bool)} {text : List α}
    (h : sequenceMatches classes text = true) : classes.length ≤ text.length := by
  induction classes generalizing text with
  | nil => exact Nat.zero_le _
  | cons p classes ih =>
      cases text with
      | nil => exact absurd h Bool.false_ne_true
      | cons b text =>
          have hboth := Bool.and_eq_true_iff.mp h
          exact Nat.succ_le_succ (ih hboth.2)

/-- A separator that none of the classes has ends the match. -/
theorem sequenceMatches_append {classes : List (α → Bool)} (h : ∀ p ∈ classes, p a = false) :
    sequenceMatches classes (piece ++ a :: rest) = sequenceMatches classes piece := by
  induction classes generalizing piece with
  | nil => rfl
  | cons p classes ih =>
      cases piece with
      | nil =>
          have hno := h p List.mem_cons_self
          change (p a && _) = false
          rw [hno, Bool.false_and]
      | cons b piece =>
          exact congrArg (p b && ·) (ih fun q hq => h q (List.mem_cons_of_mem _ hq))

/-- Each class has its element of the text. -/
theorem sequenceMatches_iff {classes : List (α → Bool)} {text : List α} :
    sequenceMatches classes text = true ↔
      ∀ (i : Nat) (p : α → Bool), classes[i]? = some p → ∃ b, text[i]? = some b ∧ p b = true := by
  induction classes generalizing text with
  | nil => exact iff_of_true rfl (fun _ _ h => nomatch h)
  | cons p classes ih =>
      cases text with
      | nil =>
          refine iff_of_false Bool.false_ne_true fun h => ?_
          obtain ⟨b, hb, -⟩ := h 0 p rfl
          exact nomatch hb
      | cons b text =>
          change (p b && sequenceMatches classes text) = true ↔ _
          rw [Bool.and_eq_true, ih]
          constructor
          · rintro ⟨hfirst, hrest⟩ i q hq
            cases i with
            | zero =>
                obtain rfl := Option.some.inj hq
                exact ⟨b, rfl, hfirst⟩
            | succ i => exact hrest i q hq
          · intro h
            refine ⟨?_, fun i q hq => h (i + 1) q hq⟩
            obtain ⟨c, hc, hp⟩ := h 0 p rfl
            obtain rfl := Option.some.inj hc
            exact hp

end Substitution
