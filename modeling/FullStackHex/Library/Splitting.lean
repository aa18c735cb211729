import Mathlib

/-!
A text split at every occurrence of a separator, from left to right, as `split` of JavaScript and
of Rust does it. The separator is not empty.
-/

namespace Splitting

variable {α : Type} [DecidableEq α]

/-- So many elements belong to a separator that has been found; `piece` is what was read since the
one before. -/
def splitFrom (separator : List α) : Nat → List α → List α → List (List α)
  | _, piece, [] => [piece]
  | skip + 1, piece, _ :: rest => splitFrom separator skip piece rest
  | 0, piece, a :: rest =>
      if separator.isPrefixOf (a :: rest) then
        piece :: splitFrom separator (separator.length - 1) [] rest
      else splitFrom separator 0 (piece ++ [a]) rest

def split (separator text : List α) : List (List α) := splitFrom separator 0 [] text

variable {a : α} {separator piece before rest : List α}

theorem splitFrom_skip (h : piece.length = n) :
    splitFrom separator n before (piece ++ rest) = splitFrom separator 0 before rest := by
  induction piece generalizing n with
  | nil =>
      subst h
      rfl
  | cons b piece ih =>
      subst h
      rw [List.cons_append, List.length_cons, splitFrom]
      exact ih rfl

/-- A piece that the separator does not begin in is read to its end. -/
theorem splitFrom_piece (h : a ∉ piece) :
    splitFrom (a :: separator) 0 before (piece ++ rest)
      = splitFrom (a :: separator) 0 (before ++ piece) rest := by
  induction piece generalizing before with
  | nil => rw [List.nil_append, List.append_nil]
  | cons b piece ih =>
      rw [List.mem_cons, not_or] at h
      have hother : (a :: separator).isPrefixOf (b :: (piece ++ rest)) = false := by
        simp [List.isPrefixOf, h.1]
      rw [List.cons_append, splitFrom, if_neg (by rw [hother]; decide), ih h.2, List.append_assoc,
        List.singleton_append]

theorem splitFrom_separator :
    splitFrom (a :: separator) 0 before (a :: separator ++ rest)
      = before :: split (a :: separator) rest := by
  have hfound : (a :: separator).isPrefixOf (a :: separator ++ rest) = true :=
    List.isPrefixOf_iff_prefix.mpr (List.prefix_append _ _)
  rw [List.cons_append] at hfound ⊢
  rw [splitFrom, if_pos hfound, splitFrom_skip (by simp)]
  rfl

theorem split_piece (h : a ∉ piece) : split (a :: separator) piece = [piece] := by
  have hread := @splitFrom_piece _ _ a separator piece [] [] h
  rwa [List.append_nil, List.nil_append] at hread

/-- The first piece, and the pieces after the separator. -/
theorem split_append (h : a ∉ piece) :
    split (a :: separator) (piece ++ (a :: separator ++ rest))
      = piece :: split (a :: separator) rest := by
  unfold split
  rw [splitFrom_piece h, splitFrom_separator]
  rfl

/-- Joined pieces are split again. -/
theorem split_intercalate {pieces : List (List α)} (hne : pieces ≠ [])
    (h : ∀ piece ∈ pieces, a ∉ piece) :
    split (a :: separator) ((a :: separator).intercalate pieces) = pieces := by
  induction pieces with
  | nil => exact absurd rfl hne
  | cons piece rest ih =>
      have hpiece := h piece List.mem_cons_self
      cases rest with
      | nil =>
          rw [List.intercalate_singleton]
          exact split_piece hpiece
      | cons next rest =>
          rw [List.intercalate_cons_cons, List.append_assoc, split_append hpiece,
            ih (List.cons_ne_nil _ _) fun piece hp => h piece (List.mem_cons_of_mem _ hp)]

end Splitting
