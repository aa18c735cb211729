import FullStackHex.Library.Percent
import FullStackHex.Library.Splitting

/-!
XML documents as sequences of tags and texts, and what a program finds in one that knows nothing
of XML and splits the text at a tag.
-/

namespace Xml

open Codec Percent Splitting

/-- A tag with what stands between its brackets, or text as it is written in the document. -/
inductive Token where
  | tag (name : Bytes)
  | text (bytes : Bytes)
  deriving DecidableEq

def Token.render : Token → Bytes
  | .tag name => byte '<' :: (name ++ [byte '>'])
  | .text bytes => bytes

/-- Brackets stand around tags only. -/
def Token.Plain : Token → Prop
  | .tag name => byte '<' ∉ name ∧ byte '>' ∉ name
  | .text bytes => byte '<' ∉ bytes

def render (tokens : List Token) : Bytes := tokens.flatMap Token.render

@[simp] theorem render_nil : render [] = [] := rfl

@[simp] theorem render_cons (t : Token) (rest : List Token) :
    render (t :: rest) = t.render ++ render rest := List.flatMap_cons

variable {name other before rest : Bytes} {tokens : List Token}

/-- One tag is not the beginning of another. -/
theorem tag_begins (hname : byte '>' ∉ name) (hother : byte '>' ∉ other)
    (h : (Token.tag name).render <+: (Token.tag other).render ++ rest) : name = other := by
  obtain ⟨after, hafter⟩ := h
  unfold Token.render at hafter
  simp only [List.cons_append, List.append_assoc, List.nil_append] at hafter
  exact (append_separator_inj hname hother (List.cons.inj hafter).2).1

/-- A tag that is not looked for is passed over. -/
theorem splitFrom_tag (hname : byte '>' ∉ name) (hother : (Token.tag other).Plain)
    (hne : other ≠ name) :
    splitFrom (Token.tag name).render 0 before ((Token.tag other).render ++ rest)
      = splitFrom (Token.tag name).render 0 (before ++ (Token.tag other).render) rest := by
  have hbegins : (Token.tag name).render.isPrefixOf ((Token.tag other).render ++ rest) = false := by
    rw [← Bool.not_eq_true, List.isPrefixOf_iff_prefix]
    exact fun h => hne (tag_begins hname hother.2 h).symm
  have hrest : byte '<' ∉ other ++ [byte '>'] := by
    rw [List.mem_append, List.mem_singleton, not_or]
    exact ⟨hother.1, by decide⟩
  have hopen : (Token.tag other).render ++ rest
      = byte '<' :: (other ++ [byte '>'] ++ rest) := rfl
  rw [hopen] at hbegins ⊢
  rw [splitFrom, if_neg (by rw [hbegins]; decide)]
  have hread := @splitFrom_piece _ _ (byte '<') (name ++ [byte '>']) _
    (before ++ [byte '<']) rest hrest
  change splitFrom (Token.tag name).render 0 (before ++ [byte '<']) _ = _ at hread
  rw [hread, List.append_assoc, List.singleton_append]
  rfl

/-- A document is split at a tag as the sequence of its tokens is. -/
theorem split_render (hname : byte '>' ∉ name) (h : ∀ t ∈ tokens, t.Plain) :
    split (Token.tag name).render (render tokens)
      = (tokens.splitOnP fun t => t = .tag name).map render := by
  suffices hfrom : ∀ before, splitFrom (Token.tag name).render 0 before (render tokens)
      = ((tokens.splitOnP fun t => t = .tag name).map render).modifyHead (before ++ ·) by
    rw [split, hfrom []]
    cases (tokens.splitOnP fun t => t = .tag name).map render with
    | nil => rfl
    | cons first more => rfl
  induction tokens with
  | nil =>
      intro before
      simp [splitFrom]
  | cons t tokens ih =>
      intro before
      have hplain := h t List.mem_cons_self
      have hrest := ih fun t ht => h t (List.mem_cons_of_mem _ ht)
      rw [render_cons, List.splitOnP_cons_eq_if_modifyHead]
      split_ifs with ht
      · obtain rfl := of_decide_eq_true ht
        have hfound := @splitFrom_separator _ _ (byte '<') (name ++ [byte '>']) before (render tokens)
        change splitFrom (Token.tag name).render 0 before ((Token.tag name).render ++ _) = _ at hfound
        rw [hfound, List.map_cons, List.modifyHead_cons, render_nil, List.append_nil]
        change before :: splitFrom (Token.tag name).render 0 [] _ = _
        rw [hrest []]
        cases (tokens.splitOnP fun t => t = .tag name).map render with
        | nil => rfl
        | cons first more => rfl
      · have hpassed : splitFrom (Token.tag name).render 0 before (t.render ++ render tokens)
            = splitFrom (Token.tag name).render 0 (before ++ t.render) (render tokens) := by
          cases t with
          | tag other => exact splitFrom_tag hname hplain fun heq => ht (by rw [heq]; simp)
          | text bytes => exact splitFrom_piece hplain
        rw [hpassed, hrest]
        cases tokens.splitOnP fun t => t = .tag name with
        | nil => rfl
        | cons first more => simp

/-! ## What stands behind a tag -/

/-- What stands behind each occurrence of a tag, up to the next one. -/
def behind (name : Bytes) (tokens : List Token) : List (List Token) :=
  (tokens.splitOnP fun t => t = .tag name).drop 1

/-- What stands before the first occurrence. -/
def upTo (name : Bytes) (tokens : List Token) : List Token :=
  tokens.takeWhile fun t => t ≠ .tag name

theorem splitOnP_tag (name : Bytes) (tokens : List Token) :
    tokens.splitOnP (fun t => t = .tag name) = upTo name tokens :: behind name tokens := by
  unfold upTo behind
  induction tokens with
  | nil => rfl
  | cons t rest ih =>
      rw [List.splitOnP_cons_eq_if_modifyHead]
      split_ifs with ht
      · rw [List.takeWhile_cons_of_neg (by simpa using ht)]
        rfl
      · rw [ih, List.takeWhile_cons_of_pos (by simpa using ht)]
        rfl

theorem behind_tag (name : Bytes) (rest : List Token) :
    behind name (.tag name :: rest) = upTo name rest :: behind name rest := by
  rw [← splitOnP_tag, behind, List.splitOnP_cons_eq_if_modifyHead, if_pos (by simp)]
  rfl

theorem behind_of_ne {t : Token} (h : t ≠ .tag name) (rest : List Token) :
    behind name (t :: rest) = behind name rest := by
  unfold behind
  rw [List.splitOnP_cons_eq_if_modifyHead, if_neg (by simpa using h)]
  cases rest.splitOnP fun t => t = .tag name with
  | nil => rfl
  | cons first more => rfl

theorem behind_append {skipped : List Token} (h : ∀ t ∈ skipped, t ≠ .tag name)
    (rest : List Token) : behind name (skipped ++ rest) = behind name rest := by
  induction skipped with
  | nil => rfl
  | cons t skipped ih =>
      rw [List.cons_append, behind_of_ne (h t List.mem_cons_self),
        ih fun t ht => h t (List.mem_cons_of_mem _ ht)]

theorem behind_eq_nil (h : ∀ t ∈ tokens, t ≠ .tag name) : behind name tokens = [] := by
  have hskipped := behind_append h []
  rwa [List.append_nil] at hskipped

theorem mem_of_mem_behind {piece : List Token} (hpiece : piece ∈ behind name tokens) {t : Token}
    (ht : t ∈ piece) : t ∈ tokens := by
  induction tokens with
  | nil => cases hpiece
  | cons first rest ih =>
      by_cases hfirst : first = .tag name
      · subst hfirst
        rw [behind_tag, List.mem_cons] at hpiece
        rcases hpiece with rfl | hpiece
        · exact List.mem_cons_of_mem _ ((List.takeWhile_prefix _).subset ht)
        · exact List.mem_cons_of_mem _ (ih hpiece)
      · rw [behind_of_ne hfirst] at hpiece
        exact List.mem_cons_of_mem _ (ih hpiece)

/-- The two splittings of a program that reads the texts of an element. -/
theorem split_split_render {close : Bytes} (hname : byte '>' ∉ name) (hclose : byte '>' ∉ close)
    (h : ∀ t ∈ tokens, t.Plain) :
    ((split (Token.tag name).render (render tokens)).drop 1).map
        (fun cap => (split (Token.tag close).render cap).head?.getD [])
      = (behind name tokens).map fun piece => render (upTo close piece) := by
  rw [split_render hname h, ← List.map_drop, List.map_map]
  apply List.map_congr_left
  intro piece hpiece
  have hplain : ∀ t ∈ piece, t.Plain := fun t ht => h t (mem_of_mem_behind hpiece ht)
  rw [Function.comp_apply, split_render hclose hplain, splitOnP_tag]
  rfl

end Xml
