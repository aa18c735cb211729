import Mathlib

/-!
A reader of XML documents: elements with attributes, texts with references. Comments, processing
instructions, CDATA sections and document types are not read; a document that has one has no tree
here, like one that is not well formed.
-/

namespace XmlTree

/-! ## Characters -/

/-- `Char`. -/
def xmlChar (c : Char) : Bool :=
  c == '\t' || c == '\n' || c == '\r' || (0x20 ≤ c.toNat && c ≠ '\ufffe' && c ≠ '\uffff')

/-- `S`. -/
def space (c : Char) : Bool := c == ' ' || c == '\t' || c == '\n' || c == '\r'

def nameStart (c : Char) : Bool :=
  c == ':' || c == '_' || c.isAlpha || [(0xc0, 0xd6), (0xd8, 0xf6), (0xf8, 0x2ff), (0x370, 0x37d),
    (0x37f, 0x1fff), (0x200c, 0x200d), (0x2070, 0x218f), (0x2c00, 0x2fef), (0x3001, 0xd7ff),
    (0xf900, 0xfdcf), (0xfdf0, 0xfffd), (0x10000, 0xeffff)].any fun range =>
      range.1 ≤ c.toNat && c.toNat ≤ range.2

def nameChar (c : Char) : Bool :=
  nameStart c || c == '-' || c == '.' || c.isDigit || c.toNat == 0xb7
    || (0x300 ≤ c.toNat && c.toNat ≤ 0x36f) || (0x203f ≤ c.toNat && c.toNat ≤ 0x2040)

def isName (name : List Char) : Bool := name.head?.any nameStart && name.all nameChar

/-- Line ends become line feeds before anything else is read. -/
def normalizeLines : List Char → List Char
  | '\r' :: '\n' :: rest => '\n' :: normalizeLines rest
  | '\r' :: rest => '\n' :: normalizeLines rest
  | c :: rest => c :: normalizeLines rest
  | [] => []

/-! ## Texts -/

def hexDigits (cs : List Char) : Option Nat :=
  if cs ≠ [] ∧ cs.all (fun c => c.isDigit || ('a' ≤ c && c ≤ 'f') || ('A' ≤ c && c ≤ 'F')) then
    some (cs.foldl (fun n c => 16 * n + if c.isDigit then c.toNat - 48 else c.toLower.toNat - 87) 0)
  else none

def decimalDigits (cs : List Char) : Option Nat :=
  if cs ≠ [] ∧ cs.all Char.isDigit then some (Nat.ofDigitChars 10 cs 0) else none

/-- The character with a code, if XML allows it. -/
def charOfCode (n : Nat) : Option Char :=
  if Nat.isValidChar n ∧ xmlChar (Char.ofNat n) then some (Char.ofNat n) else none

/-- What stands between `&` and `;`. -/
def reference : List Char → Option Char
  | ['a', 'm', 'p'] => some '&'
  | ['l', 't'] => some '<'
  | ['g', 't'] => some '>'
  | ['q', 'u', 'o', 't'] => some '"'
  | ['a', 'p', 'o', 's'] => some (Char.ofNat 39)
  | '#' :: 'x' :: digits => (hexDigits digits).bind charOfCode
  | '#' :: digits => (decimalDigits digits).bind charOfCode
  | _ => none

/-- A text with its references resolved, after so much of a reference that has been read. -/
def resolve : Option (List Char) → List Char → Option (List Char)
  | none, [] => some []
  | some _, [] => none
  | none, c :: rest =>
      if c = '&' then resolve (some []) rest
      else if xmlChar c then (resolve none rest).map (c :: ·)
      else none
  | some read, c :: rest =>
      if c = ';' then
        (reference read).bind fun referred => (resolve none rest).map (referred :: ·)
      else resolve (some (read ++ [c])) rest

/-- `]]>` ends a CDATA section and nothing else. -/
def closesCdata : List Char → Bool
  | ']' :: ']' :: '>' :: _ => true
  | _ :: rest => closesCdata rest
  | [] => false

def parseText (raw : List Char) : Option (List Char) :=
  if closesCdata raw then none else resolve none raw

/-! ## Tags -/

abbrev Attributes := List (List Char × List Char)

/-- Attributes, each after some space, with at most so many of them. -/
def parseAttributes : Nat → List Char → Option Attributes
  | 0, _ => none
  | fuel + 1, cs =>
      let trimmed := cs.dropWhile space
      if trimmed = [] then some []
      else if trimmed = cs then none
      else
        let name := trimmed.takeWhile nameChar
        match (trimmed.dropWhile nameChar).dropWhile space with
        | '=' :: after =>
            match after.dropWhile space with
            | delimiter :: value =>
                let raw := value.takeWhile (· ≠ delimiter)
                match value.dropWhile (· ≠ delimiter) with
                | _ :: rest =>
                    if isName name ∧ (delimiter = '"' ∨ delimiter = Char.ofNat 39) then
                      (resolve none (raw.map fun c => if space c then ' ' else c)).bind fun text =>
                        (parseAttributes fuel rest).map ((name, text) :: ·)
                    else none
                | [] => none
            | [] => none
        | _ => none

inductive Tag where
  | start (name : List Char) (attributes : Attributes)
  | close (name : List Char)
  | empty (name : List Char) (attributes : Attributes)
  deriving DecidableEq, Repr

/-- What stands between the brackets of a tag. -/
def parseTag : List Char → Option Tag
  | '/' :: cs =>
      let name := cs.takeWhile nameChar
      if isName name ∧ (cs.dropWhile nameChar).all space then some (.close name) else none
  | cs =>
      let inner := if cs.getLast? = some '/' then cs.dropLast else cs
      let name := inner.takeWhile nameChar
      let rest := inner.dropWhile nameChar
      if isName name then
        (parseAttributes (rest.length + 1) rest).bind fun attributes =>
          if (attributes.map Prod.fst).Nodup then
            some (if cs.getLast? = some '/' then .empty name attributes else .start name attributes)
          else none
      else none

/-! ## Documents -/

inductive Piece where
  | tag (content : List Char)
  | text (raw : List Char)
  deriving DecidableEq, Repr

def textPiece (raw : List Char) : List Piece := if raw = [] then [] else [.text raw]

/-- The tags and texts of a document, after so much of one that has been read. A bracket within
an attribute cuts the tag there, which then is none. -/
def pieces (inTag : Bool) (read : List Char) : List Char → Option (List Piece)
  | [] => if inTag then none else some (textPiece read)
  | c :: rest =>
      if inTag then
        if c = '<' then none
        else if c = '>' then (pieces false [] rest).map (.tag read :: ·)
        else pieces true (read ++ [c]) rest
      else if c = '<' then (pieces true [] rest).map (textPiece read ++ ·)
      else pieces false (read ++ [c]) rest

inductive Tree where
  | element (name : List Char) (attributes : Attributes) (children : List Tree)
  | text (content : List Char)

/-- An element whose end has not been read. -/
structure Started where
  name : List Char
  attributes : Attributes
  children : List Tree

def Started.add (s : Started) (t : Tree) : Started := { s with children := s.children ++ [t] }

/-- The tree of the pieces, within elements that have begun, innermost first, or after the root. -/
def build : List Started → Option Tree → List Piece → Option Tree
  | [], root, [] => root
  | _ :: _, _, [] => none
  | [], root, .text raw :: rest => if raw.all space then build [] root rest else none
  | top :: below, root, .text raw :: rest =>
      (parseText raw).bind fun content => build (top.add (.text content) :: below) root rest
  | [], some _, .tag _ :: _ => none
  | [], none, .tag content :: rest =>
      match parseTag content with
      | some (.start name attributes) => build [⟨name, attributes, []⟩] none rest
      | some (.empty name attributes) => build [] (some (.element name attributes [])) rest
      | _ => none
  | top :: below, root, .tag content :: rest =>
      match parseTag content with
      | none => none
      | some (.start name attributes) => build (⟨name, attributes, []⟩ :: top :: below) root rest
      | some (.empty name attributes) =>
          build (top.add (.element name attributes []) :: below) root rest
      | some (.close name) =>
          if name = top.name then
            let element := Tree.element top.name top.attributes top.children
            match below with
            | [] => build [] (some element) rest
            | next :: below => build (next.add element :: below) root rest
          else none

/-- The root of a document. -/
def parse (document : List Char) : Option Tree :=
  (pieces false [] (normalizeLines document)).bind fun ps => build [] none ps

/-! ## What is read -/

variable {content raw read rest : List Char} {ps : List Piece}

theorem normalizeLines_eq_self {cs : List Char} (h : '\r' ∉ cs) : normalizeLines cs = cs := by
  induction cs with
  | nil => rfl
  | cons c cs ih =>
      rw [List.mem_cons, not_or] at h
      have hstep : normalizeLines (c :: cs) = c :: normalizeLines cs := by
        rw [normalizeLines]
        · intro after hc _
          exact h.1 hc.symm
        · intro hc
          exact h.1 hc.symm
      rw [hstep, ih h.2]

theorem pieces_inTag (h : '<' ∉ content) (h' : '>' ∉ content) :
    pieces true read (content ++ '>' :: rest)
      = (pieces false [] rest).map (.tag (read ++ content) :: ·) := by
  induction content generalizing read with
  | nil => simp [pieces]
  | cons c content ih =>
      rw [List.mem_cons, not_or] at h h'
      rw [List.cons_append, pieces, if_pos rfl, if_neg (Ne.symm h.1), if_neg (Ne.symm h'.1),
        ih h.2 h'.2, List.append_assoc, List.singleton_append]

theorem pieces_tag (h : '<' ∉ content) (h' : '>' ∉ content)
    (hrest : pieces false [] rest = some ps) :
    pieces false [] ('<' :: (content ++ '>' :: rest)) = some (.tag content :: ps) := by
  rw [pieces, if_neg Bool.false_ne_true, if_pos rfl, pieces_inTag h h', hrest]
  rfl

theorem pieces_inText (h : '<' ∉ raw) :
    pieces false read (raw ++ rest) = pieces false (read ++ raw) rest := by
  induction raw generalizing read with
  | nil => rw [List.nil_append, List.append_nil]
  | cons c raw ih =>
      rw [List.mem_cons, not_or] at h
      rw [List.cons_append, pieces, if_neg Bool.false_ne_true, if_neg (Ne.symm h.1), ih h.2,
        List.append_assoc, List.singleton_append]

/-- A text ends where a tag begins. -/
theorem pieces_text_tag (hne : raw ≠ []) (hraw : '<' ∉ raw) (h : '<' ∉ content)
    (h' : '>' ∉ content) (hrest : pieces false [] rest = some ps) :
    pieces false [] (raw ++ '<' :: (content ++ '>' :: rest))
      = some (.text raw :: .tag content :: ps) := by
  rw [pieces_inText hraw, List.nil_append, pieces, if_neg Bool.false_ne_true, if_pos rfl,
    pieces_inTag h h', hrest, textPiece, if_neg hne]
  rfl

theorem closesCdata_eq_false (h : '>' ∉ raw) : closesCdata raw = false := by
  fun_induction closesCdata raw with
  | case1 rest => simp at h
  | case2 c rest _ ih => exact ih fun hmem => h (List.mem_cons_of_mem _ hmem)
  | case3 => rfl

/-- A character that needs no reference stands for itself. -/
theorem resolve_char {c : Char} (hc : xmlChar c = true) (hne : c ≠ '&') :
    resolve none (c :: rest) = (resolve none rest).map (c :: ·) := by
  rw [resolve, if_neg hne, if_pos hc]

end XmlTree
