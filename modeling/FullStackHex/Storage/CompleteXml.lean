import FullStackHex.Library.XmlTree
import FullStackHex.Storage.Client

/-!
The XML of `build_complete_multipart_xml` in `storage/src/client.rs`, read back.
-/

namespace FullStackHex

open XmlTree

namespace Storage

def uploadName : List Char :=
  ['C', 'o', 'm', 'p', 'l', 'e', 't', 'e', 'M', 'u', 'l', 't', 'i', 'p', 'a', 'r', 't', 'U', 'p', 'l',
    'o', 'a', 'd']

def partName : List Char := ['P', 'a', 'r', 't']

def numberName : List Char := ['P', 'a', 'r', 't', 'N', 'u', 'm', 'b', 'e', 'r']

def etagName : List Char := ['E', 'T', 'a', 'g']

def uploadAttributes : Attributes :=
  [("xmlns".toList, "http://s3.amazonaws.com/doc/2006-03-01/".toList)]

/-- The element of a part. -/
def partTree (p : PartInfo) : Tree :=
  .element partName []
    [.element numberName [] [.text (toString p.partNumber.toNat).toList],
      .element etagName [] [.text ('"' :: (p.etag.toList ++ ['"']))]]

/-- The element of an upload with its parts, in order. -/
def completeTree (parts : List PartInfo) : Tree :=
  .element uploadName uploadAttributes (parts.map partTree)

/-! ## The texts -/

def escapeChar (c : Char) : List Char :=
  if c = '<' then "&lt;".toList
  else if c = '>' then "&gt;".toList
  else if c = '&' then "&amp;".toList
  else if c.toNat = 39 then "&apos;".toList
  else if c = '"' then "&quot;".toList
  else [c]

theorem toList_xmlEscape (s : String) : (xmlEscape s).toList = s.toList.flatMap escapeChar := by
  rw [xmlEscape, String.toList_ofList]
  rfl

/-- An escaped character is read as that character. -/
theorem resolve_escapeChar {c : Char} (hc : xmlChar c = true) (rest : List Char) :
    resolve none (escapeChar c ++ rest) = (resolve none rest).map (c :: ·) := by
  unfold escapeChar
  split_ifs with hlt hgt hamp hapos hquot
  · subst hlt
    simp [resolve, reference]
  · subst hgt
    simp [resolve, reference]
  · subst hamp
    simp [resolve, reference]
  · have hchar : c = Char.ofNat 39 := by rw [← hapos, Char.ofNat_toNat]
    subst hchar
    simp [resolve, reference]
  · subst hquot
    simp [resolve, reference]
  · exact resolve_char hc hamp

theorem resolve_escaped {cs : List Char} (h : ∀ c ∈ cs, xmlChar c = true) (rest : List Char) :
    resolve none (cs.flatMap escapeChar ++ rest) = (resolve none rest).map (cs ++ ·) := by
  induction cs with
  | nil => simp
  | cons c cs ih =>
      rw [List.flatMap_cons, List.append_assoc, resolve_escapeChar (h c List.mem_cons_self),
        ih fun d hd => h d (List.mem_cons_of_mem _ hd), Option.map_map]
      rfl

theorem not_mem_escapeChar {b c : Char} (hb : b = '<' ∨ b = '>' ∨ b = '\r') (hc : c ≠ '\r') :
    b ∉ escapeChar c := by
  unfold escapeChar
  split_ifs with hlt hgt hamp hapos hquot
  · rcases hb with rfl | rfl | rfl <;> decide
  · rcases hb with rfl | rfl | rfl <;> decide
  · rcases hb with rfl | rfl | rfl <;> decide
  · rcases hb with rfl | rfl | rfl <;> decide
  · rcases hb with rfl | rfl | rfl <;> decide
  · rw [List.mem_singleton]
    rcases hb with rfl | rfl | rfl
    · exact Ne.symm hlt
    · exact Ne.symm hgt
    · exact Ne.symm hc

theorem not_mem_escaped {b : Char} {cs : List Char} (hb : b = '<' ∨ b = '>' ∨ b = '\r')
    (h : ∀ c ∈ cs, c ≠ '\r') : b ∉ cs.flatMap escapeChar := by
  intro hmem
  obtain ⟨c, hc, hbc⟩ := List.mem_flatMap.mp hmem
  exact not_mem_escapeChar hb (h c hc) hbc

theorem not_mem_digits {b : Char} {n : Nat} (hb : b.isDigit = false) : b ∉ Nat.toDigits 10 n := by
  intro hmem
  have hdigit := Nat.isDigit_of_mem_toDigits (by omega) (by omega) hmem
  rw [hb] at hdigit
  cases hdigit

theorem parseText_digits (n : Nat) : parseText (Nat.toDigits 10 n) = some (Nat.toDigits 10 n) := by
  have hresolve : ∀ cs : List Char, (∀ c ∈ cs, c.isDigit = true) → resolve none cs = some cs := by
    intro cs hcs
    induction cs with
    | nil => rfl
    | cons c cs ih =>
        have hdigit := hcs c List.mem_cons_self
        have hchar : xmlChar c = true := by
          simp only [Char.isDigit, Bool.and_eq_true, decide_eq_true_eq, UInt32.le_iff_toNat_le]
            at hdigit
          have hlow : 48 ≤ c.toNat := hdigit.1
          have hhigh : c.toNat ≤ 57 := hdigit.2
          have hno : ∀ d : Char, 57 < d.toNat → c ≠ d := by
            rintro d hd rfl
            omega
          simp only [xmlChar, Bool.or_eq_true, Bool.and_eq_true, decide_eq_true_eq]
          exact .inr ⟨⟨by omega, hno _ (by decide)⟩, hno _ (by decide)⟩
        have hamp : c ≠ '&' := by
          rintro rfl
          exact absurd hdigit (by decide)
        rw [resolve_char hchar hamp, ih fun d hd => hcs d (List.mem_cons_of_mem _ hd)]
        rfl
  rw [parseText, closesCdata_eq_false (not_mem_digits (by decide)), if_neg Bool.false_ne_true]
  exact hresolve _ fun c hc => Nat.isDigit_of_mem_toDigits (by omega) (by omega) hc

/-- The text of an ETag element. -/
def quotedEtag (etag : List Char) : List Char := '"' :: (etag.flatMap escapeChar ++ ['"'])

theorem parseText_quotedEtag {etag : List Char} (h : ∀ c ∈ etag, xmlChar c = true ∧ c ≠ '\r') :
    parseText (quotedEtag etag) = some ('"' :: (etag ++ ['"'])) := by
  have hquote : xmlChar '"' = true := by decide
  have hend : '>' ∉ quotedEtag etag := by
    simp only [quotedEtag, List.mem_cons, List.mem_append, List.not_mem_nil, or_false, not_or]
    exact ⟨by decide, not_mem_escaped (.inr (.inl rfl)) fun c hc => (h c hc).2, by decide⟩
  rw [parseText, closesCdata_eq_false hend, if_neg Bool.false_ne_true, quotedEtag,
    resolve_char hquote (by decide), resolve_escaped fun c hc => (h c hc).1,
    resolve_char hquote (by decide)]
  rfl

/-! ## The document -/

def uploadTag : List Char :=
  "CompleteMultipartUpload xmlns=\"http://s3.amazonaws.com/doc/2006-03-01/\"".toList

/-- A start tag, and what follows it. -/
def opening (content rest : List Char) : List Char := '<' :: (content ++ '>' :: rest)

/-- An end tag, and what follows it. -/
def closing (name rest : List Char) : List Char := '<' :: ('/' :: name ++ '>' :: rest)

/-- A part as it is written, and what follows it. -/
def partText (p : PartInfo) (rest : List Char) : List Char :=
  opening partName <| opening numberName <| Nat.toDigits 10 p.partNumber.toNat ++
    (closing numberName <| opening etagName <| quotedEtag p.etag.toList ++
      (closing etagName <| closing partName rest))

def uploadText (parts : List PartInfo) : List Char :=
  opening uploadTag (parts.foldr partText (closing uploadName []))

theorem toList_buildCompleteMultipartXml (parts : List PartInfo) :
    (buildCompleteMultipartXml parts).toList = uploadText parts := by
  have hstart : "<CompleteMultipartUpload xmlns=\"http://s3.amazonaws.com/doc/2006-03-01/\">".toList
      = opening uploadTag [] := by decide +kernel
  have hend : "</CompleteMultipartUpload>".toList = closing uploadName [] := by decide +kernel
  have hopen : "<Part><PartNumber>".toList = opening partName (opening numberName []) := by
    decide +kernel
  have hbetween : "</PartNumber><ETag>\"".toList
      = closing numberName (opening etagName ['"']) := by decide +kernel
  have hclose : "\"</ETag></Part>".toList = '"' :: closing etagName (closing partName []) := by
    decide +kernel
  have hparts : ∀ parts : List PartInfo, ∀ rest,
      (String.join (parts.map fun p => "<Part><PartNumber>" ++ toString p.partNumber.toNat
        ++ "</PartNumber><ETag>\"" ++ xmlEscape p.etag ++ "\"</ETag></Part>")).toList ++ rest
        = parts.foldr partText rest := by
    intro parts rest
    induction parts with
    | nil => rfl
    | cons p parts ih =>
        simp only [List.map_cons, String.join_cons, String.toList_append, toList_xmlEscape, hopen,
          hbetween, hclose, List.foldr_cons, ← ih, partText, quotedEtag, opening, closing,
          Nat.toString_eq_repr, Nat.toList_repr, List.append_assoc, List.cons_append,
          List.nil_append]
  have hopening : ∀ content rest : List Char, opening content [] ++ rest = opening content rest := by
    intro content rest
    simp only [opening, List.cons_append, List.append_assoc, List.nil_append]
  unfold buildCompleteMultipartXml
  simp only [String.toList_append, List.append_assoc]
  have hrest := (congrArg (_ ++ ·) hend).trans (hparts parts (closing uploadName []))
  exact (congrArg₂ (· ++ ·) hstart hrest).trans (hopening _ _)

/-- The tags and texts of a part. -/
def partPieces (p : PartInfo) : List Piece :=
  [.tag partName, .tag numberName, .text (Nat.toDigits 10 p.partNumber.toNat),
    .tag ('/' :: numberName), .tag etagName, .text (quotedEtag p.etag.toList),
    .tag ('/' :: etagName), .tag ('/' :: partName)]

theorem pieces_partText {p : PartInfo} (h : ∀ c ∈ p.etag.toList, c ≠ '\r') {rest : List Char}
    {ps : List Piece} (hrest : pieces false [] rest = some ps) :
    pieces false [] (partText p rest) = some (partPieces p ++ ps) := by
  have hquoted : '<' ∉ quotedEtag p.etag.toList := by
    simp only [quotedEtag, List.mem_cons, List.mem_append, List.not_mem_nil, or_false, not_or]
    exact ⟨by decide, not_mem_escaped (.inl rfl) h, by decide⟩
  apply pieces_tag (by decide) (by decide)
  apply pieces_tag (by decide) (by decide)
  apply pieces_text_tag Nat.toDigits_ne_nil (not_mem_digits (by decide)) (by decide) (by decide)
  apply pieces_tag (by decide) (by decide)
  apply pieces_text_tag (List.cons_ne_nil _ _) hquoted (by decide) (by decide)
  exact pieces_tag (by decide) (by decide) hrest

theorem pieces_parts {parts : List PartInfo} (h : ∀ p ∈ parts, ∀ c ∈ p.etag.toList, c ≠ '\r')
    {rest : List Char} {ps : List Piece} (hrest : pieces false [] rest = some ps) :
    pieces false [] (parts.foldr partText rest) = some (parts.flatMap partPieces ++ ps) := by
  induction parts with
  | nil => exact hrest
  | cons p parts ih =>
      rw [List.foldr_cons, List.flatMap_cons, List.append_assoc]
      exact pieces_partText (h p List.mem_cons_self)
        (ih fun q hq => h q (List.mem_cons_of_mem _ hq))

/-- The pieces of a part are one more child. -/
theorem build_part {p : PartInfo} (h : ∀ c ∈ p.etag.toList, xmlChar c = true ∧ c ≠ '\r')
    (top : Started) (rest : List Piece) :
    build [top] none (partPieces p ++ rest) = build [top.add (partTree p)] none rest := by
  have hpart : parseTag partName = some (.start partName []) := by decide
  have hnumber : parseTag numberName = some (.start numberName []) := by decide
  have hnumberEnd : parseTag ('/' :: numberName) = some (.close numberName) := by decide
  have hetag : parseTag etagName = some (.start etagName []) := by decide
  have hetagEnd : parseTag ('/' :: etagName) = some (.close etagName) := by decide
  have hpartEnd : parseTag ('/' :: partName) = some (.close partName) := by decide
  simp only [partPieces, List.cons_append, List.nil_append, build, hpart, hnumber, hnumberEnd, hetag,
    hetagEnd, hpartEnd, parseText_digits, parseText_quotedEtag h, Option.bind_some, Started.add,
    if_true, partTree, Nat.toString_eq_repr, Nat.toList_repr]

theorem build_parts {parts : List PartInfo}
    (h : ∀ p ∈ parts, ∀ c ∈ p.etag.toList, xmlChar c = true ∧ c ≠ '\r') (top : Started)
    (rest : List Piece) :
    build [top] none (parts.flatMap partPieces ++ rest)
      = build [{ top with children := top.children ++ parts.map partTree }] none rest := by
  induction parts generalizing top with
  | nil => rw [List.flatMap_nil, List.map_nil, List.append_nil, List.nil_append]
  | cons p parts ih =>
      rw [List.flatMap_cons, List.append_assoc, build_part (h p List.mem_cons_self),
        ih fun q hq => h q (List.mem_cons_of_mem _ hq)]
      simp [Started.add]

theorem return_not_mem {parts : List PartInfo} (h : ∀ p ∈ parts, ∀ c ∈ p.etag.toList, c ≠ '\r') :
    '\r' ∉ uploadText parts := by
  have hopening : ∀ {content rest : List Char}, '\r' ∉ content → '\r' ∉ rest →
      '\r' ∉ opening content rest := by
    intro content rest hcontent hrest
    simp only [opening, List.mem_cons, List.mem_append, hcontent, hrest, or_false, false_or]
    decide
  have hclosing : ∀ {name rest : List Char}, '\r' ∉ name → '\r' ∉ rest →
      '\r' ∉ closing name rest := by
    intro name rest hname hrest
    simp only [closing, List.mem_cons, List.mem_append, hname, hrest, or_false]
    decide
  refine hopening (by decide) ?_
  induction parts with
  | nil => exact hclosing (by decide) List.not_mem_nil
  | cons p parts ih =>
      have hrest := ih fun q hq => h q (List.mem_cons_of_mem _ hq)
      have hquoted : '\r' ∉ quotedEtag p.etag.toList := by
        simp only [quotedEtag, List.mem_cons, List.mem_append, List.not_mem_nil, or_false, not_or]
        exact ⟨by decide, not_mem_escaped (.inr (.inr rfl)) (h p List.mem_cons_self), by decide⟩
      have hetag := hclosing (show '\r' ∉ etagName by decide) <|
        hclosing (show '\r' ∉ partName by decide) hrest
      have hnumber := hclosing (show '\r' ∉ numberName by decide) <|
        hopening (show '\r' ∉ etagName by decide) <|
          List.mem_append.not.mpr (not_or.mpr ⟨hquoted, hetag⟩)
      have hdigits : '\r' ∉ Nat.toDigits 10 p.partNumber.toNat := not_mem_digits (by decide)
      exact hopening (by decide) <| hopening (by decide) <|
        List.mem_append.not.mpr (not_or.mpr ⟨hdigits, hnumber⟩)

/-- The document is read as the upload with the given parts. -/
theorem parse_buildCompleteMultipartXml {parts : List PartInfo}
    (h : ∀ p ∈ parts, ∀ c ∈ p.etag.toList, xmlChar c = true ∧ c ≠ '\r') :
    parse (buildCompleteMultipartXml parts).toList = some (completeTree parts) := by
  have hstart : parseTag uploadTag = some (.start uploadName uploadAttributes) := by decide +kernel
  have hend : parseTag ('/' :: uploadName) = some (.close uploadName) := by decide
  have hreturn : ∀ p ∈ parts, ∀ c ∈ p.etag.toList, c ≠ '\r' := fun p hp c hc => (h p hp c hc).2
  have hopen : '<' ∉ uploadTag ∧ '>' ∉ uploadTag := by decide +kernel
  have hclose : pieces false [] (closing uploadName []) = some [.tag ('/' :: uploadName)] :=
    pieces_tag (by decide) (by decide) rfl
  have hread : pieces false [] (uploadText parts)
      = some (.tag uploadTag :: (parts.flatMap partPieces ++ [.tag ('/' :: uploadName)])) :=
    pieces_tag hopen.1 hopen.2 (pieces_parts hreturn hclose)
  rw [parse, toList_buildCompleteMultipartXml, normalizeLines_eq_self (return_not_mem hreturn),
    hread, Option.bind_some]
  simp only [build, hstart, build_parts h, hend, List.nil_append, if_true, completeTree]

namespace Sample

/-- An ETag that looks like the end of its element. -/
def hostileParts : List PartInfo := [⟨1, "\"</ETag></Part>&amp;"⟩, ⟨4294967295, "é"⟩]

end Sample

theorem parse_buildCompleteMultipartXml_sample :
    parse (buildCompleteMultipartXml Sample.hostileParts).toList
      = some (completeTree Sample.hostileParts) := by
  have hallowed : Sample.hostileParts.all
      (fun p => p.etag.toList.all fun c => xmlChar c && c ≠ '\r') = true := by decide
  apply parse_buildCompleteMultipartXml
  intro p hp c hc
  have hchar := List.all_eq_true.mp (List.all_eq_true.mp hallowed p hp) c hc
  rwa [Bool.and_eq_true, decide_eq_true_eq] at hchar

end Storage

end FullStackHex
