import FullStackHex.Domain
import FullStackHex.Library.Substitution

/-!
The labels of the sidecar's metrics: `_normalize_endpoint` of `py-api/app/main.py`, and the paths
that templates with ids stand for.
-/

namespace FullStackHex

namespace Endpoints

open Substitution

/-! ## The two patterns -/

/-- The digits zero of the scripts that have decimal digits; nine more follow each. -/
def decimalZeros : List Nat :=
  [0x30, 0x660, 0x6F0, 0x7C0, 0x966, 0x9E6, 0xA66, 0xAE6, 0xB66, 0xBE6, 0xC66, 0xCE6, 0xD66, 0xDE6,
    0xE50, 0xED0, 0xF20, 0x1040, 0x1090, 0x17E0, 0x1810, 0x1946, 0x19D0, 0x1A80, 0x1A90, 0x1B50,
    0x1BB0, 0x1C40, 0x1C50, 0xA620, 0xA8D0, 0xA900, 0xA9D0, 0xA9F0, 0xAA50, 0xABF0, 0xFF10, 0x104A0,
    0x10D30, 0x10D40, 0x11066, 0x110F0, 0x11136, 0x111D0, 0x112F0, 0x11450, 0x114D0, 0x11650,
    0x116C0, 0x116D0, 0x116DA, 0x11730, 0x118E0, 0x11950, 0x11BF0, 0x11C50, 0x11D50, 0x11DA0,
    0x11F50, 0x16130, 0x16A60, 0x16AC0, 0x16B50, 0x16D70, 0x1CCF0, 0x1D7CE, 0x1D7D8, 0x1D7E2,
    0x1D7EC, 0x1D7F6, 0x1E140, 0x1E2F0, 0x1E4F0, 0x1E5F1, 0x1E950, 0x1FBF0]

/-- `\d` -/
def isDecimal (c : Char) : Bool :=
  decimalZeros.any fun start => start ≤ c.toNat && c.toNat < start + 10

/-- `[0-9a-f]` -/
def lowerHexDigit (c : Char) : Bool := ('0' ≤ c && c ≤ '9') || ('a' ≤ c && c ≤ 'f')

def hyphen (c : Char) : Bool := c == '-'

/-- `_UUID_PATTERN`, after its slash. -/
def uuidClasses : List (Char → Bool) :=
  .replicate 8 lowerHexDigit ++ hyphen :: .replicate 4 lowerHexDigit ++
    hyphen :: .replicate 4 lowerHexDigit ++ hyphen :: .replicate 4 lowerHexDigit ++
    hyphen :: .replicate 12 lowerHexDigit

def uuidPattern : List Char → Nat
  | '/' :: rest => if sequenceMatches uuidClasses rest then uuidClasses.length + 1 else 0
  | _ => 0

/-- `_NUMERIC_PATTERN` -/
def numericPattern : List Char → Nat
  | '/' :: rest =>
      match (rest.takeWhile isDecimal).length with
      | 0 => 0
      | n + 1 => n + 2
  | _ => 0

def idToken : List Char := "\x7bid\x7d".toList

def isDynamic (segment : List Char) : Bool := "\x7b".toList.isPrefixOf segment

def normalizeEndpoint (path : String) : String :=
  let normalized := sub uuidPattern ('/' :: idToken) path.toList
  let normalized := sub numericPattern ('/' :: idToken) normalized
  let dynamicSegments := (Splitting.split "/".toList normalized).filter isDynamic
  if 2 < dynamicSegments.length then "unknown" else String.ofList normalized

/-! ## Templates -/

/-- A segment that is the same in all paths of a template. -/
structure Fixed where
  text : String
  noSlash : '/' ∉ text.toList
  noDigit : text.toList.head?.any isDecimal = false
  noBrace : text.toList.head? ≠ some '\x7b'
  notUuid : isUuid text = false
  deriving DecidableEq

inductive Segment where
  | slot
  | fixed (segment : Fixed)
  deriving DecidableEq

def Segment.isSlot : Segment → Bool
  | .slot => true
  | .fixed _ => false

structure Template where
  segments : List Segment
  slots : segments.countP Segment.isSlot ≤ 2
  deriving DecidableEq

structure Number where
  digits : List Char
  nonempty : digits ≠ []
  decimal : ∀ c ∈ digits, isDecimal c = true

/-- What a slot is filled with. -/
inductive Filling where
  | uuid (id : Uuid)
  | number (n : Number)

def Filling.text : Filling → List Char
  | .uuid id => id.text.toList
  | .number n => n.digits

def Segment.fill (filling : Filling) : Segment → List Char
  | .slot => filling.text
  | .fixed segment => segment.text.toList

def Segment.label : Segment → List Char
  | .slot => idToken
  | .fixed segment => segment.text.toList

/-- The segments of the path in which the slot at each place has its filling. -/
def Template.pieces (t : Template) (fillings : Nat → Filling) : List (List Char) :=
  t.segments.zipIdx.map fun (segment, i) => segment.fill (fillings i)

def Template.path (t : Template) (fillings : Nat → Filling) : String :=
  String.ofList (joined '/' (t.pieces fillings))

def Template.label (t : Template) : String :=
  String.ofList (joined '/' (t.segments.map Segment.label))

/-- A letter of a UUID in upper case. -/
def upperHexLetter (c : Char) : Bool := 'A' ≤ c && c ≤ 'F'

/-- A UUID in lower case, or a number. -/
def Filling.isLower : Filling → Bool
  | .uuid id => id.text.toList.all fun c => !upperHexLetter c
  | .number _ => true

/-- A fixed segment that does not begin with a UUID in lower case either. -/
def Segment.isPlain : Segment → Bool
  | .slot => true
  | .fixed segment => !sequenceMatches uuidClasses segment.text.toList

/-- Nothing but ids is replaced, and all of them are. -/
def Template.Clean (t : Template) (fillings : Nat → Filling) : Prop :=
  (∀ segment ∈ t.segments, segment.isPlain = true) ∧
    ∀ i, t.segments[i]? = some .slot → (fillings i).isLower = true

/-! ## One segment -/

section Pieces

variable {piece rest : List Char}

theorem uuidPattern_slash (rest : List Char) : uuidPattern ('/' :: rest) =
    if sequenceMatches uuidClasses rest then 37 else 0 := rfl

theorem numericPattern_slash (rest : List Char) : numericPattern ('/' :: rest) =
    if rest.takeWhile isDecimal = [] then 0 else (rest.takeWhile isDecimal).length + 1 := by
  simp only [numericPattern]
  cases rest.takeWhile isDecimal with
  | nil => rfl
  | cons c digits => rfl

theorem mem_uuidClasses {p : Char → Bool} (h : p ∈ uuidClasses) : p = lowerHexDigit ∨ p = hyphen := by
  simp only [uuidClasses, List.mem_append, List.mem_cons, List.mem_replicate] at h
  tauto

theorem uuidClasses_slash : ∀ p ∈ uuidClasses, p '/' = false := by
  intro p hp
  rcases mem_uuidClasses hp with rfl | rfl
  · decide
  · decide

theorem uuidPattern_within : Within '/' uuidPattern where
  only := by
    intro b rest hb
    unfold uuidPattern
    split
    · next heq => exact absurd (List.cons.inj heq).1 hb
    · rfl
  within := by
    intro piece _
    rw [uuidPattern_slash]
    split_ifs with hmatch
    · have hlength := length_of_sequenceMatches hmatch
      exact Nat.succ_le_succ hlength
    · exact Nat.zero_le _
  before := by
    intro piece rest _
    rw [uuidPattern_slash, uuidPattern_slash, sequenceMatches_append uuidClasses_slash]

theorem takeWhile_isDecimal_slash :
    (piece ++ '/' :: rest).takeWhile isDecimal = piece.takeWhile isDecimal := by
  have hslash : isDecimal '/' = false := by decide
  rw [List.takeWhile_append, List.takeWhile_cons_of_neg (by rw [hslash]; decide), List.append_nil]
  split_ifs with hall
  · exact ((List.takeWhile_prefix isDecimal).eq_of_length hall).symm
  · rfl

theorem numericPattern_within : Within '/' numericPattern where
  only := by
    intro b rest hb
    unfold numericPattern
    split
    · next heq => exact absurd (List.cons.inj heq).1 hb
    · rfl
  within := by
    intro piece _
    have hlength := (List.takeWhile_prefix (l := piece) isDecimal).length_le
    rw [numericPattern_slash]
    split_ifs
    · exact Nat.zero_le _
    · exact Nat.succ_le_succ hlength
  before := by
    intro piece rest _
    rw [numericPattern_slash, numericPattern_slash, takeWhile_isDecimal_slash]

/-- A segment after the first pass. -/
theorem replaced_uuid (piece : List Char) : replaced '/' uuidPattern idToken piece =
    if sequenceMatches uuidClasses piece then idToken ++ piece.drop 36 else piece := by
  unfold replaced
  rw [uuidPattern_slash]
  split_ifs
  · rfl
  · rfl

/-- A segment after the second pass. -/
theorem replaced_numeric (piece : List Char) : replaced '/' numericPattern idToken piece =
    if piece.takeWhile isDecimal = [] then piece else idToken ++ piece.dropWhile isDecimal := by
  have hdrop : piece.drop (piece.takeWhile isDecimal).length = piece.dropWhile isDecimal := by
    have hsplit := @List.takeWhile_append_dropWhile _ isDecimal piece
    calc piece.drop (piece.takeWhile isDecimal).length
        = (piece.takeWhile isDecimal ++ piece.dropWhile isDecimal).drop
            (piece.takeWhile isDecimal).length := by rw [hsplit]
      _ = piece.dropWhile isDecimal := List.drop_left
  unfold replaced
  rw [numericPattern_slash]
  split_ifs
  · rfl
  · exact congrArg (idToken ++ ·) hdrop

/-- A segment after both passes. -/
def normalized (piece : List Char) : List Char :=
  replaced '/' numericPattern idToken (replaced '/' uuidPattern idToken piece)

theorem normalized_noSlash (h : '/' ∉ piece) : '/' ∉ normalized piece := by
  have htoken : '/' ∉ idToken := by decide
  apply not_mem_replaced _ htoken
  exact not_mem_replaced h htoken

theorem takeWhile_eq_nil (h : piece.head?.any isDecimal = false) :
    piece.takeWhile isDecimal = [] := by
  cases piece with
  | nil => rfl
  | cons c rest => exact List.takeWhile_cons_of_neg (ne_true_of_eq_false h)

/-- The second pass leaves what the first one has put in. -/
theorem replaced_numeric_token (rest : List Char) :
    replaced '/' numericPattern idToken (idToken ++ rest) = idToken ++ rest := by
  have hbrace : isDecimal '\x7b' = false := by decide
  rw [replaced_numeric, if_pos]
  apply takeWhile_eq_nil
  exact hbrace

theorem normalized_of_uuid (h : sequenceMatches uuidClasses piece = true) :
    normalized piece = idToken ++ piece.drop 36 := by
  unfold normalized
  rw [replaced_uuid, if_pos h, replaced_numeric_token]

theorem normalized_of_not (h : ¬ sequenceMatches uuidClasses piece = true) :
    normalized piece =
      if piece.takeWhile isDecimal = [] then piece else idToken ++ piece.dropWhile isDecimal := by
  unfold normalized
  rw [replaced_uuid, if_neg h, replaced_numeric]

theorem Fixed.normalized_iff (segment : Fixed) : normalized segment.text.toList = segment.text.toList ↔
    sequenceMatches uuidClasses segment.text.toList = false := by
  cases hmatch : sequenceMatches uuidClasses segment.text.toList with
  | false =>
      refine iff_of_true ?_ rfl
      rw [normalized_of_not (ne_true_of_eq_false hmatch),
        if_pos (takeWhile_eq_nil segment.noDigit)]
  | true =>
      refine iff_of_false (fun hsame => ?_) (fun heq => nomatch heq)
      rw [normalized_of_uuid hmatch] at hsame
      apply segment.noBrace
      rw [← hsame]
      rfl

theorem Number.normalized (n : Number) : normalized n.digits = idToken := by
  have hmatch : ¬ sequenceMatches uuidClasses n.digits = true := by
    intro hmatch
    obtain ⟨c, hc, hhyphen⟩ := sequenceMatches_iff.mp hmatch 8 hyphen rfl
    obtain rfl : c = '-' := beq_iff_eq.mp hhyphen
    have hdecimal := n.decimal '-' (List.mem_of_getElem? hc)
    exact absurd hdecimal (by decide)
  have hall : n.digits.takeWhile isDecimal = n.digits := List.takeWhile_eq_self_iff.mpr n.decimal
  rw [normalized_of_not hmatch, hall, if_neg n.nonempty, List.dropWhile_eq_nil_iff.mpr n.decimal]
  rfl

theorem lowerHexDigit_iff (c : Char) :
    lowerHexDigit c = true ↔ isHexDigit c = true ∧ upperHexLetter c = false := by
  simp only [lowerHexDigit, isHexDigit, upperHexLetter, Bool.or_eq_true, Bool.and_eq_true,
    Bool.and_eq_false_iff, decide_eq_true_eq, decide_eq_false_iff_not, Char.le_def,
    UInt32.le_iff_toNat_le]
  simp only [show ('0' : Char).val.toNat = 48 from rfl, show ('9' : Char).val.toNat = 57 from rfl,
    show ('a' : Char).val.toNat = 97 from rfl, show ('f' : Char).val.toNat = 102 from rfl,
    show ('A' : Char).val.toNat = 65 from rfl, show ('F' : Char).val.toNat = 70 from rfl]
  omega

theorem uuidClasses_getElem {i : Nat} (h : i < 36) : uuidClasses[i]? =
    some (if i = 8 ∨ i = 13 ∨ i = 18 ∨ i = 23 then hyphen else lowerHexDigit) := by
  interval_cases i
  all_goals rfl

/-- Only the letters of a UUID decide whether it is matched. -/
theorem sequenceMatches_uuid (u : Uuid) : sequenceMatches uuidClasses u.text.toList = true ↔
    ∀ c ∈ u.text.toList, upperHexLetter c = false := by
  obtain ⟨hlength, hchars⟩ := isUuid_getElem u.wellFormed
  have hplaces : ∀ i, i < 36 → ∃ c, u.text.toList[i]? = some c := fun i hi =>
    ⟨_, List.getElem?_eq_getElem (by omega)⟩
  rw [sequenceMatches_iff]
  constructor
  · intro hmatch c hc
    obtain ⟨i, hi⟩ := List.mem_iff_getElem?.mp hc
    have hbound : i < 36 := hlength ▸ (List.getElem?_eq_some_iff.mp hi).1
    obtain ⟨b, hb, hclass⟩ := hmatch i _ (uuidClasses_getElem hbound)
    obtain rfl : c = b := Option.some.inj (hi.symm.trans hb)
    split_ifs at hclass with hplace
    · obtain rfl : c = '-' := beq_iff_eq.mp hclass
      decide
    · exact ((lowerHexDigit_iff c).mp hclass).2
  · intro hlower i p hp
    have hbound : i < 36 := (List.getElem?_eq_some_iff.mp hp).1
    obtain ⟨c, hc⟩ := hplaces i hbound
    have hchar := hchars i c hc
    rw [uuidClasses_getElem hbound] at hp
    obtain rfl := Option.some.inj hp
    refine ⟨c, hc, ?_⟩
    split_ifs at hchar ⊢ with hplace
    · exact beq_iff_eq.mpr hchar
    · exact (lowerHexDigit_iff c).mpr ⟨hchar, hlower c (List.mem_of_getElem? hc)⟩

theorem uuid_normalized_iff (u : Uuid) : normalized u.text.toList = idToken ↔
    ∀ c ∈ u.text.toList, upperHexLetter c = false := by
  obtain ⟨hlength, hchars⟩ := isUuid_getElem u.wellFormed
  rw [← sequenceMatches_uuid]
  by_cases hmatch : sequenceMatches uuidClasses u.text.toList = true
  · refine iff_of_true ?_ hmatch
    rw [normalized_of_uuid hmatch, List.drop_of_length_le hlength.le, List.append_nil]
  · refine iff_of_false (fun hid => ?_) hmatch
    rw [normalized_of_not hmatch] at hid
    split_ifs at hid with hdigits
    · rw [hid] at hlength
      exact absurd hlength (by decide)
    · -- the first hyphen stays
      obtain ⟨c, hc⟩ : ∃ c, u.text.toList[8]? = some c :=
        ⟨_, List.getElem?_eq_getElem (by omega)⟩
      have hrest : u.text.toList.dropWhile isDecimal = [] := by simpa using hid
      obtain rfl : c = '-' := by simpa using hchars 8 c hc
      have hdecimal := List.dropWhile_eq_nil_iff.mp hrest '-' (List.mem_of_getElem? hc)
      exact absurd hdecimal (by decide)

theorem Filling.normalized_iff (filling : Filling) :
    normalized filling.text = idToken ↔ filling.isLower = true := by
  cases filling with
  | uuid id =>
      have hid := uuid_normalized_iff id
      simpa [Filling.text, Filling.isLower] using hid
  | number n => exact iff_of_true n.normalized rfl

/-- A segment keeps its label. -/
theorem Segment.normalized_iff (segment : Segment) (filling : Filling) :
    normalized (segment.fill filling) = segment.label ↔
      segment.isPlain = true ∧ (segment = .slot → filling.isLower = true) := by
  cases segment with
  | slot =>
      have hfilling := filling.normalized_iff
      exact ⟨fun h => ⟨rfl, fun _ => hfilling.mp h⟩, fun h => hfilling.mpr (h.2 rfl)⟩
  | fixed segment =>
      have hfixed := segment.normalized_iff
      have hplain : (Segment.fixed segment).isPlain = true ↔
          sequenceMatches uuidClasses segment.text.toList = false :=
        Iff.of_eq (Bool.not_eq_true' _)
      rw [hplain]
      exact ⟨fun h => ⟨hfixed.mp h, fun heq => nomatch heq⟩, fun h => hfixed.mpr h.1⟩

end Pieces

/-! ## Whole paths -/

section Paths

variable (t : Template) (fillings : Nat → Filling)

theorem normalizeEndpoint_joined {pieces : List (List Char)} (h : ∀ piece ∈ pieces, '/' ∉ piece) :
    normalizeEndpoint (String.ofList (joined '/' pieces)) =
      if 2 < (pieces.map normalized).countP isDynamic then "unknown"
      else String.ofList (joined '/' (pieces.map normalized)) := by
  have htoken : '/' ∉ idToken := by decide
  have hfirst : sub uuidPattern ('/' :: idToken) (joined '/' pieces)
      = joined '/' (pieces.map (replaced '/' uuidPattern idToken)) :=
    sub_joined uuidPattern_within h
  have hpieces : ∀ piece ∈ pieces.map (replaced '/' uuidPattern idToken), '/' ∉ piece := by
    intro piece hpiece
    obtain ⟨before, hbefore, rfl⟩ := List.mem_map.mp hpiece
    exact not_mem_replaced (h before hbefore) htoken
  have hsecond : sub numericPattern ('/' :: idToken)
      (joined '/' (pieces.map (replaced '/' uuidPattern idToken)))
      = joined '/' (pieces.map normalized) := by
    rw [sub_joined numericPattern_within hpieces, List.map_map]
    rfl
  have hnormalized : ∀ piece ∈ pieces.map normalized, '/' ∉ piece := by
    intro piece hpiece
    obtain ⟨before, hbefore, rfl⟩ := List.mem_map.mp hpiece
    exact normalized_noSlash (h before hbefore)
  have hsplit : Splitting.split "/".toList (joined '/' (pieces.map normalized))
      = [] :: pieces.map normalized := split_joined hnormalized
  have hempty : isDynamic [] = false := by decide
  simp only [normalizeEndpoint, String.toList_ofList]
  rw [hfirst, hsecond, hsplit, List.filter_cons_of_neg (by rw [hempty]; decide),
    List.countP_eq_length_filter]

theorem Filling.noSlash (filling : Filling) : '/' ∉ filling.text := by
  intro hslash
  cases filling with
  | uuid id =>
      rcases id.char_cases hslash with hdigit | hhyphen
      · exact absurd hdigit (by decide)
      · exact absurd hhyphen (by decide)
  | number n => exact absurd (n.decimal '/' hslash) (by decide)

theorem Segment.fill_noSlash (segment : Segment) (filling : Filling) :
    '/' ∉ segment.fill filling := by
  cases segment with
  | slot => exact filling.noSlash
  | fixed segment => exact segment.noSlash

theorem Segment.label_noSlash (segment : Segment) : '/' ∉ segment.label := by
  cases segment with
  | slot => decide
  | fixed segment => exact segment.noSlash

theorem Segment.isDynamic_label (segment : Segment) : isDynamic segment.label = segment.isSlot := by
  cases segment with
  | slot => decide
  | fixed segment =>
      have hbrace := segment.noBrace
      change isDynamic segment.text.toList = false
      cases htext : segment.text.toList with
      | nil => decide
      | cons c rest =>
          rw [htext] at hbrace
          have hne : '\x7b' ≠ c := fun heq => hbrace (congrArg some heq.symm)
          have hbeq := beq_eq_false_iff_ne.mpr hne
          change ('\x7b' == c && _) = false
          rw [hbeq, Bool.false_and]

theorem Segment.label_inj {segment segment' : Segment} (h : segment.label = segment'.label) :
    segment = segment' := by
  have hslot : segment.isSlot = segment'.isSlot := by
    rw [← segment.isDynamic_label, ← segment'.isDynamic_label, h]
  cases segment with
  | slot =>
      cases segment' with
      | slot => rfl
      | fixed segment' => exact nomatch hslot
  | fixed segment =>
      cases segment' with
      | slot => exact nomatch hslot
      | fixed segment' =>
          have htext : segment.text = segment'.text := String.toList_inj.mp h
          obtain ⟨text, _⟩ := segment
          obtain ⟨text', _⟩ := segment'
          obtain rfl : text = text' := htext
          rfl

theorem Template.pieces_noSlash : ∀ piece ∈ t.pieces fillings, '/' ∉ piece := by
  intro piece hpiece
  obtain ⟨⟨segment, i⟩, _, rfl⟩ := List.mem_map.mp hpiece
  exact segment.fill_noSlash (fillings i)

theorem Template.labels_noSlash : ∀ piece ∈ t.segments.map Segment.label, '/' ∉ piece := by
  intro piece hpiece
  obtain ⟨segment, _, rfl⟩ := List.mem_map.mp hpiece
  exact segment.label_noSlash

theorem Template.dynamic_labels : (t.segments.map Segment.label).countP isDynamic ≤ 2 := by
  have hslots := t.slots
  rw [List.countP_map]
  have hsame : isDynamic ∘ Segment.label = Segment.isSlot := funext Segment.isDynamic_label
  rwa [hsame]

/-- All segments keep their labels just if the filling is clean. -/
theorem Template.normalized_iff :
    (t.pieces fillings).map normalized = t.segments.map Segment.label ↔ t.Clean fillings := by
  have hlabels : t.segments.map Segment.label
      = t.segments.zipIdx.map fun (segment, _) => segment.label := by
    conv_lhs => rw [← List.zipIdx_map_fst 0 t.segments]
    rw [List.map_map]
    rfl
  rw [hlabels, Template.pieces, List.map_map, List.map_inj_left]
  constructor
  · intro hall
    have hplaces : ∀ i segment, t.segments[i]? = some segment →
        segment.isPlain = true ∧ (segment = .slot → (fillings i).isLower = true) :=
      fun i segment hi => (segment.normalized_iff (fillings i)).mp
        (hall (segment, i) (List.mem_zipIdx_iff_getElem?.mpr hi))
    refine ⟨fun segment hsegment => ?_, fun i hi => (hplaces i _ hi).2 rfl⟩
    obtain ⟨i, hi⟩ := List.mem_iff_getElem?.mp hsegment
    exact (hplaces i segment hi).1
  · rintro ⟨hplain, hlower⟩ ⟨segment, i⟩ hmem
    have hi := List.mem_zipIdx_iff_getElem?.mp hmem
    apply (segment.normalized_iff (fillings i)).mpr
    refine ⟨hplain segment (List.mem_of_getElem? hi), fun hslot => ?_⟩
    exact hlower i (hslot ▸ hi)

/-- A label begins with a slash, if it is not empty. -/
theorem Template.label_ne_unknown : t.label ≠ "unknown" := by
  intro hlabel
  have hchars : joined '/' (t.segments.map Segment.label) = "unknown".toList := by
    rw [← hlabel, Template.label, String.toList_ofList]
  cases hsegments : t.segments.map Segment.label with
  | nil =>
      rw [hsegments] at hchars
      exact absurd hchars (by decide)
  | cons piece rest =>
      rw [hsegments] at hchars
      have hhead : some '/' = some 'u' := congrArg List.head? hchars
      exact absurd hhead (by decide)

theorem Template.label_inj {t t' : Template} (h : t.label = t'.label) : t = t' := by
  have hpieces := joined_inj t.labels_noSlash t'.labels_noSlash (String.ofList_inj.mp h)
  have hsegments := List.map_injective_iff.mpr (fun _ _ => Segment.label_inj) hpieces
  obtain ⟨segments, _⟩ := t
  obtain ⟨segments', _⟩ := t'
  obtain rfl : segments = segments' := hsegments
  rfl

theorem Template.normalizeEndpoint_iff :
    normalizeEndpoint (t.path fillings) = t.label ↔ t.Clean fillings := by
  rw [← t.normalized_iff fillings]
  have hpath : normalizeEndpoint (t.path fillings) = _ :=
    normalizeEndpoint_joined (t.pieces_noSlash fillings)
  rw [hpath]
  constructor
  · intro hlabel
    split_ifs at hlabel with hcount
    · exact absurd hlabel.symm t.label_ne_unknown
    · have hnormalized : ∀ piece ∈ (t.pieces fillings).map normalized, '/' ∉ piece := by
        intro piece hpiece
        obtain ⟨before, hbefore, rfl⟩ := List.mem_map.mp hpiece
        exact normalized_noSlash (t.pieces_noSlash fillings before hbefore)
      exact joined_inj hnormalized t.labels_noSlash (String.ofList_inj.mp hlabel)
  · intro hsegments
    have hcount := t.dynamic_labels
    rw [hsegments, if_neg (by omega)]
    rfl

end Paths

/-! ## Labels and templates -/

/-- There are no more labels than templates. -/
theorem length_dedup_labels (ts : List Template) (paths : List String)
    (h : ∀ path ∈ paths, ∃ t ∈ ts, ∃ fillings, t.Clean fillings ∧ path = t.path fillings) :
    (paths.map normalizeEndpoint).dedup.length ≤ ts.length := by
  have hlabels : (paths.map normalizeEndpoint).dedup ⊆ ts.map Template.label := by
    intro label hlabel
    obtain ⟨path, hpath, rfl⟩ := List.mem_map.mp (List.mem_dedup.mp hlabel)
    obtain ⟨t, ht, fillings, hclean, rfl⟩ := h path hpath
    rw [(t.normalizeEndpoint_iff fillings).mpr hclean]
    exact List.mem_map_of_mem ht
  have hlength := ((List.nodup_dedup _).subperm hlabels).length_le
  rwa [List.length_map] at hlength

/-- A path has the label of its template just if all its ids, and only those, are replaced. The
label tells the template, so there are no more labels than templates. -/
theorem label_of_template_iff_clean (t : Template) (fillings : Nat → Filling) :
    (normalizeEndpoint (t.path fillings) = t.label ↔ t.Clean fillings) ∧
    (∀ t' : Template, t.label = t'.label ↔ t = t') ∧
    (∀ (ts : List Template) (paths : List String),
      (∀ path ∈ paths, ∃ t ∈ ts, ∃ fillings, t.Clean fillings ∧ path = t.path fillings) →
        (paths.map normalizeEndpoint).dedup.length ≤ ts.length) :=
  ⟨t.normalizeEndpoint_iff fillings, fun _ => ⟨Template.label_inj, congrArg Template.label⟩,
    length_dedup_labels⟩

namespace Sample

def users : Template where
  segments := [.fixed ⟨"users", by decide, by decide, by decide, by decide +kernel⟩, .slot]
  slots := by decide

def upperId : Uuid := ⟨"550E8400-E29B-41D4-A716-446655440000", by decide +kernel⟩

def seven : Number := ⟨['7'], by decide, List.all_eq_true.mp (by decide)⟩

/-- Files named by a UUID and an ending. -/
def firstFile : Template where
  segments := [.fixed ⟨"a50e8400-e29b-41d4-a716-446655440000.txt", by decide, by decide, by decide,
    by decide +kernel⟩]
  slots := by decide

def secondFile : Template where
  segments := [.fixed ⟨"b50e8400-e29b-41d4-a716-446655440000.txt", by decide, by decide, by decide,
    by decide +kernel⟩]
  slots := by decide

end Sample

/-- `_UUID_PATTERN` has no letters in upper case, and does not ask for the end of the segment. -/
theorem upper_uuid_has_own_label :
    normalizeEndpoint (Sample.users.path fun _ => .number Sample.seven) = "/users/\x7bid\x7d" ∧
    normalizeEndpoint (Sample.users.path fun _ => .uuid Sample.upperId)
      = "/users/\x7bid\x7dE8400-E29B-41D4-A716-446655440000" ∧
    Sample.firstFile ≠ Sample.secondFile ∧
    normalizeEndpoint (Sample.firstFile.path fun _ => .number Sample.seven)
      = "/\x7bid\x7d.txt" ∧
    normalizeEndpoint (Sample.secondFile.path fun _ => .number Sample.seven)
      = "/\x7bid\x7d.txt" := by
  refine ⟨?_, ?_, ?_, ?_, ?_⟩
  all_goals decide +kernel

end Endpoints

end FullStackHex
