import FullStackHex.Library.Header
import FullStackHex.Library.Splitting

/-!
HTTP/1.1 messages as bytes: start lines, field lines, the empty line that ends a head, and the
three ways to delimit the body of a response.
-/

namespace HttpMessage

open Codec Http

abbrev Bytes := List UInt8

def crlf : Bytes := [13, 10]

/-! ## Lines -/

/-- The lines up to the first empty one, after those and the part of a line that have been read,
and what follows the empty one. -/
def readLines (lines : List Bytes) (line : Bytes) : Bytes → Option (List Bytes × Bytes)
  | 13 :: 10 :: rest => if line = [] then some (lines, rest) else readLines (lines ++ [line]) [] rest
  | b :: rest => readLines lines (line ++ [b]) rest
  | [] => none

/-- The lines of a head, each with its end, and the empty one. -/
def renderLines (lines : List Bytes) : Bytes := lines.flatMap (· ++ crlf) ++ crlf

section Reading

variable {lines before : List Bytes} {line piece rest : Bytes}

theorem readLines_piece (h : 13 ∉ piece) :
    readLines before line (piece ++ rest) = readLines before (line ++ piece) rest := by
  induction piece generalizing line with
  | nil => rw [List.nil_append, List.append_nil]
  | cons b piece ih =>
      rw [List.mem_cons, not_or] at h
      have hstep : readLines before line (b :: (piece ++ rest))
          = readLines before (line ++ [b]) (piece ++ rest) := by
        rw [readLines]
        intro after hb
        exact absurd hb.symm h.1
      rw [List.cons_append, hstep, ih h.2, List.append_assoc, List.singleton_append]

theorem readLines_line (hne : line ≠ []) (h : 13 ∉ line) :
    readLines before [] (line ++ crlf ++ rest) = readLines (before ++ [line]) [] rest := by
  rw [List.append_assoc, readLines_piece h, List.nil_append, crlf, List.cons_append,
    List.cons_append, List.nil_append, readLines, if_neg hne]

/-- Lines without a carriage return are read as they were written. -/
theorem readLines_renderLines (h : ∀ line ∈ lines, line ≠ [] ∧ 13 ∉ line) :
    readLines before [] (renderLines lines ++ rest) = some (before ++ lines, rest) := by
  induction lines generalizing before with
  | nil =>
      rw [renderLines, List.flatMap_nil, List.nil_append, crlf, List.cons_append, List.cons_append,
        List.nil_append, readLines, if_pos rfl, List.append_nil]
  | cons line lines ih =>
      have hline := h line List.mem_cons_self
      have hlines := fun l hl => h l (List.mem_cons_of_mem _ hl)
      have hsplit : renderLines (line :: lines) ++ rest
          = line ++ crlf ++ (renderLines lines ++ rest) := by
        simp only [renderLines, List.flatMap_cons, List.append_assoc]
      rw [hsplit, readLines_line hline.1 hline.2, ih hlines, List.append_assoc,
        List.singleton_append]

/-! ## Fields -/

/-- `tchar`. -/
def tokenByte (b : UInt8) : Bool :=
  (48 ≤ b && b ≤ 57) || (65 ≤ b && b ≤ 90) || (97 ≤ b && b ≤ 122)
    || b ∈ bytesOf "!#$%&'*+-.^_`|~"

def token (bytes : Bytes) : Bool := bytes ≠ [] && bytes.all tokenByte

/-- A space or a tab. -/
def blank (b : UInt8) : Bool := b == 32 || b == 9

/-- Legal bytes, of which the first and the last are not blank. -/
def fieldValue (bytes : Bytes) : Bool := bytes.all legalByte && trimBy blank bytes == bytes

structure HeaderField where
  name : Bytes
  value : Bytes
  deriving DecidableEq, Repr

def HeaderField.wellFormed (f : HeaderField) : Bool := token f.name && fieldValue f.value

/-- A field line, without the blanks around the value. -/
def parseField (line : Bytes) : Option HeaderField :=
  match line.dropWhile (· ≠ 58) with
  | [] => none
  | _ :: value =>
      let name := line.takeWhile (· ≠ 58)
      if token name ∧ value.all legalByte then some ⟨name, trimBy blank value⟩ else none

/-- A field line with blanks before and after the value. -/
def renderField (f : HeaderField) (before after : Bytes) : Bytes :=
  f.name ++ 58 :: (before ++ f.value ++ after)

def parseFields : List Bytes → Option (List HeaderField)
  | [] => some []
  | line :: lines => (parseField line).bind fun f => (parseFields lines).map (f :: ·)

theorem not_tokenByte_colon : tokenByte 58 = false := by decide

theorem not_tokenByte_return : tokenByte 13 = false := by decide

theorem not_legalByte_return : legalByte 13 = false := by decide

theorem legalByte_of_blank {b : UInt8} (h : blank b = true) : legalByte b = true := by
  unfold blank at h
  rw [Bool.or_eq_true, beq_iff_eq, beq_iff_eq] at h
  rcases h with rfl | rfl
  · decide
  · decide

theorem not_mem_of_all {p : UInt8 → Bool} {b : UInt8} {bytes : Bytes} (h : bytes.all p = true)
    (hb : p b = false) : b ∉ bytes := by
  intro hmem
  rw [List.all_eq_true] at h
  exact absurd (h b hmem) (by rw [hb]; decide)

/-- What a line is read as is well formed. -/
theorem wellFormed_of_parseField {f : HeaderField} (h : parseField line = some f) :
    f.wellFormed = true := by
  unfold parseField at h
  split at h
  · cases h
  · rename_i value _
    simp only at h
    split at h
    · rename_i hlegal
      have hvalue : (trimBy blank value).all legalByte = true := by
        rw [List.all_eq_true]
        exact fun b hb => List.all_eq_true.mp hlegal.2 b ((trimBy_part blank value).subset hb)
      rw [← Option.some.inj h, HeaderField.wellFormed, fieldValue, hlegal.1, hvalue, trimBy_trimBy]
      simp only [beq_self_eq_true, Bool.and_self]
    · cases h

theorem trimBy_blanks {value before after : Bytes} (hvalue : trimBy blank value = value)
    (hbefore : before.all blank = true) (hafter : after.all blank = true) :
    trimBy blank (before ++ value ++ after) = value := by
  rw [List.all_eq_true] at hbefore hafter
  have hleft : (before ++ (value ++ after)).dropWhile blank = (value ++ after).dropWhile blank :=
    List.dropWhile_append_of_pos hbefore
  have hright : ∀ s : Bytes, (s ++ after).rdropWhile blank = s.rdropWhile blank := by
    intro s
    rw [List.rdropWhile, List.reverse_append, List.dropWhile_append_of_pos, List.rdropWhile]
    intro b hb
    exact hafter b (List.mem_reverse.mp hb)
  unfold trimBy
  rw [List.append_assoc, hleft, List.dropWhile_append]
  split
  · rename_i hempty
    have hnone : value = [] := by
      rw [← hvalue, trimBy, List.isEmpty_iff.mp hempty]
      rfl
    rw [List.dropWhile_eq_nil_iff.mpr hafter, hnone]
    rfl
  · rw [hright]
    exact hvalue

/-- A well formed field is read as it was written. -/
theorem parseField_renderField {f : HeaderField} {before after : Bytes} (h : f.wellFormed = true)
    (hbefore : before.all blank = true) (hafter : after.all blank = true) :
    parseField (renderField f before after) = some f := by
  rw [HeaderField.wellFormed, fieldValue, Bool.and_eq_true, Bool.and_eq_true, beq_iff_eq] at h
  obtain ⟨hname, hlegal, htrimmed⟩ := h
  have hall : f.name.all tokenByte = true := ((Bool.and_eq_true _ _).mp hname).2
  have hkeep : ∀ b ∈ f.name, decide (b ≠ 58) = true := by
    intro b hb
    rw [decide_eq_true_eq]
    rintro rfl
    exact not_mem_of_all hall not_tokenByte_colon hb
  have hdrop : (renderField f before after).dropWhile (· ≠ 58)
      = 58 :: (before ++ f.value ++ after) := by
    rw [renderField, List.dropWhile_append_of_pos hkeep, List.dropWhile_cons_of_neg (by simp)]
  have htake : (renderField f before after).takeWhile (· ≠ 58) = f.name := by
    rw [renderField, takeWhile_stop _ _ (by simp), List.takeWhile_eq_self_iff]
    exact hkeep
  have hblanks : ∀ blanks : Bytes, blanks.all blank = true → blanks.all legalByte = true := by
    intro blanks hblanks
    rw [List.all_eq_true] at *
    exact fun b hb => legalByte_of_blank (hblanks b hb)
  have hline : (before ++ f.value ++ after).all legalByte = true := by
    simp only [List.all_append, hlegal, hblanks before hbefore, hblanks after hafter, Bool.and_self]
  unfold parseField
  rw [hdrop]
  simp only [htake]
  rw [if_pos ⟨hname, hline⟩, trimBy_blanks htrimmed hbefore hafter]

theorem renderField_legal {f : HeaderField} {before after : Bytes} (h : f.wellFormed = true)
    (hbefore : before.all blank = true) (hafter : after.all blank = true) :
    renderField f before after ≠ [] ∧ 13 ∉ renderField f before after := by
  rw [HeaderField.wellFormed, fieldValue, Bool.and_eq_true, Bool.and_eq_true] at h
  have hall : f.name.all tokenByte = true := ((Bool.and_eq_true _ _).mp h.1).2
  have hblank : blank 13 = false := by decide
  refine ⟨fun hempty => by simp [renderField] at hempty, ?_⟩
  rw [renderField, List.mem_append, List.mem_cons, List.mem_append, List.mem_append]
  rintro (hname | hcolon | (hbefore' | hvalue) | hafter')
  · exact not_mem_of_all hall not_tokenByte_return hname
  · exact absurd hcolon (by decide)
  · exact not_mem_of_all hbefore hblank hbefore'
  · exact not_mem_of_all h.2.1 not_legalByte_return hvalue
  · exact not_mem_of_all hafter hblank hafter'

theorem wellFormed_of_parseFields {fields : List HeaderField}
    (h : parseFields lines = some fields) : ∀ f ∈ fields, f.wellFormed = true := by
  induction lines generalizing fields with
  | nil =>
      cases h
      exact fun f hf => absurd hf List.not_mem_nil
  | cons line lines ih =>
      obtain ⟨first, hfirst, hmap⟩ := Option.bind_eq_some_iff.mp h
      obtain ⟨others, hothers, rfl⟩ := Option.map_eq_some_iff.mp hmap
      intro f hf
      rcases List.mem_cons.mp hf with rfl | hf
      · exact wellFormed_of_parseField hfirst
      · exact ih hothers f hf

theorem parseFields_renderFields {fields : List HeaderField} (h : ∀ f ∈ fields, f.wellFormed = true) :
    parseFields (fields.map fun f => renderField f [32] []) = some fields := by
  induction fields with
  | nil => rfl
  | cons f fields ih =>
      have hf : parseField (renderField f [32] []) = some f :=
        parseField_renderField (h f List.mem_cons_self) (by decide) rfl
      rw [List.map_cons, parseFields, hf, ih fun g hg => h g (List.mem_cons_of_mem _ hg)]
      rfl

end Reading

/-! ## Requests -/

/-- A grammar of request targets, which are visible ASCII. -/
structure TargetGrammar where
  accepts : Bytes → Bool
  visible : ∀ target, accepts target = true → ∀ b ∈ target, 33 ≤ b ∧ b ≤ 126

def hexByte (b : UInt8) : Bool :=
  (48 ≤ b && b ≤ 57) || (65 ≤ b && b ≤ 70) || (97 ≤ b && b ≤ 102)

/-- `pchar` but for escapes, and what separates the parts of a path and a query. -/
def targetByte (b : UInt8) : Bool :=
  (48 ≤ b && b ≤ 57) || (65 ≤ b && b ≤ 90) || (97 ≤ b && b ≤ 122)
    || b ∈ bytesOf "-._~!$&'()*+,;=:@/?"

def targetBytes : Bytes → Bool
  | 37 :: high :: low :: rest => hexByte high && hexByte low && targetBytes rest
  | b :: rest => targetByte b && targetBytes rest
  | [] => true

theorem visible_of_hexByte {b : UInt8} (h : hexByte b = true) : 33 ≤ b ∧ b ≤ 126 := by
  simp only [hexByte, Bool.or_eq_true, Bool.and_eq_true, decide_eq_true_eq, UInt8.le_iff_toNat_le]
    at *
  have hbounds : (33 : UInt8).toNat = 33 ∧ (126 : UInt8).toNat = 126 ∧ (48 : UInt8).toNat = 48 ∧
      (57 : UInt8).toNat = 57 ∧ (65 : UInt8).toNat = 65 ∧ (70 : UInt8).toNat = 70 ∧
      (97 : UInt8).toNat = 97 ∧ (102 : UInt8).toNat = 102 := by decide
  omega

theorem visible_of_targetByte {b : UInt8} (h : targetByte b = true) : 33 ≤ b ∧ b ≤ 126 := by
  rw [targetByte, Bool.or_eq_true, decide_eq_true_eq] at h
  rcases h with h | h
  · simp only [Bool.or_eq_true, Bool.and_eq_true, decide_eq_true_eq, UInt8.le_iff_toNat_le] at *
    have hbounds : (33 : UInt8).toNat = 33 ∧ (126 : UInt8).toNat = 126 ∧ (48 : UInt8).toNat = 48 ∧
        (57 : UInt8).toNat = 57 ∧ (65 : UInt8).toNat = 65 ∧ (90 : UInt8).toNat = 90 ∧
        (97 : UInt8).toNat = 97 ∧ (122 : UInt8).toNat = 122 := by decide
    omega
  · have hall : (bytesOf "-._~!$&'()*+,;=:@/?").all fun b => 33 ≤ b ∧ b ≤ 126 := by decide
    exact of_decide_eq_true (List.all_eq_true.mp hall b h)

theorem visible_of_targetBytes {bytes : Bytes} (h : targetBytes bytes = true) :
    ∀ b ∈ bytes, 33 ≤ b ∧ b ≤ 126 := by
  fun_induction targetBytes bytes with
  | case1 high low rest ih =>
      rw [Bool.and_eq_true, Bool.and_eq_true] at h
      have hescape : (33 : UInt8) ≤ 37 ∧ (37 : UInt8) ≤ 126 := by decide
      simp only [List.mem_cons]
      rintro b (rfl | rfl | rfl | hb)
      · exact hescape
      · exact visible_of_hexByte h.1.1
      · exact visible_of_hexByte h.1.2
      · exact ih h.2 b hb
  | case2 first rest _ ih =>
      rw [Bool.and_eq_true] at h
      intro b hb
      rcases List.mem_cons.mp hb with rfl | hb
      · exact visible_of_targetByte h.1
      · exact ih h.2 b hb
  | case3 => exact fun b hb => absurd hb List.not_mem_nil

/-- `origin-form`: an absolute path and maybe a query. -/
def originForm : TargetGrammar where
  accepts
    | 47 :: rest => targetBytes rest
    | _ => false
  visible := by
    intro target h b hb
    split at h
    · rcases List.mem_cons.mp hb with rfl | hb
      · decide
      · exact visible_of_targetBytes h b hb
    · cases h

structure Request where
  method : Bytes
  target : Bytes
  version : Bytes
  fields : List HeaderField
  deriving DecidableEq, Repr

def digitByte (b : UInt8) : Bool := 48 ≤ b && b ≤ 57

/-- `HTTP-version`. -/
def httpVersion (bytes : Bytes) : Bool :=
  bytes.take 5 == bytesOf "HTTP/" &&
    match bytes.drop 5 with
    | [major, 46, minor] => digitByte major && digitByte minor
    | _ => false

structure Request.WellFormed (grammar : TargetGrammar) (r : Request) : Prop where
  method : token r.method = true
  target : grammar.accepts r.target = true
  version : httpVersion r.version = true
  fields : ∀ f ∈ r.fields, f.wellFormed = true

def parseRequestLine (grammar : TargetGrammar) (line : Bytes) : Option (Bytes × Bytes × Bytes) :=
  match Splitting.split [32] line with
  | [method, target, version] =>
      if token method ∧ grammar.accepts target ∧ httpVersion version then
        some (method, target, version)
      else none
  | _ => none

/-- The head of a request, and what follows it. -/
def parseRequest (grammar : TargetGrammar) (bytes : Bytes) : Option (Request × Bytes) :=
  match readLines [] [] bytes with
  | some (start :: lines, rest) =>
      (parseRequestLine grammar start).bind fun (method, target, version) =>
        (parseFields lines).map fun fields => (⟨method, target, version, fields⟩, rest)
  | _ => none

def lowerByte (b : UInt8) : UInt8 := if 65 ≤ b && b ≤ 90 then b + 32 else b

/-- A request has a body only if one of two fields says so. -/
def Request.declaresBody (r : Request) : Bool :=
  r.fields.any fun f =>
    f.name.map lowerByte ∈ [bytesOf "content-length", bytesOf "transfer-encoding"]

def requestLine (r : Request) : Bytes :=
  r.method ++ 32 :: (r.target ++ 32 :: r.version)

def renderRequest (r : Request) : Bytes :=
  renderLines (requestLine r :: r.fields.map fun f => renderField f [32] [])

theorem Request.wellFormed_of_parse {grammar : TargetGrammar} {bytes rest : Bytes} {r : Request}
    (h : parseRequest grammar bytes = some (r, rest)) : r.WellFormed grammar := by
  unfold parseRequest at h
  split at h
  · obtain ⟨⟨method, target, version⟩, hline, hmap⟩ := Option.bind_eq_some_iff.mp h
    obtain ⟨fields, hfields, hresult⟩ := Option.map_eq_some_iff.mp hmap
    obtain ⟨hr, -⟩ := Prod.mk.inj hresult
    unfold parseRequestLine at hline
    split at hline
    · split at hline
      · rename_i hlegal
        cases hline
        rw [← hr]
        exact ⟨hlegal.1, hlegal.2.1, hlegal.2.2, wellFormed_of_parseFields hfields⟩
      · cases hline
    · cases hline
  · cases h

theorem visible_of_httpVersion {bytes : Bytes} (h : httpVersion bytes = true) :
    32 ∉ bytes ∧ 13 ∉ bytes := by
  rw [httpVersion, Bool.and_eq_true, beq_iff_eq] at h
  obtain ⟨htag, hdigits⟩ := h
  split at hdigits
  · rename_i major minor hdrop
    rw [Bool.and_eq_true] at hdigits
    have hsplit : bytes = bytesOf "HTTP/" ++ [major, 46, minor] := by
      rw [← htag, ← hdrop, List.take_append_drop]
    have hno : ∀ b : UInt8, b = 32 ∨ b = 13 → digitByte b = false ∧ b ∉ bytesOf "HTTP/" ∧ b ≠ 46 := by
      rintro b (rfl | rfl)
      · decide
      · decide
    have hout : ∀ b : UInt8, b = 32 ∨ b = 13 → b ∉ bytes := by
      intro b hb hmem
      rw [hsplit, List.mem_append] at hmem
      simp only [List.mem_cons, List.not_mem_nil, or_false] at hmem
      obtain ⟨hdigit, htext, hdot⟩ := hno b hb
      rcases hmem with hmem | rfl | hmem | rfl
      · exact htext hmem
      · rw [hdigit] at hdigits
        cases hdigits.1
      · exact hdot hmem
      · rw [hdigit] at hdigits
        cases hdigits.2
    exact ⟨hout 32 (.inl rfl), hout 13 (.inr rfl)⟩
  · cases hdigits

/-- A well formed request is read as it was written. -/
theorem parseRequest_renderRequest {grammar : TargetGrammar} {r : Request} {rest : Bytes}
    (h : r.WellFormed grammar) : parseRequest grammar (renderRequest r ++ rest) = some (r, rest) := by
  have hmethod : 32 ∉ r.method ∧ 13 ∉ r.method := by
    have hall : r.method.all tokenByte = true := ((Bool.and_eq_true _ _).mp h.method).2
    exact ⟨not_mem_of_all hall (by decide), not_mem_of_all hall (by decide)⟩
  have htarget : ∀ b : UInt8, b < 33 → b ∉ r.target := by
    intro b hb hmem
    exact absurd (grammar.visible r.target h.target b hmem).1 (UInt8.not_le.mpr hb)
  have hversion := visible_of_httpVersion h.version
  have hpieces : ∀ piece ∈ [r.method, r.target, r.version], 32 ∉ piece := by
    simp only [List.mem_cons, List.not_mem_nil, or_false]
    rintro piece (rfl | rfl | rfl)
    · exact hmethod.1
    · exact htarget 32 (by decide)
    · exact hversion.1
  have hstart : parseRequestLine grammar (requestLine r) = some (r.method, r.target, r.version) := by
    have hsplit : Splitting.split [32] (requestLine r) = [r.method, r.target, r.version] := by
      have hjoined : Splitting.split [32] (List.intercalate [32] [r.method, r.target, r.version])
          = [r.method, r.target, r.version] := Splitting.split_intercalate (by simp) hpieces
      simpa [List.intercalate, requestLine] using hjoined
    unfold parseRequestLine
    rw [hsplit]
    exact if_pos ⟨h.method, h.target, h.version⟩
  have hlines : ∀ line ∈ requestLine r :: r.fields.map (fun f => renderField f [32] []),
      line ≠ [] ∧ 13 ∉ line := by
    intro line hline
    rcases List.mem_cons.mp hline with rfl | hline
    · refine ⟨by simp [requestLine], ?_⟩
      have hspace : (13 : UInt8) ≠ 32 := by decide
      simp only [requestLine, List.mem_append, List.mem_cons, hspace, false_or, not_or]
      exact ⟨hmethod.2, htarget 13 (by decide), hversion.2⟩
    · obtain ⟨f, hf, rfl⟩ := List.mem_map.mp hline
      exact renderField_legal (h.fields f hf) (by decide) rfl
  unfold parseRequest renderRequest
  rw [readLines_renderLines hlines]
  simp only [List.nil_append, hstart, Option.bind_some, parseFields_renderFields h.fields,
    Option.map_some]

/-! ## Responses -/

/-- A field line as it is sent, with the blanks around its value. -/
structure FieldLine where
  field : HeaderField
  before : Bytes
  after : Bytes
  wellFormed : field.wellFormed = true
  blanks : before.all blank = true ∧ after.all blank = true

def FieldLine.bytes (l : FieldLine) : Bytes := renderField l.field l.before l.after

/-- The head of a response. -/
structure Head where
  status : Nat
  reason : Bytes
  fields : List FieldLine
  digits : 100 ≤ status ∧ status < 1000
  legal : reason.all legalByte = true

def statusLine (status : Nat) (reason : Bytes) : Bytes :=
  bytesOf "HTTP/1.1 " ++ ((Nat.toDigits 10 status).map fun c => UInt8.ofNat c.toNat) ++ 32 :: reason

def Head.lines (h : Head) : List Bytes :=
  statusLine h.status h.reason :: h.fields.map FieldLine.bytes

def Head.bytes (h : Head) : Bytes := renderLines h.lines

/-- The values under a name in lower case. -/
def Head.valuesOf (h : Head) (name : String) : List Bytes :=
  (h.fields.filter fun l => l.field.name.map lowerByte = bytesOf name).map (·.field.value)

def hexNumber (digits : Bytes) : Nat :=
  digits.foldl (fun n b => 16 * n + if b ≤ 57 then b.toNat - 48 else (lowerByte b).toNat - 87) 0

/-- A chunk; what its extension means does not matter. -/
structure Chunk where
  size : Bytes
  extension : Bytes
  data : Bytes
  sized : size.all hexByte = true ∧ hexNumber size = data.length
  more : data ≠ []
  legal : extension.all legalByte = true

def Chunk.bytes (c : Chunk) : Bytes := c.size ++ c.extension ++ crlf ++ c.data ++ crlf

/-- What follows the data of the last chunk. -/
structure LastChunk where
  zeros : Bytes
  extension : Bytes
  trailers : List FieldLine
  sized : zeros ≠ [] ∧ zeros.all (· == 48) = true
  legal : extension.all legalByte = true

def LastChunk.bytes (c : LastChunk) : Bytes :=
  c.zeros ++ c.extension ++ crlf ++ renderLines (c.trailers.map FieldLine.bytes)

/-- A body, and how its end is found. -/
inductive Payload where
  | sized (body : Bytes)
  | chunked (chunks : List Chunk) (last : LastChunk)
  | untilClose (body : Bytes)

def Payload.bytes : Payload → Bytes
  | .sized body => body
  | .chunked chunks last => chunks.flatMap Chunk.bytes ++ last.bytes
  | .untilClose body => body

def Payload.body : Payload → Bytes
  | .sized body => body
  | .chunked chunks _ => chunks.flatMap Chunk.data
  | .untilClose body => body

def Payload.isChunked : Payload → Bool
  | .chunked _ _ => true
  | _ => false

def decimal (digits : Bytes) : Option Nat := parseDigits (digits.map charOfByte)

/-- The head announces the body. -/
def Payload.Announced (h : Head) : Payload → Prop
  | .sized body => h.valuesOf "transfer-encoding" = [] ∧
      (h.valuesOf "content-length").map decimal = [some body.length]
  | .chunked _ _ => h.valuesOf "content-length" = [] ∧
      (h.valuesOf "transfer-encoding").map (·.map lowerByte) = [bytesOf "chunked"]
  | .untilClose _ => h.valuesOf "content-length" = [] ∧ h.valuesOf "transfer-encoding" = []

/-- A final response with a body, and the interim ones before it. -/
structure Response where
  interim : List Head
  head : Head
  payload : Payload
  informational : ∀ h ∈ interim, h.status < 200
  final : 200 ≤ head.status ∧ head.status < 600
  carries : head.status ≠ 204 ∧ head.status ≠ 304
  announced : payload.Announced head

def Response.heads (r : Response) : Bytes := (r.interim ++ [r.head]).flatMap Head.bytes

def Response.bytes (r : Response) : Bytes := r.heads ++ r.payload.bytes

/-- The coding adds at least the line of the last chunk. -/
theorem Payload.length_body_lt {p : Payload} (h : p.isChunked = true) :
    p.body.length < p.bytes.length := by
  cases p with
  | sized body => cases h
  | untilClose body => cases h
  | chunked chunks last =>
      have hchunks : ∀ chunks : List Chunk,
          (chunks.flatMap Chunk.data).length ≤ (chunks.flatMap Chunk.bytes).length := by
        intro chunks
        induction chunks with
        | nil => exact le_rfl
        | cons c chunks ih =>
            simp only [List.flatMap_cons, List.length_append, Chunk.bytes]
            omega
      have hdata := hchunks chunks
      simp only [Payload.body, Payload.bytes, LastChunk.bytes, crlf, List.length_append,
        List.length_cons]
      omega

theorem digit_bounds {n : Nat} {c : Char} (h : c ∈ Nat.toDigits 10 n) :
    48 ≤ c.toNat ∧ c.toNat ≤ 57 := by
  have hdigit := Nat.isDigit_of_mem_toDigits (by omega) (by omega) h
  simp only [Char.isDigit, Bool.and_eq_true, decide_eq_true_eq, UInt32.le_iff_toNat_le] at hdigit
  exact hdigit

theorem Head.lines_legal (h : Head) : ∀ line ∈ h.lines, line ≠ [] ∧ 13 ∉ line := by
  intro line hline
  rcases List.mem_cons.mp hline with rfl | hline
  · refine ⟨by simp [statusLine], ?_⟩
    have hversion : (13 : UInt8) ∉ bytesOf "HTTP/1.1 " := by decide
    have hspace : (13 : UInt8) ≠ 32 := by decide
    have hreason := not_mem_of_all h.legal not_legalByte_return
    have hdigits : (13 : UInt8) ∉ (Nat.toDigits 10 h.status).map fun c => UInt8.ofNat c.toNat := by
      intro hmem
      obtain ⟨c, hc, hcode⟩ := List.mem_map.mp hmem
      obtain ⟨hlow, hhigh⟩ := digit_bounds hc
      have hvalue := congrArg UInt8.toNat hcode
      rw [UInt8.toNat_ofNat_of_lt' (hhigh.trans_lt (by decide))] at hvalue
      have hreturn : (13 : UInt8).toNat = 13 := by decide
      omega
    simp only [statusLine, List.mem_append, List.mem_cons, hspace, false_or, not_or]
    exact ⟨⟨hversion, hdigits⟩, hreason⟩
  · obtain ⟨l, -, rfl⟩ := List.mem_map.mp hline
    exact renderField_legal l.wellFormed l.blanks.1 l.blanks.2

/-! ## The first empty line -/

/-- The first place at which so many bytes stand. -/
def firstWindow (window : Bytes) : Bytes → Option Nat
  | [] => none
  | b :: rest =>
      if window.isPrefixOf (b :: rest) then some 0 else (firstWindow window rest).map (· + 1)

theorem firstWindow_append {window bytes : Bytes} {n : Nat} (more : Bytes)
    (h : firstWindow window bytes = some n) :
    firstWindow window (bytes ++ more) = some n ∧ n + window.length ≤ bytes.length := by
  induction bytes generalizing n with
  | nil => cases h
  | cons b rest ih =>
      rw [firstWindow] at h
      by_cases hfound : window.isPrefixOf (b :: rest) = true
      · rw [if_pos hfound] at h
        have hfront := List.isPrefixOf_iff_prefix.mp hfound
        have hlonger : window.isPrefixOf (b :: (rest ++ more)) = true :=
          List.isPrefixOf_iff_prefix.mpr (hfront.trans (List.prefix_append (b :: rest) more))
        rw [List.cons_append, firstWindow, if_pos hlonger, ← Option.some.inj h]
        exact ⟨rfl, by simpa using hfront.length_le⟩
      · rw [if_neg hfound] at h
        obtain ⟨m, hm, rfl⟩ := Option.map_eq_some_iff.mp h
        obtain ⟨hlater, hlength⟩ := ih hm
        have hother : ¬ window.isPrefixOf (b :: (rest ++ more)) = true := by
          intro hlonger
          have hfront := List.isPrefixOf_iff_prefix.mp hlonger
          refine hfound (List.isPrefixOf_iff_prefix.mpr ?_)
          refine List.prefix_of_prefix_length_le hfront (List.prefix_append (b :: rest) more) ?_
          rw [List.length_cons]
          omega
        rw [List.cons_append, firstWindow, if_neg hother, hlater, List.length_cons]
        exact ⟨rfl, by omega⟩

def headEnd : Bytes := crlf ++ crlf

/-- A line without a carriage return is passed over. -/
theorem firstWindow_headEnd_line {line rest : Bytes} (h : 13 ∉ line) :
    firstWindow headEnd (line ++ rest) = (firstWindow headEnd rest).map (· + line.length) := by
  induction line with
  | nil => simp
  | cons b line ih =>
      rw [List.mem_cons, not_or] at h
      have hother : headEnd.isPrefixOf (b :: (line ++ rest)) = false := by
        simp [headEnd, crlf, List.isPrefixOf, h.1]
      rw [List.cons_append, firstWindow, hother, ih h.2, if_neg (by decide), Option.map_map]
      rfl

/-- A head ends at the first empty line. -/
theorem firstWindow_renderLines {lines : List Bytes} (rest : Bytes) (hne : lines ≠ [])
    (h : ∀ line ∈ lines, line ≠ [] ∧ 13 ∉ line) :
    ∃ n, firstWindow headEnd (renderLines lines ++ rest) = some n ∧
      n + headEnd.length = (renderLines lines).length := by
  induction lines with
  | nil => exact absurd rfl hne
  | cons line lines ih =>
      have hline := (h line List.mem_cons_self).2
      have hsplit : renderLines (line :: lines) ++ rest
          = line ++ (crlf ++ (renderLines lines ++ rest)) := by
        simp only [renderLines, List.flatMap_cons, List.append_assoc]
      have hlength : (renderLines (line :: lines)).length
          = line.length + 2 + (renderLines lines).length := by
        simp [renderLines, crlf]
        omega
      rw [hsplit, firstWindow_headEnd_line hline, hlength]
      cases lines with
      | nil => exact ⟨line.length, by simp [renderLines, crlf, headEnd, firstWindow], rfl⟩
      | cons next lines =>
          obtain ⟨n, hn, hend⟩ := ih (List.cons_ne_nil _ _) fun l hl =>
            h l (List.mem_cons_of_mem _ hl)
          obtain ⟨hnext, hreturn⟩ := h next (List.mem_cons_of_mem _ List.mem_cons_self)
          obtain ⟨b, tail, rfl⟩ := List.exists_cons_of_ne_nil hnext
          rw [List.mem_cons, not_or] at hreturn
          have hpass : ∀ x : Bytes, firstWindow headEnd (crlf ++ b :: x)
              = (firstWindow headEnd (b :: x)).map (· + 2) := by
            intro x
            simp [firstWindow, headEnd, crlf, List.isPrefixOf, hreturn.1, Option.map_map,
              Function.comp_def]
          have hbegin : renderLines ((b :: tail) :: lines) ++ rest
              = b :: (tail ++ crlf ++ renderLines lines ++ rest) := by
            simp only [renderLines, List.flatMap_cons, List.cons_append, List.append_assoc]
          refine ⟨n + 2 + line.length, ?_, by omega⟩
          rw [hbegin, hpass, ← hbegin, hn]
          rfl

end HttpMessage
