import FullStackHex.Library.HttpMessage
import FullStackHex.Sidecar.Hmac

/-!
What `perform_request` of `py-sidecar/src/lib.rs` writes to the socket and how it reads the answer,
against the grammar of HTTP/1.1. How a server delimits requests follows the grammar only: a target
is what a grammar of targets accepts, whichever that is.
-/

namespace FullStackHex

open Codec Http HttpMessage

namespace Sidecar

/-! ## The request -/

/-- The text of a request, for the nonce that is drawn. -/
def requestText (path : String) (traceId : Option String) (auth : Option AuthHeaders)
    (nonce : Uuid) : String :=
  (requestLines traceId auth nonce.text).foldl
      (fun text line => text ++ line.1 ++ ": " ++ line.2 ++ "\r\n")
      ("GET " ++ path ++ " HTTP/1.1\r\n")
    ++ "\r\n"

/-- What is written after the checks. -/
def writeRequest (path : String) (traceId : Option String) (auth : Option AuthHeaders)
    (nonce : Uuid) : Except SidecarError Bytes :=
  (validateRequest path traceId auth).map fun _ => utf8 (requestText path traceId auth nonce)

/-- The request that the caller asks for. -/
def intended (path : String) (traceId : Option String) (auth : Option AuthHeaders)
    (nonce : Uuid) : Request where
  method := utf8 "GET"
  target := utf8 path
  version := utf8 "HTTP/1.1"
  fields := (requestLines traceId auth nonce.text).map fun line => ⟨utf8 line.1, utf8 line.2⟩

/-- The values that the caller gives as text. -/
def givenValues (traceId : Option String) (auth : Option AuthHeaders) : List String :=
  traceId.toList ++ auth.toList.flatMap fun a => [a.userId, a.email, a.name, a.signature]

/-- The bytes are this request, which has no body, and nothing else. -/
def ReadsAs (grammar : TargetGrammar) (bytes : Bytes) (r : Request) : Prop :=
  parseRequest grammar bytes = some (r, []) ∧ r.declaresBody = false

theorem utf8_foldl_lines (lines : List (String × String)) (start : String) :
    utf8 (lines.foldl (fun text line => text ++ line.1 ++ ": " ++ line.2 ++ "\r\n") start)
      = utf8 start ++ lines.flatMap fun line =>
          renderField ⟨utf8 line.1, utf8 line.2⟩ [32] [] ++ crlf := by
  induction lines generalizing start with
  | nil => rw [List.foldl_nil, List.flatMap_nil, List.append_nil]
  | cons line lines ih =>
      have hcolon : utf8 ": " = [58, 32] := by decide
      have hend : utf8 "\r\n" = crlf := by decide
      rw [List.foldl_cons, ih, List.flatMap_cons, ← List.append_assoc]
      congr 1
      simp only [utf8_append, hcolon, hend, renderField, List.append_nil, List.append_assoc,
        List.cons_append, List.nil_append]

/-- The text is the request of the caller as a request is written. -/
theorem utf8_requestText (path : String) (traceId : Option String) (auth : Option AuthHeaders)
    (nonce : Uuid) :
    utf8 (requestText path traceId auth nonce)
      = renderRequest (intended path traceId auth nonce) := by
  have hget : utf8 "GET " = utf8 "GET" ++ [32] := by decide
  have hversion : utf8 " HTTP/1.1\r\n" = 32 :: utf8 "HTTP/1.1" ++ crlf := by decide
  have hend : utf8 "\r\n" = crlf := by decide
  rw [requestText, utf8_append, utf8_foldl_lines, utf8_append, utf8_append, hget, hversion, hend]
  simp only [renderRequest, renderLines, requestLine, intended, List.flatMap_cons, List.map_map,
    List.flatMap_map, Function.comp_apply, List.append_assoc, List.cons_append, List.nil_append]

def fieldNames : List String :=
  ["Host", "Connection", "x-trace-id", "X-User-Id", "X-User-Email", "X-User-Name", "X-Timestamp",
    "X-Nonce", "X-Auth-Signature"]

theorem name_mem_fieldNames {traceId : Option String} {auth : Option AuthHeaders} {nonce : String}
    {line : String × String} (h : line ∈ requestLines traceId auth nonce) :
    line.1 ∈ fieldNames := by
  have hall : (requestLines traceId auth nonce).all (fun line => line.1 ∈ fieldNames) = true := by
    cases traceId with
    | none =>
        cases auth with
        | none => rfl
        | some a => rfl
    | some tid =>
        cases auth with
        | none => rfl
        | some a => rfl
  exact of_decide_eq_true (List.all_eq_true.mp hall line h)

theorem token_fieldNames : ∀ name ∈ fieldNames, token (utf8 name) = true :=
  List.all_eq_true.mp (by decide)

theorem declaresBody_intended (path : String) (traceId : Option String) (auth : Option AuthHeaders)
    (nonce : Uuid) : (intended path traceId auth nonce).declaresBody = false := by
  have hnames : ∀ name ∈ fieldNames, decide ((utf8 name).map lowerByte ∉
      [bytesOf "content-length", bytesOf "transfer-encoding"]) = true :=
    List.all_eq_true.mp (by decide)
  rw [Request.declaresBody, List.any_eq_false]
  intro f hf
  obtain ⟨line, hline, rfl⟩ := List.mem_map.mp hf
  have hname := of_decide_eq_true (hnames line.1 (name_mem_fieldNames hline))
  rwa [decide_eq_true_eq]

/-! ## The values -/

theorem fieldValue_of_printable {s : String} (h : ∀ c ∈ s.toList, 32 < c.toNat ∧ c.toNat < 127) :
    fieldValue (utf8 s) = true := by
  have hbytes : utf8 s = s.toList.map fun c => UInt8.ofNat c.toNat :=
    utf8_ascii fun c hc => (h c hc).2.trans (by omega)
  have hbyte : ∀ n < 127, 32 < n →
      legalByte (UInt8.ofNat n) = true ∧ HttpMessage.blank (UInt8.ofNat n) = false := by decide
  have hall : ∀ b ∈ utf8 s, legalByte b = true ∧ HttpMessage.blank b = false := by
    intro b hb
    rw [hbytes] at hb
    obtain ⟨c, hc, rfl⟩ := List.mem_map.mp hb
    exact hbyte c.toNat (h c hc).2 (h c hc).1
  rw [fieldValue, Bool.and_eq_true, List.all_eq_true, beq_iff_eq]
  exact ⟨fun b hb => (hall b hb).1, trimBy_eq_self fun b hb => (hall b hb).2⟩

theorem printable_uuid (u : Uuid) : ∀ c ∈ u.text.toList, 32 < c.toNat ∧ c.toNat < 127 := by
  intro c hc
  rcases u.char_cases hc with hdigit | rfl
  · simp only [isHexDigit, Bool.or_eq_true, Bool.and_eq_true, decide_eq_true_eq, Char.le_def,
      UInt32.le_iff_toNat_le] at hdigit
    have hbounds : '0'.toNat = 48 ∧ '9'.toNat = 57 ∧ 'a'.toNat = 97 ∧ 'f'.toNat = 102 ∧
        'A'.toNat = 65 ∧ 'F'.toNat = 70 := by decide
    simp only [Char.toNat] at *
    omega
  · decide

/-- What the code writes on its own is legal. -/
theorem fieldValue_requestLines {traceId : Option String} {auth : Option AuthHeaders}
    {nonce : Uuid} :
    (∀ line ∈ requestLines traceId auth nonce.text, fieldValue (utf8 line.2) = true) ↔
      ∀ value ∈ givenValues traceId auth, fieldValue (utf8 value) = true := by
  have hhost : fieldValue (utf8 "localhost") = true := by decide
  have hclose : fieldValue (utf8 "close") = true := by decide
  have hnonce : fieldValue (utf8 nonce.text) = true := fieldValue_of_printable (printable_uuid nonce)
  have htime : ∀ n : Nat, fieldValue (utf8 (n : Int).repr) = true := by
    intro n
    rw [← Int.toString_eq_repr]
    exact fieldValue_of_printable (printable_toString n)
  cases traceId with
  | none =>
      cases auth with
      | none => simp [requestLines, givenValues, hhost, hclose]
      | some a => simp [requestLines, givenValues, hhost, hclose, hnonce, htime]
  | some tid =>
      cases auth with
      | none => simp [requestLines, givenValues, hhost, hclose]
      | some a => simp [requestLines, givenValues, hhost, hclose, hnonce, htime]

theorem wellFormed_intended_iff {grammar : TargetGrammar} {path : String} {traceId : Option String}
    {auth : Option AuthHeaders} {nonce : Uuid} :
    (intended path traceId auth nonce).WellFormed grammar ↔
      grammar.accepts (utf8 path) = true ∧
        ∀ value ∈ givenValues traceId auth, fieldValue (utf8 value) = true := by
  rw [← @fieldValue_requestLines traceId auth nonce]
  constructor
  · intro h
    refine ⟨h.target, fun line hline => ?_⟩
    have hfield := h.fields _ (List.mem_map_of_mem hline)
    exact ((Bool.and_eq_true _ _).mp hfield).2
  · rintro ⟨htarget, hvalues⟩
    refine ⟨(show token (utf8 "GET") = true by decide), htarget,
      (show httpVersion (utf8 "HTTP/1.1") = true by decide), fun f hf => ?_⟩
    obtain ⟨line, hline, rfl⟩ := List.mem_map.mp hf
    exact (Bool.and_eq_true _ _).mpr
      ⟨token_fieldNames line.1 (name_mem_fieldNames hline), hvalues line hline⟩

/-- For accepted arguments, what is written is the intended request exactly when the path is a
request target and every given value is a field value: no control character but the tab, and no
blank at either end. -/
theorem writeRequest_readsAs_iff {grammar : TargetGrammar} {path : String}
    {traceId : Option String} {auth : Option AuthHeaders} {nonce : Uuid} {bytes : Bytes}
    (h : writeRequest path traceId auth nonce = .ok bytes) :
    ReadsAs grammar bytes (intended path traceId auth nonce) ↔
      grammar.accepts (utf8 path) = true ∧
        ∀ value ∈ givenValues traceId auth, fieldValue (utf8 value) = true := by
  have hbytes : bytes = renderRequest (intended path traceId auth nonce) := by
    rw [← utf8_requestText]
    unfold writeRequest at h
    cases hvalid : validateRequest path traceId auth with
    | error e =>
        rw [hvalid] at h
        cases h
    | ok _ =>
        rw [hvalid] at h
        exact (Except.ok.inj h).symm
  rw [← @wellFormed_intended_iff grammar path traceId auth nonce]
  constructor
  · rintro ⟨hparse, -⟩
    exact Request.wellFormed_of_parse hparse
  · intro hlegal
    have hparse := @parseRequest_renderRequest _ _ [] hlegal
    rw [List.append_nil, ← hbytes] at hparse
    exact ⟨hparse, declaresBody_intended path traceId auth nonce⟩

namespace Sample

def nonce : Uuid := ⟨"6f9619ff-8b86-4011-b42d-00cf4fc964ff", by decide⟩

def jose : AuthHeaders := ⟨"u1", "a@b.c", "José", 1700000000, "2f2facfe"⟩

end Sample

theorem writeRequest_readsAs_sample :
    ReadsAs originForm (utf8 (requestText "/health" (some "t-1") (some Sample.jose) Sample.nonce))
      (intended "/health" (some "t-1") (some Sample.jose) Sample.nonce) := by
  have hwritten : writeRequest "/health" (some "t-1") (some Sample.jose) Sample.nonce
      = .ok (utf8 (requestText "/health" (some "t-1") (some Sample.jose) Sample.nonce)) := by
    decide +kernel
  exact (writeRequest_readsAs_iff hwritten).mpr
    ⟨by decide, List.all_eq_true.mp (by decide +kernel)⟩

/-- A path with a space: no request line has four parts. -/
theorem spacedPath_no_request :
    writeRequest "/a b" none none Sample.nonce
        = .ok (utf8 (requestText "/a b" none none Sample.nonce)) ∧
      parseRequest originForm (utf8 (requestText "/a b" none none Sample.nonce)) = none := by
  decide +kernel

/-! ## The answer -/

def maxResponseSize : Nat := 1048576

def overreadBy : Nat := 1

/-- What the server sends, and the error that reading ends with, if it does not end with the
stream. -/
structure Delivery where
  bytes : Bytes
  failure : Option String

/-- `take(limit).read_to_end`. -/
def readToEnd (limit : Nat) (d : Delivery) : Except SidecarError Bytes :=
  if limit ≤ d.bytes.length then .ok (d.bytes.take limit)
  else
    match d.failure with
    | some message => .error (.connectionFailed message)
    | none => .ok d.bytes

/-- `lines().next()`. -/
def firstLine (text : List Char) : Option (List Char) :=
  let line := text.takeWhile (· ≠ '\n')
  if text = [] then none
  else if line = text then some line
  else some (if line.getLast? = some '\r' then line.dropLast else line)

/-- `split_whitespace`. -/
def splitWhitespace (line : List Char) : List (List Char) :=
  (line.splitOnP isWhiteSpace).filter (· ≠ [])

/-- `parse::<u16>`. -/
def parseU16 (digits : List Char) : Option UInt16 :=
  (parseDigits (if digits.head? = some '+' then digits.tail else digits)).bind fun n =>
    if n < 65536 then some (UInt16.ofNat n) else none

/-- The second word of the status line, or 502. -/
def statusCode (headers : String) : UInt16 :=
  let status := (firstLine headers.toList).bind fun statusLine =>
    match splitWhitespace statusLine with
    | _ :: second :: _ => parseU16 second
    | _ => none
  status.getD 502

/-- The status and the body of what was read. -/
def parseResponse (response : Bytes) : Except SidecarError (UInt16 × Bytes) :=
  if maxResponseSize < response.length then
    .error (.invalidResponse "response exceeded maximum allowed size")
  else
    match firstWindow (utf8 "\r\n\r\n") response with
    | none => .error (.invalidResponse "missing HTTP header separator")
    | some p =>
        let bodyStart := p + 4
        let body := response.drop bodyStart
        match fromUtf8 (response.take bodyStart) with
        | none => .error (.invalidResponse (utf8Error (response.take bodyStart)))
        | some headers => .ok (statusCode headers, body)

/-- What `perform_request` makes of the answer. -/
def readResponse (d : Delivery) : Except SidecarError (UInt16 × Bytes) :=
  (readToEnd (maxResponseSize + overreadBy) d).bind parseResponse

/-! ## What it reads -/

theorem firstLine_append {front tail : List Char} {last : Char}
    (hline : '\n' ∉ front ++ [last]) (hlast : last ≠ '\r') :
    ∃ rest, firstLine (front ++ [last] ++ tail) = some (front ++ [last] ++ rest) := by
  have htake : (front ++ [last] ++ tail).takeWhile (· ≠ '\n')
      = front ++ [last] ++ tail.takeWhile (· ≠ '\n') := by
    apply List.takeWhile_append_of_pos
    intro c hc
    rw [decide_eq_true_eq]
    rintro rfl
    exact hline hc
  unfold firstLine
  rw [htake, if_neg (by simp)]
  split
  · exact ⟨_, rfl⟩
  · split
    · rename_i hreturn
      have hne : tail.takeWhile (· ≠ '\n') ≠ [] := by
        intro hempty
        rw [hempty, List.append_nil, List.getLast?_concat] at hreturn
        exact hlast (Option.some.inj hreturn)
      exact ⟨_, by rw [List.dropLast_append_of_ne_nil hne]⟩
    · exact ⟨_, rfl⟩

theorem plain_digit {n : Nat} {c : Char} (h : c ∈ Nat.toDigits 10 n) :
    isWhiteSpace c = false ∧ c.toNat < 128 ∧ c ≠ '\n' ∧ c ≠ '+' := by
  obtain ⟨hlow, hhigh⟩ := digit_bounds h
  refine ⟨?_, by omega, ?_, ?_⟩
  · simp only [isWhiteSpace, Bool.or_eq_false_iff, Bool.and_eq_false_iff, decide_eq_false_iff_not,
      beq_eq_false_iff_ne]
    omega
  · rintro rfl
    exact absurd hlow (by decide)
  · rintro rfl
    exact absurd hlow (by decide)

theorem parseU16_toDigits {n : Nat} (h : n < 65536) :
    parseU16 (Nat.toDigits 10 n) = some (UInt16.ofNat n) := by
  have hsign : (Nat.toDigits 10 n).head? ≠ some '+' := by
    intro hhead
    exact (plain_digit (List.mem_of_mem_head? hhead)).2.2.2 rfl
  rw [parseU16, if_neg hsign, parseDigits_toDigits, Option.bind_some, if_pos h]

/-- The status of a status line. -/
theorem statusCode_of_head {h : Head} {text : String} (htext : fromUtf8 h.bytes = some text) :
    statusCode text = UInt16.ofNat h.status := by
  have hbytes := utf8_of_fromUtf8 htext
  have hsmall := h.digits
  obtain ⟨front, hfront⟩ : ∃ front, front = "HTTP/1.1".toList ++ ' ' :: Nat.toDigits 10 h.status :=
    ⟨_, rfl⟩
  have hversion : ∀ c ∈ "HTTP/1.1".toList, isWhiteSpace c = false ∧ c.toNat < 128 ∧ c ≠ '\n' :=
    fun c hc => of_decide_eq_true (List.all_eq_true.mp (show "HTTP/1.1".toList.all
      (fun c => isWhiteSpace c = false ∧ c.toNat < 128 ∧ c ≠ '\n') = true by decide) c hc)
  have hascii : ∀ c ∈ front ++ [' '], c.toNat < 128 ∧ c ≠ '\n' := by
    intro c hc
    rw [hfront] at hc
    simp only [List.mem_append, List.mem_cons, List.not_mem_nil, or_false] at hc
    rcases hc with (hc | rfl | hc) | rfl
    · exact (hversion c hc).2
    · decide
    · exact ⟨(plain_digit hc).2.1, (plain_digit hc).2.2.1⟩
    · decide
  obtain ⟨tail, htail⟩ : ∃ tail, text.toList = front ++ [' '] ++ tail := by
    obtain ⟨after, hafter⟩ : ∃ after, h.bytes
        = ((front ++ [' ']).map fun c => UInt8.ofNat c.toNat) ++ after := by
      have htag : bytesOf "HTTP/1.1 " = ("HTTP/1.1".toList ++ [' ']).map fun c =>
          UInt8.ofNat c.toNat := by decide
      have hspace : UInt8.ofNat ' '.toNat = 32 := by decide
      refine ⟨h.reason ++ crlf ++ renderLines (h.fields.map FieldLine.bytes), ?_⟩
      rw [hfront]
      simp only [Head.bytes, Head.lines, renderLines, statusLine, htag, List.flatMap_cons,
        List.map_append, List.map_cons, List.map_nil, List.append_assoc, List.cons_append,
        List.nil_append, hspace]
    exact toList_of_utf8_ascii (fun c hc => (hascii c hc).1) (hbytes.trans hafter)
  obtain ⟨rest, hrest⟩ := @firstLine_append front tail ' ' (fun hc => (hascii _ hc).2 rfl) (by decide)
  have hwords : splitWhitespace (front ++ [' '] ++ rest)
      = "HTTP/1.1".toList :: Nat.toDigits 10 h.status
        :: (rest.splitOnP isWhiteSpace).filter (· ≠ []) := by
    have hline : front ++ [' '] ++ rest
        = "HTTP/1.1".toList ++ ' ' :: (Nat.toDigits 10 h.status ++ ' ' :: rest) := by
      rw [hfront]
      simp only [List.append_assoc, List.cons_append, List.nil_append]
    have hspace : isWhiteSpace ' ' = true := by decide
    unfold splitWhitespace
    rw [hline, List.splitOnP_append_cons_of_forall_mem (fun c hc => (hversion c hc).1) ' ' hspace,
      List.splitOnP_append_cons_of_forall_mem (fun c hc => (plain_digit hc).1) ' ' hspace, List.filter_cons_of_pos (by simp),
      List.filter_cons_of_pos (by simp [Nat.toDigits_ne_nil])]
  unfold statusCode
  rw [htail, hrest, Option.bind_some, hwords]
  simp only [parseU16_toDigits (show h.status < 65536 by omega), Option.getD_some]

/-- The head that is read as that of the answer. -/
def firstHead (r : Response) : Head := r.interim.headD r.head

/-- What follows it. -/
def afterFirst (r : Response) : Bytes :=
  ((r.interim ++ [r.head]).tail).flatMap Head.bytes ++ r.payload.bytes

theorem bytes_eq_first (r : Response) : r.bytes = (firstHead r).bytes ++ afterFirst r := by
  rw [Response.bytes, Response.heads, firstHead, afterFirst]
  cases r.interim with
  | nil => simp
  | cons h rest => simp

theorem headEnd_eq : utf8 "\r\n\r\n" = headEnd := by decide

theorem firstWindow_head (h : Head) (rest : Bytes) :
    ∃ n, firstWindow headEnd (h.bytes ++ rest) = some n ∧ n + 4 = h.bytes.length :=
  firstWindow_renderLines rest (List.cons_ne_nil _ _) h.lines_legal

section Reading

variable {d : Delivery} {r : Response}

theorem readResponse_large (h : maxResponseSize < d.bytes.length) :
    ∃ e, readResponse d = .error e := by
  have hread : readToEnd (maxResponseSize + overreadBy) d
      = .ok (d.bytes.take (maxResponseSize + overreadBy)) := if_pos h
  have hlength : maxResponseSize < (d.bytes.take (maxResponseSize + overreadBy)).length := by
    rw [List.length_take, overreadBy]
    omega
  refine ⟨.invalidResponse "response exceeded maximum allowed size", ?_⟩
  rw [readResponse, hread]
  exact if_pos hlength

theorem readResponse_small (h : d.bytes.length ≤ maxResponseSize) :
    readResponse d = match d.failure with
      | some message => .error (.connectionFailed message)
      | none => parseResponse d.bytes := by
  have hread : ¬ maxResponseSize + overreadBy ≤ d.bytes.length := by
    rw [overreadBy]
    omega
  rw [readResponse, readToEnd, if_neg hread]
  cases d.failure with
  | none => rfl
  | some message => rfl

/-- A head and what follows it are told apart. -/
theorem parseResponse_head {h : Head} {rest : Bytes}
    (hlength : (h.bytes ++ rest).length ≤ maxResponseSize) :
    parseResponse (h.bytes ++ rest) = match fromUtf8 h.bytes with
      | none => .error (.invalidResponse (utf8Error h.bytes))
      | some _ => .ok (UInt16.ofNat h.status, rest) := by
  obtain ⟨n, hn, hend⟩ := firstWindow_head h rest
  unfold parseResponse
  rw [if_neg (by omega), headEnd_eq, hn]
  simp only [hend, List.take_left, List.drop_left]
  cases htext : fromUtf8 h.bytes with
  | none => rfl
  | some text => simp only [statusCode_of_head htext]

theorem parseResponse_headless {bytes : Bytes} (hlength : bytes.length ≤ maxResponseSize)
    (h : firstWindow headEnd bytes = none) :
    parseResponse bytes = .error (.invalidResponse "missing HTTP header separator") := by
  unfold parseResponse
  rw [if_neg (by omega), headEnd_eq, h]

/-- Before the first head has arrived, no head has. -/
theorem firstWindow_cut {bytes : Bytes} (hpart : bytes <+: r.bytes)
    (h : ¬ (firstHead r).bytes <+: bytes) : firstWindow headEnd bytes = none := by
  obtain ⟨more, hmore⟩ := hpart
  obtain ⟨n, hn, hend⟩ := firstWindow_head (firstHead r) (afterFirst r)
  cases hfound : firstWindow headEnd bytes with
  | none => rfl
  | some m =>
      exfalso
      obtain ⟨hm, hlength⟩ := firstWindow_append more hfound
      have hsplit := bytes_eq_first r
      rw [hmore, hsplit, hn] at hm
      have hsame := Option.some.inj hm
      have hfour : headEnd.length = 4 := rfl
      refine h (List.prefix_of_prefix_length_le ?_ ⟨more, hmore⟩ (by omega))
      exact hsplit ▸ List.prefix_append _ _

/-! ## Whole answers and cut ones -/

/-- All of the answer, and then the end of the stream. -/
def Complete (r : Response) (d : Delivery) : Prop := d.bytes = r.bytes ∧ d.failure = none

/-- Less than the answer as it is framed. One that ends with the stream is cut short within its
heads or by a failure. -/
def CutShort (r : Response) (d : Delivery) : Prop :=
  match r.payload with
  | .untilClose _ => ¬ r.heads <+: d.bytes ∨ d.failure ≠ none
  | _ => d.bytes ≠ r.bytes

/-- Whole answers are returned, others are errors. -/
def ReadsRight (r : Response) (d : Delivery) : Prop :=
  (Complete r d → r.bytes.length ≤ maxResponseSize →
      readResponse d = .ok (UInt16.ofNat r.head.status, r.payload.body)) ∧
    (CutShort r d ∨ maxResponseSize < d.bytes.length → ∃ e, readResponse d = .error e)

/-- A whole answer has no interim responses, a head in UTF-8 and no chunks; one that is cut short
ends with a failure, or within its first head, or that head is not UTF-8. -/
def Readable (r : Response) (d : Delivery) : Prop :=
  (Complete r d → r.bytes.length ≤ maxResponseSize →
      r.interim = [] ∧ (fromUtf8 r.head.bytes).isSome ∧ r.payload.isChunked = false) ∧
    (CutShort r d → d.bytes.length ≤ maxResponseSize →
      d.failure ≠ none ∨ ¬ (firstHead r).bytes <+: d.bytes ∨ fromUtf8 (firstHead r).bytes = none)

theorem status_small (h : Head) : h.status < 65536 := by
  have hdigits := h.digits
  omega

/-- What a whole answer is read as is right if it starts with the final head and its body is sent
as it is. -/
theorem first_right_iff {text : String} (htext : fromUtf8 (firstHead r).bytes = some text) :
    (UInt16.ofNat (firstHead r).status = UInt16.ofNat r.head.status ∧
        afterFirst r = r.payload.body) ↔
      r.interim = [] ∧ (fromUtf8 r.head.bytes).isSome ∧ r.payload.isChunked = false := by
  cases hinterim : r.interim with
  | cons h rest =>
      have hfirst : firstHead r = h := by rw [firstHead, hinterim, List.headD_cons]
      have hlow := r.informational h (hinterim ▸ List.mem_cons_self)
      constructor
      · rintro ⟨hstatus, -⟩
        have hvalue := congrArg UInt16.toNat hstatus
        rw [hfirst, UInt16.toNat_ofNat_of_lt' (status_small h),
          UInt16.toNat_ofNat_of_lt' (status_small r.head)] at hvalue
        have hfinal := r.final.1
        omega
      · rintro ⟨hnone, -⟩
        cases hnone
  | nil =>
      have hfirst : firstHead r = r.head := by rw [firstHead, hinterim, List.headD_nil]
      have hafter : afterFirst r = r.payload.bytes := by simp [afterFirst, hinterim]
      rw [hfirst] at htext ⊢
      rw [hafter, htext]
      simp only [true_and, Option.isSome_some]
      cases hpayload : r.payload with
      | sized body => exact iff_of_true rfl rfl
      | untilClose body => exact iff_of_true rfl rfl
      | chunked chunks last =>
          have hlonger := @Payload.length_body_lt (.chunked chunks last) rfl
          refine iff_of_false (fun hsame => ?_) (by rw [Payload.isChunked]; decide)
          rw [hsame] at hlonger
          omega

/-- Where the first head has arrived and is UTF-8, the rest is the body. -/
theorem readsRight_of_text {text : String} {rest : Bytes} (hsmall : d.bytes.length ≤ maxResponseSize)
    (hfailure : d.failure = none) (hrest : (firstHead r).bytes ++ rest = d.bytes)
    (htext : fromUtf8 (firstHead r).bytes = some text)
    (hread : readResponse d = .ok (UInt16.ofNat (firstHead r).status, rest)) :
    ReadsRight r d ↔ Readable r d := by
  have hpair : Complete r d →
      (readResponse d = .ok (UInt16.ofNat r.head.status, r.payload.body) ↔ r.interim = [] ∧
        (fromUtf8 r.head.bytes).isSome ∧ r.payload.isChunked = false) := by
    intro hcomplete
    have hsame := hrest.trans (hcomplete.1.trans (bytes_eq_first r))
    rw [hread, Except.ok.injEq, Prod.mk.injEq, List.append_cancel_left hsame]
    exact first_right_iff htext
  have hnoerror : ¬ ∃ e, readResponse d = .error e := by
    rintro ⟨e, he⟩
    rw [he] at hread
    cases hread
  constructor
  · intro hright
    refine ⟨fun hcomplete hwhole => (hpair hcomplete).mp (hright.1 hcomplete hwhole), ?_⟩
    intro hcut _
    exact absurd (hright.2 (.inl hcut)) hnoerror
  · intro hreadable
    refine ⟨fun hcomplete hwhole => (hpair hcomplete).mpr (hreadable.1 hcomplete hwhole), ?_⟩
    rintro (hcut | hmore)
    · rcases hreadable.2 hcut hsmall with hfail | habsent | hutf8
      · exact absurd hfailure hfail
      · exact absurd ⟨rest, hrest⟩ habsent
      · rw [htext] at hutf8
        cases hutf8
    · omega

/-- An answer of which a part arrives is read right exactly when it is readable. -/
theorem readsRight_iff (hpart : d.bytes <+: r.bytes) : ReadsRight r d ↔ Readable r d := by
  by_cases hlarge : maxResponseSize < d.bytes.length
  · have herror := readResponse_large hlarge
    have hnot : ∀ {p : Prop}, Complete r d → r.bytes.length ≤ maxResponseSize → p := by
      intro p hcomplete hsmall
      rw [← hcomplete.1] at hsmall
      omega
    exact iff_of_true ⟨hnot, fun _ => herror⟩ ⟨hnot, fun _ hsmall => by omega⟩
  rw [not_lt] at hlarge
  have hread := readResponse_small hlarge
  cases hfailure : d.failure with
  | some message =>
      rw [hfailure] at hread
      have hnot : ∀ {p : Prop}, Complete r d → r.bytes.length ≤ maxResponseSize → p := by
        intro p hcomplete _
        rw [hcomplete.2] at hfailure
        cases hfailure
      refine iff_of_true ⟨hnot, fun _ => ⟨_, hread⟩⟩ ⟨hnot, fun _ _ => .inl ?_⟩
      rw [hfailure]
      exact Option.some_ne_none message
  | none =>
      rw [hfailure] at hread
      simp only at hread
      by_cases hfirst : (firstHead r).bytes <+: d.bytes
      · obtain ⟨rest, hrest⟩ := hfirst
        rw [← hrest, parseResponse_head (hrest ▸ hlarge)] at hread
        cases htext : fromUtf8 (firstHead r).bytes with
        | some text =>
            rw [htext] at hread
            exact readsRight_of_text hlarge hfailure hrest htext hread
        | none =>
            rw [htext] at hread
            constructor
            · intro hright
              refine ⟨fun hcomplete hsmall => ?_, fun _ _ => .inr (.inr htext)⟩
              rw [hright.1 hcomplete hsmall] at hread
              cases hread
            · intro hreadable
              refine ⟨fun hcomplete hsmall => ?_, fun _ => ⟨_, hread⟩⟩
              obtain ⟨hinterim, hutf8, -⟩ := hreadable.1 hcomplete hsmall
              rw [firstHead, hinterim, List.headD_nil] at htext
              rw [htext] at hutf8
              cases hutf8
      · rw [parseResponse_headless hlarge (firstWindow_cut hpart hfirst)] at hread
        have hnot : ∀ {p : Prop}, Complete r d → r.bytes.length ≤ maxResponseSize → p := by
          intro p hcomplete _
          refine absurd ?_ hfirst
          rw [hcomplete.1, bytes_eq_first r]
          exact List.prefix_append _ _
        exact iff_of_true ⟨hnot, fun _ => ⟨_, hread⟩⟩ ⟨hnot, fun _ _ => .inr (.inl hfirst)⟩

end Reading

namespace Sample

def fieldLine (name value : String)
    (h : (HeaderField.mk (bytesOf name) (bytesOf value)).wellFormed = true) : FieldLine where
  field := ⟨bytesOf name, bytesOf value⟩
  before := [32]
  after := []
  wellFormed := h
  blanks := by decide

/-- Two bytes under a Content-Length. -/
def sizedAnswer : Response where
  interim := []
  head := ⟨200, bytesOf "OK", [fieldLine "Content-Length" "2" (by decide)], by decide, by decide⟩
  payload := .sized (bytesOf "ok")
  informational := by simp
  final := by decide
  carries := by decide
  announced := ⟨by decide, by decide⟩

/-- The same two bytes in a chunk. -/
def chunkedAnswer : Response where
  interim := []
  head := ⟨200, bytesOf "OK", [fieldLine "Transfer-Encoding" "chunked" (by decide)], by decide,
    by decide⟩
  payload := .chunked [⟨bytesOf "2", [], bytesOf "ok", by decide, by decide, by decide⟩]
    ⟨bytesOf "0", [], [], by decide, by decide⟩
  informational := by simp
  final := by decide
  carries := by decide
  announced := ⟨by decide, by decide⟩

end Sample

theorem readsRight_sample : ReadsRight Sample.sizedAnswer ⟨Sample.sizedAnswer.bytes, none⟩ := by
  refine (readsRight_iff (List.prefix_refl _)).mpr ⟨fun _ _ => ?_, fun hcut _ => absurd rfl hcut⟩
  exact ⟨rfl, by decide +kernel, rfl⟩

/-- Of a chunk also its size line is returned, and of two bytes one is enough. -/
theorem readResponse_wrong :
    readResponse ⟨Sample.chunkedAnswer.bytes, none⟩
        = .ok (200, bytesOf "2\r\nok\r\n0\r\n\r\n") ∧
      Sample.chunkedAnswer.payload.body = bytesOf "ok" ∧
      readResponse ⟨Sample.sizedAnswer.bytes.dropLast, none⟩ = .ok (200, bytesOf "o") := by
  decide +kernel

end Sidecar

end FullStackHex
