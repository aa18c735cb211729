import FullStackHex.Domain
import FullStackHex.Library.Expiring
import FullStackHex.Library.Header
import FullStackHex.Library.JsonText

/-!
The identity that the backend forwards to the Python sidecar: how it is signed
(`auth/src/middleware.rs`), sent (`py-sidecar/src/lib.rs`) and checked
(`py-api/app/main.py`). HMAC-SHA256 is a parameter, one function on both sides.
-/

namespace FullStackHex

open Codec Http JsonText Expiring

/-! ## The backend -/

abbrev Mac := (key message : List UInt8) → Vector UInt8 32

def hexEncode (bytes : List UInt8) : String :=
  String.ofList (bytes.flatMap fun b => [Nat.digitChar (b.toNat / 16), Nat.digitChar (b.toNat % 16)])

def literal (text : String) : List Char := text.toList

/-- The JSON object of an identity, its keys in order, for one way to write a string. -/
def identityPayload (quote : List Char → List Char) (userId email name : List Char)
    (timestamp : Int) : String :=
  String.ofList (literal "\x7b\"email\":" ++ quote email ++ literal ",\"name\":" ++ quote name
    ++ literal ",\"timestamp\":" ++ (toString timestamp).toList ++ literal ",\"user_id\":"
    ++ quote userId ++ literal "\x7d")

def computeAuthSignature (mac : Mac) (secret userId email name : String) (timestamp : UInt64) :
    Except ApiError String :=
  if secret = "" then .error (.internalError "SIDECAR_SHARED_SECRET is empty")
  else
    let payload := identityPayload quote userId.toList email.toList name.toList
      timestamp.toNat
    .ok (hexEncode (mac (utf8 secret) (utf8 payload)).toList)

inductive SidecarError where
  | socketNotFound (path : List UInt8)
  | connectionFailed (message : String)
  | timeout (limit : Duration)
  | invalidResponse (message : String)
  | invalidInput (message : String)
  | httpError (status : UInt16) (body : String)
  deriving DecidableEq, Repr

def validateHeaderValue (name value : String) : Except SidecarError Unit :=
  if value.toList.contains '\r' || value.toList.contains '\n' then
    .error (.invalidInput (name ++ " contains invalid characters"))
  else if 256 < value.utf8ByteSize then
    .error (.invalidInput (name ++ " exceeds maximum length (256 bytes)"))
  else .ok ()

structure AuthHeaders where
  userId : String
  email : String
  name : String
  timestamp : UInt64
  signature : String

/-- The header lines of a request. -/
def requestLines (traceId : Option String) (auth : Option AuthHeaders) (nonce : String) :
    List (String × String) :=
  let trace := match traceId with
    | some tid => [("x-trace-id", tid)]
    | none => []
  let identity := match auth with
    | some a => [("X-User-Id", a.userId), ("X-User-Email", a.email), ("X-User-Name", a.name),
        ("X-Timestamp", toString (a.timestamp.toNat : Int)), ("X-Nonce", nonce),
        ("X-Auth-Signature", a.signature)]
    | none => []
  [("Host", "localhost"), ("Connection", "close")] ++ trace ++ identity

/-- What `perform_request` checks before it writes. -/
def validateRequest (path : String) (traceId : Option String) (auth : Option AuthHeaders) :
    Except SidecarError Unit := do
  validateHeaderValue "path" path
  if let some tid := traceId then
    validateHeaderValue "trace_id" tid
  if let some a := auth then
    validateHeaderValue "X-User-Id" a.userId
    validateHeaderValue "X-User-Email" a.email
    validateHeaderValue "X-User-Name" a.name
    validateHeaderValue "X-Auth-Signature" a.signature

/-- The header lines that `perform_request` writes, for the nonce it draws. -/
def performRequest (path : String) (traceId : Option String) (auth : Option AuthHeaders)
    (nonce : String) : Except SidecarError (List (String × String)) :=
  (validateRequest path traceId auth).map fun _ => requestLines traceId auth nonce

/-! ## The HTTP server of the sidecar -/

def blankByte (b : UInt8) : Bool := b == 32 || b == 9

/-- The bytes of a value without the blanks around it, read as Latin-1. -/
def deliver (value : String) : String := textOf (trimBy blankByte (utf8 value))

def lower (name : String) : String := String.ofList (name.toList.map Char.toLower)

/-- Names in lower case. -/
def delivered (lines : List (String × String)) : List (String × String) :=
  lines.map fun line => (lower line.1, deliver line.2)

/-! ## The sidecar -/

/-- `headers.get(name, "")` of a dict: the last value under a name. -/
def headerOf (headers : List (String × String)) (name : String) : String :=
  ((headers.reverse.find? fun h => h.1 = name).map Prod.snd).getD ""

/-- The white space of Python among the first 256 characters. -/
def pySpace (c : Char) : Bool :=
  let n := c.toNat
  (9 ≤ n && n ≤ 13) || (28 ≤ n && n ≤ 32) || n == 0x85 || n == 0xa0

/-- Digits, with single underscores between them. -/
def pyDigits (value : Nat) : List Char → Option Nat
  | [] => some value
  | '_' :: c :: rest =>
      if c.isDigit then pyDigits (10 * value + (c.toNat - '0'.toNat)) rest else none
  | c :: rest => if c.isDigit then pyDigits (10 * value + (c.toNat - '0'.toNat)) rest else none

/-- At most 4300 digits, of which the first is no underscore. -/
def pyNumber (cs : List Char) : Option Nat :=
  if cs.head?.any Char.isDigit && (cs.filter Char.isDigit).length ≤ 4300 then pyDigits 0 cs
  else none

/-- `int(text)`; `none` is a ValueError. -/
def pyInt (text : String) : Option Int :=
  match trimBy pySpace text.toList with
  | '-' :: cs => (pyNumber cs).map fun n => -(n : Int)
  | '+' :: cs => (pyNumber cs).map Int.ofNat
  | cs => (pyNumber cs).map Int.ofNat

/-- The 401 answers. -/
inductive Rejection where
  | notConfigured
  | missingHeaders
  | expired
  | badTimestamp
  | badSignature
  | duplicate
  | degraded
  deriving DecidableEq, Repr

def Rejection.message : Rejection → String
  | .notConfigured => "SIDECAR_SHARED_SECRET not configured — rejecting all requests"
  | .missingHeaders => "Missing auth headers"
  | .expired => "Request expired"
  | .badTimestamp => "Missing or invalid timestamp"
  | .badSignature => "Invalid auth signature"
  | .duplicate => "Duplicate request"
  | .degraded => "Auth service degraded"

structure Settings where
  sharedSecret : String
  failOpenOnRedisError : Bool

/-- Everything up to the nonce: secret, headers, timestamp (in seconds, like `now`), signature.
`compare_digest` raises on a signature that is not ASCII; that is no match either. -/
def checkSignature (mac : Mac) (settings : Settings) (headers : List (String × String))
    (now : Int) : Except Rejection Unit :=
  let userId := headerOf headers "x-user-id"
  let email := headerOf headers "x-user-email"
  let name := headerOf headers "x-user-name"
  let signature := headerOf headers "x-auth-signature"
  if settings.sharedSecret = "" then .error .notConfigured
  else if userId = "" || email = "" || signature = "" then .error .missingHeaders
  else
    match pyInt (headerOf headers "x-timestamp") with
    | none => .error .badTimestamp
    | some ts =>
        let payload := identityPayload quoteAscii userId.toList email.toList name.toList ts
        let expected := hexEncode (mac (utf8 settings.sharedSecret) (utf8 payload)).toList
        if 30 < (now - ts).natAbs then .error .expired
        else if expected ≠ signature then .error .badSignature
        else .ok ()

/-- Redis as the sidecar finds it: not there, failing, or with the nonces of 90 seconds. -/
inductive NonceStore where
  | absent
  | failing
  | up (nonces : Store String Unit)

def changesState (method : String) : Bool :=
  method ∈ ["POST", "PUT", "DELETE", "PATCH"]

/-- SET NX EX 90 at a moment in milliseconds. -/
def setNonce (nonces : Store String Unit) (clock : Nat) (nonce : String) :
    Bool × Store String Unit :=
  if (nonces.get clock nonce).isSome then (false, nonces)
  else (true, nonces.set nonce ⟨(), some (clock + 90000)⟩)

/-- `_validate_hmac`: the seconds it reads, then the moment of its Redis command. `none` lets
the request pass. -/
def validateHmac (mac : Mac) (settings : Settings) (headers : List (String × String))
    (method : String) (now : Int) (clock : Nat) (store : NonceStore) :
    Option Rejection × NonceStore :=
  match checkSignature mac settings headers now with
  | .error r => (some r, store)
  | .ok () =>
      let nonce := headerOf headers "x-nonce"
      if nonce ≠ "" ∧ changesState method then
        match store with
        | .up nonces =>
            let (fresh, nonces') := setNonce nonces clock nonce
            (if fresh then none else some .duplicate, .up nonces')
        | other => (if settings.failOpenOnRedisError then none else some .degraded, other)
      else (none, store)

/-! ## What arrives -/

def blank (c : Char) : Bool := c == ' ' || c == '\t'

/-- ASCII but for DEL, and no blank at either end. -/
structure Plain (s : String) : Prop where
  ascii : ∀ c ∈ s.toList, c.toNat < 127
  trimmed : trimBy blank s.toList = s.toList

theorem deliver_ascii {s : String} (h : ∀ c ∈ s.toList, c.toNat < 127) :
    (deliver s).toList = trimBy blank s.toList := by
  have hbytes : utf8 s = s.toList.map fun c => UInt8.ofNat c.toNat :=
    utf8_ascii fun c hc => (h c hc).trans (by omega)
  have hback : ∀ c ∈ s.toList, (charOfByte ∘ fun c : Char => UInt8.ofNat c.toNat) c = c := by
    intro c hc
    have hlt : c.toNat < UInt8.size := (h c hc).trans (by decide)
    rw [Function.comp_apply, charOfByte, UInt8.toNat_ofNat_of_lt' hlt, Char.ofNat_toNat]
  have hblank : ∀ c ∈ s.toList, (blankByte ∘ fun c : Char => UInt8.ofNat c.toNat) c = blank c := by
    intro c hc
    have hall : ∀ n < 127, blankByte (UInt8.ofNat n) = blank (Char.ofNat n) := by decide
    have hc := hall c.toNat (h c hc)
    rwa [Char.ofNat_toNat] at hc
  unfold deliver textOf
  rw [hbytes, String.toList_ofList, trimBy_map, trimBy_congr hblank, List.map_map]
  rw [List.map_congr_left fun c hc => hback c ((trimBy_part blank s.toList).subset hc)]
  exact List.map_id' _

theorem Plain.deliver {s : String} (h : Plain s) : deliver s = s := by
  apply String.toList_inj.mp
  rw [deliver_ascii h.ascii, h.trimmed]

/-! ## The two payloads -/

/-- Escaping a text that has lost its blanks gives less, unless there were none. -/
theorem length_escape_trim (s : List Char) :
    ((trimBy blank s).flatMap escape).length ≤ (s.flatMap escape).length ∧
      (((trimBy blank s).flatMap escape).length = (s.flatMap escape).length →
        trimBy blank s = s) := by
  obtain ⟨before, after, hs⟩ := trimBy_part blank s
  have hlength : (s.flatMap escape).length = (before.flatMap escape).length
      + ((trimBy blank s).flatMap escape).length + (after.flatMap escape).length := by
    conv_lhs => rw [← hs]
    simp only [List.flatMap_append, List.length_append]
  have hnil : ∀ t : List Char, (t.flatMap escape).length = 0 → t = [] := by
    intro t ht
    cases t with
    | nil => rfl
    | cons c rest =>
        have hpos := List.length_pos_of_ne_nil (escape_ne_nil c)
        rw [List.flatMap_cons, List.length_append] at ht
        omega
  refine ⟨by omega, fun heq => ?_⟩
  rw [hnil before (by omega), hnil after (by omega)] at hs
  simpa using hs

theorem quote_eq_ascii {s : List Char} (h : ∀ c ∈ s, c.toNat < 127) :
    quote s = quoteAscii s := by
  unfold quote quoteAscii
  rw [List.flatMap_congr fun c hc => escape_eq_ascii (h c hc)]

theorem length_quote (s : List Char) : (quote s).length = (s.flatMap escape).length + 2 := by
  simp [quote]

theorem printable_quote_iff (s : List Char) :
    (quote s).all printable = true ↔ ∀ c ∈ s, (escape c).all printable = true := by
  have hquote : printable '"' = true := by decide
  simp [quote, hquote, List.all_flatMap]

theorem printable_identityPayload (userId email name : List Char) (timestamp : Nat) :
    (identityPayload quoteAscii userId email name timestamp).toList.all printable = true := by
  have hquote : ∀ s, (quoteAscii s).all printable = true := by
    intro s
    have hmark : printable '"' = true := by decide
    simp [quoteAscii, hmark, List.all_flatMap, printable_escapeAscii]
  have hdigits : (toString (timestamp : Int)).toList.all printable = true := by
    rw [toList_toString_natCast, List.all_eq_true]
    intro c hc
    have hdigit := Nat.isDigit_of_mem_toDigits (by omega) (by omega) hc
    simp only [Char.isDigit, Bool.and_eq_true, decide_eq_true_eq, UInt32.le_iff_toNat_le] at hdigit
    simp only [printable, Bool.and_eq_true, decide_eq_true_eq]
    exact ⟨le_trans (by decide) hdigit.1, le_trans hdigit.2 (by decide)⟩
  have hemail : (literal "\x7b\"email\":").all printable = true := by decide
  have hname : (literal ",\"name\":").all printable = true := by decide
  have htimestamp : (literal ",\"timestamp\":").all printable = true := by decide
  have huser : (literal ",\"user_id\":").all printable = true := by decide
  have hend : (literal "\x7d").all printable = true := by decide
  simp only [identityPayload, String.toList_ofList, List.all_append, hquote, hdigits, hemail, hname,
    htimestamp, huser, hend, Bool.and_self]

/-- Both sides sign the same bytes exactly for plain texts. -/
theorem identityPayload_eq_iff (userId email name : String) (timestamp : Nat) :
    utf8 (identityPayload quote userId.toList email.toList name.toList timestamp)
        = utf8 (identityPayload quoteAscii (deliver userId).toList (deliver email).toList
          (deliver name).toList timestamp) ↔
      Plain userId ∧ Plain email ∧ Plain name := by
  constructor
  · intro h
    have htext := congrArg String.toList (utf8_injective h)
    have hprintable := printable_identityPayload (deliver userId).toList (deliver email).toList
      (deliver name).toList timestamp
    rw [← htext] at hprintable
    simp only [identityPayload, String.toList_ofList, List.all_append, Bool.and_eq_true,
      printable_quote_iff] at hprintable
    obtain ⟨⟨⟨⟨⟨⟨⟨⟨-, hemail⟩, -⟩, hname⟩, -⟩, -⟩, -⟩, huser⟩, -⟩ := hprintable
    have hascii : ∀ s : String, (∀ c ∈ s.toList, (escape c).all printable = true) →
        ∀ c ∈ s.toList, c.toNat < 127 := fun s hs c hc => lt_of_printable_escape (hs c hc)
    have harrives : ∀ s : String, (∀ c ∈ s.toList, c.toNat < 127) →
        quoteAscii (deliver s).toList = quote (trimBy blank s.toList) := by
      intro s hs
      rw [deliver_ascii hs, quote_eq_ascii fun c hc => hs c ((trimBy_part blank _).subset hc)]
    have hlength := congrArg List.length htext
    simp only [identityPayload, String.toList_ofList, List.length_append,
      harrives _ (hascii _ huser), harrives _ (hascii _ hemail), harrives _ (hascii _ hname),
      length_quote] at hlength
    have huserLength := length_escape_trim userId.toList
    have hemailLength := length_escape_trim email.toList
    have hnameLength := length_escape_trim name.toList
    exact ⟨⟨hascii _ huser, huserLength.2 (by omega)⟩, ⟨hascii _ hemail, hemailLength.2 (by omega)⟩,
      ⟨hascii _ hname, hnameLength.2 (by omega)⟩⟩
  · rintro ⟨huser, hemail, hname⟩
    rw [huser.deliver, hemail.deliver, hname.deliver]
    simp only [identityPayload, quote_eq_ascii huser.ascii, quote_eq_ascii hemail.ascii,
      quote_eq_ascii hname.ascii]

/-! ## The request -/

/-- Letters, digits and the like are delivered as they are. -/
theorem plain_of_printable {s : String} (h : ∀ c ∈ s.toList, 32 < c.toNat ∧ c.toNat < 127) :
    Plain s := by
  refine ⟨fun c hc => (h c hc).2, trimBy_eq_self fun c hc => ?_⟩
  have hlow := (h c hc).1
  unfold blank
  rw [Bool.or_eq_false_iff, beq_eq_false_iff_ne, beq_eq_false_iff_ne]
  constructor
  · rintro rfl
    exact absurd hlow (by decide)
  · rintro rfl
    exact absurd hlow (by decide)

theorem printable_hexEncode (bytes : List UInt8) :
    ∀ c ∈ (hexEncode bytes).toList, 32 < c.toNat ∧ c.toNat < 127 := by
  intro c hc
  rw [hexEncode, String.toList_ofList] at hc
  obtain ⟨b, -, hc⟩ := List.mem_flatMap.mp hc
  have hall : ∀ n < 16, 32 < (Nat.digitChar n).toNat ∧ (Nat.digitChar n).toNat < 127 := by decide
  have hb := b.toNat_lt
  simp only [List.mem_cons, List.not_mem_nil, or_false] at hc
  rcases hc with rfl | rfl
  · exact hall _ (by omega)
  · exact hall _ (by omega)

theorem plain_hexEncode (bytes : List UInt8) : Plain (hexEncode bytes) :=
  plain_of_printable (printable_hexEncode bytes)

theorem hexEncode_ne_empty (digest : Vector UInt8 32) : hexEncode digest.toList ≠ "" := by
  intro h
  have hlength := congrArg (fun s : String => s.toList.length) h
  have hpair : ∀ bytes : List UInt8, (hexEncode bytes).toList.length = 2 * bytes.length := by
    intro bytes
    induction bytes with
    | nil => rfl
    | cons b rest ih =>
        simp only [hexEncode, String.toList_ofList, List.flatMap_cons, List.length_append,
          List.length_cons, List.length_nil] at ih ⊢
        omega
  simp only [hpair, Vector.length_toList] at hlength
  cases hlength

theorem printable_toString (n : Nat) :
    ∀ c ∈ (toString (n : Int)).toList, 32 < c.toNat ∧ c.toNat < 127 := by
  intro c hc
  rw [toList_toString_natCast] at hc
  have hdigit := Nat.isDigit_of_mem_toDigits (by omega) (by omega) hc
  simp only [Char.isDigit, Bool.and_eq_true, decide_eq_true_eq, UInt32.le_iff_toNat_le] at hdigit
  exact ⟨lt_of_lt_of_le (by decide) hdigit.1, lt_of_le_of_lt hdigit.2 (by decide)⟩

theorem plain_toString (n : Nat) : Plain (toString (n : Int)) :=
  plain_of_printable (printable_toString n)

theorem pyDigits_of_digits {cs : List Char} (h : ∀ c ∈ cs, c.isDigit = true) (value : Nat) :
    pyDigits value cs = some (Nat.ofDigitChars 10 cs value) := by
  induction cs generalizing value with
  | nil => rfl
  | cons c rest ih =>
      have hc := h c (List.mem_cons_self ..)
      have hne : c ≠ '_' := by
        rintro rfl
        exact absurd hc (by decide)
      have hstep : pyDigits value (c :: rest)
          = if c.isDigit then pyDigits (10 * value + (c.toNat - '0'.toNat)) rest else none := by
        cases rest with
        | nil => simp [pyDigits]
        | cons d more => simp [pyDigits, hne]
      rw [hstep, if_pos hc, ih fun d hd => h d (List.mem_cons_of_mem _ hd), Nat.ofDigitChars_cons]

theorem pyInt_toString (n : UInt64) : pyInt (toString (n.toNat : Int)) = some (n.toNat : Int) := by
  have hdigits : ∀ c ∈ Nat.toDigits 10 n.toNat, c.isDigit = true := fun c hc =>
    Nat.isDigit_of_mem_toDigits (by omega) (by omega) hc
  have hlength : (Nat.toDigits 10 n.toNat).length ≤ 20 := by
    rw [Nat.length_toDigits_le_iff (by omega) (by omega)]
    exact lt_of_lt_of_le n.toNat_lt (by decide)
  have hspace : ∀ c ∈ Nat.toDigits 10 n.toNat, pySpace c = false := by
    intro c hc
    have hdigit := hdigits c hc
    simp only [Char.isDigit, Bool.and_eq_true, decide_eq_true_eq, UInt32.le_iff_toNat_le] at hdigit
    have hlow : 48 ≤ c.toNat := hdigit.1
    have hhigh : c.toNat ≤ 57 := hdigit.2
    simp only [pySpace, Bool.or_eq_false_iff, Bool.and_eq_false_iff, decide_eq_false_iff_not,
      beq_eq_false_iff_ne]
    omega
  have hnumber : pyNumber (Nat.toDigits 10 n.toNat) = some n.toNat := by
    have hhead : (Nat.toDigits 10 n.toNat).head?.any Char.isDigit = true := by
      cases hcs : Nat.toDigits 10 n.toNat with
      | nil => exact absurd hcs Nat.toDigits_ne_nil
      | cons c rest => exact hdigits c (hcs ▸ List.mem_cons_self ..)
    have hshort : ((Nat.toDigits 10 n.toNat).filter Char.isDigit).length ≤ 4300 :=
      (List.length_filter_le _ _).trans (by omega)
    unfold pyNumber
    rw [if_pos (by simp [hhead, hshort]), pyDigits_of_digits hdigits, Nat.ofDigitChars_ten_toDigits]
  unfold pyInt
  rw [toList_toString_natCast, trimBy_eq_self hspace]
  split
  · rename_i cs htext
    exact absurd (hdigits '-' (htext ▸ List.mem_cons_self ..)) (by decide)
  · rename_i cs htext
    exact absurd (hdigits '+' (htext ▸ List.mem_cons_self ..)) (by decide)
  · rw [hnumber]
    rfl

theorem headers_requestLines (traceId : Option String) (a : AuthHeaders) (nonce : String) :
    let headers := delivered (requestLines traceId (some a) nonce)
    headerOf headers "x-user-id" = deliver a.userId ∧
      headerOf headers "x-user-email" = deliver a.email ∧
      headerOf headers "x-user-name" = deliver a.name ∧
      headerOf headers "x-timestamp" = deliver (toString (a.timestamp.toNat : Int)) ∧
      headerOf headers "x-auth-signature" = deliver a.signature := by
  have hid : lower "X-User-Id" = "x-user-id" := by decide
  have hemail : lower "X-User-Email" = "x-user-email" := by decide
  have hname : lower "X-User-Name" = "x-user-name" := by decide
  have htimestamp : lower "X-Timestamp" = "x-timestamp" := by decide
  have hnonce : lower "X-Nonce" = "x-nonce" := by decide
  have hsignature : lower "X-Auth-Signature" = "x-auth-signature" := by decide
  cases traceId <;>
    simp [delivered, requestLines, headerOf, hid, hemail, hname, htimestamp, hnonce, hsignature]

section Accepted

variable {mac : Mac} {settings : Settings} {userId email name signature : String}
variable {timestamp : UInt64} {now : Int}

/-- What the sidecar signs for the identity that arrives. -/
def arrivingBytes (userId email name : String) (timestamp : UInt64) : List UInt8 :=
  utf8 (identityPayload quoteAscii (deliver userId).toList (deliver email).toList
    (deliver name).toList timestamp.toNat)

theorem checkSignature_requestLines (traceId : Option String) (nonce : String)
    (hsecret : settings.sharedSecret ≠ "")
    (hsignature : signature = hexEncode (mac (utf8 settings.sharedSecret)
      (utf8 (identityPayload quote userId.toList email.toList name.toList timestamp.toNat))).toList)
    (hwindow : (now - timestamp.toNat).natAbs ≤ 30) :
    checkSignature mac settings (delivered (requestLines traceId
        (some ⟨userId, email, name, timestamp, signature⟩) nonce)) now =
      if deliver userId = "" || deliver email = "" || signature = "" then .error .missingHeaders
      else if hexEncode (mac (utf8 settings.sharedSecret)
          (arrivingBytes userId email name timestamp)).toList ≠ signature then
        .error .badSignature
      else .ok () := by
  obtain ⟨huserHeader, hemailHeader, hnameHeader, htimeHeader, hsignHeader⟩ :=
    headers_requestLines traceId ⟨userId, email, name, timestamp, signature⟩ nonce
  have hplain : deliver signature = signature := hsignature ▸ (plain_hexEncode _).deliver
  simp only [(plain_toString timestamp.toNat).deliver] at htimeHeader
  simp only [hplain] at hsignHeader
  have hskew : ¬ 30 < (now - timestamp.toNat).natAbs := by omega
  simp only [checkSignature, hsecret, if_false, huserHeader, hemailHeader, hnameHeader, htimeHeader,
    hsignHeader, pyInt_toString, hskew]
  rfl

/-- An identity that `compute_auth_signature` has signed and `perform_request` has sent passes,
both sides having signed the same bytes, exactly when it is plain. If it passes otherwise,
the two messages have the same HMAC. -/
theorem signedIdentity_accepted_iff {path nonce : String} {traceId : Option String}
    {lines : List (String × String)} {clock : Nat} {store : NonceStore}
    (huser : userId ≠ "") (hemail : email ≠ "")
    (hsigned : computeAuthSignature mac settings.sharedSecret userId email name timestamp
      = .ok signature)
    (hsent : performRequest path traceId (some ⟨userId, email, name, timestamp, signature⟩) nonce
      = .ok lines)
    (hwindow : (now - timestamp.toNat).natAbs ≤ 30) :
    let accepted := (validateHmac mac settings (delivered lines) "GET" now clock store).1 = none
    let sentBytes := utf8 (identityPayload quote userId.toList email.toList name.toList
      timestamp.toNat)
    ((accepted ∧ sentBytes = arrivingBytes userId email name timestamp) ↔
        Plain userId ∧ Plain email ∧ Plain name) ∧
      (accepted → hexEncode (mac (utf8 settings.sharedSecret) sentBytes).toList
        = hexEncode (mac (utf8 settings.sharedSecret)
            (arrivingBytes userId email name timestamp)).toList) := by
  intro accepted sentBytes
  have hsecret : settings.sharedSecret ≠ "" := by
    intro hempty
    rw [computeAuthSignature, if_pos hempty] at hsigned
    cases hsigned
  have hsignature : signature = hexEncode (mac (utf8 settings.sharedSecret) sentBytes).toList := by
    rw [computeAuthSignature, if_neg hsecret] at hsigned
    exact (Except.ok.inj hsigned).symm
  have hlines : lines = requestLines traceId (some ⟨userId, email, name, timestamp, signature⟩) nonce := by
    unfold performRequest at hsent
    cases hvalid : validateRequest path traceId
        (some ⟨userId, email, name, timestamp, signature⟩) with
    | error e =>
        rw [hvalid] at hsent
        cases hsent
    | ok _ =>
        rw [hvalid] at hsent
        exact (Except.ok.inj hsent).symm
  have hcheck := checkSignature_requestLines traceId nonce hsecret hsignature hwindow
  have hget : accepted ↔ checkSignature mac settings (delivered lines) now = .ok () := by
    have hmethod : ¬ changesState "GET" = true := by decide
    simp only [accepted, validateHmac, hmethod]
    cases checkSignature mac settings (delivered lines) now with
    | error r => simp
    | ok u => simp
  rw [hlines, hcheck] at hget
  have hsame : sentBytes = arrivingBytes userId email name timestamp ↔
      Plain userId ∧ Plain email ∧ Plain name :=
    identityPayload_eq_iff userId email name timestamp.toNat
  constructor
  · constructor
    · rintro ⟨-, hbytes⟩
      exact hsame.mp hbytes
    · intro hplain
      refine ⟨hget.mpr ?_, hsame.mpr hplain⟩
      have hne : signature ≠ "" := by
        rw [hsignature]
        exact hexEncode_ne_empty _
      rw [hplain.1.deliver, hplain.2.1.deliver, ← hsame.mpr hplain, ← hsignature]
      simp [huser, hemail, hne]
  · intro haccepted
    have hpassed := hget.mp haccepted
    split at hpassed
    · cases hpassed
    · split at hpassed
      · cases hpassed
      · rename_i hmatch
        rw [← hsignature]
        exact (not_not.mp hmatch).symm

end Accepted

namespace Sample

/-- HMAC-SHA256 under the key `secret`, on the three messages of the samples. -/
def mac : Mac := fun _ message =>
  if message = utf8 (identityPayload quote "u1".toList "a@b.c".toList "José".toList 1700000000) then
    #v[47, 47, 172, 254, 68, 167, 254, 187, 92, 162, 175, 107, 144, 223, 27, 88, 216, 215, 226, 98,
      8, 241, 242, 157, 211, 65, 206, 2, 0, 123, 141, 72]
  else if message = arrivingBytes "u1" "a@b.c" "José" 1700000000 then
    #v[117, 170, 225, 13, 155, 45, 80, 181, 243, 56, 110, 83, 182, 62, 193, 188, 121, 170, 217, 64,
      213, 53, 6, 170, 178, 98, 145, 119, 99, 65, 0, 115]
  else
    #v[129, 236, 245, 104, 57, 60, 115, 73, 26, 169, 227, 99, 41, 90, 122, 185, 132, 50, 8, 217,
      252, 112, 177, 218, 114, 109, 41, 53, 242, 36, 2, 87]

def settings : Settings := ⟨"secret", true⟩

def jose : AuthHeaders := ⟨"u1", "a@b.c", "Jose", 1700000000,
  "81ecf568393c73491aa9e363295a7ab9843208d9fc70b1da726d2935f2240257"⟩

def accented : AuthHeaders := ⟨"u1", "a@b.c", "José", 1700000000,
  "2f2facfe44a7febb5ca2af6b90df1b58d8d7e26208f1f29dd341ce02007b8d48"⟩

end Sample

theorem signedIdentity_accepted_sample :
    (validateHmac Sample.mac Sample.settings
        (delivered (requestLines none (some Sample.jose) "n")) "GET" 1700000010 0 .absent).1
      = none := by
  have huser : "u1" ≠ "" := by decide
  have hemail : "a@b.c" ≠ "" := by decide
  have hsigned : computeAuthSignature Sample.mac Sample.settings.sharedSecret "u1" "a@b.c" "Jose"
      1700000000 = .ok Sample.jose.signature := by decide +kernel
  have hsent : performRequest "/" none (some Sample.jose) "n"
      = .ok (requestLines none (some Sample.jose) "n") := by decide +kernel
  have hwindow : ((1700000010 : Int) - (1700000000 : UInt64).toNat).natAbs ≤ 30 := by decide
  refine ((signedIdentity_accepted_iff huser hemail hsigned hsent hwindow).1.mpr ?_).1
  exact ⟨⟨List.all_iff_forall_prop.mp (by decide), by decide⟩,
    ⟨List.all_iff_forall_prop.mp (by decide), by decide⟩,
    ⟨List.all_iff_forall_prop.mp (by decide), by decide⟩⟩

/-- A name with an accent: the sidecar reads its two bytes as two characters and escapes them. -/
theorem signedIdentity_rejected :
    computeAuthSignature Sample.mac "secret" "u1" "a@b.c" "José" 1700000000
        = .ok Sample.accented.signature ∧
      performRequest "/" none (some Sample.accented) "n"
        = .ok (requestLines none (some Sample.accented) "n") ∧
      (validateHmac Sample.mac Sample.settings
          (delivered (requestLines none (some Sample.accented) "n")) "GET" 1700000010 0
          .absent).1 = some .badSignature ∧
      utf8 (identityPayload quote "u1".toList "a@b.c".toList "José".toList 1700000000)
        ≠ arrivingBytes "u1" "a@b.c" "José" 1700000000 := by
  decide +kernel

end FullStackHex
