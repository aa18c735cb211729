import FullStackHex.Storage.Client

/-!
What the client signs compared with what a server makes of the request that arrives.
-/

namespace FullStackHex.Storage

open Codec Percent

/-! ## The server -/

/-- The canonical request that a server computes: the signed headers and the payload hash are
those that the request names. -/
def serverCanonical (plus : UInt8) (m : SigV4.Message) (signedHeaders : List Bytes) : Bytes :=
  SigV4.canonicalRequest m (SigV4.params plus m.query) signedHeaders
    (SigV4.headerValue m.headers (utf8 "x-amz-content-sha256"))

/-- The headers that were signed are those that are sent, and no blank is in the payload hash. -/
structure SentAsSigned (sets : Url.EncodeSets) (crypto : Crypto) (config : StorageConfig)
    (now : AmzDate) (i : Issued) : Prop where
  signed : ∃ contentType payloadHash,
    i.signed = signRequestInner sets crypto config now i.request.method i.request.url contentType
      payloadHash ∧
    (∀ h ∈ signingHeaders now i.request.url.origin.host contentType payloadHash,
      i.request.headers.lookup h.1 = some h.2) ∧
    ∀ c ∈ payloadHash.toList, ' ' < c ∧ c < '\x7f'
  legal : ∀ h ∈ i.request.headers, legalHeader h.2 = true

section Requests

variable {sets : Url.EncodeSets} {crypto : Crypto} {config : StorageConfig} {now : AmzDate}
variable {i : Issued} {op : StorageOp}

theorem mem_signingHeaders {host contentType payloadHash : String} {h : String × String}
    (hmem : h ∈ signingHeaders now host contentType payloadHash) :
    h = ("host", host) ∨ h = ("x-amz-content-sha256", payloadHash) ∨ h = ("x-amz-date", now.text) ∨
      contentType ≠ "" ∧ h = ("content-type", contentType) := by
  have hperm := (List.perm_insertionSort _ _).subset hmem
  split at hperm
  · rcases (by simpa using hperm : h = ("host", host) ∨ h = ("x-amz-content-sha256", payloadHash) ∨
        h = ("x-amz-date", now.text)) with hh | hh | hh
    · exact .inl hh
    · exact .inr (.inl hh)
    · exact .inr (.inr (.inl hh))
  · rename_i hne
    simpa [hne, or_assoc] using hperm

theorem send_ok {label : String} {request : Outgoing} {signed : SignedRequest}
    (h : send label request signed = .ok i) :
    i = ⟨request, signed⟩ ∧ ∀ h ∈ request.headers, legalHeader h.2 = true := by
  unfold send at h
  split at h
  · rename_i hlegal
    exact ⟨(Except.ok.inj h).symm, List.all_eq_true.mp hlegal⟩
  · cases h

/-- Any of the requests: signed as it is, with the common headers and maybe a content type. -/
theorem sentAsSigned_of_send {label method contentType payloadHash : String} {url : UrlText}
    {headers : List (String × String)} (h : send label ⟨method, url, headers⟩
      (signRequestInner sets crypto config now method url contentType payloadHash) = .ok i)
    (hheaders : ∀ h ∈ commonHeaders (signRequestInner sets crypto config now method url contentType
      payloadHash) payloadHash, headers.lookup h.1 = some h.2)
    (htype : contentType ≠ "" → headers.lookup "content-type" = some contentType)
    (hhash : ∀ c ∈ payloadHash.toList, ' ' < c ∧ c < '\x7f') :
    SentAsSigned sets crypto config now i := by
  obtain ⟨rfl, hlegal⟩ := send_ok h
  refine ⟨⟨contentType, payloadHash, rfl, fun h hmem => ?_, hhash⟩, hlegal⟩
  rcases mem_signingHeaders hmem with rfl | rfl | rfl | ⟨hne, rfl⟩
  · exact hheaders ("host", url.origin.host) (by simp [commonHeaders, signRequestInner])
  · exact hheaders ("x-amz-content-sha256", payloadHash) (by simp [commonHeaders])
  · exact hheaders ("x-amz-date", now.text) (by simp [commonHeaders, signRequestInner])
  · exact htype hne

theorem lookup_commonHeaders {signed : SignedRequest} {payloadHash : String}
    (more : List (String × String)) : ∀ h ∈ commonHeaders signed payloadHash,
    (commonHeaders signed payloadHash ++ more).lookup h.1 = some h.2 := by
  intro h hmem
  simp only [commonHeaders, List.mem_cons, List.not_mem_nil, or_false] at hmem
  rcases hmem with rfl | rfl | rfl | rfl
  · rfl
  · rfl
  · rfl
  · rfl

theorem lookup_typed {signed : SignedRequest} {payloadHash contentType : String} :
    ∀ h ∈ commonHeaders signed payloadHash,
      (("content-type", contentType) :: commonHeaders signed payloadHash).lookup h.1 = some h.2 := by
  intro h hmem
  simp only [commonHeaders, List.mem_cons, List.not_mem_nil, or_false] at hmem
  rcases hmem with rfl | rfl | rfl | rfl
  · rfl
  · rfl
  · rfl
  · rfl

theorem issue_sentAsSigned (h : op.issue sets crypto config now = .ok i) :
    SentAsSigned sets crypto config now i := by
  have hhash : ∀ body, ∀ c ∈ (sha256Hex crypto body).toList, ' ' < c ∧ c < '\x7f' :=
    fun body => printable_hexEncode _
  have hunsigned : ∀ c ∈ "UNSIGNED-PAYLOAD".toList, ' ' < c ∧ c < '\x7f' :=
    List.all_iff_forall_prop.mp (by decide)
  have hplain : ∀ {label method payloadHash : String} {url : UrlText},
      (∀ c ∈ payloadHash.toList, ' ' < c ∧ c < '\x7f') →
      send label ⟨method, url, commonHeaders (signRequestInner sets crypto config now method url ""
        payloadHash) payloadHash⟩ (signRequestInner sets crypto config now method url ""
        payloadHash) = .ok i → SentAsSigned sets crypto config now i := by
    intro label method payloadHash url hvisible hsend
    apply sentAsSigned_of_send hsend
    · intro h hmem
      have := lookup_commonHeaders [] h hmem
      rwa [List.append_nil] at this
    · exact fun hne => absurd rfl hne
    · exact hvisible
  have htyped : ∀ {label method contentType payloadHash : String} {url : UrlText},
      (∀ c ∈ payloadHash.toList, ' ' < c ∧ c < '\x7f') →
      send label ⟨method, url, ("content-type", contentType) :: commonHeaders
        (signRequestInner sets crypto config now method url contentType payloadHash) payloadHash⟩
        (signRequestInner sets crypto config now method url contentType payloadHash) = .ok i →
      SentAsSigned sets crypto config now i :=
    fun hvisible hsend => sentAsSigned_of_send hsend lookup_typed (fun _ => rfl) hvisible
  cases op with
  | upload key body contentType =>
      obtain ⟨url, -, hsend⟩ := bind_ok (x := objectUrlText sets config key) h
      exact htyped (hhash _) hsend
  | uploadStreaming key contentType =>
      obtain ⟨url, -, hsend⟩ := bind_ok (x := objectUrlText sets config key) h
      exact htyped hunsigned hsend
  | download key =>
      obtain ⟨url, -, hsend⟩ := bind_ok (x := objectUrlText sets config key) h
      exact hplain (hhash _) hsend
  | downloadStreaming key =>
      obtain ⟨url, -, hsend⟩ := bind_ok (x := objectUrlText sets config key) h
      exact hplain hunsigned hsend
  | delete key =>
      obtain ⟨url, -, hsend⟩ := bind_ok (x := objectUrlText sets config key) h
      exact hplain (hhash _) hsend
  | list pre =>
      obtain ⟨base, -, hsend⟩ := bind_ok (x := objectUrlText sets config "") h
      exact hplain (hhash _) hsend
  | createMultipartUpload key contentType =>
      obtain ⟨base, -, hsend⟩ := bind_ok (x := objectUrlText sets config key) h
      by_cases hempty : contentType = ""
      · subst hempty
        exact hplain hunsigned hsend
      · apply sentAsSigned_of_send hsend
        · rw [if_neg hempty]
          exact lookup_commonHeaders _
        · rw [if_neg hempty]
          exact fun _ => rfl
        · exact hunsigned
  | uploadPart key uploadId partNumber body =>
      obtain ⟨base, -, hsend⟩ := bind_ok (x := objectUrlText sets config key) h
      exact hplain (hhash _) hsend
  | uploadPartStreaming key uploadId partNumber =>
      obtain ⟨base, -, hsend⟩ := bind_ok (x := objectUrlText sets config key) h
      exact hplain hunsigned hsend
  | completeMultipartUpload key uploadId parts =>
      obtain ⟨base, -, hsend⟩ := bind_ok (x := objectUrlText sets config key) h
      exact htyped (hhash _) hsend
  | abortMultipartUpload key uploadId =>
      obtain ⟨base, -, hsend⟩ := bind_ok (x := objectUrlText sets config key) h
      exact hplain hunsigned hsend

/-! ## Values -/

theorem isWhitespace_of_legal {c : Char} (h : (c == '\t' || (' ' ≤ c && c ≤ '~')) = true) :
    c.toNat < 128 ∧ c.isWhitespace = SigV4.blank (UInt8.ofNat c.toNat) := by
  have hall : ∀ n < 128, (Char.ofNat n == '\t' || (' ' ≤ Char.ofNat n && Char.ofNat n ≤ '~')) = true →
      (Char.ofNat n).isWhitespace = SigV4.blank (UInt8.ofNat n) := by decide
  have hlt : c.toNat < 128 := by
    rw [Bool.or_eq_true, Bool.and_eq_true, beq_iff_eq, decide_eq_true_eq, decide_eq_true_eq] at h
    rcases h with rfl | ⟨-, hhigh⟩
    · decide
    · exact lt_of_le_of_lt hhigh (by decide)
  have hc := hall c.toNat hlt
  rw [Char.ofNat_toNat] at hc
  exact ⟨hlt, hc h⟩

/-- A legal value loses the same blanks on both sides. -/
theorem utf8_trimText {value : String} (h : legalHeader value = true) :
    utf8 (trimText value) = trimBy SigV4.blank (utf8 value) := by
  have hlegal := List.all_eq_true.mp h
  have hascii : ∀ c ∈ value.toList, c.toNat < 128 := fun c hc =>
    (isWhitespace_of_legal (hlegal c hc)).1
  have hpart : ∀ c ∈ (trimText value).toList, c ∈ value.toList := by
    intro c hc
    rw [trimText, String.toList_ofList] at hc
    exact (trimBy_part _ _).subset hc
  have hblank : ∀ c ∈ value.toList,
      c.isWhitespace = (SigV4.blank ∘ fun c : Char => UInt8.ofNat c.toNat) c := fun c hc =>
    (isWhitespace_of_legal (hlegal c hc)).2
  rw [utf8_ascii hascii, utf8_ascii fun c hc => hascii c (hpart c hc), trimBy_map,
    ← trimBy_congr hblank, trimText, String.toList_ofList]

theorem headerValue_received {r : Outgoing} {name value : String}
    (h : r.headers.lookup name = some value) :
    SigV4.headerValue (r.received sets).headers (utf8 name) = trimBy SigV4.blank (utf8 value) := by
  unfold SigV4.headerValue Outgoing.received
  dsimp only
  generalize r.headers = headers at h ⊢
  induction headers with
  | nil => cases h
  | cons entry rest ih =>
      obtain ⟨key, v⟩ := entry
      rw [List.lookup_cons] at h
      rw [List.map_cons, List.find?_cons]
      by_cases hname : key = name
      · subst hname
        rw [beq_self_eq_true] at h
        obtain rfl := Option.some.inj h
        simp only [decide_true, Option.map_some, Option.getD_some]
        exact trimBy_trimBy _ _
      · have hbeq : (name == key) = false := beq_eq_false_iff_ne.mpr fun heq => hname heq.symm
        have hutf8 : ¬ utf8 key = utf8 name := fun heq => hname (utf8_injective heq)
        rw [hbeq] at h
        simp only [hutf8, decide_false]
        exact ih h

/-! ## Canonical requests -/

theorem lines_six (a b c d e f : Bytes) : lines [a, b, c, d, e, f] = SigV4.assemble a b c d e f := by
  unfold lines SigV4.assemble
  simp only [List.intercalate_cons_cons, List.intercalate_singleton, List.append_assoc,
    List.cons_append, List.nil_append]

theorem lines_newline {parts : List Bytes} (h : parts ≠ []) :
    lines parts ++ [SigV4.newline] = parts.flatMap fun part => part ++ [SigV4.newline] := by
  unfold lines
  induction parts with
  | nil => exact absurd rfl h
  | cons part rest ih =>
      cases rest with
      | nil => simp
      | cons next others =>
          have hrest := ih (List.cons_ne_nil _ _)
          rw [List.flatMap_cons, ← hrest, List.intercalate_cons_cons, List.append_assoc]

theorem utf8_append (s t : String) : utf8 (s ++ t) = utf8 s ++ utf8 t := by
  unfold utf8
  rw [String.toList_append, List.flatMap_append]

theorem utf8_joinNames (names : List String) :
    utf8 (joinNames names) = [byte ';'].intercalate (names.map utf8) := by
  have htext : ∀ cs, utf8 (String.ofList cs) = cs.flatMap String.utf8EncodeChar := by
    intro cs
    unfold utf8
    rw [String.toList_ofList]
  unfold joinNames
  rw [htext]
  induction names with
  | nil => rfl
  | cons name rest ih =>
      cases rest with
      | nil =>
          rw [List.map_cons, List.map_nil, List.map_cons, List.map_nil, List.intercalate_singleton,
            List.intercalate_singleton]
          rfl
      | cons next others =>
          rw [List.map_cons, List.map_cons, List.intercalate_cons_cons, List.flatMap_append,
            List.flatMap_append, List.map_cons, List.map_cons, List.intercalate_cons_cons]
          exact congrArg₂ (· ++ ·) rfl ih

theorem trimBy_visible {s : String} (h : ∀ c ∈ s.toList, ' ' < c ∧ c < '\x7f') :
    trimBy SigV4.blank (utf8 s) = utf8 s := by
  have hlow : ∀ c ∈ s.toList, 32 < c.toNat ∧ c.toNat < 127 := h
  rw [utf8_ascii fun c hc => (hlow c hc).2.trans (by omega)]
  apply trimBy_eq_self
  intro b hb
  obtain ⟨c, hc, rfl⟩ := List.mem_map.mp hb
  have hc := hlow c hc
  have hvalue : (UInt8.ofNat c.toNat).toNat = c.toNat :=
    UInt8.toNat_ofNat_of_lt' (hc.2.trans (by decide))
  rw [SigV4.blank, Bool.or_eq_false_iff, beq_eq_false_iff_ne, beq_eq_false_iff_ne]
  constructor
  · intro h32
    rw [h32] at hvalue
    simp at hvalue
    omega
  · intro h9
    rw [h9] at hvalue
    simp at hvalue
    omega

/-- The path of the URL of a request. -/
def Outgoing.path (sets : Url.EncodeSets) (r : Outgoing) : Bytes := (Url.parse sets r.url.tail).path

/-- The query of the URL of a request, empty if there is none. -/
def Outgoing.query (sets : Url.EncodeSets) (r : Outgoing) : Bytes :=
  (Url.parse sets r.url.tail).query.getD []

theorem canonicalRequest_signed {contentType payloadHash method : String} {url : UrlText} :
    (signRequestInner sets crypto config now method url contentType payloadHash).canonicalRequest =
      SigV4.assemble (utf8 method) (Url.parse sets url.tail).path
        ((Url.parse sets url.tail).query.getD [])
        ((signingHeaders now url.origin.host contentType payloadHash).flatMap fun h =>
          utf8 (lowercase h.1 ++ ":" ++ trimText h.2) ++ [SigV4.newline])
        ([byte ';'].intercalate ((signingHeaders now url.origin.host contentType payloadHash).map
          fun h => utf8 (lowercase h.1))) (utf8 payloadHash) := by
  have hne : signingHeaders now url.origin.host contentType payloadHash ≠ [] := by
    intro hnil
    have hlength := congrArg List.length hnil
    unfold signingHeaders at hlength
    rw [List.length_insertionSort] at hlength
    split at hlength
    · cases hlength
    · cases hlength
  unfold signRequestInner
  dsimp only
  rw [lines_six, lines_newline (by simpa using hne), List.flatMap_map, utf8_joinNames, List.map_map]
  rfl

/-- The server reads the signed headers as they were signed. -/
theorem headerLine_received {name value : String} (hname : lowercase name = name)
    (hlookup : i.request.headers.lookup name = some value) (hlegal : legalHeader value = true) :
    SigV4.headerLine (utf8 (lowercase name))
        (SigV4.headerValue (i.request.received sets).headers (utf8 (lowercase name)))
      = utf8 (lowercase name ++ ":" ++ trimText value) ++ [SigV4.newline] := by
  rw [hname, headerValue_received hlookup, ← utf8_trimText hlegal, utf8_append, utf8_append]
  have hcolon : utf8 ":" = [byte ':'] := by decide
  unfold SigV4.headerLine
  rw [hcolon]
  simp only [List.append_assoc, List.cons_append, List.nil_append]

theorem newline_not_mem_url {b : UInt8} (h : 32 < b.toNat) : b ≠ SigV4.newline := by
  rintro rfl
  exact absurd h (by decide)

theorem newline_not_mem_path (sets : Url.EncodeSets) (r : Outgoing) :
    SigV4.newline ∉ r.path sets := fun hmem =>
  newline_not_mem_url ((Url.parse_settled sets r.url.tail).visible _ hmem).1 rfl

theorem newline_not_mem_query (sets : Url.EncodeSets) (r : Outgoing) :
    SigV4.newline ∉ r.query sets := by
  intro hmem
  unfold Outgoing.query at hmem
  cases hquery : (Url.parse sets r.url.tail).query with
  | none =>
      rw [hquery] at hmem
      cases hmem
  | some q =>
      rw [hquery, Option.getD_some] at hmem
      exact newline_not_mem_url (Url.visible_query hquery _ hmem).1 rfl

end Requests

namespace Sample

/-- Constant functions. -/
def crypto : Crypto := ⟨fun _ => Vector.replicate 32 0, fun _ _ => Vector.replicate 32 0⟩

def origin : Origin := ⟨"s3.local", none, List.all_iff_forall_prop.mp (by decide)⟩

def config : StorageConfig where
  endpoint := .ok origin
  publicEndpoint := .ok origin
  accessKey := "minio"
  secretKey := "secret"
  bucket := ⟨"uploads", by decide⟩
  region := "us-east-1"

def now : AmzDate := ⟨"20240501T120000Z", by decide⟩

end Sample

end FullStackHex.Storage
