import FullStackHex.Library.QueryAuth
import FullStackHex.Storage.KeyUrls

/-!
What S3 says of the URLs that `presigned_url` makes: a browser asks for such a URL, and the server
computes the signature for itself.
-/

namespace FullStackHex.Storage

open Codec Percent SigV4

/-- Letters, digits and `-._~`. -/
def urlSafe (s : String) : Bool :=
  s.toList.all fun c => c.isAlphanum || c == '-' || c == '.' || c == '_' || c == '~'

def account (config : StorageConfig) : Account :=
  ⟨utf8 config.accessKey, utf8 config.secretKey, utf8 config.region, utf8 "s3"⟩

def Crypto.primitives (crypto : Crypto) : Primitives :=
  ⟨fun data => (crypto.sha256 data).toList, fun key data => (crypto.hmac key data).toList⟩

/-- The Host header that a browser sends. -/
def Origin.hostHeader (o : Origin) : String := o.host ++ o.port.elim "" fun p => ":" ++ toString p

/-- The method of a handler's request. -/
def presignMethod (method : Option String) : String := (method.map Routes.uppercase).getD "GET"

/-- A browser's request for a presigned URL, with any further headers. -/
def UrlText.visit (sets : Url.EncodeSets) (url : UrlText) (method : String)
    (others : List (Bytes × Bytes)) : Message :=
  SigV4.visit sets (utf8 method) (utf8 url.origin.hostHeader) url.tail others

/-- The parameters of a presigned URL, before the signature. -/
def presignPairs (config : StorageConfig) (now : AmzDate) (expires : UInt64) :
    List (Bytes × Bytes) :=
  [(utf8 "X-Amz-Algorithm", algorithmName),
    (utf8 "X-Amz-Credential", (account config).credential (utf8 now.text)),
    (utf8 "X-Amz-Date", utf8 now.text), (utf8 "X-Amz-Expires", utf8 (toString expires.toNat)),
    (utf8 "X-Amz-SignedHeaders", utf8 "host")]

section Signing

variable {config : StorageConfig} {now : AmzDate} {crypto : Crypto} {expires : UInt64}

theorem utf8_hexEncode (bs : Bytes) : utf8 (hexEncode bs) = hexText bs := by
  have hascii : ∀ c ∈ (hexEncode bs).toList, c.toNat < 128 := fun c hc =>
    lt_trans (printable_hexEncode bs c hc).2 (by decide)
  rw [utf8_ascii hascii, hexEncode, String.toList_ofList, List.map_flatMap]
  rfl

theorem unreserved_safe {c : Char}
    (h : (c.isAlphanum || c == '-' || c == '.' || c == '_' || c == '~') = true) :
    c.toNat < 128 ∧ unreserved (byte c) = true := by
  have hall : ∀ n < 128, ((Char.ofNat n).isAlphanum || Char.ofNat n == '-' || Char.ofNat n == '.'
      || Char.ofNat n == '_' || Char.ofNat n == '~') = true →
        unreserved (byte (Char.ofNat n)) = true := by decide
  have hlt : c.toNat < 128 := by
    simp only [Char.isAlphanum, Char.isAlpha, Char.isUpper, Char.isLower, Char.isDigit,
      Bool.or_eq_true, Bool.and_eq_true, decide_eq_true_eq, beq_iff_eq, ge_iff_le,
      UInt32.le_iff_toNat_le] at h
    have hcode : c.val.toNat = c.toNat := rfl
    rcases h with ((((((h | h) | h) | rfl) | rfl) | rfl) | rfl)
    · exact lt_of_le_of_lt h.2 (by decide)
    · exact lt_of_le_of_lt h.2 (by decide)
    · exact lt_of_le_of_lt h.2 (by decide)
    · decide
    · decide
    · decide
    · decide
  have hc := hall c.toNat hlt
  rw [Char.ofNat_toNat] at hc
  exact ⟨hlt, hc h⟩

theorem unreserved_urlSafe {s : String} (h : urlSafe s = true) :
    ∀ c ∈ s.toList, c.toNat < 128 ∧ unreserved (byte c) = true := fun c hc =>
  unreserved_safe (List.all_eq_true.mp h c hc)

theorem AmzDate.unreserved (d : AmzDate) :
    ∀ c ∈ d.text.toList, c.toNat < 128 ∧ Percent.unreserved (byte c) = true := by
  intro c hc
  apply unreserved_safe
  rw [List.all_eq_true.mp d.wellFormed.2 c hc]
  rfl

theorem utf8_stamp (d : AmzDate) : utf8 d.stamp = day (utf8 d.text) := by
  have hascii : ∀ c ∈ d.text.toList, c.toNat < 128 := fun c hc => (d.unreserved c hc).1
  rw [utf8_ascii hascii, AmzDate.stamp, utf8_ascii, String.toList_ofList, day, List.map_take]
  intro c hc
  rw [String.toList_ofList] at hc
  exact hascii c (List.mem_of_mem_take hc)

theorem utf8_credentialScope (config : StorageConfig) (now : AmzDate) :
    utf8 (credentialScope config now) = (account config).scope (utf8 now.text) := by
  have htail : utf8 "/s3/aws4_request" = byte '/' :: utf8 "s3" ++ byte '/' :: terminator := rfl
  have hslash : utf8 "/" = [byte '/'] := rfl
  unfold credentialScope Account.scope account
  simp only [Codec.utf8_append, htail, hslash, utf8_stamp, List.intercalate_cons_cons,
    List.intercalate_singleton, List.append_assoc, List.cons_append, List.nil_append]

/-- The client signs as the server does. -/
theorem utf8_signature (canonical : Bytes) :
    utf8 (signature crypto config now canonical)
      = (account config).sign crypto.primitives (utf8 now.text) canonical := by
  have htext : lines [utf8 algorithm, utf8 now.text, utf8 (credentialScope config now),
      utf8 (sha256Hex crypto canonical)]
      = (account config).stringToSign (utf8 now.text) (crypto.sha256 canonical).toList := by
    unfold Account.stringToSign lines sha256Hex
    rw [utf8_credentialScope, utf8_hexEncode]
    rfl
  have hkey : signingKey crypto config now
      = (account config).signingKey crypto.primitives (utf8 now.text) := by
    unfold signingKey Account.signingKey
    dsimp only
    rw [utf8_stamp, Codec.utf8_append]
    rfl
  unfold signature Account.sign
  dsimp only
  rw [utf8_hexEncode, htext, hkey]
  rfl

/-! ## The parameters -/

theorem utf8_escapeSlashes {s : String}
    (h : ∀ c ∈ s.toList, c = '/' ∨ c.toNat < 128 ∧ unreserved (byte c) = true) :
    utf8 (escapeSlashes s) = encode unreserved (utf8 s) := by
  have htext : ∀ cs, utf8 (String.ofList cs) = cs.flatMap String.utf8EncodeChar := by
    intro cs
    unfold utf8
    rw [String.toList_ofList]
  unfold escapeSlashes
  rw [htext]
  unfold utf8
  generalize s.toList = cs at h
  induction cs with
  | nil => rfl
  | cons c rest ih =>
      have hrest := ih fun a ha => h a (List.mem_cons_of_mem _ ha)
      rw [List.flatMap_cons, List.flatMap_append, hrest, List.flatMap_cons, encode_append]
      apply congrArg (· ++ _)
      rcases h c (List.mem_cons_self ..) with rfl | ⟨hascii, hkeep⟩
      · rfl
      · have hne : c ≠ '/' := by
          rintro rfl
          exact absurd hkeep (by decide)
        rw [if_neg hne, List.flatMap_singleton, utf8EncodeChar_ascii hascii]
        symm
        apply encode_eq_self
        intro b hb
        rw [List.mem_singleton.mp hb]
        exact hkeep

theorem pairText_named {name value : String} {w : Bytes}
    (hname : ∀ b ∈ utf8 name, unreserved b = true) (hvalue : utf8 value = encode unreserved w) :
    utf8 (name ++ "=" ++ value) = pairText (encodePair (utf8 name, w)) := by
  have hequal : utf8 "=" = [byte '='] := rfl
  unfold pairText encodePair
  rw [Codec.utf8_append, Codec.utf8_append, hequal, hvalue, encode_eq_self hname,
    List.append_assoc, List.singleton_append]

theorem credential_chars (haccess : urlSafe config.accessKey = true)
    (hregion : urlSafe config.region = true) :
    ∀ c ∈ (config.accessKey ++ "/" ++ credentialScope config now).toList,
      c = '/' ∨ c.toNat < 128 ∧ unreserved (byte c) = true := by
  have htail : ∀ c ∈ "/s3/aws4_request".toList,
      c = '/' ∨ c.toNat < 128 ∧ unreserved (byte c) = true :=
    List.all_iff_forall_prop.mp rfl
  intro c hc
  simp only [credentialScope, AmzDate.stamp, String.toList_append, String.toList_ofList,
    List.mem_append] at hc
  rcases hc with (hc | hc) | ((hc | hc) | hc) | hc
  · exact .inr (unreserved_urlSafe haccess c hc)
  · exact .inl (by simpa using hc)
  · exact .inr (now.unreserved c (List.mem_of_mem_take hc))
  · exact .inl (by simpa using hc)
  · exact .inr (unreserved_urlSafe hregion c hc)
  · exact htail c hc

theorem utf8_credentialText :
    utf8 (config.accessKey ++ "/" ++ credentialScope config now)
      = (account config).credential (utf8 now.text) := by
  have hslash : utf8 "/" = [byte '/'] := rfl
  rw [Codec.utf8_append, Codec.utf8_append, utf8_credentialScope, hslash, List.append_assoc,
    List.singleton_append]
  rfl

theorem utf8_credential (haccess : urlSafe config.accessKey = true)
    (hregion : urlSafe config.region = true) :
    utf8 (escapeSlashes (config.accessKey ++ "/" ++ credentialScope config now))
      = encode unreserved ((account config).credential (utf8 now.text)) := by
  rw [utf8_escapeSlashes (credential_chars haccess hregion), utf8_credentialText]

theorem presignParams_eq : presignParams config now expires
    = [("X-Amz-Algorithm", algorithm),
      ("X-Amz-Credential",
        escapeSlashes (config.accessKey ++ "/" ++ credentialScope config now)),
      ("X-Amz-Date", now.text), ("X-Amz-Expires", toString expires.toNat),
      ("X-Amz-SignedHeaders", "host")] := by
  have hnames : ["X-Amz-Algorithm", "X-Amz-Credential", "X-Amz-Date", "X-Amz-Expires",
      "X-Amz-SignedHeaders"].Pairwise (· ≤ ·) := by decide +kernel
  apply List.Pairwise.insertionSort_eq
  exact (@List.pairwise_map _ _ Prod.fst _ _).mp hnames

theorem unreserved_names : ∀ name ∈ ["X-Amz-Algorithm", "X-Amz-Credential", "X-Amz-Date",
    "X-Amz-Expires", "X-Amz-SignedHeaders"], ∀ b ∈ utf8 name, unreserved b = true := by
  have hsafe : ∀ name ∈ ["X-Amz-Algorithm", "X-Amz-Credential", "X-Amz-Date", "X-Amz-Expires",
      "X-Amz-SignedHeaders"], urlSafe name = true := by decide +kernel
  exact fun name hname => unreserved_utf8 (unreserved_urlSafe (hsafe name hname))

/-- The query is written as a server would write it. -/
theorem presignQuery_eq (haccess : urlSafe config.accessKey = true)
    (hregion : urlSafe config.region = true) :
    presignQuery config now expires = [byte '&'].intercalate
      (((presignPairs config now expires).map encodePair).map pairText) := by
  have hdate : utf8 now.text = encode unreserved (utf8 now.text) :=
    (encode_eq_self (unreserved_utf8 now.unreserved)).symm
  have hexpires : utf8 (toString expires.toNat) = encode unreserved (utf8 (toString expires.toNat)) :=
    (encode_eq_self (unreserved_digits _)).symm
  have halgorithm : utf8 algorithm = encode unreserved algorithmName := rfl
  have hhost : utf8 "host" = encode unreserved (utf8 "host") := rfl
  unfold presignQuery presignPairs
  rw [presignParams_eq]
  simp only [List.map_cons, List.map_nil]
  rw [pairText_named (unreserved_names _ (by simp)) halgorithm,
    pairText_named (unreserved_names _ (by simp)) (utf8_credential haccess hregion),
    pairText_named (unreserved_names _ (by simp)) hdate,
    pairText_named (unreserved_names _ (by simp)) hexpires,
    pairText_named (unreserved_names _ (by simp)) hhost]

/-- The parameters stand in the order of their names. -/
theorem presignPairs_sorted :
    ((presignPairs config now expires).map encodePair).Pairwise fun p p' => order p ≤ order p' := by
  have hnames : [utf8 "X-Amz-Algorithm", utf8 "X-Amz-Credential", utf8 "X-Amz-Date",
      utf8 "X-Amz-Expires", utf8 "X-Amz-SignedHeaders"].Pairwise fun x y =>
        (encode unreserved x).map UInt8.toNat < (encode unreserved y).map UInt8.toNat := by
    decide +kernel
  apply List.pairwise_map.mpr
  apply List.Pairwise.imp ?_ ((@List.pairwise_map _ _ Prod.fst _ (presignPairs config now expires)).mp hnames)
  intro p p' hlt
  exact le_of_lt (Prod.Lex.toLex_lt_toLex.mpr (.inl hlt))

theorem canonicalQuery_presignPairs (haccess : urlSafe config.accessKey = true)
    (hregion : urlSafe config.region = true) :
    canonicalQuery (presignPairs config now expires) = presignQuery config now expires := by
  rw [presignQuery_eq haccess hregion, canonicalQuery_of_sorted presignPairs_sorted]

theorem values_expires : values (presignPairs config now expires) (utf8 "X-Amz-Expires")
    = [utf8 (toString expires.toNat)] := by
  simp [values, presignPairs, utf8_injective.eq_iff]

theorem values_signedHeaders : values (presignPairs config now expires)
    (utf8 "X-Amz-SignedHeaders") = [utf8 "host"] := by
  simp [values, presignPairs, utf8_injective.eq_iff]

/-- A signature is asked for with the parameters of the URL, and for at most seven days. -/
theorem claimed_presignPairs (h : expires.toNat ≤ maxExpires) :
    Claimed (account config) (presignPairs config now expires) (utf8 now.text) (utf8 "host") := by
  constructor
  · simp [values, presignPairs, utf8_injective.eq_iff]
  · simp [values, presignPairs, utf8_injective.eq_iff]
  · simp [values, presignPairs, utf8_injective.eq_iff]
  · exact ⟨expires.toNat, h, values_expires⟩
  · exact values_signedHeaders
  · decide +kernel

theorem no_signature : values (presignPairs config now expires) signatureName = [] := by
  simp [values, presignPairs, signatureName, utf8_injective.eq_iff]

/-- Two signatures that agree for every choice of hash and code are of one canonical request. -/
theorem canonical_of_sign (a : Account) (date date' : Bytes) {canonical canonical' : Bytes}
    (h : ∀ crypto : Crypto,
      a.sign crypto.primitives date canonical = a.sign crypto.primitives date' canonical') :
    canonical = canonical' := by
  by_contra hne
  -- the hash tells the two requests apart, and the code the two strings to sign
  let zeros : Vector UInt8 32 := Vector.replicate 32 0
  let ones : Vector UInt8 32 := Vector.replicate 32 1
  let text := a.stringToSign date zeros.toList
  let crypto : Crypto :=
    ⟨fun data => if data = canonical then zeros else ones,
      fun _ data => if data = text then zeros else ones⟩
  have hfirst : crypto.primitives.hash canonical = zeros.toList :=
    congrArg Vector.toList (if_pos rfl)
  have hsecond : crypto.primitives.hash canonical' = ones.toList :=
    congrArg Vector.toList (if_neg fun heq => hne heq.symm)
  have htext : a.stringToSign date' ones.toList ≠ text := by
    intro heq
    have hhash := Account.stringToSign_hash (by rw [Vector.length_toList, Vector.length_toList]) heq
    exact absurd hhash (by decide)
  have hsign := hexText_injective (h crypto)
  rw [hfirst, hsecond] at hsign
  have hleft : crypto.primitives.mac (a.signingKey crypto.primitives date) text = zeros.toList :=
    congrArg Vector.toList (if_pos rfl)
  have hright : crypto.primitives.mac (a.signingKey crypto.primitives date')
      (a.stringToSign date' ones.toList) = ones.toList :=
    congrArg Vector.toList (if_neg htext)
  rw [hright] at hsign
  exact absurd (hleft.symm.trans hsign) (by decide)

end Signing

/-! ## The requests -/

section Requests

variable {sets : Url.EncodeSets} {plus : UInt8} {config : StorageConfig} {now : AmzDate}
variable {userId : Uuid} {key : String} {method : Option String} {expirySecs : Option UInt64}
variable {origin : Origin} {parsed : Url.Parsed} {expires : UInt64}

/-- What a presigned URL needs to be let in. -/
structure Presignable (origin : Origin) (parsed : Url.Parsed) (expires : UInt64) : Prop where
  port : origin.port = none
  lifetime : expires.toNat ≤ maxExpires
  query : parsed.query = none
  fragment : parsed.fragment = none
  path : CanonicalUri parsed.path

theorem presign_ok (now : AmzDate) (expirySecs : Option UInt64)
    (hmethod : presignMethod method = "GET" ∨ presignMethod method = "PUT")
    (hkey : validateStorageKey key = .ok ())
    (h : objectUrl sets config.publicEndpoint config.bucket (userKey userId key)
      = .ok (origin, parsed)) (crypto : Crypto) :
    Routes.presign sets crypto config now userId key method expirySecs
      = .ok ⟨origin, parsed.text ++ byte '?' :: (presignQuery config now (expirySecs.getD 3600)
        ++ utf8 ("&X-Amz-Signature=" ++ signature crypto config now (presignCanonical config now
          (expirySecs.getD 3600) origin parsed.path (presignMethod method))))⟩ := by
  have hallowed : ¬ ((method.map Routes.uppercase).getD "GET" ≠ "GET" ∧
      (method.map Routes.uppercase).getD "GET" ≠ "PUT") := by
    rintro ⟨hget, hput⟩
    exact hmethod.elim hget hput
  unfold Routes.presign presignedUrl
  simp only [if_neg hallowed, hkey, h]
  simp only [presignMethod, List.append_assoc, List.cons_append]
  rfl

/-- A server reads the parameters, with what stands between two question marks among them. -/
theorem params_presigned (plus : UInt8) (now : AmzDate) (expires : UInt64)
    (haccess : urlSafe config.accessKey = true)
    (hregion : urlSafe config.region = true) (hquestion : sets.query (byte '?') = true)
    {text : Bytes} (hfragment : (Url.parse sets text).fragment = none) (bs : Bytes) :
    params plus ((Url.parse sets ((Url.parse sets text).text ++ byte '?' ::
        (presignQuery config now expires ++ utf8 ("&X-Amz-Signature=" ++ hexEncode bs)))).query.getD [])
      = params plus ((Url.parse sets text).query.elim [] (fun front => front ++ [byte '?'])
          ++ presignQuery config now expires) ++ [(signatureName, hexText bs)] := by
  have hname : ∀ b ∈ signatureName, unreserved b = true :=
    List.all_eq_true.mp rfl
  have hhex := unreserved_hexText bs
  have hlast : utf8 ("&X-Amz-Signature=" ++ hexEncode bs)
      = byte '&' :: (signatureName ++ byte '=' :: hexText bs) := by
    have hfront : utf8 "&X-Amz-Signature=" = byte '&' :: (signatureName ++ [byte '=']) := rfl
    rw [Codec.utf8_append, hfront, utf8_hexEncode, List.cons_append, List.append_assoc,
      List.singleton_append]
  have hkept : ∀ b ∈ presignQuery config now expires
      ++ utf8 ("&X-Amz-Signature=" ++ hexEncode bs), sets.query b = true := by
    have hcommon : ∀ b, (unreserved b || b == byte '%' || b == byte '=' || b == byte '&') = true →
        sets.query b = true := fun b hb => (sets.kept_common hb).2
    intro b hb
    rw [hlast, List.mem_append, List.mem_cons, List.mem_append, List.mem_cons] at hb
    apply hcommon
    rcases hb with hb | rfl | hb | rfl | hb
    · rw [presignQuery_eq haccess hregion] at hb
      exact mem_pairs hb
    · decide
    · simp [hname b hb]
    · decide
    · simp [hhex b hb]
  have hampersand : byte '&' ∉ hexText bs := by
    intro hmem
    exact absurd (hhex _ hmem) (by decide)
  rw [query_append hquestion hfragment hkept, Option.getD_some, hlast, ← List.append_assoc,
    params_append, params_last hname plus hampersand, readValue_name hhex]

/-- The Host header has no blank in it. -/
theorem hostHeader_visible (o : Origin) : ∀ c ∈ o.hostHeader.toList, ' ' < c ∧ c < '\x7f' := by
  intro c hc
  rw [Origin.hostHeader, String.toList_append, List.mem_append] at hc
  rcases hc with hc | hc
  · exact ⟨(o.plain c hc).1, (o.plain c hc).2.1⟩
  · cases hport : o.port with
    | none =>
        rw [hport] at hc
        cases hc
    | some p =>
        rw [hport, Option.elim_some, String.toList_append, List.mem_append] at hc
        rcases hc with hc | hc
        · rw [List.mem_singleton.mp hc]
          decide
        · exact printable_toString p c hc

/-- The host is signed without its port. -/
theorem host_signed_iff (o : Origin) :
    utf8 o.hostHeader = utf8 (lowercase o.host) ↔ o.port = none := by
  have hlower : lowercase o.host = o.host := by
    unfold lowercase
    apply String.toList_inj.mp
    rw [String.toList_ofList]
    conv_rhs => rw [← List.map_id o.host.toList]
    apply List.map_congr_left
    intro c hc
    exact Char.toLower_eq_of_not_isUpper (by simp [(o.plain c hc).2.2])
  rw [hlower, utf8_injective.eq_iff, Origin.hostHeader]
  constructor
  · intro h
    cases hport : o.port with
    | none => rfl
    | some p =>
        have hlength := congrArg (fun s : String => s.toList.length) h
        simp [hport] at hlength
  · intro h
    rw [h]
    exact String.append_empty

theorem question_not_mem (haccess : urlSafe config.accessKey = true)
    (hregion : urlSafe config.region = true) {p : Bytes × Bytes}
    (h : p ∈ presignPairs config now expires) : byte '?' ∉ p.1 ∧ byte '?' ∉ p.2 := by
  have hsafe : ∀ {t : Bytes}, (∀ b ∈ t, unreserved b = true) → byte '?' ∉ t :=
    fun ht hmem => absurd (ht _ hmem) (by decide)
  have hcredential : byte '?' ∉ (account config).credential (utf8 now.text) := by
    intro hmem
    rw [← utf8_credentialText, utf8_ascii fun c hc => (credential_chars haccess hregion c hc).elim
      (fun hslash => hslash ▸ by decide) And.left] at hmem
    obtain ⟨c, hc, hbyte⟩ := List.mem_map.mp hmem
    rcases credential_chars haccess hregion c hc with rfl | ⟨-, hkeep⟩
    · exact absurd hbyte (by decide)
    · rw [byte, hbyte] at hkeep
      exact absurd hkeep (by decide)
  have hname : ∀ name ∈ ["X-Amz-Credential", "X-Amz-Date", "X-Amz-Expires"],
      byte '?' ∉ utf8 name := by decide +kernel
  simp only [presignPairs, List.mem_cons, List.not_mem_nil, or_false] at h
  rcases h with rfl | rfl | rfl | rfl | rfl
  · decide +kernel
  · exact ⟨hname _ (by simp), hcredential⟩
  · exact ⟨hname _ (by simp), hsafe (unreserved_utf8 now.unreserved)⟩
  · exact ⟨hname _ (by simp), hsafe (unreserved_digits _)⟩
  · decide +kernel

/-- The headers of a browser's request. -/
def visitHeaders (o : Origin) (others : List (Bytes × Bytes)) : List (Bytes × Bytes) :=
  (utf8 "host", utf8 o.hostHeader) :: others

theorem headerValue_host (o : Origin) (others : List (Bytes × Bytes)) :
    headerValue (visitHeaders o others) (utf8 "host") = utf8 o.hostHeader := by
  unfold headerValue visitHeaders
  rw [List.find?_cons_of_pos (by simp), Option.map_some, Option.getD_some,
    trimBy_visible (hostHeader_visible o)]

/-- What the server signs: the path is encoded once more, and the host has its port. -/
theorem visit_canonical {url : UrlText} {text : Bytes} (verb : String)
    (others : List (Bytes × Bytes)) (hpath : (Url.parse sets url.tail).path = text)
    (ps : List (Bytes × Bytes)) (signed : List Bytes) :
    canonicalRequest (url.visit sets verb others) ps signed (utf8 "UNSIGNED-PAYLOAD")
      = assemble (utf8 verb) (canonicalUri text) (canonicalQuery ps)
        (signed.flatMap fun name =>
          headerLine name (headerValue (visitHeaders url.origin others) name))
        ([byte ';'].intercalate signed) (utf8 "UNSIGNED-PAYLOAD") := by
  unfold canonicalRequest
  rw [← hpath]
  rfl

theorem presignCanonical_eq (verb : String) (path : Bytes) :
    presignCanonical config now expires origin path verb
      = assemble (utf8 verb) path (presignQuery config now expires)
        (headerLine (utf8 "host") (utf8 (lowercase origin.host))) (utf8 "host")
        (utf8 "UNSIGNED-PAYLOAD") := by
  have hname : utf8 "host:" = utf8 "host" ++ [byte ':'] := rfl
  have hend : utf8 "\n" = [newline] := rfl
  unfold presignCanonical headerLine
  dsimp only
  rw [lines_six, Codec.utf8_append, Codec.utf8_append, hname, hend]
  simp only [List.append_assoc, List.cons_append, List.nil_append]

/-- The URL that the handler answers with. -/
def presigned (crypto : Crypto) (config : StorageConfig) (now : AmzDate) (origin : Origin)
    (parsed : Url.Parsed) (expires : UInt64) (verb : String) : UrlText :=
  ⟨origin, parsed.text ++ byte '?' :: (presignQuery config now expires
    ++ utf8 ("&X-Amz-Signature=" ++ signature crypto config now
      (presignCanonical config now expires origin parsed.path verb)))⟩

section Verdict

variable {verb : String} {others : List (Bytes × Bytes)} {text : Bytes}

theorem presigned_path (crypto : Crypto) :
    (Url.parse sets (presigned crypto config now origin (Url.parse sets text) expires verb).tail).path
      = (Url.parse sets text).path :=
  Url.path_append text (follows_question _)

/-- What the server reads as parameters. -/
theorem params_visit (haccess : urlSafe config.accessKey = true)
    (hregion : urlSafe config.region = true) (hquestion : sets.query (byte '?') = true)
    (hfragment : (Url.parse sets text).fragment = none) (crypto : Crypto) :
    params plus ((presigned crypto config now origin (Url.parse sets text) expires verb).visit sets
        verb others).query
      = params plus ((Url.parse sets text).query.elim [] (fun front => front ++ [byte '?'])
          ++ presignQuery config now expires)
        ++ [(signatureName, (account config).sign crypto.primitives (utf8 now.text)
          (presignCanonical config now expires origin (Url.parse sets text).path verb))] := by
  obtain ⟨bs, hbs⟩ : ∃ bs, signature crypto config now (presignCanonical config now expires origin
      (Url.parse sets text).path verb) = hexEncode bs := ⟨_, rfl⟩
  have hread := params_presigned plus now expires haccess hregion hquestion hfragment bs
  rw [← utf8_signature, hbs, utf8_hexEncode, ← hread]
  unfold UrlText.visit SigV4.visit presigned
  rw [hbs]

theorem params_presignQuery (haccess : urlSafe config.accessKey = true)
    (hregion : urlSafe config.region = true) :
    params plus (presignQuery config now expires) = presignPairs config now expires := by
  rw [presignQuery_eq haccess hregion]
  exact params_encodePairs (List.cons_ne_nil _ _)

theorem admits_of_presignable (haccess : urlSafe config.accessKey = true)
    (hregion : urlSafe config.region = true) (hquestion : sets.query (byte '?') = true)
    (h : Presignable origin (Url.parse sets text) expires) (crypto : Crypto) :
    Admits (account config) crypto.primitives plus
      ((presigned crypto config now origin (Url.parse sets text) expires verb).visit sets verb
        others) := by
  rw [admits_signed (params_visit haccess hregion hquestion h.fragment crypto), h.query,
    Option.elim_none, List.nil_append, params_presignQuery haccess hregion]
  refine ⟨utf8 now.text, utf8 "host", claimed_presignPairs h.lifetime, no_signature, ?_⟩
  have hnames : (utf8 "host").splitOn (byte ';') = [utf8 "host"] := rfl
  rw [hnames, visit_canonical verb others (presigned_path crypto), presignCanonical_eq,
    canonicalUri_iff.mpr h.path, canonicalQuery_presignPairs haccess hregion,
    ← (host_signed_iff origin).mpr h.port, List.flatMap_singleton, headerValue_host,
    List.intercalate_singleton]
  rfl

/-- A signature that stands in the fragment does not arrive. -/
theorem no_fragment_of_admits
    (h : ∀ crypto, Admits (account config) crypto.primitives plus
      ((presigned crypto config now origin (Url.parse sets text) expires verb).visit sets verb
        others)) : (Url.parse sets text).fragment = none := by
  cases hfragment : (Url.parse sets text).fragment with
  | none => rfl
  | some f =>
      exfalso
      -- two codes sign differently, and the server is asked the same
      let code (b : UInt8) : Crypto :=
        ⟨fun _ => Vector.replicate 32 0, fun _ _ => Vector.replicate 32 b⟩
      obtain ⟨date, signed, -, hvalues⟩ := h (code 0)
      obtain ⟨date', signed', -, hvalues'⟩ := h (code 1)
      have hquery : ((presigned (code 0) config now origin (Url.parse sets text) expires verb).visit
          sets verb others).query = ((presigned (code 1) config now origin (Url.parse sets text)
            expires verb).visit sets verb others).query := by
        unfold UrlText.visit SigV4.visit presigned
        dsimp only
        exact congrArg (fun q : Option Bytes => q.getD []) (query_behind_fragment hfragment _ _)
      rw [hquery, hvalues'] at hvalues
      have hmac : ∀ b key data, (code b).primitives.mac key data = List.replicate 32 b :=
        fun _ _ _ => Vector.toList_replicate
      have hsign := hexText_injective (List.singleton_inj.mp hvalues)
      rw [hmac, hmac] at hsign
      exact absurd hsign (by decide)

/-- The server signs what the client has signed. -/
theorem presignable_of_admits (haccess : urlSafe config.accessKey = true)
    (hregion : urlSafe config.region = true) (hquestion : sets.query (byte '?') = true)
    (h : ∀ crypto, Admits (account config) crypto.primitives plus
      ((presigned crypto config now origin (Url.parse sets text) expires verb).visit sets verb
        others)) : Presignable origin (Url.parse sets text) expires := by
  have hfragment := no_fragment_of_admits h
  have hsigned := fun crypto =>
    (admits_signed (params_visit haccess hregion hquestion hfragment crypto)).mp (h crypto)
  generalize hps : params plus ((Url.parse sets text).query.elim []
    (fun front => front ++ [byte '?']) ++ presignQuery config now expires) = ps at hsigned
  obtain ⟨date, names, hclaimed, -, -⟩ := hsigned Sample.crypto
  have hsame : presignCanonical config now expires origin (Url.parse sets text).path verb
      = assemble (utf8 verb) (canonicalUri (Url.parse sets text).path) (canonicalQuery ps)
        ((names.splitOn (byte ';')).flatMap fun name =>
          headerLine name (headerValue (visitHeaders origin others) name))
        ([byte ';'].intercalate (names.splitOn (byte ';'))) (utf8 "UNSIGNED-PAYLOAD") := by
    apply canonical_of_sign (account config) (utf8 now.text) date
    intro crypto
    obtain ⟨date', names', hclaimed', -, hsign⟩ := hsigned crypto
    have hdate := List.singleton_inj.mp (hclaimed'.date.symm.trans hclaimed.date)
    have hnames := List.singleton_inj.mp (hclaimed'.names.symm.trans hclaimed.names)
    rw [hdate, hnames, visit_canonical verb others (presigned_path crypto)] at hsign
    exact hsign
  rw [presignCanonical_eq] at hsame
  have hpath : newline ∉ (Url.parse sets text).path := fun hmem =>
    newline_not_mem_url ((Url.parse_settled sets text).visible _ hmem).1 rfl
  have hnewline : newline ∉ presignQuery config now expires := by
    rw [← canonicalQuery_presignPairs haccess hregion]
    exact newline_not_mem_canonicalQuery _
  obtain ⟨huri, hquery, hrest⟩ := assemble_inj_rest hpath (newline_not_mem_canonicalUri _)
    hnewline (newline_not_mem_canonicalQuery _) hsame
  have hne : ps ≠ [] := by
    rintro rfl
    cases hclaimed.algorithm
  have hperm : (presignPairs config now expires).Perm ps := by
    have hpairs : presignPairs config now expires ≠ [] := List.cons_ne_nil _ _
    apply perm_of_canonicalQuery hpairs hne
    rw [canonicalQuery_presignPairs haccess hregion, hquery]
  have hnone : (Url.parse sets text).query = none := by
    cases hfront : (Url.parse sets text).query with
    | none => rfl
    | some front =>
        exfalso
        have hmark : byte '?' ∈ front ++ [byte '?'] ++ presignQuery config now expires := by simp
        obtain ⟨p, hp, hmem⟩ := mem_params plus (by decide) (by decide) (by decide)
          (by decide) (by decide) hmark
        rw [hfront, Option.elim_some] at hps
        rw [hps] at hp
        obtain ⟨hname, hvalue⟩ := question_not_mem haccess hregion (hperm.mem_iff.mpr hp)
        exact hmem.elim hname hvalue
  rw [hnone, Option.elim_none, List.nil_append, params_presignQuery haccess hregion] at hps
  subst hps
  obtain ⟨n, hn, hexpires⟩ := hclaimed.expires
  have hlifetime : n = expires.toNat := by
    have htext := List.singleton_inj.mp (hexpires.symm.trans values_expires)
    exact Nat.repr_injective (utf8_injective htext)
  have hhost : names = utf8 "host" :=
    List.singleton_inj.mp (hclaimed.names.symm.trans values_signedHeaders)
  have hsplit : (utf8 "host").splitOn (byte ';') = [utf8 "host"] := rfl
  rw [hhost, hsplit, List.flatMap_singleton, headerValue_host, List.intercalate_singleton] at hrest
  have hline := List.append_cancel_right hrest
  unfold headerLine at hline
  have hvalue := (List.cons.inj (List.append_cancel_left (List.append_cancel_right hline))).2
  constructor
  · exact (host_signed_iff origin).mp hvalue.symm
  · exact hlifetime ▸ hn
  · exact hnone
  · exact hfragment
  · exact canonicalUri_iff.mp huri.symm

end Verdict

/-- S3 lets in what a presigned URL makes a browser ask for, whatever the hash and the code are,
exactly when the URL is presignable. -/
theorem presign_admitted_iff (haccess : urlSafe config.accessKey = true)
    (hregion : urlSafe config.region = true) (hquestion : sets.query (byte '?') = true)
    (hmethod : presignMethod method = "GET" ∨ presignMethod method = "PUT")
    (hkey : validateStorageKey key = .ok ())
    (h : objectUrl sets config.publicEndpoint config.bucket (userKey userId key)
      = .ok (origin, parsed)) (others : List (Bytes × Bytes)) :
    (∀ crypto : Crypto, ∃ url,
      Routes.presign sets crypto config now userId key method expirySecs = .ok url ∧
        Admits (account config) crypto.primitives plus
          (url.visit sets (presignMethod method) others)) ↔
      Presignable origin parsed (expirySecs.getD 3600) := by
  have hanswer := presign_ok now expirySecs hmethod hkey h
  obtain rfl := objectUrl_ok h
  constructor
  · intro hall
    apply presignable_of_admits haccess hregion hquestion
    intro crypto
    obtain ⟨url, hurl, hadmits⟩ := hall crypto
    obtain rfl := Except.ok.inj ((hanswer crypto).symm.trans hurl)
    exact hadmits
  · intro hpresignable crypto
    exact ⟨_, hanswer crypto, admits_of_presignable haccess hregion hquestion hpresignable crypto⟩

end Requests

theorem presign_admitted_iff_download :
    ∃ origin parsed, objectUrl Url.whatwg Sample.config.publicEndpoint Sample.config.bucket
        (userKey Sample.alice "a.txt") = .ok (origin, parsed) ∧
      ((∀ crypto : Crypto, ∃ url, Routes.presign Url.whatwg crypto Sample.config Sample.now
          Sample.alice "a.txt" none none = .ok url ∧
            Admits (account Sample.config) crypto.primitives (byte ' ')
              (url.visit Url.whatwg (presignMethod none) [])) ↔ Presignable origin parsed 3600) := by
  have hkey : validateStorageKey "a.txt" = .ok () := by
    have haccepted : (validateStorageKey "a.txt").isOk = true := by decide +kernel
    cases hresult : validateStorageKey "a.txt" with
    | error e =>
        rw [hresult] at haccepted
        cases haccepted
    | ok _ => rfl
  cases hurl : objectUrl Url.whatwg Sample.config.publicEndpoint Sample.config.bucket
      (userKey Sample.alice "a.txt") with
  | error e =>
      have hok : (objectUrl Url.whatwg Sample.config.publicEndpoint Sample.config.bucket
        (userKey Sample.alice "a.txt")).isOk = true := by decide +kernel
      rw [hurl] at hok
      cases hok
  | ok pair =>
      obtain ⟨origin, parsed⟩ := pair
      exact ⟨origin, parsed, rfl, presign_admitted_iff (by decide +kernel) (by decide +kernel)
        (by decide) (.inl rfl) hkey hurl []⟩

end FullStackHex.Storage
