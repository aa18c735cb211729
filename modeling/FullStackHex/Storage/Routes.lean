import FullStackHex.Library.Splitting
import FullStackHex.Storage.Canonical

/-!
The handlers of `storage/src/routes.rs`, up to the URL that each of them asks for or signs, and the
directory that the path of this URL is in.
-/

namespace FullStackHex.Storage

open Codec Percent

/-- The components are those between slashes. -/
def validateStorageKey (key : String) : Except ApiError Unit :=
  if key = "" then .error (.validationError "Invalid storage key")
  else
    match fromUtf8 (decode (utf8 key)) with
    | none => .error (.validationError "Invalid storage key encoding")
    | some decoded =>
        if decoded.toList.contains (Char.ofNat 0) || decoded.toList.contains '\\' then
          .error (.validationError "Invalid storage key")
        else if (Splitting.split "/".toList decoded.toList).contains "..".toList then
          .error (.validationError "Invalid storage key")
        else .ok ()

def userKey (userId : Uuid) (key : String) : String := "users/" ++ userId.text ++ "/" ++ key

/-! ## The handlers -/

namespace Routes

variable (sets : Url.EncodeSets) (crypto : Crypto) (config : StorageConfig) (now : AmzDate)
variable (userId : Uuid)

def upload (key : String) : Except ApiError Issued := do
  validateStorageKey key
  uploadStreaming sets crypto config now (userKey userId key) "application/octet-stream"

def download (key : String) : Except ApiError Issued := do
  validateStorageKey key
  downloadStreaming sets crypto config now (userKey userId key)

def delete (key : String) : Except ApiError Issued := do
  validateStorageKey key
  Storage.delete sets crypto config now (userKey userId key)

def uppercase (s : String) : String := String.ofList (s.toList.map Char.toUpper)

def presign (key : String) (method : Option String) (expirySecs : Option UInt64) :
    Except ApiError UrlText := do
  let method := (method.map uppercase).getD "GET"
  if method ≠ "GET" ∧ method ≠ "PUT" then
    throw (.validationError "method must be GET or PUT")
  let expirySecs := expirySecs.getD 3600
  validateStorageKey key
  presignedUrl sets crypto config now (userKey userId key) method expirySecs

def initMultipart (key : String) (contentType : Option String) : Except ApiError Issued := do
  validateStorageKey key
  createMultipartUpload sets crypto config now (userKey userId key)
    (contentType.getD "application/octet-stream")

def uploadPart (key uploadId : String) (partNumber : UInt32) : Except ApiError Issued :=
  uploadPartStreaming sets crypto config now (userKey userId key) uploadId partNumber

def completeMultipart (key uploadId : String) (parts : List PartInfo) : Except ApiError Issued :=
  completeMultipartUpload sets crypto config now (userKey userId key) uploadId parts

def abortMultipart (key uploadId : String) : Except ApiError Issued :=
  abortMultipartUpload sets crypto config now (userKey userId key) uploadId

end Routes

/-- A request for one object. Keys and upload ids have been decoded. -/
inductive ObjectCall where
  | upload (key : String)
  | download (key : String)
  | delete (key : String)
  | presign (key : String) (method : Option String) (expirySecs : Option UInt64)
  | initMultipart (key : String) (contentType : Option String)
  | uploadPart (key uploadId : String) (partNumber : UInt32)
  | completeMultipart (key uploadId : String) (parts : List PartInfo)
  | abortMultipart (key uploadId : String)

namespace ObjectCall

def key : ObjectCall → String
  | .upload key | .download key | .delete key | .presign key _ _ | .initMultipart key _
  | .uploadPart key _ _ | .completeMultipart key _ _ | .abortMultipart key _ => key

/-- The URL that is requested, or presigned. -/
def url (sets : Url.EncodeSets) (crypto : Crypto) (config : StorageConfig) (now : AmzDate)
    (userId : Uuid) (call : ObjectCall) : Except ApiError UrlText :=
  let asked (issued : Except ApiError Issued) := issued.map fun i => i.request.url
  match call with
  | .upload key => asked (Routes.upload sets crypto config now userId key)
  | .download key => asked (Routes.download sets crypto config now userId key)
  | .delete key => asked (Routes.delete sets crypto config now userId key)
  | .presign key method expirySecs =>
      Routes.presign sets crypto config now userId key method expirySecs
  | .initMultipart key contentType =>
      asked (Routes.initMultipart sets crypto config now userId key contentType)
  | .uploadPart key uploadId partNumber =>
      asked (Routes.uploadPart sets crypto config now userId key uploadId partNumber)
  | .completeMultipart key uploadId parts =>
      asked (Routes.completeMultipart sets crypto config now userId key uploadId parts)
  | .abortMultipart key uploadId =>
      asked (Routes.abortMultipart sets crypto config now userId key uploadId)

end ObjectCall

/-! ## The directory of a user -/

/-- The directory of the user, in the path of a URL. -/
def home (config : StorageConfig) (userId : Uuid) : List Bytes :=
  [utf8 config.bucket.name, utf8 "users", utf8 userId.text]

/-- What a key's segments lead to, from the directory of its user. -/
def keyWay (key : String) : Url.Way := Url.Way.go ⟨0, []⟩ (Url.furtherSegments (utf8 key))

section Urls

variable {sets : Url.EncodeSets} {crypto : Crypto} {config : StorageConfig} {now : AmzDate}
variable {userId : Uuid} {key : String} {url : UrlText} {i : Issued} {call : ObjectCall}

/-- The characters of bucket names and of user ids. -/
theorem unreserved_byte {c : Char} (h : isBucketChar c = true ∨ isHexDigit c = true) :
    c.toNat < 128 ∧ unreserved (byte c) = true := by
  have hcode : (48 ≤ c.toNat ∧ c.toNat ≤ 57) ∨ (65 ≤ c.toNat ∧ c.toNat ≤ 70) ∨
      (97 ≤ c.toNat ∧ c.toNat ≤ 122) ∨ c.toNat = 45 ∨ c.toNat = 46 := by
    simp only [isBucketChar, isHexDigit, Bool.or_eq_true, Bool.and_eq_true, decide_eq_true_eq,
      beq_iff_eq, Char.le_def, UInt32.le_iff_toNat_le] at h
    rcases h with (((h | h) | rfl) | rfl) | (h | h) | h
    · exact .inr (.inr (.inl h))
    · exact .inl h
    · decide
    · decide
    · exact .inl h
    · exact .inr (.inr (.inl ⟨h.1, h.2.trans (by decide)⟩))
    · exact .inr (.inl h)
  have hbyte : (byte c).toNat = c.toNat := UInt8.toNat_ofNat_of_lt' (by change _ < 256; omega)
  refine ⟨by omega, ?_⟩
  simp only [unreserved, hbyte, Bool.or_eq_true, Bool.and_eq_true, decide_eq_true_eq, beq_iff_eq]
  omega

theorem unreserved_utf8 {s : String}
    (h : ∀ c ∈ s.toList, c.toNat < 128 ∧ unreserved (byte c) = true) :
    ∀ b ∈ utf8 s, unreserved b = true := by
  intro b hb
  rw [utf8_ascii fun c hc => (h c hc).1] at hb
  obtain ⟨c, hc, rfl⟩ := List.mem_map.mp hb
  exact (h c hc).2

/-- A text of unreserved bytes that is longer than two is no dot segment. -/
theorem not_dots {s : Bytes} (h : ∀ b ∈ s, unreserved b = true) (hlength : 2 < s.length) :
    Url.doubleDot s = false ∧ Url.singleDot s = false := by
  have hdecode : decode s = s := by
    have hencode : encode unreserved s = s := encode_eq_self h
    rw [← hencode]
    exact (decode_encode (by decide) s).trans hencode.symm
  unfold Url.doubleDot Url.singleDot
  rw [hdecode, beq_eq_false_iff_ne, beq_eq_false_iff_ne]
  constructor
  · rintro rfl
    exact absurd hlength (by decide)
  · rintro rfl
    exact absurd hlength (by decide)

theorem home_spec (config : StorageConfig) (userId : Uuid) : Url.Home (home config userId) := by
  have hbucket := config.bucket.wellFormed
  simp only [isBucketName, Bool.and_eq_true, decide_eq_true_eq, List.all_eq_true] at hbucket
  have hname : ∀ c ∈ config.bucket.name.toList, c.toNat < 128 ∧ unreserved (byte c) = true :=
    fun c hc => unreserved_byte (.inl (hbucket.1.1.2 c hc))
  have huser : ∀ c ∈ userId.text.toList, c.toNat < 128 ∧ unreserved (byte c) = true := by
    intro c hc
    rcases userId.char_cases hc with hdigit | rfl
    · exact unreserved_byte (.inr hdigit)
    · decide
  have hlengths : 2 < (utf8 config.bucket.name).length ∧ 2 < (utf8 userId.text).length := by
    rw [utf8_ascii fun c hc => (hname c hc).1, utf8_ascii fun c hc => (huser c hc).1,
      List.length_map, List.length_map, (isUuid_getElem userId.wellFormed).1]
    exact ⟨by omega, by decide⟩
  have hbytes : ∀ s ∈ home config userId, ∀ b ∈ s, unreserved b = true := by
    intro s hs
    simp only [home, List.mem_cons, List.not_mem_nil, or_false] at hs
    rcases hs with rfl | rfl | rfl
    · exact unreserved_utf8 hname
    · exact List.all_eq_true.mp (by decide +kernel)
    · exact unreserved_utf8 huser
  refine ⟨hbytes, fun s hs => not_dots (hbytes s hs) ?_⟩
  simp only [home, List.mem_cons, List.not_mem_nil, or_false] at hs
  rcases hs with rfl | rfl | rfl
  · exact hlengths.1
  · decide +kernel
  · exact hlengths.2

/-- The text behind the origin of an object's URL. -/
theorem objectPath_eq (config : StorageConfig) (userId : Uuid) (key : String) :
    utf8 ("/" ++ config.bucket.name ++ "/" ++ userKey userId key)
      = Url.pathText (home config userId) ++ byte '/' :: utf8 key := by
  have hslash : utf8 "/" = [byte '/'] := by decide +kernel
  have husers : utf8 "users/" = utf8 "users" ++ [byte '/'] := by decide +kernel
  simp only [userKey, utf8_append, hslash, husers, Url.pathText, home, List.flatMap_cons,
    List.flatMap_nil, List.append_assoc, List.cons_append, List.nil_append, List.append_nil]

theorem userKey_ne_empty (userId : Uuid) (key : String) : userKey userId key ≠ "" := by
  intro hempty
  have hlength := congrArg String.length hempty
  simp [userKey] at hlength

theorem objectUrl_ok {endpoint : Except String Origin} {origin : Origin} {parsed : Url.Parsed}
    (h : objectUrl sets endpoint config.bucket (userKey userId key) = .ok (origin, parsed)) :
    parsed = Url.parse sets (Url.pathText (home config userId) ++ byte '/' :: utf8 key) := by
  cases endpoint with
  | error e => cases h
  | ok base =>
      have hpair := Except.ok.inj h
      dsimp only at hpair
      rw [if_neg (userKey_ne_empty userId key), objectPath_eq] at hpair
      exact (Prod.mk.inj hpair).2.symm

theorem objectUrlText_ok (h : objectUrlText sets config (userKey userId key) = .ok url) :
    url.tail = (Url.parse sets (Url.pathText (home config userId) ++ byte '/' :: utf8 key)).text := by
  unfold objectUrlText at h
  cases hurl : objectUrl sets config.endpoint config.bucket (userKey userId key) with
  | error e =>
      rw [hurl] at h
      cases h
  | ok pair =>
      obtain ⟨origin, parsed⟩ := pair
      rw [hurl] at h
      obtain rfl := Except.ok.inj h
      exact congrArg Url.Parsed.text (objectUrl_ok hurl)

/-- The URL of an object, and what is appended to it. -/
theorem issued_tail {send' : UrlText → Except ApiError Issued} {rest : Bytes}
    (h : (objectUrlText sets config (userKey userId key) >>= send') = .ok i)
    (hsend : ∀ base, send' base = .ok i → i.request.url.tail = base.tail ++ rest) :
    i.request.url.tail
      = (Url.parse sets (Url.pathText (home config userId) ++ byte '/' :: utf8 key)).text ++ rest := by
  obtain ⟨base, hbase, hissue⟩ := bind_ok (x := objectUrlText sets config (userKey userId key)) h
  rw [hsend base hissue, objectUrlText_ok hbase]

/-- What a request sends goes to the URL that it is given. -/
theorem send_tail {label method : String} {url : UrlText} {headers : List (String × String)}
    {signed : SignedRequest} (h : send label ⟨method, url, headers⟩ signed = .ok i) :
    i.request.url = url := by
  rw [(send_ok h).1]

/-- The URL of the object in the directory of the user, with a query or nothing behind it. -/
def Addresses (sets : Url.EncodeSets) (config : StorageConfig) (userId : Uuid) (key : String)
    (url : UrlText) : Prop :=
  ∃ rest, Url.Follows rest ∧ url.tail
    = (Url.parse sets (Url.pathText (home config userId) ++ byte '/' :: utf8 key)).text ++ rest

theorem follows_question (text : Bytes) : Url.Follows (byte '?' :: text) := by
  intro b hb
  obtain rfl := Option.some.inj hb
  decide

theorem question_append {s t : String} {rest : Bytes} (h : utf8 s = byte '?' :: rest) :
    utf8 (s ++ t) = byte '?' :: (rest ++ utf8 t) := by
  rw [utf8_append, h, List.cons_append]

/-- The queries of the multipart calls. -/
theorem utf8_uploads : utf8 "?uploads" = byte '?' :: utf8 "uploads" := by decide +kernel

theorem utf8_uploadId (uploadId : String) :
    utf8 ("?uploadId=" ++ uploadId) = byte '?' :: (utf8 "uploadId=" ++ utf8 uploadId) := by
  apply question_append
  decide +kernel

theorem utf8_partSuffix (uploadId : String) (partNumber : UInt32) :
    utf8 (partSuffix uploadId partNumber) = byte '?' :: (utf8 "partNumber="
      ++ utf8 (toString partNumber.toNat) ++ utf8 "&uploadId=" ++ utf8 uploadId) := by
  apply question_append
  apply question_append
  apply question_append
  decide +kernel

theorem addresses_of_issued {asked : Except ApiError Issued} {rest : Bytes}
    (h : (asked.map fun i => i.request.url) = .ok url) (hrest : Url.Follows rest)
    (htail : ∀ i, asked = .ok i → i.request.url.tail
      = (Url.parse sets (Url.pathText (home config userId) ++ byte '/' :: utf8 key)).text ++ rest) :
    Addresses sets config userId key url := by
  cases asked with
  | error e => cases h
  | ok i =>
      obtain rfl := Except.ok.inj h
      exact ⟨rest, hrest, htail i rfl⟩

theorem presignedUrl_tail {method : String} {expires : UInt64}
    (h : presignedUrl sets crypto config now (userKey userId key) method expires = .ok url) :
    Addresses sets config userId key url := by
  obtain ⟨pair, hurl, hdone⟩ :=
    bind_ok (x := objectUrl sets config.publicEndpoint config.bucket (userKey userId key)) h
  obtain ⟨origin, parsed⟩ := pair
  obtain rfl := Except.ok.inj hdone
  obtain rfl := objectUrl_ok hurl
  exact ⟨_, follows_question _, List.append_assoc _ _ _⟩

/-- Every handler asks for the object that its key names. -/
theorem ObjectCall.addresses (h : call.url sets crypto config now userId = .ok url) :
    Addresses sets config userId call.key url := by
  have hnone : Url.Follows [] := fun _ hb => nomatch hb
  have hplain : ∀ {label method : String} {base : UrlText} {headers : List (String × String)}
      {signed : SignedRequest} {i : Issued}, send label ⟨method, base, headers⟩ signed = .ok i →
      i.request.url.tail = base.tail ++ [] := by
    intro label method base headers signed i hsend
    rw [send_tail hsend, List.append_nil]
  have hsuffix : ∀ {label method s : String} {base : UrlText} {headers : List (String × String)}
      {signed : SignedRequest} {i : Issued},
      send label ⟨method, base.append s, headers⟩ signed = .ok i →
      i.request.url.tail = base.tail ++ utf8 s := by
    intro label method s base headers signed i hsend
    rw [send_tail hsend]
    rfl
  cases call with
  | upload key =>
      refine addresses_of_issued h hnone fun i hi => ?_
      obtain ⟨_, -, hissue⟩ := bind_ok (x := validateStorageKey key) hi
      exact issued_tail hissue fun base hsend => hplain hsend
  | download key =>
      refine addresses_of_issued h hnone fun i hi => ?_
      obtain ⟨_, -, hissue⟩ := bind_ok (x := validateStorageKey key) hi
      exact issued_tail hissue fun base hsend => hplain hsend
  | delete key =>
      refine addresses_of_issued h hnone fun i hi => ?_
      obtain ⟨_, -, hissue⟩ := bind_ok (x := validateStorageKey key) hi
      exact issued_tail hissue fun base hsend => hplain hsend
  | presign key method expirySecs =>
      simp only [ObjectCall.url, Routes.presign] at h
      split_ifs at h with hmethod
      · cases h
      · obtain ⟨_, -, hsigned⟩ := bind_ok (x := validateStorageKey key) h
        exact presignedUrl_tail hsigned
  | initMultipart key contentType =>
      have hfollows := follows_question (utf8 "uploads")
      rw [← utf8_uploads] at hfollows
      refine addresses_of_issued h hfollows fun i hi => ?_
      obtain ⟨_, -, hissue⟩ := bind_ok (x := validateStorageKey key) hi
      exact issued_tail hissue fun base hsend => hsuffix hsend
  | uploadPart key uploadId partNumber =>
      have hfollows := follows_question (utf8 "partNumber=" ++ utf8 (toString partNumber.toNat)
        ++ utf8 "&uploadId=" ++ utf8 uploadId)
      rw [← utf8_partSuffix] at hfollows
      refine addresses_of_issued h hfollows fun i hi => ?_
      exact issued_tail hi fun base hsend => hsuffix hsend
  | completeMultipart key uploadId parts =>
      have hfollows := follows_question (utf8 "uploadId=" ++ utf8 uploadId)
      rw [← utf8_uploadId] at hfollows
      refine addresses_of_issued h hfollows fun i hi => ?_
      exact issued_tail hi fun base hsend => hsuffix hsend
  | abortMultipart key uploadId =>
      have hfollows := follows_question (utf8 "uploadId=" ++ utf8 uploadId)
      rw [← utf8_uploadId] at hfollows
      refine addresses_of_issued h hfollows fun i hi => ?_
      exact issued_tail hi fun base hsend => hsuffix hsend

/-- The path is in the directory of the user exactly when the segments of the key do not leave it,
or come back to it. -/
theorem in_home_iff (h : call.url sets crypto config now userId = .ok url) :
    utf8 ("/" ++ config.bucket.name ++ "/users/" ++ userId.text ++ "/")
        <+: (Url.parse sets url.tail).path ↔
      (keyWay call.key).Returns (home config userId) := by
  obtain ⟨rest, hrest, htail⟩ := ObjectCall.addresses h
  have hdirectory : utf8 ("/" ++ config.bucket.name ++ "/users/" ++ userId.text ++ "/")
      = Url.pathText (home config userId) ++ [byte '/'] := by
    have husers : "/users/" = "/" ++ "users/" := by decide
    have hkey : "/" ++ config.bucket.name ++ "/users/" ++ userId.text ++ "/"
        = "/" ++ config.bucket.name ++ "/" ++ userKey userId "" := by
      rw [husers, userKey]
      simp only [String.append_assoc, String.append_empty]
    rw [hkey, objectPath_eq]
    rfl
  rw [htail, Url.path_append _ hrest, hdirectory]
  exact (home_spec config userId).below_iff_returns (utf8 call.key)

end Urls

namespace Sample

def alice : Uuid := ⟨"a11ce000-1111-4111-8111-111111111111", by decide +kernel⟩

end Sample

theorem in_home_iff_download :
    ∃ url, (ObjectCall.download "a.txt").url Url.whatwg Sample.crypto Sample.config Sample.now
        Sample.alice = .ok url ∧
      (utf8 ("/" ++ Sample.config.bucket.name ++ "/users/" ++ Sample.alice.text ++ "/")
          <+: (Url.parse Url.whatwg url.tail).path ↔
        (keyWay "a.txt").Returns (home Sample.config Sample.alice)) := by
  cases hurl : (ObjectCall.download "a.txt").url Url.whatwg Sample.crypto Sample.config Sample.now
      Sample.alice with
  | error e =>
      have hok : ((ObjectCall.download "a.txt").url Url.whatwg Sample.crypto Sample.config
        Sample.now Sample.alice).isOk = true := by decide +kernel
      rw [hurl] at hok
      cases hok
  | ok url =>
      have hiff := in_home_iff hurl
      exact ⟨url, rfl, hiff⟩

/-- The calls of a multipart upload do not check the key, and a tab inside the dots gets past the
check. Both requests are for an object of another user. -/
theorem key_leaves_home :
    ((ObjectCall.abortMultipart "../22222222-2222-4222-8222-222222222222/secret.txt" "UPLOADID").url
        Url.whatwg Sample.crypto Sample.config Sample.now Sample.alice).toOption.map
          (fun url => (Url.parse Url.whatwg url.tail).path)
      = some (utf8 "/uploads/users/22222222-2222-4222-8222-222222222222/secret.txt") ∧
    ((ObjectCall.download ".\t./22222222-2222-4222-8222-222222222222/secret.txt").url Url.whatwg
        Sample.crypto Sample.config Sample.now Sample.alice).toOption.map
          (fun url => (Url.parse Url.whatwg url.tail).path)
      = some (utf8 "/uploads/users/22222222-2222-4222-8222-222222222222/secret.txt") := by
  refine ⟨?_, ?_⟩
  all_goals decide +kernel

end FullStackHex.Storage
