import FullStackHex.Library.Refinement
import FullStackHex.Storage.KeyUrls
import FullStackHex.Storage.Listing

/-!
Runs of the object handlers of `storage/src/routes.rs` against an object server. To its users the
storage is a map from keys to bytes, one for each of them, as long as the keys are texts that a path
keeps.
-/

namespace FullStackHex.Storage

open Codec Percent Refinement

/-! ## The handlers and a server -/

/-- A server that keeps objects under the names that are decoded from paths. Which object a URL with a
query is about is its own affair. -/
structure ObjectServer (sets : Url.EncodeSets) (bucket : Bucket) where
  objectOf : UrlText → Bytes
  named : ∀ url name, (Url.parse sets url.tail).query = none →
    decode (Url.parse sets url.tail).path = utf8 ("/" ++ bucket.name ++ "/") ++ name →
      objectOf url = name

inductive ObjectOp where
  | upload (key : String) (body : Bytes)
  | download (key : String)
  | delete (key : String)

def ObjectOp.key : ObjectOp → String
  | .upload key _ | .download key | .delete key => key

structure ObjectRequest where
  user : Uuid
  now : AmzDate
  op : ObjectOp

inductive ObjectAnswer where
  | failed (e : ApiError)
  | created
  | object (body : Bytes)
  | noContent

/-- The guard of `download_streaming`. -/
def maxDownload : Nat := 500 * 1024 * 1024

/-- What `download` makes of the answer of the server. -/
def downloaded (key : String) : Option Bytes → ObjectAnswer
  | none => .failed (.notFound ("Object not found: " ++ key))
  | some body =>
      if maxDownload < body.length then
        .failed (.validationError ("Object too large for streaming download: " ++ key ++ " ("
          ++ toString body.length ++ " bytes, max 500MB)"))
      else .object body

section Machines

variable (sets : Url.EncodeSets) (crypto : Crypto) (config : StorageConfig)

/-- What the handler of a request asks the server for. -/
def ObjectRequest.issue (r : ObjectRequest) : Except ApiError Issued :=
  match r.op with
  | .upload key _ => Routes.upload sets crypto config r.now r.user key
  | .download key => Routes.download sets crypto config r.now r.user key
  | .delete key => Routes.delete sets crypto config r.now r.user key

/-- The handlers, with the objects that the server holds. -/
def handle (server : ObjectServer sets config.bucket) :
    Machine (Bytes → Option Bytes) ObjectRequest ObjectAnswer := fun r store =>
  match r.issue sets crypto config with
  | .error e => (.failed e, store)
  | .ok issued =>
      let object := server.objectOf issued.request.url
      match r.op with
      | .upload _ body => (.created, Function.update store object (some body))
      | .download key => (downloaded (userKey r.user key) (store object), store)
      | .delete _ => (.noContent, Function.update store object none)

/-- What users take the storage for: bytes under the keys of each of them. -/
def keep : Machine (Uuid × String → Option Bytes) ObjectRequest ObjectAnswer := fun r files =>
  match r.issue sets crypto config with
  | .error e => (.failed e, files)
  | .ok _ =>
      match r.op with
      | .upload key body => (.created, Function.update files (r.user, key) (some body))
      | .download key => (downloaded (userKey r.user key) (files (r.user, key)), files)
      | .delete key => (.noContent, Function.update files (r.user, key) none)

end Machines

/-! ## Names -/

/-- The name of an object in its bucket. -/
def objectName (file : Uuid × String) : Bytes := utf8 (userKey file.1 file.2)

def KeptFile (file : Uuid × String) : Prop := Url.Kept (utf8 file.2)

section Runs

variable {sets : Url.EncodeSets} {crypto : Crypto} {config : StorageConfig}
variable {server : ObjectServer sets config.bucket} {r : ObjectRequest} {issued : Issued}
variable {store : Bytes → Option Bytes} {files : Uuid × String → Option Bytes}

theorem userKey_inj {userId userId' : Uuid} {key key' : String}
    (h : userKey userId key = userKey userId' key') : userId = userId' ∧ key = key' := by
  have htexts := congrArg String.toList h
  simp only [userKey, String.toList_append, List.append_assoc] at htexts
  have hlength : userId.text.toList.length = userId'.text.toList.length := by
    rw [(isUuid_getElem userId.wellFormed).1, (isUuid_getElem userId'.wellFormed).1]
  obtain ⟨huser, hrest⟩ := List.append_inj (List.append_cancel_left htexts) hlength
  constructor
  · cases userId
    cases userId'
    rw [Uuid.mk.injEq]
    exact String.toList_inj.mp huser
  · exact String.toList_inj.mp (List.append_cancel_left hrest)

theorem objectName_injective : Function.Injective objectName := by
  rintro ⟨userId, key⟩ ⟨userId', key'⟩ h
  obtain ⟨rfl, rfl⟩ := userKey_inj (utf8_injective h)
  rfl

/-- The URL of a request is that of its object. -/
theorem issue_url (h : r.issue sets crypto config = .ok issued) :
    objectUrlText sets config (userKey r.user r.op.key) = .ok issued.request.url := by
  have hsent : ∀ {label method : String} {headers : UrlText → List (String × String)}
      {signed : UrlText → SignedRequest} {text : Except ApiError UrlText},
      (text >>= fun url => send label ⟨method, url, headers url⟩ (signed url)) = .ok issued →
        text = .ok issued.request.url := by
    intro label method headers signed text hissue
    obtain ⟨url, hurl, hsend⟩ := bind_ok (x := text) hissue
    rw [hurl, send_tail hsend]
  unfold ObjectRequest.issue at h
  cases hop : r.op with
  | upload key body =>
      rw [hop] at h
      obtain ⟨_, -, hissue⟩ := bind_ok (x := validateStorageKey key) h
      exact hsent hissue
  | download key =>
      rw [hop] at h
      obtain ⟨_, -, hissue⟩ := bind_ok (x := validateStorageKey key) h
      exact hsent hissue
  | delete key =>
      rw [hop] at h
      obtain ⟨_, -, hissue⟩ := bind_ok (x := validateStorageKey key) h
      exact hsent hissue

theorem objectOf_issued (h : r.issue sets crypto config = .ok issued)
    (hkept : KeptFile (r.user, r.op.key)) :
    server.objectOf issued.request.url = objectName (r.user, r.op.key) := by
  have htext := issue_url h
  cases hurl : objectUrl sets config.endpoint config.bucket (userKey r.user r.op.key) with
  | error e =>
      rw [objectUrlText, hurl] at htext
      cases htext
  | ok pair =>
      obtain ⟨origin, parsed⟩ := pair
      rw [objectUrlText, hurl] at htext
      obtain ⟨hquery, hfragment⟩ := no_query hurl hkept
      have hparsed : Url.parse sets parsed.text = parsed := by
        have hsettled : Url.Settled sets parsed.segments := by
          rw [objectUrl_ok hurl]
          exact Url.parse_settled sets _
        have hread := @Url.parse_pathText sets _ [] hsettled fun _ hb => (by cases hb)
        have htail : parsed.text = Url.pathText parsed.segments ++ [] := by
          simp only [Url.Parsed.text, Url.Parsed.path, hquery, hfragment, Option.elim_none,
            List.append_nil]
        calc Url.parse sets parsed.text = ⟨parsed.segments, none, none⟩ := by rw [htail, hread]; rfl
          _ = ⟨parsed.segments, parsed.query, parsed.fragment⟩ := by rw [hquery, hfragment]
      have hpath := (path_iff hurl).mpr hkept
      have hurl' : issued.request.url = ⟨origin, parsed.text⟩ := (Except.ok.inj htext).symm
      apply server.named
      · rw [hurl', hparsed, hquery]
      · rw [hurl', hparsed, hpath, objectName, ← utf8_append]
        congr 1
        have husers : "/users/" = "/" ++ "users/" := by decide
        rw [userKey, husers]
        simp only [String.append_assoc]

/-- The handlers are that map, request by request. -/
theorem handle_simulates (crypto : Crypto) (server : ObjectServer sets config.bucket) :
    Simulates (handle sets crypto config server) (keep sets crypto config)
      (fun r => KeptFile (r.user, r.op.key)) (Holds objectName KeptFile) := by
  have hname : Set.InjOn objectName {file | KeptFile file} := objectName_injective.injOn
  constructor
  · intro r store files hkept hholds
    unfold handle keep
    cases hissue : r.issue sets crypto config with
    | error e => rfl
    | ok issued =>
        have hobject := @objectOf_issued _ _ _ server _ _ hissue hkept
        have hvalue := hholds.value _ hkept
        cases hop : r.op with
        | upload key body => rfl
        | download key =>
            rw [hop] at hobject hvalue
            exact congrArg (downloaded _) ((congrArg store hobject).trans hvalue)
        | delete key => rfl
  · intro r store files hkept hholds
    unfold handle keep
    cases hissue : r.issue sets crypto config with
    | error e => exact hholds
    | ok issued =>
        have hobject := @objectOf_issued _ _ _ server _ _ hissue hkept
        have hupdate := fun v => hholds.update hname hkept v
        cases hop : r.op with
        | upload key body =>
            rw [hop] at hobject hupdate
            dsimp only
            rw [hobject]
            exact hupdate (some body)
        | download key => exact hholds
        | delete key =>
            rw [hop] at hobject hupdate
            dsimp only
            rw [hobject]
            exact hupdate none

theorem send_of_legal {label : String} {request : Outgoing} {signed : SignedRequest}
    (h : ∀ header ∈ request.headers, legalHeader header.2 = true) :
    send label request signed = .ok ⟨request, signed⟩ := if_pos (List.all_eq_true.mpr h)

theorem handle_upload {key : String} {body : Bytes} (hissue : r.issue sets crypto config = .ok issued)
    (hop : r.op = .upload key body) : (handle sets crypto config server r store).2
      = Function.update store (server.objectOf issued.request.url) (some body) := by
  unfold handle
  rw [hissue]
  dsimp only
  rw [hop]

theorem legalHeader_append (a b : String) :
    legalHeader (a ++ b) = (legalHeader a && legalHeader b) := by
  unfold legalHeader
  rw [String.toList_append, List.all_append]

theorem legalHeader_hexEncode (bs : Bytes) : legalHeader (hexEncode bs) = true := by
  apply List.all_eq_true.mpr
  intro c hc
  obtain ⟨hlow, hhigh⟩ := printable_hexEncode bs c hc
  have hge : ' ' ≤ c := by
    rw [Char.le_def, UInt32.le_iff_toNat_le]
    exact hlow.le
  have hle : c ≤ '~' := by
    rw [Char.le_def, UInt32.le_iff_toNat_le]
    exact Nat.le_of_lt_succ hhigh
  simp [hge, hle]

/-- A signature does not make a header illegal. -/
theorem legal_authorization {now : AmzDate} {method contentType payloadHash : String} {url : UrlText}
    (haccess : legalHeader config.accessKey = true)
    (hscope : legalHeader (credentialScope config now) = true)
    (hnames : legalHeader (joinNames ((signingHeaders now url.origin.host contentType
      payloadHash).map fun h => lowercase h.1)) = true) :
    legalHeader (signRequestInner sets crypto config now method url contentType
      payloadHash).authorization = true := by
  have hsignature : ∀ canonical, legalHeader (signature crypto config now canonical) = true :=
    fun canonical => legalHeader_hexEncode _
  have htexts : legalHeader algorithm = true ∧ legalHeader " Credential=" = true ∧
      legalHeader "/" = true ∧ legalHeader ", SignedHeaders=" = true ∧
      legalHeader ", Signature=" = true := by decide
  obtain ⟨halgorithm, hcredential, hslash, hheaders, hlabel⟩ := htexts
  unfold signRequestInner
  simp only [legalHeader_append, halgorithm, hcredential, haccess, hslash, hscope, hheaders, hnames,
    hlabel, hsignature, Bool.and_self]

theorem legal_common {signed : SignedRequest} {payloadHash : String}
    (hhost : legalHeader signed.host = true) (hdate : legalHeader signed.amzDate = true)
    (hpayload : legalHeader payloadHash = true)
    (hauthorization : legalHeader signed.authorization = true) :
    ∀ header ∈ commonHeaders signed payloadHash, legalHeader header.2 = true := by
  intro header hheader
  simp only [commonHeaders, List.mem_cons, List.not_mem_nil, or_false] at hheader
  rcases hheader with rfl | rfl | rfl | rfl
  · exact hhost
  · exact hdate
  · exact hpayload
  · exact hauthorization

/-! ## Listings -/

/-- `list`, with the answer of the server. -/
def Routes.list (sets : Url.EncodeSets) (crypto : Crypto) (config : StorageConfig) (now : AmzDate)
    (userId : Uuid) (pre : Option String)
    (exchange : Outgoing → Except String (Except String Answer)) :
    Except ApiError (List ObjectInfo) :=
  listObjects sets crypto config now
    ((pre.map (userKey userId)).getD ("users/" ++ userId.text ++ "/")) exchange

theorem list_prefix (userId : Uuid) (pre : Option String) :
    (pre.map (userKey userId)).getD ("users/" ++ userId.text ++ "/")
      = userKey userId (pre.getD "") := by
  cases pre with
  | none => rw [Option.map_none, Option.getD_none, Option.getD_none, userKey, String.append_empty]
  | some p => rfl

theorem length_utf8_uuid (userId : Uuid) : (utf8 userId.text).length = 36 := by
  have hascii : ∀ c ∈ userId.text.toList, c.toNat < 128 := by
    intro c hc
    rcases userId.char_cases hc with hdigit | rfl
    · exact (unreserved_byte (.inr hdigit)).1
    · decide
  rw [utf8_ascii hascii, List.length_map, (isUuid_getElem userId.wellFormed).1]

theorem prefix_of_append {α : Type} {xs xs' ys ys' : List α} (hlength : xs.length = xs'.length) :
    xs ++ ys <+: xs' ++ ys' ↔ xs = xs' ∧ ys <+: ys' := by
  constructor
  · rintro ⟨rest, heq⟩
    rw [List.append_assoc] at heq
    obtain ⟨hsame, hrest⟩ := List.append_inj heq hlength
    exact ⟨hsame, rest, hrest⟩
  · rintro ⟨rfl, rest, rfl⟩
    exact ⟨rest, List.append_assoc _ _ _⟩

/-- The prefix of a user is that of names of this user only. -/
theorem prefix_userKey {userId userId' : Uuid} {pre key : String} :
    utf8 (userKey userId pre) <+: utf8 (userKey userId' key) ↔
      userId = userId' ∧ utf8 pre <+: utf8 key := by
  have hlength : (utf8 userId.text).length = (utf8 userId'.text).length := by
    rw [length_utf8_uuid, length_utf8_uuid]
  simp only [userKey, utf8_append, List.append_assoc]
  rw [List.prefix_append_right_inj, prefix_of_append hlength, List.prefix_append_right_inj]
  constructor
  · rintro ⟨hsame, hprefix⟩
    refine ⟨?_, hprefix⟩
    cases userId
    cases userId'
    rw [Uuid.mk.injEq]
    exact utf8_injective hsame
  · rintro ⟨rfl, hprefix⟩
    exact ⟨rfl, hprefix⟩

/-- After any such run, a user is listed the full names of his own files with the prefix, each once:
no file of another user, and none that he has deleted. -/
theorem list_names {s3 : S3Server} {requests : List ObjectRequest} {userId : Uuid} {now : AmzDate}
    {pre : Option String} {i : Issued} (hform : KeepsForm sets)
    (hkept : ∀ r ∈ requests, Url.Kept (utf8 r.op.key))
    (hobjects : ∀ name, name ∈ s3.objects ↔
      ((serve (handle sets crypto config server) requests fun _ => none).2 name).isSome)
    (hlist : list sets crypto config now (userKey userId (pre.getD "")) = .ok i)
    (hrefusal : s3.refusal i.request = none)
    (hfits : (s3.matching (utf8 (userKey userId (pre.getD "")))).length ≤ s3.pageSize)
    (hescape : ∀ name ∈ s3.matching (utf8 (userKey userId (pre.getD ""))), s3.escape name = name) :
    ∃ objects, Routes.list sets crypto config now userId pre
        (fun request => .ok (.ok (s3.answer sets request))) = .ok objects ∧
      (objects.map ObjectInfo.key).Nodup ∧
      ∀ name, name ∈ objects.map ObjectInfo.key ↔ ∃ key body,
        (serve (keep sets crypto config) requests fun _ => none).2 (userId, key) = some body ∧
          utf8 (pre.getD "") <+: utf8 key ∧ name = utf8 (userKey userId key) := by
  have hholds := ((handle_simulates crypto server).serve hkept holds_empty).2
  have hexact := (listsExactly_iff s3 hform hlist).mpr ⟨hrefusal, hfits, hescape⟩
  have hsuccess : (s3.answer sets i.request).isSuccess := by
    unfold S3Server.answer
    rw [hrefusal]
    exact ⟨le_refl 200, (by decide : 200 < 300)⟩
  obtain ⟨objects, hresult, hkeys⟩ := hexact.1 hsuccess
  refine ⟨objects, ?_, ?_, fun name => ?_⟩
  · rw [Routes.list, list_prefix]
    exact hresult
  · rw [hkeys]
    exact s3.distinct.filter _
  · rw [hkeys, S3Server.matching, List.mem_filter, hobjects, Option.isSome_iff_exists]
    constructor
    · rintro ⟨⟨body, hbody⟩, hprefix⟩
      obtain ⟨⟨userId', key⟩, rfl, hfile⟩ := hholds.some_iff.mp hbody
      obtain ⟨rfl, hpre⟩ := prefix_userKey.mp (of_decide_eq_true hprefix)
      exact ⟨key, body, hfile, hpre, rfl⟩
    · rintro ⟨key, body, hfile, hpre, rfl⟩
      refine ⟨⟨body, hholds.some_iff.mpr ⟨(userId, key), rfl, hfile⟩⟩, ?_⟩
      exact decide_eq_true (prefix_userKey.mpr ⟨rfl, hpre⟩)

end Runs

namespace Sample

/-- A server that takes what follows the bucket for the name, whatever the query. -/
def objects : ObjectServer Url.whatwg config.bucket where
  objectOf url := (decode (Url.parse Url.whatwg url.tail).path).drop
    (utf8 ("/" ++ config.bucket.name ++ "/")).length
  named url name _ hpath := by rw [hpath, List.drop_left]

def file : ObjectRequest := ⟨alice, now, .upload "a.txt" [1, 2, 3]⟩

theorem kept : Url.Kept (utf8 "a.txt") where
  breaks := by decide +kernel
  ending := by decide +kernel
  stops := by decide +kernel
  backslash := by decide +kernel
  escapes := by decide +kernel
  dots := by decide +kernel

theorem legal_scope : legalHeader (credentialScope config now) = true := by decide +kernel

theorem objectUrl_sample (key : String)
    (h : ((objectUrlText Url.whatwg config key).toOption.any
      fun url => url.origin.host = "s3.local") = true) :
    ∃ url, objectUrlText Url.whatwg config key = .ok url ∧ url.origin.host = "s3.local" := by
  cases hresult : objectUrlText Url.whatwg config key with
  | error e =>
      rw [hresult] at h
      cases h
  | ok url =>
      rw [hresult] at h
      exact ⟨url, rfl, of_decide_eq_true h⟩

theorem legal_date : legalHeader now.text = true := by decide +kernel

/-- The headers of a request that is signed for the sample. -/
theorem legal_sample {method contentType payloadHash : String} {url : UrlText}
    (hhost : url.origin.host = "s3.local") (hpayload : legalHeader payloadHash = true)
    (hnames : legalHeader (joinNames ((signingHeaders now "s3.local" contentType
      payloadHash).map fun h => lowercase h.1)) = true) :
    ∀ header ∈ commonHeaders (signRequestInner Url.whatwg crypto config now method url contentType
      payloadHash) payloadHash, legalHeader header.2 = true := by
  have hlegal : legalHeader url.origin.host = true := by
    rw [hhost]
    decide +kernel
  rw [← hhost] at hnames
  exact legal_common hlegal legal_date hpayload
    (legal_authorization (by decide +kernel) legal_scope hnames)

theorem issue_file : ∃ issued, file.issue Url.whatwg crypto config = .ok issued := by
  have hkey : validateStorageKey "a.txt" = .ok () := by
    have hok : (validateStorageKey "a.txt").isOk = true := by decide +kernel
    cases hresult : validateStorageKey "a.txt" with
    | error e =>
        rw [hresult] at hok
        cases hok
    | ok _ => rfl
  obtain ⟨url, hurl, hhost⟩ := objectUrl_sample (userKey alice "a.txt") (by decide +kernel)
  change ∃ issued, Routes.upload Url.whatwg crypto config now alice "a.txt" = .ok issued
  unfold Routes.upload uploadStreaming signRequestUnsigned
  rw [hkey, hurl]
  refine ⟨_, send_of_legal fun header hheader => ?_⟩
  rcases List.mem_cons.mp hheader with rfl | hcommon
  · decide +kernel
  · exact legal_sample hhost (by decide +kernel) (by decide +kernel) header hcommon

theorem list_home : ∃ i, list Url.whatwg crypto config now (userKey alice "") = .ok i := by
  obtain ⟨url, hurl, hhost⟩ := objectUrl_sample "" (by decide +kernel)
  unfold list signRequest
  rw [hurl]
  exact ⟨_, send_of_legal (legal_sample hhost (legalHeader_hexEncode _) (by decide +kernel))⟩

theorem store_file :
    (serve (handle Url.whatwg crypto config objects) [file] fun _ => none).2
      = Function.update (fun _ => none) (utf8 (userKey alice "a.txt")) (some [1, 2, 3]) := by
  obtain ⟨issued, hissue⟩ := issue_file
  rw [serve_singleton, handle_upload hissue rfl, @objectOf_issued _ _ _ objects file _ hissue kept]
  rfl

end Sample

/-- A user with one file, and a server that holds it. -/
theorem list_names_file :
    ∃ objects, Routes.list Url.whatwg Sample.crypto Sample.config Sample.now Sample.alice none
        (fun request => .ok (.ok ((Sample.listingServer [userKey Sample.alice "a.txt"]
          (by decide +kernel)).answer Url.whatwg request))) = .ok objects ∧
      (objects.map ObjectInfo.key).Nodup ∧
      ∀ name, name ∈ objects.map ObjectInfo.key ↔ ∃ key body,
        (serve (keep Url.whatwg Sample.crypto Sample.config) [Sample.file] fun _ => none).2
            (Sample.alice, key) = some body ∧
          utf8 "" <+: utf8 key ∧ name = utf8 (userKey Sample.alice key) := by
  obtain ⟨i, hlist⟩ := Sample.list_home
  apply @list_names Url.whatwg Sample.crypto Sample.config Sample.objects _ [Sample.file] _ _
    none i ⟨by decide, by decide⟩ _ _ hlist rfl
  · decide +kernel
  · decide +kernel
  · intro r hr
    obtain rfl := List.mem_singleton.mp hr
    exact Sample.kept
  · intro name
    rw [Sample.store_file]
    by_cases hname : name = utf8 (userKey Sample.alice "a.txt")
    · rw [hname, Function.update_self]
      exact iff_of_true (List.mem_singleton.mpr rfl) rfl
    · rw [Function.update_of_ne hname]
      exact iff_of_false (fun hmem => hname (List.mem_singleton.mp hmem)) Bool.false_ne_true

end FullStackHex.Storage
