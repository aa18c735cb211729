import FullStackHex.Storage.Routes

/-!
What the URL of an object says of its key, and what the URLs of the multipart calls say of the
upload id and the part number. The key and the id are put into the URL as they are.
-/

namespace FullStackHex.Storage

open Codec Percent SigV4

/-- What a multipart call puts behind the URL of its object, and the parameters that this is. -/
def ObjectCall.appended : ObjectCall → Option (String × List (Bytes × Bytes))
  | .initMultipart _ _ => some ("?uploads", [(utf8 "uploads", [])])
  | .uploadPart _ uploadId partNumber =>
      some (partSuffix uploadId partNumber,
        [(utf8 "partNumber", utf8 (toString partNumber.toNat)), (utf8 "uploadId", utf8 uploadId)])
  | .completeMultipart _ uploadId _ | .abortMultipart _ uploadId =>
      some ("?uploadId=" ++ uploadId, [(utf8 "uploadId", utf8 uploadId)])
  | _ => none

def ObjectCall.uploadId : ObjectCall → Option String
  | .uploadPart _ uploadId _ | .completeMultipart _ uploadId _ | .abortMultipart _ uploadId =>
      some uploadId
  | _ => none

/-- The parameters of a URL as a server reads them. -/
def urlParams (sets : Url.EncodeSets) (plus : UInt8) (text : Bytes) : List (Bytes × Bytes) :=
  params plus ((Url.parse sets text).query.getD [])

/-- The URL says which object of which user is meant, and what is appended to it arrives. -/
structure Faithful (sets : Url.EncodeSets) (plus : UInt8) (config : StorageConfig) (userId : Uuid)
    (call : ObjectCall) (parsed : Url.Parsed) : Prop where
  path : decode parsed.path
    = utf8 ("/" ++ config.bucket.name ++ "/users/" ++ userId.text ++ "/" ++ call.key)
  query : parsed.query = none
  fragment : parsed.fragment = none
  carried : ∀ p ∈ call.appended, urlParams sets plus (parsed.text ++ utf8 p.1) = p.2

/-- An upload id that a query can hold as it is. -/
structure PlainId (sets : Url.EncodeSets) (plus : UInt8) (id : Bytes) : Prop where
  breaks : ∀ b ∈ id, Url.isBreak b = false
  ending : ∀ b ∈ id.getLast?, Url.blank b = false
  hash : byte '#' ∉ id
  ampersand : byte '&' ∉ id
  escapes : decode id = id
  sign : byte '+' ∈ id → sets.query (byte '+') = true → plus = byte '+'

section Keys

variable {sets : Url.EncodeSets} {plus : UInt8} {config : StorageConfig} {userId userId' : Uuid}
variable {key key' uploadId : String} {origin : Origin} {parsed : Url.Parsed} {call : ObjectCall}

/-! ## The path -/

theorem objectText_eq (config : StorageConfig) (userId : Uuid) (key : String) :
    utf8 ("/" ++ config.bucket.name ++ "/users/" ++ userId.text ++ "/" ++ key)
      = Url.pathText (home config userId) ++ byte '/' :: utf8 key := by
  have husers : "/users/" = "/" ++ "users/" := by decide
  have hkey : "/" ++ config.bucket.name ++ "/users/" ++ userId.text ++ "/" ++ key
      = "/" ++ config.bucket.name ++ "/" ++ userKey userId key := by
    rw [husers, userKey]
    simp only [String.append_assoc]
  rw [hkey, objectPath_eq]

theorem objectText_slash (config : StorageConfig) (userId : Uuid) (text : Bytes) :
    Url.pathText (home config userId) ++ byte '/' :: text
      = byte '/' :: (Url.pathText (home config userId) ++ byte '/' :: text).tail := rfl

theorem path_iff (h : objectUrl sets config.endpoint config.bucket (userKey userId key)
    = .ok (origin, parsed)) :
    decode parsed.path
        = utf8 ("/" ++ config.bucket.name ++ "/users/" ++ userId.text ++ "/" ++ key) ↔
      Url.Kept (utf8 key) := by
  rw [objectText_eq, objectUrl_ok h, ← (home_spec config userId).kept_iff, objectText_slash]
  exact Url.decode_path_iff

theorem no_query (h : objectUrl sets config.endpoint config.bucket (userKey userId key)
    = .ok (origin, parsed)) (hkept : Url.Kept (utf8 key)) :
    parsed.query = none ∧ parsed.fragment = none := by
  have hplain := (home_spec config userId).kept_iff.mpr hkept
  rw [objectUrl_ok h, objectText_slash]
  exact (hplain.parse sets).2

/-- The texts of two objects. -/
theorem objectText_inj
    (h : utf8 ("/" ++ config.bucket.name ++ "/users/" ++ userId.text ++ "/" ++ key)
      = utf8 ("/" ++ config.bucket.name ++ "/users/" ++ userId'.text ++ "/" ++ key')) :
    userId = userId' ∧ key = key' := by
  have htexts := congrArg String.toList (utf8_injective h)
  simp only [String.toList_append, List.append_assoc] at htexts
  have hrest := List.append_cancel_left (List.append_cancel_left (List.append_cancel_left htexts))
  have hlength : userId.text.toList.length = userId'.text.toList.length := by
    rw [(isUuid_getElem userId.wellFormed).1, (isUuid_getElem userId'.wellFormed).1]
  obtain ⟨huser, hrest⟩ := List.append_inj hrest hlength
  constructor
  · cases userId
    cases userId'
    rw [Uuid.mk.injEq]
    exact String.toList_inj.mp huser
  · exact String.toList_inj.mp (List.append_cancel_left hrest)

/-! ## The query -/

/-- What a query keeps of a text at its end. -/
def kept (text : Bytes) : Bytes := (Url.clean text).takeWhile fun b => b ≠ byte '#'

theorem kept_sublist (text : Bytes) : (kept text).Sublist text :=
  (List.takeWhile_prefix _).sublist.trans (Url.clean_sublist text)

theorem kept_eq_iff {text : Bytes} : kept text = text ↔
    (∀ b ∈ text, Url.isBreak b = false) ∧ (∀ b ∈ text.getLast?, Url.blank b = false) ∧
      byte '#' ∉ text := by
  constructor
  · intro h
    have hclean : Url.clean text = text := by
      apply (Url.clean_sublist text).eq_of_length
      have hshort := (Url.clean_sublist text).length_le
      have htaken := (List.takeWhile_prefix (fun b => b ≠ byte '#') (l := Url.clean text)).length_le
      have hsame := congrArg List.length h
      unfold kept at hsame
      omega
    rw [kept, hclean, List.takeWhile_eq_self_iff] at h
    obtain ⟨hbreaks, hending⟩ := Url.clean_eq_iff.mp hclean
    refine ⟨hbreaks, hending, fun hmem => ?_⟩
    exact absurd (h _ hmem) (by simp)
  · rintro ⟨hbreaks, hending, hhash⟩
    rw [kept, Url.clean_eq_iff.mpr ⟨hbreaks, hending⟩, List.takeWhile_eq_self_iff]
    intro b hb
    rw [decide_eq_true_eq]
    rintro rfl
    exact hhash hb

/-- Bytes that a query leaves as they are, wherever they stand. -/
def Inert (sets : Url.EncodeSets) (text : Bytes) : Prop :=
  ∀ b ∈ text, 32 < b.toNat ∧ b ≠ byte '#' ∧ sets.query b = true

theorem inert_of_common {text : Bytes}
    (h : text.all (fun b => unreserved b || b == byte '=' || b == byte '&') = true) :
    Inert sets text := by
  intro b hb
  have hbyte := List.all_eq_true.mp h b hb
  have hquery : sets.query b = true := by
    apply And.right (sets.kept_common ?_)
    simp only [Bool.or_eq_true] at hbyte ⊢
    rcases hbyte with (hbyte | hbyte) | hbyte
    · exact .inl (.inl (.inl hbyte))
    · exact .inl (.inr hbyte)
    · exact .inr hbyte
  refine ⟨(sets.visible b (by rw [hquery]; simp)).1, ?_, hquery⟩
  rintro rfl
  rw [sets.queryEnd] at hquery
  cases hquery

theorem kept_append {front : Bytes} {b : UInt8} (hfront : Inert sets front) (hb : Inert sets [b])
    (text : Bytes) : encode sets.query (kept (front ++ b :: text))
      = front ++ b :: encode sets.query (kept text) := by
  obtain ⟨hvisible, hhash, hkeep⟩ := hb b (List.mem_singleton.mpr rfl)
  have hgo : ∀ a ∈ front, decide (a ≠ byte '#') = true := fun a ha =>
    decide_eq_true (hfront a ha).2.1
  unfold kept
  rw [Url.clean_append hvisible (fun a ha => (hfront a ha).1), List.takeWhile_append_of_pos hgo,
    List.takeWhile_cons_of_pos (by simpa using hhash), encode_append,
    encode_eq_self fun a ha => (hfront a ha).2.2, encode_cons, if_pos hkeep]
  rfl

theorem kept_inert {text : Bytes} (h : Inert sets text) :
    encode sets.query (kept text) = text := by
  have hclean : Url.clean text = text := Url.clean_eq_self fun b hb => (h b hb).1
  have htake : kept text = text := by
    rw [kept, hclean, List.takeWhile_eq_self_iff]
    exact fun b hb => decide_eq_true (h b hb).2.1
  rw [htake, encode_eq_self fun b hb => (h b hb).2.2]

/-- A query that is appended to the URL of an object. -/
theorem urlParams_append (h : objectUrl sets config.endpoint config.bucket (userKey userId key)
    = .ok (origin, parsed)) (hkept : Url.Kept (utf8 key)) (plus : UInt8) (text : Bytes) :
    urlParams sets plus (parsed.text ++ byte '?' :: text)
      = params plus (encode sets.query (kept text)) := by
  obtain ⟨hquery, hfragment⟩ := no_query h hkept
  have hsettled : Url.Settled sets parsed.segments := by
    rw [objectUrl_ok h]
    exact Url.parse_settled sets _
  have htext : parsed.text = Url.pathText parsed.segments := by
    simp only [Url.Parsed.text, Url.Parsed.path, hquery, hfragment, Option.elim_none,
      List.append_nil]
  have hclean : Url.clean (byte '?' :: text) = byte '?' :: Url.clean text := by
    have hfirst := Url.clean_append (b := byte '?') (s := []) (by decide) (by simp) text
    rw [List.nil_append, List.nil_append] at hfirst
    exact hfirst
  rw [urlParams, htext, Url.parse_pathText hsettled (follows_question text), hclean]
  rfl

theorem mark_of (hplus : plus = byte ' ' ∨ plus = byte '+') : Mark plus := by
  rcases hplus with rfl | rfl
  · exact ⟨by decide, by decide⟩
  · exact ⟨by decide, by decide⟩

theorem unreserved_uploadId : ∀ b ∈ utf8 "uploadId", unreserved b = true :=
  List.all_eq_true.mp (by decide +kernel)

theorem unreserved_digits (n : Nat) : ∀ b ∈ utf8 (toString n), unreserved b = true := by
  apply unreserved_utf8
  intro c hc
  rw [Nat.toString_eq_repr, Nat.toList_repr] at hc
  have hdigit := Nat.isDigit_of_mem_toDigits (by omega) (by omega) hc
  apply unreserved_byte
  left
  rw [Char.isDigit, Bool.and_eq_true, decide_eq_true_eq, decide_eq_true_eq] at hdigit
  have hrange : '0' ≤ c ∧ c ≤ '9' := hdigit
  simp [isBucketChar, hrange]

/-- The upload id arrives. -/
theorem uploadId_iff (hplus : Mark plus) (uploadId : String) :
    params plus (encode sets.query (kept (utf8 "uploadId" ++ byte '=' :: utf8 uploadId)))
        = [(utf8 "uploadId", utf8 uploadId)] ↔
      PlainId sets plus (utf8 uploadId) := by
  rw [kept_append (inert_of_common (by decide +kernel)) (inert_of_common (by decide)),
    params_value_iff unreserved_uploadId hplus sets.idempotent_query
      (sets.kept_common (by decide)).2
      (kept_sublist _), kept_eq_iff]
  constructor
  · rintro ⟨⟨hbreaks, hending, hhash⟩, hampersand, hescapes, hsign⟩
    exact ⟨hbreaks, hending, hhash, hampersand, hescapes, hsign⟩
  · intro h
    exact ⟨⟨h.breaks, h.ending, h.hash⟩, h.ampersand, h.escapes, h.sign⟩

theorem utf8_uploadId' (uploadId : String) :
    utf8 ("?uploadId=" ++ uploadId)
      = byte '?' :: (utf8 "uploadId" ++ byte '=' :: utf8 uploadId) := by
  have hname : utf8 "uploadId=" = utf8 "uploadId" ++ [byte '='] := by decide +kernel
  rw [utf8_uploadId, hname, List.append_assoc, List.singleton_append]

theorem utf8_partSuffix' (uploadId : String) (partNumber : UInt32) :
    utf8 (partSuffix uploadId partNumber)
      = byte '?' :: (utf8 "partNumber" ++ byte '=' :: (utf8 (toString partNumber.toNat)
        ++ byte '&' :: (utf8 "uploadId" ++ byte '=' :: utf8 uploadId))) := by
  have hnumber : utf8 "partNumber=" = utf8 "partNumber" ++ [byte '='] := by decide +kernel
  have hname : utf8 "&uploadId=" = byte '&' :: utf8 "uploadId" ++ [byte '='] := by decide +kernel
  rw [utf8_partSuffix, hnumber, hname]
  simp only [List.append_assoc, List.cons_append, List.nil_append]

theorem carried_iff (h : objectUrl sets config.endpoint config.bucket (userKey userId call.key)
    = .ok (origin, parsed)) (hkept : Url.Kept (utf8 call.key)) (hplus : Mark plus) :
    (∀ p ∈ call.appended, urlParams sets plus (parsed.text ++ utf8 p.1) = p.2) ↔
      ∀ id ∈ call.uploadId, PlainId sets plus (utf8 id) := by
  have hone : ∀ uploadId, urlParams sets plus (parsed.text ++ utf8 ("?uploadId=" ++ uploadId))
      = [(utf8 "uploadId", utf8 uploadId)] ↔ PlainId sets plus (utf8 uploadId) := by
    intro uploadId
    rw [utf8_uploadId', urlParams_append h hkept]
    exact uploadId_iff hplus uploadId
  cases call with
  | upload key => simp [ObjectCall.appended, ObjectCall.uploadId]
  | download key => simp [ObjectCall.appended, ObjectCall.uploadId]
  | delete key => simp [ObjectCall.appended, ObjectCall.uploadId]
  | presign key method expirySecs => simp [ObjectCall.appended, ObjectCall.uploadId]
  | initMultipart key contentType =>
      refine iff_of_true ?_ (fun id hid => nomatch hid)
      intro p hp
      obtain rfl := Option.some.inj hp
      have hname : ∀ b ∈ utf8 "uploads", unreserved b = true :=
        List.all_eq_true.mp (by decide +kernel)
      rw [utf8_uploads, urlParams_append h hkept, kept_inert (inert_of_common (by decide +kernel)),
        params_bare hname plus (by decide +kernel)]
  | uploadPart key uploadId partNumber =>
      have hname : ∀ b ∈ utf8 "partNumber", unreserved b = true :=
        List.all_eq_true.mp (by decide +kernel)
      have hdigits := unreserved_digits partNumber.toNat
      have hinert : Inert sets (utf8 (toString partNumber.toNat)) :=
        inert_of_common (List.all_eq_true.mpr fun b hb => by rw [hdigits b hb]; rfl)
      have hread : readValue plus (utf8 (toString partNumber.toNat))
          = utf8 (toString partNumber.toNat) := readValue_name hdigits plus
      have hquery : urlParams sets plus (parsed.text ++ utf8 (partSuffix uploadId partNumber))
          = (utf8 "partNumber", utf8 (toString partNumber.toNat)) :: params plus
            (encode sets.query (kept (utf8 "uploadId" ++ byte '=' :: utf8 uploadId))) := by
        rw [utf8_partSuffix', urlParams_append h hkept,
          kept_append (inert_of_common (by decide +kernel)) (inert_of_common (by decide)),
          kept_append hinert (inert_of_common (by decide)),
          params_cons hname plus (ampersand_not_mem hdigits), hread]
      have hsame : (∀ p ∈ (ObjectCall.uploadPart key uploadId partNumber).appended,
          urlParams sets plus (parsed.text ++ utf8 p.1) = p.2) ↔
          urlParams sets plus (parsed.text ++ utf8 (partSuffix uploadId partNumber))
            = [(utf8 "partNumber", utf8 (toString partNumber.toNat)),
              (utf8 "uploadId", utf8 uploadId)] := by
        simp only [ObjectCall.appended, Option.mem_some_iff, forall_eq']
      rw [hsame, hquery, List.cons_inj_right, uploadId_iff hplus]
      simp only [ObjectCall.uploadId, Option.mem_some_iff, forall_eq']
  | completeMultipart key uploadId parts =>
      simpa [ObjectCall.appended, ObjectCall.uploadId] using hone uploadId
  | abortMultipart key uploadId =>
      simpa [ObjectCall.appended, ObjectCall.uploadId] using hone uploadId

/-! ## The requests -/

/-- The multipart calls go to the URL of the object, with what they append behind it. -/
theorem multipart_url (h : objectUrl sets config.endpoint config.bucket (userKey userId call.key)
    = .ok (origin, parsed)) {p : String × List (Bytes × Bytes)} (hp : p ∈ call.appended)
    {crypto : Crypto} {now : AmzDate} {url : UrlText}
    (hurl : call.url sets crypto config now userId = .ok url) :
    url = ⟨origin, parsed.text ++ utf8 p.1⟩ := by
  have hbase : objectUrlText sets config (userKey userId call.key) = .ok ⟨origin, parsed.text⟩ := by
    rw [objectUrlText, h]
    rfl
  have hmap : ∀ {asked : Except ApiError Issued}, (asked.map fun i => i.request.url) = .ok url →
      ∃ i, asked = .ok i ∧ i.request.url = url := by
    intro asked hasked
    cases asked with
    | error e => cases hasked
    | ok i => exact ⟨i, rfl, Except.ok.inj hasked⟩
  cases call with
  | upload key => cases hp
  | download key => cases hp
  | delete key => cases hp
  | presign key method expirySecs => cases hp
  | initMultipart key contentType =>
      obtain rfl := Option.some.inj hp
      obtain ⟨i, hi, rfl⟩ := hmap hurl
      obtain ⟨_, -, hissue⟩ := bind_ok (x := validateStorageKey key) hi
      obtain ⟨base, hurlText, hsend⟩ :=
        bind_ok (x := objectUrlText sets config (userKey userId key)) hissue
      obtain rfl := Except.ok.inj (hbase.symm.trans hurlText)
      exact send_tail hsend
  | uploadPart key uploadId partNumber =>
      obtain rfl := Option.some.inj hp
      obtain ⟨i, hi, rfl⟩ := hmap hurl
      obtain ⟨base, hurlText, hsend⟩ :=
        bind_ok (x := objectUrlText sets config (userKey userId key)) hi
      obtain rfl := Except.ok.inj (hbase.symm.trans hurlText)
      exact send_tail hsend
  | completeMultipart key uploadId parts =>
      obtain rfl := Option.some.inj hp
      obtain ⟨i, hi, rfl⟩ := hmap hurl
      obtain ⟨base, hurlText, hsend⟩ :=
        bind_ok (x := objectUrlText sets config (userKey userId key)) hi
      obtain rfl := Except.ok.inj (hbase.symm.trans hurlText)
      exact send_tail hsend
  | abortMultipart key uploadId =>
      obtain rfl := Option.some.inj hp
      obtain ⟨i, hi, rfl⟩ := hmap hurl
      obtain ⟨base, hurlText, hsend⟩ :=
        bind_ok (x := objectUrlText sets config (userKey userId key)) hi
      obtain rfl := Except.ok.inj (hbase.symm.trans hurlText)
      exact send_tail hsend

/-- The URL of an object says its key exactly when the key is a text that a path keeps, and the
parameters arrive exactly when a query keeps the upload id. Keys that are kept have URLs of their
own. -/
theorem faithful_iff (h : objectUrl sets config.endpoint config.bucket (userKey userId call.key)
    = .ok (origin, parsed)) (hplus : plus = byte ' ' ∨ plus = byte '+') :
    (Faithful sets plus config userId call parsed ↔
      Url.Kept (utf8 call.key) ∧ ∀ id ∈ call.uploadId, PlainId sets plus (utf8 id)) ∧
    (∀ p ∈ call.appended, ∀ crypto now url, call.url sets crypto config now userId = .ok url →
      url = ⟨origin, parsed.text ++ utf8 p.1⟩) ∧
    (Url.Kept (utf8 call.key) → ∀ userId' key', Url.Kept (utf8 key') →
      objectUrl sets config.endpoint config.bucket (userKey userId' key') = .ok (origin, parsed) →
        userId' = userId ∧ key' = call.key) := by
  refine ⟨?_, fun p hp crypto now url hurl => multipart_url h hp hurl, ?_⟩
  · constructor
    · intro hfaithful
      have hkept := (path_iff h).mp hfaithful.path
      exact ⟨hkept, (carried_iff h hkept (mark_of hplus)).mp hfaithful.carried⟩
    · rintro ⟨hkept, hid⟩
      obtain ⟨hquery, hfragment⟩ := no_query h hkept
      exact ⟨(path_iff h).mpr hkept, hquery, hfragment,
        (carried_iff h hkept (mark_of hplus)).mpr hid⟩
  · intro hkept userId' key' hkept' h'
    exact objectText_inj (((path_iff h').mpr hkept').symm.trans ((path_iff h).mpr hkept))

end Keys

theorem faithful_iff_part :
    ∃ origin parsed, objectUrl Url.whatwg Sample.config.endpoint Sample.config.bucket
        (userKey Sample.alice "a.txt") = .ok (origin, parsed) ∧
      (Faithful Url.whatwg (byte ' ') Sample.config Sample.alice (.uploadPart "a.txt" "ID" 1) parsed ↔
        Url.Kept (utf8 "a.txt") ∧ ∀ id ∈ some "ID", PlainId Url.whatwg (byte ' ') (utf8 id)) :=
  ⟨_, _, rfl, And.left (faithful_iff rfl (.inl rfl))⟩

/-- The URL of `what?.txt` has a query, and a tab is lost: two keys that are accepted have the same
URL. -/
theorem key_in_query :
    (∀ key ∈ ["what?.txt", "re\tport.txt", "report.txt"], validateStorageKey key = .ok ()) ∧
    (¬ ∀ origin parsed, objectUrl Url.whatwg Sample.config.endpoint Sample.config.bucket
        (userKey Sample.alice "what?.txt") = .ok (origin, parsed) →
      Faithful Url.whatwg (byte ' ') Sample.config Sample.alice (.download "what?.txt") parsed) ∧
    (objectUrl Url.whatwg Sample.config.endpoint Sample.config.bucket
        (userKey Sample.alice "re\tport.txt")).toOption
      = (objectUrl Url.whatwg Sample.config.endpoint Sample.config.bucket
        (userKey Sample.alice "report.txt")).toOption := by
  refine ⟨?_, fun hall => ?_, by decide +kernel⟩
  · have haccepted : ["what?.txt", "re\tport.txt", "report.txt"].all
        (fun key => (validateStorageKey key).isOk) = true := by decide +kernel
    intro key hkey
    have hok := List.all_eq_true.mp haccepted key hkey
    cases hresult : validateStorageKey key with
    | error e =>
        rw [hresult] at hok
        cases hok
    | ok _ => rfl
  · have hfaithful := hall _ _ rfl
    exact absurd hfaithful.query (by decide +kernel)

end FullStackHex.Storage
