import FullStackHex.Library.Xml
import FullStackHex.Storage.Canonical

/-!
The listing of a bucket: `list` of `storage/src/client.rs` to its end, and what an S3 server answers
it. Bodies and keys are the bytes of their texts.
-/

namespace FullStackHex.Storage

open Codec Percent Splitting Xml

/-! ## The client -/

structure ObjectInfo where
  key : Bytes
  size : UInt64
  lastModified : String
  deriving DecidableEq

/-- The answer to a request, as far as the client looks at it. -/
structure Answer where
  status : Nat
  body : Bytes

def Answer.isSuccess (a : Answer) : Prop := 200 ≤ a.status ∧ a.status < 300

/-- The keys are what stands behind each `<Key>`, up to `</Key>`. -/
def parseListing (body : Bytes) : List ObjectInfo :=
  ((split (Token.tag (utf8 "Key")).render body).drop 1).map fun cap =>
    ⟨(split (Token.tag (utf8 "/Key")).render cap).head?.getD [], 0, ""⟩

/-- `list`: `exchange` is what sending a request comes to, `text` of the answer included. The status
is not looked at. -/
def listObjects (sets : Url.EncodeSets) (crypto : Crypto) (config : StorageConfig) (now : AmzDate)
    (pre : String) (exchange : Outgoing → Except String (Except String Answer)) :
    Except ApiError (List ObjectInfo) := do
  let issued ← list sets crypto config now pre
  let response ← (exchange issued.request).mapError fun e =>
    .serviceUnavailable ("List failed: " ++ e)
  let answer ← response.mapError fun e => .internalError ("Failed to read response: " ++ e)
  return parseListing answer.body

/-! ## The server -/

/-- An S3 server: the keys of a bucket in their order, how many it lists at a time, how it writes a
key in XML, and what it writes around them. -/
structure S3Server where
  objects : List Bytes
  pageSize : Nat
  escape : Bytes → Bytes
  opening : Bytes → List Token
  continuation : Bytes → List Token
  details : Bytes → List Token
  closing : List Token
  refusal : Outgoing → Option Answer
  distinct : objects.Nodup
  pageLimit : pageSize ≤ 1000
  escaped : ∀ key, byte '<' ∉ escape key
  plain : ∀ key, ∀ t ∈ opening key ++ continuation key ++ details key ++ closing,
    t.Plain ∧ t ≠ .tag (utf8 "Key")
  failing : ∀ request answer, refusal request = some answer → ¬ answer.isSuccess

namespace S3Server

variable (server : S3Server)

/-- The keys that begin with a prefix. -/
def matching (pre : Bytes) : List Bytes := server.objects.filter fun key => pre <+: key

/-- The first page of them. -/
def page (pre : Bytes) : List Bytes := (server.matching pre).take server.pageSize

def isTruncated (pre : Bytes) : Bool := server.pageSize < (server.matching pre).length

def element (name : String) (bytes : Bytes) : List Token :=
  [.tag (utf8 name), .text bytes, .tag (utf8 ("/" ++ name))]

def contents (key : Bytes) : List Token :=
  .tag (utf8 "Contents") :: element "Key" (server.escape key) ++ server.details key
    ++ [.tag (utf8 "/Contents")]

def document (pre : Bytes) : List Token :=
  server.opening pre
    ++ element "IsTruncated" (utf8 (if server.isTruncated pre then "true" else "false"))
    ++ (if server.isTruncated pre then server.continuation pre else [])
    ++ (server.page pre).flatMap server.contents ++ server.closing

/-- The prefix that a request asks for. -/
def requested (sets : Url.EncodeSets) (r : Outgoing) : Bytes :=
  ((SigV4.params (byte ' ') (r.query sets)).lookup (utf8 "prefix")).getD []

def answer (sets : Url.EncodeSets) (r : Outgoing) : Answer :=
  match server.refusal r with
  | some refused => refused
  | none => ⟨200, render (server.document (requested sets r))⟩

end S3Server

/-! ## What the client makes of a page -/

section Page

theorem S3Server.details_plain (server : S3Server) (key : Bytes) :
    ∀ t ∈ server.details key, t.Plain ∧ t ≠ .tag (utf8 "Key") := fun t ht =>
  server.plain key t (List.mem_append_left _ (List.mem_append_right _ ht))

/-- The entries of a listing give their keys as they are written. -/
theorem behind_contents (server : S3Server) (keys : List Bytes) {after : List Token}
    (hafter : ∀ t ∈ after, t ≠ .tag (utf8 "Key")) :
    (behind (utf8 "Key") (keys.flatMap server.contents ++ after)).map (upTo (utf8 "/Key"))
      = keys.map fun key => [.text (server.escape key)] := by
  induction keys with
  | nil => rw [List.flatMap_nil, List.nil_append, behind_eq_nil hafter, List.map_nil, List.map_nil]
  | cons key keys ih =>
      have hskipped : ∀ t ∈ [.text (server.escape key), .tag (utf8 "/Key")] ++ server.details key
          ++ [.tag (utf8 "/Contents")], t ≠ .tag (utf8 "Key") := by
        intro t ht
        simp only [List.mem_append, List.mem_cons, List.not_mem_nil, or_false] at ht
        rcases ht with ((rfl | rfl) | ht) | rfl
        · exact fun h => (by cases h)
        · decide
        · exact (server.details_plain key t ht).2
        · decide
      have hentry : (key :: keys).flatMap server.contents ++ after
          = .tag (utf8 "Contents") :: .tag (utf8 "Key") ::
            ([.text (server.escape key), .tag (utf8 "/Key")] ++ server.details key
              ++ [.tag (utf8 "/Contents")] ++ (keys.flatMap server.contents ++ after)) := by
        simp [S3Server.contents, S3Server.element]
      rw [hentry, behind_of_ne (by decide), behind_tag, behind_append hskipped, List.map_cons, ih,
        List.map_cons]
      rfl

/-- What stands before the entries of a page. -/
def S3Server.preamble (server : S3Server) (pre : Bytes) : List Token :=
  server.opening pre
    ++ element "IsTruncated" (utf8 (if server.isTruncated pre then "true" else "false"))
    ++ if server.isTruncated pre then server.continuation pre else []

theorem S3Server.preamble_plain (server : S3Server) (pre : Bytes) :
    ∀ t ∈ server.preamble pre, t.Plain ∧ t ≠ .tag (utf8 "Key") := by
  intro t ht
  rcases List.mem_append.mp ht with ht | ht
  · rcases List.mem_append.mp ht with ht | ht
    · exact server.plain pre t
        (List.mem_append_left _ (List.mem_append_left _ (List.mem_append_left _ ht)))
    · simp only [element, List.mem_cons, List.not_mem_nil, or_false] at ht
      rcases ht with rfl | rfl | rfl
      · exact ⟨⟨by decide, by decide⟩, by decide⟩
      · refine ⟨?_, fun h => (by cases h)⟩
        unfold Token.Plain
        split_ifs <;> decide
      · exact ⟨⟨by decide, by decide⟩, by decide⟩
  · split_ifs at ht
    · exact server.plain pre t
        (List.mem_append_left _ (List.mem_append_left _ (List.mem_append_right _ ht)))
    · cases ht

theorem S3Server.closing_plain (server : S3Server) :
    ∀ t ∈ server.closing, t.Plain ∧ t ≠ .tag (utf8 "Key") := fun t ht =>
  server.plain [] t (List.mem_append_right _ ht)

theorem S3Server.contents_plain (server : S3Server) (key : Bytes) :
    ∀ t ∈ server.contents key, t.Plain := by
  intro t ht
  simp only [contents, element, List.mem_append, List.mem_cons, List.not_mem_nil, or_false] at ht
  rcases ht with ((rfl | rfl | rfl | rfl) | ht) | rfl
  · exact ⟨by decide, by decide⟩
  · exact ⟨by decide, by decide⟩
  · exact server.escaped key
  · exact ⟨by decide, by decide⟩
  · exact (server.details_plain key t ht).1
  · exact ⟨by decide, by decide⟩

/-- The keys of the first page, as the server writes them. -/
theorem parseListing_document (server : S3Server) (pre : Bytes) :
    (parseListing (render (server.document pre))).map ObjectInfo.key
      = (server.page pre).map server.escape := by
  have hdocument : server.document pre
      = server.preamble pre ++ ((server.page pre).flatMap server.contents ++ server.closing) :=
    List.append_assoc _ _ _
  have hplain : ∀ t ∈ server.document pre, t.Plain := by
    intro t ht
    rw [hdocument] at ht
    rcases List.mem_append.mp ht with ht | ht
    · exact (server.preamble_plain pre t ht).1
    · rcases List.mem_append.mp ht with ht | ht
      · obtain ⟨key, -, ht⟩ := List.mem_flatMap.mp ht
        exact server.contents_plain key t ht
      · exact (server.closing_plain t ht).1
  have hbehind := behind_contents server (server.page pre)
    fun t ht => (server.closing_plain t ht).2
  rw [← behind_append fun t ht => (server.preamble_plain pre t ht).2, ← hdocument] at hbehind
  have hread : (parseListing (render (server.document pre))).map ObjectInfo.key
      = (behind (utf8 "Key") (server.document pre)).map fun piece =>
        render (upTo (utf8 "/Key") piece) := by
    unfold parseListing
    rw [List.map_map]
    exact split_split_render (by decide) (by decide) hplain
  have hkeys := congrArg (List.map render) hbehind
  rw [List.map_map, List.map_map] at hkeys
  rw [hread]
  refine hkeys.trans (List.map_congr_left fun key _ => ?_)
  simp [Token.render]

end Page

/-! ## The prefix that arrives -/

/-- The query set keeps the two marks of a form encoding. -/
def KeepsForm (sets : Url.EncodeSets) : Prop :=
  sets.query (byte '+') = true ∧ sets.query (byte '*') = true

theorem readValue_formEncode (bs : Bytes) : SigV4.readValue (byte ' ') (formEncode bs) = bs := by
  unfold SigV4.readValue formEncode
  induction bs with
  | nil => rfl
  | cons b rest ih =>
      rw [List.flatMap_cons, List.map_append]
      split_ifs with hblank hkept
      · rw [List.map_singleton, if_pos rfl, List.singleton_append, hblank,
          decode_cons_of_ne (by decide), ih]
      · have hne : b ≠ byte '+' ∧ b ≠ byte '%' := by
          constructor <;> rintro rfl <;> exact absurd hkept (by decide)
        rw [List.map_singleton, if_neg hne.1, List.singleton_append, decode_cons_of_ne hne.2, ih]
      · have hescape : (escape b).map (fun b => if b = byte '+' then byte ' ' else b) = escape b := by
          conv_rhs => rw [← List.map_id (escape b)]
          apply List.map_congr_left
          intro c hc
          have hdigits : ∀ n < 16, hexUpper n ≠ byte '+' := by decide
          rw [if_neg]
          · rfl
          · rcases mem_escape hc with rfl | ⟨n, hn, rfl⟩
            · decide
            · exact hdigits n hn
        rw [hescape, decode_escape, ih]

/-- What a form encoding writes. -/
theorem mem_formEncode {bs : Bytes} {b : UInt8} (h : b ∈ formEncode bs) :
    unreserved b = true ∨ b = byte '%' ∨ b = byte '+' ∨ b = byte '*' := by
  obtain ⟨a, -, hb⟩ := List.mem_flatMap.mp h
  split_ifs at hb with hblank hkept
  · exact .inr (.inr (.inl (List.mem_singleton.mp hb)))
  · obtain rfl := List.mem_singleton.mp hb
    rw [Bool.or_eq_true, Bool.and_eq_true, beq_iff_eq] at hkept
    rcases hkept with ⟨hkept, -⟩ | hstar
    · exact .inl hkept
    · exact .inr (.inr (.inr hstar))
  · rcases mem_escape hb with hpercent | ⟨n, hn, rfl⟩
    · exact .inr (.inl hpercent)
    · exact .inl (unreserved_of_hexVal _ (by rw [hexVal_hexUpper n hn]; rfl))

section Requested

variable {sets : Url.EncodeSets} {crypto : Crypto} {config : StorageConfig} {now : AmzDate}
  {pre : String} {i : Issued}

theorem Bucket.char_range (bucket : Bucket) {c : Char} (h : c ∈ bucket.name.toList) :
    97 ≤ c.toNat ∧ c.toNat ≤ 122 ∨ 48 ≤ c.toNat ∧ c.toNat ≤ 57 ∨ c.toNat = 45 ∨ c.toNat = 46 := by
  have hname := bucket.wellFormed
  simp only [isBucketName, Bool.and_eq_true] at hname
  have hc := List.all_eq_true.mp hname.1.1.2 c h
  simp only [isBucketChar, Bool.or_eq_true, Bool.and_eq_true, decide_eq_true_eq, beq_iff_eq] at hc
  rcases hc with ((⟨hlow, hhigh⟩ | ⟨hlow, hhigh⟩) | rfl) | rfl
  · exact .inl ⟨hlow, hhigh⟩
  · exact .inr (.inl ⟨hlow, hhigh⟩)
  · exact .inr (.inr (.inl rfl))
  · exact .inr (.inr (.inr rfl))

theorem bucketPath_noStop (bucket : Bucket) :
    ∀ b ∈ utf8 ("/" ++ bucket.name ++ "/"), Url.isStop b = false := by
  have hrange : ∀ c ∈ ("/" ++ bucket.name ++ "/").toList, c.toNat < 128 ∧ c.toNat ≠ 63 ∧
      c.toNat ≠ 35 := by
    intro c hc
    rw [String.toList_append, String.toList_append, List.mem_append, List.mem_append] at hc
    rcases hc with (hc | hc) | hc
    · obtain rfl := List.mem_singleton.mp hc
      decide
    · have := bucket.char_range hc
      omega
    · obtain rfl := List.mem_singleton.mp hc
      decide
  rw [utf8_ascii fun c hc => (hrange c hc).1]
  intro b hb
  obtain ⟨c, hc, rfl⟩ := List.mem_map.mp hb
  obtain ⟨hlow, hquestion, hhash⟩ := hrange c hc
  have hvalue : (UInt8.ofNat c.toNat).toNat = c.toNat := 
    UInt8.toNat_ofNat_of_lt' (hlow.trans (by decide))
  rw [Url.isStop, Bool.or_eq_false_iff, beq_eq_false_iff_ne, beq_eq_false_iff_ne]
  constructor
  · intro heq
    rw [heq] at hvalue
    exact hquestion hvalue.symm
  · intro heq
    rw [heq] at hvalue
    exact hhash hvalue.symm

theorem listQuery_kept (pre : String) (hform : KeepsForm sets) :
    ∀ b ∈ listQuery pre, sets.query b = true := by
  intro b hb
  rcases List.mem_append.mp hb with hb | hb
  · have hall : ∀ b ∈ utf8 "list-type=2&prefix=",
        (unreserved b || b == byte '%' || b == byte '=' || b == byte '&') = true :=
      List.all_eq_true.mp (by decide)
    exact (sets.kept_common (hall b hb)).2
  · rcases mem_formEncode hb with hkept | rfl | rfl | rfl
    · exact (sets.kept_common (by rw [hkept]; rfl)).2
    · exact (sets.kept_common (by decide)).2
    · exact hform.1
    · exact hform.2

/-- The two parameters of a listing. -/
theorem params_listQuery (pre : String) : SigV4.params (byte ' ') (listQuery pre)
    = [(utf8 "list-type", utf8 "2"), (utf8 "prefix", utf8 pre)] := by
  have hseparator : ∀ piece ∈ [utf8 "list-type=2", utf8 "prefix=" ++ formEncode (utf8 pre)],
      byte '&' ∉ piece := by
    intro piece hpiece
    simp only [List.mem_cons, List.not_mem_nil, or_false] at hpiece
    rcases hpiece with rfl | rfl
    · decide
    · rw [List.mem_append, not_or]
      refine ⟨by decide, fun hmem => ?_⟩
      rcases mem_formEncode hmem with hb | hb | hb | hb <;> exact absurd hb (by decide)
  have hquery : listQuery pre
      = [byte '&'].intercalate [utf8 "list-type=2", utf8 "prefix=" ++ formEncode (utf8 pre)] := by
    rw [List.intercalate_cons_cons, List.intercalate_singleton]
    rfl
  have hpair : SigV4.readPair (byte ' ') (utf8 "prefix=" ++ formEncode (utf8 pre))
      = (utf8 "prefix", utf8 pre) := by
    have htext : utf8 "prefix=" ++ formEncode (utf8 pre)
        = SigV4.pairText (utf8 "prefix", formEncode (utf8 pre)) := rfl
    obtain ⟨hname, hvalue⟩ := SigV4.takeWhile_pairText (p := (utf8 "prefix", formEncode (utf8 pre)))
      (show byte '=' ∉ utf8 "prefix" by decide)
    rw [htext, SigV4.readPair, hname, hvalue, readValue_formEncode]
    rfl
  unfold SigV4.params
  rw [hquery, List.splitOn_intercalate _ hseparator (List.cons_ne_nil _ _), List.filter_cons,
    if_pos (by decide), List.filter_cons,
    if_pos (decide_eq_true (List.append_ne_nil_of_left_ne_nil (by decide) _)), List.filter_nil,
    List.map_cons, List.map_cons, hpair]
  rfl

/-- The server is asked for the prefix of the call. -/
theorem requested_list (hform : KeepsForm sets)
    (h : list sets crypto config now pre = .ok i) :
    S3Server.requested sets i.request = utf8 pre := by
  obtain ⟨base, hbase, hsend⟩ := bind_ok (x := objectUrlText sets config "") h
  obtain ⟨rfl, -⟩ := send_ok hsend
  have hurl : base.tail = (Url.parse sets (utf8 ("/" ++ config.bucket.name ++ "/"))).text := by
    unfold objectUrlText objectUrl buildObjectUrl at hbase
    cases hendpoint : config.endpoint with
    | error e =>
        rw [hendpoint] at hbase
        cases hbase
    | ok origin =>
        rw [hendpoint] at hbase
        obtain rfl := Except.ok.inj hbase
        rfl
  obtain ⟨hquery, hfragment⟩ := Url.parse_pathOnly sets
    (bucketPath_noStop config.bucket)
  have htext : (Url.parse sets (utf8 ("/" ++ config.bucket.name ++ "/"))).text
      = Url.pathText (Url.parse sets (utf8 ("/" ++ config.bucket.name ++ "/"))).segments := by
    unfold Url.Parsed.text
    rw [hquery, hfragment]
    simp [Url.Parsed.path]
  have hparsed := Url.parse_query (Url.parse_settled sets
    (utf8 ("/" ++ config.bucket.name ++ "/"))) (listQuery_kept pre hform)
  unfold S3Server.requested Outgoing.query
  dsimp only
  rw [hurl, htext, hparsed]
  dsimp only
  rw [Option.getD_some, params_listQuery]
  rfl

end Requested

/-! ## Exact listings -/

/-- A listing that succeeds gives the keys with the prefix, in the order of the server and with their
exact characters; one that the server answers with an error status fails. -/
def ListsExactly (server : S3Server) (pre : String) (answer : Answer)
    (result : Except ApiError (List ObjectInfo)) : Prop :=
  (answer.isSuccess → ∃ objects, result = .ok objects ∧
    objects.map ObjectInfo.key = server.matching (utf8 pre)) ∧
  (¬ answer.isSuccess → ∃ err, result = .error err)

section Exact

variable {server : S3Server} {sets : Url.EncodeSets} {crypto : Crypto} {config : StorageConfig}
  {now : AmzDate} {pre : String} {i : Issued}

theorem listObjects_answered (h : list sets crypto config now pre = .ok i) :
    listObjects sets crypto config now pre (fun r => .ok (.ok (server.answer sets r)))
      = .ok (parseListing (server.answer sets i.request).body) := by
  unfold listObjects
  rw [h]
  rfl

/-- A listing that is not refused. -/
theorem listsExactly_accepted (hform : KeepsForm sets)
    (h : list sets crypto config now pre = .ok i) (hrefusal : server.refusal i.request = none) :
    ListsExactly server pre (server.answer sets i.request)
        (listObjects sets crypto config now pre fun r => .ok (.ok (server.answer sets r))) ↔
      (server.page (utf8 pre)).map server.escape = server.matching (utf8 pre) := by
  have hanswer : server.answer sets i.request
      = ⟨200, render (server.document (utf8 pre))⟩ := by
    unfold S3Server.answer
    rw [hrefusal, requested_list hform h]
  have hsuccess : (⟨200, render (server.document (utf8 pre))⟩ : Answer).isSuccess :=
    ⟨le_refl 200, (by decide : 200 < 300)⟩
  rw [listObjects_answered h, hanswer, ← parseListing_document]
  constructor
  · intro hexact
    obtain ⟨objects, hobjects, hkeys⟩ := hexact.1 hsuccess
    obtain rfl := Except.ok.inj hobjects
    exact hkeys
  · exact fun hkeys => ⟨fun _ => ⟨_, rfl, hkeys⟩, fun hnot => absurd hsuccess hnot⟩

/-- The listing is exact if and only if the server does not refuse it, the keys fit one page, and XML
writes each of them as it is. -/
theorem listsExactly_iff (server : S3Server) (hform : KeepsForm sets)
    (h : list sets crypto config now pre = .ok i) :
    ListsExactly server pre (server.answer sets i.request)
        (listObjects sets crypto config now pre fun r => .ok (.ok (server.answer sets r))) ↔
      server.refusal i.request = none ∧ (server.matching (utf8 pre)).length ≤ server.pageSize ∧
        ∀ key ∈ server.matching (utf8 pre), server.escape key = key := by
  cases hrefusal : server.refusal i.request with
  | some refused =>
      have hanswer : server.answer sets i.request = refused := by
        unfold S3Server.answer
        rw [hrefusal]
      have hfailing := server.failing i.request refused hrefusal
      rw [listObjects_answered h, hanswer]
      refine ⟨fun hexact => ?_, fun hnone => nomatch hnone.1⟩
      obtain ⟨err, herr⟩ := hexact.2 hfailing
      cases herr
  | none =>
      rw [listsExactly_accepted hform h hrefusal]
      constructor
      · intro hsame
        have hlength := congrArg List.length hsame
        rw [List.length_map, S3Server.page, List.length_take] at hlength
        have hpage : server.page (utf8 pre) = server.matching (utf8 pre) :=
          List.take_of_length_le (by omega)
        rw [hpage] at hsame
        refine ⟨rfl, by omega, fun key hkey => ?_⟩
        exact List.map_inj_left.mp (hsame.trans (List.map_id _).symm) key hkey
      · rintro ⟨-, hfits, hescape⟩
        have hpage : server.page (utf8 pre) = server.matching (utf8 pre) :=
          List.take_of_length_le hfits
        rw [hpage]
        exact (List.map_congr_left hescape).trans (List.map_id _)

end Exact

namespace Sample

/-- The escapes that a text in XML needs. -/
def escapeText (key : Bytes) : Bytes :=
  key.flatMap fun b =>
    if b = byte '<' then utf8 "&lt;"
    else if b = byte '>' then utf8 "&gt;"
    else if b = byte '&' then utf8 "&amp;"
    else [b]

theorem escapeText_plain (key : Bytes) : byte '<' ∉ escapeText key := by
  intro h
  obtain ⟨b, -, hb⟩ := List.mem_flatMap.mp h
  split_ifs at hb with hless hgreater hand
  · exact absurd hb (by decide)
  · exact absurd hb (by decide)
  · exact absurd hb (by decide)
  · exact hless (List.mem_singleton.mp hb).symm

/-- A server with these objects that refuses nothing. -/
def listingServer (objects : List String) (hdistinct : (objects.map utf8).Nodup) : S3Server where
  objects := objects.map utf8
  pageSize := 1000
  escape := escapeText
  opening _ := []
  continuation _ := []
  details _ := []
  closing := []
  refusal _ := none
  distinct := hdistinct
  pageLimit := le_rfl
  escaped := escapeText_plain
  plain _ t ht := by cases ht
  failing _ _ h := nomatch h

end Sample

/-- A key that is listed as it is. -/
theorem listsExactly_iff_plain :
    ∃ i, list Url.whatwg Sample.crypto Sample.config Sample.now "a" = .ok i ∧
      ListsExactly (Sample.listingServer ["a.txt", "b.txt"] (by decide)) "a"
        ((Sample.listingServer ["a.txt", "b.txt"] (by decide)).answer Url.whatwg i.request)
        (listObjects Url.whatwg Sample.crypto Sample.config Sample.now "a" fun r =>
          .ok (.ok ((Sample.listingServer ["a.txt", "b.txt"] (by decide)).answer Url.whatwg r))) := by
  cases hissue : list Url.whatwg Sample.crypto Sample.config Sample.now "a" with
  | error e =>
      have hok : (list Url.whatwg Sample.crypto Sample.config Sample.now "a").isOk = true := by
        decide +kernel
      rw [hissue] at hok
      cases hok
  | ok i =>
      exact ⟨i, rfl, (listsExactly_iff _ ⟨by decide, by decide⟩ hissue).mpr
        ⟨rfl, by decide, List.forall_iff_forall_mem.mp (by decide)⟩⟩

/-- The key `a&b` is listed as `a&amp;b`. -/
theorem ampersand_not_listed :
    ¬ ∀ (server : S3Server) (crypto : Crypto) (config : StorageConfig) (now : AmzDate)
      (pre : String) (i : Issued), list Url.whatwg crypto config now pre = .ok i →
      ListsExactly server pre (server.answer Url.whatwg i.request)
        (listObjects Url.whatwg crypto config now pre fun r =>
          .ok (.ok (server.answer Url.whatwg r))) := by
  intro h
  cases hissue : list Url.whatwg Sample.crypto Sample.config Sample.now "" with
  | error e =>
      have hok : (list Url.whatwg Sample.crypto Sample.config Sample.now "").isOk = true := by
        decide +kernel
      rw [hissue] at hok
      cases hok
  | ok i =>
      have hexact := h (Sample.listingServer ["a&b"] (by decide)) Sample.crypto Sample.config
        Sample.now "" i hissue
      rw [listsExactly_accepted ⟨by decide, by decide⟩ hissue rfl] at hexact
      exact absurd hexact (by decide)

end FullStackHex.Storage
