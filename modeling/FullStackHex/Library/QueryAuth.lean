import FullStackHex.Library.SigV4
import FullStackHex.Library.Url

/-!
Signature Version 4 in the query of a URL, as S3 checks it: what a request that carries
its own signature has to say, and what the server signs to compare it with.
-/

namespace SigV4

open Codec Percent

/-- What a server knows of a client, and what it is itself. -/
structure Account where
  accessKey : Bytes
  secretKey : Bytes
  region : Bytes
  service : Bytes

/-- A hash, and a message authentication code for a key and a message. -/
structure Primitives where
  hash : Bytes → Bytes
  mac : Bytes → Bytes → Bytes

def algorithmName : Bytes := utf8 "AWS4-HMAC-SHA256"

def terminator : Bytes := utf8 "aws4_request"

/-- The first eight characters of a date are its day. -/
def day (date : Bytes) : Bytes := date.take 8

def hexDigit (n : Nat) : UInt8 := byte (Nat.digitChar n)

def hexText (bs : Bytes) : Bytes :=
  bs.flatMap fun b => [hexDigit (b.toNat / 16), hexDigit (b.toNat % 16)]

namespace Account

def scope (a : Account) (date : Bytes) : Bytes :=
  [byte '/'].intercalate [day date, a.region, a.service, terminator]

def credential (a : Account) (date : Bytes) : Bytes := a.accessKey ++ byte '/' :: a.scope date

def signingKey (a : Account) (p : Primitives) (date : Bytes) : Bytes :=
  [day date, a.region, a.service, terminator].foldl p.mac (utf8 "AWS4" ++ a.secretKey)

def stringToSign (a : Account) (date hash : Bytes) : Bytes :=
  [newline].intercalate [algorithmName, date, a.scope date, hexText hash]

def sign (a : Account) (p : Primitives) (date canonical : Bytes) : Bytes :=
  hexText (p.mac (a.signingKey p date) (a.stringToSign date (p.hash canonical)))

end Account

/-- The values of a parameter. -/
def values (ps : List (Bytes × Bytes)) (name : Bytes) : List Bytes :=
  (ps.filter fun p => p.1 = name).map Prod.snd

def signatureName : Bytes := utf8 "X-Amz-Signature"

/-- The parameters that are signed. -/
def unsigned (ps : List (Bytes × Bytes)) : List (Bytes × Bytes) :=
  ps.filter fun p => p.1 ≠ signatureName

/-- Seven days. -/
def maxExpires : Nat := 604800

/-- The parameters of a signature, each of them once. -/
structure Claimed (a : Account) (ps : List (Bytes × Bytes)) (date signed : Bytes) : Prop where
  algorithm : values ps (utf8 "X-Amz-Algorithm") = [algorithmName]
  credential : values ps (utf8 "X-Amz-Credential") = [a.credential date]
  date : values ps (utf8 "X-Amz-Date") = [date]
  expires : ∃ n ≤ maxExpires, values ps (utf8 "X-Amz-Expires") = [utf8 (toString n)]
  names : values ps (utf8 "X-Amz-SignedHeaders") = [signed]
  host : utf8 "host" ∈ signed.splitOn (byte ';')

/-- The clock apart, the request is let in. -/
def Admits (a : Account) (p : Primitives) (plus : UInt8) (m : Message) : Prop :=
  ∃ date signed, Claimed a (params plus m.query) date signed ∧
    values (params plus m.query) signatureName = [a.sign p date (canonicalRequest m
      (unsigned (params plus m.query)) (signed.splitOn (byte ';')) (utf8 "UNSIGNED-PAYLOAD"))]

/-! ## Pairs of a query -/

variable {plus : UInt8} {ps : List (Bytes × Bytes)} {x y : Bytes} {b : UInt8}

theorem encodePair_injective : Function.Injective encodePair := by
  rintro ⟨name, value⟩ ⟨name', value'⟩ h
  obtain ⟨hname, hvalue⟩ := Prod.mk.inj h
  have hback : ∀ t : Bytes, decode (encode unreserved t) = t := decode_encode (by decide)
  rw [Prod.mk.injEq, ← hback name, ← hback name', ← hback value, ← hback value']
  exact ⟨congrArg decode hname, congrArg decode hvalue⟩

/-- Pairs that are written in their encoded form are read back. -/
theorem params_encodePairs (hne : ps ≠ []) :
    params plus ([byte '&'].intercalate ((ps.map encodePair).map pairText)) = ps := by
  apply List.map_injective_iff.mpr encodePair_injective
  apply params_intercalate
  · simpa using hne
  · intro p hp
    obtain ⟨raw, -, rfl⟩ := List.mem_map.mp hp
    exact ⟨isEncoded_encode (by decide) _, isEncoded_encode (by decide) _⟩

/-- Pairs in canonical order are written in that order. -/
theorem canonicalQuery_of_sorted (h : (ps.map encodePair).Pairwise fun p p' => order p ≤ order p') :
    canonicalQuery ps = [byte '&'].intercalate ((ps.map encodePair).map pairText) := by
  unfold canonicalQuery sortPairs
  rw [h.insertionSort_eq]

/-- One canonical query, one set of pairs. -/
theorem perm_of_canonicalQuery {ps ps' : List (Bytes × Bytes)} (hne : ps ≠ []) (hne' : ps' ≠ [])
    (h : canonicalQuery ps = canonicalQuery ps') : ps.Perm ps' := by
  have hread : ∀ qs : List (Bytes × Bytes), qs ≠ [] →
      ((params (byte ' ') (canonicalQuery qs)).map encodePair).Perm (qs.map encodePair) := by
    intro qs hqs
    have hperm := List.perm_insertionSort (fun p p' : Bytes × Bytes => order p ≤ order p')
      (qs.map encodePair)
    unfold canonicalQuery
    rw [params_intercalate]
    · exact hperm
    · intro hnil
      have hlength := hperm.length_eq
      unfold sortPairs at hnil
      rw [hnil, List.length_map, List.length_nil] at hlength
      exact hqs (List.length_eq_zero_iff.mp hlength.symm)
    · intro p hp
      obtain ⟨raw, -, rfl⟩ := List.mem_map.mp (hperm.subset hp)
      exact ⟨isEncoded_encode (by decide) _, isEncoded_encode (by decide) _⟩
  have hboth := (hread ps hne).symm.trans (h ▸ hread ps' hne')
  exact (List.map_perm_map_iff encodePair_injective).mp hboth

theorem params_append (plus : UInt8) (x y : Bytes) :
    params plus (x ++ byte '&' :: y) = params plus x ++ params plus y := by
  unfold params
  rw [List.splitOn_append_cons_self, List.filter_append, List.map_append]

/-- A byte that means nothing to a query is in one of its pairs. -/
theorem mem_params (plus : UInt8) (hplus : b ≠ byte '+') (hand : b ≠ byte '&') (hequal : b ≠ byte '=')
    (hpercent : b ≠ byte '%') (hdigit : (hexVal b).isSome = false) (h : b ∈ x) :
    ∃ p ∈ params plus x, b ∈ p.1 ∨ b ∈ p.2 := by
  have hvalue : ∀ t : Bytes, b ∈ t → b ∈ readValue plus t := by
    intro t ht
    obtain ⟨front, rest, rfl⟩ := List.append_of_mem ht
    unfold readValue
    rw [List.map_append, List.map_cons, if_neg hplus, decode_append_cons hpercent hdigit]
    exact List.mem_append_right _ (List.mem_cons_self ..)
  have hpiece : ∃ piece ∈ x.splitOn (byte '&'), b ∈ piece := by
    rw [← @List.intercalate_splitOn _ x _ _ (byte '&')] at h
    exact mem_intercalate hand h
  obtain ⟨piece, hpiece, hmem⟩ := hpiece
  refine ⟨readPair plus piece, ?_, ?_⟩
  · apply List.mem_map_of_mem
    rw [List.mem_filter]
    exact ⟨hpiece, by simpa using List.ne_nil_of_mem hmem⟩
  · rw [← List.takeWhile_append_dropWhile (p := fun b => b ≠ byte '=') (l := piece)] at hmem
    rcases List.mem_append.mp hmem with hmem | hmem
    · exact .inl (hvalue _ hmem)
    · right
      apply hvalue
      cases hrest : piece.dropWhile fun b => b ≠ byte '=' with
      | nil =>
          rw [hrest] at hmem
          cases hmem
      | cons first rest =>
          have hfirst : first = byte '=' := by
            have hstop := List.head_dropWhile_not (fun b => decide (b ≠ byte '=')) (l := piece)
              (by rw [hrest]; exact List.cons_ne_nil _ _)
            simp only [hrest, List.head_cons, decide_eq_false_iff_not, not_not] at hstop
            exact hstop
          rw [hrest, List.mem_cons, hfirst] at hmem
          exact hmem.resolve_left hequal

/-- The bytes of a query that is written out of its pairs. -/
theorem mem_pairs (h : b ∈ [byte '&'].intercalate ((ps.map encodePair).map pairText)) :
    (unreserved b || b == byte '%' || b == byte '=' || b == byte '&') = true := by
  have hencoded : ∀ t : Bytes, b ∈ encode unreserved t → unreserved b = true ∨ b = byte '%' := by
    intro t ht
    rcases mem_encode ht with ⟨hkeep, -⟩ | hpercent | ⟨n, hn, rfl⟩
    · exact .inl hkeep
    · exact .inr hpercent
    · left
      apply unreserved_of_hexVal
      rw [hexVal_hexUpper n hn]
      rfl
  by_cases hand : b = byte '&'
  · simp [hand]
  · obtain ⟨piece, hpiece, hmem⟩ := mem_intercalate hand h
    obtain ⟨p, hp, rfl⟩ := List.mem_map.mp hpiece
    obtain ⟨raw, -, rfl⟩ := List.mem_map.mp hp
    rcases List.mem_append.mp hmem with hname | hrest
    · rcases hencoded _ hname with hkeep | hpercent
      · simp [hkeep]
      · simp [hpercent]
    · rcases List.mem_cons.mp hrest with hequal | hvalue
      · simp [hequal]
      · rcases hencoded _ hvalue with hkeep | hpercent
        · simp [hkeep]
        · simp [hpercent]

/-! ## A signature behind the other parameters -/

section Signed

variable {a : Account} {p : Primitives} {m : Message} {date signed sig name : Bytes}

theorem values_append (ps ps' : List (Bytes × Bytes)) (name : Bytes) :
    values (ps ++ ps') name = values ps name ++ values ps' name := by
  simp [values]

theorem values_signed (h : signatureName ≠ name) :
    values (ps ++ [(signatureName, sig)]) name = values ps name := by
  simp [values, h]

theorem claimed_signed :
    Claimed a (ps ++ [(signatureName, sig)]) date signed ↔ Claimed a ps date signed := by
  have hother : ∀ name ∈ ["X-Amz-Algorithm", "X-Amz-Credential", "X-Amz-Date", "X-Amz-Expires",
      "X-Amz-SignedHeaders"], signatureName ≠ utf8 name := by decide +kernel
  have hsame : ∀ name ∈ ["X-Amz-Algorithm", "X-Amz-Credential", "X-Amz-Date", "X-Amz-Expires",
      "X-Amz-SignedHeaders"],
      values (ps ++ [(signatureName, sig)]) (utf8 name) = values ps (utf8 name) := fun name hname =>
    values_signed (hother name hname)
  simp only [List.mem_cons, List.not_mem_nil, or_false, forall_eq_or_imp, forall_eq] at hsame
  obtain ⟨halgorithm, hcredential, hdate, hexpires, hnames⟩ := hsame
  constructor
  · intro h
    exact ⟨halgorithm ▸ h.algorithm, hcredential ▸ h.credential, hdate ▸ h.date,
      hexpires ▸ h.expires, hnames ▸ h.names, h.host⟩
  · intro h
    exact ⟨halgorithm.symm ▸ h.algorithm, hcredential.symm ▸ h.credential, hdate.symm ▸ h.date,
      hexpires.symm ▸ h.expires, hnames.symm ▸ h.names, h.host⟩

/-- What is signed is what stands before the signature. -/
theorem admits_signed (hparams : params plus m.query = ps ++ [(signatureName, sig)]) :
    Admits a p plus m ↔ ∃ date signed, Claimed a ps date signed ∧ values ps signatureName = [] ∧
      sig = a.sign p date (canonicalRequest m ps (signed.splitOn (byte ';'))
        (utf8 "UNSIGNED-PAYLOAD")) := by
  have hvalues : values (ps ++ [(signatureName, sig)]) signatureName
      = values ps signatureName ++ [sig] := by
    rw [values_append]
    simp [values]
  have hunsigned : values ps signatureName = [] →
      unsigned (ps ++ [(signatureName, sig)]) = ps := by
    intro hnone
    have hrest : unsigned ps = ps := by
      apply List.filter_eq_self.mpr
      intro q hq
      rw [decide_eq_true_eq]
      intro hname
      have hmem : q.2 ∈ values ps signatureName :=
        List.mem_map_of_mem (List.mem_filter.mpr ⟨hq, decide_eq_true hname⟩)
      rw [hnone] at hmem
      cases hmem
    unfold unsigned at hrest ⊢
    rw [List.filter_append, hrest]
    simp
  unfold Admits
  rw [hparams, hvalues]
  constructor
  · rintro ⟨date, signed, hclaimed, hsig⟩
    obtain ⟨hnone, hlast⟩ := List.append_inj' (show _ = [] ++ [_] from hsig) rfl
    rw [hunsigned hnone] at hlast
    exact ⟨date, signed, claimed_signed.mp hclaimed, hnone, List.singleton_inj.mp hlast⟩
  · rintro ⟨date, signed, hclaimed, hnone, hsig⟩
    refine ⟨date, signed, claimed_signed.mpr hclaimed, ?_⟩
    rw [hunsigned hnone, hnone, ← hsig]
    rfl

end Signed

/-! ## Canonical requests and strings to sign -/

theorem assemble_inj_rest {method uri uri' query query' headers headers' signed signed' : Bytes}
    {payloadHash payloadHash' : Bytes} (huri : newline ∉ uri) (huri' : newline ∉ uri')
    (hquery : newline ∉ query) (hquery' : newline ∉ query')
    (h : assemble method uri query headers signed payloadHash
      = assemble method uri' query' headers' signed' payloadHash') :
    uri = uri' ∧ query = query' ∧ headers ++ newline :: (signed ++ newline :: payloadHash)
      = headers' ++ newline :: (signed' ++ newline :: payloadHash') := by
  unfold assemble at h
  simp only [List.append_assoc, List.cons_append] at h
  have hrest := (List.cons.inj (List.append_cancel_left h)).2
  obtain ⟨hsame, hrest⟩ := append_separator_inj huri huri' hrest
  obtain ⟨hsame', hrest⟩ := append_separator_inj hquery hquery' hrest
  exact ⟨hsame, hsame', hrest⟩

theorem length_hexText (bs : Bytes) : (hexText bs).length = 2 * bs.length := by
  induction bs with
  | nil => rfl
  | cons b rest ih =>
      have hcons : hexText (b :: rest)
          = hexDigit (b.toNat / 16) :: hexDigit (b.toNat % 16) :: hexText rest := rfl
      rw [hcons, List.length_cons, List.length_cons, List.length_cons, ih]
      omega

theorem unreserved_hexText (bs : Bytes) : ∀ b ∈ hexText bs, unreserved b = true := by
  have hdigit : ∀ n < 16, unreserved (hexDigit n) = true := by decide
  intro b hb
  obtain ⟨raw, -, hmem⟩ := List.mem_flatMap.mp hb
  have hraw := raw.toNat_lt
  simp only [List.mem_cons, List.not_mem_nil, or_false] at hmem
  rcases hmem with rfl | rfl
  · exact hdigit _ (by omega)
  · exact hdigit _ (by omega)

theorem hexText_injective : Function.Injective hexText := by
  have hdigit : ∀ n < 16, ∀ k < 16, hexDigit n = hexDigit k → n = k := by decide
  intro bs bs' h
  induction bs generalizing bs' with
  | nil =>
      cases bs' with
      | nil => rfl
      | cons b rest => cases h
  | cons b rest ih =>
      cases bs' with
      | nil => cases h
      | cons b' rest' =>
          have hcons : ∀ (a : UInt8) more, hexText (a :: more)
            = hexDigit (a.toNat / 16) :: hexDigit (a.toNat % 16) :: hexText more := fun _ _ => rfl
          rw [hcons, hcons, List.cons.injEq, List.cons.injEq] at h
          obtain ⟨hhigh, hlow, hrest⟩ := h
          have hb := b.toNat_lt
          have hb' := b'.toNat_lt
          have hhigh := hdigit _ (by omega) _ (by omega) hhigh
          have hlow := hdigit _ (by omega) _ (by omega) hlow
          have hsame : b = b' := UInt8.toNat_inj.mp (by omega)
          rw [hsame, ih hrest]

/-- Hashes of one length are told apart by the strings to sign. -/
theorem Account.stringToSign_hash {a : Account} {date date' hash hash' : Bytes}
    (hlength : hash.length = hash'.length)
    (h : a.stringToSign date hash = a.stringToSign date' hash') : hash = hash' := by
  have hsplit : ∀ d x, a.stringToSign d x
      = (algorithmName ++ [newline] ++ (d ++ [newline] ++ (a.scope d ++ [newline]))) ++ hexText x := by
    intro d x
    unfold Account.stringToSign
    simp only [List.intercalate_cons_cons, List.intercalate_singleton, List.append_assoc]
  rw [hsplit, hsplit] at h
  apply hexText_injective
  apply (List.append_inj' h ?_).2
  rw [length_hexText, length_hexText, hlength]

/-! ## The request for a URL -/

/-- What a browser sends for a URL: its path, its query and its host. -/
def visit (sets : Url.EncodeSets) (method host text : Bytes) (others : List (Bytes × Bytes)) :
    Message :=
  let parsed := Url.parse sets text
  ⟨method, parsed.path, parsed.query.getD [], (utf8 "host", host) :: others⟩

section Appended

variable {sets : Url.EncodeSets} {text : Bytes}

/-- A second question mark is a part of the query. -/
theorem query_append {q : Bytes} (hquestion : sets.query (byte '?') = true)
    (hfragment : (Url.parse sets text).fragment = none) (hq : ∀ b ∈ q, sets.query b = true) :
    (Url.parse sets ((Url.parse sets text).text ++ byte '?' :: q)).query
      = some ((Url.parse sets text).query.elim [] (fun front => front ++ [byte '?']) ++ q) := by
  have hsettled := Url.parse_settled sets text
  cases hquery : (Url.parse sets text).query with
  | none =>
      have htext : (Url.parse sets text).text = Url.pathText (Url.parse sets text).segments := by
        simp only [Url.Parsed.text, Url.Parsed.path, hquery, hfragment, Option.elim_none,
          List.append_nil]
      rw [htext, Url.parse_query hsettled hq]
      rfl
  | some front =>
      have hfront : ∀ b ∈ front, sets.query b = true := by
        intro b hb
        obtain ⟨raw, -, rfl⟩ := Url.queryOf_eq_some hquery
        exact sets.idempotent_query.mem hb
      have htext : (Url.parse sets text).text ++ byte '?' :: q
          = Url.pathText (Url.parse sets text).segments
            ++ byte '?' :: (front ++ [byte '?'] ++ q) := by
        simp only [Url.Parsed.text, Url.Parsed.path, hquery, hfragment, Option.elim_none,
          Option.elim_some, List.append_assoc, List.append_nil, List.cons_append, List.nil_append]
      rw [htext, Url.parse_query hsettled]
      · rfl
      · intro b hb
        rw [List.mem_append, List.mem_append, List.mem_singleton] at hb
        rcases hb with (hb | rfl) | hb
        · exact hfront b hb
        · exact hquestion
        · exact hq b hb

/-- Behind a fragment, nothing more gets into the query. -/
theorem query_behind_fragment {f : Bytes} (hfragment : (Url.parse sets text).fragment = some f)
    (more more' : Bytes) :
    (Url.parse sets ((Url.parse sets text).text ++ more)).query
      = (Url.parse sets ((Url.parse sets text).text ++ more')).query := by
  have hsettled := Url.parse_settled sets text
  have hone : ∀ more, (Url.parse sets ((Url.parse sets text).text ++ more)).query
      = Url.queryOf sets ((Url.parse sets text).query.elim [] (byte '?' :: ·) ++ [byte '#']) := by
    intro more
    have htext : (Url.parse sets text).text ++ more = Url.pathText (Url.parse sets text).segments
        ++ ((Url.parse sets text).query.elim [] (byte '?' :: ·) ++ byte '#' :: (f ++ more)) := by
      simp only [Url.Parsed.text, Url.Parsed.path, hfragment, Option.elim_some, List.append_assoc,
        List.cons_append]
    rw [htext]
    cases hquery : (Url.parse sets text).query with
    | none =>
        have hclean := Url.clean_append (s := []) (b := byte '#') (by decide) (by simp) (f ++ more)
        rw [List.nil_append, List.nil_append] at hclean
        rw [Option.elim_none, List.nil_append, List.nil_append, Url.parse_pathText hsettled, hclean]
        · rfl
        · intro b hb
          obtain rfl := Option.mem_some.mp hb
          decide
    | some q =>
        have hvisible : ∀ b ∈ byte '?' :: q, 32 < b.toNat := by
          intro b hb
          rcases List.mem_cons.mp hb with rfl | hb
          · decide
          · exact (Url.visible_query hquery b hb).1
        rw [Option.elim_some, Url.parse_pathText hsettled, Url.clean_append (by decide) hvisible]
        · have hstop : ∀ rest : Bytes, Url.queryOf sets (byte '?' :: q ++ byte '#' :: rest)
              = some (encode sets.query (q.takeWhile fun b => b ≠ byte '#')) := by
            intro rest
            rw [List.cons_append, Url.queryOf, if_pos rfl, takeWhile_stop _ _ (by decide)]
          rw [hstop]
          exact (hstop []).symm
        · intro b hb
          obtain rfl := Option.mem_some.mp hb
          decide
  rw [hone, hone]

end Appended

end SigV4
