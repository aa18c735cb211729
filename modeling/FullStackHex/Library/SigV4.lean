import FullStackHex.Library.Percent

/-!
AWS Signature Version 4 as S3 checks it: the canonical form of a request that has
arrived, and the signature that a server computes from it. Hash and HMAC are
parameters. Servers differ in what they take a plus sign in a query for.
-/

namespace SigV4

open Codec Percent

/-- A request as it arrives: names of headers in lower case, values without the blanks around
them. -/
structure Message where
  method : Bytes
  path : Bytes
  query : Bytes
  headers : List (Bytes × Bytes)

def newline : UInt8 := 10

/-- By name, then by value. -/
def order (p : Bytes × Bytes) : List Nat ×ₗ List Nat :=
  toLex (p.1.map UInt8.toNat, p.2.map UInt8.toNat)

def sortPairs (ps : List (Bytes × Bytes)) : List (Bytes × Bytes) :=
  ps.insertionSort fun p p' => order p ≤ order p'

def keepUri (b : UInt8) : Bool := unreserved b || b == byte '/'

def canonicalUri (path : Bytes) : Bytes := encode keepUri (decode path)

/-- A name or a value of a query. -/
def readValue (plus : UInt8) (t : Bytes) : Bytes :=
  decode (t.map fun b => if b = byte '+' then plus else b)

def readPair (plus : UInt8) (piece : Bytes) : Bytes × Bytes :=
  (readValue plus (piece.takeWhile fun b => b ≠ byte '='),
    readValue plus (piece.dropWhile fun b => b ≠ byte '=').tail)

def params (plus : UInt8) (query : Bytes) : List (Bytes × Bytes) :=
  ((query.splitOn (byte '&')).filter fun piece => piece ≠ []).map (readPair plus)

def encodePair (p : Bytes × Bytes) : Bytes × Bytes := (encode unreserved p.1, encode unreserved p.2)

def pairText (p : Bytes × Bytes) : Bytes := p.1 ++ byte '=' :: p.2

def canonicalQuery (ps : List (Bytes × Bytes)) : Bytes :=
  [byte '&'].intercalate ((sortPairs (ps.map encodePair)).map pairText)

def blank (b : UInt8) : Bool := b == 32 || b == 9

def headerValue (headers : List (Bytes × Bytes)) (name : Bytes) : Bytes :=
  ((headers.find? fun h => h.1 = name).map fun h => trimBy blank h.2).getD []

def headerLine (name value : Bytes) : Bytes := name ++ byte ':' :: value ++ [newline]

/-- The six parts of a canonical request. -/
def assemble (method uri query headers signed payloadHash : Bytes) : Bytes :=
  method ++ newline :: uri ++ newline :: query ++ newline :: headers ++ newline :: signed
    ++ newline :: payloadHash

def canonicalRequest (m : Message) (ps : List (Bytes × Bytes)) (signed : List Bytes)
    (payloadHash : Bytes) : Bytes :=
  assemble m.method (canonicalUri m.path) (canonicalQuery ps)
    (signed.flatMap fun name => headerLine name (headerValue m.headers name))
    ([byte ';'].intercalate signed) payloadHash

/-! ## Canonical texts -/

/-- Pairs `name=value` with `&` between them, encoded and in order. -/
def CanonicalQuery (query : Bytes) : Prop :=
  query = [] ∨ ∃ ps : List (Bytes × Bytes), ps ≠ [] ∧
    (∀ p ∈ ps, isEncoded unreserved p.1 = true ∧ isEncoded unreserved p.2 = true) ∧
      ps.Pairwise (fun p p' => order p ≤ order p') ∧
        query = [byte '&'].intercalate (ps.map pairText)

/-- Slashes, unreserved bytes and upper-case escapes of other bytes. -/
def CanonicalUri (path : Bytes) : Prop := isEncoded keepUri path = true

theorem canonicalUri_iff {path : Bytes} : canonicalUri path = path ↔ CanonicalUri path :=
  encode_decode_iff (by decide)

/-- The bytes of an encoded text. -/
theorem mem_isEncoded {keep : UInt8 → Bool} (hpercent : keep (byte '%') = false) {t : Bytes}
    (h : isEncoded keep t = true) {b : UInt8} (hb : b ∈ t) :
    keep b = true ∨ b = byte '%' ∨ ∃ n < 16, b = hexUpper n := by
  rw [← (encode_decode_iff hpercent).mpr h] at hb
  rcases mem_encode hb with ⟨hkeep, -⟩ | hrest
  · exact .inl hkeep
  · exact .inr hrest

/-- An encoded text has no byte that is neither unreserved nor a percent sign. -/
theorem not_mem_of_isEncoded {t : Bytes} (h : isEncoded unreserved t = true) {b : UInt8}
    (hb : unreserved b = false) (hpercent : b ≠ byte '%') : b ∉ t := by
  intro hmem
  rcases mem_isEncoded (by decide) h hmem with hkeep | hrest | ⟨n, hn, rfl⟩
  · rw [hb] at hkeep
    cases hkeep
  · exact hpercent hrest
  · have hdigit := unreserved_of_hexVal (hexUpper n) (by rw [hexVal_hexUpper n hn]; rfl)
    rw [hb] at hdigit
    cases hdigit

theorem readValue_of_isEncoded {plus : UInt8} {t : Bytes} (h : isEncoded unreserved t = true) :
    encode unreserved (readValue plus t) = t := by
  have hplus : byte '+' ∉ t := not_mem_of_isEncoded h (by decide) (by decide)
  have hmap : (t.map fun b => if b = byte '+' then plus else b) = t := by
    conv_rhs => rw [← List.map_id t]
    apply List.map_congr_left
    intro b hb
    rw [if_neg ?_]
    · rfl
    · rintro rfl
      exact hplus hb
  unfold readValue
  rw [hmap]
  exact (encode_decode_iff (by decide)).mpr h

theorem takeWhile_pairText {p : Bytes × Bytes} (h : byte '=' ∉ p.1) :
    (pairText p).takeWhile (fun b => b ≠ byte '=') = p.1 ∧
      ((pairText p).dropWhile fun b => b ≠ byte '=').tail = p.2 := by
  have hkeep : ∀ b ∈ p.1, decide (b ≠ byte '=') = true := by
    intro b hb
    rw [decide_eq_true_eq]
    rintro rfl
    exact h hb
  unfold pairText
  constructor
  · rw [takeWhile_stop _ _ (by simp), List.takeWhile_eq_self_iff]
    exact hkeep
  · rw [List.dropWhile_append_of_pos hkeep, List.dropWhile_cons_of_neg (by simp), List.tail_cons]

theorem pairwise_sortPairs (ps : List (Bytes × Bytes)) :
    (sortPairs ps).Pairwise fun p p' => order p ≤ order p' := by
  have htotal : Std.Total fun p p' : Bytes × Bytes => order p ≤ order p' :=
    ⟨fun p p' => le_total (order p) (order p')⟩
  have htrans : IsTrans (Bytes × Bytes) fun p p' => order p ≤ order p' :=
    ⟨fun _ _ _ => le_trans⟩
  exact List.pairwise_insertionSort _ ps

/-- The pairs of a query in canonical form are read back. -/
theorem params_intercalate {plus : UInt8} {ps : List (Bytes × Bytes)} (hne : ps ≠ [])
    (h : ∀ p ∈ ps, isEncoded unreserved p.1 = true ∧ isEncoded unreserved p.2 = true) :
    (params plus ([byte '&'].intercalate (ps.map pairText))).map encodePair = ps := by
  have hseparator : ∀ piece ∈ ps.map pairText, byte '&' ∉ piece := by
    intro piece hpiece
    obtain ⟨p, hp, rfl⟩ := List.mem_map.mp hpiece
    have hname := not_mem_of_isEncoded (b := byte '&') (h p hp).1 (by decide) (by decide)
    have hvalue := not_mem_of_isEncoded (b := byte '&') (h p hp).2 (by decide) (by decide)
    unfold pairText
    rw [List.mem_append, List.mem_cons, not_or, not_or]
    exact ⟨hname, by decide, hvalue⟩
  have hfilter : ((ps.map pairText).filter fun piece => piece ≠ []) = ps.map pairText := by
    rw [List.filter_eq_self]
    intro piece hpiece
    obtain ⟨p, -, rfl⟩ := List.mem_map.mp hpiece
    simp [pairText]
  unfold params
  rw [List.splitOn_intercalate _ hseparator (by simpa using hne), hfilter, List.map_map,
    List.map_map]
  conv_rhs => rw [← List.map_id ps]
  apply List.map_congr_left
  intro p hp
  have hequal : byte '=' ∉ p.1 := not_mem_of_isEncoded (h p hp).1 (by decide) (by decide)
  obtain ⟨hname, hvalue⟩ := takeWhile_pairText hequal
  simp only [Function.comp_apply, encodePair, readPair, hname, hvalue,
    readValue_of_isEncoded (h p hp).1, readValue_of_isEncoded (h p hp).2]
  rfl

/-- A query is what the server makes of it exactly when it is in canonical form. -/
theorem canonicalQuery_params_iff {plus : UInt8} {query : Bytes} :
    canonicalQuery (params plus query) = query ↔ CanonicalQuery query := by
  constructor
  · intro h
    cases hps : sortPairs ((params plus query).map encodePair) with
    | nil =>
        left
        rw [← h, canonicalQuery, hps]
        rfl
    | cons p ps =>
        have hperm := List.perm_insertionSort (fun p p' : Bytes × Bytes => order p ≤ order p')
          ((params plus query).map encodePair)
        refine .inr ⟨p :: ps, List.cons_ne_nil _ _, fun q hq => ?_, ?_, ?_⟩
        · rw [← hps] at hq
          have hmem : q ∈ (params plus query).map encodePair := hperm.subset hq
          obtain ⟨raw, -, rfl⟩ := List.mem_map.mp hmem
          exact ⟨isEncoded_encode (by decide) _, isEncoded_encode (by decide) _⟩
        · rw [← hps]
          exact pairwise_sortPairs _
        · rw [← hps]
          exact h.symm
  · rintro (rfl | ⟨ps, hne, hencoded, hsorted, rfl⟩)
    · rfl
    · unfold canonicalQuery
      rw [params_intercalate hne hencoded]
      unfold sortPairs
      rw [hsorted.insertionSort_eq]

/-! ## A value behind its name -/

/-- What a server takes a plus sign for is neither a percent sign nor a digit. -/
def Mark (b : UInt8) : Prop := b ≠ byte '%' ∧ (hexVal b).isSome = false

section Values

variable {plus : UInt8} {keep : UInt8 → Bool} {t : Bytes}

/-- A plus sign as the server reads it. -/
def readPlus (plus b : UInt8) : UInt8 := if b = byte '+' then plus else b

theorem readPlus_percent (hplus : Mark plus) {b : UInt8} :
    readPlus plus b = byte '%' ↔ b = byte '%' := by
  unfold readPlus
  split_ifs with hb
  · rw [hb]
    exact iff_of_false hplus.1 (by decide)
  · exact Iff.rfl

theorem hexVal_readPlus (hplus : Mark plus) (b : UInt8) :
    (hexVal (readPlus plus b)).isSome = (hexVal b).isSome := by
  unfold readPlus
  split_ifs with hb
  · rw [hb, hplus.2]
    decide
  · rfl

theorem opens_readPlus (hplus : Mark plus) (t : Bytes) :
    opens (t.map (readPlus plus)) = opens t := by
  match t with
  | [] => rfl
  | [_] => rfl
  | x :: y :: rest =>
      change (unescape (readPlus plus x) (readPlus plus y)).isSome = (unescape x y).isSome
      rw [unescape_isSome, unescape_isSome, hexVal_readPlus hplus, hexVal_readPlus hplus]

theorem length_readValue (hplus : Mark plus) (t : Bytes) :
    (readValue plus t).length = (decode t).length := by
  change (decode (t.map (readPlus plus))).length = _
  have hdigit : ∀ x, (hexVal x).isSome = true → readPlus plus x = x := by
    intro x hx
    have hne : x ≠ byte '+' := by
      rintro rfl
      exact absurd hx (by decide)
    exact if_neg hne
  induction t using decode.induct with
  | case1 a x y rest b hb ih =>
      have ha : a = byte '%' := by
        by_contra hne
        rw [if_neg hne] at hb
        cases hb
      rw [if_pos ha] at hb
      have hboth : (hexVal x).isSome = true ∧ (hexVal y).isSome = true := by
        rw [← Bool.and_eq_true, ← unescape_isSome, hb]
        rfl
      rw [List.map_cons, List.map_cons, List.map_cons, (readPlus_percent hplus).mpr ha,
        hdigit x hboth.1, hdigit y hboth.2, ha, decode, decode, if_pos rfl, hb]
      exact congrArg Nat.succ ih
  | case2 a x y rest hnone ih =>
      have hopens : a = byte '%' → opens (x :: y :: rest) = false := by
        intro ha
        rw [if_pos ha] at hnone
        exact congrArg Option.isSome hnone
      have hopens' : readPlus plus a = byte '%' →
          opens ((x :: y :: rest).map (readPlus plus)) = false := by
        intro ha
        rw [opens_readPlus hplus]
        exact hopens ((readPlus_percent hplus).mp ha)
      rw [List.map_cons, decode_cons hopens, decode_cons hopens']
      exact congrArg Nat.succ ih
  | case3 short hshort =>
      rcases short with _ | ⟨a, _ | ⟨x, _ | ⟨y, rest⟩⟩⟩
      · rfl
      · rfl
      · rfl
      · exact absurd rfl (hshort a x y rest)

/-- A text without escapes, as the server reads it when it has been encoded: a plus sign is
mistaken if it was kept. -/
theorem readValue_encode (hplus : Mark plus) (hkeep : Idempotent keep) (ht : decode t = t) :
    readValue plus (encode keep t)
      = t.map fun b => if b = byte '+' ∧ keep b = true then plus else b := by
  change decode ((encode keep t).map (readPlus plus)) = _
  induction t with
  | nil => rfl
  | cons b rest ih =>
      obtain ⟨hopens, hrest⟩ := decode_cons_eq_self ht
      have hkept : decode (readPlus plus b :: (encode keep rest).map (readPlus plus))
          = readPlus plus b :: decode ((encode keep rest).map (readPlus plus)) := by
        apply decode_cons
        intro hpercent
        rw [opens_readPlus hplus, hkeep.opens_encode]
        exact hopens ((readPlus_percent hplus).mp hpercent)
      rw [encode_cons, List.map_append, List.map_cons, ← ih hrest]
      split_ifs with hb hboth hboth
      · rw [List.map_singleton, List.singleton_append, hkept, readPlus, if_pos hboth.1]
      · have hother : b ≠ byte '+' := fun heq => hboth ⟨heq, hb⟩
        rw [List.map_singleton, List.singleton_append, hkept, readPlus, if_neg hother]
      · exact absurd hboth.2 hb
      · have hescape : (escape b).map (readPlus plus) = escape b := by
          conv_rhs => rw [← List.map_id (escape b)]
          apply List.map_congr_left
          intro a ha
          have hne : a ≠ byte '+' := by
            rcases mem_escape ha with rfl | ⟨n, hn, rfl⟩
            · decide
            · have hall : ∀ n < 16, hexUpper n ≠ byte '+' := by decide
              exact hall n hn
          rw [readPlus, if_neg hne]
          rfl
        rw [hescape, decode_escape]


/-! ## The parameters of a query, one by one -/

variable {name : Bytes} (hname : ∀ b ∈ name, unreserved b = true)

include hname

theorem readValue_name (plus : UInt8) : readValue plus name = name := by
  have hmap : name.map (readPlus plus) = name := by
    conv_rhs => rw [← List.map_id name]
    apply List.map_congr_left
    intro b hb
    have hne : b ≠ byte '+' := by
      rintro rfl
      exact absurd (hname _ hb) (by decide)
    exact if_neg hne
  change decode (name.map (readPlus plus)) = name
  rw [hmap]
  have hencode : encode unreserved name = name := encode_eq_self hname
  conv_lhs => rw [← hencode]
  exact decode_encode (by decide) name

theorem ampersand_not_mem : byte '&' ∉ name := by
  intro hmem
  exact absurd (hname _ hmem) (by decide)

theorem readPair_named (plus : UInt8) (value : Bytes) :
    readPair plus (name ++ byte '=' :: value) = (name, readValue plus value) := by
  have hequal : byte '=' ∉ name := by
    intro hmem
    exact absurd (hname _ hmem) (by decide)
  obtain ⟨hfirst, hsecond⟩ := @takeWhile_pairText (name, value) hequal
  change readPair plus (pairText (name, value)) = _
  rw [readPair, hfirst, hsecond, readValue_name hname]

theorem params_last (plus : UInt8) {value : Bytes} (h : byte '&' ∉ value) :
    params plus (name ++ byte '=' :: value) = [(name, readValue plus value)] := by
  have hseparator : byte '&' ∉ name ++ byte '=' :: value := by
    rw [List.mem_append, List.mem_cons, not_or, not_or]
    exact ⟨ampersand_not_mem hname, by decide, h⟩
  unfold params
  rw [List.splitOn_eq_singleton hseparator, List.filter_cons_of_pos (by simp),
    List.filter_nil, List.map_singleton, readPair_named hname]

theorem params_cons (plus : UInt8) {value : Bytes} (h : byte '&' ∉ value) (rest : Bytes) :
    params plus (name ++ byte '=' :: (value ++ byte '&' :: rest))
      = (name, readValue plus value) :: params plus rest := by
  have hseparator : byte '&' ∉ name ++ byte '=' :: value := by
    rw [List.mem_append, List.mem_cons, not_or, not_or]
    exact ⟨ampersand_not_mem hname, by decide, h⟩
  have hassoc : name ++ byte '=' :: (value ++ byte '&' :: rest)
      = (name ++ byte '=' :: value) ++ byte '&' :: rest := by
    rw [List.append_assoc, List.cons_append]
  unfold params
  rw [hassoc, List.splitOn_append_cons_self_of_not_mem hseparator,
    List.filter_cons_of_pos (by simp), List.map_cons, readPair_named hname]

/-- A name without a value. -/
theorem params_bare (plus : UInt8) (hne : name ≠ []) : params plus name = [(name, [])] := by
  have hequal : ∀ b ∈ name, decide (b ≠ byte '=') = true := by
    intro b hb
    rw [decide_eq_true_eq]
    rintro rfl
    exact absurd (hname _ hb) (by decide)
  unfold params
  rw [List.splitOn_eq_singleton (ampersand_not_mem hname),
    List.filter_cons_of_pos (by simpa using hne), List.filter_nil, List.map_singleton, readPair,
    List.takeWhile_eq_self_iff.mpr hequal, List.dropWhile_eq_nil_iff.mpr hequal,
    readValue_name hname]
  rfl

/-- What has been left of a value and encoded is read as the value exactly when nothing is lost. -/
theorem params_value_iff {id : Bytes} (hplus : Mark plus) (hkeep : Idempotent keep)
    (hampersand : keep (byte '&') = true) (hleft : t.Sublist id) :
    params plus (name ++ byte '=' :: encode keep t) = [(name, id)] ↔
      t = id ∧ byte '&' ∉ id ∧ decode id = id ∧
        (byte '+' ∈ id → keep (byte '+') = true → plus = byte '+') := by
  have hread : ∀ w, (readValue plus (encode keep w)).length = (decode w).length := by
    intro w
    rw [length_readValue hplus, hkeep.decode_encode]
  have hseparator : ∀ w, byte '&' ∉ w → byte '&' ∉ encode keep w := by
    intro w hw hmem
    rcases mem_encode hmem with ⟨-, hin⟩ | hpercent | ⟨n, hn, hdigit⟩
    · exact hw hin
    · exact absurd hpercent (by decide)
    · have hall : ∀ n < 16, byte '&' ≠ hexUpper n := by decide
      exact hall n hn hdigit
  by_cases hmem : byte '&' ∈ t
  · -- the value is cut at its first ampersand
    apply iff_of_false
    · obtain ⟨w, rest, rfl, hw⟩ := List.eq_append_cons_of_mem hmem
      rw [encode_append, encode_cons, if_pos hampersand, List.singleton_append,
        params_cons hname plus (hseparator w hw)]
      intro heq
      have hvalue := congrArg List.length (Prod.mk.inj (List.cons.inj heq).1).2
      have hshort := length_decode_le w
      have hlong := hleft.length_le
      rw [hread, List.length_append, List.length_cons] at *
      omega
    · rintro ⟨rfl, hnone, -⟩
      exact hnone hmem
  · rw [params_last hname plus (hseparator t hmem)]
    have hsame : [(name, readValue plus (encode keep t))] = [(name, id)] ↔
        readValue plus (encode keep t) = id := by simp
    rw [hsame]
    constructor
    · intro hvalue
      have hlength := congrArg List.length hvalue
      have hshort := length_decode_le t
      have hlong := hleft.length_le
      rw [hread] at hlength
      obtain rfl : t = id := hleft.eq_of_length (by omega)
      have hdecode : decode t = t := decode_eq_self_of_length (by omega)
      refine ⟨rfl, hmem, hdecode, fun hin hkept => ?_⟩
      rw [readValue_encode hplus hkeep hdecode] at hvalue
      conv_rhs at hvalue => rw [← List.map_id t]
      have hone := List.map_inj_left.mp hvalue _ hin
      rwa [if_pos ⟨rfl, hkept⟩] at hone
    · rintro ⟨rfl, -, hdecode, hsign⟩
      rw [readValue_encode hplus hkeep hdecode]
      conv_rhs => rw [← List.map_id t]
      apply List.map_congr_left
      intro b hb
      split_ifs with hboth
      · obtain ⟨rfl, hkept⟩ := hboth
        exact hsign hb hkept
      · rfl

end Values

/-! ## Canonical requests as texts -/

theorem newline_not_mem_encode {keep : UInt8 → Bool} (hkeep : keep newline = false) (bs : Bytes) :
    newline ∉ encode keep bs := by
  intro h
  have hall : ∀ n < 16, newline ≠ hexUpper n := by decide
  rcases mem_encode h with ⟨hkept, -⟩ | hpercent | ⟨n, hn, hdigit⟩
  · rw [hkeep] at hkept
    cases hkept
  · exact absurd hpercent (by decide)
  · exact hall n hn hdigit

theorem newline_not_mem_canonicalUri (path : Bytes) : newline ∉ canonicalUri path :=
  newline_not_mem_encode (by decide) _

theorem mem_intercalate {separator b : UInt8} {pieces : List Bytes} (hb : b ≠ separator)
    (h : b ∈ [separator].intercalate pieces) : ∃ piece ∈ pieces, b ∈ piece := by
  induction pieces with
  | nil => cases h
  | cons piece rest ih =>
      cases rest with
      | nil =>
          rw [List.intercalate_singleton] at h
          exact ⟨piece, List.mem_cons_self .., h⟩
      | cons next others =>
          rw [List.intercalate_cons_cons, List.mem_append, List.mem_append,
            List.mem_singleton] at h
          rcases h with (h | h) | h
          · exact ⟨piece, List.mem_cons_self .., h⟩
          · exact absurd h hb
          · obtain ⟨found, hfound, hmem⟩ := ih h
            exact ⟨found, List.mem_cons_of_mem _ hfound, hmem⟩

theorem newline_not_mem_canonicalQuery (ps : List (Bytes × Bytes)) :
    newline ∉ canonicalQuery ps := by
  intro h
  obtain ⟨piece, hpiece, hmem⟩ := mem_intercalate (by decide) h
  obtain ⟨p, hp, rfl⟩ := List.mem_map.mp hpiece
  have hencoded : p ∈ ps.map encodePair := (List.perm_insertionSort _ _).subset hp
  obtain ⟨raw, -, rfl⟩ := List.mem_map.mp hencoded
  rcases List.mem_append.mp hmem with hname | hrest
  · exact newline_not_mem_encode (by decide) _ hname
  · rcases List.mem_cons.mp hrest with hequal | hvalue
    · exact absurd hequal (by decide)
    · exact newline_not_mem_encode (by decide) _ hvalue

/-- Two canonical requests that differ at most in path and query. -/
theorem assemble_inj {method uri uri' query query' headers signed payloadHash : Bytes}
    (huri : newline ∉ uri) (huri' : newline ∉ uri') (hquery : newline ∉ query)
    (hquery' : newline ∉ query')
    (h : assemble method uri query headers signed payloadHash
      = assemble method uri' query' headers signed payloadHash) : uri = uri' ∧ query = query' := by
  unfold assemble at h
  simp only [List.append_assoc, List.cons_append] at h
  have hrest := (List.cons.inj (List.append_cancel_left h)).2
  obtain ⟨hsame, hrest⟩ := append_separator_inj huri huri' hrest
  exact ⟨hsame, (append_separator_inj hquery hquery' hrest).1⟩

end SigV4
