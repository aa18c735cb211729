import FullStackHex.Library.Codec

/-!
Cookies as a browser keeps them: what it stores of a `Set-Cookie` header, and what it sends.
One origin and one path; of the attributes only `Max-Age` counts. The texts are lists of
characters, and a cookie that no `Cookie` header can carry is not stored.
-/

namespace Cookies

/-- A cookie as it is sent. -/
def pairText (name value : List Char) : List Char := name ++ '=' :: value

/-- Printable ASCII but for the semicolon, which ends a cookie. -/
def cookieChar (c : Char) : Bool := ' ' ≤ c && c ≤ '~' && c != ';'

/-- A pair that is read from a header as it was stored. -/
structure Legal (name value : List Char) : Prop where
  plain : '=' ∉ name
  printable : ∀ c ∈ pairText name value, cookieChar c = true
  trimmed : Codec.trimBy Char.isWhitespace (pairText name value) = pairText name value

theorem legal_iff {name value : List Char} : Legal name value ↔ '=' ∉ name ∧
    (pairText name value).all cookieChar = true ∧
      Codec.trimBy Char.isWhitespace (pairText name value) = pairText name value :=
  ⟨fun h => ⟨h.1, List.all_eq_true.mpr h.2, h.3⟩,
    fun h => ⟨h.1, List.all_eq_true.mp h.2.1, h.2.2⟩⟩

instance (name value : List Char) : Decidable (Legal name value) :=
  decidable_of_iff _ legal_iff.symm

structure Cookie where
  name : List Char
  value : List Char
  /-- In milliseconds; `none` for a cookie that lives as long as the browser. -/
  expires : Option Nat
  legal : Legal name value

def Cookie.pair (c : Cookie) : List Char := pairText c.name c.value

def Cookie.live (c : Cookie) (now : Nat) : Bool := c.expires.all fun deadline => now < deadline

/-- The seconds of a `Max-Age` field; a negative number ends the cookie at once. -/
def maxAge (field : List Char) : Option Nat :=
  let text := Codec.trimBy Char.isWhitespace field
  if (text.takeWhile fun c => c ≠ '=').map Char.toLower = "max-age".toList then
    match (text.dropWhile fun c => c ≠ '=').drop 1 with
    | '-' :: digits => (Codec.parseDigits digits).map fun _ => 0
    | digits => Codec.parseDigits digits
  else none

/-- The cookie of a `Set-Cookie` header that comes at `now`; the last `Max-Age` counts. -/
def readSetCookie (now : Nat) (text : List Char) : Option Cookie :=
  let pair := text.takeWhile fun c => c ≠ ';'
  let fields := (text.dropWhile fun c => c ≠ ';').splitOn ';'
  let name := Codec.trimBy Char.isWhitespace (pair.takeWhile fun c => c ≠ '=')
  match pair.dropWhile fun c => c ≠ '=' with
  | [] => none
  | _ :: rest =>
      let value := Codec.trimBy Char.isWhitespace rest
      if h : Legal name value ∧ name ≠ [] then
        some ⟨name, value,
          (fields.reverse.findSome? maxAge).map fun secs => now + 1000 * secs, h.1⟩
      else none

abbrev Jar := List Cookie

/-- A cookie replaces the one of its name. -/
def Jar.store (jar : Jar) (c : Cookie) : Jar := jar.filter (fun c' => c'.name ≠ c.name) ++ [c]

/-- The jar after a response that comes at `now`. -/
def Jar.receive (jar : Jar) (now : Nat) (setCookies : List String) : Jar :=
  setCookies.foldl (fun jar text => (readSetCookie now text.toList).elim jar jar.store) jar

/-- The value that is sent under a name. -/
def Jar.value? (jar : Jar) (now : Nat) (name : List Char) : Option (List Char) :=
  (jar.find? fun c => c.live now && c.name = name).map Cookie.value

/-- The `Cookie` header: the pairs, separated by a semicolon and a blank. -/
def Jar.header (jar : Jar) (now : Nat) : Option String :=
  match jar.filter fun c => c.live now with
  | [] => none
  | c :: rest => some (String.ofList
      ([';'].intercalate (c.pair :: rest.map fun c => ' ' :: c.pair)))

section Jar

variable {jar : Jar} {now : Nat} {name : List Char} {c : Cookie}

/-- The name of the cookie that a header sets. -/
theorem readSetCookie_name {rest : List Char} (hplain : '=' ∉ name) (hends : ';' ∉ name)
    (h : readSetCookie now (name ++ '=' :: rest) = some c) :
    c.name = Codec.trimBy Char.isWhitespace name := by
  have hall : ∀ {separator : Char}, separator ∉ name → ∀ a ∈ name,
      decide (a ≠ separator) = true := by
    intro separator hnot a ha
    refine decide_eq_true ?_
    rintro rfl
    exact hnot ha
  have hpair : ((name ++ '=' :: rest).takeWhile fun c => c ≠ ';').takeWhile (fun c => c ≠ '=')
      = name := by
    rw [List.takeWhile_append_of_pos (hall hends), List.takeWhile_cons_of_pos (by decide),
      Codec.takeWhile_stop _ _ (by decide), List.takeWhile_eq_self_iff]
    exact hall hplain
  unfold readSetCookie at h
  dsimp only at h
  split at h
  · cases h
  · split_ifs at h
    rw [← Option.some.inj h]
    exact congrArg (Codec.trimBy Char.isWhitespace) hpair

theorem Jar.value?_store (hne : c.name ≠ name) :
    (jar.store c).value? now name = jar.value? now name := by
  have hnew : ([c] : Jar).find? (fun c' => c'.live now && decide (c'.name = name)) = none := by
    rw [List.find?_eq_none]
    intro c' hc'
    rw [List.mem_singleton.mp hc']
    simp [hne]
  have hkept : (jar.filter fun c' => decide (c'.name ≠ c.name)).find?
      (fun c' => c'.live now && decide (c'.name = name))
      = jar.find? fun c' => c'.live now && decide (c'.name = name) := by
    rw [List.find?_filter]
    congr 1
    funext c'
    by_cases hname : c'.name = name
    · simp [hname, Ne.symm hne]
    · simp [hname]
  unfold Jar.value? Jar.store
  rw [List.find?_append, hnew, hkept, Option.or_none]

/-- A response leaves a cookie alone whose name it does not set. -/
theorem Jar.value?_receive {received : Nat} {setCookies : List String}
    (h : ∀ text ∈ setCookies, ∀ c, readSetCookie received text.toList = some c → c.name ≠ name) :
    (jar.receive received setCookies).value? now name = jar.value? now name := by
  unfold Jar.receive
  induction setCookies generalizing jar with
  | nil => rfl
  | cons text rest ih =>
      rw [List.foldl_cons, ih fun text' ht => h text' (List.mem_cons_of_mem _ ht)]
      cases hread : readSetCookie received text.toList with
      | none => rfl
      | some c => exact value?_store (h text List.mem_cons_self c hread)

/-! ## The header is read back -/

theorem Cookie.not_mem_pair (c : Cookie) : ';' ∉ c.pair := fun hmem =>
  absurd (c.legal.printable _ hmem) (by decide)

/-- The pieces of a header are the pairs of the jar. -/
theorem Jar.splitOn_header {text : String} (h : jar.header now = some text) :
    ∃ c rest, (jar.filter fun c => c.live now) = c :: rest ∧
      text.toList.splitOn ';' = c.pair :: rest.map fun c => ' ' :: c.pair := by
  unfold Jar.header at h
  split at h
  · cases h
  · rename_i c rest hlive
    refine ⟨c, rest, hlive, ?_⟩
    rw [← Option.some.inj h, String.toList_ofList]
    apply List.splitOn_intercalate _ _ (List.cons_ne_nil _ _)
    intro piece hpiece
    rcases List.mem_cons.mp hpiece with rfl | hpiece
    · exact c.not_mem_pair
    · obtain ⟨c', -, rfl⟩ := List.mem_map.mp hpiece
      rw [List.mem_cons, not_or]
      exact ⟨by decide, c'.not_mem_pair⟩

/-- What a server that looks for a name finds in one piece. -/
def readPiece (name piece : List Char) : Option (List Char) :=
  (Codec.trimBy Char.isWhitespace piece).dropPrefix? (name ++ ['='])

theorem readPiece_pair (hplain : '=' ∉ name) (c : Cookie) :
    readPiece name c.pair = if c.name = name then some c.value else none := by
  unfold readPiece
  rw [Cookie.pair, c.legal.trimmed]
  split_ifs with hname
  · rw [List.dropPrefix?_eq_some_iff]
    refine ⟨name ++ ['='], ?_, beq_self_eq_true _⟩
    rw [pairText, hname, List.append_assoc]
    rfl
  · by_contra hfound
    obtain ⟨value, hvalue⟩ := Option.ne_none_iff_exists'.mp hfound
    obtain ⟨front, hfront, hsame⟩ := List.dropPrefix?_eq_some_iff.mp hvalue
    rw [eq_of_beq hsame, pairText, List.append_assoc] at hfront
    exact hname (Codec.append_separator_inj c.legal.plain hplain hfront).1

theorem readPiece_blank (name piece : List Char) :
    readPiece name (' ' :: piece) = readPiece name piece := by
  unfold readPiece Codec.trimBy
  rw [List.dropWhile_cons_of_pos (by decide)]

theorem findSome?_readPiece (hplain : '=' ∉ name) (cookies : List Cookie) :
    cookies.findSome? (fun c => readPiece name c.pair)
      = (cookies.find? fun c => c.name = name).map Cookie.value := by
  induction cookies with
  | nil => rfl
  | cons c rest ih =>
      rw [List.findSome?_cons, readPiece_pair hplain, List.find?_cons]
      by_cases hname : c.name = name
      · simp [hname]
      · simp [hname, ih]

/-- The server finds what the jar sends under the name. -/
theorem Jar.findSome?_header (hplain : '=' ∉ name) {text : String}
    (h : jar.header now = some text) :
    (text.toList.splitOn ';').findSome? (readPiece name) = jar.value? now name := by
  obtain ⟨c, rest, hlive, hpieces⟩ := splitOn_header h
  have hspaced : (rest.map fun c => ' ' :: c.pair).findSome? (readPiece name)
      = rest.findSome? fun c => readPiece name c.pair := by
    rw [List.findSome?_map]
    exact congrArg (fun f => rest.findSome? f) (funext fun c' => readPiece_blank name c'.pair)
  have hvalue : jar.value? now name
      = ((jar.filter fun c => c.live now).find? fun c => c.name = name).map Cookie.value := by
    rw [List.find?_filter]
    simp [Jar.value?]
  calc (text.toList.splitOn ';').findSome? (readPiece name)
      = (c :: rest).findSome? fun c => readPiece name c.pair := by
        rw [hpieces, List.findSome?_cons, List.findSome?_cons, hspaced]
    _ = ((c :: rest).find? fun c => c.name = name).map Cookie.value :=
        findSome?_readPiece hplain _
    _ = jar.value? now name := by rw [hvalue, hlive]

theorem mem_of_mem_intercalate {separator a : Char} {pieces : List (List Char)}
    (h : a ∈ [separator].intercalate pieces) : a = separator ∨ ∃ piece ∈ pieces, a ∈ piece := by
  induction pieces with
  | nil => cases h
  | cons piece rest ih =>
      cases rest with
      | nil => exact .inr ⟨piece, List.mem_cons_self, by simpa using h⟩
      | cons next rest =>
          rw [List.intercalate_cons_cons, List.append_assoc, List.mem_append] at h
          rcases h with h | h
          · exact .inr ⟨piece, List.mem_cons_self, h⟩
          · rcases List.mem_cons.mp h with h | h
            · exact .inl h
            · exact (ih h).imp_right fun ⟨found, hmem, ha⟩ => ⟨found, List.mem_cons_of_mem _ hmem, ha⟩

/-- A header is printable. -/
theorem Jar.header_printable {text : String} (h : jar.header now = some text) :
    ∀ c ∈ text.toList, (' ' ≤ c && c ≤ '~') = true := by
  unfold Jar.header at h
  split at h
  · cases h
  · rename_i c rest hlive
    rw [← Option.some.inj h, String.toList_ofList]
    intro a ha
    have hpair : ∀ c : Cookie, a ∈ c.pair → (' ' ≤ a && a ≤ '~') = true := by
      intro c hmem
      have := c.legal.printable a hmem
      unfold cookieChar at this
      exact (Bool.and_eq_true_iff.mp this).1
    rcases mem_of_mem_intercalate ha with rfl | ⟨piece, hpiece, hmem⟩
    · rfl
    · rcases List.mem_cons.mp hpiece with rfl | hpiece
      · exact hpair c hmem
      · obtain ⟨c', -, rfl⟩ := List.mem_map.mp hpiece
        rcases List.mem_cons.mp hmem with rfl | hmem
        · rfl
        · exact hpair c' hmem

theorem Jar.value?_of_header_none (h : jar.header now = none) : jar.value? now name = none := by
  unfold Jar.header at h
  split at h
  · rename_i hlive
    rw [Jar.value?, Option.map_eq_none_iff, List.find?_eq_none]
    intro c hc
    have := List.filter_eq_nil_iff.mp hlive c hc
    simp [this]
  · cases h

end Jar

/-! ## A header is stored -/

section Store

variable {jar : Jar} {now : Nat} {name value attributes : List Char} {c c' : Cookie}

theorem Legal.no_semicolon (h : Legal name value) : ';' ∉ pairText name value := fun hmem =>
  absurd (h.printable _ hmem) (by decide)

theorem maxAge_nil : maxAge [] = none := rfl

theorem maxAge_toDigits (n : Nat) :
    maxAge (" Max-Age=".toList ++ Nat.toDigits 10 n) = some n := by
  have hdigit : ∀ c ∈ Nat.toDigits 10 n, c.isDigit = true := fun c hc =>
    Nat.isDigit_of_mem_toDigits (by omega) (by omega) hc
  have hspace : ∀ c : Char, c.isDigit = true → c.isWhitespace = false := by
    intro c hc
    simp only [Char.isDigit, Bool.and_eq_true, decide_eq_true_eq] at hc
    have hlow : 48 ≤ c.toNat := hc.1
    rw [← Bool.not_eq_true]
    intro hblank
    simp only [Char.isWhitespace, Bool.or_eq_true, decide_eq_true_eq] at hblank
    rcases hblank with ((rfl | rfl) | rfl) | rfl <;> exact absurd hlow (by decide)
  have htrim : Codec.trimBy Char.isWhitespace (" Max-Age=".toList ++ Nat.toDigits 10 n)
      = "Max-Age=".toList ++ Nat.toDigits 10 n := by
    have hname : ∀ c ∈ "Max-Age=".toList, (!c.isWhitespace) = true :=
      List.all_eq_true.mp (by decide)
    have hplain : Codec.trimBy Char.isWhitespace ("Max-Age=".toList ++ Nat.toDigits 10 n)
        = "Max-Age=".toList ++ Nat.toDigits 10 n := by
      apply Codec.trimBy_eq_self
      intro c hc
      rcases List.mem_append.mp hc with hc | hc
      · simpa using hname c hc
      · exact hspace c (hdigit c hc)
    have hblank : " Max-Age=".toList = ' ' :: "Max-Age=".toList := by decide
    unfold Codec.trimBy at hplain ⊢
    rwa [hblank, List.cons_append, List.dropWhile_cons_of_pos (by decide)]
  have hdigits : (match Nat.toDigits 10 n with
      | '-' :: digits => (Codec.parseDigits digits).map fun _ => 0
      | digits => Codec.parseDigits digits) = some n := by
    split
    · rename_i digits heq
      exact absurd (hdigit '-' (by rw [heq]; exact List.mem_cons_self)) (by decide)
    · exact Codec.parseDigits_toDigits n
  unfold maxAge
  rw [htrim]
  exact hdigits

/-- What a header with a legal pair and some attributes sets. -/
theorem readSetCookie_pair (hlegal : Legal name value) (hne : name ≠ [])
    (hname : Codec.trimBy Char.isWhitespace name = name)
    (hvalue : Codec.trimBy Char.isWhitespace value = value) :
    readSetCookie now (pairText name value ++ ';' :: attributes)
      = some ⟨name, value, ((attributes.splitOn ';').reverse.findSome? maxAge).map
          fun secs => now + 1000 * secs, hlegal⟩ := by
  have hpair : ∀ a ∈ pairText name value, decide (a ≠ ';') = true := fun a ha =>
    decide_eq_true fun heq => hlegal.no_semicolon (heq ▸ ha)
  have hplain : ∀ a ∈ name, decide (a ≠ '=') = true := fun a ha =>
    decide_eq_true fun heq => hlegal.plain (heq ▸ ha)
  have htake : (pairText name value ++ ';' :: attributes).takeWhile (fun c => c ≠ ';')
      = pairText name value := by
    rw [List.takeWhile_append_of_pos hpair, List.takeWhile_cons_of_neg (by decide),
      List.append_nil]
  have hdrop : (pairText name value ++ ';' :: attributes).dropWhile (fun c => c ≠ ';')
      = ';' :: attributes := by
    rw [List.dropWhile_append_of_pos hpair, List.dropWhile_cons_of_neg (by decide)]
  have htakeName : (pairText name value).takeWhile (fun c => c ≠ '=') = name := by
    unfold pairText
    rw [List.takeWhile_append_of_pos hplain, List.takeWhile_cons_of_neg (by decide),
      List.append_nil]
  have hdropName : (pairText name value).dropWhile (fun c => c ≠ '=') = '=' :: value := by
    unfold pairText
    rw [List.dropWhile_append_of_pos hplain, List.dropWhile_cons_of_neg (by decide)]
  have hfields : ((';' :: attributes).splitOn ';').reverse.findSome? maxAge
      = (attributes.splitOn ';').reverse.findSome? maxAge := by
    have hsplit := List.splitOn_append_cons_self [] attributes (a := ';')
    rw [List.nil_append, List.splitOn_nil, List.singleton_append] at hsplit
    rw [hsplit, List.reverse_cons, List.findSome?_append]
    simp [maxAge_nil]
  simp only [readSetCookie, htake, hdrop, htakeName, hdropName, hname, hvalue, hfields]
  exact dif_pos ⟨hlegal, hne⟩

theorem Jar.mem_store : c' ∈ jar.store c ↔ c' ∈ jar ∧ c'.name ≠ c.name ∨ c' = c := by
  simp [store]

theorem Jar.mem_of_value? (h : jar.value? now name = some value) :
    ∃ c ∈ jar, c.live now = true ∧ c.name = name ∧ c.value = value := by
  obtain ⟨c, hfind, rfl⟩ := Option.map_eq_some_iff.mp h
  have hfound := List.find?_some hfind
  rw [Bool.and_eq_true, decide_eq_true_eq] at hfound
  exact ⟨c, List.mem_of_find?_eq_some hfind, hfound.1, hfound.2, rfl⟩

theorem Jar.value?_eq_none_iff :
    jar.value? now name = none ↔ ∀ c ∈ jar, c.name = name → c.live now = false := by
  rw [value?, Option.map_eq_none_iff, List.find?_eq_none]
  simp only [Bool.and_eq_true, decide_eq_true_eq, not_and]
  constructor
  · intro h c hc hname
    rw [← Bool.not_eq_true]
    exact fun hlive => h c hc hlive hname
  · intro h c hc hlive hname
    rw [h c hc hname] at hlive
    cases hlive

theorem Cookie.live_of_le {later : Nat} (hle : now ≤ later) (h : c.live later = true) :
    c.live now = true := by
  unfold live at h ⊢
  cases hexpires : c.expires with
  | none => rfl
  | some deadline =>
      rw [hexpires] at h
      have hlive : later < deadline := of_decide_eq_true h
      exact decide_eq_true (hle.trans_lt hlive)

/-- A cookie that is not sent is not sent later either. -/
theorem Jar.value?_none_of_le {later : Nat} (hle : now ≤ later)
    (h : jar.value? now name = none) : jar.value? later name = none := by
  rw [value?_eq_none_iff] at h ⊢
  intro c hc hname
  rw [← Bool.not_eq_true]
  intro hlive
  exact absurd (Cookie.live_of_le hle hlive) (by rw [h c hc hname]; decide)

end Store

end Cookies
