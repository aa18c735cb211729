import FullStackHex.Library.JsonText

/-!
Documents of JSON: how they are written without blanks, and how they are read. What is written
of texts, and of objects with texts in them, is read back.
-/

namespace JsonText

/-- A number is kept as it is written. -/
inductive Json where
  | null
  | bool (b : Bool)
  | number (digits : List Char)
  | string (text : List Char)
  | array (items : List Json)
  | object (members : List (List Char × Json))

/-! ## Reading -/

def isBlank (c : Char) : Bool := c == ' ' || c == '\n' || c == '\t' || c == '\r'

def skipBlanks (cs : List Char) : List Char := cs.dropWhile isBlank

def hexDigit? (c : Char) : Option Nat :=
  if '0' ≤ c ∧ c ≤ '9' then some (c.toNat - '0'.toNat)
  else if 'a' ≤ c ∧ c ≤ 'f' then some (c.toNat - 'a'.toNat + 10)
  else if 'A' ≤ c ∧ c ≤ 'F' then some (c.toNat - 'A'.toNat + 10)
  else none

/-- Four hexadecimal digits. -/
def codeUnit (a b c d : Char) : Option Nat := do
  return 4096 * (← hexDigit? a) + 256 * (← hexDigit? b) + 16 * (← hexDigit? c) + (← hexDigit? d)

def isSurrogate (n : Nat) : Bool := 0xd800 ≤ n && n ≤ 0xdfff

/-- What a backslash and one other character stand for. -/
def unescape : Char → Option Char
  | '"' => some '"'
  | '\\' => some '\\'
  | '/' => some '/'
  | 'b' => some (Char.ofNat 8)
  | 'f' => some (Char.ofNat 12)
  | 'n' => some '\n'
  | 'r' => some '\r'
  | 't' => some '\t'
  | _ => none

/-- The rest of a text after its opening quote, and what follows the closing one. A surrogate
has to be followed by its other half. -/
def readText : List Char → Option (List Char × List Char)
  | [] => none
  | '"' :: rest => some ([], rest)
  | '\\' :: 'u' :: a :: b :: c :: d :: rest => do
      let unit ← codeUnit a b c d
      if isSurrogate unit then
        match rest with
        | '\\' :: 'u' :: a' :: b' :: c' :: d' :: rest' =>
            let low ← codeUnit a' b' c' d'
            if unit < 0xdc00 ∧ 0xdc00 ≤ low ∧ low ≤ 0xdfff then
              let (text, after) ← readText rest'
              some (Char.ofNat (0x10000 + 1024 * (unit - 0xd800) + (low - 0xdc00)) :: text, after)
            else none
        | _ => none
      else
        let (text, after) ← readText rest
        some (Char.ofNat unit :: text, after)
  | '\\' :: e :: rest => do
      let c ← unescape e
      let (text, after) ← readText rest
      some (c :: text, after)
  | c :: rest =>
      if c = '\\' ∨ c.toNat < 32 then none
      else (readText rest).map fun (text, after) => (c :: text, after)

/-- Digits, at least one. -/
def readDigits (cs : List Char) : Option (List Char × List Char) :=
  let (digits, rest) := cs.span Char.isDigit
  if digits = [] then none else some (digits, rest)

/-- No leading zero. -/
def readInteger (cs : List Char) : Option (List Char × List Char) := do
  let (digits, rest) ← readDigits cs
  if 1 < digits.length ∧ digits.head? = some '0' then none else some (digits, rest)

def readFraction : List Char → Option (List Char × List Char)
  | '.' :: rest => (readDigits rest).map fun (digits, rest) => ('.' :: digits, rest)
  | cs => some ([], cs)

def readExponent : List Char → Option (List Char × List Char)
  | c :: rest =>
      if c = 'e' ∨ c = 'E' then
        match rest with
        | '+' :: rest => (readDigits rest).map fun (digits, rest) => (c :: '+' :: digits, rest)
        | '-' :: rest => (readDigits rest).map fun (digits, rest) => (c :: '-' :: digits, rest)
        | rest => (readDigits rest).map fun (digits, rest) => (c :: digits, rest)
      else some ([], c :: rest)
  | [] => some ([], [])

def readNumber (cs : List Char) : Option (Json × List Char) := do
  let (sign, cs) := match cs with
    | '-' :: rest => (['-'], rest)
    | cs => ([], cs)
  let (integer, cs) ← readInteger cs
  let (fraction, cs) ← readFraction cs
  let (exponent, cs) ← readExponent cs
  some (.number (sign ++ integer ++ fraction ++ exponent), cs)

/-- A value that is neither an array nor an object. -/
def readScalar : List Char → Option (Json × List Char)
  | 'n' :: 'u' :: 'l' :: 'l' :: rest => some (.null, rest)
  | 't' :: 'r' :: 'u' :: 'e' :: rest => some (.bool true, rest)
  | 'f' :: 'a' :: 'l' :: 's' :: 'e' :: rest => some (.bool false, rest)
  | '"' :: rest => (readText rest).map fun (text, after) => (.string text, after)
  | cs => readNumber cs

/-- Items up to the closing bracket, at most so many. -/
def readItems (item : List Char → Option (Json × List Char)) :
    Nat → List Char → Option (List Json × List Char)
  | 0, _ => none
  | n + 1, cs => do
      let (v, rest) ← item cs
      match skipBlanks rest with
      | ']' :: rest => some ([v], rest)
      | ',' :: rest =>
          let (vs, rest) ← readItems item n rest
          some (v :: vs, rest)
      | _ => none

def readMember (item : List Char → Option (Json × List Char)) (cs : List Char) :
    Option ((List Char × Json) × List Char) :=
  match skipBlanks cs with
  | '"' :: rest => do
      let (key, rest) ← readText rest
      match skipBlanks rest with
      | ':' :: rest =>
          let (v, rest) ← item rest
          some ((key, v), rest)
      | _ => none
  | _ => none

def readMembers (item : List Char → Option (Json × List Char)) :
    Nat → List Char → Option (List (List Char × Json) × List Char)
  | 0, _ => none
  | n + 1, cs => do
      let (member, rest) ← readMember item cs
      match skipBlanks rest with
      | '\x7d' :: rest => some ([member], rest)
      | ',' :: rest =>
          let (members, rest) ← readMembers item n rest
          some (member :: members, rest)
      | _ => none

/-- A value whose arrays and objects are nested at most so deep. -/
def readValue : Nat → List Char → Option (Json × List Char)
  | 0, cs => readScalar (skipBlanks cs)
  | depth + 1, cs =>
      match skipBlanks cs with
      | '[' :: rest =>
          match skipBlanks rest with
          | ']' :: rest => some (.array [], rest)
          | rest => (readItems (readValue depth) rest.length rest).map fun (items, rest) =>
              (.array items, rest)
      | '\x7b' :: rest =>
          match skipBlanks rest with
          | '\x7d' :: rest => some (.object [], rest)
          | rest => (readMembers (readValue depth) rest.length rest).map fun (members, rest) =>
              (.object members, rest)
      | cs => readScalar cs

/-- `serde_json::from_str`. It gives up on the 128th bracket that is open. -/
def parse (text : String) : Option Json := do
  let (v, rest) ← readValue 127 text.toList
  if skipBlanks rest = [] then some v else none

/-- `&value[key]`: of two members with one key the last counts, and what is not there is null. -/
def Json.get (key : String) : Json → Json
  | .object members => (members.reverse.lookup key.toList).getD .null
  | _ => .null

def Json.asStr : Json → Option String
  | .string text => some (String.ofList text)
  | _ => none

/-! ## Writing -/

mutual

/-- `serde_json::to_string`. -/
def write : Json → List Char
  | .null => ['n', 'u', 'l', 'l']
  | .bool true => ['t', 'r', 'u', 'e']
  | .bool false => ['f', 'a', 'l', 's', 'e']
  | .number digits => digits
  | .string text => quote text
  | .array items => '[' :: writeItems items ++ [']']
  | .object members => '\x7b' :: writeMembers members ++ ['\x7d']

def writeItems : List Json → List Char
  | [] => []
  | [v] => write v
  | v :: v' :: vs => write v ++ ',' :: writeItems (v' :: vs)

def writeMembers : List (List Char × Json) → List Char
  | [] => []
  | [(key, v)] => quote key ++ ':' :: write v
  | (key, v) :: member :: members =>
      quote key ++ ':' :: (write v ++ ',' :: writeMembers (member :: members))

end

/-- Neither a number nor nested. -/
def Json.Simple : Json → Prop
  | .null | .bool _ | .string _ => True
  | _ => False

/-! ## What is written is read back -/

section RoundTrip

variable {cs rest : List Char} {v : Json}

theorem hexDigit?_digitChar : ∀ n < 16, hexDigit? (Nat.digitChar n) = some n := by decide

theorem codeUnit_digits {n : Nat} (h : n < 65536) :
    codeUnit (Nat.digitChar (n / 4096 % 16)) (Nat.digitChar (n / 256 % 16))
      (Nat.digitChar (n / 16 % 16)) (Nat.digitChar (n % 16)) = some n := by
  unfold codeUnit
  have hdigit : ∀ k, hexDigit? (Nat.digitChar (k % 16)) = some (k % 16) :=
    fun k => hexDigit?_digitChar _ (Nat.mod_lt _ (by omega))
  simp only [hdigit, Option.bind_eq_bind, Option.bind_some, Option.pure_def, Option.some.injEq]
  omega

theorem readText_short {e c : Char} (h : unescape e = some c) :
    readText ('\\' :: e :: cs) = (readText cs).map fun (text, after) => (c :: text, after) := by
  have hu : e ≠ 'u' := by
    rintro rfl
    cases h
  rw [readText]
  · rw [h]
    cases readText cs <;> rfl
  · rintro a b c d rest rfl
    exact absurd rfl hu

theorem readText_unicode {n : Nat} (h : n < 32) :
    readText (unicodeEscape n ++ cs)
      = (readText cs).map fun (text, after) => (Char.ofNat n :: text, after) := by
  have hplain : isSurrogate n = false := by
    simp only [isSurrogate, Bool.and_eq_false_iff, decide_eq_false_iff_not]
    omega
  unfold unicodeEscape
  simp only [List.cons_append, List.nil_append]
  rw [readText, codeUnit_digits (by omega)]
  simp only [Option.bind_eq_bind, Option.bind_some, hplain, Bool.false_eq_true, if_false]
  cases readText cs <;> rfl

/-- One escaped character is read as that character. -/
theorem readText_escape (c : Char) :
    readText (escape c ++ cs) = (readText cs).map fun (text, after) => (c :: text, after) := by
  have hchar : ∀ n, c.toNat = n → c = Char.ofNat n := fun n hn => by rw [← hn, Char.ofNat_toNat]
  unfold escape
  split
  · rename_i text hshort
    unfold shortEscape at hshort
    split at hshort
    all_goals
      first
      | cases hshort
        rename_i hn
        rw [hchar _ hn]
        exact readText_short rfl
      | cases hshort
  · rename_i hshort
    split
    · rename_i hlow
      rw [readText_unicode hlow, Char.ofNat_toNat]
    · rename_i hlow
      have hquote : c ≠ '"' := by
        rintro rfl
        cases hshort
      have hbackslash : c ≠ '\\' := by
        rintro rfl
        cases hshort
      rw [List.singleton_append, readText]
      · rw [if_neg (by simp [hbackslash, hlow])]
      · exact hquote
      · rintro _ _ _ _ _ rfl
        exact absurd rfl hbackslash
      · rintro _ _ rfl
        exact absurd rfl hbackslash

theorem readText_quoted (text : List Char) :
    readText (text.flatMap escape ++ '"' :: rest) = some (text, rest) := by
  induction text with
  | nil => rfl
  | cons c text ih =>
      rw [List.flatMap_cons, List.append_assoc, readText_escape, ih]
      rfl

theorem readText_quote (text : List Char) :
    readText ((quote text).tail ++ rest) = some (text, rest) := by
  unfold quote
  rw [List.cons_append, List.tail_cons, List.append_assoc]
  exact readText_quoted text

theorem readScalar_simple (hv : v.Simple) : readScalar (write v ++ rest) = some (v, rest) := by
  cases v with
  | null => rfl
  | bool b =>
      cases b with
      | true => rfl
      | false => rfl
  | string text =>
      have hread : readScalar (write (.string text) ++ rest)
          = (readText ((quote text).tail ++ rest)).map fun (text, after) =>
              (Json.string text, after) := rfl
      rw [hread, readText_quote]
      rfl
  | _ => cases hv

theorem readValue_simple (hv : v.Simple) (depth : Nat) :
    readValue depth (write v ++ rest) = some (v, rest) := by
  have hscalar : readScalar (write v ++ rest) = some (v, rest) := readScalar_simple hv
  cases v with
  | null => cases depth <;> exact hscalar
  | bool b => cases b <;> cases depth <;> exact hscalar
  | string text => cases depth <;> exact hscalar
  | _ => cases hv

/-- What comes after a value in an object is not taken for a part of it. -/
theorem readMember_write {depth : Nat} (key : List Char) (hv : v.Simple) :
    readMember (readValue depth) (quote key ++ ':' :: (write v ++ rest))
      = some ((key, v), rest) := by
  have hread : readMember (readValue depth) (quote key ++ ':' :: (write v ++ rest))
      = (readText ((quote key).tail ++ ':' :: (write v ++ rest))).bind fun (key, rest) =>
          match skipBlanks rest with
          | ':' :: rest => (readValue depth rest).bind fun (v, rest) => some ((key, v), rest)
          | _ => none := rfl
  rw [hread, readText_quote]
  have hcolon : skipBlanks (':' :: (write v ++ rest)) = ':' :: (write v ++ rest) := rfl
  simp only [Option.bind_some, hcolon, readValue_simple hv]

theorem readMembers_write {depth n : Nat} {members : List (List Char × Json)}
    (hne : members ≠ []) (hsimple : ∀ m ∈ members, m.2.Simple) (hn : members.length ≤ n) :
    readMembers (readValue depth) n (writeMembers members ++ '\x7d' :: rest)
      = some (members, rest) := by
  induction members generalizing n with
  | nil => exact absurd rfl hne
  | cons m members ih =>
      obtain ⟨key, v⟩ := m
      have hv : v.Simple := hsimple _ (List.mem_cons_self ..)
      obtain ⟨n, rfl⟩ : ∃ k, n = k + 1 := ⟨n - 1, by simp at hn; omega⟩
      cases members with
      | nil =>
          have hwrite : writeMembers [(key, v)] ++ '\x7d' :: rest
              = quote key ++ ':' :: (write v ++ '\x7d' :: rest) := by
            simp [writeMembers]
          rw [hwrite, readMembers, readMember_write key hv]
          rfl
      | cons m' members =>
          have hwrite : writeMembers ((key, v) :: m' :: members) ++ '\x7d' :: rest
              = quote key ++ ':' :: (write v ++ ',' :: (writeMembers (m' :: members)
                ++ '\x7d' :: rest)) := by
            simp [writeMembers]
          rw [hwrite, readMembers, readMember_write key hv]
          have hrest := ih (n := n) (List.cons_ne_nil _ _)
            (fun m hm => hsimple m (List.mem_cons_of_mem _ hm)) (by simpa using hn)
          have hcomma : skipBlanks (',' :: (writeMembers (m' :: members) ++ '\x7d' :: rest))
              = ',' :: (writeMembers (m' :: members) ++ '\x7d' :: rest) := rfl
          simp only [Option.bind_eq_bind, Option.bind_some, hcomma, hrest]

/-- A text that is written as a document is read as that text. -/
theorem parse_write_string (text : List Char) :
    parse (String.ofList (write (.string text))) = some (.string text) := by
  have hsimple : (Json.string text).Simple := trivial
  have h : readValue 127 (write (.string text) ++ []) = some (.string text, []) :=
    readValue_simple hsimple 127
  unfold parse
  rw [String.toList_ofList]
  rw [List.append_nil] at h
  rw [h]
  rfl

theorem length_le_writeMembers (members : List (List Char × Json)) :
    members.length ≤ (writeMembers members).length := by
  induction members with
  | nil => exact le_refl _
  | cons m members ih =>
      obtain ⟨key, v⟩ := m
      cases members with
      | nil =>
          simp only [writeMembers, List.length_append, List.length_cons, List.length_nil]
          omega
      | cons m' members =>
          simp only [writeMembers, List.length_append, List.length_cons] at ih ⊢
          omega

theorem quoted_writeMembers {members : List (List Char × Json)} (hne : members ≠ []) :
    ∃ tail, writeMembers members = '"' :: tail := by
  match members with
  | [] => exact absurd rfl hne
  | [(key, v)] => exact ⟨_, rfl⟩
  | (key, v) :: m :: members => exact ⟨_, rfl⟩

/-- And so is an object of such values. -/
theorem parse_write_object {members : List (List Char × Json)} (hne : members ≠ [])
    (hsimple : ∀ m ∈ members, m.2.Simple) :
    parse (String.ofList (write (.object members))) = some (.object members) := by
  have hread : readValue 127 (write (.object members))
      = (readMembers (readValue 126) (writeMembers members ++ ['\x7d']).length
          (writeMembers members ++ ['\x7d'])).map fun (members, rest) =>
            (Json.object members, rest) := by
    obtain ⟨tail, htail⟩ := quoted_writeMembers hne
    rw [write, htail]
    rfl
  unfold parse
  rw [String.toList_ofList, hread, readMembers_write hne hsimple]
  · rfl
  · have := length_le_writeMembers members
    rw [List.length_append]
    omega

end RoundTrip

end JsonText
