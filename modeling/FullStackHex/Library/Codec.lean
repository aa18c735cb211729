import Mathlib

/-!
Texts that stand for bytes and numbers: base64url without padding, and the
decimal notation of 64-bit integers. What is written is read back.
-/

namespace Codec

/-- The alphabet of base64url. -/
def alphabet : List Char :=
  "ABCDEFGHIJKLMNOPQRSTUVWXYZabcdefghijklmnopqrstuvwxyz0123456789-_".toList

def symbol (n : Nat) : Char := alphabet.getD n 'A'

def sextet (c : Char) : Option Nat := alphabet.idxOf? c

/-- Three bytes become four symbols; one or two bytes at the end become two or three. -/
def encodeSymbols : List UInt8 → List Char
  | a :: b :: c :: rest =>
      let n := a.toNat * 65536 + b.toNat * 256 + c.toNat
      symbol (n / 262144) :: symbol (n / 4096 % 64) :: symbol (n / 64 % 64) :: symbol (n % 64)
        :: encodeSymbols rest
  | [a, b] =>
      let n := (a.toNat * 256 + b.toNat) * 4
      [symbol (n / 4096), symbol (n / 64 % 64), symbol (n % 64)]
  | [a] =>
      let n := a.toNat * 16
      [symbol (n / 64), symbol (n % 64)]
  | [] => []

/-- Bits that belong to no byte must be zero. -/
def decodeSymbols : List Char → Option (List UInt8)
  | c₁ :: c₂ :: c₃ :: c₄ :: rest => do
      let n := (← sextet c₁) * 262144 + (← sextet c₂) * 4096 + (← sextet c₃) * 64 + (← sextet c₄)
      let bytes ← decodeSymbols rest
      some (UInt8.ofNat (n / 65536) :: UInt8.ofNat (n / 256 % 256) :: UInt8.ofNat (n % 256) :: bytes)
  | [c₁, c₂, c₃] => do
      let n := (← sextet c₁) * 4096 + (← sextet c₂) * 64 + (← sextet c₃)
      if n % 4 = 0 then some [UInt8.ofNat (n / 1024), UInt8.ofNat (n / 4 % 256)] else none
  | [c₁, c₂] => do
      let n := (← sextet c₁) * 64 + (← sextet c₂)
      if n % 16 = 0 then some [UInt8.ofNat (n / 16)] else none
  | [_] => none
  | [] => some []

theorem sextet_symbol : ∀ n < 64, sextet (symbol n) = some n := by decide

theorem decodeSymbols_encodeSymbols (bytes : List UInt8) :
    decodeSymbols (encodeSymbols bytes) = some bytes := by
  induction bytes using encodeSymbols.induct with
  | case1 a b c rest ih =>
      have ha := a.toNat_lt
      have hb := b.toNat_lt
      have hc := c.toNat_lt
      obtain ⟨n, hn⟩ : ∃ n, n = a.toNat * 65536 + b.toNat * 256 + c.toNat := ⟨_, rfl⟩
      have hsum : n / 262144 * 262144 + n / 4096 % 64 * 4096 + n / 64 % 64 * 64 + n % 64 = n := by
        omega
      have hfirst : n / 65536 = a.toNat := by omega
      have hsecond : n / 256 % 256 = b.toNat := by omega
      have hthird : n % 256 = c.toNat := by omega
      simp only [encodeSymbols, decodeSymbols, ← hn, sextet_symbol _ (show n / 262144 < 64 by omega),
        sextet_symbol _ (show n / 4096 % 64 < 64 by omega),
        sextet_symbol _ (show n / 64 % 64 < 64 by omega),
        sextet_symbol _ (show n % 64 < 64 by omega), Option.bind_eq_bind, Option.bind_some, ih,
        hsum, hfirst, hsecond, hthird, UInt8.ofNat_toNat]
  | case2 a b =>
      have ha := a.toNat_lt
      have hb := b.toNat_lt
      obtain ⟨n, hn⟩ : ∃ n, n = (a.toNat * 256 + b.toNat) * 4 := ⟨_, rfl⟩
      have hsum : n / 4096 * 4096 + n / 64 % 64 * 64 + n % 64 = n := by omega
      have hrest : n % 4 = 0 := by omega
      have hfirst : n / 1024 = a.toNat := by omega
      have hsecond : n / 4 % 256 = b.toNat := by omega
      simp only [encodeSymbols, decodeSymbols, ← hn, sextet_symbol _ (show n / 4096 < 64 by omega),
        sextet_symbol _ (show n / 64 % 64 < 64 by omega),
        sextet_symbol _ (show n % 64 < 64 by omega), Option.bind_eq_bind, Option.bind_some,
        hsum, hrest, if_true, hfirst, hsecond, UInt8.ofNat_toNat]
  | case3 a =>
      have ha := a.toNat_lt
      obtain ⟨n, hn⟩ : ∃ n, n = a.toNat * 16 := ⟨_, rfl⟩
      have hsum : n / 64 * 64 + n % 64 = n := by omega
      have hrest : n % 16 = 0 := by omega
      have hfirst : n / 16 = a.toNat := by omega
      simp only [encodeSymbols, decodeSymbols, ← hn, sextet_symbol _ (show n / 64 < 64 by omega),
        sextet_symbol _ (show n % 64 < 64 by omega), Option.bind_eq_bind, Option.bind_some,
        hsum, hrest, if_true, hfirst, UInt8.ofNat_toNat]
  | case4 => rfl

/-- The UTF-8 bytes of a text. -/
def utf8 (s : String) : List UInt8 := s.toList.flatMap String.utf8EncodeChar

theorem utf8_injective : Function.Injective utf8 := by
  intro s t h
  apply String.toByteArray_inj.mp
  rw [← String.utf8Encode_toList, ← String.utf8Encode_toList]
  exact congrArg List.toByteArray h

theorem utf8EncodeChar_ascii {c : Char} (h : c.toNat < 128) :
    String.utf8EncodeChar c = [UInt8.ofNat c.toNat] := by
  unfold String.utf8EncodeChar
  exact if_pos (show c.toNat ≤ 0x7f by omega)

theorem utf8_ascii {s : String} (h : ∀ c ∈ s.toList, c.toNat < 128) :
    utf8 s = s.toList.map fun c => UInt8.ofNat c.toNat := by
  unfold utf8
  rw [List.map_eq_flatMap]
  exact List.flatMap_congr fun c hc => utf8EncodeChar_ascii (h c hc)

theorem utf8_append (s t : String) : utf8 (s ++ t) = utf8 s ++ utf8 t := by
  simp [utf8]

/-- The text of bytes; `none` when they are not UTF-8. -/
def fromUtf8 (bytes : List UInt8) : Option String := String.fromUTF8? ⟨bytes.toArray⟩

theorem utf8_of_fromUtf8 {bytes : List UInt8} {s : String} (h : fromUtf8 bytes = some s) :
    utf8 s = bytes := by
  unfold fromUtf8 String.fromUTF8? at h
  split at h
  · rename_i hvalid
    have hbytes : s.toByteArray = ⟨bytes.toArray⟩ := by rw [← Option.some.inj h]; rfl
    have hencoded : (utf8 s).toByteArray = ⟨bytes.toArray⟩ := by
      rw [← hbytes, ← String.utf8Encode_toList]
      rfl
    have hlist := congrArg (fun a : ByteArray => a.data.toList) hencoded
    simpa [List.toList_data_toByteArray] using hlist
  · cases h

/-- Only an ASCII character is written with an ASCII byte first. -/
theorem utf8EncodeChar_head {c : Char} {b : UInt8} {tail : List UInt8}
    (h : String.utf8EncodeChar c = b :: tail) (hb : b.toNat < 128) :
    tail = [] ∧ c.toNat = b.toNat := by
  by_cases hc : c.toNat < 128
  · rw [utf8EncodeChar_ascii hc] at h
    obtain ⟨hbyte, htail⟩ := List.cons.inj h
    refine ⟨htail.symm, ?_⟩
    rw [← hbyte, UInt8.toNat_ofNat_of_lt' (hc.trans (by decide))]
  · exfalso
    have hlow : ¬ c.val.toNat ≤ 0x7f := by
      intro hle
      exact hc (Nat.lt_succ_of_le hle)
    have hother : ∀ n : Nat, 128 ≤ n → n < 256 → UInt8.ofNat n ≠ b := by
      intro n hn hbyte hcode
      rw [← hcode, UInt8.toNat_ofNat_of_lt' hbyte] at hb
      omega
    unfold String.utf8EncodeChar at h
    simp only [hlow, if_false] at h
    split at h
    · exact hother _ (by omega) (by omega) (List.cons.inj h).1
    · split at h
      · exact hother _ (by omega) (by omega) (List.cons.inj h).1
      · exact hother _ (by omega) (by omega) (List.cons.inj h).1

/-- ASCII bytes at the front of a text are its first characters. -/
theorem toList_of_utf8_ascii {s : String} {front : List Char} {rest : List UInt8}
    (hfront : ∀ c ∈ front, c.toNat < 128)
    (h : utf8 s = front.map (fun c => UInt8.ofNat c.toNat) ++ rest) :
    ∃ tail, s.toList = front ++ tail := by
  unfold utf8 at h
  generalize s.toList = cs at h ⊢
  induction front generalizing cs with
  | nil => exact ⟨cs, rfl⟩
  | cons c front ih =>
      have hc := hfront c List.mem_cons_self
      cases cs with
      | nil => cases h
      | cons d cs =>
          have hne : String.utf8EncodeChar d ≠ [] := String.utf8EncodeChar_ne_nil
          obtain ⟨b, tail, hd⟩ := List.exists_cons_of_ne_nil hne
          rw [List.flatMap_cons, hd, List.map_cons, List.cons_append, List.cons_append] at h
          obtain ⟨hb, hrest⟩ := List.cons.inj h
          have hvalue : b.toNat = c.toNat := by
            rw [hb, UInt8.toNat_ofNat_of_lt' (hc.trans (by decide))]
          obtain ⟨rfl, hcode⟩ := utf8EncodeChar_head hd (by omega)
          obtain ⟨more, hmore⟩ := ih (fun e he => hfront e (List.mem_cons_of_mem _ he)) cs hrest
          have hsame : d = c := Char.toNat_inj.mp (hcode.trans hvalue)
          exact ⟨more, by rw [hsame, hmore, List.cons_append]⟩

def continues (b : UInt8) : Bool := 0x80 ≤ b && b ≤ 0xbf

/-- How many bytes follow the first one of a character; a byte that starts none has no more. -/
def trailing (b : UInt8) : Nat :=
  if 0xc2 ≤ b ∧ b ≤ 0xdf then 1
  else if 0xe0 ≤ b ∧ b ≤ 0xef then 2
  else if 0xf0 ≤ b ∧ b ≤ 0xf4 then 3
  else 0

/-- The second bytes that leave out overlong forms, surrogates and what is past the last
character. -/
def secondByte (first second : UInt8) : Bool :=
  if first = 0xe0 then 0xa0 ≤ second && second ≤ 0xbf
  else if first = 0xed then 0x80 ≤ second && second ≤ 0x9f
  else if first = 0xf0 then 0x90 ≤ second && second ≤ 0xbf
  else if first = 0xf4 then 0x80 ≤ second && second ≤ 0x8f
  else continues second

/-- How many of the next bytes belong to the character that `b` starts, or to what is there of
it. -/
def belonging (b : UInt8) : List UInt8 → Nat
  | [] => 0
  | c :: rest =>
      if 0 < trailing b ∧ secondByte b c then
        1 + ((rest.take (trailing b - 1)).takeWhile continues).length
      else 0

def scalar (b : UInt8) (bytes : List UInt8) : Char :=
  Char.ofNat (bytes.foldl (fun n c => n * 64 + c.toNat % 64) (b.toNat % 2 ^ (6 - bytes.length)))

/-- Bytes read as UTF-8 after so many that are done with, each broken piece as one replacement
character. -/
def lossyFrom : Nat → List UInt8 → List Char
  | _, [] => []
  | done + 1, _ :: rest => lossyFrom done rest
  | 0, b :: rest =>
      let n := belonging b rest
      (if b < 0x80 then Char.ofNat b.toNat
        else if 0 < trailing b ∧ n = trailing b then scalar b (rest.take n)
        else '\ufffd') :: lossyFrom n rest

/-- `String::from_utf8_lossy`. -/
def fromUtf8Lossy (bytes : List UInt8) : String := String.ofList (lossyFrom 0 bytes)

example : fromUtf8Lossy [0x61, 0xe2, 0x82, 0xac, 0xe2, 0x82, 0x28, 0xff] = "a€\ufffd(\ufffd" := by
  decide

/-- `Display` of `Utf8Error`, after so many bytes of which some are done with. -/
def utf8ErrorFrom (index : Nat) : Nat → List UInt8 → String
  | _, [] => ""
  | done + 1, _ :: rest => utf8ErrorFrom (index + 1) done rest
  | 0, b :: rest =>
      let n := belonging b rest
      if b < 0x80 then utf8ErrorFrom (index + 1) 0 rest
      else if 0 < trailing b ∧ n = trailing b then utf8ErrorFrom (index + 1) n rest
      else if 0 < trailing b ∧ n = rest.length then
        "incomplete utf-8 byte sequence from index " ++ toString index
      else "invalid utf-8 sequence of " ++ toString (n + 1) ++ " bytes from index " ++ toString index

/-- The text of the error that a decoding of bytes as UTF-8 ends with. -/
def utf8Error (bytes : List UInt8) : String := utf8ErrorFrom 0 0 bytes

example : utf8Error [0x61, 0xe2, 0x82] = "incomplete utf-8 byte sequence from index 1" := by
  decide

/-- The base64url text of the UTF-8 bytes of a text. -/
def encodeText (s : String) : String :=
  String.ofList (encodeSymbols s.toUTF8.data.toList)

/-- Bytes that are not UTF-8 are no text. -/
def decodeText (s : String) : Option String := do
  let bytes ← decodeSymbols s.toList
  String.fromUTF8? ⟨bytes.toArray⟩

theorem decodeText_encodeText (s : String) : decodeText (encodeText s) = some s := by
  unfold decodeText encodeText
  rw [String.toList_ofList, decodeSymbols_encodeSymbols]
  simp only [Option.bind_eq_bind, Option.bind_some, String.fromUTF8?]
  exact dif_pos s.isValidUTF8

/-- One digit or more. -/
def parseDigits (cs : List Char) : Option Nat :=
  if cs ≠ [] ∧ cs.all Char.isDigit = true then some (Nat.ofDigitChars 10 cs 0) else none

def toI64 (n : Int) : Option Int := if -2 ^ 63 ≤ n ∧ n < 2 ^ 63 then some n else none

/-- `str::parse::<i64>`: an optional sign, digits, and a value in range. -/
def parseI64 (s : String) : Option Int :=
  match s.toList with
  | '-' :: cs => (parseDigits cs).bind fun n => toI64 (-n)
  | '+' :: cs => (parseDigits cs).bind fun n => toI64 n
  | cs => (parseDigits cs).bind fun n => toI64 n

theorem parseDigits_toDigits (n : Nat) : parseDigits (Nat.toDigits 10 n) = some n := by
  have hdigits : (Nat.toDigits 10 n).all Char.isDigit = true := by
    rw [List.all_eq_true]
    intro c hc
    exact Nat.isDigit_of_mem_toDigits (by omega) (by omega) hc
  unfold parseDigits
  rw [if_pos ⟨Nat.toDigits_ne_nil, hdigits⟩, Nat.ofDigitChars_ten_toDigits]

theorem parseI64_toString {n : Int} (hlow : -2 ^ 63 ≤ n) (hhigh : n < 2 ^ 63) :
    parseI64 (toString n) = some n := by
  have hrange : toI64 n = some n := if_pos ⟨hlow, hhigh⟩
  unfold parseI64
  rw [Int.toString_eq_repr, Int.repr_eq_if]
  rcases Int.lt_or_le n 0 with hneg | hpos
  · have hvalue : -((-n).toNat : Int) = n := by omega
    have htext : ("-" ++ (-n).toNat.repr).toList = '-' :: Nat.toDigits 10 (-n).toNat := by
      rw [String.toList_append, Nat.toList_repr]
      rfl
    rw [if_neg (by omega), htext]
    simp only
    rw [parseDigits_toDigits, Option.bind_some, hvalue, hrange]
  · have hvalue : (n.toNat : Int) = n := Int.toNat_of_nonneg hpos
    have hsign : ∀ c ∈ Nat.toDigits 10 n.toNat, c.isDigit = true := fun c hc =>
      Nat.isDigit_of_mem_toDigits (by omega) (by omega) hc
    rw [if_pos hpos, Nat.toList_repr]
    split
    · rename_i cs htext
      exact absurd (hsign '-' (htext ▸ List.mem_cons_self ..)) (by decide)
    · rename_i cs htext
      exact absurd (hsign '+' (htext ▸ List.mem_cons_self ..)) (by decide)
    · rw [parseDigits_toDigits, Option.bind_some, hvalue, hrange]

/-- What follows the first character that ends an entry does not matter. -/
theorem takeWhile_stop {α : Type} {p : α → Bool} {a : α} (s rest : List α) (h : p a = false) :
    (s ++ a :: rest).takeWhile p = s.takeWhile p := by
  rw [List.takeWhile_append, List.takeWhile_cons_of_neg (by simp [h])]
  split
  · rename_i hlen
    rw [List.append_nil]
    exact ((List.takeWhile_prefix p).eq_of_length hlen).symm
  · rfl

/-- The first separator stands at the same place in two equal texts. -/
theorem append_separator_inj {α : Type} [DecidableEq α] {a : α} {s t x y : List α} (hs : a ∉ s)
    (ht : a ∉ t) (h : s ++ a :: x = t ++ a :: y) : s = t ∧ x = y := by
  have hfront : ∀ {front after : List α}, a ∉ front →
      (front ++ a :: after).takeWhile (fun b => b ≠ a) = front := by
    intro front after hfront
    rw [takeWhile_stop _ _ (by simp), List.takeWhile_eq_self_iff]
    intro b hb
    rw [decide_eq_true_eq]
    rintro rfl
    exact hfront hb
  have hsame : s = t := by
    rw [← @hfront s x hs, h, hfront ht]
  subst hsame
  exact ⟨rfl, (List.cons.inj (List.append_cancel_left h)).2⟩

/-- Without the elements at both ends that satisfy `p`. -/
def trimBy {α : Type} (p : α → Bool) (s : List α) : List α := (s.dropWhile p).rdropWhile p

theorem trimBy_part {α : Type} (p : α → Bool) (s : List α) : trimBy p s <:+: s :=
  (List.rdropWhile_prefix p _).isInfix.trans (List.dropWhile_suffix p).isInfix

theorem trimBy_eq_self {α : Type} {p : α → Bool} {s : List α} (h : ∀ a ∈ s, p a = false) :
    trimBy p s = s := by
  have hleft : s.dropWhile p = s := by
    rw [List.dropWhile_eq_self_iff]
    intro hlen
    simp [h _ (List.getElem_mem hlen)]
  unfold trimBy
  rw [hleft, List.rdropWhile_eq_self_iff]
  intro hne
  simp [h _ (List.getLast_mem hne)]

/-- A text is trimmed once and for all. -/
theorem trimBy_trimBy {α : Type} (p : α → Bool) (s : List α) :
    trimBy p (trimBy p s) = trimBy p s := by
  have hhead : (trimBy p s).dropWhile p = trimBy p s := by
    unfold trimBy
    generalize hs : s.dropWhile p = t
    have ht : t.dropWhile p = t := by rw [← hs, List.dropWhile_idempotent]
    rw [List.dropWhile_eq_self_iff] at ht ⊢
    intro hlen
    have hpos : 0 < t.length := hlen.trans_le (List.rdropWhile_prefix p t).length_le
    have hsame : (t.rdropWhile p)[0] = t[0] := (List.rdropWhile_prefix p t).getElem hlen
    rw [hsame]
    exact ht hpos
  calc trimBy p (trimBy p s) = ((trimBy p s).dropWhile p).rdropWhile p := rfl
    _ = (trimBy p s).rdropWhile p := by rw [hhead]
    _ = trimBy p s := List.rdropWhile_idempotent p _

theorem trimBy_congr {α : Type} {p q : α → Bool} {s : List α} (h : ∀ a ∈ s, p a = q a) :
    trimBy p s = trimBy q s := by
  have hdrop : ∀ t : List α, (∀ a ∈ t, p a = q a) → t.dropWhile p = t.dropWhile q := by
    intro t ht
    induction t with
    | nil => rfl
    | cons a rest ih =>
        rw [List.dropWhile_cons, List.dropWhile_cons, ht a (List.mem_cons_self ..),
          ih fun b hb => ht b (List.mem_cons_of_mem _ hb)]
  unfold trimBy List.rdropWhile
  rw [hdrop s h, hdrop]
  intro a ha
  exact h a ((List.dropWhile_suffix q).subset (List.mem_reverse.mp ha))

theorem trimBy_map {α β : Type} (p : β → Bool) (f : α → β) (s : List α) :
    trimBy p (s.map f) = (trimBy (p ∘ f) s).map f := by
  simp only [trimBy, List.rdropWhile, List.dropWhile_map, ← List.map_reverse]

/-- The text before and after the first separator. -/
def splitOnce (separator : Char) (s : String) : Option (String × String) :=
  match s.toList.dropWhile (· ≠ separator) with
  | _ :: after => some (String.ofList (s.toList.takeWhile (· ≠ separator)), String.ofList after)
  | [] => none

theorem splitOnce_append {separator : Char} {s : String} (rest : String)
    (h : separator ∉ s.toList) :
    splitOnce separator (s ++ String.singleton separator ++ rest) = some (s, rest) := by
  have htext : (s ++ String.singleton separator ++ rest).toList
      = s.toList ++ separator :: rest.toList := by simp
  have hkeep : ∀ c ∈ s.toList, decide (c ≠ separator) = true := by
    intro c hc
    rw [decide_eq_true_eq]
    rintro rfl
    exact h hc
  have hdrop : (s.toList ++ separator :: rest.toList).dropWhile (· ≠ separator)
      = separator :: rest.toList := by
    rw [List.dropWhile_append_of_pos hkeep, List.dropWhile_cons_of_neg (by simp)]
  have htake : (s.toList ++ separator :: rest.toList).takeWhile (· ≠ separator) = s.toList := by
    rw [takeWhile_stop _ _ (by simp), List.takeWhile_eq_self_iff]
    exact hkeep
  unfold splitOnce
  rw [htext, hdrop, htake]
  simp

theorem toList_toString_natCast (n : Nat) :
    (toString (n : Int)).toList = Nat.toDigits 10 n := by
  rw [Int.toString_eq_repr, Int.repr_eq_if, if_pos (by omega), Int.toNat_natCast, Nat.toList_repr]

/-- A decimal number is made of digits and a sign. -/
theorem not_mem_toString {n : Int} {c : Char} (hdigit : c.isDigit = false) (hsign : c ≠ '-') :
    c ∉ (toString n).toList := by
  intro hc
  rw [Int.toString_eq_repr, Int.repr_eq_if] at hc
  have hno : ∀ m : Nat, c ∉ m.repr.toList := by
    intro m hm
    rw [Nat.toList_repr] at hm
    have := Nat.isDigit_of_mem_toDigits (by omega) (by omega) hm
    simp [this] at hdigit
  split at hc
  · exact hno _ hc
  · rw [String.toList_append] at hc
    rcases List.mem_append.mp hc with hc | hc
    · exact hsign (by simpa using hc)
    · exact hno _ hc

end Codec
