import FullStackHex.Library.Json

/-!
Documents of any shape are read back as they were written, with arrays and objects inside each
other as deep as the reader goes. What has been read can be written and read again.
-/

namespace JsonText

/-! ## Numbers -/

section Numerals

variable {cs ds rest : List Char}

/-- Digits, at least one. -/
def Digits (ds : List Char) : Prop := ds ≠ [] ∧ ∀ c ∈ ds, c.isDigit = true

/-- What may stand behind digits. -/
def Stops (rest : List Char) : Prop := ∀ c ∈ rest.head?, c.isDigit = false

theorem readDigits_append (hds : Digits ds) (hrest : Stops rest) :
    readDigits (ds ++ rest) = some (ds, rest) := by
  have htake : rest.takeWhile Char.isDigit = [] ∧ rest.dropWhile Char.isDigit = rest := by
    cases rest with
    | nil => exact ⟨rfl, rfl⟩
    | cons c tail =>
        have hc := hrest c rfl
        exact ⟨List.takeWhile_cons_of_neg (by simp [hc]), List.dropWhile_cons_of_neg (by simp [hc])⟩
  unfold readDigits
  rw [List.span_eq_takeWhile_dropWhile, List.takeWhile_append_of_pos hds.2,
    List.dropWhile_append_of_pos hds.2, htake.1, htake.2, List.append_nil]
  exact if_neg hds.1

theorem readDigits_some (h : readDigits cs = some (ds, rest)) : Digits ds ∧ cs = ds ++ rest := by
  unfold readDigits at h
  rw [List.span_eq_takeWhile_dropWhile] at h
  dsimp only at h
  split_ifs at h with hne
  obtain ⟨rfl, rfl⟩ := Prod.mk.inj (Option.some.inj h)
  refine ⟨⟨hne, fun c hc => List.mem_takeWhile_imp hc⟩, ?_⟩
  exact List.takeWhile_append_dropWhile.symm

/-- An integer has no zero in front. -/
def Integer (ds : List Char) : Prop := Digits ds ∧ ¬ (1 < ds.length ∧ ds.head? = some '0')

theorem readInteger_append (hds : Integer ds) (hrest : Stops rest) :
    readInteger (ds ++ rest) = some (ds, rest) := by
  unfold readInteger
  rw [readDigits_append hds.1 hrest]
  exact if_neg hds.2

theorem readInteger_some (h : readInteger cs = some (ds, rest)) : Integer ds ∧ cs = ds ++ rest := by
  obtain ⟨⟨ds', rest'⟩, hread, hdone⟩ := Option.bind_eq_some_iff.mp h
  dsimp only at hdone
  split_ifs at hdone with hzero
  obtain ⟨rfl, rfl⟩ := Prod.mk.inj (Option.some.inj hdone)
  obtain ⟨hdigits, hcs⟩ := readDigits_some hread
  exact ⟨⟨hdigits, hzero⟩, hcs⟩

def Fraction (ds : List Char) : Prop := ds = [] ∨ ∃ more, Digits more ∧ ds = '.' :: more

theorem readFraction_append (hds : Fraction ds) (hrest : Stops rest) (hdot : rest.head? ≠ some '.') :
    readFraction (ds ++ rest) = some (ds, rest) := by
  rcases hds with rfl | ⟨more, hmore, rfl⟩
  · rw [List.nil_append]
    unfold readFraction
    split
    · exact absurd rfl hdot
    · rfl
  · rw [List.cons_append, readFraction, readDigits_append hmore hrest]
    rfl

theorem readFraction_some (h : readFraction cs = some (ds, rest)) : Fraction ds ∧ cs = ds ++ rest := by
  unfold readFraction at h
  split at h
  · obtain ⟨⟨more, rest'⟩, hread, hdone⟩ := Option.map_eq_some_iff.mp h
    obtain ⟨rfl, rfl⟩ := Prod.mk.inj hdone
    obtain ⟨hdigits, rfl⟩ := readDigits_some hread
    exact ⟨.inr ⟨more, hdigits, rfl⟩, rfl⟩
  · obtain ⟨rfl, rfl⟩ := Prod.mk.inj (Option.some.inj h)
    exact ⟨.inl rfl, rfl⟩

def Exponent (ds : List Char) : Prop :=
  ds = [] ∨ ∃ e sign more, (e = 'e' ∨ e = 'E') ∧ (sign = [] ∨ sign = ['+'] ∨ sign = ['-']) ∧
    Digits more ∧ ds = e :: (sign ++ more)

theorem readExponent_append (hds : Exponent ds) (hrest : Stops rest)
    (hmark : rest.head? ≠ some 'e' ∧ rest.head? ≠ some 'E') :
    readExponent (ds ++ rest) = some (ds, rest) := by
  rcases hds with rfl | ⟨e, sign, more, he, hsign, hmore, rfl⟩
  · cases rest with
    | nil => rfl
    | cons c tail =>
        have hc : ¬ (c = 'e' ∨ c = 'E') := by
          rintro (rfl | rfl)
          · exact hmark.1 rfl
          · exact hmark.2 rfl
        exact if_neg hc
  · have hread := readDigits_append hmore hrest
    refine (if_pos he).trans ?_
    rcases hsign with rfl | rfl | rfl
    · obtain ⟨c, tail, rfl⟩ := List.exists_cons_of_ne_nil hmore.1
      have hc := hmore.2 c (List.mem_cons_self ..)
      rw [List.nil_append]
      split
      · rename_i heq
        rw [(List.cons.inj heq).1] at hc
        cases hc
      · rename_i heq
        rw [(List.cons.inj heq).1] at hc
        cases hc
      · change (readDigits (c :: tail ++ rest)).map _ = _
        rw [hread]
        rfl
    · change (readDigits (more ++ rest)).map _ = _
      rw [hread]
      rfl
    · change (readDigits (more ++ rest)).map _ = _
      rw [hread]
      rfl

theorem readExponent_some (h : readExponent cs = some (ds, rest)) : Exponent ds ∧ cs = ds ++ rest := by
  cases cs with
  | nil =>
      obtain ⟨rfl, rfl⟩ := Prod.mk.inj (Option.some.inj h)
      exact ⟨.inl rfl, rfl⟩
  | cons c tail =>
      unfold readExponent at h
      dsimp only at h
      split_ifs at h with he
      · split at h
        · obtain ⟨⟨more, rest'⟩, hread, hdone⟩ := Option.map_eq_some_iff.mp h
          obtain ⟨rfl, rfl⟩ := Prod.mk.inj hdone
          obtain ⟨hdigits, rfl⟩ := readDigits_some hread
          exact ⟨.inr ⟨c, ['+'], more, he, by simp, hdigits, rfl⟩, rfl⟩
        · obtain ⟨⟨more, rest'⟩, hread, hdone⟩ := Option.map_eq_some_iff.mp h
          obtain ⟨rfl, rfl⟩ := Prod.mk.inj hdone
          obtain ⟨hdigits, rfl⟩ := readDigits_some hread
          exact ⟨.inr ⟨c, ['-'], more, he, by simp, hdigits, rfl⟩, rfl⟩
        · obtain ⟨⟨more, rest'⟩, hread, hdone⟩ := Option.map_eq_some_iff.mp h
          obtain ⟨rfl, rfl⟩ := Prod.mk.inj hdone
          obtain ⟨hdigits, rfl⟩ := readDigits_some hread
          exact ⟨.inr ⟨c, [], more, he, by simp, hdigits, rfl⟩, rfl⟩
      · obtain ⟨rfl, rfl⟩ := Prod.mk.inj (Option.some.inj h)
        exact ⟨.inl rfl, rfl⟩

/-- A number as the grammar has it. -/
def Numeral (digits : List Char) : Prop :=
  ∃ sign integer fraction exponent, digits = sign ++ integer ++ fraction ++ exponent ∧
    (sign = [] ∨ sign = ['-']) ∧ Integer integer ∧ Fraction fraction ∧ Exponent exponent

theorem Exponent.stops (h : Exponent ds) (hrest : Stops rest) : Stops (ds ++ rest) := by
  rcases h with rfl | ⟨e, sign, more, he, -, -, rfl⟩
  · exact hrest
  · rintro c hc
    obtain rfl := Option.some.inj hc
    rcases he with rfl | rfl
    · decide
    · decide

theorem Exponent.no_dot (h : Exponent ds) (hrest : rest.head? ≠ some '.') :
    (ds ++ rest).head? ≠ some '.' := by
  rcases h with rfl | ⟨e, sign, more, he, -, -, rfl⟩
  · exact hrest
  · intro hhead
    obtain rfl := Option.some.inj hhead
    revert he
    decide

theorem Fraction.stops (h : Fraction ds) (hrest : Stops rest) : Stops (ds ++ rest) := by
  rcases h with rfl | ⟨more, -, rfl⟩
  · exact hrest
  · rintro c hc
    obtain rfl := Option.some.inj hc
    decide

/-- A sign is a minus, and digits do not begin with one. -/
theorem readNumber_signed {sign : List Char} (hsign : sign = [] ∨ sign = ['-'])
    (hcs : cs.head? ≠ some '-') :
    readNumber (sign ++ cs) = (do
      let (integer, cs) ← readInteger cs
      let (fraction, cs) ← readFraction cs
      let (exponent, cs) ← readExponent cs
      some (.number (sign ++ integer ++ fraction ++ exponent), cs)) := by
  rcases hsign with rfl | rfl
  · unfold readNumber
    split
    rename_i sign cs' heq
    have hsplit : sign = [] ∧ cs' = cs := by
      rw [List.nil_append] at heq
      split at heq
      · exact absurd rfl hcs
      · exact ⟨(Prod.mk.inj heq).1.symm, (Prod.mk.inj heq).2.symm⟩
    rw [hsplit.1, hsplit.2]
  · rfl

theorem readNumber_append (hds : Numeral ds) (hstops : Stops rest)
    (hmark : ∀ c ∈ ['.', 'e', 'E'], rest.head? ≠ some c) :
    readNumber (ds ++ rest) = some (.number ds, rest) := by
  obtain ⟨sign, integer, fraction, exponent, rfl, hsign, hinteger, hfraction, hexponent⟩ := hds
  have hhead : (integer ++ (fraction ++ (exponent ++ rest))).head? ≠ some '-' := by
    obtain ⟨c, tail, rfl⟩ := List.exists_cons_of_ne_nil hinteger.1.1
    intro hminus
    have hc := hinteger.1.2 c (List.mem_cons_self ..)
    rw [Option.some.inj hminus] at hc
    cases hc
  have hstops' := hexponent.stops hstops
  simp only [List.append_assoc]
  rw [readNumber_signed hsign hhead, readInteger_append hinteger (hfraction.stops hstops')]
  simp only [Option.bind_eq_bind, Option.bind_some]
  rw [readFraction_append hfraction hstops' (hexponent.no_dot (hmark '.' (by simp)))]
  simp only [Option.bind_some]
  rw [readExponent_append hexponent hstops ⟨hmark 'e' (by simp), hmark 'E' (by simp)⟩]
  simp only [Option.bind_some, List.append_assoc]

theorem readNumber_some {v : Json} (h : readNumber cs = some (v, rest)) :
    ∃ ds, v = .number ds ∧ Numeral ds := by
  unfold readNumber at h
  split at h
  rename_i sign cs' hsign
  obtain ⟨⟨integer, cs₁⟩, hinteger, h⟩ := Option.bind_eq_some_iff.mp h
  obtain ⟨⟨fraction, cs₂⟩, hfraction, h⟩ := Option.bind_eq_some_iff.mp h
  obtain ⟨⟨exponent, cs₃⟩, hexponent, h⟩ := Option.bind_eq_some_iff.mp h
  obtain ⟨rfl, rfl⟩ := Prod.mk.inj (Option.some.inj h)
  refine ⟨_, rfl, sign, integer, fraction, exponent, rfl, ?_, (readInteger_some hinteger).1,
    (readFraction_some hfraction).1, (readExponent_some hexponent).1⟩
  split at hsign
  · exact .inr (Prod.mk.inj hsign).1.symm
  · exact .inl (Prod.mk.inj hsign).1.symm

end Numerals

/-- A number as it is written of a natural number. -/
def Json.ofNat (n : Nat) : Json := .number (Nat.toDigits 10 n)

def Json.asNat : Json → Option Nat
  | .number digits => if digits.all Char.isDigit then some (Nat.ofDigitChars 10 digits 0) else none
  | _ => none

/-- Brackets within so many brackets at most. -/
def Json.Fits : Nat → Json → Prop
  | _, .null | _, .bool _ | _, .string _ => True
  | _, .number digits => Numeral digits
  | depth + 1, .array items => ∀ v ∈ items, v.Fits depth
  | depth + 1, .object members => ∀ m ∈ members, m.2.Fits depth
  | 0, .array _ | 0, .object _ => False

@[simp] theorem fits_number {depth : Nat} {digits : List Char} :
    (Json.number digits).Fits depth ↔ Numeral digits := by
  cases depth with
  | zero => exact Iff.rfl
  | succ depth => exact Iff.rfl

/-- What stands after a value in a document. -/
def Follows (rest : List Char) : Prop :=
  rest = [] ∨ ∃ tail, rest = ',' :: tail ∨ rest = ']' :: tail ∨ rest = '\x7d' :: tail

@[simp] theorem follows_nil : Follows [] := Or.inl rfl

@[simp] theorem follows_comma (tail : List Char) : Follows (',' :: tail) :=
  Or.inr ⟨tail, Or.inl rfl⟩

@[simp] theorem follows_bracket (tail : List Char) : Follows (']' :: tail) :=
  Or.inr ⟨tail, Or.inr (Or.inl rfl)⟩

@[simp] theorem follows_brace (tail : List Char) : Follows ('\x7d' :: tail) :=
  Or.inr ⟨tail, Or.inr (Or.inr rfl)⟩

@[simp] theorem Json.asNat_ofNat (n : Nat) : (Json.ofNat n).asNat = some n := by
  have hdigits : (Nat.toDigits 10 n).all Char.isDigit = true := by
    rw [List.all_eq_true]
    intro c hc
    exact Nat.isDigit_of_mem_toDigits (by omega) (by omega) hc
  unfold ofNat asNat
  dsimp only
  rw [if_pos hdigits, Nat.ofDigitChars_ten_toDigits]

section Numbers

variable {rest : List Char}

theorem digitChar_ne_zero : ∀ n < 10, n ≠ 0 → Nat.digitChar n ≠ '0' := by decide

/-- A number is not written with a zero in front. -/
theorem toDigits_head {n : Nat} (h : (Nat.toDigits 10 n).head? = some '0') :
    (Nat.toDigits 10 n).length = 1 := by
  have hsmall : ∀ m < 10, (Nat.toDigits 10 m).length = 1 := by
    intro m hm
    rw [Nat.toDigits_of_lt_base hm, List.length_singleton]
  have hhead : ∀ m, 0 < m → (Nat.toDigits 10 m).head? ≠ some '0' := by
    intro m
    induction m using Nat.strong_induction_on with
    | _ m ih =>
        intro hm hzero
        rcases Nat.lt_or_ge m 10 with hlt | hge
        · rw [Nat.toDigits_of_lt_base hlt, List.head?_cons, Option.some.injEq] at hzero
          exact digitChar_ne_zero m hlt (by omega) hzero
        · rw [Nat.toDigits_of_base_le (by omega) hge,
            List.head?_append_of_ne_nil _ Nat.toDigits_ne_nil] at hzero
          exact ih (m / 10) (by omega) (by omega) hzero
  rcases Nat.eq_zero_or_pos n with rfl | hpos
  · exact hsmall 0 (by omega)
  · exact absurd h (hhead n hpos)

theorem numeral_toDigits (n : Nat) : Numeral (Nat.toDigits 10 n) := by
  refine ⟨[], Nat.toDigits 10 n, [], [], by simp, .inl rfl, ⟨⟨?_, ?_⟩, ?_⟩, .inl rfl, .inl rfl⟩
  · exact Nat.toDigits_ne_nil
  · exact fun c hc => Nat.isDigit_of_mem_toDigits (by omega) (by omega) hc
  · rintro ⟨hlong, hzero⟩
    have := toDigits_head hzero
    omega

/-- What may come after a value is no part of a number. -/
theorem Follows.ends (h : Follows rest) :
    Stops rest ∧ ∀ c ∈ ['.', 'e', 'E'], rest.head? ≠ some c := by
  unfold Stops
  rcases h with rfl | ⟨tail, rfl | rfl | rfl⟩
  · exact ⟨by simp, by simp⟩
  all_goals
    constructor
    · intro c hc
      obtain rfl := Option.some.inj hc
      decide
    · intro c hc hhead
      obtain rfl := Option.some.inj hhead
      revert hc
      decide

/-- A number begins with a minus or a digit. -/
theorem Numeral.head {ds : List Char} (h : Numeral ds) :
    ∃ c tail, ds = c :: tail ∧ (c = '-' ∨ c.isDigit = true) := by
  obtain ⟨sign, integer, fraction, exponent, rfl, hsign, hinteger, -, -⟩ := h
  obtain ⟨c, tail, rfl⟩ := List.exists_cons_of_ne_nil hinteger.1.1
  rcases hsign with rfl | rfl
  · exact ⟨c, _, rfl, .inr (hinteger.1.2 c (List.mem_cons_self ..))⟩
  · exact ⟨'-', _, rfl, .inl rfl⟩

theorem readScalar_number {c : Char} {tail : List Char} (hc : c = '-' ∨ c.isDigit = true) :
    readScalar (c :: tail) = readNumber (c :: tail) := by
  have hne : ∀ d : Char, d ≠ '-' → d.isDigit = false → c ≠ d := by
    rintro d hminus hd rfl
    rcases hc with hc | hc
    · exact hminus hc
    · rw [hd] at hc
      cases hc
  unfold readScalar
  split
  · rename_i h
    exact absurd (List.cons.inj h).1 (hne 'n' (by decide) (by decide))
  · rename_i h
    exact absurd (List.cons.inj h).1 (hne 't' (by decide) (by decide))
  · rename_i h
    exact absurd (List.cons.inj h).1 (hne 'f' (by decide) (by decide))
  · rename_i h
    exact absurd (List.cons.inj h).1 (hne '"' (by decide) (by decide))
  · rfl

end Numbers

section Nested

variable {rest : List Char} {v : Json}

/-- No written value begins like a blank or like the end of an array. -/
theorem write_head {depth : Nat} (hv : v.Fits depth) :
    ∃ c tail, write v = c :: tail ∧ isBlank c = false ∧ c ≠ ']' := by
  cases v with
  | null => exact ⟨'n', _, rfl, by decide, by decide⟩
  | bool b =>
      cases b with
      | true => exact ⟨'t', _, rfl, by decide, by decide⟩
      | false => exact ⟨'f', _, rfl, by decide, by decide⟩
  | string text => exact ⟨'"', _, rfl, by decide, by decide⟩
  | array items => exact ⟨'[', _, rfl, by decide, by decide⟩
  | object members => exact ⟨'\x7b', _, rfl, by decide, by decide⟩
  | number digits =>
      obtain ⟨c, tail, hdigits, hc⟩ := (fits_number.mp hv).head
      have hne : ∀ d ∈ [' ', '\n', '\t', '\r', ']'], c ≠ d := by
        rintro d hd rfl
        revert hc
        fin_cases hd <;> decide
      refine ⟨c, tail, hdigits, ?_, hne ']' (by simp)⟩
      simp [isBlank, hne]

theorem skipBlanks_cons {c : Char} {tail : List Char} (hc : isBlank c = false) :
    skipBlanks (c :: tail) = c :: tail :=
  List.dropWhile_cons_of_neg (by simp [hc])

theorem readValue_number {digits : List Char} (hdigits : Numeral digits) (depth : Nat)
    (hrest : Follows rest) :
    readValue depth (write (.number digits) ++ rest) = some (.number digits, rest) := by
  obtain ⟨c, tail, hhead, hc⟩ := hdigits.head
  obtain ⟨c', tail', hwrite, hblank, -⟩ := write_head ((@fits_number 0 digits).mpr hdigits)
  obtain ⟨rfl, rfl⟩ := List.cons.inj (hhead.symm.trans hwrite)
  have hscalar : readScalar (c :: (tail ++ rest)) = some (.number digits, rest) := by
    obtain ⟨hstops, hmark⟩ := hrest.ends
    rw [readScalar_number hc, ← List.cons_append, ← hhead]
    exact readNumber_append hdigits hstops hmark
  rw [hwrite, List.cons_append]
  cases depth with
  | zero =>
      rw [readValue, skipBlanks_cons hblank]
      exact hscalar
  | succ depth =>
      rw [readValue, skipBlanks_cons hblank]
      split
      · rename_i h
        rw [(List.cons.inj h).1] at hc
        exact absurd hc (by decide)
      · rename_i h
        rw [(List.cons.inj h).1] at hc
        exact absurd hc (by decide)
      · exact hscalar

theorem length_le_writeItems {depth : Nat} {items : List Json}
    (hfits : ∀ v ∈ items, v.Fits depth) : items.length ≤ (writeItems items).length := by
  induction items with
  | nil => exact le_refl _
  | cons v items ih =>
      obtain ⟨c, tail, hwrite, _⟩ := write_head (hfits v List.mem_cons_self)
      have hrest := ih fun v hv => hfits v (List.mem_cons_of_mem _ hv)
      cases items with
      | nil =>
          simp only [writeItems, hwrite, List.length_cons, List.length_nil]
          omega
      | cons v' items =>
          simp only [writeItems, hwrite, List.length_append, List.length_cons] at hrest ⊢
          omega

/-- The items of an array are read one by one, when each of them is read back. -/
theorem readItems_write {item : List Char → Option (Json × List Char)} {n : Nat}
    {items : List Json} (hne : items ≠ [])
    (hitem : ∀ v ∈ items, ∀ rest, Follows rest → item (write v ++ rest) = some (v, rest))
    (hn : items.length ≤ n) :
    readItems item n (writeItems items ++ ']' :: rest) = some (items, rest) := by
  induction items generalizing n with
  | nil => exact absurd rfl hne
  | cons v items ih =>
      obtain ⟨n, rfl⟩ : ∃ k, n = k + 1 := ⟨n - 1, by simp at hn; omega⟩
      have hv := hitem v List.mem_cons_self
      cases items with
      | nil =>
          rw [readItems, writeItems, hv _ (follows_bracket rest)]
          rfl
      | cons v' items =>
          have hrest := ih (n := n) (List.cons_ne_nil _ _)
            (fun v hv => hitem v (List.mem_cons_of_mem _ hv)) (by simpa using hn)
          have hcomma : skipBlanks (',' :: (writeItems (v' :: items) ++ ']' :: rest))
              = ',' :: (writeItems (v' :: items) ++ ']' :: rest) := rfl
          rw [readItems, writeItems, List.append_assoc, List.cons_append,
            hv _ (follows_comma _)]
          simp only [Option.bind_eq_bind, Option.bind_some, hcomma, hrest]

theorem readMember_of {item : List Char → Option (Json × List Char)} (key : List Char)
    (hitem : item (write v ++ rest) = some (v, rest)) :
    readMember item (quote key ++ ':' :: (write v ++ rest)) = some ((key, v), rest) := by
  have hopen : skipBlanks (quote key ++ ':' :: (write v ++ rest))
      = '"' :: ((quote key).tail ++ ':' :: (write v ++ rest)) := rfl
  have hcolon : skipBlanks (':' :: (write v ++ rest)) = ':' :: (write v ++ rest) := rfl
  unfold readMember
  rw [hopen]
  simp only [Option.bind_eq_bind, readText_quote, Option.bind_some, hcolon, hitem]

/-- The members of an object are read one by one, when each of their values is read back. -/
theorem readMembers_of {item : List Char → Option (Json × List Char)} {n : Nat}
    {members : List (List Char × Json)} (hne : members ≠ [])
    (hitem : ∀ m ∈ members, ∀ rest, Follows rest → item (write m.2 ++ rest) = some (m.2, rest))
    (hn : members.length ≤ n) :
    readMembers item n (writeMembers members ++ '\x7d' :: rest) = some (members, rest) := by
  induction members generalizing n with
  | nil => exact absurd rfl hne
  | cons m members ih =>
      obtain ⟨key, v⟩ := m
      obtain ⟨n, rfl⟩ : ∃ k, n = k + 1 := ⟨n - 1, by simp at hn; omega⟩
      have hv := hitem (key, v) List.mem_cons_self
      cases members with
      | nil =>
          have hwrite : writeMembers [(key, v)] ++ '\x7d' :: rest
              = quote key ++ ':' :: (write v ++ '\x7d' :: rest) := by
            simp [writeMembers]
          rw [hwrite, readMembers, readMember_of key (hv _ (follows_brace rest))]
          rfl
      | cons m' members =>
          have hwrite : writeMembers ((key, v) :: m' :: members) ++ '\x7d' :: rest
              = quote key ++ ':' :: (write v ++ ',' :: (writeMembers (m' :: members)
                ++ '\x7d' :: rest)) := by
            simp [writeMembers]
          have hrest := ih (n := n) (List.cons_ne_nil _ _)
            (fun m hm => hitem m (List.mem_cons_of_mem _ hm)) (by simpa using hn)
          have hcomma : skipBlanks (',' :: (writeMembers (m' :: members) ++ '\x7d' :: rest))
              = ',' :: (writeMembers (m' :: members) ++ '\x7d' :: rest) := rfl
          rw [hwrite, readMembers, readMember_of key (hv _ (follows_comma _))]
          simp only [Option.bind_eq_bind, Option.bind_some, hcomma, hrest]

theorem readValue_array {depth : Nat} {items : List Json}
    (hitem : ∀ v ∈ items, ∀ rest, Follows rest →
      readValue depth (write v ++ rest) = some (v, rest))
    (hfits : ∀ v ∈ items, v.Fits depth) :
    readValue (depth + 1) (write (.array items) ++ rest) = some (.array items, rest) := by
  have hwrite : write (.array items) ++ rest = '[' :: (writeItems items ++ ']' :: rest) := by
    simp [write]
  have hopen : skipBlanks ('[' :: (writeItems items ++ ']' :: rest))
      = '[' :: (writeItems items ++ ']' :: rest) := rfl
  rw [hwrite, readValue, hopen]
  simp only
  cases items with
  | nil => rfl
  | cons v items =>
      obtain ⟨c, tail, hfirst, hblank, hbracket⟩ := write_head (hfits v List.mem_cons_self)
      obtain ⟨tail', hitems⟩ : ∃ tail', writeItems (v :: items) = c :: tail' := by
        cases items with
        | nil => exact ⟨tail, hfirst⟩
        | cons v' items => exact ⟨_, by rw [writeItems, hfirst, List.cons_append]⟩
      have hskip : skipBlanks (writeItems (v :: items) ++ ']' :: rest)
          = writeItems (v :: items) ++ ']' :: rest := by
        rw [hitems, List.cons_append, skipBlanks_cons hblank]
      have hlength := length_le_writeItems hfits
      have hread : readItems (readValue depth) (writeItems (v :: items) ++ ']' :: rest).length
          (writeItems (v :: items) ++ ']' :: rest) = some (v :: items, rest) := by
        apply readItems_write (List.cons_ne_nil _ _) hitem
        rw [List.length_append]
        omega
      rw [hskip]
      split
      · rename_i h
        rw [hitems, List.cons_append] at h
        exact absurd (List.cons.inj h).1 hbracket
      · rw [hread]
        rfl

theorem readValue_object {depth : Nat} {members : List (List Char × Json)}
    (hitem : ∀ m ∈ members, ∀ rest, Follows rest →
      readValue depth (write m.2 ++ rest) = some (m.2, rest)) :
    readValue (depth + 1) (write (.object members) ++ rest) = some (.object members, rest) := by
  have hwrite : write (.object members) ++ rest
      = '\x7b' :: (writeMembers members ++ '\x7d' :: rest) := by
    simp [write]
  have hopen : skipBlanks ('\x7b' :: (writeMembers members ++ '\x7d' :: rest))
      = '\x7b' :: (writeMembers members ++ '\x7d' :: rest) := rfl
  rw [hwrite, readValue, hopen]
  simp only
  cases members with
  | nil => rfl
  | cons m members =>
      obtain ⟨tail, hquote⟩ := quoted_writeMembers (List.cons_ne_nil m members)
      have hskip : skipBlanks (writeMembers (m :: members) ++ '\x7d' :: rest)
          = writeMembers (m :: members) ++ '\x7d' :: rest := by
        rw [hquote, List.cons_append]
        rfl
      have hlength := length_le_writeMembers (m :: members)
      have hread : readMembers (readValue depth)
          (writeMembers (m :: members) ++ '\x7d' :: rest).length
          (writeMembers (m :: members) ++ '\x7d' :: rest) = some (m :: members, rest) := by
        apply readMembers_of (List.cons_ne_nil _ _) hitem
        rw [List.length_append]
        omega
      rw [hskip]
      split
      · rename_i h
        rw [hquote, List.cons_append] at h
        cases (List.cons.inj h).1
      · rw [hread]
        rfl

/-- A value is read back, whatever may come after it. -/
theorem readValue_write {depth : Nat} (hv : v.Fits depth) (hrest : Follows rest) :
    readValue depth (write v ++ rest) = some (v, rest) := by
  induction depth generalizing v rest with
  | zero =>
      cases v with
      | null => exact readValue_simple (show Json.null.Simple from trivial) 0
      | bool b => exact readValue_simple (show (Json.bool b).Simple from trivial) 0
      | string text => exact readValue_simple (show (Json.string text).Simple from trivial) 0
      | number digits => exact readValue_number hv 0 hrest
      | array | object => cases hv
  | succ depth ih =>
      cases v with
      | null => exact readValue_simple (show Json.null.Simple from trivial) (depth + 1)
      | bool b => exact readValue_simple (show (Json.bool b).Simple from trivial) (depth + 1)
      | string text => exact readValue_simple (show (Json.string text).Simple from trivial) (depth + 1)
      | number digits => exact readValue_number hv (depth + 1) hrest
      | array items => exact readValue_array (fun v hmem rest => ih (hv v hmem)) hv
      | object members => exact readValue_object fun m hmem rest => ih (hv m hmem)

/-- A document is read back. -/
theorem parse_write (hv : v.Fits 127) : parse (String.ofList (write v)) = some v := by
  have hread : readValue 127 (write v ++ []) = some (v, []) := readValue_write hv follows_nil
  rw [List.append_nil] at hread
  unfold parse
  rw [String.toList_ofList, hread]
  rfl

/-! ## What has been read -/

variable {cs : List Char}

theorem readScalar_fits (h : readScalar cs = some (v, rest)) (depth : Nat) : v.Fits depth := by
  have htrue : ∀ b, (Json.bool b).Fits depth := fun b => by cases depth <;> exact trivial
  unfold readScalar at h
  split at h
  · obtain ⟨rfl, -⟩ := Prod.mk.inj (Option.some.inj h)
    cases depth <;> exact trivial
  · obtain ⟨rfl, -⟩ := Prod.mk.inj (Option.some.inj h)
    exact htrue true
  · obtain ⟨rfl, -⟩ := Prod.mk.inj (Option.some.inj h)
    exact htrue false
  · obtain ⟨⟨text, after⟩, -, hdone⟩ := Option.map_eq_some_iff.mp h
    obtain ⟨rfl, -⟩ := Prod.mk.inj hdone
    cases depth <;> exact trivial
  · obtain ⟨ds, rfl, hds⟩ := readNumber_some h
    exact fits_number.mpr hds

theorem readItems_all {item : List Char → Option (Json × List Char)} {p : Json → Prop}
    (hitem : ∀ cs v rest, item cs = some (v, rest) → p v) {n : Nat} {items : List Json}
    (h : readItems item n cs = some (items, rest)) : ∀ v ∈ items, p v := by
  induction n generalizing cs items rest with
  | zero => cases h
  | succ n ih =>
      obtain ⟨⟨v, rest'⟩, hfirst, h⟩ := Option.bind_eq_some_iff.mp h
      dsimp only at h
      split at h
      · obtain ⟨rfl, -⟩ := Prod.mk.inj (Option.some.inj h)
        intro w hw
        rw [List.mem_singleton.mp hw]
        exact hitem _ _ _ hfirst
      · obtain ⟨⟨vs, after⟩, hmore, hdone⟩ := Option.bind_eq_some_iff.mp h
        obtain ⟨rfl, -⟩ := Prod.mk.inj (Option.some.inj hdone)
        intro w hw
        rcases List.mem_cons.mp hw with rfl | hw
        · exact hitem _ _ _ hfirst
        · exact ih hmore w hw
      · cases h

theorem readMember_value {item : List Char → Option (Json × List Char)} {p : Json → Prop}
    (hitem : ∀ cs v rest, item cs = some (v, rest) → p v) {m : List Char × Json}
    (h : readMember item cs = some (m, rest)) : p m.2 := by
  unfold readMember at h
  split at h
  · obtain ⟨⟨key, rest'⟩, -, h⟩ := Option.bind_eq_some_iff.mp h
    dsimp only at h
    split at h
    · obtain ⟨⟨v, after⟩, hread, hdone⟩ := Option.bind_eq_some_iff.mp h
      obtain ⟨rfl, -⟩ := Prod.mk.inj (Option.some.inj hdone)
      exact hitem _ _ _ hread
    · cases h
  · cases h

theorem readMembers_all {item : List Char → Option (Json × List Char)} {p : Json → Prop}
    (hitem : ∀ cs v rest, item cs = some (v, rest) → p v) {n : Nat}
    {members : List (List Char × Json)}
    (h : readMembers item n cs = some (members, rest)) : ∀ m ∈ members, p m.2 := by
  induction n generalizing cs members rest with
  | zero => cases h
  | succ n ih =>
      obtain ⟨⟨m, rest'⟩, hfirst, h⟩ := Option.bind_eq_some_iff.mp h
      dsimp only at h
      split at h
      · obtain ⟨rfl, -⟩ := Prod.mk.inj (Option.some.inj h)
        intro m' hm'
        rw [List.mem_singleton.mp hm']
        exact readMember_value hitem hfirst
      · obtain ⟨⟨ms, after⟩, hmore, hdone⟩ := Option.bind_eq_some_iff.mp h
        obtain ⟨rfl, -⟩ := Prod.mk.inj (Option.some.inj hdone)
        intro m' hm'
        rcases List.mem_cons.mp hm' with rfl | hm'
        · exact readMember_value hitem hfirst
        · exact ih hmore m' hm'
      · cases h

theorem readValue_fits {depth : Nat} (h : readValue depth cs = some (v, rest)) : v.Fits depth := by
  induction depth generalizing cs v rest with
  | zero => exact readScalar_fits h 0
  | succ depth ih =>
      rw [readValue] at h
      split at h
      · split at h
        · obtain ⟨rfl, -⟩ := Prod.mk.inj (Option.some.inj h)
          intro w hw
          cases hw
        · obtain ⟨⟨items, after⟩, hread, hdone⟩ := Option.map_eq_some_iff.mp h
          obtain ⟨rfl, -⟩ := Prod.mk.inj hdone
          exact readItems_all (fun _ _ _ hitem => ih hitem) hread
      · split at h
        · obtain ⟨rfl, -⟩ := Prod.mk.inj (Option.some.inj h)
          intro w hw
          cases hw
        · obtain ⟨⟨members, after⟩, hread, hdone⟩ := Option.map_eq_some_iff.mp h
          obtain ⟨rfl, -⟩ := Prod.mk.inj hdone
          exact readMembers_all (fun _ _ _ hitem => ih hitem) hread
      · exact readScalar_fits h _

theorem parse_fits {text : String} (h : parse text = some v) : v.Fits 127 := by
  obtain ⟨⟨w, rest⟩, hread, hdone⟩ := Option.bind_eq_some_iff.mp h
  dsimp only at hdone
  split_ifs at hdone
  obtain rfl := Option.some.inj hdone
  exact readValue_fits hread

end Nested

end JsonText
