import FullStackHex.Library.Codec

/-!
Percent-encoding of bytes. A set of bytes is kept, every other byte becomes a
percent sign and two upper-case digits. Decoding also takes lower-case digits,
and leaves a percent sign alone that no two digits follow.
-/

namespace Percent

abbrev Bytes := List UInt8

def byte (c : Char) : UInt8 := UInt8.ofNat c.toNat

def hexUpper (n : Nat) : UInt8 := UInt8.ofNat (if n < 10 then 48 + n else 55 + n)

def hexVal (b : UInt8) : Option Nat :=
  let n := b.toNat
  if 48 ≤ n ∧ n ≤ 57 then some (n - 48)
  else if 65 ≤ n ∧ n ≤ 70 then some (n - 55)
  else if 97 ≤ n ∧ n ≤ 102 then some (n - 87)
  else none

def escape (b : UInt8) : Bytes := [byte '%', hexUpper (b.toNat / 16), hexUpper (b.toNat % 16)]

def encode (keep : UInt8 → Bool) (bs : Bytes) : Bytes :=
  bs.flatMap fun b => if keep b then [b] else escape b

/-- The byte of two hexadecimal digits. -/
def unescape (x y : UInt8) : Option UInt8 := do
  some (UInt8.ofNat (16 * (← hexVal x) + (← hexVal y)))

def decode : Bytes → Bytes
  | a :: x :: y :: rest =>
      match (if a = byte '%' then unescape x y else none) with
      | some b => b :: decode rest
      | none => a :: decode (x :: y :: rest)
  | short => short

/-- A text that `encode` writes: kept bytes, and escapes of other bytes as it writes them. -/
def isEncoded (keep : UInt8 → Bool) : Bytes → Bool
  | a :: x :: y :: rest =>
      if a = byte '%' then
        (unescape x y).any (fun b => !keep b && escape b == [a, x, y]) && isEncoded keep rest
      else keep a && isEncoded keep (x :: y :: rest)
  | short => short.all fun a => a ≠ byte '%' && keep a

/-- The unreserved bytes: letters, digits, and four marks. -/
def unreserved (b : UInt8) : Bool :=
  let n := b.toNat
  (65 ≤ n && n ≤ 90) || (97 ≤ n && n ≤ 122) || (48 ≤ n && n ≤ 57) || n == 45 || n == 46 || n == 95
    || n == 126

variable {keep : UInt8 → Bool} {a b : UInt8} {bs cs : Bytes}

@[simp] theorem encode_nil : encode keep [] = [] := rfl

@[simp] theorem encode_append (bs cs : Bytes) :
    encode keep (bs ++ cs) = encode keep bs ++ encode keep cs := List.flatMap_append

theorem encode_cons (b : UInt8) (bs : Bytes) :
    encode keep (b :: bs) = (if keep b then [b] else escape b) ++ encode keep bs :=
  List.flatMap_cons

/-! ## What encoding leaves alone -/

theorem encode_eq_self (h : ∀ b ∈ bs, keep b = true) : encode keep bs = bs := by
  induction bs with
  | nil => rfl
  | cons b rest ih =>
      rw [encode_cons, if_pos (h b (List.mem_cons_self ..)),
        ih fun c hc => h c (List.mem_cons_of_mem _ hc)]
      rfl

theorem mem_escape (h : a ∈ escape b) : a = byte '%' ∨ ∃ n < 16, a = hexUpper n := by
  have hb := b.toNat_lt
  simp only [escape, List.mem_cons, List.not_mem_nil, or_false] at h
  rcases h with rfl | rfl | rfl
  · exact .inl rfl
  · exact .inr ⟨_, by omega, rfl⟩
  · exact .inr ⟨_, by omega, rfl⟩

/-- A byte of the result is a kept one, a percent sign or an upper-case digit. -/
theorem mem_encode (h : a ∈ encode keep bs) :
    keep a = true ∧ a ∈ bs ∨ a = byte '%' ∨ ∃ n < 16, a = hexUpper n := by
  obtain ⟨b, hb, ha⟩ := List.mem_flatMap.mp h
  split at ha
  · rename_i hkeep
    obtain rfl := List.mem_singleton.mp ha
    exact .inl ⟨hkeep, hb⟩
  · exact .inr (mem_escape ha)

/-- A text without escapes stands for itself only. -/
theorem eq_of_encode (h : encode keep bs = cs) (hcs : byte '%' ∉ cs) : bs = cs := by
  have hkeep : ∀ b ∈ bs, keep b = true := by
    intro b hb
    by_contra hnot
    apply hcs
    rw [← h]
    refine List.mem_flatMap.mpr ⟨b, hb, ?_⟩
    rw [if_neg hnot]
    exact List.mem_cons_self ..
  rw [← h, encode_eq_self hkeep]

/-- The percent sign and the digits are kept, so a second round changes nothing. -/
structure Idempotent (keep : UInt8 → Bool) : Prop where
  percent : keep (byte '%') = true
  digit : ∀ b, (hexVal b).isSome = true → keep b = true

theorem hexVal_hexUpper : ∀ n < 16, hexVal (hexUpper n) = some n := by decide

theorem unreserved_of_hexVal (b : UInt8) (h : (hexVal b).isSome = true) : unreserved b = true := by
  unfold hexVal at h
  unfold unreserved
  simp only [Bool.or_eq_true, Bool.and_eq_true, decide_eq_true_eq, beq_iff_eq] at h ⊢
  split at h
  · omega
  · split at h
    · omega
    · split at h
      · omega
      · cases h

theorem Idempotent.mem (h : Idempotent keep) (ha : a ∈ encode keep bs) : keep a = true := by
  rcases mem_encode ha with ⟨hkeep, -⟩ | rfl | ⟨n, hn, rfl⟩
  · exact hkeep
  · exact h.percent
  · exact h.digit _ (by rw [hexVal_hexUpper n hn]; rfl)

theorem Idempotent.encode_encode (h : Idempotent keep) (bs : Bytes) :
    encode keep (encode keep bs) = encode keep bs :=
  encode_eq_self fun _ ha => h.mem ha

/-! ## Decoding -/

theorem decode_cons_of_ne (h : a ≠ byte '%') (bs : Bytes) : decode (a :: bs) = a :: decode bs := by
  match bs with
  | [] => rfl
  | [_] => rfl
  | x :: y :: rest =>
      rw [decode, if_neg h]

theorem unescape_hexUpper (b : UInt8) :
    unescape (hexUpper (b.toNat / 16)) (hexUpper (b.toNat % 16)) = some b := by
  have hb := b.toNat_lt
  unfold unescape
  rw [hexVal_hexUpper _ (by omega), hexVal_hexUpper _ (by omega)]
  simp only [Option.bind_eq_bind, Option.bind_some, Option.some.injEq]
  rw [Nat.div_add_mod, UInt8.ofNat_toNat]

theorem decode_escape (b : UInt8) (bs : Bytes) : decode (escape b ++ bs) = b :: decode bs := by
  have hvalue := unescape_hexUpper b
  unfold escape
  rw [List.cons_append, List.cons_append, List.cons_append, List.nil_append, decode, if_pos rfl,
    hvalue]

theorem decode_encode (hpercent : keep (byte '%') = false) (bs : Bytes) :
    decode (encode keep bs) = bs := by
  induction bs with
  | nil => rfl
  | cons b rest ih =>
      rw [encode_cons]
      split
      · rename_i hkeep
        have hne : b ≠ byte '%' := by
          rintro rfl
          rw [hpercent] at hkeep
          cases hkeep
        rw [List.singleton_append, decode_cons_of_ne hne, ih]
      · rw [decode_escape, ih]

/-- The text starts with two hexadecimal digits. -/
def opens : Bytes → Bool
  | x :: y :: _ => (unescape x y).isSome
  | _ => false

theorem decode_percent (h : opens bs = false) :
    decode (byte '%' :: bs) = byte '%' :: decode bs := by
  match bs with
  | [] => rfl
  | [_] => rfl
  | x :: y :: rest =>
      have hnone : unescape x y = none := by
        rw [← Option.not_isSome_iff_eq_none]
        exact Bool.not_eq_true _ ▸ h
      rw [decode, if_pos rfl, hnone]

theorem unescape_isSome (x y : UInt8) :
    (unescape x y).isSome = ((hexVal x).isSome && (hexVal y).isSome) := by
  unfold unescape
  cases hexVal x with
  | none => rfl
  | some i => cases hexVal y <;> rfl

theorem Idempotent.opens_encode (h : Idempotent keep) (bs : Bytes) :
    opens (encode keep bs) = opens bs := by
  have hpercent : (hexVal (byte '%')).isSome = false := by decide
  have hdigit : ∀ b : UInt8, keep b ≠ true → (hexVal b).isSome = false := by
    intro b hb
    by_contra hsome
    exact hb (h.digit b (Bool.not_eq_false _ ▸ hsome))
  match bs with
  | [] => rfl
  | [x] =>
      rw [encode_cons]
      split
      · rfl
      · simp [escape, opens, unescape_isSome, hpercent]
  | x :: y :: rest =>
      rw [encode_cons, encode_cons]
      by_cases hx : keep x = true
      · by_cases hy : keep y = true
        · rw [if_pos hx, if_pos hy]
          rfl
        · rw [if_pos hx, if_neg hy]
          simp [escape, opens, unescape_isSome, hpercent, hdigit y hy]
      · rw [if_neg hx]
        simp [escape, opens, unescape_isSome, hpercent, hdigit x hx]

theorem decode_cons (h : a = byte '%' → opens bs = false) :
    decode (a :: bs) = a :: decode bs := by
  by_cases ha : a = byte '%'
  · subst ha
    exact decode_percent (h rfl)
  · exact decode_cons_of_ne ha bs

theorem Idempotent.decode_encode_cons (h : Idempotent keep) (ha : a = byte '%' → opens bs = false)
    (ih : decode (encode keep bs) = decode bs) :
    decode (encode keep (a :: bs)) = decode (a :: bs) := by
  rw [encode_cons, decode_cons ha, ← ih]
  split
  · rw [List.singleton_append, decode_cons]
    rwa [h.opens_encode]
  · rw [decode_escape]

/-- What is not kept means the same as before. -/
theorem Idempotent.decode_encode (h : Idempotent keep) (bs : Bytes) :
    decode (encode keep bs) = decode bs := by
  induction bs using decode.induct with
  | case1 a x y rest b hb ih =>
      have ha : a = byte '%' := by
        by_contra hne
        rw [if_neg hne] at hb
        cases hb
      rw [if_pos ha] at hb
      have hboth : (hexVal x).isSome = true ∧ (hexVal y).isSome = true := by
        rw [← Bool.and_eq_true, ← unescape_isSome, hb]
        rfl
      rw [decode, if_pos ha, hb, encode_cons, encode_cons, encode_cons, if_pos (ha ▸ h.percent),
        if_pos (h.digit x hboth.1), if_pos (h.digit y hboth.2)]
      simp only [List.singleton_append]
      rw [decode, if_pos ha, hb, ih]
  | case2 a x y rest hnone ih =>
      refine h.decode_encode_cons (fun ha => ?_) ih
      rw [if_pos ha] at hnone
      exact congrArg Option.isSome hnone
  | case3 short hshort =>
      match short with
      | [] => rfl
      | [a] => exact h.decode_encode_cons (fun _ => rfl) rfl
      | [a, b] =>
          exact h.decode_encode_cons (fun _ => rfl) (h.decode_encode_cons (fun _ => rfl) rfl)
      | a :: x :: y :: rest => exact absurd rfl (hshort a x y rest)

theorem length_decode_le (bs : Bytes) : (decode bs).length ≤ bs.length := by
  induction bs using decode.induct with
  | case1 a x y rest b hb ih =>
      rw [decode, hb]
      simp only [List.length_cons]
      omega
  | case2 a x y rest hnone ih =>
      rw [decode, hnone]
      simp only [List.length_cons] at ih ⊢
      omega
  | case3 short hshort =>
      match short with
      | [] => exact le_rfl
      | [_] => exact le_rfl
      | [_, _] => exact le_rfl
      | a :: x :: y :: rest => exact absurd rfl (hshort a x y rest)

/-! ## Texts without escapes -/

theorem decode_eq_self_of_length (h : (decode bs).length = bs.length) : decode bs = bs := by
  induction bs using decode.induct with
  | case1 a x y rest b hb ih =>
      have hle := length_decode_le rest
      rw [decode, hb] at h
      simp only [List.length_cons] at h
      omega
  | case2 a x y rest hnone ih =>
      rw [decode, hnone] at h ⊢
      exact congrArg (a :: ·) (ih (Nat.succ.inj h))
  | case3 short hshort =>
      match short with
      | [] => rfl
      | [_] => rfl
      | [_, _] => rfl
      | a :: x :: y :: rest => exact absurd rfl (hshort a x y rest)

theorem decode_cons_eq_self (h : decode (a :: bs) = a :: bs) :
    (a = byte '%' → opens bs = false) ∧ decode bs = bs := by
  have hopens : a = byte '%' → opens bs = false := by
    rintro rfl
    match bs with
    | [] => rfl
    | [_] => rfl
    | x :: y :: rest =>
        by_contra hopen
        rw [Bool.not_eq_false] at hopen
        obtain ⟨b, hb⟩ := Option.isSome_iff_exists.mp hopen
        have hle := length_decode_le rest
        have hlength := congrArg List.length h
        rw [decode, if_pos rfl, hb] at hlength
        simp only [List.length_cons] at hlength
        omega
  refine ⟨hopens, ?_⟩
  rw [decode_cons hopens] at h
  exact (List.cons.inj h).2

/-- No escape goes across a byte that is neither a percent sign nor a digit. -/
theorem decode_append_cons (hne : b ≠ byte '%') (hb : (hexVal b).isSome = false) (bs cs : Bytes) :
    decode (bs ++ b :: cs) = decode bs ++ b :: decode cs := by
  have hstop : ∀ x, unescape x b = none ∧ ∀ y, unescape b y = none := by
    intro x
    constructor
    · rw [← Option.not_isSome_iff_eq_none, unescape_isSome, hb, Bool.and_false]
      exact Bool.false_ne_true
    · intro y
      rw [← Option.not_isSome_iff_eq_none, unescape_isSome, hb, Bool.false_and]
      exact Bool.false_ne_true
  have hopens : opens (b :: cs) = false := by
    match cs with
    | [] => rfl
    | y :: rest => exact Option.isSome_eq_false_iff.mpr (Option.isNone_iff_eq_none.mpr ((hstop b).2 y))
  induction bs using decode.induct with
  | case1 a x y rest c hc ih =>
      rw [List.cons_append, List.cons_append, List.cons_append, decode, hc]
      conv_rhs => rw [decode, hc]
      exact congrArg (c :: ·) ih
  | case2 a x y rest hnone ih =>
      rw [List.cons_append, List.cons_append, List.cons_append, decode, hnone]
      conv_rhs => rw [decode, hnone]
      exact congrArg (a :: ·) ih
  | case3 short hshort =>
      match short with
      | [] => exact decode_cons_of_ne hne cs
      | [a] =>
          change decode (a :: b :: cs) = a :: b :: decode cs
          rw [decode_cons fun _ => hopens, decode_cons_of_ne hne]
      | [a, x] =>
          have hopen : opens (x :: b :: cs) = false :=
            Option.isSome_eq_false_iff.mpr (Option.isNone_iff_eq_none.mpr (hstop x).1)
          change decode (a :: x :: b :: cs) = a :: x :: b :: decode cs
          rw [decode_cons fun _ => hopen, decode_cons fun _ => hopens, decode_cons_of_ne hne]
      | a :: x :: y :: rest => exact absurd rfl (hshort a x y rest)

/-! ## What encoding writes -/

theorem isEncoded_cons_of_ne (h : a ≠ byte '%') (bs : Bytes) :
    isEncoded keep (a :: bs) = (keep a && isEncoded keep bs) := by
  match bs with
  | [] => simp [isEncoded, h]
  | [x] => simp [isEncoded, h]
  | x :: y :: rest => rw [isEncoded, if_neg h]

theorem isEncoded_encode (hpercent : keep (byte '%') = false) (bs : Bytes) :
    isEncoded keep (encode keep bs) = true := by
  induction bs with
  | nil => rfl
  | cons b rest ih =>
      rw [encode_cons]
      split
      · rename_i hkeep
        have hne : b ≠ byte '%' := by
          rintro rfl
          rw [hpercent] at hkeep
          cases hkeep
        rw [List.singleton_append, isEncoded_cons_of_ne hne, hkeep, ih]
        rfl
      · rename_i hkeep
        have hvalue := unescape_hexUpper b
        unfold escape
        rw [List.cons_append, List.cons_append, List.cons_append, List.nil_append, isEncoded,
          if_pos rfl, hvalue, ih]
        simp [hkeep, escape]

theorem encode_decode_of_isEncoded (h : isEncoded keep bs = true) :
    encode keep (decode bs) = bs := by
  induction bs using isEncoded.induct with
  | case1 x y rest ih =>
      rw [isEncoded, if_pos rfl, Bool.and_eq_true, Option.any_eq_true] at h
      obtain ⟨⟨b, hb, hkeep⟩, hrest⟩ := h
      rw [Bool.and_eq_true, Bool.not_eq_true', beq_iff_eq] at hkeep
      rw [decode, if_pos rfl, hb, encode_cons, if_neg (by rw [hkeep.1]; decide), hkeep.2, ih hrest]
      rfl
  | case2 a x y rest hne ih =>
      rw [isEncoded_cons_of_ne hne, Bool.and_eq_true] at h
      rw [decode_cons_of_ne hne, encode_cons, if_pos h.1, ih h.2]
      rfl
  | case3 short hshort =>
      have hall : ∀ b ∈ short, b ≠ byte '%' ∧ keep b = true := by
        match short with
        | [] => exact fun _ hmem => absurd hmem List.not_mem_nil
        | [b] => simpa [isEncoded] using h
        | [b, c] => simpa [isEncoded] using h
        | a :: x :: y :: rest => exact absurd rfl (hshort a x y rest)
      have hdecode : decode short = short := by
        match short with
        | [] => rfl
        | [_] => rfl
        | [_, _] => rfl
        | a :: x :: y :: rest => exact absurd rfl (hshort a x y rest)
      rw [hdecode]
      exact encode_eq_self fun b hb => (hall b hb).2

/-- Decoding and encoding again gives back what encoding writes, and nothing else. -/
theorem encode_decode_iff (hpercent : keep (byte '%') = false) :
    encode keep (decode bs) = bs ↔ isEncoded keep bs = true := by
  constructor
  · intro h
    rw [← h]
    exact isEncoded_encode hpercent _
  · exact encode_decode_of_isEncoded

end Percent
