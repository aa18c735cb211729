import FullStackHex.Library.Codec

/-!
Two ways to write a text as a JSON string: one escapes what JSON demands, the
other also everything that is not printable ASCII.
-/

namespace JsonText

def unicodeEscape (n : Nat) : List Char :=
  ['\\', 'u', Nat.digitChar (n / 4096 % 16), Nat.digitChar (n / 256 % 16),
    Nat.digitChar (n / 16 % 16), Nat.digitChar (n % 16)]

/-- The escapes of two characters. -/
def shortEscape (c : Char) : Option (List Char) :=
  match c.toNat with
  | 34 => some ['\\', '"']
  | 92 => some ['\\', '\\']
  | 8 => some ['\\', 'b']
  | 9 => some ['\\', 't']
  | 10 => some ['\\', 'n']
  | 12 => some ['\\', 'f']
  | 13 => some ['\\', 'r']
  | _ => none

/-- `serde_json`: quotes, backslashes and control characters. -/
def escape (c : Char) : List Char :=
  match shortEscape c with
  | some text => text
  | none => if c.toNat < 32 then unicodeEscape c.toNat else [c]

/-- Python's `json` with `ensure_ascii`: whatever is not between a blank and a tilde, beyond
16 bits as two surrogates. -/
def escapeAscii (c : Char) : List Char :=
  match shortEscape c with
  | some text => text
  | none =>
      let n := c.toNat
      if 32 ≤ n ∧ n ≤ 126 then [c]
      else if n < 65536 then unicodeEscape n
      else unicodeEscape (0xd800 + (n - 65536) / 1024) ++ unicodeEscape (0xdc00 + n % 1024)

def quote (s : List Char) : List Char := '"' :: s.flatMap escape ++ ['"']

def quoteAscii (s : List Char) : List Char := '"' :: s.flatMap escapeAscii ++ ['"']

/-- Between a blank and a tilde. -/
def printable (c : Char) : Bool := 32 ≤ c.toNat && c.toNat ≤ 126

theorem printable_digitChar : ∀ n < 16, printable (Nat.digitChar n) = true := by decide

theorem printable_unicodeEscape (n : Nat) : (unicodeEscape n).all printable = true := by
  simp only [unicodeEscape, List.all_cons, List.all_nil, Bool.and_true, Bool.and_eq_true,
    printable_digitChar _ (Nat.mod_lt _ (by omega : 16 > 0)), and_true]
  decide

theorem printable_shortEscape {c : Char} {text : List Char} (h : shortEscape c = some text) :
    text.all printable = true := by
  unfold shortEscape at h
  split at h <;> cases h <;> decide

/-- What Python writes is printable ASCII. -/
theorem printable_escapeAscii (c : Char) : (escapeAscii c).all printable = true := by
  unfold escapeAscii
  split
  · exact printable_shortEscape ‹_›
  · dsimp only
    split
    · rename_i h
      simpa [printable] using h
    · split
      · exact printable_unicodeEscape _
      · rw [List.all_append, printable_unicodeEscape, printable_unicodeEscape]
        rfl

/-- The two agree on ASCII but for DEL. -/
theorem escape_eq_ascii {c : Char} (h : c.toNat < 127) : escape c = escapeAscii c := by
  unfold escape escapeAscii
  split
  · rfl
  · dsimp only
    by_cases hlow : c.toNat < 32
    · rw [if_pos hlow, if_neg (by omega), if_pos (by omega)]
    · rw [if_neg hlow, if_pos (by omega)]

/-- A character that `serde_json` writes as printable ASCII is ASCII and not DEL. -/
theorem lt_of_printable_escape {c : Char} (h : (escape c).all printable = true) :
    c.toNat < 127 := by
  unfold escape at h
  split at h
  · rename_i text hshort
    unfold shortEscape at hshort
    split at hshort <;> first | omega | cases hshort
  · split at h
    · omega
    · simp only [List.all_cons, List.all_nil, Bool.and_true, printable, Bool.and_eq_true,
        decide_eq_true_eq] at h
      omega

theorem escape_ne_nil (c : Char) : escape c ≠ [] := by
  unfold escape
  split
  · rename_i text hshort
    unfold shortEscape at hshort
    split at hshort <;> cases hshort <;> simp
  · split <;> simp [unicodeEscape]

end JsonText
