import FullStackHex.Library.Codec

/-!
HTTP header values as bytes, header lists with names in lower case, and the
reading of a value as text.
-/

namespace Http

/-- The character with the code of a byte. -/
def charOfByte (b : UInt8) : Char := Char.ofNat b.toNat

/-- A tab, or a byte that is no control character. -/
def legalByte (b : UInt8) : Bool := b == 9 || (32 ≤ b && b != 127)

/-- A tab, or printable ASCII. -/
def visibleByte (b : UInt8) : Bool := b == 9 || (32 ≤ b && b < 127)

structure HeaderValue where
  bytes : List UInt8
  legal : ∀ b ∈ bytes, legalByte b = true
  deriving DecidableEq, Repr

/-- The bytes of an ASCII text. -/
def bytesOf (s : String) : List UInt8 := s.toList.map fun c => UInt8.ofNat c.toNat

/-- The text of printable bytes. -/
def textOf (bytes : List UInt8) : String := String.ofList (bytes.map charOfByte)

def HeaderValue.readable (v : HeaderValue) : Bool := v.bytes.all visibleByte

/-- A value as text; `none` when a byte is not printable ASCII. -/
def HeaderValue.toStr (v : HeaderValue) : Option String :=
  if v.readable then some (textOf v.bytes) else none

theorem legalByte_of_visible {b : UInt8} (h : visibleByte b = true) : legalByte b = true := by
  unfold visibleByte legalByte at *
  simp only [Bool.or_eq_true, Bool.and_eq_true, beq_iff_eq, decide_eq_true_eq, bne_iff_ne] at *
  rcases h with h | ⟨hlow, hhigh⟩
  · exact .inl h
  · refine .inr ⟨hlow, ?_⟩
    rintro rfl
    exact absurd hhigh (by decide)

abbrev Headers := List (String × HeaderValue)

/-- All values under a name, in order. -/
def Headers.getAll (headers : Headers) (name : String) : List HeaderValue :=
  (headers.filter fun h => h.1 = name).map Prod.snd

/-- The first value under a name. -/
def Headers.get (headers : Headers) (name : String) : Option HeaderValue :=
  (headers.getAll name).head?

/-- White space at both ends, as far as a header can contain it. -/
def trim (s : List Char) : List Char := Codec.trimBy Char.isWhitespace s

theorem Headers.getAll_append (h₁ h₂ : Headers) (name : String) :
    Headers.getAll (h₁ ++ h₂) name = h₁.getAll name ++ h₂.getAll name := by
  simp [Headers.getAll]

/-- The values under a name that a filter of names removes. -/
theorem Headers.getAll_filter_eq_nil {headers : Headers} {names : List String} {name : String}
    (h : name ∈ names) : Headers.getAll (headers.filter fun e => e.1 ∉ names) name = [] := by
  unfold Headers.getAll
  rw [List.filter_filter, List.filter_eq_nil_iff.mpr]
  · rfl
  · intro e _
    simp only [Bool.and_eq_true, decide_eq_true_eq, not_and]
    rintro rfl
    simpa using h

end Http
