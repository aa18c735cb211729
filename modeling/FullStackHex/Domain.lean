import Mathlib

/-!
Types that all parts of the backend share: identifiers, rows of the two
tables, sessions, and the errors that the handlers return.
-/

namespace FullStackHex

def isHexDigit (c : Char) : Bool :=
  ('0' ≤ c && c ≤ '9') || ('a' ≤ c && c ≤ 'f') || ('A' ≤ c && c ≤ 'F')

/-- The white space of Rust, which `str::trim` takes away. -/
def isWhiteSpace (c : Char) : Bool :=
  let n := c.toNat
  (9 ≤ n && n ≤ 13) || n == 0x20 || n == 0x85 || n == 0xa0 || n == 0x1680
    || (0x2000 ≤ n && n ≤ 0x200a) || n == 0x2028 || n == 0x2029 || n == 0x202f || n == 0x205f
    || n == 0x3000

def isUuid (s : String) : Bool :=
  s.toList.length == 36 && s.toList.zipIdx.all fun (c, i) =>
    if i == 8 || i == 13 || i == 18 || i == 23 then c == '-' else isHexDigit c

theorem isUuid_getElem {s : String} (h : isUuid s = true) :
    s.toList.length = 36 ∧ ∀ i c, s.toList[i]? = some c →
      if i = 8 ∨ i = 13 ∨ i = 18 ∨ i = 23 then c = '-' else isHexDigit c = true := by
  rw [isUuid, Bool.and_eq_true, beq_iff_eq, List.all_eq_true] at h
  refine ⟨h.1, fun i c hc => ?_⟩
  have hchar := h.2 (c, i) (List.mem_zipIdx_iff_getElem?.mpr hc)
  simp only [Bool.or_eq_true, beq_iff_eq, or_assoc] at hchar
  split at hchar
  · rename_i hplace
    rw [if_pos hplace]
    exact beq_iff_eq.mp hchar
  · rename_i hplace
    rw [if_neg hplace]
    exact hchar

/-- The text form of a `uuid` column. User ids are read from one. -/
structure Uuid where
  text : String
  wellFormed : isUuid text = true
  deriving DecidableEq, Repr

/-- A character of the text form is a hexadecimal digit or a hyphen. -/
theorem Uuid.char_cases (u : Uuid) {c : Char} (h : c ∈ u.text.toList) :
    isHexDigit c = true ∨ c = '-' := by
  have hall := u.wellFormed
  unfold isUuid at hall
  rw [Bool.and_eq_true, List.all_eq_true] at hall
  obtain ⟨i, hi⟩ := List.mem_iff_getElem?.mp h
  have hc := hall.2 (c, i) (List.mem_zipIdx_iff_getElem?.mpr hi)
  simp only at hc
  split at hc
  · exact Or.inr (by simpa using hc)
  · exact Or.inl hc

/-- `std::time::Duration`. -/
structure Duration where
  secs : UInt64
  nanos : Nat
  bound : nanos < 1000000000
  deriving DecidableEq, Repr

def Duration.ofSecs (secs : UInt64) : Duration := ⟨secs, 0, by decide⟩

def Duration.asMillis (d : Duration) : Nat := d.secs.toNat * 1000 + d.nanos / 1000000

def Duration.asNanos (d : Duration) : Nat := d.secs.toNat * 1000000000 + d.nanos

def Duration.ofMillis (ms : UInt64) : Duration where
  secs := ms / 1000
  nanos := ms.toNat % 1000 * 1000000
  bound := by omega

/-- Session data stored in Redis. -/
structure Session where
  userId : Uuid
  email : String
  name : Option String
  provider : String
  createdAt : Nat
  deriving DecidableEq, Repr

/-- A row of `users`. -/
structure User where
  id : Uuid
  email : String
  name : Option String
  provider : String
  passwordHash : Option String
  deriving DecidableEq, Repr

/-- What both `timestamptz` and `DateTime<Utc>` can hold, in microseconds since the epoch, from
4713 BC to December 31 of the year 262142. -/
structure Timestamp where
  micros : Int
  low : -210866803200000000 ≤ micros
  high : micros ≤ 8210266876799999999
  deriving DecidableEq, Repr

/-- A row of `notes`. -/
structure Note where
  id : Uuid
  userId : Uuid
  title : String
  body : String
  createdAt : Timestamp
  updatedAt : Timestamp
  deriving DecidableEq, Repr

inductive CacheError where
  | commandFailed (message : String)
  | serializationFailed (message : String)
  | sessionNotFound
  | backoffBlocked (remainingSecs count : Nat) (label : String)
  deriving DecidableEq, Repr

def CacheError.display : CacheError → String
  | .commandFailed m => "redis command failed: " ++ m
  | .serializationFailed m => "serialization failed: " ++ m
  | .sessionNotFound => "session not found"
  | .backoffBlocked remaining count label =>
      "backoff blocked: " ++ toString count ++ " failures, " ++ label ++ " cooldown, "
        ++ toString remaining ++ "s remaining"

inductive ApiError where
  | unauthorized (message : String)
  | forbidden (message : String)
  | notFound (message : String)
  | validationError (message : String)
  | rateLimited (message : String)
  | conflict (message : String)
  | internalError (message : String)
  | serviceUnavailable (message : String)
  deriving DecidableEq, Repr

def ApiError.status : ApiError → Nat
  | .unauthorized _ => 401
  | .forbidden _ => 403
  | .notFound _ => 404
  | .validationError _ => 422
  | .conflict _ => 409
  | .rateLimited _ => 429
  | .internalError _ => 500
  | .serviceUnavailable _ => 503

/-- `From<CacheError> for ApiError`. -/
def CacheError.toApi : CacheError → ApiError
  | .commandFailed m => .internalError ("Redis error: " ++ m)
  | .serializationFailed m => .internalError m
  | .sessionNotFound => .unauthorized "Session not found"
  | .backoffBlocked remaining count label =>
      .rateLimited ("Too many attempts (" ++ toString count ++ " failures). Try again in "
        ++ toString remaining ++ " seconds (" ++ label ++ " cooldown).")

theorem bind_ok {ε α β : Type} {x : Except ε α} {f : α → Except ε β} {b : β}
    (h : x >>= f = .ok b) : ∃ a, x = .ok a ∧ f a = .ok b := by
  cases x with
  | error e => cases h
  | ok a => exact ⟨a, rfl, h⟩

/-! Two users, for concrete runs. -/

namespace Sample

def alice : Uuid := ⟨"11111111-1111-1111-1111-111111111111", by decide⟩

def bob : Uuid := ⟨"22222222-2222-2222-2222-222222222222", by decide⟩

end Sample

end FullStackHex
