import Mathlib

/-!
A limiter that admits at most `max` events in any window of a fixed length, by
the times of the events it has admitted so far.
-/

namespace SlidingWindow

/-- How many of the admitted times lie in `(now - length, now]`. -/
def counted (length now : Nat) (past : List Nat) : Nat :=
  past.countP fun a => now < a + length ∧ a ≤ now

def admits (length max now : Nat) (past : List Nat) : Bool := counted length now past < max

/-- The admitted times after an event at `now`. -/
def record (length max : Nat) (past : List Nat) (now : Nat) : List Nat :=
  if admits length max now past then past ++ [now] else past

/-- No half-open interval of the length holds more than `max` of the times. -/
structure Bounded (length max : Nat) (past : List Nat) : Prop where
  afterStart : ∀ x, (past.countP fun a => x < a ∧ a ≤ x + length) ≤ max
  beforeEnd : ∀ x, (past.countP fun a => x ≤ a ∧ a < x + length) ≤ max

variable {length max now : Nat} {past : List Nat}

/-- What still counts is decided by the start of the window alone. -/
theorem counted_eq_length_filter (hpast : ∀ a ∈ past, a ≤ now) :
    counted length now past = (past.filter fun a => now < a + length).length := by
  rw [counted, List.countP_eq_length_filter]
  congr 1
  apply List.filter_congr
  intro a ha
  simp [hpast a ha]

theorem Bounded.nil : Bounded length max [] := ⟨fun _ => Nat.zero_le _, fun _ => Nat.zero_le _⟩

theorem mem_record {a : Nat} (h : a ∈ record length max past now) : a ∈ past ∨ a = now := by
  unfold record at h
  split at h
  · simpa using h
  · exact .inl h

theorem le_of_mem_record (hpast : ∀ a ∈ past, a ≤ now) : ∀ a ∈ record length max past now, a ≤ now := by
  intro a ha
  rcases mem_record ha with hmem | rfl
  · exact hpast a hmem
  · exact le_rfl

/-- An interval that reaches up to the newest event holds nothing of the past but what
the limiter counted when it admitted the event. -/
theorem countP_snoc_le {p : Nat → Bool} (hallowed : counted length now past < max)
    (hbound : past.countP p ≤ max)
    (hwindow : p now = true → ∀ a ∈ past, p a = true → now < a + length ∧ a ≤ now) :
    (past ++ [now]).countP p ≤ max := by
  rw [List.countP_append, List.countP_singleton]
  split
  · rename_i hnow
    have hle : past.countP p ≤ counted length now past := by
      apply List.countP_mono_left
      intro a ha hpa
      simpa using hwindow hnow a ha hpa
    omega
  · exact hbound

theorem Bounded.record (hpast : ∀ a ∈ past, a ≤ now) (h : Bounded length max past) :
    Bounded length max (record length max past now) := by
  unfold SlidingWindow.record
  split
  · rename_i hallowed
    have hcount : counted length now past < max := of_decide_eq_true hallowed
    constructor
    · intro x
      apply countP_snoc_le hcount (h.afterStart x)
      intro hnow a ha hpa
      simp only [decide_eq_true_eq] at hnow hpa
      have hle := hpast a ha
      omega
    · intro x
      apply countP_snoc_le hcount (h.beforeEnd x)
      intro hnow a ha hpa
      simp only [decide_eq_true_eq] at hnow hpa
      have hle := hpast a ha
      omega
  · exact h

end SlidingWindow
