import Mathlib

/-!
Natural numbers rounded to a fixed number of significant bits, to the nearest such number and to
an even significand where two are equally near, as a floating-point format without subnormals
does it. `bits` is one less than the number of significant bits.
-/

namespace Rounding

variable (bits : Nat)

/-- The distance between two neighbours of the format at the size of `n`. -/
def unit (n : Nat) : Nat := 2 ^ (n.log2 - bits)

/-- The largest number of the format that is at most `n`. -/
def low (n : Nat) : Nat := n / unit bits n * unit bits n

def round (n : Nat) : Nat :=
  if unit bits n < 2 * (n % unit bits n) ∨
      (unit bits n = 2 * (n % unit bits n) ∧ n / unit bits n % 2 = 1)
  then low bits n + unit bits n
  else low bits n

/-- A number of the format. -/
def Exact (n : Nat) : Prop := unit bits n ∣ n

variable {bits} {m n : Nat}

theorem unit_pos (n : Nat) : 0 < unit bits n := Nat.two_pow_pos _

theorem low_le (n : Nat) : low bits n ≤ n := Nat.div_mul_le_self _ _

theorem lt_low_add (n : Nat) : n < low bits n + unit bits n := by
  have hmod := Nat.mod_lt n (@unit_pos bits n)
  have hsplit := Nat.div_add_mod' n (unit bits n)
  unfold low
  omega

theorem low_le_round (n : Nat) : low bits n ≤ round bits n := by
  unfold round
  split
  · exact Nat.le_add_right _ _
  · exact le_rfl

theorem round_le (n : Nat) : round bits n ≤ low bits n + unit bits n := by
  unfold round
  split
  · exact le_rfl
  · exact Nat.le_add_right _ _

/-- A number is less than a unit above its rounding. -/
theorem lt_round_add (n : Nat) : n < round bits n + unit bits n :=
  (lt_low_add n).trans_le (Nat.add_le_add_right (low_le_round n) _)

theorem log2_le_log2 (h : m ≤ n) : m.log2 ≤ n.log2 := by
  rw [Nat.log2_eq_log_two, Nat.log2_eq_log_two]
  exact Nat.log_mono_right h

theorem unit_mono (h : m ≤ n) : unit bits m ∣ unit bits n := by
  apply Nat.pow_dvd_pow
  have hlog := log2_le_log2 h
  omega

/-- Small numbers are in the format. -/
theorem unit_of_lt (h : n < 2 ^ (bits + 1)) : unit bits n = 1 := by
  have hlog : n.log2 < bits + 1 := by
    by_cases hn : n = 0
    · subst hn
      simp
    · exact (Nat.log2_lt hn).mpr h
  unfold unit
  rw [Nat.sub_eq_zero_of_le (by omega), Nat.pow_zero]

theorem Exact.low_eq (h : Exact bits n) : low bits n = n := Nat.div_mul_cancel h

theorem Exact.round_eq (h : Exact bits n) : round bits n = n := by
  have hmod : n % unit bits n = 0 := Nat.mod_eq_zero_of_dvd h
  have hpos := @unit_pos bits n
  unfold round
  rw [hmod, if_neg (by omega), h.low_eq]

theorem exact_of_lt (h : n < 2 ^ (bits + 1)) : Exact bits n := by
  unfold Exact
  rw [unit_of_lt h]
  exact one_dvd _

/-- A power of two that is not too small is in the format. -/
theorem exact_pow (e : Nat) : Exact bits (2 ^ e) := by
  unfold Exact unit
  rw [Nat.log2_two_pow]
  exact Nat.pow_dvd_pow 2 (Nat.sub_le e bits)

theorem unit_dvd_low (n : Nat) : unit bits n ∣ low bits n := Dvd.intro_left _ rfl

theorem unit_dvd_round (n : Nat) : unit bits n ∣ round bits n := by
  unfold round
  split
  · exact dvd_add (unit_dvd_low n) dvd_rfl
  · exact unit_dvd_low n

/-- The power of two below a number is not above what it is cut down to. -/
theorem pow_log_le_low (hn : n ≠ 0) : 2 ^ n.log2 ≤ low bits n := by
  have hdvd : unit bits n ∣ 2 ^ n.log2 := Nat.pow_dvd_pow 2 (Nat.sub_le _ _)
  obtain ⟨k, hk⟩ := hdvd
  have hle : 2 ^ n.log2 ≤ n := Nat.log2_self_le hn
  have hdiv : k ≤ n / unit bits n := by
    rw [Nat.le_div_iff_mul_le (unit_pos n), Nat.mul_comm, ← hk]
    exact hle
  rw [hk, Nat.mul_comm]
  exact Nat.mul_le_mul_right _ hdiv

theorem round_lt_pow (n : Nat) : low bits n + unit bits n ≤ 2 ^ (n.log2 + 1) := by
  have hdvd : unit bits n ∣ 2 ^ (n.log2 + 1) := Nat.pow_dvd_pow 2 (by omega)
  obtain ⟨k, hk⟩ := hdvd
  have hlt : n / unit bits n < k := by
    rw [Nat.div_lt_iff_lt_mul (unit_pos n), Nat.mul_comm, ← hk]
    exact Nat.lt_log2_self
  have hsum : low bits n + unit bits n = (n / unit bits n + 1) * unit bits n := by
    unfold low
    rw [Nat.add_mul, Nat.one_mul]
  rw [hsum, hk, Nat.mul_comm (unit bits n)]
  exact Nat.mul_le_mul_right _ hlt

/-- What a number is rounded to is in the format. -/
theorem exact_round (n : Nat) : Exact bits (round bits n) := by
  by_cases hn : n = 0
  · subst hn
    exact exact_of_lt (by simp [round, low])
  have hle := @round_le bits n
  have hpow := @round_lt_pow bits n
  rcases Nat.lt_or_ge (round bits n) (2 ^ (n.log2 + 1)) with hlt | hge
  · have hlog : (round bits n).log2 ≤ n.log2 := by
      by_cases hzero : round bits n = 0
      · rw [hzero]
        simp
      · exact Nat.lt_succ_iff.mp ((Nat.log2_lt hzero).mpr hlt)
    have hunit : unit bits (round bits n) ∣ unit bits n := Nat.pow_dvd_pow 2 (by omega)
    exact hunit.trans (unit_dvd_round n)
  · rw [show round bits n = 2 ^ (n.log2 + 1) by omega]
    exact exact_pow _

theorem round_round (n : Nat) : round bits (round bits n) = round bits n :=
  (exact_round n).round_eq

/-- Rounding does not pass a number of the format on its way down. -/
theorem Exact.le_round (h : Exact bits m) (hle : m ≤ n) : m ≤ round bits n := by
  refine le_trans ?_ (low_le_round n)
  by_cases hm : m = 0
  · omega
  rcases (log2_le_log2 hle).lt_or_eq with hlt | heq
  · have hpow : m < 2 ^ n.log2 := (Nat.log2_lt hm).mp hlt
    exact hpow.le.trans (pow_log_le_low (by omega))
  · have hunit : unit bits m = unit bits n := by unfold unit; rw [heq]
    obtain ⟨k, hk⟩ := h
    rw [hunit] at hk
    have hdiv : k ≤ n / unit bits n := by
      rw [Nat.le_div_iff_mul_le (unit_pos n), Nat.mul_comm, ← hk]
      exact hle
    rw [hk, Nat.mul_comm]
    exact Nat.mul_le_mul_right _ hdiv

/-- Nor on its way up. -/
theorem Exact.round_le (h : Exact bits m) (hle : n ≤ m) : round bits n ≤ m := by
  rcases hle.eq_or_lt with rfl | hlt
  · exact h.round_eq.le
  refine le_trans (Rounding.round_le n) ?_
  rcases (log2_le_log2 hle).lt_or_eq with hlog | heq
  · refine (round_lt_pow n).trans (le_trans (Nat.pow_le_pow_right (by omega) hlog) ?_)
    exact Nat.log2_self_le (by omega)
  · have hunit : unit bits m = unit bits n := by unfold unit; rw [heq]
    obtain ⟨k, hk⟩ := h
    rw [hunit] at hk
    have hdiv : n / unit bits n < k := by
      rw [Nat.div_lt_iff_lt_mul (unit_pos n), Nat.mul_comm, ← hk]
      exact hlt
    have hsum : low bits n + unit bits n = (n / unit bits n + 1) * unit bits n := by
      unfold low
      rw [Nat.add_mul, Nat.one_mul]
    rw [hsum, hk, Nat.mul_comm (unit bits n)]
    exact Nat.mul_le_mul_right _ hdiv

/-- The two ways a number is rounded. -/
theorem round_cases (n : Nat) :
    (round bits n = low bits n ∧ 2 * (n % unit bits n) ≤ unit bits n) ∨
      (round bits n = low bits n + unit bits n ∧ unit bits n ≤ 2 * (n % unit bits n)) := by
  unfold round
  split
  · rename_i hup
    exact Or.inr ⟨rfl, by omega⟩
  · rename_i hup
    exact Or.inl ⟨rfl, by omega⟩

theorem low_add_mod (n : Nat) : low bits n + n % unit bits n = n :=
  Nat.div_add_mod' n (unit bits n)

/-- Rounding keeps the order. -/
theorem round_mono (h : m ≤ n) : round bits m ≤ round bits n := by
  rcases Nat.lt_or_ge n (round bits m) with hlt | hge
  · -- then both lie between the same two neighbours, and the lower one is already rounded up
    have hm0 : m ≠ 0 := by
      rintro rfl
      simp [round, low] at hlt
    have hlow := @lt_low_add bits m
    have hmod := @low_add_mod bits m
    rcases @round_cases bits m with ⟨hdown, -⟩ | ⟨hup, hhalf⟩
    · have := @low_le bits m
      omega
    have hpow := @round_lt_pow bits m
    have hlog : n.log2 = m.log2 := by
      apply le_antisymm _ (log2_le_log2 h)
      exact Nat.lt_succ_iff.mp ((Nat.log2_lt (by omega)).mpr (by omega))
    have hunit : unit bits n = unit bits m := by
      unfold unit
      rw [hlog]
    have hdiv : n / unit bits m = m / unit bits m := by
      apply le_antisymm _ (Nat.div_le_div_right h)
      apply Nat.lt_succ_iff.mp
      rw [Nat.div_lt_iff_lt_mul (unit_pos m), Nat.succ_mul]
      change n < low bits m + unit bits m
      omega
    have hlown : low bits n = low bits m := by
      unfold low
      rw [hunit, hdiv]
    have hmodn := @low_add_mod bits n
    rw [hunit, hlown] at hmodn
    have hupm : unit bits m < 2 * (m % unit bits m) ∨
        (unit bits m = 2 * (m % unit bits m) ∧ m / unit bits m % 2 = 1) := by
      by_contra hno
      have : round bits m = low bits m := if_neg hno
      have := @unit_pos bits m
      omega
    have hupn : round bits n = low bits n + unit bits n := by
      apply if_pos
      rw [hunit, hdiv]
      omega
    omega
  · exact (exact_round m).le_round hge

end Rounding
