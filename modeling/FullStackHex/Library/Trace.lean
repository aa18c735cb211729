import Mathlib

/-!
Runs of a machine whose steps may not be possible: properties of all states on the
way, and conditions on all steps. Runs without an end, which rest only where no step is possible.
-/

namespace Trace

variable {σ κ : Type} {step : σ → κ → Option σ} {s : σ} {steps : List κ}

/-- Take the steps one after another, if each of them is possible. -/
def run (step : σ → κ → Option σ) (s : σ) (steps : List κ) : Option σ := steps.foldlM step s

/-- What every step keeps is kept by every run. -/
theorem run_keeps {inv : σ → Prop} (hstep : ∀ s c s', inv s → step s c = some s' → inv s')
    {s' : σ} (hinv : inv s) (hrun : run step s steps = some s') : inv s' := by
  induction steps generalizing s with
  | nil =>
      obtain rfl := Option.some.inj hrun
      exact hinv
  | cons c rest ih =>
      obtain ⟨mid, hmid, htail⟩ := Option.bind_eq_some_iff.mp hrun
      exact ih (hstep s c mid hinv hmid) htail

/-- Every state on the way has the property. -/
def Throughout (step : σ → κ → Option σ) (p : σ → Prop) (s : σ) : List κ → Prop
  | [] => p s
  | c :: rest => p s ∧ ∀ s', step s c = some s' → Throughout step p s' rest

/-- Every step on the way meets the condition, in the state that it is taken in. -/
def Each (step : σ → κ → Option σ) (q : σ → κ → Prop) (s : σ) : List κ → Prop
  | [] => True
  | c :: rest => ∀ s', step s c = some s' → q s c ∧ Each step q s' rest

instance decidableEach {q : σ → κ → Prop} [∀ s c, Decidable (q s c)] (s : σ) (steps : List κ) :
    Decidable (Each step q s steps) :=
  match steps with
  | [] => isTrue trivial
  | c :: rest =>
      match h : step s c with
      | none => isTrue fun _ hs' => nomatch h.symm.trans hs'
      | some s' =>
          have : Decidable (Each step q s' rest) := decidableEach s' rest
          decidable_of_iff (q s c ∧ Each step q s' rest)
            ⟨fun hboth _ ht => Option.some.inj (h.symm.trans ht) ▸ hboth, fun hall => hall s' h⟩

theorem throughout_iff {p : σ → Prop} :
    Throughout step p s steps ↔ ∀ n s', run step s (steps.take n) = some s' → p s' := by
  induction steps generalizing s with
  | nil =>
      constructor
      · intro h n s' hrun
        rw [List.take_nil] at hrun
        obtain rfl := Option.some.inj hrun
        exact h
      · exact fun h => h 0 s rfl
  | cons c rest ih =>
      constructor
      · rintro ⟨hfirst, hrest⟩ n s' hrun
        cases n with
        | zero =>
            obtain rfl := Option.some.inj hrun
            exact hfirst
        | succ n =>
            obtain ⟨mid, hmid, htail⟩ := Option.bind_eq_some_iff.mp hrun
            exact ih.mp (hrest mid hmid) n s' htail
      · intro h
        refine ⟨h 0 s rfl, fun mid hmid => ih.mpr fun n s' hrun => ?_⟩
        exact h (n + 1) s' (Option.bind_eq_some_iff.mpr ⟨mid, hmid, hrun⟩)

theorem Throughout.head {p : σ → Prop} (h : Throughout step p s steps) : p s := by
  cases steps with
  | nil => exact h
  | cons c rest => exact h.1

/-- What the steps that meet the condition keep holds throughout every run of such steps. -/
theorem Each.throughout {p : σ → Prop} {q : σ → κ → Prop} (h : Each step q s steps)
    (inv : σ → Prop) (hstep : ∀ s c s', inv s → q s c → step s c = some s' → inv s')
    (hp : ∀ s, inv s → p s) (hinv : inv s) : Throughout step p s steps := by
  induction steps generalizing s with
  | nil => exact hp s hinv
  | cons c rest ih =>
      refine ⟨hp s hinv, fun s' hs' => ?_⟩
      obtain ⟨hq, hrest⟩ := h s' hs'
      exact ih hrest (hstep s c s' hinv hq hs')

/-- A property that exactly the steps of one kind keep holds throughout exactly the runs of such
steps. The invariant may speak of the steps to come. -/
theorem throughout_iff_each {p : σ → Prop} {q : σ → κ → Prop} (inv : σ → List κ → Prop)
    (hstep : ∀ s c rest s', inv s (c :: rest) → p s → step s c = some s' →
      (p s' ↔ q s c) ∧ (q s c → inv s' rest))
    (hinv : inv s steps) (hp : p s) : Throughout step p s steps ↔ Each step q s steps := by
  induction steps generalizing s with
  | nil => exact ⟨fun _ => trivial, fun _ => hp⟩
  | cons c rest ih =>
      constructor
      · rintro ⟨-, hrest⟩ s' hs'
        obtain ⟨hiff, hnext⟩ := hstep s c rest s' hinv hp hs'
        have hafter := (hrest s' hs').head
        have hq := hiff.mp hafter
        exact ⟨hq, (ih (hnext hq) hafter).mp (hrest s' hs')⟩
      · intro h
        refine ⟨hp, fun s' hs' => ?_⟩
        obtain ⟨hiff, hnext⟩ := hstep s c rest s' hinv hp hs'
        obtain ⟨hq, hrest⟩ := h s' hs'
        exact (ih (hnext hq) (hiff.mpr hq)).mpr hrest

/-! ## Runs without an end -/

/-- A run by steps of one kind that rests, if it does, only where there is no such step. -/
structure Endless (step : σ → κ → Option σ) (allowed : σ → κ → Prop) (states : Nat → σ)
    (labels : Nat → Option κ) : Prop where
  move : ∀ n c, labels n = some c →
    allowed (states n) c ∧ step (states n) c = some (states (n + 1))
  rest : ∀ n, labels n = none →
    states (n + 1) = states n ∧ ∀ c, allowed (states n) c → step (states n) c = none

section Endless

variable {allowed : σ → κ → Prop} {states : Nat → σ} {labels : Nat → Option κ}

theorem Endless.keeps (h : Endless step allowed states labels) (inv : σ → Prop)
    (hstep : ∀ s c s', inv s → allowed s c → step s c = some s' → inv s') {m n : Nat} (hle : m ≤ n)
    (hinv : inv (states m)) : inv (states n) := by
  induction n, hle using Nat.le_induction with
  | base => exact hinv
  | succ n _ ih =>
      cases hlabel : labels n with
      | none =>
          rw [(h.rest n hlabel).1]
          exact ih
      | some c =>
          obtain ⟨hallowed, hnext⟩ := h.move n c hlabel
          exact hstep _ _ _ ih hallowed hnext

/-- Where a step is possible the run goes on. -/
theorem Endless.goes (h : Endless step allowed states labels) {n : Nat} {c : κ} {s' : σ}
    (hallowed : allowed (states n) c) (hc : step (states n) c = some s') :
    ∃ c', labels n = some c' := by
  cases hlabel : labels n with
  | none => exact nomatch ((h.rest n hlabel).2 c hallowed).symm.trans hc
  | some c' => exact ⟨c', rfl⟩

/-- What each moment without it brings closer comes. -/
theorem eventually_of_measure {p : Nat → Prop} (measure : Nat → Nat) (m : Nat)
    (h : ∀ n, m ≤ n → ¬ p n → measure (n + 1) < measure n) : ∃ n, m ≤ n ∧ p n := by
  by_contra hnever
  have hless : ∀ k, measure (m + k) + k ≤ measure m := by
    intro k
    induction k with
    | zero => exact Nat.le_refl _
    | succ k ih =>
        have hdown := h (m + k) (Nat.le_add_right m k) fun hp =>
          hnever ⟨m + k, Nat.le_add_right m k, hp⟩
        change measure (m + k + 1) + (k + 1) ≤ measure m
        omega
  have hend := hless (measure m + 1)
  omega

/-- The run that takes the step which `next` chooses. -/
def follow (step : σ → κ → Option σ) (next : σ → Option κ) (s : σ) : Nat → σ
  | 0 => s
  | n + 1 => ((next (follow step next s n)).bind (step (follow step next s n))).getD
      (follow step next s n)

theorem Endless.of_follow {next : σ → Option κ} (s : σ)
    (hnext : ∀ s c, next s = some c → allowed s c ∧ ∃ s', step s c = some s')
    (hrest : ∀ s, next s = none → ∀ c, allowed s c → step s c = none) :
    Endless step allowed (follow step next s) fun n => next (follow step next s n) where
  move := by
    intro n c hc
    obtain ⟨hallowed, s', hs'⟩ := hnext _ c hc
    refine ⟨hallowed, ?_⟩
    change _ = some (((next (follow step next s n)).bind _).getD _)
    rw [hc, Option.bind_some, hs', Option.getD_some]
  rest := by
    intro n hn
    refine ⟨?_, hrest _ hn⟩
    change ((next (follow step next s n)).bind _).getD _ = _
    rw [hn, Option.bind_none, Option.getD_none]

end Endless

end Trace
