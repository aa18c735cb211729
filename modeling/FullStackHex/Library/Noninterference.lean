import FullStackHex.Library.Trace

/-!
One party of a machine that several parties call. Two states that look the same to it stay so
when it makes the same call in both, and when somebody else makes a call in one; then its
answers do not tell whether there are others.
-/

namespace Noninterference

variable {σ κ ω : Type} (step : σ → κ → ω × σ) (mine : κ → Bool)

/-- The machine of `Trace` whose calls are always possible. -/
def after (s : σ) (c : κ) : Option σ := some (step s c).2

theorem each_after_cons {step : σ → κ → ω × σ} {q : σ → κ → Prop} {s : σ} {c : κ}
    {rest : List κ} :
    Trace.Each (after step) q s (c :: rest) ↔
      q s c ∧ Trace.Each (after step) q (step s c).2 rest := by
  constructor
  · exact fun h => h _ rfl
  · intro h s' hs'
    obtain rfl := Option.some.inj hs'
    exact h

instance decidableEach {step : σ → κ → ω × σ} {q : σ → κ → Prop} [∀ s c, Decidable (q s c)] :
    (s : σ) → (calls : List κ) → Decidable (Trace.Each (after step) q s calls)
  | _, [] => isTrue trivial
  | s, c :: rest =>
      have : Decidable (Trace.Each (after step) q (step s c).2 rest) := decidableEach _ rest
      decidable_of_iff (q s c ∧ Trace.Each (after step) q (step s c).2 rest)
        each_after_cons.symm

/-- The answers to the calls of the party. -/
def observed (s : σ) : List κ → List ω
  | [] => []
  | c :: rest =>
      let answers := observed (step s c).2 rest
      if mine c then (step s c).1 :: answers else answers

/-- What one call does to two states that look the same. The calls of the party itself are made
under a condition on the state. -/
structure Unwinding (alike : σ → σ → Prop) (ok : σ → κ → Prop) : Prop where
  own : ∀ {s t c}, mine c = true → alike s t → ok s c → ok t c →
    (step s c).1 = (step t c).1 ∧ alike (step s c).2 (step t c).2
  other : ∀ {s t c}, mine c = false → alike s t → alike (step s c).2 t

/-- The party observes what it would observe alone. -/
theorem Unwinding.observed_filter {step : σ → κ → ω × σ} {mine : κ → Bool}
    {alike : σ → σ → Prop} {ok : σ → κ → Prop} (h : Unwinding step mine alike ok) {s t : σ}
    {calls : List κ} (halike : alike s t) (hs : Trace.Each (after step) ok s calls)
    (ht : Trace.Each (after step) ok t (calls.filter mine)) :
    observed step mine s calls = observed step mine t (calls.filter mine) := by
  induction calls generalizing s t with
  | nil => rfl
  | cons c rest ih =>
      obtain ⟨hfirst, hrest⟩ := each_after_cons.mp hs
      cases hmine : mine c with
      | true =>
          rw [List.filter_cons_of_pos hmine] at ht ⊢
          obtain ⟨hfirst', hrest'⟩ := each_after_cons.mp ht
          obtain ⟨hanswer, hnext⟩ := h.own hmine halike hfirst hfirst'
          simp only [observed, hmine, if_true]
          rw [hanswer, ih hnext hrest hrest']
      | false =>
          have hskip : ¬ mine c = true := by simp [hmine]
          rw [List.filter_cons_of_neg hskip] at ht ⊢
          simp only [observed, if_neg hskip]
          exact ih (h.other hmine halike) hrest ht

end Noninterference
