import Mathlib

/-!
Machines that answer requests, and one of them standing for another: their states are related, every
request keeps them so, and the answers are the same. Maps that are kept under names.
-/

namespace Refinement

/-- A machine takes a request and its state to an answer and the next state. -/
abbrev Machine (σ ω α : Type) := ω → σ → α × σ

variable {σ τ ω α : Type}

/-- The answers to requests that come one after another, and the state at the end. -/
def serve (m : Machine σ ω α) : List ω → σ → List α × σ
  | [], s => ([], s)
  | o :: rest, s => ((m o s).1 :: (serve m rest (m o s).2).1, (serve m rest (m o s).2).2)

theorem serve_singleton (m : Machine σ ω α) (o : ω) (s : σ) : (serve m [o] s).2 = (m o s).2 := rfl

/-- The second machine answers as the first one does, to the requests of one kind. -/
structure Simulates (m : Machine σ ω α) (m' : Machine τ ω α) (ok : ω → Prop)
    (rel : σ → τ → Prop) : Prop where
  answer : ∀ o s t, ok o → rel s t → (m o s).1 = (m' o t).1
  next : ∀ o s t, ok o → rel s t → rel (m o s).2 (m' o t).2

theorem Simulates.serve {m : Machine σ ω α} {m' : Machine τ ω α} {ok : ω → Prop}
    {rel : σ → τ → Prop} (h : Simulates m m' ok rel) {s : σ} {t : τ} {requests : List ω}
    (hok : ∀ o ∈ requests, ok o) (hrel : rel s t) :
    (serve m requests s).1 = (serve m' requests t).1 ∧
      rel (serve m requests s).2 (serve m' requests t).2 := by
  induction requests generalizing s t with
  | nil => exact ⟨rfl, hrel⟩
  | cons o rest ih =>
      have hfirst := hok o List.mem_cons_self
      have hanswer := h.answer o s t hfirst hrel
      obtain ⟨hanswers, hend⟩ :=
        ih (fun o' ho' => hok o' (List.mem_cons_of_mem _ ho')) (h.next o s t hfirst hrel)
      constructor
      · change (m o s).1 :: _ = (m' o t).1 :: _
        rw [hanswer, hanswers]
      · exact hend

section Names

variable {κ ν υ : Type} {name : κ → ν} {good : κ → Prop}
variable {store : ν → Option υ} {map : κ → Option υ} {k : κ}

/-- The store holds under names what the map holds under its keys, and nothing else. -/
structure Holds (name : κ → ν) (good : κ → Prop) (store : ν → Option υ) (map : κ → Option υ) :
    Prop where
  value : ∀ k, good k → store (name k) = map k
  named : ∀ n v, store n = some v → ∃ k, good k ∧ name k = n
  keys : ∀ k v, map k = some v → good k

theorem holds_empty : Holds name good (fun _ => none : ν → Option υ) (fun _ => none) :=
  ⟨fun _ _ => rfl, fun _ _ h => (by cases h), fun _ _ h => (by cases h)⟩

theorem Holds.some_iff (h : Holds name good store map) {n : ν} {v : υ} :
    store n = some v ↔ ∃ k, name k = n ∧ map k = some v := by
  constructor
  · intro hstore
    obtain ⟨k, hk, rfl⟩ := h.named n v hstore
    exact ⟨k, rfl, (h.value k hk).symm.trans hstore⟩
  · rintro ⟨k, rfl, hmap⟩
    exact (h.value k (h.keys k v hmap)).trans hmap

/-- What is written under a name is written under its key alone. -/
theorem Holds.update [DecidableEq κ] [DecidableEq ν] (h : Holds name good store map)
    (hname : Set.InjOn name {k | good k}) (hk : good k) (v : Option υ) :
    Holds name good (Function.update store (name k) v) (Function.update map k v) := by
  constructor
  · intro k' hk'
    by_cases hsame : k' = k
    · rw [hsame, Function.update_self, Function.update_self]
    · have hother : name k' ≠ name k := fun heq => hsame (hname hk' hk heq)
      rw [Function.update_of_ne hother, Function.update_of_ne hsame, h.value k' hk']
  · intro n w hw
    by_cases hsame : n = name k
    · exact ⟨k, hk, hsame.symm⟩
    · rw [Function.update_of_ne hsame] at hw
      exact h.named n w hw
  · intro k' w hw
    by_cases hsame : k' = k
    · exact hsame ▸ hk
    · rw [Function.update_of_ne hsame] at hw
      exact h.keys k' w hw

/-- What is filtered out goes from both. -/
theorem Holds.filter (h : Holds name good store map) (p : υ → Bool) :
    Holds name good (fun n => (store n).filter p) (fun k => (map k).filter p) := by
  constructor
  · intro k hk
    rw [h.value k hk]
  · intro n v hv
    exact h.named n v (Option.filter_eq_some_iff.mp hv).1
  · intro k v hv
    exact h.keys k v (Option.filter_eq_some_iff.mp hv).1

end Names

end Refinement
