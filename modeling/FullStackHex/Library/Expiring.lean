import Mathlib

/-!
Key-value stores with deadlines, and bounded tables. In a `Store` a value with
a deadline is there strictly before it and gone from then on; nothing removes
it, the reader compares with the clock. A `Table` is an in-memory map that
knows its size.
-/

namespace Expiring

/-- A value and the moment from which it is gone; `none` keeps it for ever. -/
structure Timed (V : Type) where
  value : V
  deadline : Option Nat
  deriving DecidableEq, Repr

def Timed.alive {V : Type} (t : Timed V) (now : Nat) : Bool :=
  match t.deadline with
  | none => true
  | some d => decide (now < d)

abbrev Store (κ V : Type) := κ → Option (Timed V)

/-- What has expired does not come back later. -/
theorem Timed.alive_of_le {V : Type} {t : Timed V} {now later : Nat} (h : now ≤ later)
    (ht : t.alive later = true) : t.alive now = true := by
  unfold Timed.alive at *
  cases hd : t.deadline with
  | none => rfl
  | some d =>
      simp only [hd, decide_eq_true_eq] at ht ⊢
      omega

namespace Store

variable {κ V : Type}

def empty : Store κ V := fun _ => none

/-- What the key holds at this moment, with its deadline. -/
def entry (st : Store κ V) (now : Nat) (k : κ) : Option (Timed V) :=
  (st k).filter fun t => t.alive now

def get (st : Store κ V) (now : Nat) (k : κ) : Option V :=
  (st.entry now k).map Timed.value

@[simp] theorem get_empty (now : Nat) (k : κ) : (empty : Store κ V).get now k = none := rfl

theorem get_congr {st st' : Store κ V} {now : Nat} {k : κ} (h : st k = st' k) :
    st.get now k = st'.get now k := by
  unfold get entry
  rw [h]

theorem entry_eq_some {st : Store κ V} {now : Nat} {k : κ} {t : Timed V} :
    st.entry now k = some t ↔ st k = some t ∧ t.alive now = true := by
  simp [entry, Option.filter_eq_some_iff]

theorem get_eq_some {st : Store κ V} {now : Nat} {k : κ} {v : V} :
    st.get now k = some v ↔ ∃ t, st k = some t ∧ t.alive now = true ∧ t.value = v := by
  simp only [get, Option.map_eq_some_iff, entry_eq_some, and_assoc]

theorem get_eq_none {st : Store κ V} {now : Nat} {k : κ} :
    st.get now k = none ↔ ∀ t, st k = some t → t.alive now = false := by
  simp [get, entry, Option.filter_eq_none_iff]

theorem get_of_some {st : Store κ V} {k : κ} {t : Timed V} (h : st k = some t) (now : Nat) :
    st.get now k = if t.alive now then some t.value else none := by
  simp only [get, entry, h, Option.filter_some]
  split <;> rfl

theorem get_of_none {st : Store κ V} {k : κ} (h : st k = none) (now : Nat) :
    st.get now k = none := by
  simp [get, entry, h]

theorem get_none_of_le {st : Store κ V} {now later : Nat} {k : κ} (h : now ≤ later)
    (hk : st.get now k = none) : st.get later k = none := by
  rw [get_eq_none] at *
  intro t ht
  by_contra hlive
  rw [Bool.not_eq_false] at hlive
  exact absurd (Timed.alive_of_le h hlive) (by simp [hk t ht])

/-- What is there later is a part of what is there now. -/
theorem entry_of_le {st : Store κ V} {now later : Nat} (h : now ≤ later) (k : κ) :
    st.entry later k = (st.entry now k).filter fun t => t.alive later := by
  unfold entry
  rw [Option.filter_filter]
  cases st k with
  | none => rfl
  | some t =>
      rw [Option.filter_some, Option.filter_some]
      by_cases hlater : t.alive later = true
      · rw [hlater, Timed.alive_of_le h hlater]
        rfl
      · rw [Bool.not_eq_true] at hlater
        simp [hlater]

/-- A value that is there later was there before, when nothing was written. -/
theorem get_of_le {st : Store κ V} {now later : Nat} {k : κ} {v : V} (h : now ≤ later)
    (hk : st.get later k = some v) : st.get now k = some v := by
  obtain ⟨t, ht, hlive, hv⟩ := get_eq_some.mp hk
  exact get_eq_some.mpr ⟨t, ht, Timed.alive_of_le h hlive, hv⟩

variable [DecidableEq κ]

def set (st : Store κ V) (k : κ) (t : Timed V) : Store κ V :=
  Function.update st k (some t)

def del (st : Store κ V) (k : κ) : Store κ V := Function.update st k none

@[simp] theorem set_self (st : Store κ V) (k : κ) (t : Timed V) :
    st.set k t k = some t := Function.update_self _ _ _

@[simp] theorem set_ne {st : Store κ V} {k k' : κ} {t : Timed V} (h : k' ≠ k) :
    st.set k t k' = st k' := Function.update_of_ne h _ _

@[simp] theorem del_self (st : Store κ V) (k : κ) : st.del k k = none :=
  Function.update_self _ _ _

@[simp] theorem del_ne {st : Store κ V} {k k' : κ} (h : k' ≠ k) :
    st.del k k' = st k' := Function.update_of_ne h _ _

/-- What is there after a key has been written, or removed. -/
theorem entry_update (st : Store κ V) (now : Nat) (k : κ) (v : Option (Timed V)) :
    entry (Function.update st k v) now
      = Function.update (st.entry now) k (v.filter fun t => t.alive now) := by
  funext k'
  by_cases hk : k' = k
  · subst hk
    rw [entry, Function.update_self, Function.update_self]
  · rw [entry, Function.update_of_ne hk, Function.update_of_ne hk, entry]

theorem set_eq_some {st : Store κ V} {k k' : κ} {t t' : Timed V} :
    st.set k t k' = some t' ↔ (k' = k ∧ t = t') ∨ (k' ≠ k ∧ st k' = some t') := by
  by_cases hk : k' = k
  · subst hk
    simp
  · simp [hk]

theorem del_eq_some {st : Store κ V} {k k' : κ} {t : Timed V} :
    st.del k k' = some t ↔ k' ≠ k ∧ st k' = some t := by
  by_cases hk : k' = k
  · subst hk
    simp
  · simp [hk]

theorem foldl_del_eq_some {ks : List κ} {st : Store κ V} {k : κ} {t : Timed V} :
    ks.foldl del st k = some t ↔ k ∉ ks ∧ st k = some t := by
  induction ks generalizing st with
  | nil => simp
  | cons head rest ih =>
      rw [List.foldl_cons, ih, del_eq_some, List.mem_cons, not_or]
      tauto

@[simp] theorem get_del_self (st : Store κ V) (now : Nat) (k : κ) :
    (st.del k).get now k = none := by
  simp [get, entry]

theorem get_set_self {st : Store κ V} {now : Nat} {k : κ} {t : Timed V}
    (h : t.alive now = true) : (st.set k t).get now k = some t.value := by
  rw [get_eq_some]
  exact ⟨t, set_self st k t, h, rfl⟩

theorem get_set_ne {st : Store κ V} {now : Nat} {k k' : κ} {t : Timed V} (h : k' ≠ k) :
    (st.set k t).get now k' = st.get now k' := get_congr (set_ne h)

theorem get_del_ne {st : Store κ V} {now : Nat} {k k' : κ} (h : k' ≠ k) :
    (st.del k).get now k' = st.get now k' := get_congr (del_ne h)

/-- Deleting never brings a value back. -/
theorem get_del_eq_none {st : Store κ V} {now : Nat} {k k' : κ}
    (h : st.get now k' = none) : (st.del k).get now k' = none := by
  by_cases hk : k' = k
  · subst hk
    exact get_del_self st now k'
  · rwa [get_del_ne hk]

end Store

/-- An in-memory map with distinct keys. -/
abbrev Table (κ V : Type) := AList fun _ : κ => V

namespace Table

variable {κ V : Type}

def size (t : Table κ V) : Nat := t.entries.length

theorem size_eq_keys (t : Table κ V) : t.size = t.keys.length := by
  simp [size, AList.keys, List.keys]

/-- Keep the entries that satisfy `p`. -/
def retain (p : κ → V → Bool) (t : Table κ V) : Table κ V where
  entries := t.entries.filter fun e => p e.1 e.2
  nodupKeys := List.Nodup.sublist ((List.filter_sublist).map Sigma.fst) t.nodupKeys

variable [DecidableEq κ]

theorem lookup_retain {p : κ → V → Bool} {t : Table κ V} {k : κ} {v : V} :
    (retain p t).lookup k = some v ↔ t.lookup k = some v ∧ p k v = true := by
  rw [← Option.mem_def, AList.mem_lookup_iff, ← Option.mem_def, AList.mem_lookup_iff]
  simp [retain]

theorem size_erase (t : Table κ V) (k : κ) :
    Table.size (t.erase k) = if (t.lookup k).isSome then t.size - 1 else t.size := by
  rw [size_eq_keys, size_eq_keys, AList.keys_erase]
  split_ifs with hk
  · exact List.length_erase_of_mem (AList.lookup_isSome.mp hk)
  · rw [List.erase_of_not_mem fun hmem => hk (AList.lookup_isSome.mpr hmem)]

theorem size_insert (t : Table κ V) (k : κ) (v : V) :
    Table.size (t.insert k v) = Table.size (t.erase k) + 1 := by
  rw [size_eq_keys, size_eq_keys, AList.keys_insert, AList.keys_erase, List.length_cons]

theorem lookup_erase_of_some {t : Table κ V} {k k' : κ} {v : V}
    (h : (t.erase k').lookup k = some v) : k ≠ k' ∧ t.lookup k = some v := by
  by_cases hk : k = k'
  · subst hk
    rw [AList.lookup_erase] at h
    cases h
  · exact ⟨hk, by rwa [AList.lookup_erase_ne hk] at h⟩

end Table

end Expiring
