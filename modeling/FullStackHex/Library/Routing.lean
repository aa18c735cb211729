import Mathlib

/-!
Routers that are put together step by step. A layer wraps the routes and the
fallback that a router has when the layer is added; what is added later stands
outside of it.
-/

namespace Routing

variable {Q A : Type}

/-- What is mounted under one pattern: handlers by method, and one for all other methods. -/
structure Endpoint (Q A : Type) where
  handlers : List (String × (Q → A))
  otherwise : Q → A

namespace Endpoint

def on (methods : List String) (handler otherwise : Q → A) : Endpoint Q A :=
  ⟨methods.map fun m => (m, handler), otherwise⟩

def merge (e other : Endpoint Q A) : Endpoint Q A :=
  ⟨e.handlers ++ other.handlers, e.otherwise⟩

def layer (f : (Q → A) → Q → A) (e : Endpoint Q A) : Endpoint Q A :=
  ⟨e.handlers.map fun h => (h.1, f h.2), f e.otherwise⟩

def service (e : Endpoint Q A) (method : String) : Q → A :=
  (e.handlers.lookup method).getD e.otherwise

def Provides (e : Endpoint Q A) (method : String) : Prop :=
  ∃ h ∈ e.handlers, h.1 = method

/-- Whatever the endpoint calls for a method satisfies `P`; `none` stands for the methods
without a handler. -/
structure Every (P : Option String → (Q → A) → Prop) (e : Endpoint Q A) : Prop where
  handlers : ∀ h ∈ e.handlers, P (some h.1) h.2
  otherwise : P none e.otherwise

variable {P : Option String → (Q → A) → Prop} {e other : Endpoint Q A}

theorem Every.on {methods : List String} {handler otherwise : Q → A}
    (h : ∀ m ∈ methods, P (some m) handler) (ho : P none otherwise) :
    (Endpoint.on methods handler otherwise).Every P where
  handlers := by
    intro entry hentry
    obtain ⟨m, hm, rfl⟩ := List.mem_map.mp hentry
    exact h m hm
  otherwise := ho

theorem Every.merge (h : e.Every P) (ho : other.Every P) : (e.merge other).Every P where
  handlers := by
    intro entry hentry
    rcases List.mem_append.mp hentry with hmem | hmem
    · exact h.handlers entry hmem
    · exact ho.handlers entry hmem
  otherwise := h.otherwise

theorem Every.layer {P' : Option String → (Q → A) → Prop} {f : (Q → A) → Q → A}
    (h : e.Every P) (hf : ∀ m s, P m s → P' m (f s)) : (e.layer f).Every P' where
  handlers := by
    intro entry hentry
    obtain ⟨old, hold, rfl⟩ := List.mem_map.mp hentry
    exact hf _ _ (h.handlers old hold)
  otherwise := hf _ _ h.otherwise

theorem lookup_mem {β : Type} {entries : List (String × β)} {k : String} {v : β}
    (h : entries.lookup k = some v) : (k, v) ∈ entries := by
  induction entries with
  | nil => cases h
  | cons entry rest ih =>
      obtain ⟨k', v'⟩ := entry
      rw [List.lookup_cons] at h
      split at h
      · rename_i hk
        rw [beq_iff_eq] at hk
        rw [hk, ← Option.some.inj h]
        exact List.mem_cons_self ..
      · exact List.mem_cons_of_mem _ (ih h)

theorem lookup_isSome {β : Type} {entries : List (String × β)} {k : String} :
    (entries.lookup k).isSome = true ↔ ∃ e ∈ entries, e.1 = k := by
  constructor
  · intro h
    obtain ⟨v, hv⟩ := Option.isSome_iff_exists.mp h
    exact ⟨(k, v), lookup_mem hv, rfl⟩
  · rintro ⟨⟨k', v⟩, hmem, rfl⟩
    by_contra hnone
    rw [Bool.not_eq_true, Option.isSome_eq_false_iff, Option.isNone_iff_eq_none,
      List.lookup_eq_none_iff] at hnone
    simpa using hnone (k', v) hmem

theorem Every.service (h : e.Every P) (method : String) :
    (e.Provides method ∧ P (some method) (e.service method)) ∨
      (¬ e.Provides method ∧ P none (e.service method)) := by
  unfold Endpoint.service
  cases hlookup : e.handlers.lookup method with
  | some s =>
      have hmem := lookup_mem hlookup
      exact .inl ⟨⟨_, hmem, rfl⟩, h.handlers _ hmem⟩
  | none =>
      refine .inr ⟨fun hprovides => ?_, h.otherwise⟩
      have hsome := lookup_isSome.mpr hprovides
      rw [hlookup] at hsome
      cases hsome

theorem provides_on {methods : List String} {handler otherwise : Q → A} {method : String}
    (h : method ∈ methods) : (Endpoint.on methods handler otherwise).Provides method :=
  ⟨_, List.mem_map.mpr ⟨method, h, rfl⟩, rfl⟩

theorem provides_merge {method : String} (h : e.Provides method ∨ other.Provides method) :
    (e.merge other).Provides method := by
  rcases h with ⟨entry, hmem, hm⟩ | ⟨entry, hmem, hm⟩
  · exact ⟨entry, List.mem_append_left _ hmem, hm⟩
  · exact ⟨entry, List.mem_append_right _ hmem, hm⟩

theorem Provides.layer {method : String} (h : e.Provides method) (f : (Q → A) → Q → A) :
    (e.layer f).Provides method := by
  obtain ⟨entry, hmem, hm⟩ := h
  exact ⟨_, List.mem_map.mpr ⟨entry, hmem, rfl⟩, hm⟩

end Endpoint

structure Router (Q A : Type) where
  endpoints : List (String × Endpoint Q A)
  fallback : Q → A

/-- How the pattern for a path is chosen. -/
structure Matcher where
  select : List String → String → Option String
  among : ∀ {patterns : List String} {path p : String}, select patterns path = some p → p ∈ patterns

namespace Router

def new (fallback : Q → A) : Router Q A := ⟨[], fallback⟩

def patterns (r : Router Q A) : List String := r.endpoints.map Prod.fst

/-- A pattern that is there already gets further methods. -/
def route (r : Router Q A) (pattern : String) (e : Endpoint Q A) : Router Q A :=
  { r with endpoints :=
      if pattern ∈ r.patterns then
        r.endpoints.map fun old => if old.1 = pattern then (old.1, old.2.merge e) else old
      else r.endpoints ++ [(pattern, e)] }

def mount (r : Router Q A) (entries : List (String × Endpoint Q A)) : Router Q A :=
  entries.foldl (fun r entry => r.route entry.1 entry.2) r

/-- The routes of another router; its default fallback is dropped. -/
def merge (r other : Router Q A) : Router Q A := r.mount other.endpoints

def join (outer pattern : String) : String := if pattern = "/" then outer else outer ++ pattern

/-- `strip` is what a request looks like to the nested router. -/
def nest (r : Router Q A) (outer : String) (strip : Q → Q) (other : Router Q A) : Router Q A :=
  r.mount (other.endpoints.map fun entry =>
    (join outer entry.1, entry.2.layer fun s q => s (strip q)))

def layer (f : (Q → A) → Q → A) (r : Router Q A) : Router Q A where
  endpoints := r.endpoints.map fun entry => (entry.1, entry.2.layer f)
  fallback := f r.fallback

/-- What a request for this path and method is handed to. -/
def service (r : Router Q A) (matcher : Matcher) (path method : String) : Q → A :=
  match (matcher.select r.patterns path).bind fun p => r.endpoints.lookup p with
  | some e => e.service method
  | none => r.fallback

/-- Everything that is mounted satisfies `P`, which may look at the pattern. -/
def Every (P : String → Option String → (Q → A) → Prop) (r : Router Q A) : Prop :=
  ∀ entry ∈ r.endpoints, entry.2.Every (P entry.1)

def Provides (r : Router Q A) (pattern method : String) : Prop :=
  pattern ∈ r.patterns ∧ ∀ entry ∈ r.endpoints, entry.1 = pattern → entry.2.Provides method

variable {P : String → Option String → (Q → A) → Prop} {r other : Router Q A}

theorem Every.new {fallback : Q → A} : (Router.new fallback).Every P :=
  fun _ h => absurd h List.not_mem_nil

theorem Every.route {pattern : String} {e : Endpoint Q A} (h : r.Every P) (he : e.Every (P pattern)) :
    (r.route pattern e).Every P := by
  intro entry hentry
  unfold Router.route at hentry
  simp only at hentry
  split at hentry
  · obtain ⟨old, hold, rfl⟩ := List.mem_map.mp hentry
    split
    · rename_i hsame
      exact (h old hold).merge (hsame ▸ he)
    · exact h old hold
  · rcases List.mem_append.mp hentry with hmem | hmem
    · exact h entry hmem
    · rw [List.mem_singleton.mp hmem]
      exact he

theorem Every.mount {entries : List (String × Endpoint Q A)} (h : r.Every P)
    (hentries : ∀ entry ∈ entries, entry.2.Every (P entry.1)) : (r.mount entries).Every P := by
  induction entries generalizing r with
  | nil => exact h
  | cons entry rest ih =>
      apply ih (h.route (hentries entry (List.mem_cons_self ..)))
      exact fun later hlater => hentries later (List.mem_cons_of_mem _ hlater)

theorem Every.merge (h : r.Every P) (ho : other.Every P) : (r.merge other).Every P := h.mount ho

/-- A nested router is mounted under the longer patterns. -/
theorem Every.nest {P' : String → Option String → (Q → A) → Prop} {outer : String}
    {strip : Q → Q} (h : r.Every P) (ho : other.Every P')
    (hstrip : ∀ pattern m s, P' pattern m s → P (join outer pattern) m fun q => s (strip q)) :
    (r.nest outer strip other).Every P := by
  apply h.mount
  intro entry hentry
  obtain ⟨old, hold, rfl⟩ := List.mem_map.mp hentry
  exact (ho old hold).layer (hstrip old.1)

theorem Every.layer {P' : String → Option String → (Q → A) → Prop} {f : (Q → A) → Q → A}
    (h : r.Every P) (hf : ∀ pattern m s, P pattern m s → P' pattern m (f s)) :
    (r.layer f).Every P' := by
  intro entry hentry
  obtain ⟨old, hold, rfl⟩ := List.mem_map.mp hentry
  exact (h old hold).layer (hf old.1)

theorem patterns_layer (f : (Q → A) → Q → A) (r : Router Q A) :
    (r.layer f).patterns = r.patterns := by
  simp [patterns, layer, Function.comp_def]

/-- The layer that was added last is the outermost. -/
theorem service_layer (f : (Q → A) → Q → A) (r : Router Q A) (matcher : Matcher)
    (path method : String) :
    (r.layer f).service matcher path method = f (r.service matcher path method) := by
  unfold service
  rw [patterns_layer]
  have hlookup : ∀ p, (r.layer f).endpoints.lookup p
      = (r.endpoints.lookup p).map (Endpoint.layer f) := by
    intro p
    unfold layer
    induction r.endpoints with
    | nil => rfl
    | cons entry rest ih =>
        rw [List.map_cons, List.lookup_cons, List.lookup_cons, ih]
        split <;> rfl
  have hservice : ∀ e : Endpoint Q A, (e.layer f).service method = f (e.service method) := by
    intro e
    unfold Endpoint.service Endpoint.layer
    simp only
    induction e.handlers with
    | nil => rfl
    | cons entry rest ih =>
        rw [List.map_cons, List.lookup_cons, List.lookup_cons]
        split
        · rfl
        · exact ih
  cases matcher.select r.patterns path with
  | none => rfl
  | some p =>
      simp only [Option.bind_some, hlookup]
      cases r.endpoints.lookup p with
      | none => rfl
      | some e => exact hservice e

/-- What a request is handed to: the fallback, or what is mounted under the chosen pattern. -/
theorem Every.service (h : r.Every P) (matcher : Matcher) (path method : String) :
    (matcher.select r.patterns path = none ∧
        r.service matcher path method = r.fallback) ∨
      ∃ p, matcher.select r.patterns path = some p ∧
        ((P p (some method) (r.service matcher path method)) ∨
          (¬ r.Provides p method ∧ P p none (r.service matcher path method))) := by
  unfold Router.service
  cases hselect : matcher.select r.patterns path with
  | none => exact .inl ⟨rfl, rfl⟩
  | some p =>
      right
      obtain ⟨entry, hentry, hp⟩ := List.mem_map.mp (matcher.among hselect)
      cases hlookup : r.endpoints.lookup p with
      | none =>
          have hsome := Endpoint.lookup_isSome.mpr ⟨entry, hentry, hp⟩
          rw [hlookup] at hsome
          cases hsome
      | some e =>
          have hmem := Endpoint.lookup_mem hlookup
          refine ⟨p, rfl, ?_⟩
          rw [Option.bind_some, hlookup]
          rcases (h _ hmem).service method with ⟨-, hP⟩ | ⟨hnot, hP⟩
          · exact .inl hP
          · exact .inr ⟨fun hprovides => hnot (hprovides.2 _ hmem rfl), hP⟩

@[simp] theorem fallback_route (r : Router Q A) (pattern : String) (e : Endpoint Q A) :
    (r.route pattern e).fallback = r.fallback := rfl

@[simp] theorem fallback_layer (f : (Q → A) → Q → A) (r : Router Q A) :
    (r.layer f).fallback = f r.fallback := rfl

@[simp] theorem fallback_mount (r : Router Q A) (entries : List (String × Endpoint Q A)) :
    (r.mount entries).fallback = r.fallback := by
  induction entries generalizing r with
  | nil => rfl
  | cons entry rest ih => exact ih (r.route entry.1 entry.2)

@[simp] theorem fallback_merge (r other : Router Q A) : (r.merge other).fallback = r.fallback :=
  fallback_mount r _

@[simp] theorem fallback_nest (r other : Router Q A) (outer : String) (strip : Q → Q) :
    (r.nest outer strip other).fallback = r.fallback :=
  fallback_mount r _

/-! What is provided stays provided. -/

theorem patterns_route (r : Router Q A) (pattern : String) (e : Endpoint Q A) :
    (r.route pattern e).patterns
      = if pattern ∈ r.patterns then r.patterns else r.patterns ++ [pattern] := by
  unfold route
  split
  · simp only [patterns, List.map_map]
    apply List.map_congr_left
    intro entry _
    simp only [Function.comp_apply]
    split <;> rfl
  · simp [patterns]

theorem Provides.route_self {pattern method : String} {e : Endpoint Q A} (he : e.Provides method) :
    (r.route pattern e).Provides pattern method := by
  constructor
  · rw [patterns_route]
    split <;> simp [*]
  · intro entry hentry hp
    unfold Router.route at hentry
    simp only at hentry
    split at hentry
    · obtain ⟨old, -, rfl⟩ := List.mem_map.mp hentry
      split at hp
      · rename_i hsame
        rw [if_pos hsame]
        obtain ⟨h, hmem, hm⟩ := he
        exact ⟨h, List.mem_append_right _ hmem, hm⟩
      · rename_i hother
        exact absurd hp hother
    · rename_i hnew
      rcases List.mem_append.mp hentry with hmem | hmem
      · exact absurd (List.mem_map.mpr ⟨entry, hmem, hp⟩) hnew
      · rw [List.mem_singleton.mp hmem]
        exact he

theorem Provides.route {pattern pattern' method : String} {e : Endpoint Q A}
    (h : r.Provides pattern method) : (r.route pattern' e).Provides pattern method := by
  constructor
  · rw [patterns_route]
    split
    · exact h.1
    · exact List.mem_append_left _ h.1
  · intro entry hentry hp
    unfold Router.route at hentry
    simp only at hentry
    split at hentry
    · obtain ⟨old, hold, rfl⟩ := List.mem_map.mp hentry
      split at hp
      · rename_i hsame
        rw [if_pos hsame]
        obtain ⟨handler, hmem, hm⟩ := h.2 old hold hp
        exact ⟨handler, List.mem_append_left _ hmem, hm⟩
      · rename_i hother
        rw [if_neg hother]
        exact h.2 old hold hp
    · rename_i hnew
      rcases List.mem_append.mp hentry with hmem | hmem
      · exact h.2 entry hmem hp
      · obtain rfl := List.mem_singleton.mp hmem
        obtain rfl := hp
        exact absurd h.1 hnew

theorem Provides.mount {entries : List (String × Endpoint Q A)} {pattern method : String}
    (h : r.Provides pattern method) : (r.mount entries).Provides pattern method := by
  induction entries generalizing r with
  | nil => exact h
  | cons entry rest ih => exact ih h.route

theorem Provides.mount_of_mem {entries : List (String × Endpoint Q A)} {entry : String × Endpoint Q A}
    {method : String} (hmem : entry ∈ entries) (he : entry.2.Provides method) :
    (r.mount entries).Provides entry.1 method := by
  induction entries generalizing r with
  | nil => cases hmem
  | cons first rest ih =>
      rcases List.mem_cons.mp hmem with rfl | hrest
      · have hself : (r.route entry.1 entry.2).Provides entry.1 method := Provides.route_self he
        exact hself.mount
      · exact ih hrest

theorem Provides.nest {outer pattern method : String} {strip : Q → Q}
    (h : other.Provides pattern method) :
    (r.nest outer strip other).Provides (join outer pattern) method := by
  obtain ⟨entry, hentry, rfl⟩ := List.mem_map.mp h.1
  exact mount_of_mem (List.mem_map.mpr ⟨entry, hentry, rfl⟩) ((h.2 entry hentry rfl).layer _)

theorem Provides.layer {pattern method : String} (h : r.Provides pattern method)
    (f : (Q → A) → Q → A) : (r.layer f).Provides pattern method := by
  constructor
  · rw [patterns_layer]
    exact h.1
  · intro entry hentry hp
    obtain ⟨old, hold, rfl⟩ := List.mem_map.mp hentry
    exact (h.2 old hold hp).layer f

end Router

end Routing
