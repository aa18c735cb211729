import FullStackHex.Library.Json
import FullStackHex.Library.Trace
import FullStackHex.Sidecar.Hmac

/-!
The cached health checks of `api/src/health.rs`: many calls at once behind a read-write lock, each
of which looks at the cache under the read lock, and again under the write lock before it probes.
A call may be dropped wherever it stands; that releases what it holds.
-/

namespace FullStackHex

open JsonText

namespace Health

/-! ## The three checks -/

inductive Dependency where
  | db
  | redis
  | python
  deriving DecidableEq, Repr

/-- `DbStatus`, with what the probe of a pool comes to. -/
inductive DbProbe where
  | connected (result : Except String Unit)
  | notConfigured
  | connectionFailed (message : String)

/-- What a probe comes to. -/
abbrev Dependency.Probe : Dependency → Type
  | .db => DbProbe
  | .redis => Option (Except CacheError Unit)
  | .python => Except SidecarError Json

def statusJson (status : String) : Json :=
  .object [("status".toList, .string status.toList)]

def formatHealthValue (v : Json) : Json :=
  .object [("status".toList, .string (((v.get "status").asStr).getD "unknown").toList),
    ("service".toList, .string (((v.get "service").asStr).getD "unknown").toList)]

/-- The value that is cached and returned. -/
def Dependency.value : (d : Dependency) → d.Probe → Json
  | .db, .connected (.ok ()) => statusJson "ok"
  | .db, .connected (.error _) => statusJson "error"
  | .db, .notConfigured => statusJson "disabled"
  | .db, .connectionFailed _ => statusJson "error"
  | .redis, some (.ok ()) => statusJson "ok"
  | .redis, some (.error _) => statusJson "error"
  | .redis, none => statusJson "disabled"
  | .python, .ok v => formatHealthValue v
  | .python, .error _ => statusJson "unavailable"

def healthCacheTtl : Duration := .ofSecs 1

def healthErrorCacheTtl : Duration := .ofSecs 2

/-- A cached value and the `Instant` at which it was stored, in nanoseconds. -/
structure Entry where
  cachedAt : Nat
  value : Json

def healthCacheFresh (now : Nat) (e : Entry) : Bool :=
  let ttl := if (e.value.get "status").asStr = some "ok" then healthCacheTtl
    else healthErrorCacheTtl
  now - e.cachedAt < ttl.asNanos

/-! ## Calls -/

/-- Where a call stands. The ones that hold the read lock are at `reading`, the one that holds
the write lock is at `writing` or `probing`. A call that has returned a value has checked its age,
or stored it, at the moment that is given. -/
inductive Phase where
  | idle
  | wantsRead
  | reading
  | wantsWrite
  | writing
  | probing
  | returned (value : Json) (checked : Nat)
  | dropped

def Phase.awaits : Phase → Bool
  | .idle | .returned _ _ | .dropped => false
  | _ => true

structure RwLock where
  readers : List Nat
  writer : Option Nat

def RwLock.read? (l : RwLock) (i : Nat) : Option RwLock :=
  if l.writer.isNone then some { l with readers := i :: l.readers } else none

def RwLock.write? (l : RwLock) (i : Nat) : Option RwLock :=
  if l.writer.isNone ∧ l.readers = [] then some { l with writer := some i } else none

def RwLock.release (l : RwLock) (i : Nat) : RwLock :=
  ⟨l.readers.filter fun j => j ≠ i, l.writer.filter fun j => j ≠ i⟩

/-- One of the three caches, the calls of its check, and all that was ever stored. -/
structure State where
  now : Nat
  cache : Option Entry
  lock : RwLock
  phase : Nat → Phase
  stored : List Entry

def State.initial (now : Nat) : State := ⟨now, none, ⟨[], none⟩, fun _ => .idle, []⟩

inductive Act (d : Dependency) where
  | wait (nanos : Nat)
  | call (i : Nat)
  | lockRead (i : Nat)
  | check (i : Nat)
  | lockWrite (i : Nat)
  | recheck (i : Nat)
  | finish (i : Nat) (probe : d.Probe)
  | drop (i : Nat)

def State.goto (s : State) (i : Nat) (p : Phase) : State :=
  { s with phase := Function.update s.phase i p }

/-- The value of the cache, if it is fresh. -/
def State.fresh (s : State) : Option Json :=
  (s.cache.filter fun e => healthCacheFresh s.now e).map Entry.value

/-- Under either lock: a fresh value is returned, otherwise the call goes on. -/
def State.look (s : State) (i : Nat) (lock : RwLock) (next : State) : State :=
  match s.fresh with
  | some value => { s with lock := lock }.goto i (.returned value s.now)
  | none => next

/-- One step, if it is possible. Which of the waiting calls is given a lock is left open. -/
def step (d : Dependency) (s : State) : Act d → Option State
  | .wait nanos => some { s with now := s.now + nanos }
  | .call i =>
      match s.phase i with
      | .idle => some (s.goto i .wantsRead)
      | _ => none
  | .lockRead i =>
      match s.phase i with
      | .wantsRead => (s.lock.read? i).map fun lock => { s with lock := lock }.goto i .reading
      | _ => none
  | .check i =>
      match s.phase i with
      | .reading =>
          let lock := s.lock.release i
          some (s.look i lock ({ s with lock := lock }.goto i .wantsWrite))
      | _ => none
  | .lockWrite i =>
      match s.phase i with
      | .wantsWrite => (s.lock.write? i).map fun lock => { s with lock := lock }.goto i .writing
      | _ => none
  | .recheck i =>
      match s.phase i with
      | .writing => some (s.look i (s.lock.release i) (s.goto i .probing))
      | _ => none
  | .finish i probe =>
      match s.phase i with
      | .probing =>
          let e : Entry := ⟨s.now, d.value probe⟩
          some ({ s with
            cache := some e
            lock := s.lock.release i
            stored := e :: s.stored }.goto i (.returned e.value s.now))
      | _ => none
  | .drop i =>
      if (s.phase i).awaits then some ({ s with lock := s.lock.release i }.goto i .dropped)
      else none

/-! ## What holds of every call -/

/-- No two calls probe at once. -/
def Exclusive (s : State) : Prop := ∀ i j, s.phase i = .probing → s.phase j = .probing → i = j

/-- Every value that a call has returned was stored by a probe, and was within its lifetime when
the call checked it. -/
def ReturnedFresh (s : State) : Prop :=
  ∀ i v checked, s.phase i = .returned v checked → checked ≤ s.now ∧
    ∃ e ∈ s.stored, e.value = v ∧ e.cachedAt ≤ checked ∧ healthCacheFresh checked e = true

/-- What was stored is known to the cache as long as it is fresh, and a call that writes or probes
holds the write lock. -/
structure Sound (s : State) : Prop where
  holds : ∀ i, s.phase i = .writing ∨ s.phase i = .probing → s.lock.writer = some i
  past : ∀ e ∈ s.stored, e.cachedAt ≤ s.now
  latest : ∀ e ∈ s.stored, healthCacheFresh s.now e = true → s.cache = some e
  cached : ∀ e, s.cache = some e → e ∈ s.stored
  stale : ∀ i, s.phase i = .probing → ∀ e ∈ s.stored, healthCacheFresh s.now e = false
  returned : ReturnedFresh s

variable {d : Dependency} {s s' : State} {i : Nat}

theorem healthCacheFresh_of_le {now later : Nat} {e : Entry} (h : now ≤ later)
    (hfresh : healthCacheFresh later e = true) : healthCacheFresh now e = true := by
  unfold healthCacheFresh at *
  simp only [decide_eq_true_eq] at *
  omega

/-- A value is fresh at the moment at which it is stored. -/
theorem healthCacheFresh_self (now : Nat) (v : Json) : healthCacheFresh now ⟨now, v⟩ = true := by
  unfold healthCacheFresh
  simp only [Nat.sub_self, decide_eq_true_eq]
  split <;> decide

@[simp] theorem goto_self (s : State) (i : Nat) (p : Phase) : (s.goto i p).phase i = p :=
  Function.update_self _ _ _

theorem goto_of_ne {j : Nat} (h : j ≠ i) (s : State) (p : Phase) :
    (s.goto i p).phase j = s.phase j := Function.update_of_ne h _ _

theorem release_writer {l : RwLock} {j : Nat} :
    (l.release i).writer = some j ↔ l.writer = some j ∧ j ≠ i := by
  simp [RwLock.release, Option.filter_eq_some_iff]

theorem fresh_eq_some {v : Json} :
    s.fresh = some v ↔ ∃ e, s.cache = some e ∧ healthCacheFresh s.now e = true ∧ e.value = v := by
  simp only [State.fresh, Option.map_eq_some_iff, Option.filter_eq_some_iff, and_assoc]

theorem fresh_eq_none :
    s.fresh = none ↔ ∀ e, s.cache = some e → healthCacheFresh s.now e = false := by
  simp [State.fresh, Option.filter_eq_none_iff]

theorem sound_initial (now : Nat) : Sound (.initial now) := by
  constructor
  · intro i hi
    rcases hi with hi | hi <;> cases hi
  · intro e he
    cases he
  · intro e he
    cases he
  · intro e he
    cases he
  · intro i hi
    cases hi
  · intro i v t hi
    cases hi

namespace Sound

/-- A call moves on, and the others keep the write lock if they have it. -/
theorem move (h : Sound s) {lock : RwLock} {p : Phase}
    (hothers : ∀ j, j ≠ i → s.lock.writer = some j → lock.writer = some j)
    (hwrite : p = .writing ∨ p = .probing → lock.writer = some i)
    (hstale : p = .probing → ∀ e ∈ s.stored, healthCacheFresh s.now e = false)
    (hreturned : ∀ v checked, p = .returned v checked → checked ≤ s.now ∧
      ∃ e ∈ s.stored, e.value = v ∧ e.cachedAt ≤ checked ∧ healthCacheFresh checked e = true) :
    Sound ({ s with lock := lock }.goto i p) := by
  constructor
  · intro j hj
    by_cases hji : j = i
    · subst hji
      rw [goto_self] at hj
      exact hwrite hj
    · rw [goto_of_ne hji] at hj
      exact hothers j hji (h.holds j hj)
  · exact h.past
  · exact h.latest
  · exact h.cached
  · intro j hj
    by_cases hji : j = i
    · subst hji
      rw [goto_self] at hj
      exact hstale hj
    · rw [goto_of_ne hji] at hj
      exact h.stale j hj
  · intro j v checked hj
    by_cases hji : j = i
    · subst hji
      rw [goto_self] at hj
      exact hreturned v checked hj
    · rw [goto_of_ne hji] at hj
      exact h.returned j v checked hj

/-- A move to a place where nothing is held, read or returned. -/
theorem move_plain (h : Sound s) {lock : RwLock} {p : Phase}
    (hothers : ∀ j, j ≠ i → s.lock.writer = some j → lock.writer = some j)
    (hp : p = .wantsRead ∨ p = .reading ∨ p = .wantsWrite ∨ p = .dropped) :
    Sound ({ s with lock := lock }.goto i p) := by
  apply h.move hothers
  · rcases hp with rfl | rfl | rfl | rfl <;> simp
  · rcases hp with rfl | rfl | rfl | rfl <;> simp
  · rcases hp with rfl | rfl | rfl | rfl <;> simp

theorem same_others {l : RwLock} : ∀ j, j ≠ i → l.writer = some j → l.writer = some j :=
  fun _ _ hl => hl

theorem release_others {l : RwLock} : ∀ j, j ≠ i → l.writer = some j →
    (l.release i).writer = some j :=
  fun _ hj hl => release_writer.mpr ⟨hl, hj⟩

/-- A look at the cache under a lock: what it returns is fresh, and if it returns nothing then
nothing that was ever stored is. -/
theorem look (h : Sound s) {lock : RwLock} {next : State}
    (hothers : ∀ j, j ≠ i → s.lock.writer = some j → lock.writer = some j)
    (hnext : (∀ e ∈ s.stored, healthCacheFresh s.now e = false) → Sound next) :
    Sound (s.look i lock next) := by
  unfold State.look
  split
  · rename_i value hfresh
    obtain ⟨e, hcache, hlive, rfl⟩ := fresh_eq_some.mp hfresh
    apply h.move hothers
    · simp
    · simp
    · intro v checked hp
      cases hp
      have hmem := h.cached e hcache
      exact ⟨le_rfl, e, hmem, rfl, h.past e hmem, hlive⟩
  · rename_i hfresh
    apply hnext
    intro e he
    by_contra hlive
    rw [Bool.not_eq_false] at hlive
    have hdead := fresh_eq_none.mp hfresh e (h.latest e he hlive)
    rw [hdead] at hlive
    cases hlive

theorem wait (h : Sound s) (nanos : Nat) : Sound { s with now := s.now + nanos } := by
  have hle : s.now ≤ s.now + nanos := Nat.le_add_right _ _
  constructor
  · exact h.holds
  · exact fun e he => (h.past e he).trans hle
  · exact fun e he hfresh => h.latest e he (healthCacheFresh_of_le hle hfresh)
  · exact h.cached
  · intro j hj e he
    by_contra hfresh
    rw [Bool.not_eq_false] at hfresh
    have hbefore := healthCacheFresh_of_le hle hfresh
    rw [h.stale j hj e he] at hbefore
    cases hbefore
  · intro j v checked hj
    obtain ⟨hchecked, hstored⟩ := h.returned j v checked hj
    exact ⟨hchecked.trans hle, hstored⟩

/-- The end of a probe. Nobody else probes, so that what was stored before is stale for all. -/
theorem finish (h : Sound s) (hi : s.phase i = .probing) (v : Json) :
    Sound ({ s with
      cache := some ⟨s.now, v⟩
      lock := s.lock.release i
      stored := ⟨s.now, v⟩ :: s.stored }.goto i (.returned v s.now)) := by
  have hwriter := h.holds i (Or.inr hi)
  have halone : ∀ j, j ≠ i → ¬ (s.phase j = .writing ∨ s.phase j = .probing) := by
    intro j hji hj
    exact hji (Option.some.inj ((h.holds j hj).symm.trans hwriter))
  constructor
  · intro j hj
    by_cases hji : j = i
    · subst hji
      rw [goto_self] at hj
      simp at hj
    · rw [goto_of_ne hji] at hj
      exact absurd hj (halone j hji)
  · intro e he
    rcases List.mem_cons.mp he with rfl | he
    · exact le_rfl
    · exact h.past e he
  · intro e he hfresh
    rcases List.mem_cons.mp he with rfl | he
    · rfl
    · have hstale := h.stale i hi e he
      exact absurd (hfresh.symm.trans hstale) (by decide)
  · intro e he
    cases he
    exact List.mem_cons_self ..
  · intro j hj
    by_cases hji : j = i
    · subst hji
      rw [goto_self] at hj
      cases hj
    · rw [goto_of_ne hji] at hj
      exact absurd (Or.inr hj) (halone j hji)
  · intro j v' checked hj
    by_cases hji : j = i
    · subst hji
      rw [goto_self] at hj
      cases hj
      exact ⟨le_rfl, _, List.mem_cons_self .., rfl, le_rfl, healthCacheFresh_self _ _⟩
    · rw [goto_of_ne hji] at hj
      obtain ⟨hchecked, e, he, hrest⟩ := h.returned j v' checked hj
      exact ⟨hchecked, e, List.mem_cons_of_mem _ he, hrest⟩

/-- What one step keeps. -/
theorem step {a : Act d} (h : Sound s) (hs : step d s a = some s') : Sound s' := by
  cases a with
  | wait nanos =>
      cases hs
      exact h.wait nanos
  | call i =>
      simp only [Health.step] at hs
      split at hs
      · cases hs
        exact h.move_plain (@same_others i s.lock) (by simp)
      · cases hs
  | lockRead i =>
      simp only [Health.step] at hs
      split at hs
      · obtain ⟨lock, hlock, rfl⟩ := Option.map_eq_some_iff.mp hs
        unfold RwLock.read? at hlock
        split at hlock
        · cases hlock
          exact h.move_plain (fun _ _ hl => hl) (by simp)
        · cases hlock
      · cases hs
  | check i =>
      simp only [Health.step] at hs
      split at hs
      · cases hs
        exact h.look release_others fun _ => h.move_plain release_others (by simp)
      · cases hs
  | lockWrite i =>
      simp only [Health.step] at hs
      split at hs
      · obtain ⟨lock, hlock, rfl⟩ := Option.map_eq_some_iff.mp hs
        unfold RwLock.write? at hlock
        split at hlock
        · rename_i hfree
          cases hlock
          have hnone : s.lock.writer = none := Option.isNone_iff_eq_none.mp hfree.1
          apply h.move
          · intro j _ hl
            rw [hnone] at hl
            cases hl
          · exact fun _ => rfl
          · simp
          · simp
        · cases hlock
      · cases hs
  | recheck i =>
      simp only [Health.step] at hs
      split at hs
      · rename_i hi
        cases hs
        refine h.look release_others fun hstale => ?_
        apply h.move (@same_others i s.lock)
        · exact fun _ => h.holds i (Or.inl hi)
        · exact fun _ => hstale
        · simp
      · cases hs
  | finish i probe =>
      simp only [Health.step] at hs
      split at hs
      · rename_i hi
        cases hs
        exact h.finish hi _
      · cases hs
  | drop i =>
      simp only [Health.step] at hs
      split at hs
      · cases hs
        exact h.move_plain release_others (by simp)
      · cases hs

theorem exclusive (h : Sound s) : Exclusive s := by
  intro i j hi hj
  have hwriter := h.holds i (Or.inr hi)
  rw [h.holds j (Or.inr hj)] at hwriter
  exact (Option.some.inj hwriter).symm

end Sound

theorem mem_stored_look {lock : RwLock} {next : State} {e : Entry} (he : e ∈ s.stored)
    (hnext : e ∈ next.stored) : e ∈ (s.look i lock next).stored := by
  unfold State.look
  split
  · exact he
  · exact hnext

/-- Nothing that was stored is forgotten. -/
theorem mem_stored_step {a : Act d} (hs : step d s a = some s') {e : Entry} (he : e ∈ s.stored) :
    e ∈ s'.stored := by
  cases a with
  | wait nanos =>
      cases hs
      exact he
  | call i =>
      simp only [step] at hs
      split at hs <;> cases hs
      exact he
  | lockRead i =>
      simp only [step] at hs
      split at hs
      · obtain ⟨lock, -, rfl⟩ := Option.map_eq_some_iff.mp hs
        exact he
      · cases hs
  | check i =>
      simp only [step] at hs
      split at hs <;> cases hs
      exact mem_stored_look he he
  | lockWrite i =>
      simp only [step] at hs
      split at hs
      · obtain ⟨lock, -, rfl⟩ := Option.map_eq_some_iff.mp hs
        exact he
      · cases hs
  | recheck i =>
      simp only [step] at hs
      split at hs <;> cases hs
      exact mem_stored_look he he
  | finish i probe =>
      simp only [step] at hs
      split at hs <;> cases hs
      exact List.mem_cons_of_mem _ he
  | drop i =>
      simp only [step] at hs
      split at hs <;> cases hs
      exact he

/-- In every run of calls, however they are interleaved and dropped: probes exclude one another,
a probe is only started when no stored value is within its lifetime, and whatever a call returns
was stored by a probe and fresh when it was checked. -/
theorem health_cache (d : Dependency) (now : Nat) (acts : List (Act d)) (s : State)
    (hrun : Trace.run (step d) (.initial now) acts = some s) :
    Exclusive s ∧
      (∀ a s' i, step d s a = some s' → s.phase i ≠ .probing → s'.phase i = .probing →
        ∀ e ∈ s.stored, healthCacheFresh s'.now e = false) ∧
      ReturnedFresh s := by
  have hsound : Sound s :=
    Trace.run_keeps (fun _ _ _ h hs => h.step hs) (sound_initial now) hrun
  refine ⟨hsound.exclusive, ?_, hsound.returned⟩
  intro a s' i hs hbefore hprobing e he
  exact (hsound.step hs).stale i hprobing e (mem_stored_step hs he)

end Health

namespace Sample

/-- Two calls that both miss the cache. The second one gets the write lock after the probe of the
first. -/
def twoChecks : List (Health.Act .db) :=
  [.call 0, .call 1, .lockRead 0, .lockRead 1, .check 0, .check 1, .lockWrite 0, .recheck 0,
    .wait 5000, .finish 0 (.connected (.ok ())), .lockWrite 1, .recheck 1]

def checked : Health.State :=
  ((Trace.run (Health.step .db) (.initial 0) twoChecks).get (by decide))

end Sample

theorem Health.health_cache_two :
    Health.Exclusive Sample.checked ∧
      (∀ a s' i, Health.step .db Sample.checked a = some s' →
        Sample.checked.phase i ≠ .probing → s'.phase i = .probing →
        ∀ e ∈ Sample.checked.stored, Health.healthCacheFresh s'.now e = false) ∧
      Health.ReturnedFresh Sample.checked :=
  Health.health_cache .db 0 Sample.twoChecks Sample.checked (Option.some_get _).symm

end FullStackHex
