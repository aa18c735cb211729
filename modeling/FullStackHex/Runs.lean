import FullStackHex.Steps
import FullStackHex.Library.History

/-!
Runs of many requests over one world, with a log of all commands. Session ids
and tokens are drawn at random; a draw is fresh when the text has been neither
drawn nor presented before.
-/

namespace FullStackHex

open Concurrent Expiring

/-- The world and all that happened in it. -/
abbrev State := Recorded Choice Cmd Reply World

def exec : Exec Choice Cmd Reply State := Exec.recorded fun _ => World.exec

/-- The session ids and tokens that a command is given. -/
def Cmd.keys : Cmd → List String
  | .sessionCacheGet id | .sessionCachePut id _ | .sessionCacheRemove id | .sessionGet id
  | .sessionDestroy id | .sessionExpire id _ => [id]
  | .delSessions ids => ids
  | .get _ key | .set _ key _ _ | .del _ key | .getdel _ key => [key]
  | _ => []

/-- A session id or token that the command draws. -/
def Cmd.drawn (e : Choice) : Cmd → List String
  | .sessionCreate _ _ | .setFresh _ _ _ => [e.token]
  | _ => []

def State.names (s : State) : List String :=
  s.log.flatMap fun ev => ev.command.keys ++ ev.command.drawn ev.choice

/-- The text occurs in the log as a session id or token. -/
def Named (s : State) (key : String) : Prop := key ∈ s.names

/-- The random draws of the step are new. -/
def Fresh (e : Choice) (c : Cmd) (s : State) : Prop := ∀ key ∈ c.drawn e, ¬ Named s key

instance (s : State) (key : String) : Decidable (Named s key) :=
  inferInstanceAs (Decidable (_ ∈ _))

instance (e : Choice) (c : Cmd) (s : State) : Decidable (Fresh e c s) :=
  inferInstanceAs (Decidable (∀ key ∈ c.drawn e, _))

theorem named_step {i : Nat} {e : Choice} {c : Cmd} {s : State} {key : String} :
    Named (exec i e c s).2 key ↔ Named s key ∨ key ∈ c.keys ∨ key ∈ c.drawn e := by
  unfold Named State.names exec
  simp only [Exec.recorded_log, List.flatMap_append, List.mem_append, List.flatMap_cons,
    List.flatMap_nil, List.append_nil]

theorem Named.step {i : Nat} {e : Choice} {c : Cmd} {s : State} {key : String}
    (h : Named s key) : Named (exec i e c s).2 key := named_step.mpr (Or.inl h)

theorem Named.preserved {κ α : Type} {K : Contract Choice κ Cmd State α} (key : String) :
    Preserved exec K fun s => Named s key := by
  intro j k s₀ e c s _ _ _ h
  exact h.step

/-- Task `i` has caused an event of this kind. -/
def Did (p : Event Choice Cmd Reply → Bool) (i : Nat) (s : State) : Prop :=
  ∃ ev ∈ s.log, ev.task = i ∧ p ev = true

theorem Did.step {p : Event Choice Cmd Reply → Bool} {i j : Nat} {e : Choice} {c : Cmd}
    {s : State} (h : Did p i s) : Did p i (exec j e c s).2 := by
  obtain ⟨ev, hmem, hev⟩ := h
  exact ⟨ev, Exec.recorded_grows _ j e c s hmem, hev⟩

theorem did_step {p : Event Choice Cmd Reply → Bool} {i j : Nat} {e : Choice} {c : Cmd}
    {s : State} : Did p i (exec j e c s).2 ↔
      Did p i s ∨ (j = i ∧ p ⟨j, e, c, (exec j e c s).1⟩ = true) := by
  unfold Did
  simp only [exec, Exec.recorded_log, Exec.recorded_reply, List.mem_append, List.mem_singleton,
    or_and_right, exists_or, exists_eq_left]

instance (p : Event Choice Cmd Reply → Bool) (i : Nat) (s : State) : Decidable (Did p i s) :=
  inferInstanceAs (Decidable (∃ ev ∈ s.log, _))

/-- A session for this user was created under this id. -/
def Issued (s : State) (userId : Uuid) (sessionId : String) : Prop :=
  ∃ ev ∈ s.log, ev.choice.token = sessionId ∧
    ∃ session ttl, ev.command = .sessionCreate session ttl ∧ session.userId = userId

theorem Issued.named {s : State} {userId : Uuid} {sessionId : String}
    (h : Issued s userId sessionId) : Named s sessionId := by
  obtain ⟨ev, hmem, rfl, session, ttl, hcmd, _⟩ := h
  refine List.mem_flatMap.mpr ⟨ev, hmem, ?_⟩
  rw [hcmd]
  exact List.mem_singleton_self _

theorem issued_step {i : Nat} {e : Choice} {c : Cmd} {s : State} {userId : Uuid}
    {sessionId : String} : Issued (exec i e c s).2 userId sessionId ↔
      Issued s userId sessionId ∨ (e.token = sessionId ∧
        ∃ session ttl, c = .sessionCreate session ttl ∧ session.userId = userId) := by
  unfold Issued
  simp only [exec, Exec.recorded_log, List.mem_append, List.mem_singleton, or_and_right,
    exists_or, exists_eq_left]

theorem Issued.step {i : Nat} {e : Choice} {c : Cmd} {s : State} {userId : Uuid}
    {sessionId : String} (h : Issued s userId sessionId) :
    Issued (exec i e c s).2 userId sessionId := issued_step.mpr (Or.inl h)

theorem Issued.preserved {κ α : Type} {K : Contract Choice κ Cmd State α}
    (userId : Uuid) (sessionId : String) :
    Preserved exec K fun s => Issued s userId sessionId := by
  intro j k s₀ e c s _ _ _ h
  exact h.step

theorem Issued.stable {κ α : Type} {K : Contract Choice κ Cmd State α} {i : Nat}
    (userId : Uuid) (sessionId : String) :
    Stable exec K i fun s => Issued s userId sessionId :=
  (Issued.preserved userId sessionId).stable

/-- A key that is known and holds no cached value. -/
def Spent (ns : Namespace) (key : String) (s : State) : Prop :=
  Named s key ∧ (s.state.cached ns).get s.state.now key = none

theorem Spent.step {i : Nat} {e : Choice} {c : Cmd} {s : State} {ns : Namespace} {key : String}
    (h : Spent ns key s) (hfresh : Fresh e c s)
    (hset : ∀ value ttl, c ≠ .set ns key value ttl) :
    Spent ns key (exec i e c s).2 := by
  refine ⟨h.1.step, ?_⟩
  rcases (World.exec_effect e c s.state).cached_none h.2 with hnone | ⟨value, ttl, hc | ⟨hc, hkey⟩⟩
  · exact hnone
  · exact absurd hc (hset value ttl)
  · subst hc
    exact absurd (hkey ▸ h.1) (hfresh e.token (List.mem_singleton_self _))

theorem World.answer_ok {α : Type} {w : World} {f : Fault} {r : Except CacheError α × World}
    {a : α} (h : (w.answer f r).1 = .ok a) : f = .none ∧ r.1 = .ok a := by
  cases f with
  | none => exact ⟨rfl, h⟩
  | refused message => cases h
  | lost message => cases h

theorem World.answerDb_ok {α : Type} {w : World} {f : Fault} {r : Except DbError α × World}
    {a : α} (h : (w.answerDb f r).1 = .ok a) : f = .none ∧ r.1 = .ok a := by
  cases f with
  | none => exact ⟨rfl, h⟩
  | refused message => cases h
  | lost message => cases h

/-- A deletion that succeeds leaves nothing under the key. -/
theorem Spent.of_del {i : Nat} {e : Choice} {s : State} {ns : Namespace} {key : String}
    (h : (exec i e (.del ns key) s).1 = .ok ()) : Spent ns key (exec i e (.del ns key) s).2 := by
  obtain ⟨hfault, _⟩ := World.answer_ok h
  refine ⟨named_step.mpr (Or.inr (Or.inl (List.mem_singleton_self _))), ?_⟩
  simp only [exec, Exec.recorded_state, World.exec, hfault, World.answer_none,
    World.setCached_self, Store.get_del_self]

end FullStackHex
