import FullStackHex.Library.History

/-!
One way to carry out the commands in place of another. Where every command is answered alike and
the states stay related, every run of a system with the one is a run with the other: the same calls
and commands in the same order, the same replies and the same results.
-/

namespace Concurrent

variable {ε κ C : Type} {R : C → Type} {σ τ α : Type}

/-- The commands that satisfy `ok` are answered alike, and the states stay related. -/
structure Exec.Simulates (X : Exec ε C R σ) (Y : Exec ε C R τ) (ok : C → Prop)
    (rel : σ → τ → Prop) : Prop where
  reply : ∀ i e c s t, ok c → rel s t → (X i e c s).1 = (Y i e c t).1
  next : ∀ i e c s t, ok c → rel s t → rel (X i e c s).2 (Y i e c t).2

/-- Related states after the same commands. -/
def Recorded.Alike (rel : σ → τ → Prop) (s : Recorded ε C R σ) (t : Recorded ε C R τ) : Prop :=
  s.log = t.log ∧ rel s.state t.state

theorem Exec.Simulates.recorded {X : Exec ε C R σ} {Y : Exec ε C R τ} {ok : C → Prop}
    {rel : σ → τ → Prop} (h : X.Simulates Y ok rel) :
    X.recorded.Simulates Y.recorded ok (Recorded.Alike rel) := by
  constructor
  · intro i e c s t hok hrel
    exact h.reply i e c s.state t.state hok hrel.2
  · intro i e c s t hok hrel
    have hreply := h.reply i e c s.state t.state hok hrel.2
    refine ⟨?_, h.next i e c s.state t.state hok hrel.2⟩
    rw [Exec.recorded_log, Exec.recorded_log, hrel.1, hreply]

/-- All of a configuration but the shared state, and the states in which the calls began. -/
def Config.threads (cfg : Config κ C R σ α) : List (κ × Nat × Nat × Program C R α) :=
  cfg.tasks.map fun task => (task.call, task.began, task.last, task.program)

/-- The same calls, as far along, over related states. -/
structure Config.Alike (rel : σ → τ → Prop) (cfg : Config κ C R σ α) (cfg' : Config κ C R τ α) :
    Prop where
  threads : cfg.threads = cfg'.threads
  clock : cfg.clock = cfg'.clock
  shared : rel cfg.shared cfg'.shared

section Alike

variable {rel : σ → τ → Prop} {cfg : Config κ C R σ α} {cfg' : Config κ C R τ α}

theorem Config.Alike.summary (h : Config.Alike rel cfg cfg') : cfg.summary = cfg'.summary := by
  have hthreads := congrArg (List.map fun thread : κ × Nat × Nat × Program C R α =>
    (thread.1, thread.2.1, thread.2.2.1, thread.2.2.2.result?)) h.threads
  simpa only [Config.threads, Config.summary, List.map_map, Function.comp_def] using hthreads

/-- A call of the one is a call of the other, with the same rest of its program. -/
theorem Config.Alike.task (h : Config.Alike rel cfg cfg') {i : Nat} {task : Task κ C R σ α}
    (htask : cfg.tasks[i]? = some task) :
    ∃ task', cfg'.tasks[i]? = some task' ∧ task'.call = task.call ∧ task'.began = task.began ∧
      task'.last = task.last ∧ task'.program = task.program := by
  have hthread : cfg'.threads[i]? = some (task.call, task.began, task.last, task.program) := by
    rw [← h.threads, Config.threads, List.getElem?_map, htask]
    rfl
  rw [Config.threads, List.getElem?_map] at hthread
  obtain ⟨task', htask', heq⟩ := Option.map_eq_some_iff.mp hthread
  simp only [Prod.mk.injEq] at heq
  exact ⟨task', htask', heq.1, heq.2.1, heq.2.2.1, heq.2.2.2⟩

theorem Config.Alike.start {S : System ε κ C R σ α} {T : System ε κ C R τ α}
    (hbody : S.body = T.body) (h : Config.Alike rel cfg cfg') (k : κ) :
    Config.Alike rel (cfg.start S k) (cfg'.start T k) := by
  constructor
  · have hthreads := h.threads
    unfold Config.threads at hthreads
    simp only [Config.threads, Config.start, List.map_append, hthreads, List.map_cons,
      List.map_nil, hbody, h.clock]
  · exact congrArg (· + 1) h.clock
  · exact h.shared

theorem Config.Alike.resume {S : System ε κ C R σ α} {T : System ε κ C R τ α} {ok : C → Prop}
    (hexec : S.exec.Simulates T.exec ok rel) (h : Config.Alike rel cfg cfg') {i : Nat} (e : ε)
    {task : Task κ C R σ α} {task' : Task κ C R τ α} (hcall : task'.call = task.call)
    (hbegan : task'.began = task.began) {c : C} (hok : ok c) (next : R c → Program C R α) :
    Config.Alike rel (cfg.resume S i e task c next) (cfg'.resume T i e task' c next) := by
  have hreply := hexec.reply i e c cfg.shared cfg'.shared hok h.shared
  constructor
  · have hthreads := h.threads
    unfold Config.threads at hthreads
    simp only [Config.threads, Config.resume, List.map_set, hthreads, hcall, hbegan, h.clock,
      hreply]
  · exact congrArg (· + 1) h.clock
  · exact hexec.next i e c cfg.shared cfg'.shared hok h.shared

end Alike

/-- Every run of the one system is a run of the other. -/
theorem Reach.simulated {S : System ε κ C R σ α} {T : System ε κ C R τ α} {rel : σ → τ → Prop}
    {ok : C → Prop} (hbody : S.body = T.body) (hexec : S.exec.Simulates T.exec ok rel)
    {init : τ → Prop} {cfg : Config κ C R σ α}
    (h : Reach S (fun s => ∃ t, init t ∧ rel s t) (fun _ _ _ _ c _ => ok c) cfg) :
    ∃ cfg', Reach T init (fun _ _ _ _ c _ => ok c) cfg' ∧ Config.Alike rel cfg cfg' := by
  induction h with
  | @initial s hs =>
      obtain ⟨t, ht, hrel⟩ := hs
      exact ⟨Config.initial t, .initial ht, ⟨rfl, rfl, hrel⟩⟩
  | start k _ ih =>
      obtain ⟨cfg', hreach, halike⟩ := ih
      exact ⟨cfg'.start T k, .start k hreach, halike.start hbody k⟩
  | @resume cfg i e task c next _ htask hprog hok ih =>
      obtain ⟨cfg', hreach, halike⟩ := ih
      obtain ⟨task', htask', hcall, hbegan, _, hprog'⟩ := halike.task htask
      exact ⟨cfg'.resume T i e task' c next, .resume hreach htask' (hprog'.trans hprog) hok,
        halike.resume hexec e hcall hbegan hok next⟩

end Concurrent
