import FullStackHex.Library.Program

/-!
Interleaved runs of any number of programs over one shared state, and a
rely-guarantee rule for them. A run starts calls and lets the calls in flight
issue their commands in any order. `Reach` restricts the commands by a
condition `ok` that may look at the issuing call, at the state in which that
call began and at the present state.

The rule (`Contract.sound`) asks for a proof outline of each body. An
assertion of an outline has to survive the commands of all other calls
(`Stable`), which in turn are known to keep to the guarantee that their own
outlines establish.
-/

namespace Concurrent

/-- The effect of a command. It may depend on the number of the issuing task
and on a choice `ε` of the environment. -/
abbrev Exec (ε C : Type) (R : C → Type) (σ : Type) :=
  Nat → ε → (c : C) → σ → R c × σ

/-- The effect of the commands, the calls `κ` and the program behind each. -/
structure System (ε κ C : Type) (R : C → Type) (σ α : Type) where
  exec : Exec ε C R σ
  body : κ → Program C R α

/-- One call: when it began, in which state, when it last moved, and the rest
of its program. -/
structure Task (κ C : Type) (R : C → Type) (σ α : Type) where
  call : κ
  began : Nat
  last : Nat
  before : σ
  program : Program C R α

/-- The shared state and every call so far. A call that has returned keeps its
place with a program that is its result. -/
structure Config (κ C : Type) (R : C → Type) (σ α : Type) where
  shared : σ
  tasks : List (Task κ C R σ α)
  clock : Nat

inductive Label (ε κ : Type) where
  | start (call : κ)
  | step (task : Nat) (choice : ε)

variable {ε κ C : Type} {R : C → Type} {σ α β γ : Type}

namespace Config

def initial (s : σ) : Config κ C R σ α := ⟨s, [], 0⟩

/-- A new call begins. Nothing is shared by beginning. -/
def start (S : System ε κ C R σ α) (cfg : Config κ C R σ α) (k : κ) :
    Config κ C R σ α where
  shared := cfg.shared
  tasks := cfg.tasks ++ [⟨k, cfg.clock, cfg.clock, cfg.shared, S.body k⟩]
  clock := cfg.clock + 1

/-- Task `i` issues its next command `c` and continues with the reply. -/
def resume (S : System ε κ C R σ α) (cfg : Config κ C R σ α) (i : Nat) (e : ε)
    (task : Task κ C R σ α) (c : C) (next : R c → Program C R α) :
    Config κ C R σ α where
  shared := (S.exec i e c cfg.shared).2
  tasks := cfg.tasks.set i
    { task with last := cfg.clock, program := next (S.exec i e c cfg.shared).1 }
  clock := cfg.clock + 1

/-- Every call so far: when it began, when it last moved, and its result. -/
def summary (cfg : Config κ C R σ α) : List (κ × Nat × Nat × Option α) :=
  cfg.tasks.map fun task => (task.call, task.began, task.last, task.program.result?)

/-- Task `i` is `t`, and it has returned `a`. -/
def Returned (cfg : Config κ C R σ α) (i : Nat) (t : Task κ C R σ α) (a : α) : Prop :=
  cfg.tasks[i]? = some t ∧ t.program = .ret a

theorem returned_of_summary (cfg : Config κ C R σ α) {i : Nat} {call : κ} {began last : Nat}
    {a : α} (h : cfg.summary[i]? = some (call, began, last, some a)) :
    ∃ t, cfg.Returned i t a ∧ t.call = call ∧ t.began = began ∧ t.last = last := by
  unfold summary at h
  rw [List.getElem?_map] at h
  obtain ⟨t, ht, heq⟩ := Option.map_eq_some_iff.mp h
  simp only [Prod.mk.injEq] at heq
  obtain ⟨hcall, hbegan, hlast, hresult⟩ := heq
  exact ⟨t, ⟨ht, (Program.result?_eq_some _ _).mp hresult⟩, hcall, hbegan, hlast⟩

end Config

/-- A condition on the commands of a run: task number, call, state in which
the call began, choice of the environment, command, present state. -/
abbrev Condition (ε κ C σ : Type) := Nat → κ → σ → ε → C → σ → Prop

/-- The configurations of all runs whose commands meet the condition `ok`. -/
inductive Reach (S : System ε κ C R σ α) (init : σ → Prop)
    (ok : Condition ε κ C σ) : Config κ C R σ α → Prop
  | initial {s : σ} (hs : init s) : Reach S init ok (Config.initial s)
  | start {cfg : Config κ C R σ α} (k : κ) (h : Reach S init ok cfg) :
      Reach S init ok (cfg.start S k)
  | resume {cfg : Config κ C R σ α} {i : Nat} {e : ε} {task : Task κ C R σ α} {c : C}
      {next : R c → Program C R α} (h : Reach S init ok cfg)
      (htask : cfg.tasks[i]? = some task) (hprog : task.program = .cmd c next)
      (hok : ok i task.call task.before e c cfg.shared) :
      Reach S init ok (cfg.resume S i e task c next)

/-- A run that meets a condition meets every weaker one. -/
theorem Reach.mono {S : System ε κ C R σ α} {init : σ → Prop}
    {ok ok' : Condition ε κ C σ}
    (hok : ∀ i k s₀ e c s, ok i k s₀ e c s → ok' i k s₀ e c s)
    {cfg : Config κ C R σ α} (h : Reach S init ok cfg) : Reach S init ok' cfg := by
  induction h with
  | initial hs => exact .initial hs
  | start k _ ih => exact .start k ih
  | resume _ htask hprog hcond ih =>
      exact .resume ih htask hprog (hok _ _ _ _ _ _ hcond)

/-- What holds initially and survives every step holds of every state reached. -/
theorem Reach.invariant {S : System ε κ C R σ α} {init : σ → Prop} {ok : Condition ε κ C σ}
    {inv : σ → Prop} (hinit : ∀ s, init s → inv s)
    (hstep : ∀ i k s₀ e c s, inv s → ok i k s₀ e c s → inv (S.exec i e c s).2)
    {cfg : Config κ C R σ α} (h : Reach S init ok cfg) : inv cfg.shared := by
  induction h with
  | initial hs => exact hinit _ hs
  | start k _ ih => exact ih
  | resume _ _ _ hok ih => exact hstep _ _ _ _ _ _ ih hok

/-- The run that a list of labels prescribes, if all its commands meet `ok`. -/
def Config.followIf (S : System ε κ C R σ α) (ok : Condition ε κ C σ)
    [∀ i k s₀ e c s, Decidable (ok i k s₀ e c s)] (cfg : Config κ C R σ α) :
    List (Label ε κ) → Option (Config κ C R σ α)
  | [] => some cfg
  | .start k :: rest => (cfg.start S k).followIf S ok rest
  | .step i e :: rest =>
      match cfg.tasks[i]? with
      | none => none
      | some task =>
          match task.program with
          | .ret _ => none
          | .cmd c next =>
              if ok i task.call task.before e c cfg.shared then
                (cfg.resume S i e task c next).followIf S ok rest
              else none

theorem Reach.of_followIf {S : System ε κ C R σ α} {init : σ → Prop}
    {ok : Condition ε κ C σ} [∀ i k s₀ e c s, Decidable (ok i k s₀ e c s)]
    {labels : List (Label ε κ)} {cfg cfg' : Config κ C R σ α} (h : Reach S init ok cfg)
    (hrun : cfg.followIf S ok labels = some cfg') : Reach S init ok cfg' := by
  induction labels generalizing cfg with
  | nil => exact Option.some.inj hrun ▸ h
  | cons l rest ih =>
      cases l with
      | start k => exact ih (.start k h) hrun
      | step i e =>
          simp only [Config.followIf] at hrun
          split at hrun
          · cases hrun
          · rename_i task htask
            split at hrun
            · cases hrun
            · rename_i c next hprog
              split at hrun
              · rename_i hok
                exact ih (.resume h htask hprog hok) hrun
              · cases hrun

/-- What a proof about the runs of a system is made of: the condition on the
runs, an invariant of the shared state, what each task guarantees about its own
commands, and what a call has established when it returns. -/
structure Contract (ε κ C σ α : Type) where
  ok : Condition ε κ C σ
  inv : σ → Prop
  guar : Nat → C → σ → Prop
  post : Nat → κ → σ → α → σ → Prop

section Logic

variable (X : Exec ε C R σ) (K : Contract ε κ C σ α)

/-- `P` survives every command of every task other than `i`. -/
def Stable (i : Nat) (P : σ → Prop) : Prop :=
  ∀ j k s₀ e c s, j ≠ i → K.inv s → K.ok j k s₀ e c s → K.guar j c s → P s →
    P (X j e c s).2

/-- `P` survives every command, whichever task issues it. -/
def Preserved (P : σ → Prop) : Prop :=
  ∀ j k s₀ e c s, K.inv s → K.ok j k s₀ e c s → K.guar j c s → P s → P (X j e c s).2

/-- A proof outline: from `P`, the program of task `i` keeps to its guarantee
and establishes `Q` on return, with a stable assertion after each command. -/
def Outline (i : Nat) (k : κ) (s₀ : σ) :
    Program C R β → (σ → Prop) → (β → σ → Prop) → Prop
  | .ret b, P, Q => ∀ s, K.inv s → P s → Q b s
  | .cmd c next, P, Q => ∀ e s, K.inv s → P s → K.ok i k s₀ e c s →
      K.guar i c s ∧ ∃ P', Stable X K i P' ∧ P' (X i e c s).2 ∧
        Outline i k s₀ (next (X i e c s).1) P' Q

variable {X K} {i : Nat} {k : κ} {s₀ : σ}

theorem Preserved.stable {P : σ → Prop} (h : Preserved X K P) : Stable X K i P := by
  intro j k s₀ e c s _ hinv hok hguar hs
  exact h j k s₀ e c s hinv hok hguar hs

theorem Preserved.const (p : Prop) : Preserved X K fun _ => p := by
  intro j k s₀ e c s _ _ _ h
  exact h

theorem Preserved.and {P Q : σ → Prop} (hP : Preserved X K P) (hQ : Preserved X K Q) :
    Preserved X K fun s => P s ∧ Q s := by
  intro j k s₀ e c s hinv hok hguar h
  exact ⟨hP j k s₀ e c s hinv hok hguar h.1, hQ j k s₀ e c s hinv hok hguar h.2⟩

theorem Preserved.all {ι : Sort*} {P : ι → σ → Prop} (hP : ∀ x, Preserved X K (P x)) :
    Preserved X K fun s => ∀ x, P x s := by
  intro j k s₀ e c s hinv hok hguar h x
  exact hP x j k s₀ e c s hinv hok hguar (h x)

theorem Preserved.imp {p : Prop} {P : σ → Prop} (hP : p → Preserved X K P) :
    Preserved X K fun s => p → P s := by
  intro j k s₀ e c s hinv hok hguar h hp
  exact hP hp j k s₀ e c s hinv hok hguar (h hp)

theorem Stable.const (p : Prop) : Stable X K i fun _ => p := by
  intro j k s₀ e c s _ _ _ _ h
  exact h

theorem Stable.and {P Q : σ → Prop} (hP : Stable X K i P) (hQ : Stable X K i Q) :
    Stable X K i fun s => P s ∧ Q s := by
  intro j k s₀ e c s hj hinv hok hguar h
  exact ⟨hP j k s₀ e c s hj hinv hok hguar h.1, hQ j k s₀ e c s hj hinv hok hguar h.2⟩

theorem Stable.or {P Q : σ → Prop} (hP : Stable X K i P) (hQ : Stable X K i Q) :
    Stable X K i fun s => P s ∨ Q s := by
  intro j k s₀ e c s hj hinv hok hguar h
  exact h.imp (hP j k s₀ e c s hj hinv hok hguar) (hQ j k s₀ e c s hj hinv hok hguar)

theorem Stable.imp {p : Prop} {P : σ → Prop} (hP : p → Stable X K i P) :
    Stable X K i fun s => p → P s := by
  intro j k s₀ e c s hj hinv hok hguar h hp
  exact hP hp j k s₀ e c s hj hinv hok hguar (h hp)

theorem Stable.all {ι : Sort*} {P : ι → σ → Prop} (hP : ∀ x, Stable X K i (P x)) :
    Stable X K i fun s => ∀ x, P x s := by
  intro j k s₀ e c s hj hinv hok hguar h x
  exact hP x j k s₀ e c s hj hinv hok hguar (h x)

theorem Outline.mono {p : Program C R β} {P P' : σ → Prop} {Q Q' : β → σ → Prop}
    (h : Outline X K i k s₀ p P Q) (hP : ∀ s, K.inv s → P' s → P s)
    (hQ : ∀ b s, K.inv s → Q b s → Q' b s) : Outline X K i k s₀ p P' Q' := by
  induction p generalizing P P' with
  | ret b =>
      intro s hinv hs
      exact hQ b s hinv (h s hinv (hP s hinv hs))
  | cmd c next ih =>
      intro e s hinv hs hok
      obtain ⟨hguar, M, hM, hMs, hnext⟩ := h e s hinv (hP s hinv hs) hok
      exact ⟨hguar, M, hM, hMs, ih _ hnext fun _ _ hM => hM⟩

/-- One command: `M` is what is known after it, by its reply. -/
theorem Outline.step {c : C} {next : R c → Program C R β} {P : σ → Prop} {Q : β → σ → Prop}
    (M : R c → σ → Prop) (hM : ∀ r, Stable X K i (M r))
    (hexec : ∀ e s, K.inv s → P s → K.ok i k s₀ e c s →
      K.guar i c s ∧ M (X i e c s).1 (X i e c s).2)
    (hnext : ∀ r, Outline X K i k s₀ (next r) (M r) Q) :
    Outline X K i k s₀ (.cmd c next) P Q := by
  intro e s hinv hs hok
  obtain ⟨hguar, hMs⟩ := hexec e s hinv hs hok
  exact ⟨hguar, _, hM _, hMs, hnext _⟩

/-- A returned value. -/
theorem Outline.ret {b : β} {P : σ → Prop} {Q : β → σ → Prop}
    (h : ∀ s, K.inv s → P s → Q b s) :
    Outline X K i k s₀ (.ret b : Program C R β) P Q := h

/-- Sequencing: the second program starts from what the first established. -/
theorem Outline.bind {p : Program C R β} {f : β → Program C R γ} {P : σ → Prop}
    {Q : β → σ → Prop} {Q' : γ → σ → Prop} (hp : Outline X K i k s₀ p P Q)
    (hf : ∀ b, Outline X K i k s₀ (f b) (Q b) Q') :
    Outline X K i k s₀ (p.bind f) P Q' := by
  induction p generalizing P with
  | ret b => exact (hf b).mono hp fun _ _ _ h => h
  | cmd c next ih =>
      intro e s hinv hs hok
      obtain ⟨hguar, M, hM, hMs, hnext⟩ := hp e s hinv hs hok
      exact ⟨hguar, M, hM, hMs, ih _ hnext⟩

/-- Sequencing for programs that may fail: an error skips the second one. -/
theorem Outline.bindExcept {δ : Type} {p : ExceptT δ (Program C R) β}
    {f : β → ExceptT δ (Program C R) γ} {P : σ → Prop}
    {Q : Except δ β → σ → Prop} {Q' : Except δ γ → σ → Prop}
    (hp : Outline X K i k s₀ p.run P Q)
    (hf : ∀ b, Outline X K i k s₀ (f b).run (Q (.ok b)) Q')
    (herror : ∀ err s, K.inv s → Q (.error err) s → Q' (.error err) s) :
    Outline X K i k s₀ (p >>= f).run P Q' := by
  refine Outline.bind hp fun r => ?_
  cases r with
  | ok b => exact hf b
  | error err => exact herror err

/-- The result of a program that does not fail, as a step of one that may. -/
theorem Outline.lift {δ : Type} {p : Program C R β} {P : σ → Prop}
    {Q : Except δ β → σ → Prop} (h : Outline X K i k s₀ p P fun b => Q (.ok b)) :
    Outline X K i k s₀ (ExceptT.lift p : ExceptT δ (Program C R) β).run P Q :=
  have hbind : Outline X K i k s₀ (p.bind fun b => .ret (Except.ok b)) P Q :=
    h.bind fun _ _ _ hs => hs
  hbind

theorem Outline.bindLift {δ : Type} {p : Program C R β}
    {f : β → ExceptT δ (Program C R) γ} {P : σ → Prop} {Q : β → σ → Prop}
    {Q' : Except δ γ → σ → Prop} (hp : Outline X K i k s₀ p P Q)
    (hf : ∀ b, Outline X K i k s₀ (f b).run (Q b) Q') :
    Outline X K i k s₀ (ExceptT.lift p >>= f).run P Q' := by
  refine Outline.bindExcept (Q := fun r s => ∃ b, r = .ok b ∧ Q b s)
    (Outline.lift (hp.mono (fun _ _ h => h) fun b _ _ h => ⟨b, rfl, h⟩)) (fun b => ?_) ?_
  · refine (hf b).mono (fun s _ h => ?_) fun _ _ _ h => h
    obtain ⟨b', heq, hQ⟩ := h
    cases heq
    exact hQ
  · rintro err s _ ⟨b, heq, _⟩
    cases heq

theorem Outline.adapt {δ δ' : Type} {g : δ → δ'} {p : ExceptT δ (Program C R) β}
    {P : σ → Prop} {Q : Except δ' β → σ → Prop}
    (h : Outline X K i k s₀ p.run P fun r => Q (r.mapError g)) :
    Outline X K i k s₀ (p.adapt g).run P Q :=
  have hbind : Outline X K i k s₀ (p.run.bind fun r => .ret (r.mapError g)) P Q :=
    h.bind fun _ _ _ hs => hs
  hbind

/-- A fact that every guaranteed command keeps may be carried along. -/
theorem Outline.carry {p : Program C R β} {P F : σ → Prop} {Q : β → σ → Prop}
    (h : Outline X K i k s₀ p P Q) (hF : Preserved X K F) :
    Outline X K i k s₀ p (fun s => P s ∧ F s) fun b s => Q b s ∧ F s := by
  induction p generalizing P with
  | ret b => exact fun s hinv hs => ⟨h s hinv hs.1, hs.2⟩
  | cmd c next ih =>
      intro e s hinv hs hok
      obtain ⟨hguar, M, hM, hMs, hnext⟩ := h e s hinv hs.1 hok
      exact ⟨hguar, fun s => M s ∧ F s, hM.and hF.stable,
        ⟨hMs, hF i k s₀ e c s hinv hok hguar hs.2⟩, ih _ hnext⟩

/-- One assertion that every command of the program keeps is enough where
nothing else has to be established. -/
theorem Outline.keep {p : Program C R β} {P : σ → Prop} (hP : Stable X K i P)
    (hp : p.All fun c => ∀ e s, K.inv s → P s → K.ok i k s₀ e c s →
      K.guar i c s ∧ P (X i e c s).2) :
    Outline X K i k s₀ p P fun _ => P := by
  induction p with
  | ret b => exact fun _ _ h => h
  | cmd c next ih =>
      intro e s hinv hs hok
      obtain ⟨hguar, hnext⟩ := hp.1 e s hinv hs hok
      exact ⟨hguar, P, hP, hnext, ih _ (hp.2 _)⟩

/-- The obligations of the rule: the invariant holds at first and survives
every guaranteed command, and every body has an outline. -/
structure Contract.Holds (S : System ε κ C R σ α) (K : Contract ε κ C σ α)
    (init : σ → Prop) : Prop where
  inv_init : ∀ s, init s → K.inv s
  inv_step : ∀ i k s₀ e c s, K.inv s → K.ok i k s₀ e c s → K.guar i c s →
    K.inv (S.exec i e c s).2
  post_stable : ∀ i k s₀ a, Stable S.exec K i (K.post i k s₀ a)
  body : ∀ i k s₀, K.inv s₀ → ∃ P, Stable S.exec K i P ∧ P s₀ ∧
    Outline S.exec K i k s₀ (S.body k) P (K.post i k s₀)

/-- What holds of every configuration of a run. -/
structure Sound (S : System ε κ C R σ α) (K : Contract ε κ C σ α)
    (cfg : Config κ C R σ α) : Prop where
  inv : K.inv cfg.shared
  earlier : ∀ t ∈ cfg.tasks, t.began < cfg.clock ∧ t.last < cfg.clock
  outline : ∀ i t, cfg.tasks[i]? = some t → ∃ P, Stable S.exec K i P ∧ P cfg.shared ∧
    Outline S.exec K i t.call t.before t.program P (K.post i t.call t.before)
  before : ∀ (i j : Nat) (t u : Task κ C R σ α) (a : α), cfg.Returned i t a →
    cfg.tasks[j]? = some u → t.last < u.began → K.post i t.call t.before a u.before

theorem Sound.post {S : System ε κ C R σ α} {cfg : Config κ C R σ α} (h : Sound S K cfg) {i : Nat}
    {t : Task κ C R σ α} {a : α} (ht : cfg.Returned i t a) :
    K.post i t.call t.before a cfg.shared := by
  obtain ⟨P, _, hP, hout⟩ := h.outline i t ht.1
  rw [ht.2] at hout
  exact hout cfg.shared h.inv hP

variable {S : System ε κ C R σ α}

theorem getElem?_snoc {xs : List β} {x y : β} {i : Nat}
    (h : (xs ++ [x])[i]? = some y) : xs[i]? = some y ∨ (i = xs.length ∧ y = x) := by
  rcases Nat.lt_or_ge i xs.length with hlt | hge
  · exact Or.inl (by rwa [List.getElem?_append_left hlt] at h)
  · rw [List.getElem?_append_right hge] at h
    obtain ⟨hi, hx⟩ := List.getElem?_eq_some_iff.mp h
    simp only [List.length_singleton] at hi
    exact Or.inr ⟨by omega, by simpa using hx.symm⟩

private theorem Sound.start {init : σ → Prop} (hK : K.Holds S init)
    {cfg : Config κ C R σ α} (h : Sound S K cfg) (k : κ) : Sound S K (cfg.start S k) where
  inv := h.inv
  earlier := by
    intro t ht
    rcases List.mem_append.mp ht with hold | hnew
    · have := h.earlier t hold
      simp only [Config.start]
      omega
    · simp only [List.mem_singleton] at hnew
      subst hnew
      simp [Config.start]
  outline := by
    intro i t ht
    rcases getElem?_snoc ht with hold | ⟨_, rfl⟩
    · exact h.outline i t hold
    · exact hK.body i k cfg.shared h.inv
  before := by
    intro i j t u a ht hu hlt
    rcases getElem?_snoc ht.1 with hi | ⟨_, rfl⟩
    · rcases getElem?_snoc hu with hj | ⟨_, rfl⟩
      · exact h.before i j t u a ⟨hi, ht.2⟩ hj hlt
      · exact h.post ⟨hi, ht.2⟩
    · rcases getElem?_snoc hu with hj | ⟨_, rfl⟩
      · have := (h.earlier u (List.mem_of_getElem? hj)).1
        simp only at hlt
        omega
      · exact absurd hlt (lt_irrefl _)

private theorem Sound.resume {init : σ → Prop} (hK : K.Holds S init)
    {cfg : Config κ C R σ α} (h : Sound S K cfg) {i : Nat} {e : ε}
    {task : Task κ C R σ α} {c : C} {next : R c → Program C R α}
    (htask : cfg.tasks[i]? = some task) (hprog : task.program = .cmd c next)
    (hok : K.ok i task.call task.before e c cfg.shared) :
    Sound S K (cfg.resume S i e task c next) := by
  have hi : i < cfg.tasks.length := (List.getElem?_eq_some_iff.mp htask).1
  obtain ⟨P, _, hP, hout⟩ := h.outline i task htask
  rw [hprog] at hout
  obtain ⟨hguar, M, hM, hMs, hnext⟩ := hout e cfg.shared h.inv hP hok
  -- a task of the new configuration is an old one, or task `i` after its command
  have hcases : ∀ {j : Nat} {t : Task κ C R σ α},
      (cfg.resume S i e task c next).tasks[j]? = some t →
      (j ≠ i ∧ cfg.tasks[j]? = some t) ∨ (j = i ∧
        t = { task with last := cfg.clock, program := next (S.exec i e c cfg.shared).1 }) := by
    intro j t ht
    by_cases hj : j = i
    · subst hj
      simp only [Config.resume, List.getElem?_set_self hi, Option.some.injEq] at ht
      exact Or.inr ⟨rfl, ht.symm⟩
    · simp only [Config.resume, List.getElem?_set_ne (Ne.symm hj)] at ht
      exact Or.inl ⟨hj, ht⟩
  refine ⟨hK.inv_step i _ _ e c _ h.inv hok hguar, ?_, ?_, ?_⟩
  · intro t ht
    have htask' := h.earlier task (List.mem_of_getElem? htask)
    obtain ⟨j, hj⟩ := List.mem_iff_getElem?.mp ht
    rcases hcases hj with ⟨_, hold⟩ | ⟨_, rfl⟩
    · have := h.earlier t (List.mem_of_getElem? hold)
      simp only [Config.resume]
      omega
    · simp only [Config.resume]
      omega
  · intro j t ht
    rcases hcases ht with ⟨hj, hold⟩ | ⟨rfl, rfl⟩
    · obtain ⟨P', hP', hPs', hout'⟩ := h.outline j t hold
      exact ⟨P', hP', hP' i _ _ e c _ (Ne.symm hj) h.inv hok hguar hPs', hout'⟩
    · exact ⟨M, hM, hMs, hnext⟩
  · intro j l t u a ht hu hlt
    have hu' : ∃ u', cfg.tasks[l]? = some u' ∧ u'.began = u.began ∧ u'.before = u.before := by
      rcases hcases hu with ⟨_, hold⟩ | ⟨rfl, rfl⟩
      · exact ⟨u, hold, rfl, rfl⟩
      · exact ⟨task, htask, rfl, rfl⟩
    obtain ⟨u', hl, hbegan, hbefore⟩ := hu'
    rcases hcases ht.1 with ⟨_, hold⟩ | ⟨rfl, rfl⟩
    · rw [← hbefore]
      exact h.before j l t u' a ⟨hold, ht.2⟩ hl (by omega)
    · have := (h.earlier u' (List.mem_of_getElem? hl)).1
      simp only at hlt
      omega

/-- The rely-guarantee rule: the outlines hold of every interleaved run. -/
theorem Contract.Holds.sound {init : σ → Prop} (hK : K.Holds S init)
    {cfg : Config κ C R σ α} (h : Reach S init K.ok cfg) : Sound S K cfg := by
  induction h with
  | initial hs =>
      refine ⟨hK.inv_init _ hs, ?_, ?_, ?_⟩
      · intro t ht
        cases ht
      · intro i t ht
        simp [Config.initial] at ht
      · intro i j t u a ht
        simp [Config.Returned, Config.initial] at ht
  | start k _ ih => exact ih.start hK k
  | resume _ htask hprog hok ih => exact ih.resume hK htask hprog hok

end Logic

end Concurrent
