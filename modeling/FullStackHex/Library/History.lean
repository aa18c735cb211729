import FullStackHex.Library.Interleaving

/-!
Runs that keep a record of themselves: every command that was executed stands
in a log, with its task, the choice of the environment and the reply. Programs
do not see the log; statements about the past of a run read it, and what it
says once it says for ever.
-/

namespace Concurrent

structure Event (ε C : Type) (R : C → Type) where
  task : Nat
  choice : ε
  command : C
  reply : R command

structure Recorded (ε C : Type) (R : C → Type) (σ : Type) where
  state : σ
  log : List (Event ε C R)

variable {ε κ C : Type} {R : C → Type} {σ α : Type}

def Exec.recorded (X : Exec ε C R σ) : Exec ε C R (Recorded ε C R σ) := fun i e c s =>
  let r := X i e c s.state
  (r.1, ⟨r.2, s.log ++ [⟨i, e, c, r.1⟩]⟩)

section

variable (X : Exec ε C R σ) (i : Nat) (e : ε) (c : C) (s : Recorded ε C R σ)

@[simp] theorem Exec.recorded_reply : (X.recorded i e c s).1 = (X i e c s.state).1 := rfl

@[simp] theorem Exec.recorded_state :
    (X.recorded i e c s).2.state = (X i e c s.state).2 := rfl

@[simp] theorem Exec.recorded_log :
    (X.recorded i e c s).2.log = s.log ++ [⟨i, e, c, (X i e c s.state).1⟩] := rfl

theorem Exec.mem_recorded_log {ev : Event ε C R} :
    ev ∈ (X.recorded i e c s).2.log ↔ ev ∈ s.log ∨ ev = ⟨i, e, c, (X i e c s.state).1⟩ := by
  rw [recorded_log, List.mem_append, List.mem_singleton]

theorem Exec.recorded_grows {ev : Event ε C R} (h : ev ∈ s.log) :
    ev ∈ (X.recorded i e c s).2.log := (X.mem_recorded_log i e c s).mpr (Or.inl h)

theorem Exec.recorded_last :
    (⟨i, e, c, (X i e c s.state).1⟩ : Event ε C R) ∈ (X.recorded i e c s).2.log :=
  (X.mem_recorded_log i e c s).mpr (Or.inr rfl)

end

variable {X : Exec ε C R σ} {K : Contract ε κ C (Recorded ε C R σ) α} {i : Nat}

/-- What happened has happened. -/
theorem Stable.happened (p : Event ε C R → Prop) :
    Stable X.recorded K i fun s => ∃ ev ∈ s.log, p ev := by
  intro j k s₀ e c s _ _ _ _ h
  obtain ⟨ev, hmem, hp⟩ := h
  exact ⟨ev, X.recorded_grows j e c s hmem, hp⟩

/-! ## Whose events stand where -/

/-- The log names tasks that exist; what stood in it when a task began is still
there and names earlier tasks only; and a task that made its last move before has
caused nothing since. -/
structure Config.Chronicled (cfg : Config κ C R (Recorded ε C R σ) α) : Prop where
  task : ∀ ev ∈ cfg.shared.log, ev.task < cfg.tasks.length
  began : ∀ (i : Nat) (t : Task κ C R (Recorded ε C R σ) α), cfg.tasks[i]? = some t →
    t.before.log <+: cfg.shared.log ∧ ∀ ev ∈ t.before.log, ev.task < i
  clock : ∀ t ∈ cfg.tasks, t.last < cfg.clock ∧ t.began < cfg.clock
  ended : ∀ (i j : Nat) (t u : Task κ C R (Recorded ε C R σ) α), cfg.tasks[i]? = some t →
    cfg.tasks[j]? = some u → t.last < u.began →
    ∀ ev ∈ cfg.shared.log.drop u.before.log.length, ev.task ≠ i

section Chronicle

variable {S : System ε κ C R (Recorded ε C R σ) α} {cfg : Config κ C R (Recorded ε C R σ) α}

theorem Config.Chronicled.start (h : cfg.Chronicled) (k : κ) : (cfg.start S k).Chronicled where
  task ev hev := by
    have := h.task ev hev
    simp only [Config.start, List.length_append, List.length_singleton]
    omega
  began i t ht := by
    rcases getElem?_snoc ht with hold | ⟨rfl, rfl⟩
    · exact h.began i t hold
    · exact ⟨List.prefix_refl _, h.task⟩
  clock t ht := by
    rcases List.mem_append.mp ht with hold | hnew
    · have := h.clock t hold
      simp only [Config.start]
      omega
    · obtain rfl := List.mem_singleton.mp hnew
      simp [Config.start]
  ended i j t u ht hu hlt ev hev := by
    rcases getElem?_snoc hu with hj | ⟨_, rfl⟩
    · rcases getElem?_snoc ht with hi | ⟨_, rfl⟩
      · exact h.ended i j t u hi hj hlt ev hev
      · have := (h.clock u (List.mem_of_getElem? hj)).2
        simp only at hlt
        omega
    · simp [Config.start] at hev

theorem Config.Chronicled.resume (hexec : S.exec = X.recorded) (h : cfg.Chronicled) {i : Nat}
    {e : ε} {task : Task κ C R (Recorded ε C R σ) α} {c : C}
    {next : R c → Program C R α} (htask : cfg.tasks[i]? = some task) :
    (cfg.resume S i e task c next).Chronicled := by
  have hi : i < cfg.tasks.length := (List.getElem?_eq_some_iff.mp htask).1
  have hlog : (cfg.resume S i e task c next).shared.log
      = cfg.shared.log ++ [⟨i, e, c, (X i e c cfg.shared.state).1⟩] := by
    simp only [Config.resume, hexec, X.recorded_log]
  -- a task of the new configuration began as one of the old, and only `i` has moved
  have hcases : ∀ {j : Nat} {t : Task κ C R (Recorded ε C R σ) α},
      (cfg.resume S i e task c next).tasks[j]? = some t →
      ∃ t', cfg.tasks[j]? = some t' ∧ t.began = t'.began ∧ t.before = t'.before ∧
        ((j ≠ i ∧ t.last = t'.last) ∨ (j = i ∧ t.last = cfg.clock)) := by
    intro j t ht
    by_cases hj : j = i
    · subst hj
      simp only [Config.resume, List.getElem?_set_self hi, Option.some.injEq] at ht
      subst ht
      exact ⟨task, htask, rfl, rfl, Or.inr ⟨rfl, rfl⟩⟩
    · simp only [Config.resume, List.getElem?_set_ne (Ne.symm hj)] at ht
      exact ⟨t, ht, rfl, rfl, Or.inl ⟨hj, rfl⟩⟩
  constructor
  · intro ev hev
    simp only [Config.resume, List.length_set]
    rw [hlog, List.mem_append, List.mem_singleton] at hev
    rcases hev with hold | rfl
    · exact h.task ev hold
    · exact hi
  · intro j t ht
    obtain ⟨t', ht', _, hbefore, _⟩ := hcases ht
    obtain ⟨hbegins, hearlier⟩ := h.began j t' ht'
    rw [hlog, hbefore]
    exact ⟨hbegins.trans (List.prefix_append _ _), hearlier⟩
  · intro t ht
    obtain ⟨j, hj⟩ := List.mem_iff_getElem?.mp ht
    obtain ⟨t', ht', hbegan, _, hlast⟩ := hcases hj
    have := h.clock t' (List.mem_of_getElem? ht')
    simp only [Config.resume]
    omega
  · intro a b t u ht hu hlt ev hev
    obtain ⟨t', ht', _, _, hlast⟩ := hcases ht
    obtain ⟨u', hu', hbegan, hbefore, _⟩ := hcases hu
    have hclock := (h.clock u' (List.mem_of_getElem? hu')).2
    rcases hlast with ⟨ha, hlast⟩ | ⟨_, hlast⟩
    · rw [hlog, hbefore, List.drop_append, List.mem_append] at hev
      rcases hev with hold | hnew
      · exact h.ended a b t' u' ht' hu' (by omega) ev hold
      · obtain rfl := List.mem_singleton.mp (List.mem_of_mem_drop hnew)
        exact Ne.symm ha
    · omega

theorem Reach.chronicled {init : Recorded ε C R σ → Prop}
    {ok : Condition ε κ C (Recorded ε C R σ)} (hexec : S.exec = X.recorded)
    (hinit : ∀ s, init s → s.log = []) (h : Reach S init ok cfg) : cfg.Chronicled := by
  induction h with
  | initial hs =>
      constructor
      · intro ev hev
        simp [Config.initial, hinit _ hs] at hev
      · intro i t ht
        simp [Config.initial] at ht
      · intro t ht
        cases ht
      · intro i j t u ht
        simp [Config.initial] at ht
  | start k _ ih => exact ih.start k
  | resume _ htask _ _ ih => exact ih.resume hexec htask

/-- A task only issues commands of its own program. -/
theorem Reach.issued {init : Recorded ε C R σ → Prop}
    {ok : Condition ε κ C (Recorded ε C R σ)} (hexec : S.exec = X.recorded)
    (hinit : ∀ s, init s → s.log = []) {p : κ → C → Prop} (hp : ∀ k, (S.body k).All (p k))
    (h : Reach S init ok cfg) :
    (∀ t ∈ cfg.tasks, t.program.All (p t.call)) ∧ ∀ ev ∈ cfg.shared.log, ∀ t,
      cfg.tasks[ev.task]? = some t → p t.call ev.command := by
  induction h with
  | initial hs => exact ⟨fun t ht => (by cases ht), fun ev hev => by
      simp [Config.initial, hinit _ hs] at hev⟩
  | @start cfg k hreach ih =>
      refine ⟨fun t ht => ?_, fun ev hev t ht => ?_⟩
      · rcases List.mem_append.mp ht with hold | hnew
        · exact ih.1 t hold
        · obtain rfl := List.mem_singleton.mp hnew
          exact hp k
      · rcases getElem?_snoc ht with hold | ⟨heq, _⟩
        · exact ih.2 ev hev t hold
        · have := (hreach.chronicled hexec hinit).task ev hev
          omega
  | @resume cfg i e task c next _ htask hprog _ ih =>
      have hi : i < cfg.tasks.length := (List.getElem?_eq_some_iff.mp htask).1
      have htree := ih.1 task (List.mem_of_getElem? htask)
      rw [hprog] at htree
      refine ⟨fun t ht => ?_, fun ev hev t ht => ?_⟩
      · rcases List.mem_or_eq_of_mem_set ht with hold | rfl
        · exact ih.1 t hold
        · exact htree.2 _
      · simp only [Config.resume, hexec, X.mem_recorded_log] at hev
        by_cases hj : ev.task = i
        · rw [hj] at ht
          simp only [Config.resume, List.getElem?_set_self hi, Option.some.injEq] at ht
          subst ht
          rcases hev with hold | rfl
          · exact ih.2 ev hold task (by rw [hj]; exact htask)
          · exact htree.1
        · simp only [Config.resume, List.getElem?_set_ne (Ne.symm hj)] at ht
          rcases hev with hold | rfl
          · exact ih.2 ev hold t ht
          · exact absurd rfl hj

end Chronicle

/-- The events that a task has caused. -/
def Recorded.eventsOf (s : Recorded ε C R σ) (i : Nat) : List (Event ε C R) :=
  s.log.filter fun ev => ev.task = i

section EventsOf

variable {j : Nat} {e : ε} {c : C} {s s₀ : Recorded ε C R σ}

theorem Exec.recorded_eventsOf_self : (X.recorded i e c s).2.eventsOf i
    = s.eventsOf i ++ [⟨i, e, c, (X i e c s.state).1⟩] := by
  simp [Recorded.eventsOf]

theorem Exec.recorded_eventsOf_ne (h : j ≠ i) :
    (X.recorded j e c s).2.eventsOf i = s.eventsOf i := by
  simp [Recorded.eventsOf, h]

theorem Recorded.mem_eventsOf {ev : Event ε C R} :
    ev ∈ s.eventsOf i ↔ ev ∈ s.log ∧ ev.task = i := by
  simp [Recorded.eventsOf]

/-- A task has caused nothing before it began. -/
theorem Config.Chronicled.newcomer {cfg : Config κ C R (Recorded ε C R σ) α}
    (h : cfg.Chronicled) {t : Task κ C R (Recorded ε C R σ) α} (ht : cfg.tasks[i]? = some t) :
    t.before.eventsOf i = [] := by
  refine List.filter_eq_nil_iff.mpr fun ev hev => ?_
  have := (h.began i t ht).2 ev hev
  simp only [decide_eq_true_eq]
  omega

/-- The conditions on a run may rely on it. -/
theorem Reach.newcomers {S : System ε κ C R (Recorded ε C R σ) α}
    {init : Recorded ε C R σ → Prop} {ok : Condition ε κ C (Recorded ε C R σ)}
    (hexec : S.exec = X.recorded) (hinit : ∀ s, init s → s.log = [])
    {cfg : Config κ C R (Recorded ε C R σ) α} (h : Reach S init ok cfg) :
    Reach S init (fun i k s₀ e c s => ok i k s₀ e c s ∧ s₀.eventsOf i = []) cfg := by
  induction h with
  | initial hs => exact .initial hs
  | start k _ ih => exact .start k ih
  | resume h htask hprog hok ih =>
      exact .resume ih htask hprog ⟨hok, (h.chronicled hexec hinit).newcomer htask⟩

/-- What a task has caused does not depend on the others. -/
theorem Stable.eventsOf (p : List (Event ε C R) → Prop) :
    Stable X.recorded K i fun s => p (s.eventsOf i) := by
  intro j k s₀ e c s hj _ _ _ h
  rwa [X.recorded_eventsOf_ne hj]

end EventsOf

/-! ## What one task has done -/

/-- The events lead from one program to another. -/
inductive Program.Follows : Program C R α → List (Event ε C R) → Program C R α → Prop
  | nil (p : Program C R α) : p.Follows [] p
  | cons {i : Nat} {e : ε} {c : C} {next : R c → Program C R α} {r : R c}
      {events : List (Event ε C R)} {q : Program C R α} (h : (next r).Follows events q) :
      (Program.cmd c next).Follows (⟨i, e, c, r⟩ :: events) q

theorem Program.Follows.snoc {p : Program C R α} {events : List (Event ε C R)} {c : C}
    {next : R c → Program C R α} (h : p.Follows events (.cmd c next)) (i : Nat) (e : ε) (r : R c) :
    p.Follows (events ++ [⟨i, e, c, r⟩]) (next r) := by
  generalize hq : Program.cmd c next = q at h
  induction h with
  | nil p =>
      subst hq
      exact .cons (.nil _)
  | cons _ ih => exact .cons (ih hq)

theorem Program.Follows.of_ret {a : α} {events : List (Event ε C R)} {q : Program C R α}
    (h : (Program.ret a).Follows events q) : events = [] ∧ q = .ret a := by
  cases h
  exact ⟨rfl, rfl⟩

theorem Program.Follows.of_cmd {c : C} {next : R c → Program C R α}
    {events : List (Event ε C R)} {q : Program C R α} (h : (Program.cmd c next).Follows events q) :
    (events = [] ∧ q = .cmd c next) ∨ ∃ i e r rest,
      events = ⟨i, e, c, r⟩ :: rest ∧ (next r).Follows rest q := by
  cases h with
  | nil => exact .inl ⟨rfl, rfl⟩
  | cons hrest => exact .inr ⟨_, _, _, _, rfl, hrest⟩

/-- A way through two programs is one through the first, or one to its end and one through the
second. -/
theorem Program.Follows.of_bind {β : Type} {p : Program C R β} {f : β → Program C R α}
    {events : List (Event ε C R)} {q : Program C R α} (h : (p.bind f).Follows events q) :
    (∃ q', p.Follows events q' ∧ q = q'.bind f) ∨ ∃ before later b,
      events = before ++ later ∧ p.Follows before (.ret b) ∧ (f b).Follows later q := by
  induction p generalizing events with
  | ret b => exact .inr ⟨[], events, b, rfl, .nil _, h⟩
  | cmd c next ih =>
      rcases of_cmd h with ⟨rfl, rfl⟩ | ⟨i, e, r, rest, rfl, hrest⟩
      · exact .inl ⟨_, .nil _, rfl⟩
      · rcases ih r hrest with ⟨q', hq', rfl⟩ | ⟨before, later, b, rfl, hb, hlater⟩
        · exact .inl ⟨q', .cons hq', rfl⟩
        · exact .inr ⟨_ :: before, later, b, rfl, .cons hb, hlater⟩

theorem Program.Follows.returns {p : Program C R α} {events : List (Event ε C R)} {a : α}
    {P : α → Prop} (h : p.Follows events (.ret a)) (hp : p.Returns P) : P a := by
  generalize hq : Program.ret a = q at h
  induction h with
  | nil _ =>
      subst hq
      exact hp
  | cons _ ih => exact ih (hp _) hq

/-- A way whose replies are all good. -/
theorem Program.Follows.returnsOn {p : Program C R α} {events : List (Event ε C R)} {a : α}
    {good : (c : C) → R c → Prop} {P : α → Prop} (h : p.Follows events (.ret a))
    (hp : p.ReturnsOn good P) (hgood : ∀ ev ∈ events, good ev.command ev.reply) : P a := by
  generalize hq : Program.ret a = q at h
  induction h with
  | nil _ =>
      subst hq
      exact hp
  | cons _ ih =>
      exact ih (hp _ (hgood _ List.mem_cons_self))
        (fun ev hev => hgood ev (List.mem_cons_of_mem _ hev)) hq

/-- A way to a result that is only reached through such a reply. -/
theorem Program.Follows.through {p : Program C R α} {events : List (Event ε C R)} {a : α}
    {q : (c : C) → R c → Prop} {P : α → Prop} (h : p.Follows events (.ret a))
    (hp : p.Through q P) (ha : P a) : ∃ ev ∈ events, q ev.command ev.reply := by
  generalize hq : Program.ret a = rest at h
  induction h with
  | nil _ =>
      subst hq
      exact absurd ha hp
  | @cons i e c next r events rest h ih =>
      rcases hp r with hreply | hlater
      · exact ⟨_, List.mem_cons_self, hreply⟩
      · obtain ⟨ev, hev, hreply⟩ := ih hlater hq
        exact ⟨ev, List.mem_cons_of_mem _ hev, hreply⟩

/-- A task has issued the commands of its program, and has got where they lead. -/
theorem Reach.follows {S : System ε κ C R (Recorded ε C R σ) α}
    {init : Recorded ε C R σ → Prop} {ok : Condition ε κ C (Recorded ε C R σ)}
    (hexec : S.exec = X.recorded) (hinit : ∀ s, init s → s.log = [])
    {cfg : Config κ C R (Recorded ε C R σ) α} (h : Reach S init ok cfg) {i : Nat}
    {t : Task κ C R (Recorded ε C R σ) α} (ht : cfg.tasks[i]? = some t) :
    (S.body t.call).Follows (cfg.shared.eventsOf i) t.program := by
  induction h generalizing i t with
  | initial hs => simp [Config.initial] at ht
  | @start cfg k hreach ih =>
      rcases getElem?_snoc ht with hold | ⟨rfl, rfl⟩
      · exact ih hold
      · have hnone : cfg.shared.eventsOf cfg.tasks.length = [] := by
          refine List.filter_eq_nil_iff.mpr fun ev hev => ?_
          have := (hreach.chronicled hexec hinit).task ev hev
          simp only [decide_eq_true_eq]
          omega
        change (S.body k).Follows (cfg.shared.eventsOf cfg.tasks.length) (S.body k)
        rw [hnone]
        exact .nil _
  | @resume cfg j e task c next _ htask hprog _ ih =>
      have hj : j < cfg.tasks.length := (List.getElem?_eq_some_iff.mp htask).1
      by_cases hi : i = j
      · subst hi
        simp only [Config.resume, List.getElem?_set_self hj, Option.some.injEq] at ht
        subst ht
        have hbefore := ih htask
        rw [hprog] at hbefore
        simp only [Config.resume, hexec, X.recorded_eventsOf_self, X.recorded_reply]
        exact hbefore.snoc _ _ _
      · simp only [Config.resume, List.getElem?_set_ne (Ne.symm hi)] at ht
        simp only [Config.resume, hexec, X.recorded_eventsOf_ne (Ne.symm hi)]
        exact ih ht

/-- On no way through the program a command with the property comes after another. -/
def Program.Once (p : C → Prop) : Program C R α → Prop
  | .ret _ => True
  | .cmd c next => (p c → ∀ r, (next r).All fun c' => ¬ p c') ∧ ∀ r, (next r).Once p

section Once

variable {p : C → Prop} {q : Program C R α}

theorem Program.Once.of_all (h : q.All fun c => ¬ p c) : q.Once p := by
  induction q with
  | ret a => trivial
  | cmd c next ih => exact ⟨fun hc => absurd hc h.1, fun r => ih r (h.2 r)⟩

theorem Program.Once.bind {β : Type} {f : α → Program C R β} (h : q.Once p)
    (hf : ∀ a, (f a).All fun c => ¬ p c) : (q.bind f).Once p := by
  induction q with
  | ret a => exact .of_all (hf a)
  | cmd c next ih => exact ⟨fun hc r => .bind (h.1 hc r) hf, fun r => ih r (h.2 r)⟩

theorem Program.Once.bind_of_all {β : Type} {f : α → Program C R β}
    (h : q.All fun c => ¬ p c) (hf : ∀ a, (f a).Once p) : (q.bind f).Once p := by
  induction q with
  | ret a => exact hf a
  | cmd c next ih => exact ⟨fun hc => absurd hc h.1, fun r => ih r (h.2 r)⟩

theorem Program.Once.bindExcept {δ β : Type} {q : ExceptT δ (Program C R) α}
    {f : α → ExceptT δ (Program C R) β} (h : q.run.Once p)
    (hf : ∀ a, (f a).run.All fun c => ¬ p c) : (q >>= f).run.Once p := by
  refine Program.Once.bind h fun r => ?_
  cases r with
  | ok a => exact hf a
  | error err => trivial

theorem Program.Once.bindExcept_of_all {δ β : Type} {q : ExceptT δ (Program C R) α}
    {f : α → ExceptT δ (Program C R) β} (h : q.run.All fun c => ¬ p c)
    (hf : ∀ a, (f a).run.Once p) : (q >>= f).run.Once p := by
  refine Program.Once.bind_of_all h fun r => ?_
  cases r with
  | ok a => exact hf a
  | error err => trivial

theorem Program.Follows.all {q' : Program C R α} {events : List (Event ε C R)}
    (h : q.Follows events q') (hq : q.All p) : ∀ ev ∈ events, p ev.command := by
  induction h with
  | nil _ => exact fun _ hev => absurd hev List.not_mem_nil
  | cons _ ih =>
      intro ev hev
      rcases List.mem_cons.mp hev with rfl | hrest
      · exact hq.1
      · exact ih (hq.2 _) ev hrest

/-- Two programs that have returned have done so one after the other. -/
theorem Program.Follows.of_bind_ret {β : Type} {p : Program C R β} {f : β → Program C R α}
    {events : List (Event ε C R)} {a : α} (h : (p.bind f).Follows events (.ret a)) :
    ∃ before later b, events = before ++ later ∧ p.Follows before (.ret b) ∧
      (f b).Follows later (.ret a) := by
  rcases of_bind h with ⟨q', hfirst, hret⟩ | hboth
  · cases q' with
    | cmd c next => cases hret
    | ret b => exact ⟨events, [], b, (List.append_nil _).symm, hfirst, hret ▸ .nil _⟩
  · exact hboth

theorem Program.Follows.returned {δ β : Type} {q : ExceptT δ (Program C R) β}
    {f : β → ExceptT δ (Program C R) α} {events : List (Event ε C R)} {a : α}
    (h : (q >>= f).run.Follows events (.ret (.ok a))) :
    ∃ before later b, events = before ++ later ∧ q.run.Follows before (.ret (.ok b)) ∧
      (f b).run.Follows later (.ret (.ok a)) := by
  obtain ⟨before, later, b, hevents, hfirst, hlater⟩ := of_bind_ret h
  cases b with
  | error err => cases hlater.of_ret.2
  | ok b => exact ⟨before, later, b, hevents, hfirst, hlater⟩

/-- An event that the first of two programs does not cause comes after its end. -/
theorem Program.Follows.past {δ β : Type} {q : ExceptT δ (Program C R) β}
    {f : β → ExceptT δ (Program C R) α} {events : List (Event ε C R)}
    {rest : Program C R (Except δ α)} {ev : Event ε C R}
    (h : (q >>= f).run.Follows events rest) (hq : q.run.All fun c => ¬ p c) (hev : ev ∈ events)
    (hp : p ev.command) :
    ∃ before later b, events = before ++ later ∧ q.run.Follows before (.ret (.ok b)) ∧
      (f b).run.Follows later rest ∧ ev ∈ later := by
  have hnot : ∀ {before : List (Event ε C R)} {q' : Program C R (Except δ β)},
      q.run.Follows before q' → ev ∉ before :=
    fun hbefore hmem => hbefore.all hq ev hmem hp
  rcases of_bind h with ⟨q', hfirst, -⟩ | ⟨before, later, b, rfl, hfirst, hlater⟩
  · exact absurd hev (hnot hfirst)
  · have hmem := (List.mem_append.mp hev).resolve_left (hnot hfirst)
    cases b with
    | error err =>
        obtain ⟨rfl, -⟩ := of_ret hlater
        cases hmem
    | ok b => exact ⟨before, later, b, rfl, hfirst, hlater, hmem⟩

theorem Program.Follows.once {q' : Program C R α} {events : List (Event ε C R)}
    (h : q.Follows events q') (hq : q.Once p) :
    events.Pairwise fun a b => ¬ (p a.command ∧ p b.command) := by
  induction h with
  | nil _ => exact List.Pairwise.nil
  | cons hrest ih =>
      refine List.pairwise_cons.mpr ⟨fun ev hev hboth => ?_, ih (hq.2 _)⟩
      exact hrest.all (hq.1 hboth.1 _) ev hev hboth.2

/-- A task has issued one such command at most. -/
theorem Reach.only {S : System ε κ C R (Recorded ε C R σ) α}
    {init : Recorded ε C R σ → Prop} {ok : Condition ε κ C (Recorded ε C R σ)}
    (hexec : S.exec = X.recorded) (hinit : ∀ s, init s → s.log = [])
    (honce : ∀ k, (S.body k).Once p) {cfg : Config κ C R (Recorded ε C R σ) α}
    (h : Reach S init ok cfg) {a b : Event ε C R} (ha : a ∈ cfg.shared.log)
    (hb : b ∈ cfg.shared.log) (htask : a.task = b.task) (hpa : p a.command)
    (hpb : p b.command) : a = b := by
  have hlt := (h.chronicled hexec hinit).task a ha
  have hfollows := h.follows hexec hinit (List.getElem?_eq_getElem hlt)
  have hsymm : Std.Symm fun a b : Event ε C R => ¬ (p a.command ∧ p b.command) :=
    ⟨fun _ _ hab hba => hab hba.symm⟩
  by_contra hne
  exact (hfollows.once (honce _)).forall (Recorded.mem_eventsOf.mpr ⟨ha, rfl⟩)
    (Recorded.mem_eventsOf.mpr ⟨hb, htask.symm⟩) hne ⟨hpa, hpb⟩

end Once

/-- Task `m` had caused an event before task `i` caused one. -/
def Recorded.Before (s : Recorded ε C R σ) (m i : Nat) : Prop :=
  ∃ earlier later, s.log = earlier ++ later ∧ (∃ ev ∈ earlier, ev.task = m) ∧
    ∃ ev ∈ later, ev.task = i

theorem Recorded.Before.step {s : Recorded ε C R σ} {m l j : Nat} {e : ε} {c : C}
    (h : s.Before m l) : (X.recorded j e c s).2.Before m l := by
  obtain ⟨earlier, later, hlog, hearlier, ev, hev, hl⟩ := h
  refine ⟨earlier, later ++ [⟨j, e, c, (X j e c s.state).1⟩], ?_, hearlier, ev, ?_, hl⟩
  · rw [X.recorded_log, hlog, List.append_assoc]
  · exact List.mem_append_left _ hev

/-- Whoever has caused an event stands before the next one to cause one. -/
theorem Recorded.Before.of_mem {s : Recorded ε C R σ} {j : Nat} {e : ε} {c : C}
    {ev : Event ε C R} (h : ev ∈ s.log) : (X.recorded j e c s).2.Before ev.task j :=
  ⟨s.log, [⟨j, e, c, (X j e c s.state).1⟩], X.recorded_log j e c s, ⟨ev, h, rfl⟩,
    _, List.mem_singleton_self _, rfl⟩

/-- It began before the other one made its last move. -/
theorem Config.Chronicled.began_of_before {cfg : Config κ C R (Recorded ε C R σ) α}
    (h : cfg.Chronicled) {m l : Nat} {t u : Task κ C R (Recorded ε C R σ) α}
    (ht : cfg.tasks[l]? = some t) (hu : cfg.tasks[m]? = some u)
    (hbefore : cfg.shared.Before m l) : u.began ≤ t.last := by
  by_contra hlt
  obtain ⟨earlier, later, hlog, ⟨ev, hev, hm⟩, ev', hev', hl⟩ := hbefore
  obtain ⟨⟨rest, hrest⟩, hold⟩ := h.began m u hu
  have hlength : u.before.log.length ≤ earlier.length := by
    by_contra hshort
    have hbegins : earlier <+: u.before.log :=
      List.prefix_of_prefix_length_le ⟨later, hlog.symm⟩ ⟨rest, hrest⟩ (by omega)
    have := hold ev (hbegins.subset hev)
    omega
  refine h.ended l m t u ht hu (by omega) ev' ?_ hl
  rw [hlog, List.drop_append]
  refine List.mem_append_right _ ?_
  rw [show u.before.log.length - earlier.length = 0 by omega]
  exact hev'

end Concurrent
