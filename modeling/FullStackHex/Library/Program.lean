import Mathlib

/-!
Programs whose only effects are atomic commands on a shared state. A program
is a tree: it either returns, or issues one command and continues with the
reply. The same tree is run alone (`Program.run`) and, one command at a time,
among other programs (`Library.Interleaving`), so a function of a concurrent
server is written once and read in both ways.
-/

namespace Concurrent

/-- A program over the commands `C`; command `c` is answered by an `R c`. -/
inductive Program (C : Type) (R : C → Type) (α : Type) where
  | ret (result : α)
  | cmd (command : C) (next : R command → Program C R α)

namespace Program

variable {C : Type} {R : C → Type} {σ α β : Type}

protected def bind : Program C R α → (α → Program C R β) → Program C R β
  | .ret a, f => f a
  | .cmd c next, f => .cmd c fun reply => (next reply).bind f

instance : Monad (Program C R) where
  pure := .ret
  bind := Program.bind

/-- The program that issues one command and returns its reply. -/
def call (c : C) : Program C R (R c) := .cmd c .ret

@[simp] theorem pure_def (a : α) : (pure a : Program C R α) = .ret a := rfl

@[simp] theorem bind_def (p : Program C R α) (f : α → Program C R β) :
    p >>= f = p.bind f := rfl

@[simp] theorem ret_bind (a : α) (f : α → Program C R β) :
    (Program.ret a).bind f = f a := rfl

@[simp] theorem cmd_bind (c : C) (next : R c → Program C R α)
    (f : α → Program C R β) :
    (Program.cmd c next).bind f = .cmd c fun reply => (next reply).bind f := rfl

@[simp] theorem call_bind (c : C) (f : R c → Program C R β) :
    (call c).bind f = .cmd c f := rfl

theorem bind_ret (p : Program C R α) : p.bind .ret = p := by
  induction p with
  | ret a => rfl
  | cmd c next ih => simp only [cmd_bind, ih]

theorem bind_assoc {γ : Type} (p : Program C R α) (f : α → Program C R β)
    (g : β → Program C R γ) :
    (p.bind f).bind g = p.bind fun a => (f a).bind g := by
  induction p with
  | ret a => rfl
  | cmd c next ih => simp only [cmd_bind, ih]

instance : LawfulMonad (Program C R) :=
  LawfulMonad.mk' (Program C R) bind_ret (fun _ _ => rfl) bind_assoc

/-- The program run alone, with nobody else touching the state. -/
def run (exec : (c : C) → σ → R c × σ) : Program C R α → σ → α × σ
  | .ret a, s => (a, s)
  | .cmd c next, s => (next (exec c s).1).run exec (exec c s).2

@[simp] theorem run_ret (exec : (c : C) → σ → R c × σ) (a : α) (s : σ) :
    (Program.ret a : Program C R α).run exec s = (a, s) := rfl

@[simp] theorem run_command (exec : (c : C) → σ → R c × σ) (c : C)
    (next : R c → Program C R α) (s : σ) :
    (Program.cmd c next).run exec s = (next (exec c s).1).run exec (exec c s).2 := rfl

@[simp] theorem run_bind (exec : (c : C) → σ → R c × σ) (p : Program C R α)
    (f : α → Program C R β) (s : σ) :
    (p.bind f).run exec s = (f (p.run exec s).1).run exec (p.run exec s).2 := by
  induction p generalizing s with
  | ret a => rfl
  | cmd c next ih => exact ih _ _

/-! Programs that may fail. -/

section Except

variable {δ ε : Type}

/-- A program that may fail, run alone. -/
def runExcept (exec : (c : C) → σ → R c × σ) (p : ExceptT δ (Program C R) α) (s : σ) :
    Except δ α × σ :=
  Program.run exec p.run s

@[simp] theorem runExcept_pure (exec : (c : C) → σ → R c × σ) (a : α) (s : σ) :
    runExcept exec (pure a : ExceptT δ (Program C R) α) s = (.ok a, s) := rfl

@[simp] theorem runExcept_throw (exec : (c : C) → σ → R c × σ) (err : δ) (s : σ) :
    runExcept exec (throw err : ExceptT δ (Program C R) α) s = (.error err, s) := rfl

@[simp] theorem runExcept_mk (exec : (c : C) → σ → R c × σ)
    (p : Program C R (Except δ α)) (s : σ) :
    runExcept exec (.mk p) s = p.run exec s := rfl

@[simp] theorem runExcept_lift (exec : (c : C) → σ → R c × σ) (p : Program C R α) (s : σ) :
    runExcept exec (liftM p : ExceptT δ (Program C R) α) s
      = (.ok (p.run exec s).1, (p.run exec s).2) :=
  run_bind exec p _ s

theorem runExcept_bind (exec : (c : C) → σ → R c × σ) (p : ExceptT δ (Program C R) α)
    (f : α → ExceptT δ (Program C R) β) (s : σ) :
    runExcept exec (p >>= f) s =
      match runExcept exec p s with
      | (.ok a, s') => runExcept exec (f a) s'
      | (.error err, s') => (.error err, s') := by
  have h := run_bind exec p.run (fun r => ExceptT.bindCont f r) s
  refine h.trans ?_
  unfold runExcept
  split <;> rename_i heq <;> rw [heq] <;> rfl

@[simp] theorem runExcept_adapt (exec : (c : C) → σ → R c × σ) (g : δ → ε)
    (p : ExceptT δ (Program C R) α) (s : σ) :
    runExcept exec (ExceptT.adapt g p) s
      = ((runExcept exec p s).1.mapError g, (runExcept exec p s).2) :=
  run_bind exec p.run _ s

end Except

/-- Every command the program can reach, whatever the replies, satisfies `p`. -/
def All (p : C → Prop) : Program C R α → Prop
  | .ret _ => True
  | .cmd c next => p c ∧ ∀ reply, (next reply).All p

@[simp] theorem all_ret (p : C → Prop) (a : α) :
    (Program.ret a : Program C R α).All p ↔ True := Iff.rfl

@[simp] theorem all_cmd (p : C → Prop) (c : C) (next : R c → Program C R α) :
    (Program.cmd c next).All p ↔ p c ∧ ∀ reply, (next reply).All p := Iff.rfl

theorem all_true (q : Program C R α) : q.All fun _ => True := by
  induction q with
  | ret a => trivial
  | cmd c next ih => exact ⟨trivial, ih⟩

theorem All.bind {p : C → Prop} {q : Program C R α} {f : α → Program C R β}
    (hq : q.All p) (hf : ∀ a, (f a).All p) : (q.bind f).All p := by
  induction q with
  | ret a => exact hf a
  | cmd c next ih => exact ⟨hq.1, fun reply => ih reply (hq.2 reply)⟩

section AllExcept

variable {δ ε : Type} {p : C → Prop}

theorem All.bindExcept {q : ExceptT δ (Program C R) α} {f : α → ExceptT δ (Program C R) β}
    (hq : q.run.All p) (hf : ∀ a, (f a).run.All p) : (q >>= f).run.All p := by
  refine All.bind hq fun r => ?_
  cases r with
  | ok a => exact hf a
  | error err => trivial

theorem All.lift {q : Program C R α} (hq : q.All p) :
    (ExceptT.lift q : ExceptT δ (Program C R) α).run.All p :=
  have hbind : (q.bind fun a => .ret (Except.ok (ε := δ) a)).All p :=
    hq.bind fun _ => trivial
  hbind

theorem All.adapt {g : δ → ε} {q : ExceptT δ (Program C R) α} (hq : q.run.All p) :
    (q.adapt g).run.All p :=
  have hbind : (q.run.bind fun r => .ret (r.mapError g)).All p := hq.bind fun _ => trivial
  hbind

theorem All.mono {p' : C → Prop} {q : Program C R α} (hq : q.All p) (h : ∀ c, p c → p' c) :
    q.All p' := by
  induction q with
  | ret a => trivial
  | cmd c next ih => exact ⟨h c hq.1, fun reply => ih reply (hq.2 reply)⟩

end AllExcept

/-- Two runs from states that are alike, of a program whose commands cannot tell them apart. -/
theorem run_alike {exec : (c : C) → σ → R c × σ} {alike : σ → σ → Prop} {p : C → Prop}
    (hexec : ∀ {c s t}, p c → alike s t →
      (exec c s).1 = (exec c t).1 ∧ alike (exec c s).2 (exec c t).2)
    {q : Program C R α} (hq : q.All p) {s t : σ} (halike : alike s t) :
    (q.run exec s).1 = (q.run exec t).1 ∧ alike (q.run exec s).2 (q.run exec t).2 := by
  induction q generalizing s t with
  | ret a => exact ⟨rfl, halike⟩
  | cmd c next ih =>
      obtain ⟨hreply, hnext⟩ := hexec hq.1 halike
      rw [run_command, run_command, hreply]
      exact ih _ (hq.2 _) hnext

/-- What survives the commands of a program survives its run. -/
theorem run_keeps {exec : (c : C) → σ → R c × σ} {p : C → Prop} {P : σ → Prop}
    (hexec : ∀ c s, p c → P s → P (exec c s).2) {q : Program C R α} (hq : q.All p) {s : σ}
    (hs : P s) : P (q.run exec s).2 := by
  induction q generalizing s with
  | ret a => exact hs
  | cmd c next ih => exact ih _ (hq.2 _) (hexec c s hq.1 hs)

/-- Whatever the replies, the program returns what satisfies `p`. -/
def Returns (p : α → Prop) : Program C R α → Prop
  | .ret a => p a
  | .cmd _ next => ∀ reply, (next reply).Returns p

section Returns

variable {δ : Type}

theorem returns_true (q : Program C R α) : q.Returns fun _ => True := by
  induction q with
  | ret a => trivial
  | cmd c next ih => exact ih

theorem Returns.bind {p : α → Prop} {p' : β → Prop} {q : Program C R α}
    {f : α → Program C R β} (hq : q.Returns p) (hf : ∀ a, p a → (f a).Returns p') :
    (q.bind f).Returns p' := by
  induction q with
  | ret a => exact hf a hq
  | cmd c next ih => exact fun reply => ih reply (hq reply)

/-- The results of a program that may fail; its errors are not looked at. -/
def Yields (p : α → Prop) (q : ExceptT δ (Program C R) α) : Prop :=
  q.run.Returns fun r => ∀ a, r = .ok a → p a

theorem Returns.mono {p p' : α → Prop} {q : Program C R α} (hq : q.Returns p)
    (h : ∀ a, p a → p' a) : q.Returns p' := by
  induction q with
  | ret a => exact h a hq
  | cmd c next ih => exact fun reply => ih reply (hq reply)

theorem yields_true (q : ExceptT δ (Program C R) α) : Yields (fun _ => True) q :=
  (returns_true q.run).mono fun _ _ _ _ => trivial

theorem Yields.bind {p : α → Prop} {p' : β → Prop} {q : ExceptT δ (Program C R) α}
    {f : α → ExceptT δ (Program C R) β} (hq : Yields p q) (hf : ∀ a, p a → Yields p' (f a)) :
    Yields p' (q >>= f) := by
  refine Returns.bind hq fun r hr => ?_
  cases r with
  | ok a => exact hf a (hr a rfl)
  | error err => exact fun _ h => nomatch h

end Returns

/-- On every way whose replies are good, the program returns what satisfies `p`. -/
def ReturnsOn (good : (c : C) → R c → Prop) (p : α → Prop) : Program C R α → Prop
  | .ret a => p a
  | .cmd c next => ∀ reply, good c reply → (next reply).ReturnsOn good p

/-- On every way to a result that satisfies `p` there is such a reply. -/
def Through (q : (c : C) → R c → Prop) (p : α → Prop) : Program C R α → Prop
  | .ret a => ¬ p a
  | .cmd c next => ∀ reply, q c reply ∨ (next reply).Through q p

section Ways

variable {δ : Type} {good : (c : C) → R c → Prop}

theorem ReturnsOn.bind {p : α → Prop} {p' : β → Prop} {q : Program C R α}
    {f : α → Program C R β} (hq : q.ReturnsOn good p)
    (hf : ∀ a, p a → (f a).ReturnsOn good p') : (q.bind f).ReturnsOn good p' := by
  induction q with
  | ret a => exact hf a hq
  | cmd c next ih => exact fun reply hreply => ih reply (hq reply hreply)

theorem ReturnsOn.mono {p p' : α → Prop} {q : Program C R α} (hq : q.ReturnsOn good p)
    (h : ∀ a, p a → p' a) : q.ReturnsOn good p' := by
  induction q with
  | ret a => exact h a hq
  | cmd c next ih => exact fun reply hreply => ih reply (hq reply hreply)

/-- What a program that may fail returns, from what its first part returns. -/
theorem ReturnsOn.bindExcept {p : α → Prop} {p' : Except δ β → Prop}
    {q : ExceptT δ (Program C R) α} {f : α → ExceptT δ (Program C R) β}
    (hq : q.run.ReturnsOn good fun r => (∃ a, r = .ok a ∧ p a) ∨ ∃ err, r = .error err ∧
      p' (.error err))
    (hf : ∀ a, p a → (f a).run.ReturnsOn good p') : (q >>= f).run.ReturnsOn good p' := by
  refine ReturnsOn.bind hq fun r hr => ?_
  rcases hr with ⟨a, rfl, ha⟩ | ⟨err, rfl, herr⟩
  · exact hf a ha
  · exact herr

/-- The first part of the program succeeds. -/
theorem ReturnsOn.bindOk {p : α → Prop} {p' : Except δ β → Prop}
    {q : ExceptT δ (Program C R) α} {f : α → ExceptT δ (Program C R) β}
    (hq : q.run.ReturnsOn good fun r => ∃ a, r = .ok a ∧ p a)
    (hf : ∀ a, p a → (f a).run.ReturnsOn good p') : (q >>= f).run.ReturnsOn good p' :=
  ReturnsOn.bindExcept (hq.mono fun _ => Or.inl) hf

theorem ReturnsOn.adapt {ε : Type} {g : δ → ε} {p : Except ε α → Prop}
    {q : ExceptT δ (Program C R) α}
    (hq : q.run.ReturnsOn good fun r => p (r.mapError g)) : (q.adapt g).run.ReturnsOn good p :=
  ReturnsOn.bind hq fun _ h => h

theorem Through.bind {q : (c : C) → R c → Prop} {p' : β → Prop} {f : α → Program C R β}
    (hf : ∀ a, (f a).Through q p') (first : Program C R α) : (first.bind f).Through q p' := by
  induction first with
  | ret a => exact hf a
  | cmd c next ih => exact fun reply => Or.inr (ih reply)

theorem Through.map {q : (c : C) → R c → Prop} {p : α → Prop} {p' : β → Prop} {f : α → β}
    {first : Program C R α} (h : first.Through q p) (hf : ∀ a, p' (f a) → p a) :
    (first.bind fun a => .ret (f a)).Through q p' := by
  induction first with
  | ret a => exact fun ha => h (hf a ha)
  | cmd c next ih => exact fun reply => (h reply).imp_right (ih reply)

theorem Through.bindExcept {q : (c : C) → R c → Prop} {p' : Except δ β → Prop}
    {f : α → ExceptT δ (Program C R) β} (hf : ∀ a, (f a).run.Through q p')
    (herr : ∀ err, ¬ p' (.error err)) (first : ExceptT δ (Program C R) α) :
    (first >>= f).run.Through q p' := by
  refine Through.bind (fun r => ?_) first.run
  cases r with
  | ok a => exact hf a
  | error err => exact herr err

end Ways

/-- The result of a program that has returned. -/
def result? : Program C R α → Option α
  | .ret a => some a
  | .cmd _ _ => none

@[simp] theorem result?_eq_some (p : Program C R α) (a : α) :
    p.result? = some a ↔ p = .ret a := by
  cases p <;> simp [result?]

end Program

end Concurrent
