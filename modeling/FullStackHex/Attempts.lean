import FullStackHex.Steps

/-!
One request at work alone, in an environment that lets time pass before each of its commands,
makes the draws and lets commands fail.
-/

namespace FullStackHex

open Concurrent Expiring

/-- What the environment does at the first, the second and every further command. -/
structure Script where
  delay : Nat → Nat
  choice : Nat → Choice

/-- The world, and how many commands have been issued. -/
structure Progress where
  issued : Nat
  world : World

def Progress.start (w : World) : Progress := ⟨0, w⟩

/-- The moment of the next command. -/
def Script.now (s : Script) (p : Progress) : Nat := p.world.now + s.delay p.issued

/-- The world that the next command finds. -/
def Script.found (s : Script) (p : Progress) : World := p.world.atTime (s.now p)

def Script.exec (s : Script) (c : Cmd) (p : Progress) : Reply c × Progress :=
  let r := World.exec (s.choice p.issued) c (s.found p)
  (r.1, ⟨p.issued + 1, r.2⟩)

/-- A program that may fail, in such an environment. -/
def attempt {δ α : Type} (s : Script) (q : ExceptT δ Action α) (p : Progress) :
    Except δ α × Progress :=
  Program.runExcept s.exec q p

section Attempt

variable {δ ε α β : Type} (s : Script) (p : Progress)

@[simp] theorem attempt_pure (a : α) :
    attempt s (pure a : ExceptT δ Action α) p = (.ok a, p) := rfl

@[simp] theorem attempt_throw (err : δ) :
    attempt s (throw err : ExceptT δ Action α) p = (.error err, p) := rfl

@[simp] theorem attempt_except (r : Except δ α) :
    attempt s (liftM r : ExceptT δ Action α) p = (r, p) := rfl

@[simp] theorem attempt_ask (c : Cmd) :
    attempt s (liftM (ask c) : ExceptT δ Action (Reply c)) p
      = (.ok (s.exec c p).1, (s.exec c p).2) := rfl

theorem attempt_bind (q : ExceptT δ Action α) (f : α → ExceptT δ Action β) :
    attempt s (q >>= f) p =
      match attempt s q p with
      | (.ok a, p') => attempt s (f a) p'
      | (.error err, p') => (.error err, p') := by
  unfold attempt
  rw [Program.runExcept_bind]
  rcases Program.runExcept s.exec q p with ⟨_ | _, _⟩ <;> rfl

@[simp] theorem attempt_adapt (g : δ → ε) (q : ExceptT δ Action α) :
    attempt s (ExceptT.adapt g q) p = ((attempt s q p).1.mapError g, (attempt s q p).2) :=
  Program.runExcept_adapt s.exec g q p

variable {s p}

/-- A program whose first part has succeeded. -/
theorem attempt_bind_ok {q : ExceptT δ Action α} {f : α → ExceptT δ Action β} {a : α}
    {p' : Progress} (h : attempt s q p = (.ok a, p')) :
    attempt s (q >>= f) p = attempt s (f a) p' := by
  rw [attempt_bind, h]

theorem attempt_bind_error {q : ExceptT δ Action α} {f : α → ExceptT δ Action β} {err : δ}
    {p' : Progress} (h : attempt s q p = (.error err, p')) :
    attempt s (q >>= f) p = (.error err, p') := by
  rw [attempt_bind, h]

/-- A success of two parts is a success of both. -/
theorem attempt_bind_eq_ok {q : ExceptT δ Action α} {f : α → ExceptT δ Action β} {b : β}
    {p'' : Progress} (h : attempt s (q >>= f) p = (.ok b, p'')) :
    ∃ a p', attempt s q p = (.ok a, p') ∧ attempt s (f a) p' = (.ok b, p'') := by
  rw [attempt_bind] at h
  match hq : attempt s q p with
  | (.ok a, p') =>
      rw [hq] at h
      exact ⟨a, p', rfl, h⟩
  | (.error err, p') =>
      rw [hq] at h
      cases (Prod.mk.inj h).1

/-- What survives every command of a program survives the program. -/
theorem attempt_keeps {P : World → Prop} {c : Cmd → Prop}
    (hexec : ∀ e k w t, c k → w.now ≤ t → P w → P (World.exec e k (w.atTime t)).2)
    {q : ExceptT δ Action α} (hq : q.run.All c) (h : P p.world) : P (attempt s q p).2.world := by
  refine Program.run_keeps (P := fun p : Progress => P p.world) (fun k p hk hp => ?_) hq h
  exact hexec _ k _ _ hk (Nat.le_add_right _ _) hp

/-- Nothing but the statements that write a table change it. -/
theorem attempt_tables {q : ExceptT δ Action α}
    (hq : q.run.All fun c => ¬ World.WritesTable c) :
    p.world.SameTables (attempt s q p).2.world := by
  refine attempt_keeps (P := fun w => p.world.SameTables w) (fun e k w t hk _ hw => ?_) hq
    (.refl _)
  have hstep := World.exec_tables e k (w.atTime t) hk
  exact ⟨hstep.users.trans hw.users, hstep.notes.trans hw.notes⟩

/-- Nothing but the commands that write a cached value change one. -/
theorem attempt_cached {q : ExceptT δ Action α}
    (hq : q.run.All fun c => ¬ World.WritesCached c) :
    (attempt s q p).2.world.cached = p.world.cached := by
  refine attempt_keeps (P := fun w => w.cached = p.world.cached) (fun e k w t hk _ hw => ?_) hq rfl
  exact ((World.exec_effect e k (w.atTime t)).cached hk).trans hw

/-- The clock does not go back. -/
theorem attempt_now_le (q : ExceptT δ Action α) :
    p.world.now ≤ (attempt s q p).2.world.now := by
  refine attempt_keeps (P := fun w => p.world.now ≤ w.now) (fun e k w t _ ht hw => ?_)
    (Program.all_true q.run) le_rfl
  exact (hw.trans ht).trans (World.exec_effect e k (w.atTime t)).now_le

end Attempt

end FullStackHex
