import FullStackHex.Api.Live

/-!
The life of a WebSocket, from `ws_handler` and `handle_socket` of
`api/src/live.rs`. The count of a user is raised when the upgrade is granted; the
guard that lowers it is created when `handle_socket` begins, and an upgrade that
fails never gets there.
-/

namespace FullStackHex

open Concurrent Expiring

/-- An upgrade that has a permit is being validated, waits for the client to switch
protocols, or runs in `handle_socket`; then it is over for one of three reasons. -/
inductive Phase where
  | validating
  | pending
  | running
  | refused
  | failed
  | closed
  deriving DecidableEq, Repr

/-- One upgrade; `permit` says that it has yet to give its permit back. -/
structure Upgrade where
  userId : Option Uuid
  phase : Phase
  permit : Bool
  deriving DecidableEq, Repr

structure Sockets where
  permits : Nat
  connections : Table Uuid Nat
  upgrades : List Upgrade

def Sockets.initial (permits : Nat) : Sockets := ⟨permits, ∅, []⟩

/-- The lock section of `validate_ws_connection`. -/
def countConnection (max : Nat) (userId : Uuid) (connections : Table Uuid Nat) :
    Option (Table Uuid Nat) :=
  let current := (connections.lookup userId).getD 0
  if max ≤ current then none else some (connections.insert userId (current + 1))

/-- `WsUserGuard::drop`. -/
def dropUserGuard (userId : Uuid) (connections : Table Uuid Nat) : Table Uuid Nat :=
  match connections.lookup userId with
  | none => connections
  | some count =>
      if count - 1 = 0 then connections.erase userId else connections.insert userId (count - 1)

inductive SocketStep where
  -- an upgrade request of a user whose credential was accepted takes a permit
  | request (userId : Option Uuid)
  -- its user's connections are counted
  | reserve (upgrade : Nat)
  -- `on_upgrade` runs `handle_socket`, or drops it because the client went away
  | complete (upgrade : Nat)
  | fail (upgrade : Nat)
  -- `handle_socket` returns, for whatever reason
  | close (upgrade : Nat)
  -- the permit is dropped
  | free (upgrade : Nat)
  deriving DecidableEq, Repr

/-- Whether an upgrade is one of this user in one of these phases. -/
def Upgrade.isOf (u : Upgrade) (userId : Uuid) (phases : List Phase) : Bool :=
  u.userId = some userId && phases.contains u.phase

def Upgrade.enter (u : Upgrade) (phase : Phase) : Upgrade := { u with phase := phase }

@[simp] theorem Upgrade.isOf_enter (u : Upgrade) (phase : Phase) (userId : Uuid)
    (phases : List Phase) : (u.enter phase).isOf userId phases
      = (decide (u.userId = some userId) && phases.contains phase) := rfl

namespace Sockets

def update (s : Sockets) (i : Nat) (u : Upgrade) : Sockets :=
  { s with upgrades := s.upgrades.set i u }

/-- Count the connection of upgrade `i`, or refuse it. -/
def reserve (max : Nat) (s : Sockets) (i : Nat) (u : Upgrade) : Sockets :=
  match u.userId with
  | none => s.update i (u.enter .pending)
  | some userId =>
      match countConnection max userId s.connections with
      | none => s.update i (u.enter .refused)
      | some connections =>
          { s.update i (u.enter .pending) with connections := connections }

/-- The end of `handle_socket`: its guards are dropped. -/
def close (s : Sockets) (i : Nat) (u : Upgrade) : Sockets :=
  { s.update i (u.enter .closed) with
    connections :=
      match u.userId with
      | none => s.connections
      | some userId => dropUserGuard userId s.connections }

/-- One step, where it can be taken; `max` is `per_user_max`. -/
def step (max : Nat) (s : Sockets) : SocketStep → Option Sockets
  | .request userId =>
      if 0 < s.permits then
        some { s with permits := s.permits - 1, upgrades := s.upgrades ++ [⟨userId, .validating, true⟩] }
      else some s
  | .reserve i => do
      let u ← s.upgrades[i]?
      if u.phase = .validating then some (s.reserve max i u) else none
  | .complete i => do
      let u ← s.upgrades[i]?
      if u.phase = .pending then some (s.update i (u.enter .running)) else none
  | .fail i => do
      let u ← s.upgrades[i]?
      if u.phase = .pending then some (s.update i (u.enter .failed)) else none
  | .close i => do
      let u ← s.upgrades[i]?
      if u.phase = .running then some (s.close i u) else none
  | .free i => do
      let u ← s.upgrades[i]?
      if u.permit ∧ (u.phase = .refused ∨ u.phase = .failed ∨ u.phase = .closed) then
        some { s.update i { u with permit := false } with permits := s.permits + 1 }
      else none

def run (max : Nat) (steps : List SocketStep) (s : Sockets) : Option Sockets :=
  steps.foldlM (step max) s

/-- The number of upgrades of a user in one of these phases. -/
def count (s : Sockets) (userId : Uuid) (phases : List Phase) : Nat :=
  s.upgrades.countP fun u => u.isOf userId phases

/-- The upgrades of a user that are pending or running. -/
abbrev live (s : Sockets) (userId : Uuid) : Nat := s.count userId [.pending, .running]

abbrev failed (s : Sockets) (userId : Uuid) : Nat := s.count userId [.failed]

end Sockets

/-! ## What is counted -/

theorem lookup_countConnection {max : Nat} {userId other : Uuid}
    {connections connections' : Table Uuid Nat}
    (h : countConnection max userId connections = some connections') :
    connections'.lookup other = if other = userId
      then some ((connections.lookup userId).getD 0 + 1) else connections.lookup other := by
  unfold countConnection at h
  dsimp only at h
  split_ifs at h with hmax
  obtain rfl := Option.some.inj h
  split_ifs with heq
  · subst heq
    exact AList.lookup_insert _
  · exact AList.lookup_insert_ne heq

theorem lookup_dropUserGuard {userId other : Uuid} {connections : Table Uuid Nat} :
    (dropUserGuard userId connections).lookup other = if other = userId
      then ((connections.lookup userId).map fun count => count - 1).filter fun count => count ≠ 0
      else connections.lookup other := by
  unfold dropUserGuard
  cases hlookup : connections.lookup userId with
  | none =>
      split_ifs with heq
      · rw [heq, hlookup]
        rfl
      · rfl
  | some count =>
      dsimp only
      by_cases heq : other = userId
      · subst heq
        by_cases hzero : count - 1 = 0
        · simp [hzero, AList.lookup_erase, Option.filter]
        · simp [hzero, AList.lookup_insert, Option.filter]
      · by_cases hzero : count - 1 = 0
        · simp [hzero, heq, AList.lookup_erase_ne heq]
        · simp [hzero, heq, AList.lookup_insert_ne heq]

theorem countP_set_add {α : Type} (p : α → Bool) {l : List α} {i : Nat} {x y : α}
    (h : l[i]? = some x) : (l.set i y).countP p + (p x).toNat = l.countP p + (p y).toNat := by
  induction l generalizing i with
  | nil => cases h
  | cons head rest ih =>
      cases i with
      | zero =>
          obtain rfl := Option.some.inj h
          simp only [List.set_cons_zero, List.countP_cons]
          cases p head <;> cases p y <;> simp
      | succ i =>
          have hrest := ih (i := i) h
          simp only [List.set_cons_succ, List.countP_cons]
          omega

/-- The phases in which an upgrade stands in the count of its user. -/
def countedPhases : List Phase := [.pending, .running, .failed]

theorem count_counted (s : Sockets) (userId : Uuid) :
    s.count userId countedPhases = s.live userId + s.failed userId := by
  unfold Sockets.live Sockets.failed Sockets.count
  induction s.upgrades with
  | nil => rfl
  | cons u rest ih =>
      have hsplit : (u.isOf userId countedPhases).toNat
          = (u.isOf userId [.pending, .running]).toNat + (u.isOf userId [.failed]).toNat := by
        unfold Upgrade.isOf
        cases decide (u.userId = some userId) <;> cases u.phase <;> rfl
      have hcons : ∀ phases, (u :: rest).countP (fun u => u.isOf userId phases)
          = rest.countP (fun u => u.isOf userId phases) + (u.isOf userId phases).toNat := by
        intro phases
        rw [List.countP_cons]
        cases u.isOf userId phases <;> rfl
      rw [hcons, hcons, hcons]
      omega

/-- The invariant: the entry of a user counts the upgrades that are pending or
running, and those that have failed. -/
def Sockets.Counted (s : Sockets) : Prop :=
  ∀ userId, s.connections.lookup userId =
    (some (s.count userId countedPhases)).filter fun count => count ≠ 0

theorem Sockets.initial_counted (permits : Nat) : (Sockets.initial permits).Counted := by
  intro userId
  rfl

theorem getD_filter_ne_zero (n : Nat) : ((some n).filter fun count => count ≠ 0).getD 0 = n := by
  by_cases hzero : n = 0
  · simp [Option.filter, hzero]
  · simp [Option.filter, hzero]

theorem Sockets.Counted.current {s : Sockets} (h : s.Counted) (userId : Uuid) :
    (s.connections.lookup userId).getD 0 = s.live userId + s.failed userId := by
  rw [h userId, getD_filter_ne_zero, count_counted]

section Step

variable {max i : Nat} {s s' : Sockets} {u u' : Upgrade}

theorem count_update (h : s.upgrades[i]? = some u) (u' : Upgrade) (userId : Uuid)
    (phases : List Phase) :
    (s.update i u').count userId phases + (u.isOf userId phases).toNat
      = s.count userId phases + (u'.isOf userId phases).toNat := by
  have hset := countP_set_add (fun u : Upgrade => u.isOf userId phases) (y := u') h
  exact hset

/-- An upgrade changes in a way that leaves the counts alone. -/
theorem Sockets.Counted.update (h : s.Counted) (hu : s.upgrades[i]? = some u)
    (hsame : ∀ userId, u'.isOf userId countedPhases = u.isOf userId countedPhases) :
    (s.update i u').Counted := by
  intro userId
  have hcount := count_update hu u' userId countedPhases
  rw [hsame] at hcount
  rw [show (s.update i u').count userId countedPhases = s.count userId countedPhases by omega]
  exact h userId

theorem Sockets.Counted.reserve (h : s.Counted) (hu : s.upgrades[i]? = some u)
    (hphase : u.phase = .validating) : (s.reserve max i u).Counted := by
  have hold : ∀ userId, u.isOf userId countedPhases = false := by
    intro userId
    simp [Upgrade.isOf, hphase, countedPhases]
  unfold Sockets.reserve
  cases huser : u.userId with
  | none =>
      refine h.update hu fun userId => ?_
      simp [hold, huser]
  | some owner =>
      dsimp only
      cases hcount : countConnection max owner s.connections with
      | none =>
          refine h.update hu fun userId => ?_
          rw [hold, Upgrade.isOf_enter]
          simp [countedPhases]
      | some connections =>
          intro userId
          have hupdate := count_update hu (u.enter .pending) userId countedPhases
          rw [hold, Upgrade.isOf_enter, huser] at hupdate
          show connections.lookup userId = (some ((s.update i (u.enter .pending)).count userId
            countedPhases)).filter fun count => count ≠ 0
          rw [lookup_countConnection hcount, h owner, h userId, getD_filter_ne_zero]
          split_ifs with heq
          · subst heq
            simp only [decide_true, countedPhases, Bool.toNat_false, List.contains_cons,
              beq_self_eq_true, Bool.true_or, Bool.and_self, Bool.toNat_true,
              Nat.add_zero] at hupdate
            rw [show (s.update i (u.enter .pending)).count userId countedPhases
              = s.count userId countedPhases + 1 from hupdate]
            simp [Option.filter]
          · simp only [Option.some.injEq, Ne.symm heq, decide_false, Bool.false_and,
              Bool.toNat_false, Nat.add_zero] at hupdate
            rw [hupdate]

theorem Sockets.Counted.close (h : s.Counted) (hu : s.upgrades[i]? = some u)
    (hphase : u.phase = .running) : (s.close i u).Counted := by
  intro userId
  have hold : u.isOf userId countedPhases = decide (u.userId = some userId) := by
    simp [Upgrade.isOf, hphase, countedPhases]
  have hnew : (u.enter .closed).isOf userId countedPhases = false := by
    simp [countedPhases]
  have hupdate := count_update hu (u.enter .closed) userId countedPhases
  rw [hold, hnew, Bool.toNat_false, Nat.add_zero] at hupdate
  show (s.close i u).connections.lookup userId
    = (some ((s.update i (u.enter .closed)).count userId countedPhases)).filter
        fun count => count ≠ 0
  unfold Sockets.close
  cases huser : u.userId with
  | none =>
      simp only [huser, reduceCtorEq, decide_false, Bool.toNat_false, Nat.add_zero] at hupdate
      rw [hupdate]
      exact h userId
  | some owner =>
      dsimp only
      rw [lookup_dropUserGuard]
      split_ifs with heq
      · subst heq
        simp only [huser, decide_true, Bool.toNat_true] at hupdate
        rw [h userId, ← hupdate]
        simp [Option.filter]
      · simp only [huser, Option.some.injEq, Ne.symm heq, decide_false, Bool.toNat_false,
          Nat.add_zero] at hupdate
        rw [hupdate]
        exact h userId

theorem Sockets.Counted.step (h : s.Counted) {c : SocketStep} (hstep : s.step max c = some s') :
    s'.Counted := by
  cases c with
  | request userId =>
      simp only [Sockets.step] at hstep
      split_ifs at hstep
      · obtain rfl := Option.some.inj hstep
        intro other
        have hcount : Sockets.count { s with
            permits := s.permits - 1
            upgrades := s.upgrades ++ [⟨userId, .validating, true⟩] } other countedPhases
            = s.count other countedPhases := by
          simp [Sockets.count, List.countP_append, Upgrade.isOf, countedPhases]
        rw [hcount]
        exact h other
      · obtain rfl := Option.some.inj hstep
        exact h
  | reserve i =>
      obtain ⟨u, hu, hstep⟩ := Option.bind_eq_some_iff.mp hstep
      split_ifs at hstep with hphase
      obtain rfl := Option.some.inj hstep
      exact h.reserve hu hphase
  | complete i =>
      obtain ⟨u, hu, hstep⟩ := Option.bind_eq_some_iff.mp hstep
      split_ifs at hstep with hphase
      obtain rfl := Option.some.inj hstep
      refine h.update hu fun userId => ?_
      rw [Upgrade.isOf_enter]
      simp [Upgrade.isOf, hphase, countedPhases]
  | fail i =>
      obtain ⟨u, hu, hstep⟩ := Option.bind_eq_some_iff.mp hstep
      split_ifs at hstep with hphase
      obtain rfl := Option.some.inj hstep
      refine h.update hu fun userId => ?_
      rw [Upgrade.isOf_enter]
      simp [Upgrade.isOf, hphase, countedPhases]
  | close i =>
      obtain ⟨u, hu, hstep⟩ := Option.bind_eq_some_iff.mp hstep
      split_ifs at hstep with hphase
      obtain rfl := Option.some.inj hstep
      exact h.close hu hphase
  | free i =>
      obtain ⟨u, hu, hstep⟩ := Option.bind_eq_some_iff.mp hstep
      split_ifs at hstep with hphase
      obtain rfl := Option.some.inj hstep
      exact h.update hu fun userId => rfl

theorem Sockets.Counted.run {steps : List SocketStep} (h : s.Counted)
    (hrun : s.run max steps = some s') : s'.Counted := by
  induction steps generalizing s with
  | nil =>
      obtain rfl := Option.some.inj hrun
      exact h
  | cons c rest ih =>
      obtain ⟨mid, hstep, hrest⟩ := Option.bind_eq_some_iff.mp hrun
      exact ih (h.step hstep) hrest

/-- What has failed stays failed. -/
theorem failed_step {userId : Uuid} {c : SocketStep} (hstep : s.step max c = some s') :
    s.failed userId ≤ s'.failed userId := by
  have hupdate : ∀ {i : Nat} {u u' : Upgrade}, s.upgrades[i]? = some u →
      (u.isOf userId [.failed] = true → u'.isOf userId [.failed] = true) →
      s.failed userId ≤ (s.update i u').failed userId := by
    intro i u u' hu himp
    have hcount := count_update hu u' userId [.failed]
    have hle : (u.isOf userId [.failed]).toNat ≤ (u'.isOf userId [.failed]).toNat := by
      cases hold : u.isOf userId [.failed] with
      | false => simp
      | true => rw [himp hold]
    unfold Sockets.failed
    omega
  have hother : ∀ {u : Upgrade} {phase : Phase}, u.phase = phase → phase ≠ .failed →
      ∀ {p : Prop}, u.isOf userId [.failed] = true → p := by
    intro u phase hphase hne p h
    simp [Upgrade.isOf, hphase, hne] at h
  cases c with
  | request owner =>
      simp only [Sockets.step] at hstep
      split_ifs at hstep
      · obtain rfl := Option.some.inj hstep
        simp [Sockets.failed, Sockets.count, List.countP_append]
      · obtain rfl := Option.some.inj hstep
        exact le_refl _
  | reserve i =>
      obtain ⟨u, hu, hstep⟩ := Option.bind_eq_some_iff.mp hstep
      split_ifs at hstep with hphase
      obtain rfl := Option.some.inj hstep
      unfold Sockets.reserve
      cases u.userId with
      | none => exact hupdate hu (hother hphase (by decide))
      | some owner =>
          dsimp only
          cases countConnection max owner s.connections with
          | none => exact hupdate hu (hother hphase (by decide))
          | some connections => exact hupdate hu (hother hphase (by decide))
  | complete i =>
      obtain ⟨u, hu, hstep⟩ := Option.bind_eq_some_iff.mp hstep
      split_ifs at hstep with hphase
      obtain rfl := Option.some.inj hstep
      exact hupdate hu (hother hphase (by decide))
  | fail i =>
      obtain ⟨u, hu, hstep⟩ := Option.bind_eq_some_iff.mp hstep
      split_ifs at hstep with hphase
      obtain rfl := Option.some.inj hstep
      exact hupdate hu (hother hphase (by decide))
  | close i =>
      obtain ⟨u, hu, hstep⟩ := Option.bind_eq_some_iff.mp hstep
      split_ifs at hstep with hphase
      obtain rfl := Option.some.inj hstep
      exact hupdate hu (hother hphase (by decide))
  | free i =>
      obtain ⟨u, hu, hstep⟩ := Option.bind_eq_some_iff.mp hstep
      split_ifs at hstep with hphase
      obtain rfl := Option.some.inj hstep
      exact hupdate hu fun h => h

theorem failed_run {userId : Uuid} {steps : List SocketStep} (hrun : s.run max steps = some s') :
    s.failed userId ≤ s'.failed userId := by
  induction steps generalizing s with
  | nil =>
      obtain rfl := Option.some.inj hrun
      exact le_refl _
  | cons c rest ih =>
      obtain ⟨mid, hstep, hrest⟩ := Option.bind_eq_some_iff.mp hrun
      exact (failed_step hstep).trans (ih hrest)

/-- The entry of a user is the number of their upgrades that are pending or running;
without any it is gone, and they can connect again. -/
def Sockets.Accurate (max : Nat) (userId : Uuid) (s : Sockets) : Prop :=
  (s.connections.lookup userId).getD 0 = s.live userId ∧
    (s.live userId = 0 → s.connections.lookup userId = none ∧
      (0 < max → (countConnection max userId s.connections).isSome = true))

theorem Sockets.Counted.accurate_iff {userId : Uuid} (h : s.Counted) :
    s.Accurate max userId ↔ s.failed userId = 0 := by
  have hcurrent := h.current userId
  refine ⟨fun hacc => ?_, fun hzero => ⟨by omega, fun hlive => ?_⟩⟩
  · have := hacc.1
    omega
  · have hnone : s.connections.lookup userId = none := by
      rw [h userId, count_counted, hlive, hzero]
      rfl
    refine ⟨hnone, fun hmax => ?_⟩
    have hroom : ¬ max ≤ 0 := by omega
    simp [countConnection, hnone, hroom]

/-- In every run the count of a user is accurate throughout if and only if none of
their upgrades has failed. -/
theorem accurate_throughout_iff {permits : Nat} {steps : List SocketStep} {userId : Uuid}
    (hrun : (Sockets.initial permits).run max steps = some s) :
    (∀ taken mid, taken <+: steps → (Sockets.initial permits).run max taken = some mid →
      mid.Accurate max userId) ↔
    ∀ u ∈ s.upgrades, u.userId = some userId → u.phase ≠ .failed := by
  have hcounted : ∀ {taken mid}, (Sockets.initial permits).run max taken = some mid →
      mid.Counted := fun h => (Sockets.initial_counted permits).run h
  have hfailed : s.failed userId = 0 ↔
      ∀ u ∈ s.upgrades, u.userId = some userId → u.phase ≠ .failed := by
    simp [Sockets.failed, Sockets.count, List.countP_eq_zero, Upgrade.isOf]
  rw [← hfailed]
  constructor
  · intro h
    exact (hcounted hrun).accurate_iff.mp (h steps s (List.prefix_refl _) hrun)
  · rintro hzero taken mid ⟨rest, rfl⟩ hmid
    refine (hcounted hmid).accurate_iff.mpr ?_
    have hrest : mid.run max rest = some s := by
      unfold Sockets.run at *
      rw [List.foldlM_append, hmid] at hrun
      exact hrun
    have hkept : mid.failed userId ≤ s.failed userId := failed_run hrest
    omega

end Step

/-! ## The upgrade of `validate_ws_connection` -/

/-- The permits and counts of the world, a missing entry counting as zero. -/
def Sockets.Shows (s : Sockets) (w : World) : Prop :=
  w.permits = s.permits ∧ ∀ userId, w.userConnections userId = (s.connections.lookup userId).getD 0

theorem Sockets.Shows.count {s : Sockets} {w : World} (h : s.Shows w) (max : Nat)
    (userId : Uuid) :
    match countConnection max userId s.connections with
    | none => w.reserveConnection userId max = (false, w)
    | some connections => ∃ w', w.reserveConnection userId max = (true, w') ∧
        Sockets.Shows { s with connections := connections } w' := by
  cases hcount : countConnection max userId s.connections with
  | none =>
      unfold countConnection at hcount
      dsimp only at hcount
      split_ifs at hcount with hmax
      simp [World.reserveConnection, h.2, hmax]
  | some connections =>
      have hroom : ¬ max ≤ (s.connections.lookup userId).getD 0 := by
        intro hmax
        simp [countConnection, hmax] at hcount
      let raised := Function.update w.userConnections userId
        ((s.connections.lookup userId).getD 0 + 1)
      refine ⟨{ w with userConnections := raised }, ?_, h.1, fun other => ?_⟩
      · simp [World.reserveConnection, h.2, hroom, raised]
      · rw [lookup_countConnection hcount]
        by_cases heq : other = userId
        · subst heq
          simp [raised]
        · simp [heq, h.2, raised]

/-- What an upgrade request does to the counters of the world is a run of these steps,
and it is permitted exactly if its upgrade is pending then. -/
theorem reserve_refines {s : Sockets} {w : World} (h : s.Shows w) (userId : Option Uuid)
    (state : AppState) : ∃ steps s', s.run state.perUserMax steps = some s' ∧
      s'.Shows (w.perform (FullStackHex.reserve userId state)).2 ∧
      ((w.perform (FullStackHex.reserve userId state)).1 = .permit userId ↔
        s'.upgrades = s.upgrades ++ [⟨userId, .pending, true⟩]) := by
  by_cases hpermits : 0 < s.permits
  · have hacquire : w.acquirePermit = (true, { w with permits := w.permits - 1 }) := by
      simp [World.acquirePermit, h.1, hpermits]
    let s₁ : Sockets := { s with
      permits := s.permits - 1, upgrades := s.upgrades ++ [⟨userId, .validating, true⟩] }
    have hshows : s₁.Shows { w with permits := w.permits - 1 } :=
      ⟨congrArg (fun n => n - 1) h.1, h.2⟩
    have hrequest : s.step state.perUserMax (.request userId) = some s₁ := by
      simp [Sockets.step, hpermits, s₁]
    have hreserve : s₁.step state.perUserMax (.reserve s.upgrades.length)
        = some (s₁.reserve state.perUserMax s.upgrades.length ⟨userId, .validating, true⟩) := by
      simp [Sockets.step, s₁]
    have hset : ∀ u, s₁.upgrades.set s.upgrades.length u = s.upgrades ++ [u] := by
      intro u
      simp [s₁]
    have hrun : s.run state.perUserMax [.request userId, .reserve s.upgrades.length]
        = some (s₁.reserve state.perUserMax s.upgrades.length ⟨userId, .validating, true⟩) := by
      simp only [Sockets.run, List.foldlM_cons, List.foldlM_nil, hrequest, hreserve,
        Option.bind_eq_bind, Option.bind_some, Option.pure_def]
    cases userId with
    | none =>
        have hperform : w.perform (FullStackHex.reserve none state)
            = (.permit none, { w with permits := w.permits - 1 }) := by
          simp [FullStackHex.reserve, World.exec, hacquire]
        rw [hperform]
        refine ⟨_, _, hrun, hshows, ?_⟩
        simp [Sockets.reserve, Sockets.update, hset, Upgrade.enter]
    | some owner =>
        have hcount := hshows.count state.perUserMax owner
        cases hcounted : countConnection state.perUserMax owner s₁.connections with
        | none =>
            rw [hcounted] at hcount
            have hperform : w.perform (FullStackHex.reserve (some owner) state)
                = (rejection 429 "Too many connections from this user",
                  { w with permits := w.permits - 1 + 1 }) := by
              simp [FullStackHex.reserve, World.exec, hacquire, hcount]
            have hrefused : s₁.reserve state.perUserMax s.upgrades.length
                ⟨some owner, .validating, true⟩
                  = s₁.update s.upgrades.length ⟨some owner, .refused, true⟩ := by
              simp [Sockets.reserve, hcounted, Upgrade.enter]
            have hstep : (s₁.update s.upgrades.length ⟨some owner, .refused, true⟩).step
                state.perUserMax (.free s.upgrades.length)
                = some { s₁.update s.upgrades.length ⟨some owner, .refused, false⟩ with
                    permits := s₁.permits + 1 } := by
              simp [Sockets.step, Sockets.update, hset]
            have hfree : s.run state.perUserMax [.request (some owner),
                .reserve s.upgrades.length, .free s.upgrades.length]
                = some { s₁.update s.upgrades.length ⟨some owner, .refused, false⟩ with
                    permits := s₁.permits + 1 } := by
              simp only [Sockets.run, List.foldlM_cons, List.foldlM_nil, hrequest, hreserve,
                hrefused, hstep, Option.bind_eq_bind, Option.bind_some, Option.pure_def]
            rw [hperform]
            refine ⟨_, _, hfree, ⟨congrArg (fun n => n - 1 + 1) h.1, h.2⟩, ?_⟩
            simp [rejection, Sockets.update, hset]
        | some connections =>
            rw [hcounted] at hcount
            obtain ⟨w', hw', hshows'⟩ := hcount
            have hperform : w.perform (FullStackHex.reserve (some owner) state)
                = (.permit (some owner), w') := by
              simp [FullStackHex.reserve, World.exec, hacquire, hw']
            rw [hperform]
            have hgranted : s₁.reserve state.perUserMax s.upgrades.length
                ⟨some owner, .validating, true⟩
                  = { s₁.update s.upgrades.length ⟨some owner, .pending, true⟩ with
                      connections := connections } := by
              simp [Sockets.reserve, hcounted, Upgrade.enter]
            rw [hgranted] at hrun
            refine ⟨_, _, hrun, hshows', ?_⟩
            simp [Sockets.update, hset]
  · have hacquire : w.acquirePermit = (false, w) := by
      simp [World.acquirePermit, h.1, hpermits]
    refine ⟨[.request userId], s, ?_, ?_, ?_⟩
    · simp [Sockets.run, Sockets.step, hpermits]
    · simpa [FullStackHex.reserve, World.exec, hacquire] using h
    · simp [FullStackHex.reserve, World.exec, hacquire, rejection]

namespace Sample

/-- An upgrade of Alice whose client goes away before it is switched. -/
def abandonedUpgrade : List SocketStep :=
  [.request (some alice), .reserve 0, .fail 0, .free 0]

end Sample

open Sample

/-- With at most one connection each, Alice is locked out for ever by one upgrade
that failed. -/
theorem abandoned_upgrade_counts : ∃ s, (Sockets.initial 100).run 1 abandonedUpgrade = some s ∧
    s.live alice = 0 ∧ s.connections.lookup alice = some 1 ∧
    countConnection 1 alice s.connections = none ∧ ¬ s.Accurate 1 alice := by
  refine ⟨_, rfl, rfl, rfl, rfl, fun h => ?_⟩
  exact absurd h.1 (by decide)

theorem accurate_throughout_iff_closed : ∃ s,
    (Sockets.initial 100).run 10 [.request (some alice), .reserve 0, .complete 0, .close 0, .free 0]
      = some s ∧ s.Accurate 10 alice := by
  have h := (@accurate_throughout_iff 10 _ 100
    [.request (some alice), .reserve 0, .complete 0, .close 0, .free 0] alice rfl).mpr (by decide)
  exact ⟨_, rfl, h _ _ (List.prefix_refl _) rfl⟩

end FullStackHex
