import FullStackHex.Api.Sockets

/-!
What the two limits on WebSocket connections promise, and that an upgrade which is
rejected takes nothing with it.
-/

namespace FullStackHex

open Concurrent Expiring

namespace Sockets

/-- The permits that upgrades have. -/
def outstanding (s : Sockets) : Nat := s.upgrades.countP Upgrade.permit

/-- No user has more connections than allowed, and every permit is free or with an upgrade. -/
structure Bounded (permits max : Nat) (s : Sockets) : Prop where
  connections : ∀ userId, (s.connections.lookup userId).getD 0 ≤ max
  permits : s.outstanding + s.permits = permits

end Sockets

/-- The upgrade that a step belongs to. A request begins the next one. -/
def SocketStep.upgrade (s : Sockets) : SocketStep → Nat
  | .request _ => s.upgrades.length
  | .reserve i | .complete i | .fail i | .close i | .free i => i

namespace Sockets

/-- What the steps of one upgrade add to the free permits in a run. -/
def ownPermits (max i : Nat) (s : Sockets) : List SocketStep → Int
  | [] => 0
  | c :: rest =>
      match s.step max c with
      | none => 0
      | some s' =>
          (if c.upgrade s = i then (s'.permits : Int) - s.permits else 0) + ownPermits max i s' rest

/-- No step of the upgrade changes the counts of connections. -/
def OwnKeepCounts (max i : Nat) (s : Sockets) : List SocketStep → Prop
  | [] => True
  | c :: rest => ∀ s', s.step max c = some s' →
      (c.upgrade s = i → s'.connections = s.connections) ∧ OwnKeepCounts max i s' rest

/-- One if the upgrade has a permit. -/
def held (s : Sockets) (i : Nat) : Nat := (s.upgrades[i]?.elim false Upgrade.permit).toNat

end Sockets

/-- An upgrade that has been counted as a connection of its user. -/
def Phase.wasCounted : Phase → Bool
  | .validating | .refused => false
  | .pending | .running | .failed | .closed => true

def Sockets.WasCounted (s : Sockets) (i : Nat) : Prop :=
  ∃ u, s.upgrades[i]? = some u ∧ u.phase.wasCounted = true

section Step

variable {permits max i : Nat} {s s' : Sockets} {u u' : Upgrade} {c : SocketStep}

/-- One step: whose it is, what it does to the permits and to the counts. -/
structure Sockets.Stepped (max : Nat) (c : SocketStep) (s s' : Sockets) : Prop where
  outstanding : s'.outstanding + s'.permits = s.outstanding + s.permits
  own : s'.held (c.upgrade s) + s'.permits = s.held (c.upgrade s) + s.permits
  others : ∀ j, j ≠ c.upgrade s → s'.upgrades[j]? = s.upgrades[j]?
  bound : (∀ userId, (s.connections.lookup userId).getD 0 ≤ max) →
    ∀ userId, (s'.connections.lookup userId).getD 0 ≤ max
  counts : s'.connections = s.connections ∨ s'.WasCounted (c.upgrade s)
  counted : s.WasCounted (c.upgrade s) → s'.WasCounted (c.upgrade s)

/-- A step that changes one upgrade. -/
theorem Sockets.stepped_set (hu : s.upgrades[i]? = some u) (hc : c.upgrade s = i)
    (hset : s'.upgrades = s.upgrades.set i u')
    (hpermits : u'.permit.toNat + s'.permits = u.permit.toNat + s.permits)
    (hbound : (∀ userId, (s.connections.lookup userId).getD 0 ≤ max) →
      ∀ userId, (s'.connections.lookup userId).getD 0 ≤ max)
    (hcounts : s'.connections = s.connections ∨ u'.phase.wasCounted = true)
    (hcounted : u.phase.wasCounted = true → u'.phase.wasCounted = true) : Stepped max c s s' := by
  have hi := (List.getElem?_eq_some_iff.mp hu).1
  have hnew : s'.upgrades[i]? = some u' := by
    rw [hset]
    exact List.getElem?_set_self hi
  have houtstanding : s'.outstanding + u.permit.toNat = s.outstanding + u'.permit.toNat := by
    unfold Sockets.outstanding
    rw [hset]
    exact countP_set_add Upgrade.permit hu
  constructor
  · omega
  · rw [hc]
    unfold Sockets.held
    rw [hnew, hu]
    exact hpermits
  · intro j hj
    rw [hset, List.getElem?_set_ne (by omega)]
  · exact hbound
  · rw [hc]
    exact hcounts.imp_right fun h => ⟨u', hnew, h⟩
  · rw [hc]
    rintro ⟨found, hfound, hphase⟩
    rw [hu] at hfound
    obtain rfl := Option.some.inj hfound
    exact ⟨u', hnew, hcounted hphase⟩

/-- The count of one user is raised below the limit. -/
theorem le_countConnection {userId : Uuid} {connections connections' : Table Uuid Nat}
    (h : countConnection max userId connections = some connections')
    (hle : ∀ other, (connections.lookup other).getD 0 ≤ max) (other : Uuid) :
    (connections'.lookup other).getD 0 ≤ max := by
  have hroom : ¬ max ≤ (connections.lookup userId).getD 0 := by
    intro hfull
    simp [countConnection, hfull] at h
  rw [lookup_countConnection h]
  split
  · rw [Option.getD_some]
    omega
  · exact hle other

theorem le_dropUserGuard {userId : Uuid} {connections : Table Uuid Nat}
    (hle : ∀ other, (connections.lookup other).getD 0 ≤ max) (other : Uuid) :
    ((dropUserGuard userId connections).lookup other).getD 0 ≤ max := by
  rw [lookup_dropUserGuard]
  split
  · have huser := hle userId
    cases hcount : connections.lookup userId with
    | none => simp
    | some count =>
        rw [hcount, Option.getD_some] at huser
        rw [Option.map_some, getD_filter_ne_zero]
        omega
  · exact hle other

theorem Sockets.stepped (hstep : s.step max c = some s') : Stepped max c s s' := by
  cases c with
  | request owner =>
      simp only [Sockets.step] at hstep
      split at hstep
      · rename_i hfree
        obtain rfl := Option.some.inj hstep
        have hlast : (s.upgrades ++ [(⟨owner, .validating, true⟩ : Upgrade)])[s.upgrades.length]?
            = some ⟨owner, .validating, true⟩ := by simp
        have hnone : s.upgrades[s.upgrades.length]? = none := by simp
        constructor
        · simp only [Sockets.outstanding, List.countP_append, List.countP_singleton, if_true]
          omega
        · simp only [SocketStep.upgrade, Sockets.held, hlast, hnone, Option.elim_some,
            Option.elim_none, Bool.toNat_true, Bool.toNat_false]
          omega
        · intro j hj
          have hj : j ≠ s.upgrades.length := hj
          rcases Nat.lt_or_gt_of_ne hj with hlt | hgt
          · exact List.getElem?_append_left hlt
          · rw [List.getElem?_eq_none (by simp; omega), List.getElem?_eq_none (by omega)]
        · exact id
        · exact .inl rfl
        · rintro ⟨u, hu, -⟩
          rw [show s.upgrades[(SocketStep.request owner).upgrade s]? = none from hnone] at hu
          cases hu
      · obtain rfl := Option.some.inj hstep
        exact ⟨rfl, rfl, fun _ _ => rfl, id, .inl rfl, id⟩
  | reserve i =>
      obtain ⟨u, hu, hstep⟩ := Option.bind_eq_some_iff.mp hstep
      split_ifs at hstep with hphase
      obtain rfl := Option.some.inj hstep
      have hcounted : ∀ {p : Prop}, u.phase.wasCounted = true → p := by
        intro p hyes
        rw [hphase] at hyes
        cases hyes
      unfold Sockets.reserve
      cases u.userId with
      | none => exact stepped_set hu rfl rfl rfl id (.inl rfl) hcounted
      | some owner =>
          dsimp only
          cases hcount : countConnection max owner s.connections with
          | none => exact stepped_set hu rfl rfl rfl id (.inl rfl) hcounted
          | some connections =>
              exact stepped_set hu rfl rfl rfl (le_countConnection hcount)
                (.inr rfl) hcounted
  | complete i =>
      obtain ⟨u, hu, hstep⟩ := Option.bind_eq_some_iff.mp hstep
      split_ifs at hstep
      obtain rfl := Option.some.inj hstep
      exact stepped_set hu rfl rfl rfl id (.inl rfl) fun _ => rfl
  | fail i =>
      obtain ⟨u, hu, hstep⟩ := Option.bind_eq_some_iff.mp hstep
      split_ifs at hstep
      obtain rfl := Option.some.inj hstep
      exact stepped_set hu rfl rfl rfl id (.inl rfl) fun _ => rfl
  | close i =>
      obtain ⟨u, hu, hstep⟩ := Option.bind_eq_some_iff.mp hstep
      split_ifs at hstep
      obtain rfl := Option.some.inj hstep
      unfold Sockets.close
      cases u.userId with
      | none => exact stepped_set hu rfl rfl rfl id (.inl rfl) fun _ => rfl
      | some owner =>
          exact stepped_set hu rfl rfl rfl le_dropUserGuard (.inr rfl)
            fun _ => rfl
  | free i =>
      obtain ⟨u, hu, hstep⟩ := Option.bind_eq_some_iff.mp hstep
      split_ifs at hstep with hfree
      obtain rfl := Option.some.inj hstep
      apply stepped_set hu rfl rfl
      · rw [hfree.1]
        simp only [Bool.toNat_false, Bool.toNat_true]
        omega
      · exact id
      · exact .inl rfl
      · exact id

/-- Over a run every permit stays free or with an upgrade, and no count passes the limit. -/
theorem Sockets.Bounded.run {steps : List SocketStep} (h : s.Bounded permits max)
    (hrun : s.run max steps = some s') : s'.Bounded permits max := by
  induction steps generalizing s with
  | nil =>
      obtain rfl := Option.some.inj hrun
      exact h
  | cons c rest ih =>
      obtain ⟨mid, hstep, hrest⟩ := Option.bind_eq_some_iff.mp hrun
      have hmid := Sockets.stepped hstep
      exact ih ⟨hmid.bound h.connections, hmid.outstanding.trans h.permits⟩ hrest

theorem Sockets.WasCounted.run {steps : List SocketStep} (h : s.WasCounted i)
    (hrun : s.run max steps = some s') : s'.WasCounted i := by
  induction steps generalizing s with
  | nil =>
      obtain rfl := Option.some.inj hrun
      exact h
  | cons c rest ih =>
      obtain ⟨mid, hstep, hrest⟩ := Option.bind_eq_some_iff.mp hrun
      have hmid := Sockets.stepped hstep
      apply ih _ hrest
      by_cases hi : i = c.upgrade s
      · subst hi
        exact hmid.counted h
      · obtain ⟨u, hu, hphase⟩ := h
        exact ⟨u, (hmid.others i hi).trans hu, hphase⟩

/-- The permits that the steps of an upgrade take are those that it then has. -/
theorem Sockets.ownPermits_add_held {steps : List SocketStep} (hrun : s.run max steps = some s') :
    s.ownPermits max i steps + s'.held i = s.held i := by
  induction steps generalizing s with
  | nil =>
      obtain rfl := Option.some.inj hrun
      simp [ownPermits]
  | cons c rest ih =>
      obtain ⟨mid, hstep, hrest⟩ := Option.bind_eq_some_iff.mp hrun
      have hmid := Sockets.stepped hstep
      have hlater := ih hrest
      unfold ownPermits
      rw [hstep]
      dsimp only
      split
      · rename_i hi
        subst hi
        have hown := hmid.own
        omega
      · rename_i hi
        have hsame : mid.held i = s.held i := by
          unfold held
          rw [hmid.others i (Ne.symm hi)]
        omega

/-- The steps of an upgrade that has not been counted in the end change no count. -/
theorem Sockets.ownKeepCounts_of_not {steps : List SocketStep} (hrun : s.run max steps = some s')
    (hnot : ¬ s'.WasCounted i) : s.OwnKeepCounts max i steps := by
  induction steps generalizing s with
  | nil => exact trivial
  | cons c rest ih =>
      obtain ⟨mid, hstep, hrest⟩ := Option.bind_eq_some_iff.mp hrun
      intro next hnext
      rw [hstep] at hnext
      obtain rfl := Option.some.inj hnext
      refine ⟨fun hi => ?_, ih hrest⟩
      subst hi
      rcases (Sockets.stepped hstep).counts with hsame | hcounted
      · exact hsame
      · exact absurd (hcounted.run hrest) hnot

end Step

/-! ## One call of `validate_ws_connection` -/

/-- The permits and the counts are the same. -/
def World.SameCounts (w w' : World) : Prop :=
  w'.permits = w.permits ∧ w'.userConnections = w.userConnections

theorem World.SameButCache.sameCounts {w w' : World} (h : w.SameButCache w') : w.SameCounts w' := by
  rw [h]
  exact ⟨rfl, rfl⟩

theorem perform_wsUser_same (headers : Headers) (token : Option String) (state : AppState)
    (w : World) : w.SameCounts (w.perform (wsUser headers token state)).2 := by
  unfold wsUser
  cases state.auth with
  | none => exact ⟨rfl, rfl⟩
  | some auth =>
      cases token with
      | some token =>
          simp only [Program.bind_def, World.perform, Program.run_bind, run_exceptRun,
            alone_validateToken]
          cases tokenVerdict auth token (w.now / 1000) with
          | error err => exact ⟨rfl, rfl⟩
          | ok claims => exact ⟨rfl, rfl⟩
      | none =>
          simp only [Program.bind_def, World.perform, Program.run_bind]
          unfold cookieAuthenticated
          split
          · exact ⟨rfl, rfl⟩
          · rename_i sessionId _
            split
            · exact ⟨rfl, rfl⟩
            · simp only [Program.bind_def, Program.run_bind, run_exceptRun,
                (alone_sessionGet sessionId w).1]
              cases w.resolve sessionId with
              | none => exact (w.lookedUp_same sessionId).sameCounts
              | some session => exact (w.lookedUp_same sessionId).sameCounts

theorem perform_reserve_reject {userId : Option Uuid} {state : AppState} {w : World}
    {status : Nat} {body : String} (h : (w.perform (reserve userId state)).1 = .reject status body) :
    w.SameCounts (w.perform (reserve userId state)).2 := by
  by_cases hfree : 0 < w.permits
  · have hacquire : w.acquirePermit = (true, { w with permits := w.permits - 1 }) := by
      simp [World.acquirePermit, hfree]
    cases userId with
    | none => simp [reserve, World.exec, hacquire] at h
    | some id =>
        by_cases hfull : state.perUserMax ≤ w.userConnections id
        · have hperform : (w.perform (reserve (some id) state)).2
              = { w with permits := w.permits - 1 + 1 } := by
            simp [reserve, World.exec, hacquire, World.reserveConnection, hfull]
          rw [hperform]
          exact ⟨Nat.sub_add_cancel hfree, rfl⟩
        · simp [reserve, World.exec, hacquire, World.reserveConnection, hfull] at h
  · have hacquire : w.acquirePermit = (false, w) := by
      simp [World.acquirePermit, hfree]
    have hperform : (w.perform (reserve userId state)).2 = w := by
      simp [reserve, World.exec, hacquire]
    rw [hperform]
    exact ⟨rfl, rfl⟩

theorem perform_admitUser_reject {userId : Option Uuid} {state : AppState} {w : World}
    {status : Nat} {body : String}
    (h : (w.perform (admitUser userId state)).1 = .reject status body) :
    w.SameCounts (w.perform (admitUser userId state)).2 := by
  unfold admitUser at h ⊢
  by_cases hauth : (state.auth.isSome && userId.isNone) = true
  · rw [if_pos hauth]
    exact ⟨rfl, rfl⟩
  · by_cases hredis : (!state.redis) = true
    · rw [if_neg hauth, if_pos hredis]
      exact ⟨rfl, rfl⟩
    · rw [if_neg hauth, if_neg hredis] at h ⊢
      exact perform_reserve_reject h

theorem perform_validate_reject {headers : Headers} {token : Option String} {state : AppState}
    {w : World} {status : Nat} {body : String}
    (h : (w.perform (validateWsConnection headers token state)).1 = .reject status body) :
    w.SameCounts (w.perform (validateWsConnection headers token state)).2 := by
  have huser := perform_wsUser_same headers token state w
  unfold validateWsConnection at h ⊢
  by_cases horigin : (!originAllowed headers state) = true
  · rw [if_pos horigin]
    exact ⟨rfl, rfl⟩
  · rw [if_neg horigin] at h ⊢
    simp only [Program.bind_def, World.perform, Program.run_bind] at h huser ⊢
    cases hresult : ((wsUser headers token state).run (World.exec .calm) w).1 with
    | error message => exact huser
    | ok userId =>
        rw [hresult] at h
        have hadmission := perform_admitUser_reject h
        exact ⟨hadmission.1.trans huser.1, hadmission.2.trans huser.2⟩

/-- At all times no user has more than `max` connections and at most `permits` permits are out.
An upgrade that is refused has, with all its own steps, left permits and counts as they were; so
has one that finds no permit, and any call that ends in a rejection. -/
theorem connections_bounded {permits max : Nat} {steps : List SocketStep} {s : Sockets}
    (hrun : (Sockets.initial permits).run max steps = some s) :
    ((∀ userId, (s.connections.lookup userId).getD 0 ≤ max) ∧ s.outstanding ≤ permits) ∧
    (∀ (i : Nat) (userId : Option Uuid), s.upgrades[i]? = some ⟨userId, .refused, false⟩ →
      (Sockets.initial permits).ownPermits max i steps = 0 ∧
        (Sockets.initial permits).OwnKeepCounts max i steps) ∧
    (∀ userId, s.permits = 0 → s.step max (.request userId) = some s) ∧
    ∀ headers token state (w : World) status body,
      (w.perform (validateWsConnection headers token state)).1 = .reject status body →
        w.SameCounts (w.perform (validateWsConnection headers token state)).2 := by
  have hinitial : (Sockets.initial permits).Bounded permits max :=
    ⟨fun _ => Nat.zero_le _, Nat.zero_add _⟩
  have hbounded := hinitial.run hrun
  refine ⟨⟨hbounded.connections, ?_⟩, fun i userId hu => ⟨?_, ?_⟩, fun userId hfull => ?_,
    fun headers token state w status body h => perform_validate_reject h⟩
  · have hpermits := hbounded.permits
    omega
  · have hown := Sockets.ownPermits_add_held (i := i) hrun
    have hafter : s.held i = 0 := by simp [Sockets.held, hu]
    have hbefore : (Sockets.initial permits).held i = 0 := rfl
    omega
  · apply Sockets.ownKeepCounts_of_not hrun
    rintro ⟨u, hfound, hphase⟩
    rw [hu] at hfound
    obtain rfl := Option.some.inj hfound
    cases hphase
  · simp [Sockets.step, hfull]

open Sample

/-- Alice may connect once: her second upgrade is refused and gives its permit back. -/
theorem connections_bounded_refused : ∃ s,
    (Sockets.initial 100).run 1 [.request (some alice), .reserve 0, .request (some alice),
      .reserve 1, .free 1] = some s ∧ s.outstanding ≤ 100 ∧
    (Sockets.initial 100).ownPermits 1 1 [.request (some alice), .reserve 0,
      .request (some alice), .reserve 1, .free 1] = 0 := by
  refine ⟨_, rfl, ?_⟩
  have hrun : (Sockets.initial 100).run 1 [.request (some alice), .reserve 0,
      .request (some alice), .reserve 1, .free 1] = some _ := rfl
  have h := connections_bounded hrun
  exact ⟨h.1.2, (h.2.1 1 (some alice) rfl).1⟩

end FullStackHex
