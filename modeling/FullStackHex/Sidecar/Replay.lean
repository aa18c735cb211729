import FullStackHex.Sidecar.Hmac

/-!
Runs of requests that reach the Python sidecar, whoever sends them. The nonce that
guards against replays is not signed, so what the guard is worth depends on the
nonces that are sent.
-/

namespace FullStackHex

open Codec Http JsonText Expiring

/-- A request on its way through `_validate_hmac`: when it reads the clock, and when Redis
executes its command if it sends one, in milliseconds. -/
structure SidecarRequest where
  headers : List (String × String)
  method : String
  readAt : Nat
  setAt : Nat
  readFirst : readAt ≤ setAt
  deriving DecidableEq, Repr

/-- The headers that the signature is about, and the signature. -/
def SidecarRequest.identity (r : SidecarRequest) : List String :=
  ["x-user-id", "x-user-email", "x-user-name", "x-timestamp", "x-auth-signature"].map
    (headerOf r.headers)

def SidecarRequest.nonce (r : SidecarRequest) : String := headerOf r.headers "x-nonce"

/-- `int(time.time())`. -/
def SidecarRequest.seconds (r : SidecarRequest) : Int := (r.readAt / 1000 : Nat)

/-- The timestamp was within 30 seconds of the clock. -/
def SidecarRequest.Fresh (r : SidecarRequest) : Prop :=
  ∃ ts, pyInt (headerOf r.headers "x-timestamp") = some ts ∧ (r.seconds - ts).natAbs ≤ 30

/-- The nonces in Redis, and the state-changing requests that have passed. -/
structure Guard where
  nonces : Store String Unit
  accepted : List SidecarRequest

section Run

variable (mac : Mac) (settings : Settings)

/-- `_validate_hmac` with Redis available. -/
def Guard.validate (g : Guard) (r : SidecarRequest) : Option Rejection × NonceStore :=
  validateHmac mac settings r.headers r.method r.seconds r.setAt (.up g.nonces)

def Guard.step (g : Guard) (r : SidecarRequest) : Guard :=
  match g.validate mac settings r with
  | (rejection, .up nonces) =>
      ⟨nonces, if rejection = none ∧ changesState r.method = true then g.accepted ++ [r]
        else g.accepted⟩
  | (_, _) => g

def Guard.run (g : Guard) (rs : List SidecarRequest) : Guard :=
  rs.foldl (Guard.step mac settings) g

/-- A request that carries the identity of an accepted one carries its nonce, and has one, and
Redis executes its command less than 30 seconds after its clock reading. -/
def Guard.Repeats (g : Guard) (r : SidecarRequest) : Prop :=
  ∀ earlier ∈ g.accepted, earlier.identity = r.identity →
    r.nonce = earlier.nonce ∧ r.nonce ≠ "" ∧ r.setAt ≤ r.readAt + 29000

/-- The requests, in the order in which Redis sees them, repeat their nonces. -/
def Guard.Steady (g : Guard) : List SidecarRequest → Prop
  | [] => True
  | r :: rest =>
      (changesState r.method = true → g.Repeats r) ∧ (∀ later ∈ rest, r.setAt ≤ later.setAt) ∧
        (g.step mac settings r).Steady rest

end Run

/-- No state-changing request has passed with the identity of another one. -/
def Guard.Unreplayed (g : Guard) : Prop :=
  g.accepted.Pairwise fun earlier later => earlier.identity ≠ later.identity

/-- What accepted requests leave behind: a timestamp that was fresh, and the nonce for 90
seconds. -/
structure Guard.Held (g : Guard) (now : Nat) : Prop where
  fresh : ∀ r ∈ g.accepted, r.Fresh
  nonce : ∀ r ∈ g.accepted, r.nonce ≠ "" → ∀ t, now ≤ t → t < r.setAt + 90000 →
    (g.nonces.get t r.nonce).isSome = true

variable {mac : Mac} {settings : Settings} {g : Guard} {r : SidecarRequest} {now : Nat}

/-! ## One request -/

theorem checkSignature_fresh {headers : List (String × String)} {seconds : Int}
    (h : checkSignature mac settings headers seconds = .ok ()) :
    ∃ ts, pyInt (headerOf headers "x-timestamp") = some ts ∧ (seconds - ts).natAbs ≤ 30 := by
  unfold checkSignature at h
  dsimp only at h
  split at h
  · cases h
  · split at h
    · cases h
    · cases hts : pyInt (headerOf headers "x-timestamp") with
      | none =>
          rw [hts] at h
          cases h
      | some ts =>
          rw [hts] at h
          refine ⟨ts, rfl, ?_⟩
          by_contra hlate
          simp only at h
          rw [if_pos (by omega)] at h
          cases h

/-- The guard after a request whose nonce nobody held. -/
def Guard.accept (g : Guard) (r : SidecarRequest) : Guard where
  nonces := if r.nonce = "" then g.nonces else g.nonces.set r.nonce ⟨(), some (r.setAt + 90000)⟩
  accepted := g.accepted ++ [r]

/-- What one request does to the guard: nothing, or it is accepted; then its timestamp was
fresh, and nobody held its nonce. -/
theorem Guard.step_cases (mac : Mac) (settings : Settings) (g : Guard) (r : SidecarRequest) :
    g.step mac settings r = g ∨
      changesState r.method = true ∧ r.Fresh ∧
        (r.nonce ≠ "" → g.nonces.get r.setAt r.nonce = none) ∧
        g.step mac settings r = g.accept r := by
  unfold Guard.step Guard.validate validateHmac
  cases hcheck : checkSignature mac settings r.headers r.seconds with
  | error rejection => exact .inl rfl
  | ok u =>
      have hfresh : r.Fresh := checkSignature_fresh hcheck
      by_cases hmethod : changesState r.method = true
      · by_cases hnonce : headerOf r.headers "x-nonce" = ""
        · right
          refine ⟨hmethod, hfresh, fun hne => absurd hnonce hne, ?_⟩
          simp [hnonce, hmethod, Guard.accept, SidecarRequest.nonce]
        · cases hget : g.nonces.get r.setAt (headerOf r.headers "x-nonce") with
          | some u =>
              left
              have hset : setNonce g.nonces r.setAt (headerOf r.headers "x-nonce")
                  = (false, g.nonces) := if_pos (by rw [hget]; rfl)
              simp [hnonce, hmethod, hset]
          | none =>
              right
              refine ⟨hmethod, hfresh, fun _ => hget, ?_⟩
              have hset : setNonce g.nonces r.setAt (headerOf r.headers "x-nonce")
                  = (true, g.nonces.set (headerOf r.headers "x-nonce")
                      ⟨(), some (r.setAt + 90000)⟩) :=
                if_neg (by rw [hget]; simp)
              simp [hnonce, hmethod, hset, Guard.accept, SidecarRequest.nonce]
      · left
        simp [hmethod]

theorem Guard.Held.later {later : Nat} (h : g.Held now) (hle : now ≤ later) : g.Held later where
  fresh := h.fresh
  nonce := fun r hr hne t ht => h.nonce r hr hne t (hle.trans ht)

/-- An accepted request takes no nonce away from an earlier one: where both have the same, that
of the earlier one has run out. -/
theorem Guard.Held.accept (h : g.Held now) (hle : now ≤ r.setAt) (hfresh : r.Fresh)
    (hfree : r.nonce ≠ "" → g.nonces.get r.setAt r.nonce = none) :
    (g.accept r).Held r.setAt where
  fresh := by
    intro e he
    rcases List.mem_append.mp he with hold | hnew
    · exact h.fresh e hold
    · rwa [List.mem_singleton.mp hnew]
  nonce := by
    intro e he hne t hge hlt
    unfold Guard.accept
    dsimp only
    rcases List.mem_append.mp he with hold | hnew
    · have hheld := h.nonce e hold hne
      split
      · exact hheld t (by omega) hlt
      · rename_i hnonce
        have hother : e.nonce ≠ r.nonce := by
          intro hsame
          have hstill := hheld r.setAt hle (by omega)
          rw [hsame, hfree hnonce] at hstill
          cases hstill
        rw [Store.get_set_ne hother]
        exact hheld t (by omega) hlt
    · obtain rfl := List.mem_singleton.mp hnew
      have hlive : Timed.alive (⟨(), some (e.setAt + 90000)⟩ : Timed Unit) t = true :=
        decide_eq_true hlt
      rw [if_neg hne, Store.get_set_self hlive]
      rfl

/-- An identity is fresh for at most 61 seconds, so its nonce is still there. -/
theorem Guard.Held.unaccepted {earlier : SidecarRequest} (h : g.Held now) (hle : now ≤ r.setAt)
    (hfresh : r.Fresh) (hfree : r.nonce ≠ "" → g.nonces.get r.setAt r.nonce = none)
    (hrepeats : g.Repeats r) (hmem : earlier ∈ g.accepted) : earlier.identity ≠ r.identity := by
  intro hsame
  obtain ⟨hnonce, hne, hprompt⟩ := hrepeats earlier hmem hsame
  obtain ⟨ts, hts, hnear⟩ := hfresh
  obtain ⟨ts', hts', hnear'⟩ := h.fresh earlier hmem
  have hstamp : headerOf earlier.headers "x-timestamp" = headerOf r.headers "x-timestamp" := by
    unfold SidecarRequest.identity at hsame
    simp only [List.map_cons, List.map_nil, List.cons.injEq] at hsame
    exact hsame.2.2.2.1
  have hequal : ts' = ts := by
    rw [hstamp, hts] at hts'
    exact (Option.some.inj hts').symm
  have hread := earlier.readFirst
  have hinside : r.setAt < earlier.setAt + 90000 := by
    unfold SidecarRequest.seconds at hnear hnear'
    omega
  have hheld := h.nonce earlier hmem (hnonce ▸ hne) r.setAt hle hinside
  rw [← hnonce, hfree hne] at hheld
  cases hheld

/-- What one request preserves. -/
theorem Guard.step_preserves (mac : Mac) (settings : Settings) (h : g.Held now) (hun : g.Unreplayed) (hle : now ≤ r.setAt)
    (hrepeats : changesState r.method = true → g.Repeats r) :
    (g.step mac settings r).Held r.setAt ∧ (g.step mac settings r).Unreplayed := by
  rcases g.step_cases mac settings r with hsame | ⟨hmethod, hfresh, hfree, hstep⟩
  · rw [hsame]
    exact ⟨h.later hle, hun⟩
  · rw [hstep]
    refine ⟨h.accept hle hfresh hfree, ?_⟩
    unfold Guard.Unreplayed Guard.accept
    rw [List.pairwise_append]
    refine ⟨hun, List.pairwise_singleton _ _, fun earlier hmem later hlater => ?_⟩
    rw [List.mem_singleton.mp hlater]
    exact h.unaccepted hle hfresh hfree (hrepeats hmethod) hmem

/-! ## Every run -/

theorem Guard.run_preserves {rs : List SidecarRequest} (h : g.Held now) (hun : g.Unreplayed)
    (hle : ∀ r ∈ rs, now ≤ r.setAt) (hsteady : g.Steady mac settings rs) :
    (g.run mac settings rs).Unreplayed := by
  induction rs generalizing g now with
  | nil => exact hun
  | cons r rest ih =>
      obtain ⟨hrepeats, horder, hrest⟩ := hsteady
      obtain ⟨hheld, hun'⟩ := Guard.step_preserves mac settings h hun
        (hle r (List.mem_cons_self ..)) hrepeats
      exact ih hheld hun' horder hrest

theorem Guard.Steady.take {rs : List SidecarRequest} (h : g.Steady mac settings rs) (n : Nat) :
    g.Steady mac settings (rs.take n) := by
  induction rs generalizing g n with
  | nil =>
      rw [List.take_nil]
      exact h
  | cons r rest ih =>
      cases n with
      | zero => exact trivial
      | succ n =>
          obtain ⟨hrepeats, horder, hrest⟩ := h
          exact ⟨hrepeats, fun later hlater => horder later (List.mem_of_mem_take hlater),
            ih hrest n⟩

/-- Whatever nonces Redis holds when the run begins: if those who send an identity again send
the nonce it came with, then at no moment has an identity been accepted twice. -/
theorem identity_accepted_once (mac : Mac) (settings : Settings) (nonces : Store String Unit)
    (rs : List SidecarRequest) (hsteady : Guard.Steady mac settings ⟨nonces, []⟩ rs) (n : Nat) :
    (Guard.run mac settings ⟨nonces, []⟩ (rs.take n)).Unreplayed := by
  have hheld : (⟨nonces, []⟩ : Guard).Held 0 :=
    ⟨fun _ h => absurd h List.not_mem_nil, fun _ h => absurd h List.not_mem_nil⟩
  have hun : (⟨nonces, []⟩ : Guard).Unreplayed := List.Pairwise.nil
  exact Guard.run_preserves hheld hun (fun r _ => Nat.zero_le r.setAt) (hsteady.take n)

namespace Sample

/-- A POST with the identity of `jose`. -/
def post (nonce : List (String × String)) (readAt : Nat) : SidecarRequest where
  headers := nonce ++ (delivered (requestLines none (some jose) "")).filter fun h => h.1 ≠ "x-nonce"
  method := "POST"
  readAt := readAt
  setAt := readAt + 5
  readFirst := Nat.le_add_right readAt 5

end Sample

/-- The request and, five seconds later, the same once more. -/
theorem identity_accepted_once_sample :
    (Guard.run Sample.mac Sample.settings ⟨Store.empty, []⟩
      ([Sample.post [("x-nonce", "n1")] 1700000000000,
        Sample.post [("x-nonce", "n1")] 1700000005000].take 2)).Unreplayed := by
  apply identity_accepted_once
  have hfirst : (Guard.step Sample.mac Sample.settings ⟨Store.empty, []⟩
      (Sample.post [("x-nonce", "n1")] 1700000000000)).accepted
        = [Sample.post [("x-nonce", "n1")] 1700000000000] := by decide +kernel
  refine ⟨fun _ e he => absurd he List.not_mem_nil, by decide, fun _ e he _ => ?_, by decide,
    trivial⟩
  rw [hfirst] at he
  obtain rfl := List.mem_singleton.mp he
  decide +kernel

/-- The request, the same with another nonce and the same without a nonce: all pass. -/
theorem identity_replayed :
    let first := Sample.post [("x-nonce", "n1")] 1700000000000
    let second := Sample.post [("x-nonce", "n2")] 1700000005000
    let third := Sample.post [] 1700000010000
    (Guard.run Sample.mac Sample.settings ⟨Store.empty, []⟩ [first, second, third]).accepted
        = [first, second, third] ∧
      first.identity = second.identity ∧ second.identity = third.identity := by
  decide +kernel

end FullStackHex
