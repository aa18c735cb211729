import FullStackHex.Cache.RateLimit
import FullStackHex.Library.SlidingWindow

/-!
`rate_limit_check` and `rate_limit_count` over whole sequences of calls on one
key, against a limiter that remembers the times of all admitted calls. The sorted
set keeps no more of them than its window and its own deadline leave.
-/

namespace FullStackHex

open Concurrent Expiring SlidingWindow

namespace World

/-- Up to `2 ^ 53` every whole number is a double. -/
@[simp] theorem toDouble_of_le {n : Nat} (h : n ≤ 2 ^ 53) : toDouble n = n := by
  rcases Nat.lt_or_ge n (2 ^ 53) with hlt | hge
  · have hlog : n.log2 - 52 = 0 := by
      rcases Nat.eq_zero_or_pos n with rfl | hpos
      · rfl
      · have := (Nat.log2_lt (by omega)).mpr hlt
        omega
    simp [toDouble, hlog, Nat.mod_one]
  · have heq : n = 2 ^ 53 := le_antisymm h hge
    subst heq
    decide

theorem zremrangebyscore_of_le {start : Nat} (h : start ≤ 2 ^ 53)
    (entries : List (Nat × String)) :
    zremrangebyscore start entries = entries.filter fun e => start < e.1 := by
  unfold zremrangebyscore
  apply List.filter_congr
  intro e _
  have hneg : ¬ ((start : Int) < 0) := by omega
  simp [hneg, toDouble_of_le h]

/-- A member that is in no entry is added at the end. -/
theorem zadd_of_fresh {entries : List (Nat × String)} {score : Nat} {member : String}
    (h : ∀ e ∈ entries, e.2 ≠ member) :
    zadd entries score member = entries ++ [(score, member)] := by
  unfold zadd
  rw [List.filter_eq_self.mpr]
  intro e he
  simpa using h e he

/-- The entries of a set that are later than the start of the window. -/
def entriesAfter (w : World) (key : String) (start : Nat) : List (Nat × String) :=
  (w.rateLimitEntries key).filter fun e => start < e.1

def setLimit (w : World) (key : String) (t : Timed (List (Nat × String))) : World :=
  { w with rateLimits := w.rateLimits.set key t }

@[simp] theorem atTime_now (w : World) (t : Nat) : (w.atTime t).now = t := rfl

theorem atTime_eq_self {w : World} {t : Nat} (h : w.now = t) : w.atTime t = w := by
  subst h
  rfl

@[simp] theorem setLimit_now (w : World) (key : String) (t : Timed (List (Nat × String))) :
    (w.setLimit key t).now = w.now := rfl

variable {w : World} {key member : String} {start now max ttl d : Nat}

theorem rateLimit_of_lt (hstart : start ≤ 2 ^ 53) (hnow : now ≤ 2 ^ 53) (hmax : max ≤ 2 ^ 53)
    (hd : deadline w.now ttl = some d)
    (hfresh : ∀ e ∈ w.rateLimitEntries key, e.2 ≠ member)
    (hlt : (w.entriesAfter key start).length < max) :
    w.rateLimit key start now max ttl member =
      (.ok (1, (max - (w.entriesAfter key start).length - 1 : Nat), 0),
        w.setLimit key ⟨w.entriesAfter key start ++ [(now, member)], some d⟩) := by
  have hzadd : zadd (w.entriesAfter key start) now member
      = w.entriesAfter key start ++ [(now, member)] :=
    zadd_of_fresh fun e he => hfresh e (List.mem_of_mem_filter he)
  have hkept : zremrangebyscore start (w.rateLimitEntries key) = w.entriesAfter key start :=
    zremrangebyscore_of_le hstart _
  have hreply : luaReply (max - (w.entriesAfter key start).length - 1)
      = (max - (w.entriesAfter key start).length - 1 : Nat) := by
    unfold luaReply
    rw [if_pos (by omega)]
  have hleft : toDouble (max - (w.entriesAfter key start).length)
      = max - (w.entriesAfter key start).length := toDouble_of_le (by omega)
  have hremaining : toDouble (max - (w.entriesAfter key start).length - 1)
      = max - (w.entriesAfter key start).length - 1 := toDouble_of_le (by omega)
  simp only [rateLimit, hkept, toDouble_of_le hmax, hlt, if_true, hd, toDouble_of_le hnow, hzadd,
    hleft, hremaining, hreply]
  rfl

theorem rateLimit_of_le (hstart : start ≤ 2 ^ 53) (hmax : max ≤ 2 ^ 53) (hpos : 1 ≤ max)
    (hle : max ≤ (w.entriesAfter key start).length) :
    ∃ reset, w.rateLimit key start now max ttl member =
      (.ok (0, 0, reset), w.setLimit key
        ⟨w.entriesAfter key start, (w.rateLimits.entry w.now key).bind Timed.deadline⟩) := by
  have hlt : ¬ (w.entriesAfter key start).length < max := by omega
  have hkept : zremrangebyscore start (w.rateLimitEntries key) = w.entriesAfter key start :=
    zremrangebyscore_of_le hstart _
  simp only [rateLimit, hkept, toDouble_of_le hmax, hlt, if_false]
  cases hentries : w.entriesAfter key start with
  | nil =>
      rw [hentries] at hle
      simp only [List.length_nil] at hle
      omega
  | cons e rest => exact ⟨_, rfl⟩

theorem entriesAfter_of_none (h : w.rateLimits.get w.now key = none) :
    w.entriesAfter key start = [] := by
  simp [entriesAfter, rateLimitEntries, h]

theorem entriesAfter_of_some {t : Timed (List (Nat × String))} (h : w.rateLimits key = some t) :
    w.entriesAfter key start =
      if t.alive w.now then t.value.filter fun e => start < e.1 else [] := by
  unfold entriesAfter rateLimitEntries
  rw [Store.get_of_some h]
  split <;> rfl

theorem setLimit_entries (t : Timed (List (Nat × String))) (later : Nat) :
    ((w.setLimit key t).atTime later).rateLimitEntries key = if t.alive later then t.value else [] := by
  have hraw : ((w.setLimit key t).atTime later).rateLimits key = some t := Store.set_self _ _ _
  unfold rateLimitEntries
  rw [Store.get_of_some hraw, atTime_now]
  split <;> rfl

/-- A set with the entries that a purge leaves and the deadline it had: at a later moment
it holds what the purge would leave of the old set then. -/
theorem setLimit_later {later : Nat} (h : w.now ≤ later) :
    ((w.setLimit key ⟨w.entriesAfter key start,
        (w.rateLimits.entry w.now key).bind Timed.deadline⟩).atTime later).rateLimitEntries key
      = (w.atTime later).entriesAfter key start := by
  rw [setLimit_entries]
  cases hentry : w.rateLimits.entry w.now key with
  | none =>
      have hget : w.rateLimits.get w.now key = none := by simp [Store.get, hentry]
      have hlater : (w.atTime later).rateLimits.get later key = none :=
        Store.get_none_of_le h hget
      rw [entriesAfter_of_none hget, entriesAfter_of_none (w := w.atTime later) hlater]
      exact ite_self _
  | some t =>
      obtain ⟨hraw, hlive⟩ := Store.entry_eq_some.mp hentry
      rw [entriesAfter_of_some hraw, entriesAfter_of_some (w := w.atTime later) hraw, if_pos hlive]
      rfl

@[simp] theorem rateLimitPurge_now (w : World) (key : String) (limit : Int) :
    (w.rateLimitPurge key limit).now = w.now := by
  unfold rateLimitPurge
  split
  · rfl
  · dsimp only
    split <;> rfl

theorem rateLimitPurge_later {later : Nat} (hstart : start ≤ 2 ^ 53) (h : w.now ≤ later) :
    ((w.rateLimitPurge key start).atTime later).rateLimitEntries key
      = (w.atTime later).entriesAfter key start := by
  cases hentry : w.rateLimits.entry w.now key with
  | none =>
      have hget : w.rateLimits.get w.now key = none := by simp [Store.get, hentry]
      have hlater : (w.atTime later).rateLimits.get later key = none :=
        Store.get_none_of_le h hget
      rw [entriesAfter_of_none (w := w.atTime later) hlater]
      simp only [rateLimitPurge, hentry]
      unfold rateLimitEntries
      rw [atTime_now, hlater]
      rfl
  | some t =>
      obtain ⟨hraw, hlive⟩ := Store.entry_eq_some.mp hentry
      rw [entriesAfter_of_some (w := w.atTime later) hraw]
      simp only [rateLimitPurge, hentry, zremrangebyscore_of_le hstart]
      split
      · rename_i hempty
        rw [List.isEmpty_iff.mp hempty, ite_self]
        have hdel : (w.rateLimits.del key).get later key = none := Store.get_del_self _ _ _
        exact congrArg (fun entries => entries.getD []) hdel
      · exact setLimit_entries _ later

theorem entriesAfter_sublist : (w.entriesAfter key start).Sublist (w.rateLimitEntries key) :=
  List.filter_sublist

end World

theorem Duration.asMillis_lt (window : Duration) :
    window.asMillis < window.secs.toNat * 1000 + 1000 := by
  have hnanos := window.bound
  unfold Duration.asMillis
  omega

/-- `rate_limit_check` at a moment, with the member it draws. -/
def World.checkAt (key : String) (window : Duration) (maxRequests : UInt64) (w : World)
    (now : Nat) (member : String) : Except CacheError RateLimitResult × World :=
  alone { Choice.calm with token := member } (rateLimitCheck key window maxRequests) (w.atTime now)

def World.countAt (key : String) (window : Duration) (w : World) (now : Nat) :
    Except CacheError Nat × World :=
  alone .calm (rateLimitCount key window) (w.atTime now)

theorem World.checkAt_eq (key : String) (window : Duration) (maxRequests : UInt64)
    (w : World) (now : Nat) (member : String) :
    w.checkAt key window maxRequests now member =
      let r := (w.atTime now).rateLimit key (windowStart now window) now maxRequests.toNat
        (window.secs + 60).toNat member
      (r.1.map fun reply =>
        ⟨reply.1 == 1, reply.2.1.toNat, (reply.2.2 % 2 ^ 64).toNat⟩, r.2) := by
  simp only [World.checkAt, rateLimitCheck, alone_bind, alone_mk, alone_lift, Program.run_command,
    Program.run_ret, World.exec, World.answer_none, alone_pure, Choice.calm_fault,
    World.atTime_now]
  rcases (w.atTime now).rateLimit key (windowStart now window) now maxRequests.toNat
    (window.secs + 60).toNat member with ⟨_ | _, _⟩ <;> rfl

/-- A moment at which the start of the window neither wraps around nor loses precision. -/
def Readable (window : Duration) (now : Nat) : Prop := window.asMillis ≤ now ∧ now ≤ 2 ^ 53

instance (window : Duration) (now : Nat) : Decidable (Readable window now) :=
  inferInstanceAs (Decidable (_ ∧ _))

theorem Readable.windowStart {window : Duration} {now : Nat} (h : Readable window now) :
    windowStart now window = now - window.asMillis := by
  obtain ⟨hwindow, hnow⟩ := h
  unfold FullStackHex.windowStart
  omega

/-- A set written now outlives the window that starts now. -/
theorem Readable.deadline {window : Duration} {now : Nat} (h : Readable window now) :
    ∃ d, deadline now (window.secs + 60).toNat = some d ∧ now + window.asMillis < d := by
  obtain ⟨hwindow, hnow⟩ := h
  have hle : window.secs.toNat * 1000 ≤ window.asMillis := by
    unfold Duration.asMillis
    omega
  have hlt := window.asMillis_lt
  have hsecs : (window.secs + 60).toNat = window.secs.toNat + 60 := by
    rw [UInt64.toNat_add]
    exact Nat.mod_eq_of_lt (by
      change window.secs.toNat + 60 < 2 ^ 64
      omega)
  rw [hsecs]
  exact ⟨now + 1000 * (window.secs.toNat + 60), deadline_eq_some.mpr ⟨by omega, by omega, rfl⟩,
    by omega⟩

theorem World.countAt_eq (key : String) (window : Duration) (w : World) (now : Nat)
    (h : Readable window now) :
    w.countAt key window now =
      (.ok ((w.atTime now).entriesAfter key (now - window.asMillis)).length,
        (w.atTime now).rateLimitPurge key (now - window.asMillis : Nat)) := by
  obtain ⟨hwindow, hnow⟩ := h
  have hlimit : (if windowStart now window < 2 ^ 63 then (windowStart now window : Int)
      else windowStart now window - 2 ^ 64) = (now - window.asMillis : Nat) := by
    rw [Readable.windowStart ⟨hwindow, hnow⟩, if_pos (by omega)]
  have hstart : now - window.asMillis ≤ 2 ^ 53 := by omega
  have hentries : ((w.atTime now).rateLimitPurge key (now - window.asMillis : Nat)).rateLimitEntries
      key = (w.atTime now).entriesAfter key (now - window.asMillis) := by
    have hself : ((w.atTime now).rateLimitPurge key (now - window.asMillis : Nat)).atTime now
        = (w.atTime now).rateLimitPurge key (now - window.asMillis : Nat) :=
      World.atTime_eq_self (World.rateLimitPurge_now _ _ _)
    rw [← hself]
    exact World.rateLimitPurge_later hstart le_rfl
  simp only [World.countAt, rateLimitCount, alone_bind, alone_mk, alone_lift, Program.run_command,
    Program.run_ret, World.exec, World.answer_none, Choice.calm_fault, World.atTime_now, hlimit]
  exact congrArg (fun entries => (Except.ok (List.length entries), _)) hentries

/-- A call on the limiter: the clock it reads and, for a check, the UUID it draws. -/
inductive LimitCall where
  | check (now : Nat) (member : String)
  | count (now : Nat)
  deriving DecidableEq, Repr

def LimitCall.time : LimitCall → Nat
  | .check now _ => now
  | .count now => now

def LimitCall.member : LimitCall → Option String
  | .check _ member => some member
  | .count _ => none

/-- The world, and the times of the calls it has allowed. -/
structure Limited where
  world : World
  allowed : List Nat

def Limited.call (key : String) (window : Duration) (maxRequests : UInt64) (s : Limited) :
    LimitCall → Limited
  | .check now member =>
      let (result, w) := s.world.checkAt key window maxRequests now member
      ⟨w, if result.toOption.any RateLimitResult.allowed then s.allowed ++ [now] else s.allowed⟩
  | .count now => ⟨(s.world.countAt key window now).2, s.allowed⟩

/-- A sequence of calls, with nothing allowed before. -/
def Limited.run (key : String) (window : Duration) (maxRequests : UInt64) (w : World)
    (calls : List LimitCall) : Limited :=
  calls.foldl (Limited.call key window maxRequests) ⟨w, []⟩

/-- What is left in the set, against the times of all allowed calls: the same times
count, now and whenever the clock moves on. -/
structure Limited.Faithful (key : String) (length : Nat) (used : List String) (s : Limited) :
    Prop where
  counting : ∀ later, s.world.now ≤ later →
    ((((s.world.atTime later).rateLimitEntries key).map Prod.fst).filter
      fun a => later < a + length) = s.allowed.filter fun a => later < a + length
  past : ∀ a ∈ s.allowed, a ≤ s.world.now
  members : ∀ later, s.world.now ≤ later →
    ∀ e ∈ (s.world.atTime later).rateLimitEntries key, e.2 ∈ used

/-- The times left by a purge at `now` are those that count at `now`. -/
theorem World.map_entriesAfter (w : World) (key : String) {window : Duration} {now : Nat}
    (hread : Readable window now) :
    (w.entriesAfter key (now - window.asMillis)).map Prod.fst =
      ((w.rateLimitEntries key).map Prod.fst).filter fun a => now < a + window.asMillis := by
  obtain ⟨hwindow, _⟩ := hread
  unfold World.entriesAfter
  rw [List.filter_map]
  congr 1
  apply List.filter_congr
  intro e _
  rw [Function.comp_apply, decide_eq_decide]
  omega

/-- What counts later has counted before. -/
theorem filter_later {now later length : Nat} (h : now ≤ later) (times : List Nat) :
    ((times.filter fun a => now < a + length).filter fun a => later < a + length)
      = times.filter fun a => later < a + length := by
  rw [List.filter_filter]
  apply List.filter_congr
  intro a _
  rw [Bool.and_eq_left_iff_imp]
  simp only [decide_eq_true_eq]
  omega

namespace Limited.Faithful

variable {key : String} {window : Duration} {used : List String}
variable {s : Limited} {now : Nat} {member : String}

/-- The entries after the start of the window are the allowed calls that count. -/
theorem length_entriesAfter (h : s.Faithful key window.asMillis used) (hnow : s.world.now ≤ now)
    (hread : Readable window now) :
    ((s.world.atTime now).entriesAfter key (now - window.asMillis)).length
      = counted window.asMillis now s.allowed := by
  have hpast : ∀ a ∈ s.allowed, a ≤ now := fun a ha => (h.past a ha).trans hnow
  rw [counted_eq_length_filter hpast, ← h.counting now hnow,
    ← World.map_entriesAfter _ key hread, List.length_map]

theorem mono {more : List String} (h : s.Faithful key window.asMillis used) (hused : used ⊆ more) :
    s.Faithful key window.asMillis more :=
  ⟨h.counting, h.past, fun later hlater e he => hused (h.members later hlater e he)⟩

/-- A purge of what does not count, as a check that is denied or a count makes it. -/
theorem purge (h : s.Faithful key window.asMillis used) (hnow : s.world.now ≤ now)
    (hread : Readable window now) {w : World} (hw : w.now = now)
    (hentries : ∀ later, now ≤ later → (w.atTime later).rateLimitEntries key
      = (s.world.atTime later).entriesAfter key (now - window.asMillis)) :
    Limited.Faithful key window.asMillis used ⟨w, s.allowed⟩ := by
  subst hw
  constructor
  · intro later hlater
    rw [hentries later hlater, World.map_entriesAfter _ key hread, filter_later hlater]
    exact h.counting later (hnow.trans hlater)
  · intro a ha
    exact (h.past a ha).trans hnow
  · intro later hlater e he
    rw [hentries later hlater] at he
    exact h.members later (hnow.trans hlater) e (List.mem_of_mem_filter he)

/-- A check that is allowed. The new deadline is beyond the window of every call so far. -/
theorem admitted (h : s.Faithful key window.asMillis used) (hnow : s.world.now ≤ now)
    (hread : Readable window now) {d : Nat} (hd : now + window.asMillis < d) :
    Limited.Faithful key window.asMillis (used ++ [member])
      ⟨(s.world.atTime now).setLimit key
          ⟨(s.world.atTime now).entriesAfter key (now - window.asMillis) ++ [(now, member)], some d⟩,
        s.allowed ++ [now]⟩ := by
  have hpast : ∀ a ∈ s.allowed ++ [now], a ≤ now := by
    intro a ha
    rcases List.mem_append.mp ha with ha | ha
    · exact (h.past a ha).trans hnow
    · exact (List.mem_singleton.mp ha).le
  constructor
  · intro later (hlater : now ≤ later)
    rw [World.setLimit_entries]
    split
    · have hkept : ((((s.world.atTime now).entriesAfter key (now - window.asMillis)).map
            Prod.fst).filter fun a => later < a + window.asMillis)
          = s.allowed.filter fun a => later < a + window.asMillis := by
        rw [World.map_entriesAfter _ key hread, h.counting now hnow, filter_later hlater]
      rw [List.map_append, List.filter_append, List.filter_append, hkept]
      rfl
    · rename_i hdead
      have hlate : d ≤ later := by simpa [Timed.alive] using hdead
      symm
      rw [List.map_nil, List.filter_nil, List.filter_eq_nil_iff]
      intro a ha
      have hle := hpast a ha
      simp only [decide_eq_true_eq]
      omega
  · exact hpast
  · intro later hlater e he
    rw [World.setLimit_entries] at he
    split at he
    · rcases List.mem_append.mp he with he | he
      · exact List.mem_append_left _ (h.members now hnow e (List.mem_of_mem_filter he))
      · rw [List.mem_singleton.mp he]
        simp
    · cases he

end Limited.Faithful

theorem Limited.faithful_empty {key : String} {length : Nat} {w : World}
    (h : w.rateLimits.get w.now key = none) : Limited.Faithful key length [] ⟨w, []⟩ := by
  have hentries : ∀ later, w.now ≤ later → (w.atTime later).rateLimitEntries key = [] := by
    intro later hlater
    have hlater : (w.atTime later).rateLimits.get later key = none := Store.get_none_of_le hlater h
    exact congrArg (fun entries => entries.getD []) hlater
  constructor
  · intro later hlater
    rw [hentries later hlater]
    rfl
  · intro a ha
    cases ha
  · intro later hlater e he
    rw [hentries later hlater] at he
    cases he

section Runs

variable {key : String} {window : Duration} {maxRequests : UInt64} {used : List String}
variable {s : Limited} {now : Nat} {member : String}

/-- One check: its answer by the times allowed so far, and what it leaves behind. -/
theorem Limited.Faithful.check (h : s.Faithful key window.asMillis used)
    (hnow : s.world.now ≤ now) (hread : Readable window now) (hmember : member ∉ used)
    (hpos : 1 ≤ maxRequests.toNat) (hmax : maxRequests.toNat ≤ 2 ^ 53) :
    let n := counted window.asMillis now s.allowed
    ∃ reset w, s.world.checkAt key window maxRequests now member =
        (.ok ⟨n < maxRequests.toNat, if n < maxRequests.toNat then maxRequests.toNat - n - 1 else 0,
          reset⟩, w) ∧
      w.now = now ∧
      Limited.Faithful key window.asMillis (used ++ [member])
        ⟨w, record window.asMillis maxRequests.toNat s.allowed now⟩ := by
  obtain ⟨d, hd, hlong⟩ := hread.deadline
  have hlength := h.length_entriesAfter hnow hread
  have hstart : now - window.asMillis ≤ 2 ^ 53 := by
    have hle := hread.2
    omega
  intro n
  rw [World.checkAt_eq, hread.windowStart]
  by_cases hlt : n < maxRequests.toNat
  · have hfresh : ∀ e ∈ (s.world.atTime now).rateLimitEntries key, e.2 ≠ member := by
      intro e he heq
      exact hmember (heq ▸ h.members now hnow e he)
    rw [World.rateLimit_of_lt hstart hread.2 hmax hd hfresh (by rwa [hlength]), hlength]
    refine ⟨0, _, Prod.ext ?_ rfl, rfl, ?_⟩
    · simp only [Except.map, hlt, decide_true, if_true, Int.toNat_natCast]
      rfl
    · have hrecord : record window.asMillis maxRequests.toNat s.allowed now = s.allowed ++ [now] :=
        if_pos (decide_eq_true hlt)
      rw [hrecord]
      exact h.admitted hnow hread hlong
  · obtain ⟨reset, heq⟩ := World.rateLimit_of_le (w := s.world.atTime now)
      hstart hmax hpos
      (by rw [hlength]; omega)
    rw [heq]
    refine ⟨(reset % 2 ^ 64).toNat, _, Prod.ext ?_ rfl, rfl, ?_⟩
    · simp only [Except.map, hlt, decide_false, if_false]
      rfl
    · have hrecord : record window.asMillis maxRequests.toNat s.allowed now = s.allowed :=
        if_neg (by simpa [admits] using hlt)
      have hkept := h.purge hnow hread (w := (s.world.atTime now).setLimit key _) rfl
        fun later hlater => World.setLimit_later (w := s.world.atTime now) hlater
      rw [hrecord]
      exact hkept.mono (List.subset_append_left _ _)

theorem Limited.Faithful.count (h : s.Faithful key window.asMillis used)
    (hnow : s.world.now ≤ now) (hread : Readable window now) :
    ∃ w, s.world.countAt key window now = (.ok (counted window.asMillis now s.allowed), w) ∧
      w.now = now ∧ Limited.Faithful key window.asMillis used ⟨w, s.allowed⟩ := by
  have hstart : now - window.asMillis ≤ 2 ^ 53 := by
    have hle := hread.2
    omega
  rw [World.countAt_eq key window _ now hread, h.length_entriesAfter hnow hread]
  refine ⟨_, rfl, World.rateLimitPurge_now _ _ _, ?_⟩
  exact h.purge hnow hread (World.rateLimitPurge_now _ _ _)
    fun later hlater => World.rateLimitPurge_later hstart hlater

/-- What one call preserves. -/
theorem Limited.Faithful.call {call : LimitCall} (h : s.Faithful key window.asMillis used)
    (hbound : Bounded window.asMillis maxRequests.toNat s.allowed)
    (hnow : s.world.now ≤ call.time) (hread : Readable window call.time)
    (hmember : ∀ member ∈ call.member, member ∉ used)
    (hpos : 1 ≤ maxRequests.toNat) (hmax : maxRequests.toNat ≤ 2 ^ 53) :
    (s.call key window maxRequests call).world.now = call.time ∧
      (s.call key window maxRequests call).Faithful key window.asMillis
        (used ++ call.member.toList) ∧
      Bounded window.asMillis maxRequests.toNat (s.call key window maxRequests call).allowed := by
  cases call with
  | check now member =>
      change s.world.now ≤ now at hnow
      change Readable window now at hread
      obtain ⟨reset, w, hcheck, htime, hnext⟩ :=
        Limited.Faithful.check h hnow hread (hmember member rfl) hpos hmax
      have hallowed : (s.call key window maxRequests (.check now member))
          = ⟨w, record window.asMillis maxRequests.toNat s.allowed now⟩ := by
        simp only [Limited.call, hcheck]
        rfl
      rw [hallowed]
      exact ⟨htime, hnext, hbound.record fun a ha => (h.past a ha).trans hnow⟩
  | count now =>
      change s.world.now ≤ now at hnow
      change Readable window now at hread
      obtain ⟨w, hcount, htime, hnext⟩ := Limited.Faithful.count h hnow hread
      have hkept : s.call key window maxRequests (.count now) = ⟨w, s.allowed⟩ := by
        simp only [Limited.call, hcount]
      rw [hkept]
      exact ⟨htime, hnext.mono (List.subset_append_left _ _), hbound⟩

/-- What a sequence of calls preserves. -/
theorem Limited.Faithful.calls {calls : List LimitCall}
    (h : s.Faithful key window.asMillis used)
    (hbound : Bounded window.asMillis maxRequests.toNat s.allowed)
    (hsorted : (s.world.now :: calls.map LimitCall.time).Pairwise (· ≤ ·))
    (hread : ∀ call ∈ calls, Readable window call.time)
    (hmembers : (used ++ calls.filterMap LimitCall.member).Nodup)
    (hpos : 1 ≤ maxRequests.toNat) (hmax : maxRequests.toNat ≤ 2 ^ 53) :
    let s' := calls.foldl (Limited.call key window maxRequests) s
    (∀ later, (∀ t ∈ s.world.now :: calls.map LimitCall.time, t ≤ later) → s'.world.now ≤ later) ∧
      s'.Faithful key window.asMillis (used ++ calls.filterMap LimitCall.member) ∧
      Bounded window.asMillis maxRequests.toNat s'.allowed := by
  induction calls generalizing s used with
  | nil =>
      refine ⟨fun later hlater => hlater _ (List.mem_singleton_self _), ?_, hbound⟩
      simpa using h
  | cons call rest ih =>
      rw [List.map_cons, List.pairwise_cons] at hsorted
      have hmember : ∀ member ∈ call.member, member ∉ used := by
        intro member hcall hused
        have hrest : member ∈ (call :: rest).filterMap LimitCall.member :=
          List.mem_filterMap.mpr ⟨call, List.mem_cons_self .., hcall⟩
        exact (List.nodup_append.mp hmembers).2.2 member hused member hrest rfl
      obtain ⟨htime, hnext, hbound'⟩ := h.call hbound
        (hsorted.1 _ (List.mem_cons_self ..)) (hread call (List.mem_cons_self ..)) hmember hpos hmax
      have hlist : used ++ (call :: rest).filterMap LimitCall.member
          = (used ++ call.member.toList) ++ rest.filterMap LimitCall.member := by
        cases hcase : call.member <;> simp [hcase]
      rw [hlist] at hmembers ⊢
      have hrest := ih hnext hbound' (by rw [htime]; exact hsorted.2)
        (fun call' hcall' => hread call' (List.mem_cons_of_mem _ hcall')) hmembers
      rw [htime] at hrest
      refine ⟨fun later hlater => hrest.1 later fun t ht => hlater t ?_, hrest.2⟩
      exact List.mem_cons_of_mem _ ht

end Runs

end FullStackHex
