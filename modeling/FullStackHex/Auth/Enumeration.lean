import FullStackHex.Auth.Requests
import FullStackHex.Library.Noninterference

/-!
What an attacker without an account's password learns about the users table: requests for
password resets and failing logins are answered alike whatever accounts there are.
-/

namespace FullStackHex

open Concurrent Expiring

/-- The times and the random draws of the commands of a request. No command fails, and none comes
so late that the lifetime of a reset token has no end. -/
structure Moment where
  time : Cmd → Nat
  choice : Cmd → Choice
  healthy : ∀ c, (choice c).fault = .none
  early : ∀ c, time c + 1000 * resetTokenTtlSecs.toNat < 2 ^ 63

def Moment.exec (m : Moment) (c : Cmd) (w : World) : Reply c × World :=
  World.exec (m.choice c) c (w.atTime (m.time c))

/-- A request of the attacker. -/
structure Probe where
  call : Call
  moment : Moment

/-- It asks for a password reset, or logs in with a password that is not the account's. -/
def Probe.Guesses (auth : AuthService) (users : List User) (p : Probe) : Prop :=
  match p.call with
  | .forgotPassword _ _ => True
  | .login _ body => ∀ user ∈ users, user.email = body.email → ∀ hash ∈ user.passwordHash,
      auth.verifyPassword body.password hash = .ok false
  | _ => False

def Probe.perform (auth : AuthService) (w : World) (p : Probe) : Outcome × World :=
  (p.call.body auth).run p.moment.exec w

/-- What a sequence of requests is answered, one after another. -/
def answers (auth : AuthService) (w : World) (probes : List Probe) : List Outcome :=
  Noninterference.observed (Probe.perform auth) (fun _ => true) w probes

/-- The counters of two systems. -/
structure SameCounters (s t : World) : Prop where
  backoff : s.backoff = t.backoff
  rateLimits : s.rateLimits = t.rateLimits

section Alike

variable {auth : AuthService} {m : Moment} {s t : World}

theorem SameCounters.rateLimit {key member : String} {windowStart now max ttl : Nat}
    (h : SameCounters s t) (hnow : s.now = t.now) :
    (s.rateLimit key windowStart now max ttl member).1
        = (t.rateLimit key windowStart now max ttl member).1 ∧
      SameCounters (s.rateLimit key windowStart now max ttl member).2
        (t.rateLimit key windowStart now max ttl member).2 := by
  obtain ⟨hbackoff, hlimits⟩ := h
  unfold World.rateLimit World.rateLimitEntries
  rw [hlimits, hnow]
  dsimp only
  split
  · split
    · exact ⟨rfl, hbackoff, rfl⟩
    · exact ⟨rfl, hbackoff, rfl⟩
  · split
    · exact ⟨rfl, hbackoff, rfl⟩
    · exact ⟨rfl, hbackoff, rfl⟩

theorem SameCounters.backoffRead {key : String} (h : SameCounters s t) (hnow : s.now = t.now) :
    (s.backoffRead key).1 = (t.backoffRead key).1 ∧
      SameCounters (s.backoffRead key).2 (t.backoffRead key).2 := by
  obtain ⟨hbackoff, hlimits⟩ := h
  unfold World.backoffRead
  rw [hbackoff, hnow]
  split
  · exact ⟨rfl, hbackoff, hlimits⟩
  · exact ⟨rfl, rfl, hlimits⟩
  · exact ⟨rfl, hbackoff, hlimits⟩

theorem SameCounters.backoffIncrement {key : String} {tracking first second third : Nat}
    (h : SameCounters s t) (hnow : s.now = t.now) :
    (s.backoffIncrement key tracking first second third).1
        = (t.backoffIncrement key tracking first second third).1 ∧
      SameCounters (s.backoffIncrement key tracking first second third).2
        (t.backoffIncrement key tracking first second third).2 := by
  obtain ⟨hbackoff, hlimits⟩ := h
  unfold World.backoffIncrement
  rw [hbackoff, hnow]
  dsimp only
  split
  · exact ⟨rfl, rfl, hlimits⟩
  · exact ⟨rfl, rfl, hlimits⟩

/-- The commands of the limits read and write the counters only. -/
theorem SameCounters.exec {c : Cmd} (hcounting : c.Counting) (h : SameCounters s t) :
    (m.exec c s).1 = (m.exec c t).1 ∧ SameCounters (m.exec c s).2 (m.exec c t).2 := by
  have hmoved : SameCounters (s.atTime (m.time c)) (t.atTime (m.time c)) := ⟨h.1, h.2⟩
  unfold Moment.exec
  cases c with
  | now => exact ⟨rfl, hmoved⟩
  | rateLimit key windowStart now max ttl =>
      simp only [World.exec, m.healthy, World.answer_none]
      exact hmoved.rateLimit rfl
  | backoffRead key =>
      simp only [World.exec, m.healthy, World.answer_none]
      obtain ⟨hreply, hafter⟩ := hmoved.backoffRead rfl
      exact ⟨congrArg Except.ok hreply, hafter⟩
  | backoffIncrement key t₁ t₂ t₃ t₄ =>
      simp only [World.exec, m.healthy, World.answer_none]
      exact hmoved.backoffIncrement rfl
  | _ => cases hcounting

variable {users users' : List User} {ip email : String} {body : LoginRequest}

/-- Two systems that differ in their users, and in what nobody without a password can ask for. -/
structure Twins (users users' : List User) (s t : World) : Prop where
  counters : SameCounters s t
  left : s.users = users
  right : t.users = users'

theorem Twins.run {α : Type} {p : Action α} (hp : p.All Cmd.Counting)
    (h : Twins users users' s t) :
    (p.run m.exec s).1 = (p.run m.exec t).1 ∧
      Twins users users' (p.run m.exec s).2 (p.run m.exec t).2 := by
  refine Program.run_alike (p := Cmd.Counting) ?_ hp h
  intro c s t hcounting h
  have hplain : ¬ World.WritesTable c := by
    intro hwrites
    cases c with
    | insertUser | upsertUser | updatePassword | deleteNotes | deleteUser => exact hcounting
    | _ => exact hwrites
  obtain ⟨hreply, hcounters⟩ := h.counters.exec (m := m) hcounting
  refine ⟨hreply, hcounters, ?_, ?_⟩
  · exact (World.exec_tables _ _ _ hplain).users.trans h.left
  · exact (World.exec_tables _ _ _ hplain).users.trans h.right

/-- The same for a program that may fail, and what comes after it. -/
theorem Twins.bind {δ α β : Type} {p : ExceptT δ Action α} {f : α → ExceptT δ Action β}
    (hp : p.run.All Cmd.Counting) (h : Twins users users' s t)
    (hf : ∀ a {s t}, Twins users users' s t →
      (Program.runExcept m.exec (f a) s).1 = (Program.runExcept m.exec (f a) t).1 ∧
        Twins users users' (Program.runExcept m.exec (f a) s).2
          (Program.runExcept m.exec (f a) t).2) :
    (Program.runExcept m.exec (p >>= f) s).1 = (Program.runExcept m.exec (p >>= f) t).1 ∧
      Twins users users' (Program.runExcept m.exec (p >>= f) s).2
        (Program.runExcept m.exec (p >>= f) t).2 := by
  obtain ⟨hresult, htwins⟩ : (Program.runExcept m.exec p s).1 = (Program.runExcept m.exec p t).1 ∧
      Twins users users' (Program.runExcept m.exec p s).2 (Program.runExcept m.exec p t).2 :=
    h.run hp
  rw [Program.runExcept_bind, Program.runExcept_bind]
  rcases hs : Program.runExcept m.exec p s with ⟨result, s'⟩
  rcases ht : Program.runExcept m.exec p t with ⟨result', t'⟩
  rw [hs, ht] at hresult htwins
  obtain rfl : result = result' := hresult
  cases result with
  | error err => exact ⟨rfl, htwins⟩
  | ok a => exact hf a htwins

/-- What the query for an account answers: an email that is no text for Postgres is refused, with
or without an account. -/
theorem run_selectUserByEmail (w : World) :
    Program.runExcept m.exec (queryOr serverError (ask (.selectUserByEmail email))) w =
      (if email.toList.contains (Char.ofNat 0) then .error (.internalError serverError)
        else .ok (w.users.find? fun user => user.email = email),
        w.atTime (m.time (.selectUserByEmail email))) := by
  rw [queryOr, Program.runExcept_adapt, Program.runExcept_mk]
  simp only [Program.run_command, Program.run_ret, Moment.exec, World.exec, m.healthy,
    World.answerDb_none, World.selectUserByEmail]
  split
  · rfl
  · rfl

/-- `login` behind its limits. -/
def loginChecked (auth : AuthService) (ip : String) (body : LoginRequest) : Handler := do
  match ← queryOr serverError (ask (.selectUserByEmail body.email)) with
  | none => failLogin ip
  | some user =>
      match user.passwordHash with
      | none => failLogin ip
      | some hash =>
          match auth.verifyPassword body.password hash with
          | .error err => throw (.internalError ("Invalid password hash: " ++ err))
          | .ok false => failLogin ip
          | .ok true => signIn auth 200 ⟨user.id, user.email, user.name, user.provider⟩

theorem login_eq : login auth ip body
    = checkLoginLimits auth ip body.email >>= fun _ => loginChecked auth ip body := rfl

/-- No account, an account without a password and a wrong password end in the same way. -/
theorem run_loginChecked {w : World}
    (hwrong : ∀ user ∈ w.users, user.email = body.email → ∀ hash ∈ user.passwordHash,
      auth.verifyPassword body.password hash = .ok false) :
    Program.runExcept m.exec (loginChecked auth ip body) w =
      Program.runExcept m.exec
        (if body.email.toList.contains (Char.ofNat 0) then throw (.internalError serverError)
          else failLogin ip : Handler)
        (w.atTime (m.time (.selectUserByEmail body.email))) := by
  rw [loginChecked, Program.runExcept_bind, run_selectUserByEmail]
  by_cases hnul : body.email.toList.contains (Char.ofNat 0) = true
  · rw [if_pos hnul, if_pos hnul]
    rfl
  · rw [if_neg hnul, if_neg hnul]
    cases hfind : w.users.find? fun user => user.email = body.email with
    | none => rfl
    | some user =>
        have hmem := List.mem_of_find?_eq_some hfind
        have hemail : user.email = body.email := by simpa using List.find?_some hfind
        dsimp only
        split
        · rfl
        · rename_i hash hhash
          rw [hwrong user hmem hemail hash hhash]

theorem login_twins (m : Moment) (ip : String) (h : Twins users users' s t)
    (hs : ∀ user ∈ users, user.email = body.email → ∀ hash ∈ user.passwordHash,
      auth.verifyPassword body.password hash = .ok false)
    (ht : ∀ user ∈ users', user.email = body.email → ∀ hash ∈ user.passwordHash,
      auth.verifyPassword body.password hash = .ok false) :
    (Program.runExcept m.exec (login auth ip body) s).1
        = (Program.runExcept m.exec (login auth ip body) t).1 ∧
      Twins users users' (Program.runExcept m.exec (login auth ip body) s).2
        (Program.runExcept m.exec (login auth ip body) t).2 := by
  rw [login_eq]
  refine h.bind (counting_checkLoginLimits auth ip body.email) fun _ s t h => ?_
  rw [run_loginChecked (by rw [h.left]; exact hs), run_loginChecked (by rw [h.right]; exact ht)]
  have hlater : Twins users users' (s.atTime (m.time (.selectUserByEmail body.email)))
      (t.atTime (m.time (.selectUserByEmail body.email))) :=
    ⟨⟨h.counters.1, h.counters.2⟩, h.left, h.right⟩
  split
  · exact ⟨rfl, hlater⟩
  · exact hlater.run (counting_failLogin ip)

/-- The counters and the users are what they were. -/
structure Unnoticed (w w' : World) : Prop where
  counters : SameCounters w w'
  users : w'.users = w.users

/-- A value that is stored under a fresh key changes no counter. -/
theorem run_cacheSetFresh (ns : Namespace) (value : ns.Value) {ttl : UInt64} (w : World)
    (hpos : 0 < ttl.toNat)
    (hearly : m.time (.setFresh ns value ttl.toNat) + 1000 * ttl.toNat < 2 ^ 63) :
    ∃ token w', Program.runExcept m.exec (orFail (cacheSetFresh ns value ttl)) w = (.ok token, w') ∧
      Unnoticed w w' := by
  have hlife := deadline_eq_some.mpr ⟨hpos, hearly, rfl⟩
  rw [orFail, cacheSetFresh, Program.runExcept_adapt, Program.runExcept_mk, Program.run_command,
    Program.run_ret]
  unfold Moment.exec
  simp only [World.exec, m.healthy, World.answer_none, World.set, World.atTime, hlife]
  exact ⟨_, _, rfl, ⟨rfl, rfl⟩, rfl⟩

/-- A reset token is stored, if there is an account; nothing else happens, and nobody is told. -/
theorem run_storeResetToken (user : Option User) (w : World) :
    ∃ w', Program.runExcept m.exec (storeResetToken user) w = (.ok (), w') ∧ Unnoticed w w' := by
  cases user with
  | none => exact ⟨w, rfl, ⟨rfl, rfl⟩, rfl⟩
  | some user =>
      have hpos : 0 < resetTokenTtlSecs.toNat := by decide
      have hearly := m.early (.setFresh .reset user.id resetTokenTtlSecs.toNat)
      obtain ⟨token, w', hrun, hunnoticed⟩ :=
        run_cacheSetFresh .reset user.id w hpos hearly
      refine ⟨w', ?_, hunnoticed⟩
      rw [storeResetToken, Program.runExcept_bind, hrun]
      rfl

/-- `forgot_password` with a valid email, behind its limit. -/
def forgotLookup (email : String) : Handler := do
  let user ← queryOr serverError (ask (.selectUserByEmail email))
  storeResetToken user
  return ⟨202, [], .message "If the email exists, a reset link has been generated"⟩

theorem forgotPassword_eq : forgotPassword auth ip email
    = checkRateLimit ("forgot:" ++ ip) auth.config.rateLimits.forgotWindowSecs
        auth.config.rateLimits.forgotMax >>= fun _ =>
          if isEmail email then forgotLookup email
          else throw (.validationError "Invalid email") := by
  unfold forgotPassword
  congr 1
  funext _
  cases isEmail email with
  | true => rfl
  | false => rfl

/-- The answer depends on the text of the email only. -/
theorem run_forgotLookup (m : Moment) (email : String) (w : World) :
    ∃ w', Program.runExcept m.exec (forgotLookup email) w =
      (if email.toList.contains (Char.ofNat 0) then .error (.internalError serverError)
        else .ok ⟨202, [], .message "If the email exists, a reset link has been generated"⟩, w') ∧
      Unnoticed w w' := by
  rw [forgotLookup, Program.runExcept_bind, run_selectUserByEmail]
  by_cases hnul : email.toList.contains (Char.ofNat 0) = true
  · rw [if_pos hnul, if_pos hnul]
    exact ⟨_, rfl, ⟨rfl, rfl⟩, rfl⟩
  · rw [if_neg hnul, if_neg hnul]
    obtain ⟨w', hrun, hunnoticed⟩ :=
      run_storeResetToken (m := m) (w.users.find? fun user => user.email = email)
        (w.atTime (m.time (.selectUserByEmail email)))
    refine ⟨w', ?_, ⟨hunnoticed.counters.1, hunnoticed.counters.2⟩, hunnoticed.users⟩
    dsimp only
    rw [Program.runExcept_bind, hrun]
    rfl

theorem forgotPassword_twins (m : Moment) (ip email : String) (h : Twins users users' s t) :
    (Program.runExcept m.exec (forgotPassword auth ip email) s).1
        = (Program.runExcept m.exec (forgotPassword auth ip email) t).1 ∧
      Twins users users' (Program.runExcept m.exec (forgotPassword auth ip email) s).2
        (Program.runExcept m.exec (forgotPassword auth ip email) t).2 := by
  rw [forgotPassword_eq]
  refine h.bind (counting_checkRateLimit _ _ _) fun _ s t h => ?_
  cases isEmail email with
  | false => exact ⟨rfl, h⟩
  | true =>
      obtain ⟨s', hs, hleft⟩ := run_forgotLookup m email s
      obtain ⟨t', ht, hright⟩ := run_forgotLookup m email t
      rw [if_pos rfl, hs, ht]
      refine ⟨rfl, ⟨?_, ?_⟩, hleft.users.trans h.left, hright.users.trans h.right⟩
      · exact hleft.counters.backoff.symm.trans
          (h.counters.backoff.trans hright.counters.backoff)
      · exact hleft.counters.rateLimits.symm.trans
          (h.counters.rateLimits.trans hright.counters.rateLimits)

end Alike

theorem Probe.perform_login (auth : AuthService) (m : Moment) (w : World) (ip : String)
    (body : LoginRequest) : Probe.perform auth w ⟨.login ip body, m⟩ =
      (.answered (Program.runExcept m.exec (login auth ip body) w).1,
        (Program.runExcept m.exec (login auth ip body) w).2) :=
  Program.run_bind m.exec (login auth ip body).run _ w

theorem Probe.perform_forgotPassword (auth : AuthService) (m : Moment) (w : World)
    (ip email : String) : Probe.perform auth w ⟨.forgotPassword ip email, m⟩ =
      (.answered (Program.runExcept m.exec (forgotPassword auth ip email) w).1,
        (Program.runExcept m.exec (forgotPassword auth ip email) w).2) :=
  Program.run_bind m.exec (forgotPassword auth ip email).run _ w

/-- To the attacker two systems with the same counters look the same, whatever accounts they
have. -/
theorem probes_unwinding (auth : AuthService) (users users' : List User) :
    Noninterference.Unwinding (Probe.perform auth) (fun _ => true) (Twins users users')
      (fun w p => p.Guesses auth w.users) where
  own := by
    intro s t p _ h hs ht
    obtain ⟨call, m⟩ := p
    rw [h.left] at hs
    rw [h.right] at ht
    cases call with
    | login ip body =>
        obtain ⟨hanswer, htwins⟩ := login_twins m ip h hs ht
        rw [Probe.perform_login, Probe.perform_login]
        exact ⟨congrArg Outcome.answered hanswer, htwins⟩
    | forgotPassword ip email =>
        rw [Probe.perform_forgotPassword, Probe.perform_forgotPassword]
        obtain ⟨hanswer, htwins⟩ := forgotPassword_twins m ip email h
        exact ⟨congrArg Outcome.answered hanswer, htwins⟩
    | _ => cases hs
  other := nofun

/-- The users stay what they are, so a guess stays one. -/
theorem each_guesses {auth : AuthService} {users users' : List User} {probes : List Probe}
    (h : ∀ p ∈ probes, p.Guesses auth users ∧ p.Guesses auth users') {s t : World}
    (htwins : Twins users users' s t) :
    Trace.Each (Noninterference.after (Probe.perform auth)) (fun w p => p.Guesses auth w.users) s
        probes ∧
      Trace.Each (Noninterference.after (Probe.perform auth)) (fun w p => p.Guesses auth w.users)
        t probes := by
  induction probes generalizing s t with
  | nil => exact ⟨trivial, trivial⟩
  | cons p rest ih =>
      obtain ⟨hleft, hright⟩ := h p List.mem_cons_self
      have hs : p.Guesses auth s.users := by rwa [htwins.left]
      have ht : p.Guesses auth t.users := by rwa [htwins.right]
      obtain ⟨-, hnext⟩ := (probes_unwinding auth users users').own rfl htwins hs ht
      obtain ⟨hrest, hrest'⟩ := ih (fun q hq => h q (List.mem_cons_of_mem _ hq)) hnext
      rw [Noninterference.each_after_cons, Noninterference.each_after_cons]
      exact ⟨⟨hs, hrest⟩, ht, hrest'⟩

/-- Two systems that differ in their users only answer every sequence of requests for password
resets and of logins with a wrong password in the same way, whoever sends them and whenever. -/
theorem accounts_unobservable (auth : AuthService) (w : World) (users users' : List User)
    (probes : List Probe) (h : ∀ p ∈ probes, p.Guesses auth users ∧ p.Guesses auth users') :
    answers auth { w with users := users } probes
      = answers auth { w with users := users' } probes := by
  have htwins : Twins users users' { w with users := users } { w with users := users' } :=
    ⟨⟨rfl, rfl⟩, rfl, rfl⟩
  obtain ⟨hs, ht⟩ := each_guesses h htwins
  have hall : probes.filter (fun _ => true) = probes := List.filter_true probes
  rw [← hall] at ht
  have hobserved := (probes_unwinding auth users users').observed_filter htwins hs ht
  rwa [hall] at hobserved

namespace Sample

/-- Everything happens at one moment, and nothing fails. -/
def noonMoment : Moment := ⟨fun _ => 43200000, fun _ => .calm, fun _ => rfl, fun _ => by decide⟩

/-- A reset for Alice, then a login with a password that is not hers. -/
def guesses : List Probe :=
  [⟨.forgotPassword "10.0.0.1" "alice@example.com", noonMoment⟩,
    ⟨.login "10.0.0.1" ⟨"alice@example.com", "hunter2"⟩, noonMoment⟩]

def aliceLocal : User := ⟨alice, "alice@example.com", none, "local", some "salt$secret"⟩

end Sample

open Sample

theorem accounts_unobservable_alice :
    answers (auth .both) { World.initial 0 [] with users := [aliceLocal] } guesses
      = answers (auth .both) { World.initial 0 [] with users := [] } guesses :=
  accounts_unobservable (auth .both) (.initial 0 []) [aliceLocal] [] guesses <| by
    intro p hp
    rcases List.mem_pair.mp hp with rfl | rfl
    · exact ⟨trivial, trivial⟩
    · refine ⟨fun user huser _ hash hhash => ?_, fun _ h => nomatch h⟩
      obtain rfl := List.mem_singleton.mp huser
      obtain rfl := Option.some.inj hhash
      decide

end FullStackHex
