import FullStackHex.Auth.Requests

/-!
Registrations that race for one email. The lookup of the email, the hashing of the password and
the insertion are steps of their own, so the lookup decides nothing; the UNIQUE constraint of the
column does.
-/

namespace FullStackHex

open Concurrent Expiring

/-- Text that a header value can hold. -/
def HeaderSafe (text : String) : Prop := text.toList.all isHeaderChar = true

instance (text : String) : Decidable (HeaderSafe text) := inferInstanceAs (Decidable (_ = _))

/-- Every token can be signed and sent in a header, and every password has a hash that the column
can hold. -/
structure AuthService.Works (auth : AuthService) : Prop where
  encode : ∀ claims, ∃ token, auth.encode claims = .ok token ∧ HeaderSafe token
  hashPassword : ∀ password salt, ∃ hash, auth.hashPassword password salt = .ok hash ∧
    fitsColumn 255 hash = true

/-- A request that the columns of `users` can hold. -/
def RegisterRequest.Fits (body : RegisterRequest) : Prop :=
  fitsColumn 255 body.email = true ∧ body.name.all (fitsColumn 255) = true

/-- The reply to a command of `register` when neither Redis nor Postgres fails; random texts are
hexadecimal. -/
def Unfailing : (c : Cmd) → Reply c → Prop
  | .draw, text => HeaderSafe text
  | .rateLimit _ _ _ _ _, r => ∃ result, r = .ok result
  | .setFresh _ _ _, r => ∃ key, r = .ok key ∧ HeaderSafe key
  | .sessionCreate _ _, r => ∃ id, r = .ok id ∧ HeaderSafe id
  | .selectUserByEmail email, r => fitsColumn 255 email = true → ∃ found, r = .ok found
  | .insertUser email name hash, r => fitsColumn 255 email = true →
      name.all (fitsColumn 255) = true → fitsColumn 255 hash = true →
      r = .error .uniqueViolation ∨ ∃ id, r = .ok id
  | _, _ => True

/-- The reply says that a row for this email was inserted. -/
def stores (email : String) : (c : Cmd) → Reply c → Bool
  | .insertUser email' _ _, .ok _ => email' = email
  | _, _ => false

/-- The event inserted a row for this email. -/
def inserts (email : String) (ev : Event Choice Cmd Reply) : Bool := stores email ev.command ev.reply

/-! ## What a registration returns -/

/-- A registration that took place, that came too late, or that the rate limit refused. -/
def Classified (r : Except ApiError Response) : Prop :=
  (∃ response, r = .ok response ∧ response.status = 201) ∨
    r = .error (.conflict "Email already registered") ∨ ∃ message, r = .error (.rateLimited message)

section Classification

variable {auth : AuthService}

theorem headerSafe_toString (n : Nat) : HeaderSafe (toString n) := by
  unfold HeaderSafe
  rw [List.all_eq_true]
  intro c hc
  have hdigit : c.isDigit = true := by
    apply Nat.isDigit_of_mem_toDigits (b := 10) (n := n) (by omega) (by omega)
    simpa using hc
  simp only [Char.isDigit, Bool.and_eq_true, decide_eq_true_eq] at hdigit
  have hlow : ' ' ≤ c := le_trans (by decide) hdigit.1
  have hhigh : c ≤ '~' := le_trans hdigit.2 (by decide)
  simp [isHeaderChar, hlow, hhigh]

/-- A cookie is set if its name and its value can stand in a header. -/
theorem setCookie_ok {cookies : List String} {name value : String} {maxAge : UInt64}
    {httpOnly secure : Bool} (hname : HeaderSafe name) (hvalue : HeaderSafe value) :
    ∃ cookies', setCookie cookies name value maxAge httpOnly secure = .ok cookies' := by
  unfold setCookie
  dsimp only
  have hage := headerSafe_toString maxAge.toNat
  unfold HeaderSafe at hname hvalue hage
  rw [if_pos]
  · exact ⟨_, rfl⟩
  · simp only [String.toList_append, List.all_append, hname, hvalue, hage, Bool.true_and,
      Bool.and_true]
    cases httpOnly <;> cases secure <;> decide

theorem returnsOn_checkRateLimit (key : String) (windowSecs maxRequests : UInt64) :
    (checkRateLimit key windowSecs maxRequests).run.ReturnsOn Unfailing fun r =>
      r = .ok () ∨ ∃ message, r = .error (.rateLimited message) := by
  refine Program.ReturnsOn.bindOk (p := fun _ => True) (Program.ReturnsOn.adapt ?_)
    fun result _ => ?_
  · rintro now - reply ⟨result, rfl⟩
    exact ⟨_, rfl, trivial⟩
  · split
    · exact fun now _ => Or.inr ⟨_, rfl⟩
    · exact Or.inl rfl

theorem returnsOn_createToken (hworks : auth.Works) (userId : Uuid) (email : String)
    (name : Option String) (provider : String) :
    (createToken auth userId email name provider).run.ReturnsOn Unfailing fun r =>
      ∃ token, r = .ok token ∧ HeaderSafe token := by
  refine Program.ReturnsOn.bindOk (p := fun _ => True) (fun now _ => ⟨_, rfl, trivial⟩)
    fun now _ => ?_
  refine Program.ReturnsOn.bindOk (p := fun _ => True) (fun jti _ => ⟨_, rfl, trivial⟩)
    fun jti _ => ?_
  obtain ⟨token, hencode, hsafe⟩ := hworks.encode (newClaims auth now userId email name provider jti)
  rw [hencode]
  exact ⟨token, rfl, hsafe⟩

theorem returnsOn_hashPassword (hworks : auth.Works) (password : String) :
    (hashPassword auth password).run.ReturnsOn Unfailing fun r =>
      ∃ hash, r = .ok hash ∧ fitsColumn 255 hash = true := by
  refine Program.ReturnsOn.bindOk (p := fun _ => True) (fun salt _ => ⟨_, rfl, trivial⟩)
    fun salt _ => ?_
  obtain ⟨hash, hhash, hfits⟩ := hworks.hashPassword password salt
  rw [hhash]
  exact ⟨hash, rfl, hfits⟩

theorem returnsOn_setCookie {cookies : List String} (name : String) {value : String}
    (maxAge : UInt64) (httpOnly secure : Bool) (hname : HeaderSafe name)
    (hvalue : HeaderSafe value) :
    (liftM (setCookie cookies name value maxAge httpOnly secure) :
      ExceptT ApiError Action (List String)).run.ReturnsOn Unfailing
      fun r => ∃ cookies', r = .ok cookies' ∧ True := by
  obtain ⟨cookies', hset⟩ := setCookie_ok hname hvalue
  rw [hset]
  exact ⟨cookies', rfl, trivial⟩

theorem returnsOn_setAuthCookies (access refresh : String) (jwtExpiry refreshExpiry : UInt64)
    (secure : Bool) (haccess : HeaderSafe access) (hrefresh : HeaderSafe refresh) :
    (setAuthCookies [] access refresh none jwtExpiry refreshExpiry secure).run.ReturnsOn Unfailing
      fun r => ∃ a, r = .ok a ∧ True := by
  refine Program.ReturnsOn.bindOk (p := HeaderSafe) (fun csrf h => ⟨_, rfl, h⟩) fun csrf hcsrf => ?_
  refine Program.ReturnsOn.bindOk
    (returnsOn_setCookie "access_token" jwtExpiry true secure (by decide) haccess) fun _ _ => ?_
  refine Program.ReturnsOn.bindOk
    (returnsOn_setCookie "refresh_token" refreshExpiry true secure (by decide) hrefresh)
    fun _ _ => ?_
  refine Program.ReturnsOn.bindOk
    (returnsOn_setCookie "csrf_token" jwtExpiry false secure (by decide) hcsrf) fun _ _ => ?_
  exact ⟨_, rfl, trivial⟩

theorem returnsOn_setFresh (ns : Namespace) (value : ns.Value) (ttl : UInt64) :
    (orFail (cacheSetFresh ns value ttl)).run.ReturnsOn Unfailing fun r =>
      ∃ key, r = .ok key ∧ HeaderSafe key := by
  refine Program.ReturnsOn.adapt ?_
  rintro reply ⟨key, rfl, hsafe⟩
  exact ⟨key, rfl, hsafe⟩

theorem returnsOn_openSession (user : UserInfo) :
    (openSession auth user).run.ReturnsOn Unfailing fun r =>
      ∃ id, r = .ok id ∧ HeaderSafe id := by
  rintro now - reply ⟨id, rfl, hsafe⟩
  exact ⟨id, rfl, hsafe⟩

theorem returnsOn_signIn (hworks : auth.Works) (status : Nat) (user : UserInfo) :
    (signIn auth status user).run.ReturnsOn Unfailing fun r =>
      ∃ response, r = .ok response ∧ response.status = status := by
  refine Program.ReturnsOn.bindOk (returnsOn_createToken hworks _ _ _ _) fun access haccess => ?_
  refine Program.ReturnsOn.bindOk (returnsOn_setFresh _ _ _) fun refresh hrefresh => ?_
  refine Program.ReturnsOn.bindOk
    (returnsOn_setAuthCookies access refresh _ _ _ haccess hrefresh) fun cookies _ => ?_
  refine Program.ReturnsOn.bindOk (returnsOn_openSession user) fun id hid => ?_
  refine Program.ReturnsOn.bindOk
    (returnsOn_setCookie "session" _ _ _ (by decide) hid) fun cookies _ => ?_
  exact ⟨_, rfl, rfl⟩

/-- What becomes of a valid request that fits the columns. -/
theorem returnsOn_register (hworks : auth.Works) (ip : String) {body : RegisterRequest}
    (hvalid : validateRegistration body = .ok ()) (hfits : body.Fits) :
    (register auth ip body).run.ReturnsOn Unfailing Classified := by
  refine Program.ReturnsOn.bindExcept (p := fun _ => True)
    ((returnsOn_checkRateLimit _ _ _).mono fun r hr => ?_) fun _ _ => ?_
  · rcases hr with rfl | ⟨message, rfl⟩
    · exact Or.inl ⟨(), rfl, trivial⟩
    · exact Or.inr ⟨_, rfl, Or.inr (Or.inr ⟨message, rfl⟩)⟩
  rw [hvalid]
  refine Program.ReturnsOn.bindOk (p := fun _ => True) ⟨(), rfl, trivial⟩ fun _ _ => ?_
  refine Program.ReturnsOn.bindOk (p := fun _ => True) (Program.ReturnsOn.adapt ?_)
    fun existing _ => ?_
  · intro reply hreply
    obtain ⟨found, rfl⟩ := hreply hfits.1
    exact ⟨found, rfl, trivial⟩
  cases existing with
  | some user => exact Or.inr (Or.inl rfl)
  | none =>
      refine Program.ReturnsOn.bindOk (p := fun _ => True) ⟨(), rfl, trivial⟩ fun _ _ => ?_
      refine Program.ReturnsOn.bindOk (returnsOn_hashPassword hworks _) fun hash hhash => ?_
      intro reply hreply
      rcases hreply hfits.1 hfits.2 hhash with rfl | ⟨userId, rfl⟩
      · exact Or.inr (Or.inl rfl)
      · exact (returnsOn_signIn hworks 201 _).mono fun _ => Or.inl

/-- A registration succeeds through the insertion of its row. -/
theorem through_register (ip : String) (body : RegisterRequest) :
    (register auth ip body).run.Through (fun c r => stores body.email c r = true)
      fun r => ∃ response, r = .ok response := by
  have herr : ∀ err : ApiError, ¬ ∃ response : Response, Except.error err = .ok response := by
    rintro err ⟨response, h⟩
    cases h
  refine Program.Through.bindExcept (fun _ => ?_) herr _
  refine Program.Through.bindExcept (fun _ => ?_) herr _
  refine Program.Through.bindExcept (fun existing => ?_) herr _
  refine Program.Through.bindExcept (fun _ => ?_) herr _
  refine Program.Through.bindExcept (fun hash => ?_) herr _
  intro reply
  match reply with
  | .error .uniqueViolation => exact Or.inr (herr _)
  | .error (.failed message) => exact Or.inr (herr _)
  | .ok userId => exact Or.inl (decide_eq_true rfl)

/-- A registration that was refused because the email is taken, or by the rate limit. -/
def TurnedAway (a : Outcome) : Prop :=
  ∃ err, a = .answered (.error err) ∧
    (err = .conflict "Email already registered" ∨ ∃ message, err = .rateLimited message)

theorem returnsOn_body (hworks : auth.Works) (ip : String) {body : RegisterRequest}
    (hvalid : validateRegistration body = .ok ()) (hfits : body.Fits) :
    ((Call.register ip body).body auth).ReturnsOn Unfailing fun a =>
      (∃ response, a = .answered (.ok response) ∧ response.status = 201) ∨ TurnedAway a := by
  refine Program.ReturnsOn.bind (returnsOn_register hworks ip hvalid hfits) fun r hr => ?_
  rcases hr with ⟨response, rfl, hstatus⟩ | rfl | ⟨message, rfl⟩
  · exact Or.inl ⟨response, rfl, hstatus⟩
  · exact Or.inr ⟨_, rfl, Or.inl rfl⟩
  · exact Or.inr ⟨_, rfl, Or.inr ⟨message, rfl⟩⟩

theorem through_body (ip : String) (body : RegisterRequest) :
    ((Call.register ip body).body auth).Through (fun c r => stores body.email c r = true)
      fun a => ∃ response, a = .answered (.ok response) :=
  (through_register ip body).map fun _ ⟨response, h⟩ => ⟨response, Outcome.answered.inj h⟩

end Classification

/-! ## Runs without failures -/

/-- The command deletes an account. -/
def Cmd.deletesUser : Cmd → Bool
  | .deleteUser _ => true
  | _ => false

/-- Redis does not answer a command of `register` with an error. -/
def Obeyed : (c : Cmd) → Reply c → Prop
  | .rateLimit _ _ _ _ _, r => r.isOk = true
  | .setFresh _ _ _, r => r.isOk = true
  | .sessionCreate _ _, r => r.isOk = true
  | _, _ => True

/-- A run in which neither Redis nor Postgres fails and no account is deleted. -/
def Undisturbed : Condition Choice Call Cmd State := fun i _ _ e c s =>
  e.fault = .none ∧ HeaderSafe e.token ∧ Obeyed c (exec i e c s).1 ∧ c.deletesUser = false

instance (c : Cmd) (r : Reply c) : Decidable (Obeyed c r) := by
  induction c using Cmd.casesOn with
  | rateLimit | setFresh | sessionCreate => exact inferInstanceAs (Decidable (_ = true))
  | _ => exact inferInstanceAs (Decidable True)

instance (i : Nat) (k : Call) (s₀ : State) (e : Choice) (c : Cmd) (s : State) :
    Decidable (Undisturbed i k s₀ e c s) :=
  inferInstanceAs (Decidable (_ ∧ _ ∧ _ ∧ _))

theorem isOk_iff {ε α : Type} {r : Except ε α} : r.isOk = true ↔ ∃ a, r = .ok a := by
  cases r <;> simp [Except.isOk, Except.toBool]

section Step

variable {i : Nat} {e : Choice} {c : Cmd} {s : State} {email : String}

theorem unfailing_step (hfault : e.fault = .none) (htoken : HeaderSafe e.token)
    (hobeyed : Obeyed c (exec i e c s).1) : Unfailing c (exec i e c s).1 := by
  cases c with
  | draw => exact htoken
  | rateLimit => exact isOk_iff.mp hobeyed
  | setFresh ns value ttl =>
      obtain ⟨key, hkey⟩ := isOk_iff.mp hobeyed
      refine ⟨key, hkey, ?_⟩
      obtain ⟨-, hset⟩ := World.answer_ok hkey
      cases hresult : (s.state.set ns e.token value ttl).1 with
      | error err =>
          rw [hresult] at hset
          cases hset
      | ok u =>
          rw [hresult] at hset
          exact Except.ok.inj hset ▸ htoken
  | sessionCreate session ttl =>
      obtain ⟨id, hid⟩ := isOk_iff.mp hobeyed
      refine ⟨id, hid, ?_⟩
      obtain ⟨-, hcreate⟩ := World.answer_ok hid
      unfold World.sessionCreate at hcreate
      split at hcreate
      · cases hcreate
      · exact Except.ok.inj hcreate ▸ htoken
  | selectUserByEmail email =>
      intro hfits
      have hnul : email.toList.contains (Char.ofNat 0) = false := by
        simp only [fitsColumn, Bool.and_eq_true, Bool.not_eq_true'] at hfits
        exact hfits.2
      refine ⟨s.state.userByEmail email, ?_⟩
      simp only [exec, Exec.recorded_reply, World.exec, hfault, World.answerDb_none,
        World.selectUserByEmail, hnul]
      rfl
  | insertUser email name hash =>
      intro hemail hname hhash
      simp only [exec, Exec.recorded_reply, World.exec, hfault, World.answerDb_none, World.addUser]
      have hlocal : fitsColumn 50 "local" = true := by decide
      simp only [hemail, hname, hlocal, Option.all_some, hhash, Bool.not_true, Bool.or_self,
        Bool.false_eq_true, if_false]
      split
      · exact Or.inl rfl
      · exact Or.inr ⟨_, rfl⟩
  | _ => trivial

/-- A row is inserted where there was none, and is there then. -/
theorem inserts_step (h : inserts email ⟨i, e, c, (exec i e c s).1⟩ = true) :
    email ∉ s.state.users.map User.email ∧
      email ∈ (exec i e c s).2.state.users.map User.email := by
  cases c with
  | insertUser email' name hash =>
      cases hreply : (exec i e (.insertUser email' name hash) s).1 with
      | error err =>
          rw [hreply] at h
          cases h
      | ok id =>
          rw [hreply] at h
          obtain rfl : email' = email := of_decide_eq_true h
          obtain ⟨hfault, hadd⟩ := World.answerDb_ok hreply
          obtain ⟨-, hfree, hstate⟩ := World.addUser_ok hadd
          simp only [exec, Exec.recorded_state, World.exec, hfault, World.answerDb_none, hstate]
          refine ⟨?_, by simp⟩
          simpa [World.userByEmail] using hfree
  | _ => cases h

end Step

/-- The table keeps its constraints, who has inserted a row for an email is alone, and all
commands were answered. -/
structure Rows (s : State) : Prop where
  distinct : World.Distinct s.state.users
  present : ∀ email i, Did (inserts email) i s → email ∈ s.state.users.map User.email
  lone : ∀ email i j, Did (inserts email) i s → Did (inserts email) j s → i = j
  unfailing : ∀ ev ∈ s.log, Unfailing ev.command ev.reply

theorem Rows.of_empty {s : State} (hlog : s.log = []) (hdistinct : World.Distinct s.state.users) :
    Rows s where
  distinct := hdistinct
  present email i := by
    rintro ⟨ev, hmem, -⟩
    simp [hlog] at hmem
  lone email i j := by
    rintro ⟨ev, hmem, -⟩
    simp [hlog] at hmem
  unfailing ev hmem := by simp [hlog] at hmem

theorem Rows.step {l : Nat} {k : Call} {s₀ : State} {e : Choice} {c : Cmd} {s : State}
    (h : Rows s) (hok : Undisturbed l k s₀ e c s) : Rows (exec l e c s).2 := by
  obtain ⟨hfault, htoken, hobeyed, hdeletes⟩ := hok
  have heffect := World.exec_users e c s.state
  -- whoever inserts a row now is the first to do so
  have hfirst : ∀ email i, Did (inserts email) i s →
      inserts email ⟨l, e, c, (exec l e c s).1⟩ ≠ true := by
    intro email i hdid hinserts
    exact (inserts_step hinserts).1 (h.present email i hdid)
  constructor
  · exact heffect.distinct h.distinct
  · intro email i hdid
    rcases did_step.mp hdid with hold | ⟨-, hinserts⟩
    · refine heffect.email_mem (fun userId hc => ?_) (h.present email i hold)
      subst hc
      cases hdeletes
    · exact (inserts_step hinserts).2
  · intro email i j hi hj
    rcases did_step.mp hi with hi | ⟨rfl, hinserts⟩
    · rcases did_step.mp hj with hj | ⟨-, hinserts⟩
      · exact h.lone email i j hi hj
      · exact absurd hinserts (hfirst email i hi)
    · rcases did_step.mp hj with hj | ⟨hj, -⟩
      · exact absurd hinserts (hfirst email j hj)
      · exact hj
  · intro ev hev
    rcases (Exec.mem_recorded_log _ _ _ _ _).mp hev with hold | rfl
    · exact h.unfailing ev hold
    · exact unfailing_step hfault htoken hobeyed

/-- An empty log, and a table that keeps its constraints. -/
def Untouched (s : State) : Prop := s.log = [] ∧ World.Distinct s.state.users

/-- Task `i` is a registration of this email that was answered with 201. -/
def RegisteredBy (cfg : Config Call Cmd Reply State Outcome) (email : String) (i : Nat) : Prop :=
  ∃ t ip body response, cfg.Returned i t (.answered (.ok response)) ∧
    t.call = .register ip body ∧ body.email = email ∧ response.status = 201

namespace Sample

/-- Tokens and hashes show what they were made of. -/
def working : AuthService where
  config := config .both
  encode claims := .ok ("token." ++ String.ofList (claims.jti.toList.filter isHeaderChar))
  decode _ := .error "InvalidToken"
  hashPassword password salt := .ok (String.ofList
    (((salt ++ "$" ++ password).toList.filter fun c => c ≠ Char.ofNat 0).take 255))
  verifyPassword _ _ := .ok false
  oauthConfigured _ := false
  oauthRedirect _ url csrf := url ++ "?state=" ++ csrf

theorem working_works : working.Works where
  encode claims := by
    refine ⟨_, rfl, ?_⟩
    have hfixed : ("token.".toList.all isHeaderChar) = true := by decide
    simp only [HeaderSafe, String.toList_append, List.all_append, hfixed, String.toList_ofList,
      List.all_filter, Bool.true_and]
    simp
  hashPassword password salt := by
    refine ⟨_, rfl, ?_⟩
    simp only [fitsColumn, String.toList_ofList, Bool.and_eq_true, decide_eq_true_eq,
      Bool.not_eq_true', List.contains_eq_mem, decide_eq_false_iff_not]
    refine ⟨?_, fun hmem => ?_⟩
    · simp
    · have := List.mem_filter.mp (List.mem_of_mem_take hmem)
      simp at this

def newcomer : RegisterRequest := ⟨"carol@example.com", "correct horse", none⟩

/-- Two registrations look the email up before either of them inserts a row. -/
def racing : List (Label Choice Call) :=
  [.start (.register "10.0.0.1" newcomer), .start (.register "10.0.0.2" newcomer),
    .step 0 .calm, .step 0 (drawing "m-1"), .step 1 .calm, .step 1 (drawing "m-2"),
    .step 0 .calm, .step 1 .calm, .step 0 (drawing "salt-1"), .step 1 (drawing "salt-2"),
    .step 1 .calm, .step 0 .calm,
    .step 1 .calm, .step 1 (drawing "jti"), .step 1 (drawing "r-1"), .step 1 (drawing "csrf"),
    .step 1 .calm, .step 1 (drawing "s-1")]

def welcomed : Response where
  status := 201
  setCookies :=
    ["access_token=token.jti; Path=/; Max-Age=900; SameSite=Lax; HttpOnly; Secure",
      "refresh_token=r-1; Path=/; Max-Age=604800; SameSite=Lax; HttpOnly; Secure",
      "csrf_token=csrf; Path=/; Max-Age=900; SameSite=Lax; Secure",
      "session=s-1; Path=/; Max-Age=900; SameSite=Lax; HttpOnly; Secure"]
  body := .tokens ⟨"token.jti", "Bearer", 900, "r-1", "csrf",
    ⟨Choice.calm.id, "carol@example.com", none, "local"⟩⟩

end Sample

open Sample

end FullStackHex
