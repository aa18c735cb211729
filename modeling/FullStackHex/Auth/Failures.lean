import FullStackHex.Attempts
import FullStackHex.Auth.Blacklist
import FullStackHex.Auth.RegisterRuns

/-!
What a request leaves behind that fails half way. No handler works in a transaction or undoes
what it did: `register` inserts its row before it creates the tokens, and `delete_account` puts
the token on the blacklist before it deletes anything.
-/

namespace FullStackHex

open Concurrent Expiring

/-- The command that comes next is not refused; its reply may still be lost. -/
def Script.Effective (s : Script) (p : Progress) : Prop :=
  ∀ message, (s.choice p.issued).fault ≠ .refused message

/-! ## Registrations -/

/-- What `register` does before it inserts the row; the result is the hash of the password. -/
def beforeInsert (auth : AuthService) (ip : String) (body : RegisterRequest) :
    ExceptT ApiError Action String := do
  checkRateLimit ("register:" ++ ip) auth.config.rateLimits.registerWindowSecs
    auth.config.rateLimits.registerMax
  validateRegistration body
  let existing ← queryOr serverError (ask (.selectUserByEmail body.email))
  failIf existing.isSome (.conflict "Email already registered")
  hashPassword auth body.password

def insertRow (body : RegisterRequest) (passwordHash : String) : ExceptT ApiError Action Uuid := do
  match ← ExceptT.lift (ask (.insertUser body.email body.name passwordHash)) with
  | .error .uniqueViolation => throw (.conflict "Email already registered")
  | .error (.failed _) => throw (.internalError serverError)
  | .ok userId => return userId

section Register

variable {auth : AuthService} {s : Script} {ip : String} {body : RegisterRequest}

theorem register_eq : register auth ip body = (beforeInsert auth ip body >>= fun hash =>
    insertRow body hash >>= fun userId =>
      signIn auth 201 ⟨userId, body.email, body.name, "local"⟩) := by
  unfold register beforeInsert insertRow
  simp only [bind_assoc]
  congr 1
  funext _
  congr 1
  funext _
  congr 1
  funext existing
  congr 1
  funext _
  congr 1
  funext hash
  congr 1
  funext r
  cases r with
  | error err =>
      cases err with
      | uniqueViolation => rfl
      | failed message => rfl
  | ok userId => rfl

theorem tableless_beforeInsert (auth : AuthService) (ip : String) (body : RegisterRequest) :
    (beforeInsert auth ip body).run.All fun c => ¬ World.WritesTable c := by
  refine Program.All.bindExcept ((counting_checkRateLimit _ _ _).mono fun _ =>
    Cmd.Counting.tableless) fun _ => ?_
  refine Program.All.bindExcept trivial fun _ => ?_
  refine Program.All.bindExcept (Program.All.adapt ⟨id, fun _ => trivial⟩) fun existing => ?_
  refine Program.All.bindExcept trivial fun _ => ?_
  exact (rowless_hashPassword auth body.password).mono fun _ => And.right

/-- The row that the next command inserts. -/
def Script.newRow (s : Script) (p : Progress) (body : RegisterRequest) (hash : String) : User :=
  ⟨(s.choice p.issued).id, body.email, body.name, "local", some hash⟩

/-- The insertion is carried out. -/
def Script.Inserts (s : Script) (p : Progress) (row : User) : Prop :=
  s.Effective p ∧ ((s.found p).addUser row).1 = .ok row.id

/-- A registration gets as far as to insert this row. -/
def Inserts (auth : AuthService) (s : Script) (ip : String) (body : RegisterRequest) (w : World)
    (row : User) : Prop :=
  ∃ hash p, attempt s (beforeInsert auth ip body) (.start w) = (.ok hash, p) ∧
    row = s.newRow p body hash ∧ s.Inserts p row

/-- The step of the insertion: what it answers and what it leaves. -/
theorem attempt_insertRow (s : Script) (p : Progress) (body : RegisterRequest) (hash : String) :
    (attempt s (insertRow body hash) p).2.world
        = (World.exec (s.choice p.issued) (.insertUser body.email body.name hash) (s.found p)).2 ∧
      ∀ userId, (attempt s (insertRow body hash) p).1 = .ok userId ↔
        (World.exec (s.choice p.issued) (.insertUser body.email body.name hash) (s.found p)).1
          = .ok userId := by
  unfold insertRow
  rw [attempt_bind]
  have hstep : attempt s (ExceptT.lift (ask (.insertUser body.email body.name hash)) :
      ExceptT ApiError Action (Except DbError Uuid)) p
    = (.ok (s.exec (.insertUser body.email body.name hash) p).1,
        (s.exec (.insertUser body.email body.name hash) p).2) := rfl
  rw [hstep]
  unfold Script.exec
  dsimp only
  match (World.exec (s.choice p.issued) (.insertUser body.email body.name hash) (s.found p)).1 with
  | .error .uniqueViolation => exact ⟨rfl, fun _ => by simp⟩
  | .error (.failed message) => exact ⟨rfl, fun _ => by simp⟩
  | .ok userId => exact ⟨rfl, fun _ => by simp⟩

/-- A row that is inserted, and one that is not. -/
theorem insertRow_users (p : Progress) (hash : String) :
    (s.Inserts p (s.newRow p body hash) → (attempt s (insertRow body hash) p).2.world.users
      = p.world.users ++ [s.newRow p body hash]) ∧
    (¬ s.Inserts p (s.newRow p body hash) →
      (attempt s (insertRow body hash) p).2.world.users = p.world.users ∧
      ∀ userId, (attempt s (insertRow body hash) p).1 ≠ .ok userId) := by
  obtain ⟨hworld, hreply⟩ := attempt_insertRow s p body hash
  rw [hworld]
  simp only [ne_eq, hreply, World.exec]
  unfold Script.Inserts Script.Effective Script.newRow
  generalize hrow : (⟨(s.choice p.issued).id, body.email, body.name, "local", some hash⟩ : User)
    = row
  have hid : row.id = (s.choice p.issued).id := by rw [← hrow]
  cases hadd : ((s.found p).addUser row).1 with
  | error err =>
      refine ⟨fun h => (by cases h.2), fun _ => ?_⟩
      have hsame := World.addUser_error hadd
      refine ⟨?_, fun userId h => ?_⟩
      · rcases World.answerDb_effect (s.found p) (s.choice p.issued).fault
          ((s.found p).addUser row) with heq | heq
        · rw [heq]
          rfl
        · rw [heq, hsame]
          rfl
      · rw [(World.answerDb_ok h).2] at hadd
        cases hadd
  | ok userId =>
      obtain ⟨rfl, -, hafter⟩ := World.addUser_ok hadd
      cases hfault : (s.choice p.issued).fault with
      | none =>
          refine ⟨fun _ => ?_, fun h => absurd ⟨fun _ h => (by cases h), rfl⟩ h⟩
          rw [World.answerDb_none, hafter]
          rfl
      | refused message =>
          refine ⟨fun h => absurd rfl (h.1 message), fun _ => ⟨rfl, fun _ h => (by cases h)⟩⟩
      | lost message =>
          refine ⟨fun _ => ?_, fun h => absurd ⟨fun _ h => (by cases h), rfl⟩ h⟩
          change ((s.found p).addUser row).2.users = _
          rw [hafter]
          rfl

theorem users_beforeInsert {w : World} {r : Except ApiError String} {p : Progress}
    (h : attempt s (beforeInsert auth ip body) (.start w) = (r, p)) : p.world.users = w.users := by
  have htables := attempt_tables (s := s) (p := .start w)
    (tableless_beforeInsert auth ip body)
  rw [h] at htables
  exact htables.users

/-- The tokens and the session that follow write no row. -/
theorem users_afterInsert (p : Progress) (hash : String) :
    (attempt s (insertRow body hash >>= fun userId =>
        signIn auth 201 ⟨userId, body.email, body.name, "local"⟩) p).2.world.users
      = (attempt s (insertRow body hash) p).2.world.users := by
  match hinsert : attempt s (insertRow body hash) p with
  | (.error err, p') => rw [attempt_bind_error hinsert]
  | (.ok userId, p') =>
      rw [attempt_bind_ok hinsert]
      exact (attempt_tables (tableless_signIn auth 201 _)).users

/-- A registration succeeds only for an email that no row has. -/
theorem register_ok_absent {w : World} {response : Response} {p : Progress}
    (h : attempt s (register auth ip body) (.start w) = (.ok response, p)) :
    ∀ row ∈ w.users, row.email ≠ body.email := by
  rw [register_eq] at h
  obtain ⟨hash, p₁, hbefore, hrest⟩ := attempt_bind_eq_ok h
  obtain ⟨userId, p₂, hinsert, -⟩ := attempt_bind_eq_ok hrest
  have hreply := ((attempt_insertRow s p₁ body hash).2 userId).mp (congrArg Prod.fst hinsert)
  obtain ⟨-, hfree, -⟩ := World.addUser_ok (World.answerDb_ok hreply).2
  intro row hrow
  rw [← users_beforeInsert hbefore] at hrow
  simpa using List.find?_eq_none.mp hfree row hrow

/-- A registration that fails leaves the table as it was, unless it has inserted its row: then
the row stays, and no further registration of the email succeeds. -/
theorem register_failed_iff {w : World} {err : ApiError} {p : Progress}
    (h : attempt s (register auth ip body) (.start w) = (.error err, p)) :
    (p.world.users = w.users ↔ ¬ ∃ row, Inserts auth s ip body w row) ∧
    ∀ row, Inserts auth s ip body w row → p.world.users = w.users ++ [row] ∧
      row.email = body.email ∧ ∀ (s' : Script) (ip' : String) (again : RegisterRequest),
        again.email = body.email → ∀ response,
          (attempt s' (register auth ip' again) (.start p.world)).1 ≠ .ok response := by
  have hworld : p = (attempt s (register auth ip body) (.start w)).2 := by rw [h]
  have hstays : ∀ row, Inserts auth s ip body w row → p.world.users = w.users ++ [row] := by
    rintro row ⟨hash, p₁, hbefore, rfl, hinserts⟩
    rw [hworld, register_eq, attempt_bind_ok hbefore, users_afterInsert,
      (insertRow_users p₁ hash).1 hinserts, users_beforeInsert hbefore]
  have hunchanged : (¬ ∃ row, Inserts auth s ip body w row) → p.world.users = w.users := by
    intro hnone
    rw [hworld, register_eq]
    match hbefore : attempt s (beforeInsert auth ip body) (.start w) with
    | (.error err, p₁) =>
        rw [attempt_bind_error hbefore]
        exact users_beforeInsert hbefore
    | (.ok hash, p₁) =>
        have hnot : ¬ s.Inserts p₁ (s.newRow p₁ body hash) := fun hinserts =>
          hnone ⟨_, hash, p₁, hbefore, rfl, hinserts⟩
        rw [attempt_bind_ok hbefore, users_afterInsert, ((insertRow_users p₁ hash).2 hnot).1,
          users_beforeInsert hbefore]
  refine ⟨⟨fun hsame hrow => ?_, hunchanged⟩, fun row hrow => ?_⟩
  · obtain ⟨row, hrow⟩ := hrow
    rw [hstays row hrow] at hsame
    simp at hsame
  · have hemail : row.email = body.email := by
      obtain ⟨hash, p₁, -, rfl, -⟩ := hrow
      rfl
    refine ⟨hstays row hrow, hemail, fun s' ip' again hagain response hok => ?_⟩
    have hmem : row ∈ p.world.users := by
      rw [hstays row hrow]
      exact List.mem_append_right _ (List.mem_singleton_self _)
    exact register_ok_absent (Prod.ext hok rfl) row hmem (hemail.trans hagain.symm)

end Register

namespace Sample

/-- One command fails, and every draw is the number of its command. -/
def failingAt (n : Nat) (fault : Fault) : Script where
  delay _ := 0
  choice i := { drawing (toString i) with fault := if i = n then fault else .none }

/-- A registration whose refresh token Redis does not store. -/
def halfRegistered : Except ApiError Response × Progress :=
  attempt (failingAt 7 (.refused "READONLY")) (register working "10.0.0.1" newcomer)
    (.start (.initial 0 []))

/-- The row that it has inserted. -/
def newcomerRow : User :=
  ⟨Choice.calm.id, "carol@example.com", none, "local", some "3$correct horse"⟩

end Sample

open Sample

/-- The row of a registration that was answered with an error stays. -/
theorem failed_registration_stays :
    ¬ ∀ (auth : AuthService) (s : Script) (ip : String) (body : RegisterRequest) (w : World)
      (err : ApiError) (p : Progress),
      attempt s (register auth ip body) (.start w) = (.error err, p) → p.world.users = w.users := by
  intro h
  have hresult : halfRegistered.1 = .error (.internalError "Redis error: READONLY") := by decide
  have hsame := h working (failingAt 7 (.refused "READONLY")) "10.0.0.1" newcomer (.initial 0 [])
    _ halfRegistered.2 (Prod.ext hresult rfl)
  exact absurd hsame (by decide)

theorem register_failed_iff_newcomer :
    halfRegistered.2.world.users = [] ++ [newcomerRow] ∧
      ∀ (s' : Script) (ip' : String) (again : RegisterRequest),
        again.email = "carol@example.com" → ∀ response,
          (attempt s' (register working ip' again) (.start halfRegistered.2.world)).1
            ≠ .ok response := by
  have hresult : halfRegistered.1 = .error (.internalError "Redis error: READONLY") := by decide
  have hinserts : Inserts working (failingAt 7 (.refused "READONLY")) "10.0.0.1" newcomer
      (.initial 0 []) newcomerRow := by
    refine ⟨"3$correct horse", _, Prod.ext (by decide) rfl, rfl, ?_, by decide⟩
    exact fun message h => nomatch h
  obtain ⟨hstays, -, hlater⟩ := (register_failed_iff (Prod.ext hresult rfl)).2 _ hinserts
  exact ⟨hstays, hlater⟩

/-! ## Deletions of accounts -/

/-- What `delete_account` does before it deletes rows. -/
def beforeDelete (auth : AuthService) (user : AuthUser) : ExceptT ApiError Action Unit := do
  orFail (cacheSet .blacklist user.jti true auth.config.jwtExpiry)
  destroyOwnSession user

def deleteRows (userId : Uuid) : Handler := do
  queryOr "Failed to delete account data" (ask (.deleteNotes userId))
  let rowsAffected ← queryOr "Failed to delete account" (ask (.deleteUser userId))
  failIf (rowsAffected = 0) (.notFound "User not found")
  return ⟨204, [], .empty⟩

/-- The entry of the blacklist is written, and ends at `d`. -/
def Listed (auth : AuthService) (s : Script) (w : World) (d : Nat) : Prop :=
  s.Effective (.start w) ∧ blacklistEnd auth (s.now (.start w)) = some d

/-- The deletion of the notes is carried out. -/
def DeletesNotes (auth : AuthService) (s : Script) (user : AuthUser) (w : World) : Prop :=
  ∃ p, attempt s (beforeDelete auth user) (.start w) = (.ok (), p) ∧ s.Effective p

/-- The deletion of the user is carried out. -/
def DeletesUser (auth : AuthService) (s : Script) (user : AuthUser) (w : World) : Prop :=
  ∃ p p', attempt s (beforeDelete auth user) (.start w) = (.ok (), p) ∧
    attempt s (queryOr "Failed to delete account data" (ask (.deleteNotes user.userId))) p
      = (.ok (), p') ∧ s.Effective p'

section Delete

variable {auth : AuthService} {s : Script} {user : AuthUser}

theorem deleteAccount_eq : deleteAccount auth user
    = (beforeDelete auth user >>= fun _ => deleteRows user.userId) := by
  unfold deleteAccount beforeDelete deleteRows
  simp only [bind_assoc]

theorem tableless_beforeDelete (auth : AuthService) (user : AuthUser) :
    (beforeDelete auth user).run.All fun c => ¬ World.WritesTable c := by
  refine Program.All.bindExcept (Program.All.adapt ⟨id, fun _ => trivial⟩) fun _ => ?_
  unfold destroyOwnSession
  cases user.sessionId with
  | none => trivial
  | some id =>
      refine Program.All.bindExcept (Program.All.lift ?_) fun _ => trivial
      rw [sessionDestroy_run]
      exact ⟨fun h => h, fun r => by cases r <;> simp [World.WritesTable]⟩

/-- After the blacklist nothing is written to a cached value. -/
theorem cacheless_afterBlacklist :
    (destroyOwnSession user >>= fun _ => deleteRows user.userId).run.All
      fun c => ¬ World.WritesCached c := by
  refine Program.All.bindExcept ?_ fun _ => ?_
  · unfold destroyOwnSession
    cases user.sessionId with
    | none => trivial
    | some id =>
        refine Program.All.bindExcept (Program.All.lift ?_) fun _ => trivial
        rw [sessionDestroy_run]
        exact ⟨fun h => h, fun r => by cases r <;> simp [World.WritesCached]⟩
  · refine Program.All.bindExcept (Program.All.adapt ⟨id, fun _ => trivial⟩) fun _ => ?_
    refine Program.All.bindExcept (Program.All.adapt ⟨id, fun _ => trivial⟩) fun _ => ?_
    exact Program.All.bindExcept trivial fun _ => trivial

/-- The step that writes the entry. -/
theorem attempt_blacklist (auth : AuthService) (s : Script) (jti : String) (w : World) :
    ((∀ d, ¬ Listed auth s w d) →
      (attempt s (orFail (cacheSet .blacklist jti true auth.config.jwtExpiry)) (.start w)).2.world
        = s.found (.start w) ∧
      ∃ err, (attempt s (orFail (cacheSet .blacklist jti true auth.config.jwtExpiry))
        (.start w)).1 = .error err) ∧
    ∀ d, Listed auth s w d →
      (attempt s (orFail (cacheSet .blacklist jti true auth.config.jwtExpiry)) (.start w)).2.world
        = (s.found (.start w)).blacklistJti jti d := by
  have hstep : attempt s (orFail (cacheSet .blacklist jti true auth.config.jwtExpiry)) (.start w)
      = ((s.exec (.set .blacklist jti true auth.config.jwtExpiry.toNat) (.start w)).1.mapError
          CacheError.toApi,
        (s.exec (.set .blacklist jti true auth.config.jwtExpiry.toNat) (.start w)).2) := rfl
  rw [hstep]
  unfold Listed Script.Effective Script.exec blacklistEnd
  simp only [World.exec, World.set]
  have hnow : (s.found (.start w)).now = s.now (.start w) := rfl
  rw [hnow]
  cases hend : deadline (s.now (.start w)) auth.config.jwtExpiry.toNat with
  | none =>
      refine ⟨fun _ => ?_, fun d h => (by cases h.2)⟩
      cases (s.choice (Progress.start w).issued).fault with
      | none | refused message | lost message => exact ⟨rfl, _, rfl⟩
  | some d =>
      cases (s.choice (Progress.start w).issued).fault with
      | none =>
          refine ⟨fun h => absurd ⟨fun _ h => (by cases h), rfl⟩ (h d), fun d' h => ?_⟩
          obtain rfl := Option.some.inj h.2
          rfl
      | refused message => exact ⟨fun _ => ⟨rfl, _, rfl⟩, fun d' h => absurd rfl (h.1 message)⟩
      | lost message =>
          refine ⟨fun h => absurd ⟨fun _ h => (by cases h), rfl⟩ (h d), fun d' h => ?_⟩
          obtain rfl := Option.some.inj h.2
          rfl

/-- The step that deletes the notes. -/
theorem attempt_deleteNotes (p : Progress) (userId : Uuid) {r : Except ApiError Unit}
    {p' : Progress} (h : attempt s (queryOr "Failed to delete account data"
      (ask (.deleteNotes userId))) p = (r, p')) :
    p'.world.users = p.world.users ∧
      (¬ s.Effective p → p'.world.notes = p.world.notes ∧ r ≠ .ok ()) ∧
      (s.Effective p → p'.world.notes = p.world.notes.filter fun note => note.userId ≠ userId) := by
  have hstep : attempt s (queryOr "Failed to delete account data" (ask (.deleteNotes userId))) p
      = ((s.exec (.deleteNotes userId) p).1.mapError
          fun _ => .internalError "Failed to delete account data",
        (s.exec (.deleteNotes userId) p).2) := rfl
  rw [hstep] at h
  obtain ⟨rfl, rfl⟩ := Prod.mk.inj h
  unfold Script.Effective Script.exec
  simp only [World.exec]
  cases (s.choice p.issued).fault with
  | none => exact ⟨rfl, fun hnot => absurd (fun _ h => (by cases h)) hnot, fun _ => rfl⟩
  | refused message =>
      exact ⟨rfl, fun _ => ⟨rfl, fun h => (by cases h)⟩, fun heffective => absurd rfl (heffective message)⟩
  | lost message => exact ⟨rfl, fun hnot => absurd (fun _ h => (by cases h)) hnot, fun _ => rfl⟩

/-- The step that deletes the user. -/
theorem attempt_deleteUser (p : Progress) (userId : Uuid) {r : Except ApiError Nat}
    {p' : Progress} (h : attempt s (queryOr "Failed to delete account"
      (ask (.deleteUser userId))) p = (r, p')) :
    (¬ s.Effective p → p.world.SameTables p'.world) ∧
      (s.Effective p → p'.world.users = (p.world.users.filter fun user => user.id ≠ userId) ∧
        p'.world.notes = p.world.notes.filter fun note => note.userId ≠ userId) := by
  have hstep : attempt s (queryOr "Failed to delete account" (ask (.deleteUser userId))) p
      = ((s.exec (.deleteUser userId) p).1.mapError
          fun _ => .internalError "Failed to delete account",
        (s.exec (.deleteUser userId) p).2) := rfl
  rw [hstep] at h
  obtain ⟨rfl, rfl⟩ := Prod.mk.inj h
  unfold Script.Effective Script.exec
  simp only [World.exec]
  cases (s.choice p.issued).fault with
  | none => exact ⟨fun hnot => absurd (fun _ h => (by cases h)) hnot, fun _ => ⟨rfl, rfl⟩⟩
  | refused message =>
      exact ⟨fun _ => ⟨rfl, rfl⟩, fun heffective => absurd rfl (heffective message)⟩
  | lost message => exact ⟨fun hnot => absurd (fun _ h => (by cases h)) hnot, fun _ => ⟨rfl, rfl⟩⟩

/-- Both deletions. -/
theorem attempt_deleteRows (p : Progress) (userId : Uuid) :
    (¬ s.Effective p → (attempt s (deleteRows userId) p).2.world.notes = p.world.notes) ∧
    (s.Effective p → (attempt s (deleteRows userId) p).2.world.notes
      = p.world.notes.filter fun note => note.userId ≠ userId) ∧
    ((∀ p', attempt s (queryOr "Failed to delete account data" (ask (.deleteNotes userId))) p
        = (.ok (), p') → ¬ s.Effective p') →
      (attempt s (deleteRows userId) p).2.world.users = p.world.users) ∧
    (∀ p', attempt s (queryOr "Failed to delete account data" (ask (.deleteNotes userId))) p
        = (.ok (), p') → s.Effective p' →
      (attempt s (deleteRows userId) p).2.world.users
        = p.world.users.filter fun user => user.id ≠ userId) := by
  match hnotes : attempt s (queryOr "Failed to delete account data"
      (ask (.deleteNotes userId))) p with
  | (.error err, p₁) =>
      obtain ⟨husers, hkept, hgone⟩ := attempt_deleteNotes p userId hnotes
      unfold deleteRows
      rw [attempt_bind_error hnotes]
      exact ⟨fun h => (hkept h).1, hgone, fun _ => husers, fun p' h => nomatch (Prod.mk.inj h).1⟩
  | (.ok u, p₁) =>
      obtain ⟨husers, hkept, hgone⟩ := attempt_deleteNotes p userId hnotes
      have heffective : s.Effective p := by
        by_contra h
        exact (hkept h).2 rfl
      have hrest : (attempt s (deleteRows userId) p).2.world
          = (attempt s (queryOr "Failed to delete account" (ask (.deleteUser userId))) p₁).2.world := by
        unfold deleteRows
        rw [attempt_bind_ok hnotes]
        match huser : attempt s (queryOr "Failed to delete account"
            (ask (.deleteUser userId))) p₁ with
        | (.error err, p₂) => rw [attempt_bind_error huser]
        | (.ok rows, p₂) =>
            rw [attempt_bind_ok huser, attempt_bind, attempt_except]
            unfold failIf
            cases decide (rows = 0) with
            | true => rfl
            | false => rfl
      obtain ⟨hsame, hdeleted⟩ := attempt_deleteUser (s := s) p₁ userId (Prod.mk.eta).symm
      rw [hrest]
      have hfilter : ∀ {v : World}, v.notes = p.world.notes.filter (fun note => note.userId ≠ userId) →
          v.notes.filter (fun note => note.userId ≠ userId)
            = p.world.notes.filter fun note => note.userId ≠ userId := by
        intro v hv
        rw [hv, List.filter_filter]
        congr 1
        funext note
        exact Bool.and_self _
      refine ⟨fun h => absurd heffective h, fun _ => ?_, fun hnone => ?_, fun p' hp' huser => ?_⟩
      · by_cases huser : s.Effective p₁
        · rw [(hdeleted huser).2, hfilter (hgone heffective)]
        · rw [(hsame huser).notes, hgone heffective]
      · rw [(hsame (hnone p₁ rfl)).users, husers]
      · obtain ⟨-, rfl⟩ := Prod.mk.inj hp'
        rw [(hdeleted huser).1, husers]

/-- The rows that a deletion leaves, whatever it answers. -/
theorem rows_after (w : World) :
    (¬ DeletesNotes auth s user w → (attempt s (beforeDelete auth user >>= fun _ =>
      deleteRows user.userId) (.start w)).2.world.notes = w.notes) ∧
    (DeletesNotes auth s user w → (attempt s (beforeDelete auth user >>= fun _ =>
      deleteRows user.userId) (.start w)).2.world.notes
        = w.notes.filter fun note => note.userId ≠ user.userId) ∧
    (¬ DeletesUser auth s user w → (attempt s (beforeDelete auth user >>= fun _ =>
      deleteRows user.userId) (.start w)).2.world.users = w.users) ∧
    (DeletesUser auth s user w → (attempt s (beforeDelete auth user >>= fun _ =>
      deleteRows user.userId) (.start w)).2.world.users
        = w.users.filter fun row => row.id ≠ user.userId) := by
  have htables := attempt_tables (s := s) (p := .start w)
    (tableless_beforeDelete auth user)
  match hbefore : attempt s (beforeDelete auth user) (.start w) with
  | (.error err, p) =>
      rw [hbefore] at htables
      rw [attempt_bind_error hbefore]
      refine ⟨fun _ => htables.notes, fun hnotes => ?_, fun _ => htables.users, fun huser => ?_⟩
      · obtain ⟨p', hp', -⟩ := hnotes
        rw [hbefore] at hp'
        cases (Prod.mk.inj hp').1
      · obtain ⟨p', p'', hp', -⟩ := huser
        rw [hbefore] at hp'
        cases (Prod.mk.inj hp').1
  | (.ok u, p) =>
      rw [hbefore] at htables
      obtain ⟨hkept, hgone, hstays, hdeleted⟩ := attempt_deleteRows (s := s) p user.userId
      have hnotes : p.world.notes = w.notes := htables.notes
      have husers : p.world.users = w.users := htables.users
      rw [hnotes] at hkept hgone
      rw [husers] at hstays hdeleted
      rw [attempt_bind_ok hbefore]
      refine ⟨fun hnot => hkept fun heffective => hnot ⟨p, hbefore, heffective⟩, fun hnotes => ?_,
        fun hnot => hstays fun p' hp' heffective => hnot ⟨p, p', hbefore, hp', heffective⟩,
        fun huser => ?_⟩
      · obtain ⟨p', hp', heffective⟩ := hnotes
        rw [hbefore] at hp'
        obtain ⟨-, rfl⟩ := Prod.mk.inj hp'
        exact hgone heffective
      · obtain ⟨p', p'', hp', hp'', heffective⟩ := huser
        rw [hbefore] at hp'
        obtain ⟨-, rfl⟩ := Prod.mk.inj hp'
        exact hdeleted p'' hp'' heffective

/-- A deletion that fails: if the entry of the blacklist was not written, nothing but the clock has
changed; if it was, the credential is refused for as long as the entry lives, and of the rows
exactly those are gone whose deletion was carried out. -/
theorem deleteAccount_failed {w : World} {err : ApiError} {p : Progress}
    (h : attempt s (deleteAccount auth user) (.start w) = (.error err, p)) :
    ((∀ d, ¬ Listed auth s w d) → ∀ t, p.world.atTime t = w.atTime t) ∧
    ∀ d, Listed auth s w d →
      (∀ t req, t < d →
        ((p.world.atTime t).perform (authMiddleware auth req)).1 ≠ .next (some user)) ∧
      (¬ DeletesNotes auth s user w → p.world.notes = w.notes) ∧
      (DeletesNotes auth s user w →
        p.world.notes = w.notes.filter fun note => note.userId ≠ user.userId) ∧
      (¬ DeletesUser auth s user w → p.world.users = w.users) ∧
      (DeletesUser auth s user w →
        p.world.users = w.users.filter fun row => row.id ≠ user.userId) := by
  have hresult : p = (attempt s (deleteAccount auth user) (.start w)).2 := by rw [h]
  obtain ⟨hunlisted, hlisted⟩ := attempt_blacklist auth s user.jti w
  have hparts : deleteAccount auth user
      = (orFail (cacheSet .blacklist user.jti true auth.config.jwtExpiry) >>= fun _ =>
          destroyOwnSession user >>= fun _ => deleteRows user.userId) := by
    rw [deleteAccount_eq]
    unfold beforeDelete
    simp only [bind_assoc]
  refine ⟨fun hnone t => ?_, fun d hd => ⟨fun t req ht => ?_, ?_⟩⟩
  · obtain ⟨hfound, err', herr⟩ := hunlisted hnone
    rw [hresult, hparts, attempt_bind_error (Prod.ext herr rfl), hfound]
    rfl
  · -- the entry stays as it was written
    have hcached : p.world.cached = ((s.found (.start w)).blacklistJti user.jti d).cached := by
      rw [hresult, hparts, ← hlisted d hd]
      match hset : attempt s (orFail (cacheSet .blacklist user.jti true auth.config.jwtExpiry))
          (.start w) with
      | (.error err, p₁) => rw [attempt_bind_error hset]
      | (.ok u, p₁) =>
          rw [attempt_bind_ok hset]
          exact attempt_cached cacheless_afterBlacklist
    have hblack : Blacklisted (p.world.atTime t) user.jti := by
      have hentry := (World.blacklisted_blacklistJti (s.found (.start w)) user.jti user.jti d t).mpr
        (by rwa [if_pos rfl])
      unfold Blacklisted World.atTime at hentry ⊢
      rwa [hcached]
    exact fun hattached => (attached_iff.mp hattached).2 hblack
  · rw [hresult, deleteAccount_eq]
    exact rows_after w

end Delete

namespace Sample

/-- A deletion by Alice with one failing command. -/
def halfDeleted (n : Nat) : Except ApiError Response × Progress :=
  attempt (failingAt n (.refused "READONLY")) (deleteAccount (auth .both) aliceClaims.toUser)
    (.start (.initial 0 [⟨alice, "alice@example.com", none, "local", some "hash"⟩]))

def aliceRequest : Request := ⟨.delete, "/auth/me", bearer "alice.token"⟩

end Sample

open Sample

/-- Postgres does not delete the notes; the token is refused afterwards. -/
theorem failed_deletion_locks_out :
    ¬ ∀ (auth : AuthService) (s : Script) (req : Request) (user : AuthUser) (w : World)
      (err : ApiError) (p : Progress),
      (∀ i j m n, (s.choice i).fault = .refused m → (s.choice j).fault = .refused n → i = j) →
      (w.perform (authMiddleware auth req)).1 = .next (some user) →
      attempt s (deleteAccount auth user) (.start w) = (.error err, p) →
      p.world.notes = w.notes ∧ p.world.users = w.users ∧
        (p.world.perform (authMiddleware auth req)).1 = .next (some user) := by
  intro h
  have hresult : (halfDeleted 1).1 = .error (.internalError "Failed to delete account data") := by
    decide
  have honce : ∀ i j m n, ((failingAt 1 (.refused "READONLY")).choice i).fault = .refused m →
      ((failingAt 1 (.refused "READONLY")).choice j).fault = .refused n → i = j := by
    intro i j m n hi hj
    simp only [failingAt] at hi hj
    split_ifs at hi hj
    omega
  obtain ⟨-, -, haccepted⟩ := h (auth .both) (failingAt 1 (.refused "READONLY")) aliceRequest
    aliceClaims.toUser _ _ (halfDeleted 1).2 honce (by decide) (Prod.ext hresult rfl)
  exact absurd haccepted (by decide)

theorem deleteAccount_failed_alice :
    (∀ t req, t < 900000 →
      (((halfDeleted 1).2.world.atTime t).perform (authMiddleware (auth .both) req)).1
        ≠ .next (some aliceClaims.toUser)) ∧
    (halfDeleted 1).2.world.users
      = [⟨alice, "alice@example.com", none, "local", some "hash"⟩] := by
  have hresult : (halfDeleted 1).1 = .error (.internalError "Failed to delete account data") := by
    decide
  have hlisted : Listed (auth .both) (failingAt 1 (.refused "READONLY"))
      (.initial 0 [⟨alice, "alice@example.com", none, "local", some "hash"⟩]) 900000 :=
    ⟨fun message h => (nomatch h), by decide⟩
  obtain ⟨hrefused, -, -, hstays, -⟩ := (deleteAccount_failed (Prod.ext hresult rfl)).2 _ hlisted
  refine ⟨hrefused, hstays ?_⟩
  rintro ⟨p, p', hbefore, hnotes, -⟩
  have hfirst : p = (attempt (failingAt 1 (.refused "READONLY"))
      (beforeDelete (auth .both) aliceClaims.toUser) (.start (.initial 0
        [⟨alice, "alice@example.com", none, "local", some "hash"⟩]))).2 := by rw [hbefore]
  subst hfirst
  exact nomatch congrArg Prod.fst hnotes

end FullStackHex
