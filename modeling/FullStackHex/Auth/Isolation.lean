import FullStackHex.Auth.Blacklist

/-!
Two runs compared: one in which a user logs out or deletes the account, and one
in which this does not happen. Requests that carry only another user's
credential are decided alike, except that a user of a session cookie writes the
entry under the empty JTI, which stands for every user of a session cookie.
-/

namespace FullStackHex

open Concurrent Expiring

/-- The two requests that end a user's credential. -/
inductive Leave where
  | logout (body : Option String)
  | deleteAccount
  deriving DecidableEq, Repr

def Leave.handler (auth : AuthService) (user : AuthUser) : Leave → Handler
  | .logout body => FullStackHex.logout auth user body
  | .deleteAccount => FullStackHex.deleteAccount auth user

/-- What a successful `Leave` changes for the middleware. -/
structure LeftBehind (auth : AuthService) (user : AuthUser) (w w' : World) : Prop where
  now : w'.now = w.now
  bound : 0 < auth.config.jwtExpiry.toNat
  blacklist : ∀ jti t, Blacklisted (w'.atTime t) jti ↔
    if jti = user.jti then t < w.now + 1000 * auth.config.jwtExpiry.toNat
    else Blacklisted (w.atTime t) jti
  sessions : w'.sessions = user.sessionId.elim w.sessions w.sessions.del
  cache : w'.sessionCache = user.sessionId.elim w.sessionCache w.sessionCache.erase

theorem leftBehind_of_parts {auth : AuthService} {user : AuthUser} {w v w' : World} {d : Nat}
    (hend : blacklistEnd auth w.now = some d) (hnow : v.now = w.now)
    (hlist : v.cached .blacklist = w.cached .blacklist) (hsessions : v.sessions = w.sessions)
    (hcache : v.sessionCache = w.sessionCache)
    (h : w' = (v.blacklistJti user.jti d).dropSession user.sessionId) :
    LeftBehind auth user w w' := by
  obtain ⟨hpos, _, hd⟩ := deadline_eq_some.mp hend
  have hcached : w'.cached = (v.blacklistJti user.jti d).cached :=
    h ▸ (World.dropSession_same _ _).2
  refine ⟨?_, hpos, ?_, ?_, ?_⟩
  · rw [h, (World.dropSession_same _ _).1]
    exact hnow
  · intro jti t
    have := v.blacklisted_blacklistJti user.jti jti d t
    unfold Blacklisted World.atTime at this ⊢
    dsimp only at this ⊢
    rw [hcached, this, hlist, hd]
  · rw [h]
    unfold World.dropSession
    cases user.sessionId with
    | none => exact hsessions
    | some id => simp only [World.sessionDestroy, World.blacklistJti, World.setCached, hsessions,
        Option.elim]
  · rw [h]
    unfold World.dropSession
    cases user.sessionId with
    | none => exact hcache
    | some id => simp only [World.blacklistJti, World.setCached, hcache, Option.elim]

theorem leave_leftBehind {auth : AuthService} {user : AuthUser} {leave : Leave}
    {w w' : World} {response : Response}
    (h : alone .calm (leave.handler auth user) w = (.ok response, w')) :
    LeftBehind auth user w w' := by
  cases leave with
  | logout body =>
      have hstate := alone_logout auth user body w
      unfold Leave.handler at h
      dsimp only at h
      rw [h] at hstate
      cases hend : blacklistEnd auth w.now with
      | none => simp [hend] at hstate
      | some d =>
          simp only [hend, Prod.mk.injEq] at hstate
          obtain ⟨hnow, hlist⟩ := w.dropRefresh_same body
          refine leftBehind_of_parts hend hnow hlist ?_ ?_ hstate.2
          all_goals
            unfold World.dropRefresh
            split <;> rfl
  | deleteAccount =>
      have hstate := alone_deleteAccount auth user w
      unfold Leave.handler at h
      dsimp only at h
      rw [h] at hstate
      cases hend : blacklistEnd auth w.now with
      | none =>
          -- the handler fails when the entry cannot be written
          unfold deleteAccount at h
          rw [alone_bind, alone_cacheSet_blacklist, hend] at h
          cases h
      | some d =>
          simp only [hend] at hstate
          have hparts := leftBehind_of_parts hend rfl rfl rfl rfl
            (rfl : (w.blacklistJti user.jti d).dropSession user.sessionId = _)
          rw [hstate]
          exact ⟨hparts.now, hparts.bound, hparts.blacklist, hparts.sessions, hparts.cache⟩

/-- The request carries no credential of this user: neither a token of theirs nor
the session that they used. -/
structure OtherCredential (auth : AuthService) (user : AuthUser) (req : Request) : Prop where
  bearer : ∀ token claims, bearerToken req.headers = some token →
    auth.decode token = .ok claims → claims.sub ≠ user.userId
  session : ∀ id, cookieAuthPrepare req = .ok (some id) → user.sessionId ≠ some id

/-- JTIs are drawn at random: none is empty, and no two users share one. -/
structure FreshJtis (auth : AuthService) : Prop where
  nonempty : ∀ token claims, auth.decode token = .ok claims → claims.jti ≠ ""
  distinct : ∀ token token' claims claims', auth.decode token = .ok claims →
    auth.decode token' = .ok claims' → claims.jti = claims'.jti → claims.sub = claims'.sub

/-- Two states that agree on all sessions but `own`. -/
structure Parallel (own : Option String) (w w' : World) : Prop where
  now : w'.now = w.now
  sessions : ∀ id, own ≠ some id → w'.sessions id = w.sessions id
  lookup : ∀ id, own ≠ some id → w'.sessionCache.lookup id = w.sessionCache.lookup id
  smaller : w'.sessionCache.size ≤ w.sessionCache.size
  same : own = none → w'.sessionCache.size = w.sessionCache.size

theorem LeftBehind.parallel {auth : AuthService} {user : AuthUser} {w w' : World}
    (h : LeftBehind auth user w w') : Parallel user.sessionId w w' := by
  have hsessions := h.sessions
  have hcache := h.cache
  cases hown : user.sessionId with
  | none =>
      rw [hown] at hsessions hcache
      dsimp only [Option.elim] at hsessions hcache
      exact ⟨h.now, fun id _ => by rw [hsessions], fun id _ => by rw [hcache],
        hcache ▸ le_refl _, fun _ => by rw [hcache]⟩
  | some own =>
      rw [hown] at hsessions hcache
      dsimp only [Option.elim] at hsessions hcache
      refine ⟨h.now, ?_, ?_, ?_, fun hnone => by cases hnone⟩
      · intro id hid
        rw [hsessions]
        exact Store.del_ne fun heq => hid (by rw [heq])
      · intro id hid
        rw [hcache]
        exact AList.lookup_erase_ne fun heq => hid (by rw [heq])
      · rw [hcache, Table.size_erase]
        split <;> omega

namespace Parallel

variable {own : Option String} {w w' : World}

theorem atTime (h : Parallel own w w') (t : Nat) : Parallel own (w.atTime t) (w'.atTime t) :=
  ⟨rfl, h.sessions, h.lookup, h.smaller, h.same⟩

theorem get_eq (h : Parallel own w w') {id : String} (hid : own ≠ some id) :
    w'.sessions.get w'.now id = w.sessions.get w.now id := by
  rw [h.now]
  exact Store.get_congr (h.sessions id hid)

theorem erase (h : Parallel own w w') {id : String} (hid : own ≠ some id) :
    Parallel own { w with sessionCache := w.sessionCache.erase id }
      { w' with sessionCache := w'.sessionCache.erase id } := by
  refine ⟨h.now, h.sessions, ?_, ?_, ?_⟩
  · intro other hother
    by_cases heq : other = id
    · subst heq
      simp [AList.lookup_erase]
    · simpa [AList.lookup_erase_ne heq] using h.lookup other hother
  all_goals
    have hsmaller := h.smaller
    have hlookup := h.lookup id hid
    simp only [Table.size_erase, hlookup]
  · split <;> omega
  · intro hnone
    rw [h.same hnone]

theorem cacheGet (h : Parallel own w w') {id : String} (hid : own ≠ some id) :
    (w'.sessionCacheGet id).1 = (w.sessionCacheGet id).1 ∧
      Parallel own (w.sessionCacheGet id).2 (w'.sessionCacheGet id).2 := by
  unfold World.sessionCacheGet
  rw [h.lookup id hid, h.now]
  cases w.sessionCache.lookup id with
  | none => exact ⟨rfl, h⟩
  | some entry =>
      dsimp only
      split_ifs
      · exact ⟨rfl, h⟩
      · refine ⟨rfl, ?_⟩
        have herase := h.erase hid
        rwa [h.now] at herase

theorem resolve_eq (h : Parallel own w w') {id : String} (hid : own ≠ some id) :
    w'.resolve id = w.resolve id := by
  unfold World.resolve
  rw [(h.cacheGet hid).1, h.get_eq hid]

/-- Both caches take the session in; a full one is cleared in both or in none. -/
theorem cachePut (h : Parallel own w w') {id : String} (hid : own ≠ some id)
    (session : Session)
    (hroom : own = none ∨ w.sessionCache.size < World.maxSessionCacheEntries) :
    Parallel own (w.sessionCachePut id session) (w'.sessionCachePut id session) := by
  have hsmaller := h.smaller
  have hfull : World.maxSessionCacheEntries ≤ w'.sessionCache.size ↔
      World.maxSessionCacheEntries ≤ w.sessionCache.size := by
    rcases hroom with hnone | hlt
    · rw [h.same hnone]
    · omega
  unfold World.sessionCachePut
  simp only [hfull, h.now]
  refine ⟨rfl, h.sessions, ?_, ?_, ?_⟩
  · intro other hother
    by_cases heq : other = id
    · subst heq
      simp [AList.lookup_insert]
    · simp only [AList.lookup_insert_ne heq]
      split_ifs
      · rfl
      · exact h.lookup other hother
  all_goals
    have hlookup := h.lookup id hid
    simp only [Table.size_insert, Table.size_erase]
  · split_ifs <;> simp_all <;> omega
  · intro hnone
    rw [apply_ite (fun t : Table String (Nat × Session) => t.size)]
    split_ifs <;> simp_all [h.same hnone]

theorem lookedUp (h : Parallel own w w') {id : String} (hid : own ≠ some id)
    (hroom : own = none ∨ w.sessionCache.size < World.maxSessionCacheEntries) :
    Parallel own (w.lookedUp id) (w'.lookedUp id) := by
  obtain ⟨hget, hnext⟩ := h.cacheGet hid
  rw [(alone_sessionGet id w).2, (alone_sessionGet id w').2, hget, h.get_eq hid]
  split
  · exact hnext
  · refine hnext.cachePut hid _ (hroom.imp_right fun hlt => ?_)
    exact Nat.lt_of_le_of_lt (w.sessionCacheGet_size id) hlt
  · exact hnext

end Parallel

theorem cookieLookup_eq_some {auth : AuthService} {req : Request} {now : Nat} {id : String}
    (h : cookieLookup auth req now = some id) : cookieAuthPrepare req = .ok (some id) := by
  have hjoin : (cookieAuthPrepare req).toOption.join = some id := by
    unfold cookieLookup at h
    split at h
    · cases h
    · split at h
      · cases h
      · cases h
      · exact h
  match hprepare : cookieAuthPrepare req with
  | .error () => simp [hprepare, Except.toOption] at hjoin
  | .ok none => simp [hprepare, Except.toOption] at hjoin
  | .ok (some other) =>
      rw [hprepare] at hjoin
      exact congrArg (fun x => Except.ok (some x)) (Option.some.inj hjoin)

/-- A request that the middleware handles at time `t`. -/
def visit (auth : AuthService) (w : World) (t : Nat) (req : Request) : World :=
  ((w.atTime t).perform (authMiddleware auth req)).2

def visitAll (auth : AuthService) (w : World) (visits : List (Nat × Request)) : World :=
  visits.foldl (fun v next => visit auth v next.1 next.2) w

/-- Requests of others, one after another. Where a session is being ended, the
session cache is not full when they come. -/
inductive Visits (auth : AuthService) (user : AuthUser) : World → List (Nat × Request) → Prop
  | nil (w : World) : Visits auth user w []
  | cons {w : World} {t : Nat} {req : Request} {rest : List (Nat × Request)}
      (later : w.now ≤ t) (other : OtherCredential auth user req)
      (room : user.sessionId = none ∨ w.sessionCache.size < World.maxSessionCacheEntries)
      (next : Visits auth user (visit auth w t req) rest) :
      Visits auth user w ((t, req) :: rest)

theorem visit_eq (auth : AuthService) (w : World) (t : Nat) (req : Request) :
    visit auth w t req = (w.atTime t).lookedUp? (cookieLookup auth req t) := by
  unfold visit
  rw [perform_authMiddleware]
  rfl

theorem visit_frame (auth : AuthService) (w : World) (t : Nat) (req : Request) :
    (visit auth w t req).now = t ∧ (visit auth w t req).cached = w.cached := by
  rw [visit_eq]
  cases cookieLookup auth req t with
  | none => exact ⟨rfl, rfl⟩
  | some id =>
      have hsame := (w.atTime t).lookedUp_same id
      unfold World.SameButCache at hsame
      simp only [World.lookedUp?, Option.elim]
      rw [hsame]
      exact ⟨rfl, rfl⟩

theorem Parallel.visit {auth : AuthService} {user : AuthUser} {w w' : World}
    (h : Parallel user.sessionId w w') {t : Nat} {req : Request}
    (other : OtherCredential auth user req)
    (hroom : user.sessionId = none ∨ w.sessionCache.size < World.maxSessionCacheEntries) :
    Parallel user.sessionId (visit auth w t req) (visit auth w' t req) := by
  rw [visit_eq, visit_eq]
  cases hlookup : cookieLookup auth req t with
  | none => exact h.atTime t
  | some id =>
      exact (h.atTime t).lookedUp (other.session id (cookieLookup_eq_some hlookup)) hroom

/-- The requests of others leave the two runs in step. -/
theorem Parallel.visitAll {auth : AuthService} {user : AuthUser} {w w' : World}
    {visits : List (Nat × Request)} (h : Parallel user.sessionId w w')
    (hvisits : Visits auth user w visits) :
    Parallel user.sessionId (visitAll auth w visits) (visitAll auth w' visits) := by
  induction hvisits generalizing w' with
  | nil w => exact h
  | cons later other room next ih => exact ih (h.visit other room)

theorem Visits.frame {auth : AuthService} {user : AuthUser} {w : World}
    {visits : List (Nat × Request)} (h : Visits auth user w visits) :
    w.now ≤ (visitAll auth w visits).now := by
  induction h with
  | nil w => exact le_refl _
  | cons later other room next ih =>
      rw [(visit_frame auth _ _ _).1] at ih
      exact later.trans ih

theorem visitAll_cached (auth : AuthService) (w : World) (visits : List (Nat × Request)) :
    (visitAll auth w visits).cached = w.cached := by
  induction visits generalizing w with
  | nil => rfl
  | cons next rest ih => exact (ih _).trans (visit_frame auth w next.1 next.2).2

theorem Parallel.credential_eq {auth : AuthService} {user : AuthUser} {w w' : World}
    (h : Parallel user.sessionId w w') {req : Request}
    (other : OtherCredential auth user req) :
    credential auth req w' = credential auth req w := by
  have hcookie : cookieCredential req w' = cookieCredential req w := by
    unfold cookieCredential
    match hprepare : cookieAuthPrepare req with
    | .error () => rfl
    | .ok none => rfl
    | .ok (some id) =>
        dsimp only
        rw [h.resolve_eq (other.session id hprepare)]
  unfold credential
  rw [h.now, hcookie]

/-- The middleware's decision on a request at time `t`. -/
def decision (auth : AuthService) (w : World) (t : Nat) (req : Request) : Passage :=
  ((w.atTime t).perform (authMiddleware auth req)).1

/-- The request is let through by a session cookie, the blacklist aside. -/
def ByCookie (auth : AuthService) (w : World) (t : Nat) (req : Request) : Prop :=
  ∃ user, credential auth req (w.atTime t) = .next (some user) ∧ user.sessionId.isSome

theorem decision_eq (auth : AuthService) (w : World) (t : Nat) (req : Request) :
    decision auth w t req
      = (credential auth req (w.atTime t)).unlessBlacklisted (w.atTime t) := by
  unfold decision
  rw [perform_authMiddleware]

/-- The user who leaves was not on the blacklist, and is not later either. -/
theorem not_blacklisted_later {auth : AuthService} {w₀ w : World} {own : Request}
    {user : AuthUser} {t : Nat}
    (hauth : w₀.perform (authMiddleware auth own) = (.next (some user), w)) (ht : w.now ≤ t) :
    ¬ Blacklisted (w.atTime t) user.jti := by
  have hfree := (attached_iff.mp (congrArg Prod.fst hauth)).2
  have hframe := visit_frame auth w₀ w₀.now own
  have hw : visit auth w₀ w₀.now own = w := congrArg Prod.snd hauth
  rw [hw] at hframe
  intro hlater
  refine hfree ?_
  unfold Blacklisted World.atTime at hlater
  unfold Blacklisted
  rw [← hframe.1, ← hframe.2]
  exact Store.get_of_le ht hlater

/-- A logout or deletion of one user and then requests of others: the middleware
decides the last of them as it would have without, exactly unless the credential
ended was a session, the request is authenticated by a session, and the lifetime
of the blacklist entry has not passed. -/
theorem leave_decision_iff (auth : AuthService) (hjtis : FreshJtis auth) (w₀ w w' : World)
    (own : Request) (user : AuthUser) (leave : Leave) (response : Response)
    (hauth : w₀.perform (authMiddleware auth own) = (.next (some user), w))
    (hleave : alone .calm (leave.handler auth user) w = (.ok response, w'))
    (visits : List (Nat × Request)) (hvisits : Visits auth user w visits)
    (t : Nat) (ht : (visitAll auth w visits).now ≤ t) (req : Request)
    (hother : OtherCredential auth user req) :
    decision auth (visitAll auth w' visits) t req = decision auth (visitAll auth w visits) t req ↔
      ¬ (user.sessionId.isSome ∧ ByCookie auth (visitAll auth w visits) t req ∧
        t < w.now + 1000 * auth.config.jwtExpiry.toNat) := by
  have hleft := leave_leftBehind hleave
  have hcredential := ((hleft.parallel.visitAll hvisits).atTime t).credential_eq hother
  have hfree := not_blacklisted_later hauth (hvisits.frame.trans ht)
  have hlist : ∀ jti, Blacklisted ((visitAll auth w visits).atTime t) jti ↔
      Blacklisted (w.atTime t) jti := by
    intro jti
    unfold Blacklisted World.atTime
    rw [visitAll_cached]
  have hlist' : ∀ jti, Blacklisted ((visitAll auth w' visits).atTime t) jti ↔
      if jti = user.jti then t < w.now + 1000 * auth.config.jwtExpiry.toNat
      else Blacklisted (w.atTime t) jti := by
    intro jti
    rw [← hleft.blacklist jti t]
    unfold Blacklisted World.atTime
    rw [visitAll_cached]
  rw [decision_eq, decision_eq, hcredential]
  unfold ByCookie
  cases hcase : credential auth req ((visitAll auth w visits).atTime t) with
  | forbidden => simp [Passage.unlessBlacklisted]
  | next found =>
    cases found with
    | none => simp [Passage.unlessBlacklisted]
    | some other =>
        simp only [Passage.unlessBlacklisted, hlist, hlist', Passage.next.injEq,
          Option.some.injEq, exists_eq_left']
        rcases credential_user hcase with
          ⟨hnone, token', claims', htoken', hverdict', rfl⟩ | ⟨hempty, id, session, _, _, rfl⟩
        · -- a bearer token: its JTI is another one
          have hdecode' := (tokenVerdict_eq_ok.mp hverdict').1
          have hne : claims'.toUser.jti ≠ user.jti := by
            rcases credential_user (attached_iff.mp (congrArg Prod.fst hauth)).1 with
              ⟨_, token, claims, _, hverdict, rfl⟩ | ⟨hjti, _⟩
            · intro heq
              exact hother.bearer token' claims' htoken' hdecode'
                (hjtis.distinct token' token claims' claims hdecode'
                  (tokenVerdict_eq_ok.mp hverdict).1 heq)
            · rw [hjti]
              exact hjtis.nonempty token' claims' hdecode'
          simp [hne, hnone]
        · -- a session cookie: the empty JTI
          rcases credential_user (attached_iff.mp (congrArg Prod.fst hauth)).1 with
            ⟨hsession, token, claims, _, hverdict, rfl⟩ | ⟨hjti, own, session', _, _, rfl⟩
          · have hne : ¬ (session.toUser id).jti = claims.toUser.jti := fun heq =>
              hjtis.nonempty token claims (tokenVerdict_eq_ok.mp hverdict).1
                (heq.symm.trans hempty)
            simp [hne, hsession]
          · rw [hjti] at hfree
            rw [hempty, hjti]
            simp [hfree, Session.toUser]

namespace Sample

theorem freshJtis (mode : AuthMode) : FreshJtis (auth mode) := by
  have hclaims : ∀ token claims, (auth mode).decode token = .ok claims →
      claims = aliceClaims ∨ claims = bobClaims := by
    intro token claims h
    simpa using (List.mem_cons.mp (AuthService.ofTokens_decode h)).imp
      (fun h => (Prod.mk.inj h).2) (fun h => (Prod.mk.inj (List.mem_singleton.mp h)).2)
  constructor
  · intro token claims h
    rcases hclaims token claims h with rfl | rfl <;> decide
  · intro token token' claims claims' h h'
    rcases hclaims token claims h with rfl | rfl <;>
      rcases hclaims token' claims' h' with rfl | rfl <;> decide

def aliceSession : Session := ⟨alice, "alice@example.com", none, "local", 0⟩

def bobSession : Session := ⟨bob, "bob@example.com", none, "local", 0⟩

/-- Both users have opened a session. -/
def signedIn : World :=
  (alone { Choice.calm with token := "s-bob" } (sessionCreate bobSession 900)
    (alone { Choice.calm with token := "s-alice" } (sessionCreate aliceSession 900)
      (World.initial 0 [])).2).2

/-- A logout request by cookie, with its CSRF token. -/
def aliceLogout : Request :=
  ⟨.post, "/auth/logout", { cookies "session=s-alice; csrf_token=c" with csrf := some "c" }⟩

def bobVisit : Request := ⟨.get, "/auth/me", cookies "session=s-bob"⟩

theorem bobVisit_other (mode : AuthMode) {user : AuthUser}
    (h : user.sessionId ≠ some "s-bob") : OtherCredential (auth mode) user bobVisit where
  bearer token claims htoken := by
    rw [show bearerToken bobVisit.headers = none by decide] at htoken
    cases htoken
  session id hid := by
    rw [show cookieAuthPrepare bobVisit = .ok (some "s-bob") by decide] at hid
    cases hid
    exact h

end Sample

open Sample

/-- A bearer logout, a request of the other user, and another one. -/
theorem leave_decision_iff_bearer :
    let own : Request := ⟨.get, "/auth/me", bearer "alice.token"⟩
    let w := (signedIn.perform (authMiddleware (auth .both) own)).2
    let w' := (alone .calm (logout (auth .both) aliceClaims.toUser none) w).2
    decision (auth .both) (visitAll (auth .both) w' [(1000, bobVisit)]) 2000 bobVisit
        = decision (auth .both) (visitAll (auth .both) w [(1000, bobVisit)]) 2000 bobVisit ↔
      ¬ (aliceClaims.toUser.sessionId.isSome ∧
        ByCookie (auth .both) (visitAll (auth .both) w [(1000, bobVisit)]) 2000 bobVisit ∧
        2000 < 0 + 1000 * (config .both).jwtExpiry.toNat) :=
  leave_decision_iff (auth .both) (freshJtis .both) signedIn _ _
    ⟨.get, "/auth/me", bearer "alice.token"⟩ aliceClaims.toUser (.logout none) loggedOut
    (Prod.ext (by decide) rfl) (Prod.ext (by decide) rfl) [(1000, bobVisit)]
    (.cons (by decide) (bobVisit_other .both (by decide)) (Or.inl rfl) (.nil _))
    2000 (by decide) bobVisit (bobVisit_other .both (by decide))

/-- Alice logs out by cookie, and Bob's session is refused. -/
theorem cookie_logout_refuses_others :
    let w := (signedIn.perform (authMiddleware (auth .cookie) aliceLogout)).2
    let left := alone .calm (logout (auth .cookie) (aliceSession.toUser "s-alice") none) w
    (signedIn.perform (authMiddleware (auth .cookie) aliceLogout)).1
      = .next (some (aliceSession.toUser "s-alice")) ∧
    left.1 = .ok loggedOut ∧
    OtherCredential (auth .cookie) (aliceSession.toUser "s-alice") bobVisit ∧
    decision (auth .cookie) w 1000 bobVisit = .next (some (bobSession.toUser "s-bob")) ∧
    decision (auth .cookie) left.2 1000 bobVisit = .next none :=
  ⟨by decide, by decide, bobVisit_other .cookie (by decide), by decide, by decide⟩

end FullStackHex
