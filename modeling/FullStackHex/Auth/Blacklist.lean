import FullStackHex.Auth.Routes

/-!
What `logout` and `delete_account` leave behind: an entry on the blacklist
under the JTI of the user they were called with, which is empty for a user of a
session cookie, and for such a user the end of the session.
-/

namespace FullStackHex

open Concurrent Expiring

/-- Steps of a handler that fails at the first error. -/
theorem alone_orFail {α : Type} (p : ExceptT CacheError Action α) (e : Choice) (w : World) :
    alone e (orFail p) w = ((alone e p w).1.mapError CacheError.toApi, (alone e p w).2) :=
  alone_adapt e w _ p

def World.dropRefresh (w : World) (body : Option String) : World :=
  match body.filter fun token => token ≠ "" with
  | some token => w.setCached .refresh ((w.cached .refresh).del token)
  | none => w

def World.dropSession (w : World) (sessionId : Option String) : World :=
  match sessionId with
  | some id => { w.sessionDestroy id with sessionCache := w.sessionCache.erase id }
  | none => w

/-- The end of the lifetime of an entry that is written at `now`. -/
def blacklistEnd (auth : AuthService) (now : Nat) : Option Nat :=
  deadline now auth.config.jwtExpiry.toNat

def World.blacklistJti (w : World) (jti : String) (d : Nat) : World :=
  w.setCached .blacklist ((w.cached .blacklist).set jti ⟨true, some d⟩)

theorem alone_cacheSet_blacklist (auth : AuthService) (jti : String) (w : World) :
    alone .calm (orFail (cacheSet .blacklist jti true auth.config.jwtExpiry)) w =
      match blacklistEnd auth w.now with
      | none => (.error (invalidExpire "set").toApi, w)
      | some d => (.ok (), w.blacklistJti jti d) := by
  have hset : alone .calm (cacheSet .blacklist jti true auth.config.jwtExpiry) w
      = w.set .blacklist jti true auth.config.jwtExpiry.toNat := rfl
  rw [alone_orFail, hset]
  unfold World.set blacklistEnd
  cases deadline w.now auth.config.jwtExpiry.toNat with
  | none => rfl
  | some d => rfl

theorem alone_destroyOwnSession (user : AuthUser) (w : World) :
    alone .calm (destroyOwnSession user) w = (.ok (), w.dropSession user.sessionId) := by
  unfold destroyOwnSession World.dropSession
  cases user.sessionId with
  | none => rfl
  | some id => rfl

theorem World.dropRefresh_same (w : World) (body : Option String) :
    (w.dropRefresh body).now = w.now ∧
      (w.dropRefresh body).cached .blacklist = w.cached .blacklist := by
  unfold dropRefresh
  split
  · exact ⟨rfl, setCached_ne (by decide)⟩
  · exact ⟨rfl, rfl⟩

@[simp] theorem World.dropSession_none (w : World) : w.dropSession none = w := rfl

theorem World.dropSession_same (w : World) (sessionId : Option String) :
    (w.dropSession sessionId).now = w.now ∧ (w.dropSession sessionId).cached = w.cached := by
  unfold dropSession
  cases sessionId with
  | none => exact ⟨rfl, rfl⟩
  | some id => exact ⟨rfl, rfl⟩

/-- The entry is there up to its end, and nothing else about the blacklist changes. -/
theorem World.blacklisted_blacklistJti (w : World) (jti other : String) (d t : Nat) :
    Blacklisted ((w.blacklistJti jti d).atTime t) other ↔
      if other = jti then t < d else Blacklisted (w.atTime t) other := by
  unfold Blacklisted blacklistJti
  simp only [atTime, setCached_self]
  split_ifs with hkey
  · subst hkey
    rw [Store.get_eq_some]
    simp [Timed.alive]
  · rw [Store.get_set_ne hkey]

theorem alone_dropRefreshToken (body : Option String) (w : World) :
    alone .calm (dropRefreshToken body) w = (.ok (), w.dropRefresh body) := by
  unfold dropRefreshToken World.dropRefresh
  cases body.filter fun token => token ≠ "" with
  | none => rfl
  | some token => rfl

theorem alone_logout (auth : AuthService) (user : AuthUser) (body : Option String)
    (w : World) :
    alone .calm (logout auth user body) w =
      match blacklistEnd auth w.now with
      | none => (.error (invalidExpire "set").toApi, w.dropRefresh body)
      | some d => (.ok loggedOut,
          ((w.dropRefresh body).blacklistJti user.jti d).dropSession user.sessionId) := by
  have hnow := (w.dropRefresh_same body).1
  unfold logout
  rw [alone_bind, alone_dropRefreshToken]
  dsimp only
  rw [alone_bind, alone_cacheSet_blacklist, hnow]
  cases blacklistEnd auth w.now with
  | none => rfl
  | some d =>
      dsimp only
      rw [alone_bind, alone_destroyOwnSession]
      rfl

/-- The two deletions of `delete_account`. -/
def World.dropUser (w : World) (userId : Uuid) : World :=
  ((w.deleteNotes userId).deleteUser userId).2

theorem alone_deleteAccount (auth : AuthService) (user : AuthUser) (w : World) :
    (alone .calm (deleteAccount auth user) w).2 =
      match blacklistEnd auth w.now with
      | none => w
      | some d => ((w.blacklistJti user.jti d).dropSession user.sessionId).dropUser user.userId := by
  unfold deleteAccount
  rw [alone_bind, alone_cacheSet_blacklist]
  cases blacklistEnd auth w.now with
  | none => rfl
  | some d =>
      dsimp only
      rw [alone_bind, alone_destroyOwnSession]
      dsimp only
      generalize (w.blacklistJti user.jti d).dropSession user.sessionId = v
      have hnotes : alone .calm (queryOr "Failed to delete account data"
          (ask (.deleteNotes user.userId))) v = (.ok (), v.deleteNotes user.userId) := rfl
      have huser : alone .calm (queryOr "Failed to delete account"
          (ask (.deleteUser user.userId))) (v.deleteNotes user.userId)
        = (.ok ((v.deleteNotes user.userId).deleteUser user.userId).1,
            v.dropUser user.userId) := rfl
      rw [alone_bind, hnotes]
      dsimp only
      rw [alone_bind, huser]
      dsimp only
      rw [alone_bind, alone_except]
      unfold failIf
      split_ifs <;> rfl

/-! ## The lifetime of a blacklist entry -/

/-- The token is accepted at this moment, the blacklist aside. -/
def Accepted (auth : AuthService) (token : String) (w : World) : Prop :=
  ∃ claims, (alone .calm (validateToken auth token) w).1 = .ok claims

/-- From now on the entry under this JTI is there whenever the token is accepted,
and no request is authenticated by the token, though its cookie may count. -/
def StaysLoggedOut (auth : AuthService) (token jti : String) (w : World) : Prop :=
  ∀ t, w.now ≤ t →
    (Accepted auth token (w.atTime t) → Blacklisted (w.atTime t) jti) ∧
    ∀ req user, bearerToken req.headers = some token →
      ((w.atTime t).perform (authMiddleware auth req)).1 = .next (some user) →
        user.sessionId.isSome

theorem createToken_decode {auth : AuthService} (hround : auth.RoundTrip) {w : World}
    {e : Choice} {userId : Uuid} {email : String} {name : Option String}
    {provider token : String}
    (h : (alone e (createToken auth userId email name provider) w).1 = .ok token) :
    auth.decode token
      = .ok (newClaims auth (w.now / 1000) userId email name provider e.token) := by
  unfold alone createToken at h
  rw [Program.runExcept_bind, Program.runExcept_lift] at h
  dsimp only at h
  rw [Program.runExcept_bind, Program.runExcept_lift] at h
  have hclaims : newClaims auth (Program.run (World.exec e) unixTimestampSecs w).1 userId email
      name provider (Program.run (World.exec e) (ask .draw)
        (Program.run (World.exec e) unixTimestampSecs w).2).1
      = newClaims auth (w.now / 1000) userId email name provider e.token := rfl
  dsimp only at h
  rw [hclaims] at h
  cases hencode : auth.encode (newClaims auth (w.now / 1000) userId email name provider
      e.token) with
  | error err =>
      rw [hencode] at h
      cases h
  | ok t =>
      rw [hencode] at h
      obtain rfl := Except.ok.inj h
      exact hround _ _ hencode

theorem accepted_iff {auth : AuthService} {token : String} {claims : Claims} {w : World}
    (hdecode : auth.decode token = .ok claims) (hiss : claims.iss = auth.config.jwtIssuer) :
    Accepted auth token w ↔ w.now / 1000 ≤ claims.exp.toNat + leeway := by
  unfold Accepted
  simp only [alone_validateToken, tokenVerdict_eq_ok]
  constructor
  · rintro ⟨c, hc, hexp, _⟩
    rw [hdecode] at hc
    cases hc
    exact hexp
  · intro hexp
    exact ⟨claims, hdecode, hexp, hiss⟩

/-- A token issued at `before.now` and used at `w.now` for a logout stays logged
out exactly if the entry could be written and the logout came 61 seconds or more
after the issue, in whole seconds of the clock. -/
theorem logout_outlives_iff (auth : AuthService) (hround : auth.RoundTrip)
    (before w : World) (e : Choice) (userId : Uuid) (email : String) (name : Option String)
    (provider token : String) (req : Request) (user : AuthUser) (body : Option String)
    (hissued : (alone e (createToken auth userId email name provider) before).1 = .ok token)
    (hlater : before.now ≤ w.now) (htoken : bearerToken req.headers = some token)
    (haccepted : (w.perform (authMiddleware auth req)).1 = .next (some user))
    (hbearer : user.sessionId = none) :
    StaysLoggedOut auth token user.jti (alone .calm (logout auth user body) w).2 ↔
      0 < auth.config.jwtExpiry ∧
      w.now + 1000 * auth.config.jwtExpiry.toNat < 2 ^ 63 ∧
      before.now / 1000 + 61 ≤ w.now / 1000 := by
  obtain ⟨hcredential, hnot⟩ := attached_iff.mp haccepted
  obtain ⟨token', claims, htoken', hverdict, huser⟩ := credential_bearer hcredential hbearer
  obtain rfl : token = token' := Option.some.inj (htoken.symm.trans htoken')
  obtain ⟨hdecode, hexp, hiss⟩ := tokenVerdict_eq_ok.mp hverdict
  have hclaims := createToken_decode hround hissued
  rw [hdecode] at hclaims
  have hexpiry : claims.exp
      = UInt64.ofNat (before.now / 1000) + auth.config.jwtExpiry := by
    cases hclaims
    rfl
  have hsecs : claims.exp.toNat
      = (before.now / 1000 + auth.config.jwtExpiry.toNat) % 2 ^ 64 := by
    rw [hexpiry, UInt64.toNat_add, UInt64.toNat_ofNat']
    omega
  have hpos : 0 < auth.config.jwtExpiry ↔ 0 < auth.config.jwtExpiry.toNat := by
    rw [UInt64.lt_iff_toNat_lt]
    rfl
  obtain ⟨hnow, hlist⟩ := w.dropRefresh_same body
  have haccept := fun v => accepted_iff (w := v) hdecode hiss
  unfold leeway at haccept
  rw [alone_logout]
  cases hend : blacklistEnd auth w.now with
  | none =>
      -- no entry could be written, and the token is still accepted now
      have hnolist : ¬ Blacklisted ((w.dropRefresh body).atTime w.now) user.jti := by
        unfold Blacklisted World.atTime
        dsimp only
        rw [hlist]
        exact hnot
      constructor
      · intro hout
        exact absurd ((hout w.now hnow.le).1 ((haccept _).mpr hexp)) hnolist
      · rintro ⟨hp, hb, _⟩
        have := deadline_eq_some.mpr ⟨hpos.mp hp, hb, rfl⟩
        unfold blacklistEnd at hend
        rw [hend] at this
        cases this
  | some d =>
      obtain ⟨hp, hb, hd⟩ := deadline_eq_some.mp hend
      rw [Nat.mod_eq_of_lt (by omega)] at hsecs
      dsimp only
      rw [hbearer, World.dropSession_none]
      have hlisted : ∀ t,
          Blacklisted (((w.dropRefresh body).blacklistJti user.jti d).atTime t) user.jti ↔ t < d :=
        fun t => by simpa using (w.dropRefresh body).blacklisted_blacklistJti user.jti user.jti d t
      have hnow' : ((w.dropRefresh body).blacklistJti user.jti d).now = w.now := hnow
      constructor
      · intro hout
        refine ⟨hpos.mpr hp, hb, ?_⟩
        by_contra hearly
        have haccepted : Accepted auth token
            (((w.dropRefresh body).blacklistJti user.jti d).atTime d) :=
          (haccept _).mpr (by simp only [World.atTime]; omega)
        have hgone := (hlisted d).mp ((hout d (by omega)).1 haccepted)
        exact absurd hgone (lt_irrefl d)
      · rintro ⟨_, _, hlong⟩ t ht
        have hcovered : Accepted auth token
            (((w.dropRefresh body).blacklistJti user.jti d).atTime t) →
            Blacklisted (((w.dropRefresh body).blacklistJti user.jti d).atTime t) user.jti := by
          intro haccepted
          have hin := (haccept _).mp haccepted
          simp only [World.atTime] at hin
          exact (hlisted t).mpr (by omega)
        refine ⟨hcovered, fun req' other htoken' hattached => ?_⟩
        by_contra hsession
        rw [Bool.not_eq_true, Option.isSome_eq_false_iff, Option.isNone_iff_eq_none] at hsession
        obtain ⟨hcred, hfree⟩ := attached_iff.mp hattached
        obtain ⟨token', claims', htoken'', hverdict', rfl⟩ := credential_bearer hcred hsession
        obtain rfl : token = token' := Option.some.inj (htoken'.symm.trans htoken'')
        obtain ⟨hdecode', hexp', _⟩ := tokenVerdict_eq_ok.mp hverdict'
        obtain rfl : claims = claims' := Except.ok.inj (hdecode.symm.trans hdecode')
        have hjti : claims.toUser.jti = user.jti := by rw [huser]
        rw [hjti] at hfree
        exact hfree (hcovered ((haccept _).mpr hexp'))

open Sample

/-- A logout 61 seconds after the issue. -/
theorem logout_outlives_iff_late :
    StaysLoggedOut (auth .both) "alice.token" "jti-alice"
        (alone .calm (logout (auth .both) aliceClaims.toUser none) (World.initial 61000 [])).2 ↔
      0 < (config .both).jwtExpiry ∧
        61000 + 1000 * (config .both).jwtExpiry.toNat < 2 ^ 63 ∧
        0 / 1000 + 61 ≤ 61000 / 1000 :=
  logout_outlives_iff (auth .both) (AuthService.ofTokens_roundTrip _ (by decide))
    (World.initial 0 []) (World.initial 61000 []) { Choice.calm with token := "jti-alice" }
    alice "alice@example.com" none "local" "alice.token"
    ⟨.get, "/auth/me", bearer "alice.token"⟩ aliceClaims.toUser none (by decide) (by decide)
    (by decide) (by decide) rfl

/-- A logout one second after the issue: its entry ends at 901 seconds, and the
token is accepted again from then to the end of second 960. -/
theorem logout_early_accepted_again :
    (alone { Choice.calm with token := "jti-alice" }
      (createToken (auth .both) alice "alice@example.com" none "local")
      (World.initial 0 [])).1 = .ok "alice.token" ∧
    ((World.initial 1000 []).perform (authMiddleware (auth .both)
      ⟨.get, "/auth/me", bearer "alice.token"⟩)).1 = .next (some aliceClaims.toUser) ∧
    (alone .calm (logout (auth .both) aliceClaims.toUser none) (World.initial 1000 [])).1
      = .ok loggedOut ∧
    ¬ StaysLoggedOut (auth .both) "alice.token" "jti-alice"
      (alone .calm (logout (auth .both) aliceClaims.toUser none) (World.initial 1000 [])).2 := by
  refine ⟨by decide, by decide, by decide, fun h => ?_⟩
  have hsession := (h 901000 (by decide)).2 ⟨.get, "/auth/me", bearer "alice.token"⟩
    aliceClaims.toUser (by decide) (by decide)
  cases hsession

end FullStackHex
