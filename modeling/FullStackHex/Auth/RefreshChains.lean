import FullStackHex.Auth.LogoutRuns
import FullStackHex.Auth.SingleUse

/-!
Chains of refresh tokens. A refresh takes the token that it is given from Redis and later stores
a new one; whatever fails in between, and however requests race, a token is taken once and a
chain has one end.
-/

namespace FullStackHex

open Concurrent Expiring

/-- A request has taken the one token and has issued the other. -/
def Succeeds (s : State) (token next : String) : Prop :=
  ∃ i, Did (takes .refresh token) i s ∧ Did (issues .refresh next) i s

/-- The token was issued by task `i`, or descends by refreshes from one that was. -/
def Descends (s : State) (i : Nat) (token : String) : Prop :=
  ∃ first, Did (issues .refresh first) i s ∧ Relation.ReflTransGen (Succeeds s) first token

section Chains

variable {auth : AuthService} {i : Nat} {s : State} {token : String}
  {cfg : Config Call Cmd Reply State Outcome}

/-- What a refresh does once it has asked for its token. -/
def refreshWith (auth : AuthService) : Except CacheError (Option Uuid) → Action Outcome
  | .error err => .ret (.answered (.error err.toApi))
  | .ok none =>
      .ret (.answered (.error (.unauthorized "Invalid or expired refresh token")))
  | .ok (some userId) => (refreshUser auth userId).run.bind fun r => .ret (.answered r)

theorem body_refresh {headers : Headers} {body : Option String}
    (h : presentedRefreshToken headers body = some token) :
    (Call.refresh headers body).body auth = .cmd (.getdel .refresh token) (refreshWith auth) := by
  change (FullStackHex.refresh auth headers body).run.bind _ = _
  unfold FullStackHex.refresh
  rw [h]
  refine congrArg (Program.cmd (R := Reply) (Cmd.getdel .refresh token)) (funext fun r => ?_)
  match r with
  | .error err => rfl
  | .ok none => rfl
  | .ok (some userId) => rfl

/-- Task `i` has taken the token, which was the user's. -/
def Redeems (s : State) (i : Nat) (token : String) (owner : Uuid) : Prop :=
  ∃ e, (⟨i, e, .getdel .refresh token, .ok (some owner)⟩ : Event Choice Cmd Reply) ∈ s.log

theorem Redeems.takes {owner : Uuid} (h : Redeems s i token owner) :
    Did (takes .refresh token) i s := by
  obtain ⟨e, hmem⟩ := h
  exact ⟨_, hmem, rfl, takes_iff.mpr ⟨i, e, owner, rfl⟩⟩

/-- A refresh that succeeds has taken the token that it was given. -/
theorem redeems_of_refreshed {init : State → Prop} {ok : Condition Choice Call Cmd State}
    (h : Reach (api auth) init ok cfg) (hinit : ∀ s, init s → s.log = [])
    {t : Task Call Cmd Reply State Outcome} {headers : Headers} {body : Option String}
    {response : Response} (ht : cfg.Returned i t (.answered (.ok response)))
    (hcall : t.call = .refresh headers body) :
    ∃ token owner, presentedRefreshToken headers body = some token ∧
      Redeems cfg.shared i token owner := by
  have hfollows := h.follows rfl hinit ht.1
  rw [ht.2, hcall] at hfollows
  cases hpresented : presentedRefreshToken headers body with
  | none =>
      have hbody : (api auth).body (.refresh headers body) = .ret (.answered
          (.error (.unauthorized "Invalid or expired refresh token"))) := by
        change (FullStackHex.refresh auth headers body).run.bind _ = _
        unfold FullStackHex.refresh
        rw [hpresented]
        rfl
      rw [hbody] at hfollows
      cases hfollows.of_ret.2
  | some token =>
      have hbody : (api auth).body (.refresh headers body)
          = .cmd (.getdel .refresh token) (refreshWith auth) := body_refresh hpresented
      rw [hbody] at hfollows
      rcases hfollows.of_cmd with ⟨-, hret⟩ | ⟨l, e, r, rest, hevents, hrest⟩
      · cases hret
      · have hmem : (⟨l, e, .getdel .refresh token, r⟩ : Event Choice Cmd Reply)
            ∈ cfg.shared.eventsOf i := by
          rw [hevents]
          exact List.mem_cons_self
        obtain ⟨hlog, rfl⟩ := Recorded.mem_eventsOf.mp hmem
        match r with
        | .error err => cases hrest.of_ret.2
        | .ok none => cases hrest.of_ret.2
        | .ok (some owner) => exact ⟨token, owner, rfl, e, hlog⟩

/-- A token has one successor at most. -/
theorem succeeds_unique (h : Reach (api auth) (Unstored .refresh) NeverRepeats cfg) :
    Relator.RightUnique (Succeeds cfg.shared) := by
  rintro token next next' ⟨i, htakes, hissues⟩ ⟨j, htakes', hissues'⟩
  obtain rfl := (reach_singleUse (by decide) (reach_neverReissues h)).lone token i j htakes htakes'
  exact issues_once h hissues hissues'

/-- A token that has a successor is gone. -/
theorem SingleUse.not_live_of_succeeds (h : SingleUse .refresh s) {token next : String}
    (hsucceeds : Succeeds s token next) : ¬ Live .refresh s token := by
  obtain ⟨i, htakes, -⟩ := hsucceeds
  exact h.gone token i htakes

/-- Of two tokens of a chain the earlier one is gone. -/
theorem SingleUse.eq_of_live (h : SingleUse .refresh s) {token token' : String}
    (hchain : Relation.ReflTransGen (Succeeds s) token token') (hlive : Live .refresh s token) :
    token = token' := by
  rcases hchain.cases_head with heq | ⟨next, hnext, -⟩
  · exact heq
  · exact absurd hlive (h.not_live_of_succeeds hnext)

end Chains

/-- In every run of any number of requests, whatever commands fail: a refresh token is taken by
one request at most, a refresh that succeeds has taken the token that it was given, and at most
one live refresh token descends from what a request has issued. -/
theorem refresh_chains (auth : AuthService) {cfg : Config Call Cmd Reply State Outcome}
    (h : Reach (api auth) (Unstored .refresh) NeverRepeats cfg) :
    (∀ token i j, Did (takes .refresh token) i cfg.shared → Did (takes .refresh token) j cfg.shared → i = j) ∧
    (∀ i t headers body response, cfg.Returned i t (.answered (.ok response)) →
      t.call = .refresh headers body → ∃ token, presentedRefreshToken headers body = some token ∧
        Did (takes .refresh token) i cfg.shared) ∧
    (∀ i token token', Descends cfg.shared i token → Descends cfg.shared i token' →
      Live .refresh cfg.shared token → Live .refresh cfg.shared token' → token = token') := by
  have hsingle : SingleUse .refresh cfg.shared := reach_singleUse (by decide) (reach_neverReissues h)
  refine ⟨hsingle.lone, ?_, ?_⟩
  · intro i t headers body response ht hcall
    obtain ⟨token, owner, hpresented, hredeems⟩ :=
      redeems_of_refreshed h (fun s hs => hs.1) ht hcall
    exact ⟨token, hpresented, hredeems.takes⟩
  · rintro i token token' ⟨first, hfirst, hchain⟩ ⟨first', hfirst', hchain'⟩ hlive hlive'
    obtain rfl := issues_once h hfirst hfirst'
    rcases Relation.ReflTransGen.total_of_right_unique (succeeds_unique h) hchain hchain' with
      hlater | hlater
    · exact hsingle.eq_of_live hlater hlive
    · exact (hsingle.eq_of_live hlater hlive').symm

namespace Sample

/-- A registration, and two refreshes with its token: the second comes while the first has
taken the token and not yet answered. -/
def twoRefreshes : List (Label Choice Call) :=
  [.start (.register "ip" ⟨"alice@example.com", "password", none⟩),
    .step 0 .calm, .step 0 .calm, .step 0 .calm, .step 0 (drawing "salt"),
    .step 0 { Choice.calm with id := alice },
    .step 0 .calm, .step 0 (drawing "jti-alice"), .step 0 (drawing "r-1"),
    .step 0 (drawing "csrf"), .step 0 .calm, .step 0 (drawing "s-1"),
    .start (.refresh (cookies "refresh_token=r-1") none),
    .start (.refresh (cookies "refresh_token=r-1") none),
    .step 1 .calm, .step 2 .calm, .step 1 .calm, .step 1 .calm, .step 1 (drawing "jti-next"),
    .step 1 (drawing "r-2"), .step 1 (drawing "csrf-2")]

end Sample

open Sample

/-- Only the first of two refreshes with one token succeeds. -/
theorem refresh_chains_raced : ∃ cfg : Config Call Cmd Reply State Outcome,
    cfg.summary.tail = [(.refresh (cookies "refresh_token=r-1") none, 12, 20,
        some (.answered (.ok renewed))),
      (.refresh (cookies "refresh_token=r-1") none, 13, 15, some (.answered
        (.error (.unauthorized "Invalid or expired refresh token"))))] ∧
    Did (takes .refresh "r-1") 1 cfg.shared ∧ ∀ i, Did (takes .refresh "r-1") i cfg.shared → i = 1 := by
  have hrun : (((Config.initial (State.initial 0 [])).followIf (api renewing) NeverRepeats
      twoRefreshes).filter fun cfg => Did (takes .refresh "r-1") 1 cfg.shared).map
        (fun cfg => cfg.summary.tail)
      = some [(.refresh (cookies "refresh_token=r-1") none, 12, 20,
          some (.answered (.ok renewed))),
        (.refresh (cookies "refresh_token=r-1") none, 13, 15, some (.answered
          (.error (.unauthorized "Invalid or expired refresh token"))))] := by
    decide
  obtain ⟨cfg, hfilter, hsummary⟩ := Option.map_eq_some_iff.mp hrun
  obtain ⟨hfollow, htook⟩ := Option.filter_eq_some_iff.mp hfilter
  have hreach : Reach (api renewing) (Unstored .refresh) NeverRepeats cfg :=
    .of_followIf (.initial ⟨rfl, rfl⟩) hfollow
  refine ⟨cfg, hsummary, of_decide_eq_true htook, fun i hi => ?_⟩
  exact (refresh_chains renewing hreach).1 "r-1" i 1 hi (of_decide_eq_true htook)

end FullStackHex
