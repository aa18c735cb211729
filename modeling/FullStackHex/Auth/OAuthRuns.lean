import FullStackHex.Auth.SingleUse
import FullStackHex.Auth.LogoutRuns

/-!
What an OAuth state binds. A redirect stores its provider and its session cookie under a state
that it draws; the callback that takes the state has to come for that provider and from that
session.
-/

namespace FullStackHex

open Concurrent Expiring JsonText

/-! ## What is stored is read back -/

theorem readStored_storedText (value : String) : readStored (storedText value) = .ok value := by
  unfold readStored storedText
  rw [parse_write_string]
  exact congrArg Except.ok String.ofList_toList

/-- An empty session cookie is read as none. -/
theorem parseStoredOAuthState_csrfValue (provider : OAuthProvider) (session : Option String) :
    parseStoredOAuthState (csrfValue provider session)
      = .ok ⟨provider.display, session.filter fun id => id ≠ ""⟩ := by
  have hparse : parse (csrfValue provider session)
      = some (.object [("provider".toList, .string provider.display.toList),
          ("session_id".toList, session.elim .null fun id => .string id.toList)]) := by
    apply parse_write_object (List.cons_ne_nil _ _)
    intro m hm
    rcases List.mem_cons.mp hm with rfl | hm
    · trivial
    · obtain rfl := List.mem_singleton.mp hm
      cases session <;> trivial
  have hprovider : ∀ members : Json, (Json.object
      [("provider".toList, .string provider.display.toList),
        ("session_id".toList, members)]).get "provider" = .string provider.display.toList :=
    fun members => rfl
  have hsession : ∀ members : Json, (Json.object
      [("provider".toList, .string provider.display.toList),
        ("session_id".toList, members)]).get "session_id" = members := fun members => rfl
  unfold parseStoredOAuthState
  simp only [hparse, hprovider, hsession, Json.asStr, String.ofList_toList]
  cases session with
  | none => rfl
  | some id => simp only [Option.elim_some, String.ofList_toList]

/-- The checks of a callback against what a redirect has stored. -/
theorem validateOAuthStateMatch_ok {bound : StoredOAuthState} {provider : String}
    {current : Option String} (h : validateOAuthStateMatch bound provider current = .ok ()) :
    bound.provider = provider ∧ ∀ id, bound.sessionId = some id → current = some id := by
  unfold validateOAuthStateMatch at h
  split_ifs at h with hprovider
  refine ⟨Decidable.not_not.mp hprovider, fun id hid => ?_⟩
  rw [hid] at h
  cases current with
  | none => cases h
  | some other =>
      dsimp only at h
      split_ifs at h with hsame
      rw [hsame]

theorem OAuthProvider.display_inj {p q : OAuthProvider} (h : p.display = q.display) : p = q := by
  cases p <;> cases q <;> first | rfl | exact absurd h (by decide)

/-! ## The way of a callback -/

/-- The command goes to the provider. -/
def Cmd.Exchanges : Cmd → Prop
  | .exchangeCode _ _ => True
  | _ => False

instance : DecidablePred Cmd.Exchanges := by
  intro c
  unfold Cmd.Exchanges
  induction c using Cmd.casesOn <;> infer_instance

section Callback

variable {auth : AuthService} {headers : Headers} {ip provider : String}
  {query : OAuthCallbackQuery}

theorem checkRateLimit_exchanges (key : String) (windowSecs maxRequests : UInt64) :
    (checkRateLimit key windowSecs maxRequests).run.All fun c => ¬ c.Exchanges := by
  refine (counting_checkRateLimit key windowSecs maxRequests).mono fun c hcounting hexchanges => ?_
  cases c with
  | exchangeCode => exact hcounting
  | _ => exact hexchanges

/-- A value that was taken stands in the log. -/
theorem follows_cacheGetDelete {ns : Namespace} {key : String} {value : Option ns.Value}
    {events : List (Event Choice Cmd Reply)}
    (h : (orFail (cacheGetDelete ns key)).run.Follows events (.ret (.ok value))) :
    ∃ l e, (⟨l, e, .getdel ns key, .ok value⟩ : Event Choice Cmd Reply) ∈ events := by
  have hcmd : Program.Follows (.cmd (.getdel ns key) fun r => .ret (r.mapError CacheError.toApi))
      events (.ret (.ok value)) := h
  rcases hcmd.of_cmd with ⟨-, hret⟩ | ⟨l, e, r, tail, rfl, htail⟩
  · cases hret
  · obtain ⟨rfl, hret⟩ := htail.of_ret
    match r with
    | .error err => cases hret
    | .ok taken =>
        obtain rfl : value = taken := Except.ok.inj (Program.ret.inj hret)
        exact ⟨l, e, List.mem_cons_self⟩

/-- A callback that goes to the provider has taken its state, and what was stored under it names
the provider and the session of the callback. -/
theorem oauthCallback_checked {events : List (Event Choice Cmd Reply)}
    {rest : Action (Except ApiError Response)}
    (h : (oauthCallback auth headers ip provider query).run.Follows events rest)
    {ev : Event Choice Cmd Reply} (hev : ev ∈ events) (hexchange : ev.command.Exchanges) :
    ∃ parsed text bound l e, parseProvider provider = .ok parsed ∧
      (⟨l, e, .getdel .oauthCsrf query.state, .ok (some text)⟩ : Event Choice Cmd Reply) ∈ events ∧
      ((readStored text).mapError CacheError.toApi).bind parseStoredOAuthState = .ok bound ∧
      validateOAuthStateMatch bound parsed.display (headers.findCookie "session") = .ok () := by
  unfold oauthCallback at h
  obtain ⟨_, tail, parsed, hevents, hparsed, hlimited, htail⟩ := h.past trivial hev hexchange
  obtain ⟨rfl, hprovider⟩ := hparsed.of_ret
  obtain ⟨limits, taking, _, htaking, -, htaken, hmem⟩ :=
    hlimited.past (checkRateLimit_exchanges _ _ _) htail hexchange
  obtain ⟨take, checking, taken, hchecking, htake, hchecked, hmem⟩ :=
    htaken.past (Program.All.adapt ⟨id, fun _ => trivial⟩) hmem hexchange
  obtain ⟨l, e, htaken⟩ := follows_cacheGetDelete htake
  cases taken with
  | none => exact absurd hmem (hchecked.of_ret.1 ▸ List.not_mem_nil)
  | some text =>
      obtain ⟨_, matching, value, hmatching, hread, hparse, hmem⟩ :=
        hchecked.past trivial hmem hexchange
      obtain ⟨_, exchanging, bound, hexchanging, hbound, hmatch, hmem⟩ :=
        hparse.past trivial hmem hexchange
      obtain ⟨_, _, _, _, hmatches, -⟩ := hmatch.past trivial hmem hexchange
      have hvalue : (readStored text).mapError CacheError.toApi = .ok value :=
        (Program.ret.inj hread.of_ret.2).symm
      have hstored := Program.ret.inj hbound.of_ret.2
      refine ⟨parsed, text, bound, l, e, (Program.ret.inj hprovider).symm, ?_, ?_,
        (Program.ret.inj hmatches.of_ret.2).symm⟩
      · rw [hevents, htaking, hchecking]
        exact List.mem_append_right _ (List.mem_append_right _ (List.mem_append_left _ htaken))
      · rw [hvalue]
        exact hstored.symm

end Callback

/-! ## What every run keeps -/

/-- The callback of task `i` has passed its checks: it goes on to the provider. -/
def Passes (cfg : Config Call Cmd Reply State Outcome) (i : Nat) (headers : Headers)
    (provider state : String) : Prop :=
  ∃ t ip query, cfg.tasks[i]? = some t ∧ t.call = .oauthCallback headers ip provider query ∧
    query.state = state ∧ ((∃ ev ∈ cfg.shared.eventsOf i, ev.command.Exchanges) ∨
      ∃ name code next, t.program = .cmd (.exchangeCode name code) next)

/-- Task `i` is a redirect that has issued the state. -/
def Redirects (cfg : Config Call Cmd Reply State Outcome) (i : Nat) (headers : Headers)
    (provider state : String) : Prop :=
  ∃ t, cfg.tasks[i]? = some t ∧ t.call = .oauthRedirect headers provider ∧
    Did (issues .oauthCsrf state) i cfg.shared

section Runs

variable {auth : AuthService} {i j : Nat} {headers headers' : Headers}
  {provider provider' state : String} {cfg : Config Call Cmd Reply State Outcome}

/-- What a call may store under an OAuth state. -/
def Call.StoresState (k : Call) (c : Cmd) : Prop :=
  ∀ value ttl, c = .setFresh .oauthCsrf value ttl → ∃ headers provider parsed,
    k = .oauthRedirect headers provider ∧ parseProvider provider = .ok parsed ∧
      value = storedText (csrfValue parsed (headers.findCookie "session"))

theorem storesState_call (k : Call) : (k.body auth).All k.StoresState := by
  have hanswered : ∀ {p : Handler}, p.run.All (Cmd.Granting auth) →
      (p.run.bind fun r => .ret (Outcome.answered r)).All k.StoresState := by
    refine fun h => Program.All.bind (h.mono ?_) fun _ => trivial
    rintro _ hgranting value ttl rfl
    rcases hgranting with hns | hns <;> cases hns
  have hsteady : ∀ {p : Action Outcome}, p.All (Cmd.Steady auth) → p.All k.StoresState := by
    refine fun h => h.mono ?_
    rintro _ hc value ttl rfl
    cases hc
  cases k with
  | pass ms => exact hsteady ⟨trivial, fun _ => trivial⟩
  | lookup id => exact hsteady (Program.All.bind (steady_sessionGet id) fun _ => trivial)
  | register ip body => exact hanswered (granting_register auth ip body)
  | login ip body => exact hanswered (granting_login auth ip body)
  | forgotPassword ip email => exact hanswered (granting_forgotPassword auth ip email)
  | resetPassword body =>
      exact hsteady (Program.All.bind ((steady_resetPassword auth body).mono fun _ h => h.1)
        fun _ => trivial)
  | refresh headers body => exact hanswered (granting_refresh headers body)
  | oauthRedirect headers provider =>
      refine Program.All.bind ((oauthRedirect_all auth headers provider).mono ?_) fun _ => trivial
      rintro _ ⟨parsed, hparsed, rfl⟩ value ttl hstores
      injection hstores with _ hvalue
      exact ⟨headers, provider, parsed, rfl, hparsed, hvalue.symm⟩
  | oauthCallback headers ip provider query =>
      exact hanswered (granting_oauthCallback auth headers ip provider query)
  | me req => exact hsteady (steady_behindAuth req me fun user => trivial)
  | logout req body => exact hsteady (steady_behindAuth req _ fun user => plain_logout auth user body)
  | deleteAccount req =>
      exact hsteady (steady_behindAuth req _ fun user => plain_deleteAccount auth user)

/-- A callback that passes has taken what its state bound. -/
theorem Passes.taken {init : State → Prop} {ok : Condition Choice Call Cmd State}
    (hpasses : Passes cfg i headers provider state) (h : Reach (api auth) init ok cfg)
    (hinit : ∀ s, init s → s.log = []) :
    ∃ parsed text bound e, parseProvider provider = .ok parsed ∧
      (⟨i, e, .getdel .oauthCsrf state, .ok (some text)⟩ : Event Choice Cmd Reply)
        ∈ cfg.shared.log ∧
      ((readStored text).mapError CacheError.toApi).bind parseStoredOAuthState = .ok bound ∧
      validateOAuthStateMatch bound parsed.display (headers.findCookie "session") = .ok () := by
  obtain ⟨t, ip, query, ht, hcall, rfl, hexchanges⟩ := hpasses
  have hfollows := h.follows rfl hinit ht
  rw [hcall] at hfollows
  -- the exchange is made already, or is the next command
  obtain ⟨events, rest, hbody, ⟨ev, hev, hexchange⟩, hevents⟩ : ∃ events rest,
      ((Call.oauthCallback headers ip provider query).body auth).Follows events rest ∧
      (∃ ev ∈ events, ev.command.Exchanges) ∧
      ∀ ev ∈ events, ¬ ev.command.Exchanges → ev ∈ cfg.shared.eventsOf i := by
    rcases hexchanges with hmade | ⟨name, code, next, hnext⟩
    · exact ⟨_, _, hfollows, hmade, fun ev hev _ => hev⟩
    · rw [hnext] at hfollows
      refine ⟨_, _, hfollows.snoc i .calm none, ⟨_, List.mem_concat_self, trivial⟩, ?_⟩
      intro ev hev hother
      rcases List.mem_append.mp hev with hev | hev
      · exact hev
      · obtain rfl := List.mem_singleton.mp hev
        exact absurd trivial hother
  have hhandler : ∃ rest, (oauthCallback auth headers ip provider query).run.Follows events rest := by
    rcases hbody.of_bind with ⟨rest, hrest, -⟩ | ⟨before, later, b, rfl, hbefore, hlater⟩
    · exact ⟨rest, hrest⟩
    · obtain ⟨rfl, -⟩ := hlater.of_ret
      exact ⟨_, (List.append_nil before).symm ▸ hbefore⟩
  obtain ⟨rest, hrest⟩ := hhandler
  obtain ⟨parsed, text, bound, l, e, hparsed, htaken, hbound, hmatch⟩ :=
    oauthCallback_checked hrest hev hexchange
  obtain ⟨hlog, rfl⟩ := Recorded.mem_eventsOf.mp (hevents _ htaken id)
  exact ⟨parsed, text, bound, e, hparsed, hlog, hbound, hmatch⟩

/-- What is bound to a state was bound by the redirect that has issued it. -/
theorem stored_by_redirect
    (h : Reach (api auth) (Unstored .oauthCsrf) (NeverReissues .oauthCsrf) cfg) {text : String}
    (hstored : Stored .oauthCsrf cfg.shared state text) :
    ∃ j headers provider parsed, Redirects cfg j headers provider state ∧
      parseProvider provider = .ok parsed ∧
      text = storedText (csrfValue parsed (headers.findCookie "session")) := by
  obtain ⟨ev, hmem, hissues, ttl, hcommand⟩ := hstored.issues
  have hlt := (h.chronicled rfl fun s hs => hs.1).task ev hmem
  have htask := List.getElem?_eq_getElem hlt
  have hcall := (h.issued rfl (fun s hs => hs.1) storesState_call).2 ev hmem _ htask
  obtain ⟨headers, provider, parsed, hredirect, hparsed, htext⟩ := hcall text ttl hcommand
  exact ⟨ev.task, headers, provider, parsed, ⟨_, htask, hredirect, ev, hmem, rfl, hissues⟩,
    hparsed, htext⟩

/-- The state of a callback that passes was issued for its provider and its session. -/
theorem Passes.bound (hpasses : Passes cfg i headers provider state)
    (h : Reach (api auth) (Unstored .oauthCsrf) (NeverReissues .oauthCsrf) cfg) :
    ∃ j headers' provider' parsed, Redirects cfg j headers' provider' state ∧
      parseProvider provider = .ok parsed ∧ parseProvider provider' = .ok parsed ∧
      ∀ id, headers'.findCookie "session" = some id → id ≠ "" →
        headers.findCookie "session" = some id := by
  obtain ⟨parsed, text, bound, e, hparsed, htaken, hbound, hmatch⟩ :=
    hpasses.taken h fun s hs => hs.1
  have hstored := (reach_singleUse (by decide) h).given i e state text htaken
  obtain ⟨j, headers', provider', parsed', hredirects, hparsed', rfl⟩ :=
    stored_by_redirect h hstored
  have hread : parseStoredOAuthState (csrfValue parsed' (headers'.findCookie "session"))
      = .ok bound := by
    simpa only [readStored_storedText, Except.mapError, Except.bind] using hbound
  obtain ⟨hprovider, hsession⟩ := validateOAuthStateMatch_ok hmatch
  obtain rfl := Except.ok.inj ((parseStoredOAuthState_csrfValue _ _).symm.trans hread)
  obtain rfl := OAuthProvider.display_inj hprovider
  refine ⟨j, headers', provider', parsed', hredirects, hparsed, hparsed', fun id hid hne => ?_⟩
  apply hsession id
  rw [hid]
  exact if_pos (decide_eq_true hne)

/-- One redirect issues a state. -/
theorem Redirects.unique (hfirst : Redirects cfg i headers provider state)
    (hsecond : Redirects cfg j headers' provider' state)
    (h : Reach (api auth) (Unstored .oauthCsrf) (NeverReissues .oauthCsrf) cfg) :
    headers = headers' ∧ provider = provider' := by
  obtain ⟨t, ht, hcall, hissues⟩ := hfirst
  obtain ⟨t', ht', hcall', hissues'⟩ := hsecond
  obtain rfl := (reach_singleUse (by decide) h).sole state i j hissues hissues'
  obtain rfl := Option.some.inj (ht.symm.trans ht')
  rw [hcall] at hcall'
  exact Call.oauthRedirect.inj hcall'

end Runs

/-- In every run of any number of requests, whatever commands fail: one callback at most passes
with a state, some redirect has issued the state, and whichever has was for the provider of the
callback and, if it came with a session, from the session of the callback. What a redirect stores
is read back, an empty session cookie as none. -/
theorem oauth_states_bound (auth : AuthService) {cfg : Config Call Cmd Reply State Outcome}
    (h : Reach (api auth) (Unstored .oauthCsrf) (NeverReissues .oauthCsrf) cfg) :
    (∀ i j headers headers' provider provider' state, Passes cfg i headers provider state →
      Passes cfg j headers' provider' state → i = j) ∧
    (∀ i headers provider state, Passes cfg i headers provider state →
      (∃ j headers' provider', Redirects cfg j headers' provider' state) ∧
      ∀ j headers' provider', Redirects cfg j headers' provider' state →
        (∃ parsed, parseProvider provider = .ok parsed ∧ parseProvider provider' = .ok parsed) ∧
        ∀ id, headers'.findCookie "session" = some id → id ≠ "" →
          headers.findCookie "session" = some id) ∧
    ∀ provider session,
      readStored (storedText (csrfValue provider session)) = .ok (csrfValue provider session) ∧
      parseStoredOAuthState (csrfValue provider session)
        = .ok ⟨provider.display, session.filter fun id => id ≠ ""⟩ := by
  refine ⟨?_, ?_, fun provider session =>
    ⟨readStored_storedText _, parseStoredOAuthState_csrfValue provider session⟩⟩
  · intro i j headers headers' provider provider' state hi hj
    obtain ⟨_, text, _, e, -, htaken, -⟩ := hi.taken h fun s hs => hs.1
    obtain ⟨_, text', _, e', -, htaken', -⟩ := hj.taken h fun s hs => hs.1
    exact (reach_singleUse (by decide) h).lone state i j
      ⟨_, htaken, rfl, takes_iff.mpr ⟨i, e, text, rfl⟩⟩
      ⟨_, htaken', rfl, takes_iff.mpr ⟨j, e', text', rfl⟩⟩
  · intro i headers provider state hpasses
    obtain ⟨l, headers₀, provider₀, parsed, hredirects, hparsed, hparsed₀, hsession⟩ :=
      hpasses.bound h
    refine ⟨⟨l, headers₀, provider₀, hredirects⟩, fun j headers' provider' hissued => ?_⟩
    obtain ⟨rfl, rfl⟩ := hredirects.unique hissued h
    exact ⟨⟨parsed, hparsed, hparsed₀⟩, hsession⟩

namespace Sample

/-- OAuth is configured. -/
def federated : AuthService :=
  { renewing with
    config := { renewing.config with oauthRedirectUrl := some "https://app" }
    oauthConfigured := fun _ => true }

/-- A redirect, and two callbacks with its state: the second comes while the first has passed
its checks and not yet asked the provider. -/
def twoCallbacks : List (Label Choice Call) :=
  [.start (.oauthRedirect (cookies "session=s-1") "google"), .step 0 (drawing "state-1"),
    .start (.oauthCallback (cookies "session=s-1") "ip" "google" ⟨"code", "state-1"⟩),
    .start (.oauthCallback (cookies "session=s-1") "ip" "google" ⟨"code", "state-1"⟩),
    .step 1 .calm, .step 1 .calm, .step 2 .calm, .step 2 .calm, .step 1 .calm, .step 2 .calm,
    .step 1 .calm]

end Sample

open Sample

/-- Only the first of two callbacks with one state passes. -/
theorem oauth_states_bound_raced : ∃ cfg : Config Call Cmd Reply State Outcome,
    Redirects cfg 0 (cookies "session=s-1") "google" "state-1" ∧
    Passes cfg 1 (cookies "session=s-1") "google" "state-1" ∧
    ∀ i headers provider, Passes cfg i headers provider "state-1" → i = 1 := by
  have hrun : (((Config.initial (State.initial 0 [])).followIf (api federated)
      (NeverReissues .oauthCsrf) twoCallbacks).filter fun cfg =>
        Did (issues .oauthCsrf "state-1") 0 cfg.shared ∧
          ∃ ev ∈ cfg.shared.eventsOf 1, ev.command.Exchanges).map
        (fun cfg => cfg.tasks.map Task.call)
      = some [.oauthRedirect (cookies "session=s-1") "google",
          .oauthCallback (cookies "session=s-1") "ip" "google" ⟨"code", "state-1"⟩,
          .oauthCallback (cookies "session=s-1") "ip" "google" ⟨"code", "state-1"⟩] := by
    decide
  obtain ⟨cfg, hfilter, hcalls⟩ := Option.map_eq_some_iff.mp hrun
  obtain ⟨hfollow, hdid⟩ := Option.filter_eq_some_iff.mp hfilter
  obtain ⟨hissued, hexchanged⟩ := of_decide_eq_true hdid
  have hreach : Reach (api federated) (Unstored .oauthCsrf) (NeverReissues .oauthCsrf) cfg :=
    .of_followIf (.initial ⟨rfl, rfl⟩) hfollow
  have htask : ∀ (i : Nat) (k : Call), (cfg.tasks.map Task.call)[i]? = some k →
      ∃ t : Task Call Cmd Reply State Outcome, cfg.tasks[i]? = some t ∧ t.call = k := by
    intro i k hk
    rw [List.getElem?_map] at hk
    exact Option.map_eq_some_iff.mp hk
  obtain ⟨t, ht, htcall⟩ := htask 0 _ (by rw [hcalls]; rfl)
  obtain ⟨u, hu, hucall⟩ := htask 1 _ (by rw [hcalls]; rfl)
  have hpasses : Passes cfg 1 (cookies "session=s-1") "google" "state-1" :=
    ⟨u, "ip", _, hu, hucall, rfl, .inl hexchanged⟩
  exact ⟨cfg, ⟨t, ht, htcall, hissued⟩, hpasses, fun i headers provider hi =>
    (oauth_states_bound federated hreach).1 i 1 _ _ _ _ _ hi hpasses⟩

/-- An empty session cookie is not read back. -/
theorem empty_session_not_recovered : ¬ ∀ provider session value,
    readStored (storedText (csrfValue provider session)) = .ok value →
      parseStoredOAuthState value = .ok ⟨provider.display, session⟩ := by
  intro h
  have hread := h .google (some "") _ (readStored_storedText _)
  rw [parseStoredOAuthState_csrfValue] at hread
  exact absurd hread (by decide)

end FullStackHex
