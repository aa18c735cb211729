import FullStackHex.Auth.Browser

/-!
The cookies of an answer that signs in or refreshes, from `auth/src/cookies.rs`, and what a
browser makes of them.
-/

namespace FullStackHex.AuthCookies

/-! ## Cookies of an answer -/

/-- A text of letters, digits and hyphens: a hex string, a UUID. -/
structure PlainText where
  text : String
  plain : text.toList.all (fun c => c.isAlphanum || c == '-') = true
  nonempty : text ≠ ""
  deriving DecidableEq, Repr

/-- The answer to a login, a registration, an OAuth callback or, without a session, a refresh. -/
structure Granted where
  accessToken : String
  refreshToken : String
  csrfToken : PlainText
  session : Option PlainText
  deriving DecidableEq, Repr

structure Lifetimes where
  jwtExpiry : UInt64
  refreshExpiry : UInt64
  secure : Bool

/-- `set_auth_cookies` after the token has been drawn; `register` and `login` set the session
cookie behind it. -/
def authCookies (l : Lifetimes) (g : Granted) : Except ApiError (List String) := do
  let cookies ← setCookie [] "access_token" g.accessToken l.jwtExpiry true l.secure
  let cookies ← setCookie cookies "refresh_token" g.refreshToken l.refreshExpiry true l.secure
  let cookies ← setCookie cookies "csrf_token" g.csrfToken.text l.jwtExpiry false l.secure
  match g.session with
  | some id => setCookie cookies "session" id.text l.jwtExpiry true l.secure
  | none => return cookies

/-! ## What the cookies are read as -/

/-- The text of a cookie, as `set_cookie` builds it. -/
def cookieText (name value : String) (maxAge : UInt64) (httpOnly secure : Bool) : String :=
  name ++ "=" ++ value ++ "; Path=/; Max-Age=" ++ toString maxAge.toNat
    ++ "; SameSite=Lax" ++ (if httpOnly then "; HttpOnly" else "")
    ++ (if secure then "; Secure" else "")

theorem setCookie_eq {cookies cookies' : List String} {name value : String} {maxAge : UInt64}
    {httpOnly secure : Bool}
    (h : setCookie cookies name value maxAge httpOnly secure = .ok cookies') :
    cookies' = cookies ++ [cookieText name value maxAge httpOnly secure] := by
  unfold setCookie at h
  unfold cookieText
  generalize (if httpOnly then "; HttpOnly" else "") = httpOnlyText at h ⊢
  generalize (if secure then "; Secure" else "") = secureText at h ⊢
  dsimp only at h
  split at h
  · exact (Except.ok.inj h).symm
  · cases h

def isTokenChar (c : Char) : Bool := c.isAlphanum || c == '-' || c == '_'

theorem tokenChar_spec {c : Char} (h : isTokenChar c = true) :
    Cookies.cookieChar c = true ∧ c.isWhitespace = false ∧ c ≠ '=' := by
  have hrange : 33 ≤ c.toNat ∧ c.toNat ≤ 126 ∧ c.toNat ≠ 59 ∧ c.toNat ≠ 61 := by
    simp only [isTokenChar, Char.isAlphanum, Char.isAlpha, Char.isUpper, Char.isLower,
      Char.isDigit, Bool.or_eq_true, Bool.and_eq_true, decide_eq_true_eq, beq_iff_eq] at h
    rcases h with ((((h | h) | h) | rfl) | rfl)
    · obtain ⟨hlow, hhigh⟩ := h
      change 65 ≤ c.toNat at hlow
      change c.toNat ≤ 90 at hhigh
      omega
    · obtain ⟨hlow, hhigh⟩ := h
      change 97 ≤ c.toNat at hlow
      change c.toNat ≤ 122 at hhigh
      omega
    · obtain ⟨hlow, hhigh⟩ := h
      change 48 ≤ c.toNat at hlow
      change c.toNat ≤ 57 at hhigh
      omega
    · decide
    · decide
  obtain ⟨hlow, hhigh, hsemicolon, hequals⟩ := hrange
  refine ⟨?_, ?_, ?_⟩
  · have hblank : ' ' ≤ c := by
      change 32 ≤ c.toNat
      omega
    have htilde : c ≤ '~' := hhigh
    have hne : c ≠ ';' := by
      rintro rfl
      exact hsemicolon rfl
    simp [Cookies.cookieChar, hblank, htilde, hne]
  · rw [← Bool.not_eq_true]
    intro hspace
    simp only [Char.isWhitespace, Bool.or_eq_true, decide_eq_true_eq] at hspace
    rcases hspace with ((rfl | rfl) | rfl) | rfl <;> exact absurd hlow (by decide)
  · rintro rfl
    exact hequals rfl

theorem PlainText.tokenChar (t : PlainText) : ∀ c ∈ t.text.toList, isTokenChar c = true := by
  intro c hc
  have hplain := List.all_eq_true.mp t.plain c hc
  unfold isTokenChar
  rw [hplain]
  rfl

theorem PlainText.equals_notMem (t : PlainText) : '=' ∉ t.text.toList := fun hmem =>
  (tokenChar_spec (t.tokenChar _ hmem)).2.2 rfl

theorem PlainText.toList_ne_nil (t : PlainText) : t.text.toList ≠ [] := fun hnil =>
  t.nonempty (String.toList_injective hnil)

theorem PlainText.headerStr (t : PlainText) : headerStr t.text = some t.text.toList := by
  unfold FullStackHex.headerStr
  rw [if_pos]
  apply List.all_eq_true.mpr
  intro c hc
  have hchar := (tokenChar_spec (t.tokenChar c hc)).1
  unfold Cookies.cookieChar at hchar
  unfold isHeaderChar
  rw [(Bool.and_eq_true_iff.mp hchar).1]
  rfl

section Pairs

variable {name value : List Char}

theorem trimBy_token (hname : ∀ c ∈ name, isTokenChar c = true) :
    Codec.trimBy Char.isWhitespace name = name :=
  Codec.trimBy_eq_self fun c hc => (tokenChar_spec (hname c hc)).2.1

theorem legal_token (hname : ∀ c ∈ name, isTokenChar c = true)
    (hvalue : ∀ c ∈ value, isTokenChar c = true) : Cookies.Legal name value where
  plain hmem := (tokenChar_spec (hname _ hmem)).2.2 rfl
  printable := by
    intro c hc
    rcases List.mem_append.mp hc with hc | hc
    · exact (tokenChar_spec (hname c hc)).1
    · rcases List.mem_cons.mp hc with rfl | hc
      · decide
      · exact (tokenChar_spec (hvalue c hc)).1
  trimmed := by
    apply Codec.trimBy_eq_self
    intro c hc
    rcases List.mem_append.mp hc with hc | hc
    · exact (tokenChar_spec (hname c hc)).2.1
    · rcases List.mem_cons.mp hc with rfl | hc
      · decide
      · exact (tokenChar_spec (hvalue c hc)).2.1

end Pairs

/-- What stands behind the `Max-Age` of a cookie. -/
def flagsText (httpOnly secure : Bool) : List Char :=
  " SameSite=Lax".toList ++ (if httpOnly then "; HttpOnly".toList else [])
    ++ (if secure then "; Secure".toList else [])

theorem findSome?_maxAge (maxAge : Nat) (httpOnly secure : Bool) :
    ((" Path=/".toList ++ ';' :: (" Max-Age=".toList ++ Nat.toDigits 10 maxAge
      ++ ';' :: flagsText httpOnly secure)).splitOn ';').reverse.findSome? Cookies.maxAge
        = some maxAge := by
  have hdigits : ';' ∉ " Max-Age=".toList ++ Nat.toDigits 10 maxAge := by
    rw [List.mem_append, not_or]
    refine ⟨by decide, fun hmem => ?_⟩
    have := Nat.isDigit_of_mem_toDigits (by omega) (by omega) hmem
    exact absurd this (by decide)
  have hflags : ((flagsText httpOnly secure).splitOn ';').reverse.findSome? Cookies.maxAge
      = none := by
    cases httpOnly <;> cases secure <;> decide
  rw [List.splitOn_append_cons_self_of_not_mem (by decide),
    List.splitOn_append_cons_self_of_not_mem hdigits, List.reverse_cons, List.reverse_cons,
    List.findSome?_append, List.findSome?_append, hflags, Option.none_or, List.findSome?_singleton,
    Cookies.maxAge_toDigits]
  rfl

/-- The cookie of such a text lives for its `Max-Age`. -/
theorem readSetCookie_cookieText {name : String} (hname : ∀ c ∈ name.toList, isTokenChar c = true)
    (hne : name.toList ≠ []) (value : PlainText) (maxAge : UInt64) (httpOnly secure : Bool)
    (now : Nat) :
    ∃ c, Cookies.readSetCookie now (cookieText name value.text maxAge httpOnly secure).toList
        = some c ∧ c.name = name.toList ∧ c.value = value.text.toList ∧
      c.expires = some (now + 1000 * maxAge.toNat) := by
  have htext : (cookieText name value.text maxAge httpOnly secure).toList
      = Cookies.pairText name.toList value.text.toList ++ ';' :: (" Path=/".toList ++ ';'
        :: (" Max-Age=".toList ++ Nat.toDigits 10 maxAge.toNat
          ++ ';' :: flagsText httpOnly secure)) := by
    have hdigits : (toString maxAge.toNat).toList = Nat.toDigits 10 maxAge.toNat :=
      Nat.toList_repr
    unfold cookieText flagsText Cookies.pairText
    simp only [String.toList_append, hdigits]
    cases httpOnly <;> cases secure <;> simp
  have hread := @Cookies.readSetCookie_pair now name.toList value.text.toList (" Path=/".toList
    ++ ';' :: (" Max-Age=".toList ++ Nat.toDigits 10 maxAge.toNat
      ++ ';' :: flagsText httpOnly secure)) (legal_token hname value.tokenChar) hne
    (trimBy_token hname) (trimBy_token value.tokenChar)
  rw [findSome?_maxAge, ← htext] at hread
  exact ⟨_, hread, rfl, rfl, rfl⟩

/-! ## The jar after an answer -/

abbrev csrfName : List Char := "csrf_token".toList

abbrev sessionName : List Char := "session".toList

theorem receive_concat (jar : Cookies.Jar) (now : Nat) (texts : List String) (text : String) :
    jar.receive now (texts ++ [text]) = (Cookies.readSetCookie now text.toList).elim
      (jar.receive now texts) (jar.receive now texts).store := by
  unfold Cookies.Jar.receive
  rw [List.foldl_append]
  rfl

/-- Every cookie of another name was there before. -/
theorem mem_receive_concat {jar : Cookies.Jar} {now : Nat} {texts : List String} {name value : String}
    {maxAge : UInt64} {httpOnly secure : Bool} {c : Cookies.Cookie} {other : List Char}
    (hplain : '=' ∉ name.toList ∧ ';' ∉ name.toList)
    (htrim : Codec.trimBy Char.isWhitespace name.toList ≠ other)
    (hc : c ∈ jar.receive now (texts ++ [cookieText name value maxAge httpOnly secure]))
    (hother : c.name = other) : c ∈ jar.receive now texts := by
  rw [receive_concat] at hc
  cases hread : Cookies.readSetCookie now
      (cookieText name value maxAge httpOnly secure).toList with
  | none =>
      rw [hread] at hc
      exact hc
  | some new =>
      rw [hread] at hc
      rcases Cookies.Jar.mem_store.mp hc with ⟨hold, -⟩ | rfl
      · exact hold
      · have hrest : ∃ rest, (cookieText name value maxAge httpOnly secure).toList
            = name.toList ++ '=' :: rest := by
          refine ⟨value.toList ++ "; Path=/; Max-Age=".toList ++ (toString maxAge.toNat).toList
            ++ "; SameSite=Lax".toList ++ (if httpOnly then "; HttpOnly" else "").toList
            ++ (if secure then "; Secure" else "").toList, ?_⟩
          unfold cookieText
          simp only [String.toList_append, List.append_assoc]
          rfl
        obtain ⟨rest, hrest⟩ := hrest
        rw [hrest] at hread
        rw [Cookies.readSetCookie_name hplain.1 hplain.2 hread] at hother
        exact absurd hother htrim

/-- Both ways of a cookie that is stored. -/
theorem mem_receive_stored {jar : Cookies.Jar} {now : Nat} {texts : List String} {name : String}
    {value : PlainText} {maxAge : UInt64} {httpOnly secure : Bool}
    (hname : ∀ c ∈ name.toList, isTokenChar c = true) (hne : name.toList ≠ []) :
    ∃ new, new.name = name.toList ∧ new.value = value.text.toList ∧
      new.expires = some (now + 1000 * maxAge.toNat) ∧
      ∀ c, c ∈ jar.receive now (texts ++ [cookieText name value.text maxAge httpOnly secure]) ↔
        c ∈ jar.receive now texts ∧ c.name ≠ name.toList ∨ c = new := by
  obtain ⟨new, hread, hnew, hvalue, hexpires⟩ :=
    readSetCookie_cookieText hname hne value maxAge httpOnly secure now
  refine ⟨new, hnew, hvalue, hexpires, fun c => ?_⟩
  rw [receive_concat, hread, ← hnew]
  exact Cookies.Jar.mem_store

/-- What the cookies of an answer do to a jar. -/
structure Renewed (l : Lifetimes) (g : Granted) (now : Nat) (jar jar' : Cookies.Jar) : Prop where
  present : ∃ c ∈ jar', c.name = csrfName
  token : ∀ c ∈ jar', c.name = csrfName → c.value = g.csrfToken.text.toList ∧
    c.expires = some (now + 1000 * l.jwtExpiry.toNat)
  session : ∀ c ∈ jar', c.name = sessionName →
    c ∈ jar ∨ c.expires = some (now + 1000 * l.jwtExpiry.toNat)

theorem mem_tokens {l : Lifetimes} {g : Granted} {jar : Cookies.Jar} {now : Nat}
    {c : Cookies.Cookie} (hc : c ∈ jar.receive now
      ([] ++ [cookieText "access_token" g.accessToken l.jwtExpiry true l.secure]
        ++ [cookieText "refresh_token" g.refreshToken l.refreshExpiry true l.secure]))
    (hname : c.name = csrfName ∨ c.name = sessionName) : c ∈ jar := by
  have hrefresh : c ∈ jar.receive now
      ([] ++ [cookieText "access_token" g.accessToken l.jwtExpiry true l.secure]) := by
    rcases hname with hname | hname
    · exact mem_receive_concat (by decide) (by decide) hc hname
    · exact mem_receive_concat (by decide) (by decide) hc hname
  rcases hname with hname | hname
  · exact mem_receive_concat (by decide) (by decide) hrefresh hname
  · exact mem_receive_concat (by decide) (by decide) hrefresh hname

theorem renewed_receive {l : Lifetimes} {g : Granted} {cookies : List String}
    (h : authCookies l g = .ok cookies) (jar : Cookies.Jar) (now : Nat) :
    Renewed l g now jar (jar.receive now cookies) := by
  have hcsrf : ∀ c ∈ "csrf_token".toList, isTokenChar c = true := List.all_eq_true.mp (by decide)
  have hsession : ∀ c ∈ "session".toList, isTokenChar c = true := List.all_eq_true.mp (by decide)
  have hne : sessionName ≠ csrfName := by decide
  unfold authCookies at h
  obtain ⟨access, haccess, h⟩ := bind_ok h
  obtain ⟨refresh, hrefresh, h⟩ := bind_ok h
  obtain ⟨csrf, hset, h⟩ := bind_ok h
  obtain rfl := setCookie_eq haccess
  obtain rfl := setCookie_eq hrefresh
  obtain rfl := setCookie_eq hset
  obtain ⟨new, hnew, hvalue, hexpires, hmem⟩ := @mem_receive_stored jar now
    ([] ++ [cookieText "access_token" g.accessToken l.jwtExpiry true l.secure]
      ++ [cookieText "refresh_token" g.refreshToken l.refreshExpiry true l.secure])
    "csrf_token" g.csrfToken l.jwtExpiry false l.secure hcsrf (by decide)
  have htoken : ∀ c, c ∈ jar.receive now
      ([] ++ [cookieText "access_token" g.accessToken l.jwtExpiry true l.secure]
        ++ [cookieText "refresh_token" g.refreshToken l.refreshExpiry true l.secure]
        ++ [cookieText "csrf_token" g.csrfToken.text l.jwtExpiry false l.secure]) →
      c.name = csrfName → c = new := by
    intro c hc hname
    rcases (hmem c).mp hc with ⟨-, hother⟩ | rfl
    · exact absurd hname hother
    · rfl
  have hold : ∀ c, c ∈ jar.receive now
      ([] ++ [cookieText "access_token" g.accessToken l.jwtExpiry true l.secure]
        ++ [cookieText "refresh_token" g.refreshToken l.refreshExpiry true l.secure]
        ++ [cookieText "csrf_token" g.csrfToken.text l.jwtExpiry false l.secure]) →
      c.name = sessionName → c ∈ jar := by
    intro c hc hname
    rcases (hmem c).mp hc with ⟨hc, -⟩ | rfl
    · exact mem_tokens hc (.inr hname)
    · exact absurd (hname.symm.trans hnew) hne
  have hmine := (hmem new).mpr (.inr rfl)
  cases hid : g.session with
  | none =>
      rw [hid] at h
      obtain rfl := Except.ok.inj h
      constructor
      · exact ⟨new, hmine, hnew⟩
      · intro c hc hname
        obtain rfl := htoken c hc hname
        exact ⟨hvalue, hexpires⟩
      · exact fun c hc hname => .inl (hold c hc hname)
  | some id =>
      rw [hid] at h
      obtain rfl := setCookie_eq h
      obtain ⟨new', hnew', -, hexpires', hmem'⟩ := @mem_receive_stored jar now
        ([] ++ [cookieText "access_token" g.accessToken l.jwtExpiry true l.secure]
          ++ [cookieText "refresh_token" g.refreshToken l.refreshExpiry true l.secure]
          ++ [cookieText "csrf_token" g.csrfToken.text l.jwtExpiry false l.secure])
        "session" id l.jwtExpiry true l.secure hsession (by decide)
      constructor
      · refine ⟨new, (hmem' new).mpr (.inl ⟨hmine, ?_⟩), hnew⟩
        exact fun heq => hne (heq.symm.trans hnew)
      · intro c hc hname
        rcases (hmem' c).mp hc with ⟨hc, -⟩ | rfl
        · obtain rfl := htoken c hc hname
          exact ⟨hvalue, hexpires⟩
        · exact absurd (hnew'.symm.trans hname) hne
      · intro c hc hname
        rcases (hmem' c).mp hc with ⟨hc, -⟩ | rfl
        · exact .inl (hold c hc hname)
        · exact .inr hexpires'

end FullStackHex.AuthCookies
