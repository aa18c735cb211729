import FullStackHex.Library.Header

/-!
The address that rate limits and backoff count by, from `auth/src/routes.rs`, behind the
reverse proxy of `compose/nginx/nginx.conf`.
-/

namespace FullStackHex

open Http

/-- `std::net::IpAddr`. -/
inductive IpAddr where
  | v4 (a b c d : UInt8)
  | v6 (segments : Vector UInt16 8)
  deriving DecidableEq, Repr

namespace IpAddr

/-- A run of zero segments: where it starts and how long it is. -/
structure Span where
  start : Nat
  len : Nat
  deriving DecidableEq, Repr

/-- The first of the longest runs of zeros, from position `i` on. -/
def longestZeros (i : Nat) (longest current : Span) : List UInt16 → Span
  | [] => longest
  | segment :: rest =>
      if segment = 0 then
        let current : Span := ⟨if current.len = 0 then i else current.start, current.len + 1⟩
        longestZeros (i + 1) (if longest.len < current.len then current else longest) current rest
      else longestZeros (i + 1) longest ⟨0, 0⟩ rest

def showSegments (segments : List UInt16) : String :=
  ":".intercalate (segments.map fun s => String.ofList (Nat.toDigits 16 s.toNat))

def showV4 (a b c d : UInt8) : String :=
  ".".intercalate ([a, b, c, d].map fun octet => toString octet.toNat)

/-- `Display`: the longest run of at least two zero segments is left out, and an IPv4
address that is mapped into IPv6 is written as one. -/
def toString : IpAddr → String
  | v4 a b c d => showV4 a b c d
  | v6 segments =>
      let list := segments.toList
      if list.take 6 = [0, 0, 0, 0, 0, 0xffff] then
        let octets := (list.drop 6).flatMap fun s => [s.toNat / 256, s.toNat % 256]
        "::ffff:" ++ ".".intercalate (octets.map fun octet => ToString.toString octet)
      else
        let zeros := longestZeros 0 ⟨0, 0⟩ ⟨0, 0⟩ list
        if 1 < zeros.len then
          showSegments (list.take zeros.start) ++ "::"
            ++ showSegments (list.drop (zeros.start + zeros.len))
        else showSegments list

example : (v6 #v[0x2001, 0xdb8, 0, 0, 1, 0, 0, 1]).toString = "2001:db8::1:0:0:1" := by decide

end IpAddr

/-- Loopback, private and link-local addresses. -/
def isProxyPeer : IpAddr → Bool
  | .v4 a b c d =>
      a == 127 || (a == 10 || (a == 172 && 16 ≤ b && b ≤ 31) || (a == 192 && b == 168))
        || (a == 169 && b == 254)
  | .v6 segments =>
      segments == #v[0, 0, 0, 0, 0, 0, 0, 1] || (segments[0] &&& 0xfe00) == 0xfc00
        || (segments[0] &&& 0xffc0) == 0xfe80

def nonEmpty (s : List Char) : Option String := if s = [] then none else some (String.ofList s)

/-- The first entry of `X-Forwarded-For`, else `X-Real-IP`, if not blank. -/
def forwardedIp (headers : Headers) : Option String :=
  (do let v ← headers.get "x-forwarded-for"
      let s ← v.toStr
      nonEmpty (trim (s.toList.takeWhile (· ≠ ',')))) <|>
  (do let v ← headers.get "x-real-ip"
      let s ← v.toStr
      nonEmpty (trim s.toList))

def clientIp (trustProxy : Bool) (headers : Headers) (peer : Option IpAddr) : String :=
  let direct := (peer.map IpAddr.toString).getD "unknown"
  if trustProxy && (peer.map isProxyPeer).getD false then (forwardedIp headers).getD direct
  else direct

/-- What the text of an address is made of. -/
def addressBytes : List UInt8 := bytesOf "0123456789abcdef.:"

/-- `$remote_addr`, the real address of the client as nginx writes it. -/
structure RemoteAddr where
  bytes : List UInt8
  nonempty : bytes ≠ []
  plain : ∀ b ∈ bytes, b ∈ addressBytes

theorem addressBytes_facts : ∀ b ∈ addressBytes,
    visibleByte b = true ∧ charOfByte b ≠ ',' ∧ (charOfByte b).isWhitespace = false := by
  decide +kernel

def RemoteAddr.text (remote : RemoteAddr) : String := textOf remote.bytes

def RemoteAddr.value (remote : RemoteAddr) : HeaderValue :=
  ⟨remote.bytes, fun b hb => legalByte_of_visible (addressBytes_facts b (remote.plain b hb)).1⟩

/-- `$proxy_add_x_forwarded_for`: the values that the client sent, each with a comma and a
blank, and the real address. -/
def proxyAddXForwardedFor (values : List HeaderValue) (remote : RemoteAddr) : HeaderValue where
  bytes := values.flatMap (fun v => v.bytes ++ [44, 32]) ++ remote.bytes
  legal b hb := by
    rcases List.mem_append.mp hb with hb | hb
    · obtain ⟨v, -, hb⟩ := List.mem_flatMap.mp hb
      rcases List.mem_append.mp hb with hb | hb
      · exact v.legal b hb
      · simp only [List.mem_cons, List.not_mem_nil, or_false] at hb
        rcases hb with rfl | rfl <;> decide
    · exact remote.value.legal b hb

/-- The request as nginx passes it on. The other headers it sets are not read here. -/
def proxied (remote : RemoteAddr) (client : Headers) : Headers :=
  (client.filter fun h => h.1 ∉ ["x-real-ip", "x-forwarded-for"]) ++
    [("x-real-ip", remote.value),
      ("x-forwarded-for", proxyAddXForwardedFor (client.getAll "x-forwarded-for") remote)]

/-- The first entry of the header `X-Forwarded-For` that the client itself sent, if it sent
one that can be read to its end and does not begin with a blank entry. -/
def claimedIp (client : Headers) : Option String :=
  let values := client.getAll "x-forwarded-for"
  if values.all HeaderValue.readable then
    values.head?.bind fun v =>
      nonEmpty (trim ((v.bytes.map charOfByte).takeWhile (· ≠ ',')))
  else none

/-- The client puts another address in front of its own. -/
def Spoofs (remote : RemoteAddr) (client : Headers) (address : String) : Prop :=
  claimedIp client = some address ∧ address ≠ remote.text

instance (remote : RemoteAddr) (client : Headers) (address : String) :
    Decidable (Spoofs remote client address) := inferInstanceAs (Decidable (_ ∧ _))

section Proxied

variable (remote : RemoteAddr) (client : Headers)

theorem proxied_forwardedFor : (proxied remote client).get "x-forwarded-for"
    = some (proxyAddXForwardedFor (client.getAll "x-forwarded-for") remote) := by
  unfold proxied Headers.get
  rw [Headers.getAll_append, Headers.getAll_filter_eq_nil (by decide)]
  rfl

theorem proxied_realIp : (proxied remote client).get "x-real-ip" = some remote.value := by
  unfold proxied Headers.get
  rw [Headers.getAll_append, Headers.getAll_filter_eq_nil (by decide)]
  rfl

theorem remote_readable : remote.value.readable = true := by
  unfold HeaderValue.readable
  rw [List.all_eq_true]
  intro b hb
  exact (addressBytes_facts b (remote.plain b hb)).1

/-- The real address is one entry without blanks. -/
theorem remote_entry : nonEmpty (trim (remote.bytes.map charOfByte)) = some remote.text := by
  have hblank : ∀ c ∈ remote.bytes.map charOfByte, c.isWhitespace = false := by
    intro c hc
    obtain ⟨b, hb, rfl⟩ := List.mem_map.mp hc
    exact (addressBytes_facts b (remote.plain b hb)).2.2
  have hne : remote.bytes.map charOfByte ≠ [] := by simpa using remote.nonempty
  rw [trim, Codec.trimBy_eq_self hblank, nonEmpty, if_neg hne]
  rfl

theorem remote_noComma : (remote.bytes.map charOfByte).takeWhile (· ≠ ',')
    = remote.bytes.map charOfByte := by
  rw [List.takeWhile_eq_self_iff]
  intro c hc
  obtain ⟨b, hb, rfl⟩ := List.mem_map.mp hc
  exact decide_eq_true (addressBytes_facts b (remote.plain b hb)).2.1

theorem proxyAdd_readable (values : List HeaderValue) :
    (proxyAddXForwardedFor values remote).readable = values.all HeaderValue.readable := by
  have hremote : remote.bytes.all visibleByte = true := remote_readable remote
  have hcomma : ([44, 32] : List UInt8).all visibleByte = true := by decide
  unfold HeaderValue.readable
  simp only [proxyAddXForwardedFor, List.all_append, List.all_flatMap, hremote, hcomma,
    Bool.and_true]

/-- What stands before the first comma of the header that nginx sends. -/
theorem proxyAdd_entry (v : HeaderValue) (rest : List HeaderValue) :
    ((proxyAddXForwardedFor (v :: rest) remote).bytes.map charOfByte).takeWhile (· ≠ ',')
      = (v.bytes.map charOfByte).takeWhile (· ≠ ',') := by
  have hcomma : charOfByte 44 = ',' := by decide
  simp only [proxyAddXForwardedFor, List.flatMap_cons, List.append_assoc, List.map_append,
    List.map_cons, List.cons_append, hcomma]
  exact Codec.takeWhile_stop _ _ (by decide)

/-- What the service makes of a proxied request: the address that the client claims, else
the real one. -/
theorem forwardedIp_proxied :
    forwardedIp (proxied remote client) = some ((claimedIp client).getD remote.text) := by
  have hreal : nonEmpty (trim (textOf remote.value.bytes).toList) = some remote.text := by
    rw [textOf, String.toList_ofList]
    exact remote_entry remote
  unfold forwardedIp claimedIp
  rw [proxied_forwardedFor, proxied_realIp]
  simp only [Option.bind_eq_bind, Option.bind_some, HeaderValue.toStr, proxyAdd_readable,
    remote_readable, if_true, hreal]
  split
  · simp only [Option.bind_some, textOf, String.toList_ofList]
    cases client.getAll "x-forwarded-for" with
    | nil =>
        have hbytes : (proxyAddXForwardedFor [] remote).bytes = remote.bytes := rfl
        rw [hbytes, remote_noComma, remote_entry]
        rfl
    | cons v rest =>
        rw [proxyAdd_entry]
        simp only [List.head?_cons, Option.bind_some]
        cases nonEmpty (trim ((v.bytes.map charOfByte).takeWhile (· ≠ ','))) <;> rfl
  · rfl

end Proxied

theorem clientIp_proxied {proxy : IpAddr} (h : isProxyPeer proxy = true) (remote : RemoteAddr)
    (client : Headers) : clientIp true (proxied remote client) (some proxy)
      = (claimedIp client).getD remote.text := by
  simp [clientIp, h, forwardedIp_proxied]

theorem clientIp_direct {peer : IpAddr} (h : isProxyPeer peer = false) (trustProxy : Bool)
    (headers : Headers) : clientIp trustProxy headers (some peer) = peer.toString := by
  simp [clientIp, h]

/-- Any printable text without blanks and commas is an address that a client can have. -/
theorem client_chooses {proxy : IpAddr} (h : isProxyPeer proxy = true) (remote : RemoteAddr)
    (v : HeaderValue) (hread : v.readable = true) (hne : v.bytes ≠ [])
    (hplain : ∀ b ∈ v.bytes, charOfByte b ≠ ',' ∧ (charOfByte b).isWhitespace = false) :
    clientIp true (proxied remote [("x-forwarded-for", v)]) (some proxy) = textOf v.bytes := by
  have hchars : ∀ c ∈ v.bytes.map charOfByte, c ≠ ',' ∧ c.isWhitespace = false := by
    intro c hc
    obtain ⟨b, hb, rfl⟩ := List.mem_map.mp hc
    exact hplain b hb
  have hentry : (v.bytes.map charOfByte).takeWhile (· ≠ ',') = v.bytes.map charOfByte :=
    List.takeWhile_eq_self_iff.mpr fun c hc => decide_eq_true (hchars c hc).1
  have hvalues : Headers.getAll [("x-forwarded-for", v)] "x-forwarded-for" = [v] := rfl
  have hclaimed : claimedIp [("x-forwarded-for", v)] = some (textOf v.bytes) := by
    simp only [claimedIp, hvalues, List.all_cons, hread, List.all_nil, Bool.and_self, if_true,
      List.head?_cons, Option.bind_some]
    rw [hentry, trim, Codec.trimBy_eq_self fun c hc => (hchars c hc).2, nonEmpty, if_neg (by simpa using hne)]
    rfl
  rw [clientIp_proxied h, hclaimed]
  rfl

/-- Two claims give one address exactly when the same other address is claimed, or none. -/
theorem getD_eq_iff {α : Type} (a b : Option α) (real : α) :
    a.getD real = b.getD real ↔ ∀ x, (a = some x ∧ x ≠ real) ↔ (b = some x ∧ x ≠ real) := by
  constructor
  · intro h x
    constructor
    · rintro ⟨rfl, hx⟩
      cases b with
      | none => exact absurd h hx
      | some y => exact ⟨congrArg some h.symm, hx⟩
    · rintro ⟨rfl, hx⟩
      cases a with
      | none => exact absurd h.symm hx
      | some y => exact ⟨congrArg some h, hx⟩
  · intro h
    cases a with
    | none =>
        cases b with
        | none => rfl
        | some y =>
            by_contra hne
            exact absurd ((h y).mpr ⟨rfl, fun hy => hne hy.symm⟩).1 (by simp)
    | some x =>
        by_cases hx : x = real
        · subst hx
          cases b with
          | none => rfl
          | some y =>
              by_contra hne
              have hclaim := ((h y).mpr ⟨rfl, fun hy => hne hy.symm⟩).1
              exact hne (Option.some.inj hclaim)
        · rw [((h x).mp ⟨rfl, hx⟩).1]

/-- Behind the proxy two requests of one client count under the same address exactly when they
put the same other address in front, or none. From a public peer, or without the trust in
a proxy, headers decide nothing. -/
theorem clientIp_same_iff (remote : RemoteAddr) (client client' : Headers) (peer : IpAddr) :
    (isProxyPeer peer = true →
      (clientIp true (proxied remote client) (some peer)
          = clientIp true (proxied remote client') (some peer) ↔
        ∀ address, Spoofs remote client address ↔ Spoofs remote client' address)) ∧
    (isProxyPeer peer = false →
      ∀ trustProxy headers, clientIp trustProxy headers (some peer) = peer.toString) ∧
    ∀ headers, clientIp false headers (some peer) = peer.toString := by
  refine ⟨?_, fun h trustProxy headers => clientIp_direct h trustProxy headers, fun headers => rfl⟩
  intro h
  rw [clientIp_proxied h, clientIp_proxied h]
  exact getD_eq_iff _ _ _

/-- The client 203.0.113.9 behind the proxy 172.20.0.2. -/
theorem clientIp_same_sample :
    let remote : RemoteAddr := ⟨bytesOf "203.0.113.9", by decide +kernel, by decide +kernel⟩
    isProxyPeer (.v4 172 20 0 2) = true ∧
      clientIp true (proxied remote []) (some (.v4 172 20 0 2))
        = clientIp true (proxied remote [("x-forwarded-for", ⟨bytesOf " , 1.2.3.4", by decide +kernel⟩)])
          (some (.v4 172 20 0 2)) := by
  refine ⟨by decide +kernel, ((clientIp_same_iff _ _ _ (.v4 172 20 0 2)).1 (by decide +kernel)).mpr ?_⟩
  intro address
  have hnone : claimedIp [("x-forwarded-for", ⟨bytesOf " , 1.2.3.4", by decide +kernel⟩)] = none := by
    decide +kernel
  simp only [Spoofs, hnone]
  rfl

theorem clientIp_spoofed :
    let remote : RemoteAddr := ⟨bytesOf "203.0.113.9", by decide +kernel, by decide +kernel⟩
    isProxyPeer (.v4 172 20 0 2) = true ∧
      clientIp true (proxied remote []) (some (.v4 172 20 0 2)) = "203.0.113.9" ∧
      clientIp true (proxied remote [("x-forwarded-for", ⟨bytesOf "1.2.3.4", by decide +kernel⟩)])
        (some (.v4 172 20 0 2)) = "1.2.3.4" := by
  decide +kernel

end FullStackHex
