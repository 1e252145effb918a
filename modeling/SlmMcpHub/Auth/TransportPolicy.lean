import SlmMcpHub.Library.IpAddress
import SlmMcpHub.Library.Text

/-!
# The transport policy

`is_safe_oauth_metadata_url` in `auth/provider.py`, and the two clients of `auth/broker.py` whose
requests it is meant for. How an address is taken apart, what a text means as an internet address
and what the resolver answers is given.

## Main definitions

* `isSafeOauthMetadataUrl` — the policy
* `Internal` — the addresses that are not to be reached
* `OAuthClient.http` — a client, with the hooks every request of it passes
* `PublicUrl` — where a request may go

## Main results

* `ipIsBlocked_of_internal` — the test of an address covers what is not to be reached
* `guards_iff` — when a request goes nowhere else
-/

namespace SlmMcpHub

namespace OAuth

open IpAddress

/-! ### The policy -/

/-- `urlparse(url)`, as far as the policy reads it. -/
structure ParsedUrl where
  scheme : String
  username : Option String
  password : Option String
  hostname : Option String

/-- What `getaddrinfo` comes to. -/
inductive Resolved where
  /-- The texts of the addresses. -/
  | addresses (sockaddrs : List String)
  /-- `OSError` -/
  | osError
  /-- An exception of another kind. -/
  | raises

/-- The library functions the policy rests on. -/
structure Net where
  lower : String → String
  /-- `urlparse`, which may raise -/
  urlparse : String → Option ParsedUrl
  /-- `ipaddress.ip_address`, which may raise `ValueError` -/
  ipAddress : String → Option IpAddress
  /-- `address.is_private`, of an IPv6 address -/
  isPrivate : BitVec 128 → Bool
  /-- `socket.getaddrinfo` -/
  getaddrinfo : String → Resolved

/-- `_LOOPBACK_HOSTS` -/
def loopbackHosts : List String := ["127.0.0.1", "localhost", "::1", "[::1]"]

/-- `_PRIVATE_NETWORKS_V4` -/
def privateNetworksV4 : List (Network 32) :=
  [⟨dotted 10 0 0 0, 8, by decide⟩, ⟨dotted 172 16 0 0, 12, by decide⟩,
    ⟨dotted 192 168 0 0, 16, by decide⟩, ⟨dotted 169 254 0 0, 16, by decide⟩,
    ⟨dotted 100 64 0 0, 10, by decide⟩, ⟨dotted 127 0 0 0, 8, by decide⟩,
    ⟨dotted 0 0 0 0, 8, by decide⟩]

/-- `_IPV6_ULA` -/
def ipv6Ula : Network 128 := ⟨group 0xfc00, 7, by decide⟩

variable (N : Net)

/-- `_canonical_host` -/
def canonicalHost (hostname : String) : String :=
  let h := Text.strip (N.lower hostname)
  match h.toList with
  | '[' :: rest => if rest.getLast? = some ']' then String.ofList rest.dropLast else h
  | _ => h

/-- `_ip_is_blocked`, of an IPv4 address -/
def ipv4IsBlocked (bits : BitVec 32) : Bool := privateNetworksV4.any (·.contains bits)

/-- `_ip_is_blocked` -/
def ipIsBlocked : IpAddress → Bool
  | .v6 bits =>
    match ipv4Mapped bits with
    | some mapped => ipv4IsBlocked mapped
    | none => isLoopback bits || N.isPrivate bits || linkLocalNetwork.contains bits ||
        multicastNetwork.contains bits || reservedNetworks.any (·.contains bits) ||
        isUnspecified bits || ipv6Ula.contains bits
  | .v4 bits => ipv4IsBlocked bits

/-- `_is_private_network`, unless it raises -/
def isPrivateNetwork (host : String) : Option Bool :=
  match N.ipAddress host with
  | some addr => some (ipIsBlocked N addr)
  | none =>
    match N.getaddrinfo host with
    | .osError => some true
    | .raises => none
    | .addresses sockaddrs => some ((sockaddrs.filterMap N.ipAddress).any (ipIsBlocked N))

/-- `_canonical_host(urlparse(url).hostname or "")`, unless it raises -/
def hostOf (url : String) : Option String :=
  (N.urlparse url).map fun parsed => canonicalHost N (parsed.hostname.getD "")

/-- `parsed.username or parsed.password` -/
def ParsedUrl.hasUserinfo (parsed : ParsedUrl) : Bool :=
  parsed.username.getD "" ≠ "" || parsed.password.getD "" ≠ ""

/-- `is_safe_oauth_metadata_url`, unless it raises -/
def isSafeOauthMetadataUrl (url mcpEndpoint : String) : Option Bool :=
  if url = "" then some false
  else
    match N.urlparse url with
    | none => some false
    | some parsed =>
      let scheme := N.lower parsed.scheme
      if scheme = "" then some false
      else if scheme ≠ "http" ∧ scheme ≠ "https" then some false
      else if parsed.hasUserinfo then some false
      else
        let host := canonicalHost N (parsed.hostname.getD "")
        if host = "" then some false
        else
          let isLoopbackHost := host ∈ loopbackHosts
          if scheme = "http" ∧ ¬ isLoopbackHost then some false
          else if isLoopbackHost then some true
          else do
            if ← isPrivateNetwork N host then
              let mcpHost ← hostOf N mcpEndpoint
              if mcpHost ∉ loopbackHosts then some false else some true
            else some true

/-! ### The clients -/

/-- `httpx2.AsyncClient`: a request, or a redirect, is sent when no hook raises. -/
structure AsyncClient where
  requestHooks : List (String → Bool)

/-- Whether a request is sent. -/
def AsyncClient.sends (client : AsyncClient) (url : String) : Bool :=
  client.requestHooks.all (· url)

/-- `_ssrf_guard`: whether it returns. -/
def ssrfGuard (serverUrl url : String) : Bool := isSafeOauthMetadataUrl N url serverUrl = some true

/-- The clients the hub builds for a server. -/
inductive OAuthClient where
  /-- `build_oauth_http_client` -/
  | runtime
  /-- `run_login_flow` -/
  | login

/-- The client, with its hooks. -/
def OAuthClient.http (serverUrl : String) : OAuthClient → AsyncClient
  | .runtime => { requestHooks := [ssrfGuard N serverUrl] }
  | .login => { requestHooks := [] }

/-! ### Where a request may go -/

/-- The ranges of IPv4 that are not to be reached: private, shared, link-local, loopback and
unspecified addresses. -/
def internalRanges : List (BitVec 32 × BitVec 32) :=
  [(dotted 10 0 0 0, dotted 10 255 255 255), (dotted 172 16 0 0, dotted 172 31 255 255),
    (dotted 192 168 0 0, dotted 192 168 255 255), (dotted 100 64 0 0, dotted 100 127 255 255),
    (dotted 169 254 0 0, dotted 169 254 255 255), (dotted 127 0 0 0, dotted 127 255 255 255),
    (dotted 0 0 0 0, dotted 0 255 255 255)]

/-- An IPv4 address that is not to be reached. -/
def InternalV4 (bits : BitVec 32) : Prop := ∃ range ∈ internalRanges, Between range.1 range.2 bits

/-- An address that is not to be reached: `::1`, `::`, `fe80::/10`, `fc00::/7`, and IPv4 addresses
like that, also inside an IPv6 address. -/
inductive Internal : IpAddress → Prop
  | v4 {bits : BitVec 32} (h : InternalV4 bits) : Internal (.v4 bits)
  | mapped {bits : BitVec 32} (h : InternalV4 bits) : Internal (.v6 (mapped bits))
  | loopback : Internal (.v6 1)
  | unspecified : Internal (.v6 0)
  | linkLocal {bits : BitVec 128} (h : group 0xfe80 ≤ bits) (h' : bits < group 0xfec0) :
      Internal (.v6 bits)
  | uniqueLocal {bits : BitVec 128} (h : group 0xfc00 ≤ bits) (h' : bits < group 0xfe00) :
      Internal (.v6 bits)

/-- The addresses a host stands for: the one it is, or those it resolves to. -/
def addressesOf (host : String) : List IpAddress :=
  match N.ipAddress host with
  | some addr => [addr]
  | none =>
    match N.getaddrinfo host with
    | .addresses sockaddrs => sockaddrs.filterMap N.ipAddress
    | _ => []

/-- A request may go there: the host is no name for the machine itself, and no address of it is
one that is not to be reached. -/
def PublicUrl (url : String) : Prop :=
  ∀ host, hostOf N url = some host →
    host ∉ loopbackHosts ∧ ∀ addr ∈ addressesOf N host, ¬ Internal addr

/-- An address that names the machine itself, of a kind the policy lets through. -/
def NamesLoopback (url : String) : Prop :=
  url ≠ "" ∧ ∃ parsed, N.urlparse url = some parsed ∧
    (N.lower parsed.scheme = "http" ∨ N.lower parsed.scheme = "https") ∧
    parsed.hasUserinfo = false ∧ canonicalHost N (parsed.hostname.getD "") ∈ loopbackHosts

/-! ### Addresses -/

variable {N}

theorem ipv4IsBlocked_of_internal {bits : BitVec 32} (h : InternalV4 bits) :
    ipv4IsBlocked bits = true := by
  obtain ⟨range, hrange, hbetween⟩ := h
  -- Every range is the one of a network on the list.
  have hnets : (internalRanges.all fun range => privateNetworksV4.any fun net =>
      net.address = range.1 ∧
        range.2.toNat < net.address.toNat + 2 ^ (32 - net.prefixLength)) = true := by
    decide
  obtain ⟨net, hmem, hnet⟩ := List.any_eq_true.mp (List.all_eq_true.mp hnets range hrange)
  obtain ⟨haddress, hlast⟩ := decide_eq_true_eq.mp hnet
  rw [ipv4IsBlocked, List.any_eq_true]
  exact ⟨net, hmem, net.contains_of_between (haddress ▸ hbetween) hlast⟩

/-- **The test of an address** covers everything that is not to be reached. -/
theorem ipIsBlocked_of_internal {addr : IpAddress} (h : Internal addr) :
    ipIsBlocked N addr = true := by
  cases h with
  | v4 h => exact ipv4IsBlocked_of_internal h
  | mapped h =>
    rw [ipIsBlocked, ipv4Mapped_mapped]
    exact ipv4IsBlocked_of_internal h
  | loopback =>
    rw [ipIsBlocked, show ipv4Mapped 1 = none by decide]
    simp [isLoopback]
  | unspecified =>
    rw [ipIsBlocked, show ipv4Mapped 0 = none by decide]
    simp [isUnspecified]
  | linkLocal h h' =>
    have hcontains := linkLocalNetwork.contains_iff.mpr ⟨h, h'⟩
    rw [ipIsBlocked, ipv4Mapped_eq_none_of_le (BitVec.le_trans (by decide) h)]
    simp [hcontains]
  | uniqueLocal h h' =>
    have hcontains := ipv6Ula.contains_iff.mpr ⟨h, h'⟩
    rw [ipIsBlocked, ipv4Mapped_eq_none_of_le (BitVec.le_trans (by decide) h)]
    simp [hcontains]

/-- A host that is not refused as private has no address that is blocked. -/
theorem ipIsBlocked_of_not_private {host : String} (h : isPrivateNetwork N host = some false) :
    ∀ addr ∈ addressesOf N host, ipIsBlocked N addr = false := by
  rw [isPrivateNetwork] at h
  rw [addressesOf]
  cases haddr : N.ipAddress host with
  | some addr =>
    rw [haddr] at h
    simpa using h
  | none =>
    rw [haddr] at h
    cases hresolved : N.getaddrinfo host with
    | osError => rw [hresolved] at h; cases h
    | raises => rw [hresolved] at h; cases h
    | addresses sockaddrs =>
      rw [hresolved] at h
      have hany := List.any_eq_false.mp (Option.some.inj h)
      exact fun addr haddr => Bool.eq_false_iff.mpr (hany addr haddr)

/-! ### Requests -/

theorem hostOf_eq {url : String} {parsed : ParsedUrl} (h : N.urlparse url = some parsed) :
    hostOf N url = some (canonicalHost N (parsed.hostname.getD "")) := by
  rw [hostOf, h]
  rfl

/-- What names the machine itself is let through, wherever the server is. -/
theorem isSafe_of_namesLoopback {url mcpEndpoint : String} (h : NamesLoopback N url) :
    isSafeOauthMetadataUrl N url mcpEndpoint = some true := by
  obtain ⟨hne, parsed, hparsed, hscheme, huser, hhost⟩ := h
  have hhostNe : canonicalHost N (parsed.hostname.getD "") ≠ "" := by
    intro hempty
    rw [hempty] at hhost
    revert hhost
    decide
  have hschemeNe : N.lower parsed.scheme ≠ "" := by
    rintro hempty
    rw [hempty] at hscheme
    revert hscheme
    decide
  have hallowed : ¬ (N.lower parsed.scheme ≠ "http" ∧ N.lower parsed.scheme ≠ "https") :=
    fun hnot => hscheme.elim hnot.1 hnot.2
  simp only [isSafeOauthMetadataUrl, if_neg hne, hparsed, if_neg hschemeNe, if_neg hallowed, huser,
    Bool.false_eq_true, if_false, if_neg hhostNe, hhost, not_true_eq_false, and_false, if_true]

/-- A check of the policy that a request passes. -/
theorem passed_of_isSafe {refused : Prop} [Decidable refused] {verdict : Option Bool}
    (h : (if refused then some false else verdict) = some true) :
    ¬ refused ∧ verdict = some true := by
  split at h
  · cases h
  · next hpassed => exact ⟨hpassed, h⟩

/-- What else is let through is public, when the server is not on the machine itself. -/
theorem publicUrl_of_isSafe {url mcpEndpoint : String}
    (hremote : ∀ host, hostOf N mcpEndpoint = some host → host ∉ loopbackHosts)
    (h : isSafeOauthMetadataUrl N url mcpEndpoint = some true) :
    NamesLoopback N url ∨ PublicUrl N url := by
  rw [isSafeOauthMetadataUrl] at h
  obtain ⟨hne, h⟩ := passed_of_isSafe h
  cases hparsed : N.urlparse url with
  | none => rw [hparsed] at h; cases h
  | some parsed =>
    rw [hparsed] at h
    -- The checks that refuse a request are passed one after the other.
    obtain ⟨-, h⟩ := passed_of_isSafe h
    obtain ⟨hscheme, h⟩ := passed_of_isSafe h
    obtain ⟨huser, h⟩ := passed_of_isSafe h
    obtain ⟨-, h⟩ := passed_of_isSafe h
    obtain ⟨-, h⟩ := passed_of_isSafe h
    split at h
    · next hloopback =>
      refine .inl ⟨hne, parsed, hparsed, ?_, by simpa using huser, hloopback⟩
      by_contra hother
      exact hscheme (not_or.mp hother)
    · next hloopback =>
      refine .inr fun host hhostOf => ?_
      obtain rfl := Option.some.inj ((hostOf_eq hparsed).symm.trans hhostOf)
      refine ⟨hloopback, fun addr haddr hinternal => ?_⟩
      cases hprivate : isPrivateNetwork N (canonicalHost N (parsed.hostname.getD "")) with
      | none => rw [hprivate] at h; cases h
      | some isPrivate =>
        cases isPrivate with
        | false =>
          have hblocked := ipIsBlocked_of_not_private hprivate addr haddr
          rw [ipIsBlocked_of_internal hinternal] at hblocked
          cases hblocked
        | true =>
          rw [hprivate] at h
          cases hmcp : hostOf N mcpEndpoint with
          | none => rw [hmcp] at h; cases h
          | some mcpHost =>
            rw [hmcp] at h
            simp [hremote mcpHost hmcp] at h

/-- **A request goes nowhere else** just when it is one of the runtime client that does not name
the machine itself, or goes to a public address of its own accord. -/
theorem guards_iff (N : Net) (serverUrl : String) (client : OAuthClient) (url : String)
    (hremote : ∀ host, hostOf N serverUrl = some host → host ∉ loopbackHosts) :
    ((client.http N serverUrl).sends url = true → PublicUrl N url) ↔
      (client = .runtime ∧ ¬ NamesLoopback N url) ∨ PublicUrl N url := by
  cases client with
  | login =>
    refine ⟨fun h => .inr (h rfl), ?_⟩
    rintro (⟨hruntime, -⟩ | hpublic) -
    · cases hruntime
    · exact hpublic
  | runtime =>
    have hsends : (OAuthClient.runtime.http N serverUrl).sends url = true ↔
        isSafeOauthMetadataUrl N url serverUrl = some true := by
      simp [OAuthClient.http, AsyncClient.sends, ssrfGuard]
    rw [hsends]
    constructor
    · intro h
      by_cases hloopback : NamesLoopback N url
      · exact .inr (h (isSafe_of_namesLoopback hloopback))
      · exact .inl ⟨rfl, hloopback⟩
    · rintro (⟨-, hloopback⟩ | hpublic) hsafe
      · exact (publicUrl_of_isSafe hremote hsafe).resolve_left hloopback
      · exact hpublic

/-- Three addresses in lower case, and what they mean. -/
def someNet : Net where
  lower := id
  urlparse url :=
    if url = "https://mcp.example/mcp" then some ⟨"https", none, none, some "mcp.example"⟩
    else if url = "http://localhost:6379/" then some ⟨"http", none, none, some "localhost"⟩
    else if url = "http://169.254.169.254/" then some ⟨"http", none, none, some "169.254.169.254"⟩
    else none
  ipAddress text :=
    if text = "203.0.113.7" then some (.v4 (dotted 203 0 113 7))
    else if text = "127.0.0.1" then some (.v4 (dotted 127 0 0 1))
    else if text = "169.254.169.254" then some (.v4 (dotted 169 254 169 254))
    else none
  isPrivate _ := false
  getaddrinfo host :=
    if host = "mcp.example" then .addresses ["203.0.113.7"]
    else if host = "localhost" then .addresses ["127.0.0.1"]
    else .osError

theorem hostOf_someNet_server :
    ∀ host, hostOf someNet "https://mcp.example/mcp" = some host → host ∉ loopbackHosts := by
  intro host hhost
  have hserver : hostOf someNet "https://mcp.example/mcp" = some "mcp.example" := by decide +kernel
  obtain rfl := Option.some.inj (hserver.symm.trans hhost)
  decide

/-- The runtime client is let through to the server it is built for. -/
theorem guards_someNet :
    (OAuthClient.runtime.http someNet "https://mcp.example/mcp").sends "https://mcp.example/mcp"
      = true ∧ PublicUrl someNet "https://mcp.example/mcp" := by
  have hsends : (OAuthClient.runtime.http someNet "https://mcp.example/mcp").sends
      "https://mcp.example/mcp" = true := by
    decide +kernel
  refine ⟨hsends, (guards_iff someNet "https://mcp.example/mcp" .runtime "https://mcp.example/mcp"
    hostOf_someNet_server).mpr (.inl ⟨rfl, ?_⟩) hsends⟩
  rintro ⟨-, parsed, hparsed, -, -, hhost⟩
  exact hostOf_someNet_server _ (hostOf_eq hparsed) hhost

/-- The runtime client is sent to the machine itself, and the login client to a link-local
address. -/
theorem not_guards :
    (∀ host, hostOf someNet "https://mcp.example/mcp" = some host → host ∉ loopbackHosts) ∧
    ((OAuthClient.runtime.http someNet "https://mcp.example/mcp").sends "http://localhost:6379/"
      = true ∧ ¬ PublicUrl someNet "http://localhost:6379/") ∧
    ((OAuthClient.login.http someNet "https://mcp.example/mcp").sends "http://169.254.169.254/"
      = true ∧ ¬ PublicUrl someNet "http://169.254.169.254/") := by
  refine ⟨hostOf_someNet_server, ⟨by decide +kernel, fun h => ?_⟩, ⟨by decide +kernel, fun h => ?_⟩⟩
  · have hlocal := (h "localhost" (by decide +kernel)).1
    revert hlocal
    decide
  · refine (h "169.254.169.254" (by decide +kernel)).2 (.v4 (dotted 169 254 169 254))
      (by decide +kernel) (.v4 ?_)
    exact ⟨(dotted 169 254 0 0, dotted 169 254 255 255), by decide, by decide⟩

end OAuth

end SlmMcpHub
