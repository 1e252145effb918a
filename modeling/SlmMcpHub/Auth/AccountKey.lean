import SlmMcpHub.Core.ServerRoundTrip

/-!
# The account of a server

The account of the keychain a server's tokens are kept under is derived from its address and from
the redirect of its logins. The commands of `cli/auth_commands.py` take the address as it is
configured, and the transport of the running hub with its placeholders expanded.

## Main definitions

* `resolveEnvVars`, `materializeServerConfig` — what the running hub makes of a configuration
* `accountKey` — `KeyringTokenStorage._make_account_key`
* `runtimeAccount`, `cliAccount` — the accounts of the two

## Main results

* `resolveEnvVars_eq_self` — an address without a dollar sign is left alone
* `sameAccount_iff` — when they are the same
-/

namespace SlmMcpHub

/-! ### Placeholders -/

/-- One match of `opening[…]+}` at the beginning of a text: its name and its length. -/
def placeholder? (opening : List Char) (isName : Char → Bool) (text : List Char) :
    Option (List Char × ℕ) :=
  if opening <+: text then
    let name := (text.drop opening.length).takeWhile isName
    if name ≠ [] ∧ (text.drop (opening.length + name.length)).head? = some '}' then
      some (name, opening.length + name.length + 1)
    else none
  else none

/-- `re.sub`, with `_replacer`; `skip` characters still belong to the last match. -/
def substitute (environ : String → Option String) (opening : List Char) (isName : Char → Bool)
    (skip : ℕ) : List Char → List Char
  | [] => []
  | c :: rest =>
    if skip ≠ 0 then substitute environ opening isName (skip - 1) rest
    else
      match placeholder? opening isName (c :: rest) with
      | some (name, length) =>
        ((environ (String.ofList name)).map String.toList).getD ((c :: rest).take length) ++
          substitute environ opening isName (length - 1) rest
      | none => c :: substitute environ opening isName 0 rest

/-- `_resolve_env_vars`: first every `${env:VAR}`, and then every `${VAR}`. -/
def resolveEnvVars (environ : String → Option String) (value : String) : String :=
  String.ofList (substitute environ ['$', '{'] (fun c => c ≠ '}' && c ≠ ':') 0
    (substitute environ ['$', '{', 'e', 'n', 'v', ':'] (· ≠ '}') 0 value.toList))

/-- `materialize_server_config` -/
def materializeServerConfig (R : Runtime) (environ : String → Option String)
    (cfg : MCPServerConfig) : Checked MCPServerConfig := do
  let _ ← validateServerConfig R cfg.unchecked
  let resolved (values : Dict String String) : Dict String String :=
    values.keys.foldl (fun values key => values.modify key (resolveEnvVars environ)) values
  pure { cfg with
    command := resolveEnvVars environ cfg.command
    args := cfg.args.map (resolveEnvVars environ)
    env := resolved cfg.env
    url := resolveEnvVars environ cfg.url
    headers := resolved cfg.headers }

theorem substitute_eq_self {environ : String → Option String} {opening : List Char}
    {isName : Char → Bool} (hopening : '$' ∈ opening) :
    ∀ {text : List Char}, '$' ∉ text → substitute environ opening isName 0 text = text := by
  intro text
  induction text with
  | nil => exact fun _ => rfl
  | cons c rest ih =>
    intro hno
    have hnone : placeholder? opening isName (c :: rest) = none :=
      if_neg fun hle => hno (hle.subset hopening)
    rw [substitute, if_neg (not_not.mpr rfl), hnone]
    exact congrArg (c :: ·) (ih fun hmem => hno (List.mem_cons_of_mem c hmem))

/-- A text without a dollar sign is left alone. -/
theorem resolveEnvVars_eq_self {environ : String → Option String} {value : String}
    (h : '$' ∉ value.toList) : resolveEnvVars environ value = value := by
  rw [resolveEnvVars, substitute_eq_self (by decide) h, substitute_eq_self (by decide) h,
    String.ofList_toList]

/-! ### Accounts -/

namespace OAuth

/-- `KeyringTokenStorage.SCHEMA_VERSION` -/
def schemaVersion : String := "1"

/-- The text an account is derived from; `profile_id` is that of a storage made without one. -/
def accountText (endpoint redirectUri : String) : String :=
  "\x00".intercalate [schemaVersion, "default", endpoint, redirectUri]

/-- `_make_account_key`, by the digest of a text -/
def accountKey (sha256 : String → String) (endpoint redirectUri : String) : String :=
  sha256 (accountText endpoint redirectUri)

/-- The redirect the account of a policy is derived from. -/
def redirectUri (auth : AuthOAuthConfig) : String :=
  s!"http://{auth.callbackHost}:{auth.callbackPort}/callback"

/-- The account of the client `_build_client` makes; only one over HTTP has a storage. -/
def clientAccount (sha256 : String → String) (runtime : MCPServerConfig) : Option String :=
  match runtime.transport, runtime.auth with
  | .http, .oauth auth => some (accountKey sha256 runtime.url (redirectUri auth))
  | _, _ => none

/-- The account the running hub uses when it connects. -/
def runtimeAccount (R : Runtime) (environ : String → Option String) (sha256 : String → String)
    (cfg : MCPServerConfig) : Checked (Option String) := do
  let runtime ← materializeServerConfig R environ cfg
  pure (clientAccount sha256 runtime)

/-- The account of `_build_storage`, which the commands use; it raises `ValueError` for a server
without OAuth. -/
def cliAccount (sha256 : String → String) (cfg : MCPServerConfig) : Option String :=
  match cfg.auth with
  | .oauth auth => some (accountKey sha256 cfg.url (redirectUri auth))
  | _ => none

/-- Two texts have one digest. -/
def Collide (sha256 : String → String) (s t : String) : Prop := s ≠ t ∧ sha256 s = sha256 t

theorem accountText_inj {endpoint endpoint' redirect : String} :
    accountText endpoint redirect = accountText endpoint' redirect ↔ endpoint = endpoint' := by
  have htext : ∀ e, accountText e redirect =
      "1" ++ "\x00" ++ "default" ++ "\x00" ++ e ++ "\x00" ++ redirect := fun _ => rfl
  rw [htext, htext, String.append_left_inj, String.append_left_inj, String.append_right_inj]

/-- **The accounts are the same** just when the expansion leaves the address as it is, up to
collisions of the digest. -/
theorem sameAccount_iff {R : Runtime} {environ : String → Option String} {sha256 : String → String}
    {cfg : MCPServerConfig} {auth : AuthOAuthConfig} {account : Option String}
    (hhttp : cfg.transport = .http) (hauth : cfg.auth = .oauth auth)
    (hruns : runtimeAccount R environ sha256 cfg = .ok account) :
    account = cliAccount sha256 cfg ↔ resolveEnvVars environ cfg.url = cfg.url ∨
      Collide sha256 (accountText (resolveEnvVars environ cfg.url) (redirectUri auth))
        (accountText cfg.url (redirectUri auth)) := by
  obtain ⟨runtime, hruntime, haccount⟩ := Checked.bind_eq_ok_iff.mp hruns
  obtain ⟨-, -, hmaterial⟩ := Checked.bind_eq_ok_iff.mp hruntime
  obtain rfl := Except.ok.inj hmaterial
  obtain rfl := Except.ok.inj haccount
  simp only [clientAccount, cliAccount, hhttp, hauth, Option.some.injEq, accountKey]
  rw [Collide, ne_eq, accountText_inj]
  constructor
  · intro hdigest
    by_cases hsame : resolveEnvVars environ cfg.url = cfg.url
    · exact .inl hsame
    · exact .inr ⟨hsame, hdigest⟩
  · rintro (hsame | ⟨-, hdigest⟩)
    · rw [hsame]
    · exact hdigest

/-- A server over HTTP that needs a login. -/
def oauthServer (url : String) : MCPServerConfig :=
  { name := "a", transport := .http, url, auth := .oauth {} }

/-- One variable is set. -/
def oneVariable (name : String) : Option String := if name = "HOST" then some "a.example" else none

theorem sameAccount_plain :
    runtimeAccount plainRuntime oneVariable id (oauthServer "https://a.example/mcp") =
      .ok (cliAccount id (oauthServer "https://a.example/mcp")) := by
  obtain ⟨account, hruns⟩ : ∃ account, runtimeAccount plainRuntime oneVariable id
      (oauthServer "https://a.example/mcp") = .ok account := ⟨_, rfl⟩
  rw [hruns, (sameAccount_iff rfl rfl hruns).mpr (.inl (resolveEnvVars_eq_self (by decide)))]

/-- A login with a placeholder in the address is not found. -/
theorem not_sameAccount_placeholder : ∃ account,
    runtimeAccount plainRuntime oneVariable id (oauthServer "https://$\x7bHOST\x7d/mcp") =
        .ok account ∧
      account ≠ cliAccount id (oauthServer "https://$\x7bHOST\x7d/mcp") := by
  refine ⟨_, rfl, ?_⟩
  decide +kernel

end OAuth

end SlmMcpHub
