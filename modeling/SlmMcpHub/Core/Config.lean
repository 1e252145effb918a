import SlmMcpHub.Library.Text

/-!
# Configurations

`core/config.py` and `auth/models.py`: the configuration of a server and of the hub, and the way a
raw entry of a configuration file becomes the configuration of a server.

The source builds the record first and validates it afterwards. Here `UncheckedServerConfig` is the
record before and `MCPServerConfig` the one after, whose fields have the types the validation
establishes. What a class refuses in its `__post_init__` no value of its type can be.

## Main definitions

* `AuthConfig`, `MCPServerConfig`, `HubConfig`
* `MCPServerConfig.Same` — `==` of two configurations of a server
* `parseAuthConfig`, `validateServerConfig`, `parseMcpServer`

## Main results

* `validateServerConfig_eq_ok_iff` — what is accepted, and as what
-/

namespace SlmMcpHub

/-! ### Errors -/

/-- What the functions of this layer raise. -/
inductive ConfigError where
  /-- `ConfigValidationError` -/
  | validation (message : String)
  /-- `TypeError` -/
  | type
  /-- `AttributeError` -/
  | attribute
  /-- `ValueError` -/
  | value
  /-- `OverflowError` -/
  | overflow
  /-- `RuntimeError` -/
  | runtime (message : String)

/-- Results of this layer. -/
abbrev Checked (α : Type) : Type := Except ConfigError α

namespace Checked

variable {α β : Type}

theorem ok_bind (a : α) (f : α → Checked β) : (Except.ok a : Checked α) >>= f = f a := rfl

theorem bind_eq_ok_iff {x : Checked α} {f : α → Checked β} {b : β} :
    (x >>= f) = .ok b ↔ ∃ a, x = .ok a ∧ f a = .ok b := by
  cases x with
  | ok a =>
    constructor
    · exact fun h => ⟨a, rfl, h⟩
    · rintro ⟨a', heq, h⟩
      cases heq
      exact h
  | error e =>
    constructor
    · exact nofun
    · rintro ⟨a, heq, -⟩
      cases heq

theorem mapM_eq_ok_iff {f : α → Checked β} {l : List α} {l' : List β} :
    l.mapM f = .ok l' ↔ List.Forall₂ (fun a b => f a = .ok b) l l' := by
  induction l generalizing l' with
  | nil =>
    rw [List.forall₂_nil_left_iff, List.mapM_nil]
    exact ⟨fun h => (Except.ok.inj h).symm, fun h => congrArg _ h.symm⟩
  | cons a l ih =>
    rw [List.mapM_cons, bind_eq_ok_iff, List.forall₂_cons_left_iff]
    constructor
    · rintro ⟨b, hb, h⟩
      obtain ⟨bs, hbs, h⟩ := bind_eq_ok_iff.mp h
      exact ⟨b, bs, hb, ih.mp hbs, (Except.ok.inj h).symm⟩
    · rintro ⟨b, bs, hb, hbs, rfl⟩
      exact ⟨b, hb, bind_eq_ok_iff.mpr ⟨bs, ih.mpr hbs, rfl⟩⟩

/-- Every element of the result is that of an element of the list. -/
theorem mem_of_mapM {f : α → Checked β} {l : List α} {l' : List β} (h : l.mapM f = .ok l') {b : β}
    (hb : b ∈ l') : ∃ a ∈ l, f a = .ok b := by
  induction mapM_eq_ok_iff.mp h with
  | nil => cases hb
  | @cons a b' l l' hab htail ih =>
    rcases List.mem_cons.mp hb with rfl | hb
    · exact ⟨a, List.mem_cons_self, hab⟩
    · obtain ⟨a, ha, hab⟩ := ih (mapM_eq_ok_iff.mpr htail) hb
      exact ⟨a, List.mem_cons_of_mem _ ha, hab⟩

/-- A list is taken when each of its elements is. -/
theorem exists_mapM_iff {f : α → Checked β} {l : List α} :
    (∃ l', l.mapM f = .ok l') ↔ ∀ a ∈ l, ∃ b, f a = .ok b := by
  induction l with
  | nil => simp [List.mapM_nil, pure, Except.pure]
  | cons a l ih =>
    rw [List.forall_mem_cons, ← ih]
    constructor
    · rintro ⟨l', h⟩
      obtain ⟨b, bs, hb, hbs, -⟩ := List.forall₂_cons_left_iff.mp (mapM_eq_ok_iff.mp h)
      exact ⟨⟨b, hb⟩, bs, mapM_eq_ok_iff.mpr hbs⟩
    · rintro ⟨⟨b, hb⟩, bs, hbs⟩
      exact ⟨b :: bs, mapM_eq_ok_iff.mpr (.cons hb (mapM_eq_ok_iff.mp hbs))⟩

/-- `if not condition: raise ConfigValidationError(message)` -/
def require (condition : Bool) (message : String) : Checked Unit :=
  if condition then .ok () else .error (.validation message)

@[simp] theorem require_eq_ok_iff {condition : Bool} {message : String} {u : Unit} :
    require condition message = .ok u ↔ condition = true := by
  cases condition <;> simp [require]

/-- A value that has to be of some type. -/
def expect (a : Option α) (message : String) : Checked α :=
  match a with
  | some a => .ok a
  | none => .error (.validation message)

@[simp] theorem expect_eq_ok_iff {a : Option α} {message : String} {b : α} :
    expect a message = .ok b ↔ a = some b := by
  cases a <;> simp [expect]

end Checked

/-! ### Conversions -/

namespace Json

/-- `int(value)` -/
def toInt : Json → Checked ℤ
  | .bool b => .ok (if b then 1 else 0)
  | .int n => .ok n
  | .float x =>
    match x.truncate with
    | some n => .ok n
    | none => .error (if x = .nan then .value else .overflow)
  | .str s =>
    match IntLiteral.parse s with
    | some n => .ok n
    | none => .error .value
  | _ => .error .type

/-- `float(value)` -/
def toFloat : Json → Checked Double
  | .bool b => .ok (.finite (if b then 1 else 0))
  | .int n =>
    match Double.ofInt n with
    | some x => .ok x
    | none => .error .overflow
  | .float x => .ok x
  | .str s =>
    match Double.parse s with
    | some x => .ok x
    | none => .error .value
  | _ => .error .type

/-- `tuple(value)` -/
def toTuple : Json → Checked (List Json)
  | .arr l => .ok l
  | .str s => .ok (s.toList.map fun c => .str (String.singleton c))
  | .obj entries => .ok ((toDict entries).keys.map .str)
  | _ => .error .type

/-- A string. -/
def str? : Json → Option String
  | .str s => some s
  | _ => none

/-- A truth value. -/
def bool? : Json → Option Bool
  | .bool b => some b
  | _ => none

/-- An entry with a string value. -/
def stringEntry? (e : String × Json) : Option (String × String) := e.2.str?.map fun s => (e.1, s)

/-- A dictionary with string values. -/
def stringMap? : Json → Option (Dict String String)
  | .obj entries => ((toDict entries).entries.mapM stringEntry?).map Dict.empty.setAll
  | _ => none

/-- The object that holds a dictionary with string values. -/
def ofStringMap (d : Dict String String) : Json := .obj (d.entries.map fun e => (e.1, .str e.2))

/-- Reading back what was written for each element. -/
theorem mapM_map_of_forall {α β : Type} {f : α → β} {g : β → Option α} (h : ∀ a, g (f a) = some a)
    (l : List α) : (l.map f).mapM g = some l := by
  induction l with
  | nil => rfl
  | cons a l ih => rw [List.map_cons, List.mapM_cons, h, ih]; rfl

@[simp] theorem mapM_str?_map_str (l : List String) : (l.map Json.str).mapM str? = some l :=
  mapM_map_of_forall (g := str?) (fun _ => rfl) l

/-- What is written for a dictionary with string values is read as that dictionary. -/
@[simp] theorem stringMap?_ofStringMap (d : Dict String String) :
    (ofStringMap d).stringMap? = some d := by
  have hkeys : (d.entries.map fun e => (e.1, Json.str e.2)).map Prod.fst =
      d.entries.map Prod.fst := by simp
  have hentries : (toDict (d.entries.map fun e => (e.1, Json.str e.2))).entries =
      d.entries.map fun e => (e.1, Json.str e.2) := by
    rw [toDict, Dict.entries_setAll (hkeys ▸ d.nodup) (by simp)]
    rfl
  have hmap : (d.entries.map fun e => (e.1, Json.str e.2)).mapM stringEntry? = some d.entries :=
    mapM_map_of_forall (g := stringEntry?) (fun _ => rfl) d.entries
  rw [ofStringMap, stringMap?, hentries, hmap, Option.map_some, Dict.setAll_empty_entries]

end Json

/-! ### Authorization policies -/

/-- The hosts a callback server may bind. -/
def loopbackHosts : List String := ["127.0.0.1", "localhost", "::1"]

/-- `AuthOAuthConfig` -/
structure AuthOAuthConfig where
  scopes : List String := []
  /-- Nothing checks what it is; `null` is its default. -/
  clientMetadataUrl : Json := .null
  callbackHost : String := "127.0.0.1"
  callbackPort : ℤ := 0
  loopback : callbackHost ∈ loopbackHosts := by decide
  deriving DecidableEq

/-- `AuthConfig` -/
inductive AuthConfig where
  | none
  | staticHeaders
  | oauth (config : AuthOAuthConfig)
  deriving DecidableEq

/-- The headers that may not stand beside `oauth`. -/
def authCredentialHeaders : List String := ["authorization", "cookie", "proxy-authorization"]

/-- The arguments of `AuthOAuthConfig`, checked by its `__post_init__`. -/
def AuthOAuthConfig.make (R : Runtime) (scopes : List Json) (clientMetadataUrl callbackHost
    callbackPort : Json) : Checked AuthOAuthConfig := do
  let scopes ← Checked.expect (scopes.mapM Json.str?)
    ("Invalid oauth auth config: Each scope must be a str, got " ++
      ((scopes.find? fun v => v.str?.isNone).getD .null).typeName)
  let host ← Checked.expect callbackHost.str?
    s!"Invalid oauth auth config: callback_host must be a str, got {callbackHost.typeName}"
  if h : host ∈ loopbackHosts then
    match callbackPort with
    | .int port => pure ⟨scopes, clientMetadataUrl, host, port, h⟩
    | v => .error (.validation
        s!"Invalid oauth auth config: callback_port must be an int, got {v.typeName}")
  else
    .error (.validation ("Invalid oauth auth config: callback_host must be loopback " ++
      s!"(127.0.0.1 / localhost / ::1), got {R.repr (.str host)}"))

/-- `parse_auth_config` -/
def parseAuthConfig (R : Runtime) (raw : Json) : Checked AuthConfig :=
  if raw.truthy then
    match raw with
    | .obj entries =>
      let raw := Json.toDict entries
      match (raw.get? "mode").getD (.str "none") with
      | .str "none" => .ok .none
      | .str "static_headers" => .ok .staticHeaders
      | .str "oauth" =>
        match (raw.get? "scopes").getD (.arr []) with
        | .arr scopes => do
          let config ← AuthOAuthConfig.make R scopes ((raw.get? "client_metadata_url").getD .null)
            ((raw.get? "callback_host").getD (.str "127.0.0.1"))
            ((raw.get? "callback_port").getD (.int 0))
          pure (.oauth config)
        | _ => .error (.validation "auth.scopes must be a list of strings")
      | mode =>
        if mode.hashable then
          .error (.validation (s!"Unknown auth mode {R.repr mode}. " ++
            "Allowed: ['none', 'oauth', 'static_headers']"))
        else .error .type
    | _ => .error .attribute
  else .ok .none

/-! ### Servers -/

/-- `transport`: `"stdio"`, `"http"` or `"sse"` -/
inductive Transport where
  | stdio
  | http
  | sse
  deriving DecidableEq

/-- `spawn`: `"eager"`, `"lazy"` or `"pinned"` -/
inductive Spawn where
  | eager
  | lazy
  | pinned
  deriving DecidableEq

/-- `timeout_class`: `"fast"`, `"default"`, `"extended"` or `"unbounded"` -/
inductive TimeoutClass where
  | fast
  | default
  | extended
  | unbounded
  deriving DecidableEq

def Transport.value : Transport → String
  | .stdio => "stdio"
  | .http => "http"
  | .sse => "sse"

def Spawn.value : Spawn → String
  | .eager => "eager"
  | .lazy => "lazy"
  | .pinned => "pinned"

def TimeoutClass.value : TimeoutClass → String
  | .fast => "fast"
  | .default => "default"
  | .extended => "extended"
  | .unbounded => "unbounded"

def Transport.ofValue? : String → Option Transport
  | "stdio" => some .stdio
  | "http" => some .http
  | "sse" => some .sse
  | _ => none

def Spawn.ofValue? : String → Option Spawn
  | "eager" => some .eager
  | "lazy" => some .lazy
  | "pinned" => some .pinned
  | _ => none

def TimeoutClass.ofValue? : String → Option TimeoutClass
  | "fast" => some .fast
  | "default" => some .default
  | "extended" => some .extended
  | "unbounded" => some .unbounded
  | _ => none

@[simp] theorem Transport.ofValue?_value (t : Transport) : ofValue? t.value = some t := by
  cases t <;> rfl

@[simp] theorem Spawn.ofValue?_value (p : Spawn) : ofValue? p.value = some p := by cases p <;> rfl

@[simp] theorem TimeoutClass.ofValue?_value (c : TimeoutClass) : ofValue? c.value = some c := by
  cases c <;> rfl

/-- A number, `int` or `float`. -/
inductive Number where
  | int (n : ℤ)
  | float (x : Double)
  deriving DecidableEq

/-- What a number amounts to. -/
def Number.value : Number → Double
  | .int n => .finite n
  | .float x => x

/-- A number as a JSON value. -/
def Number.toJson : Number → Json
  | .int n => .int n
  | .float x => .float x

/-- A number that is no truth value. -/
def Json.numeral? : Json → Option Number
  | .int n => some (.int n)
  | .float x => some (.float x)
  | _ => none

/-- `DEFAULT_MAX_CONCURRENCY` -/
def defaultMaxConcurrency : ℤ := 10

/-- `MCPServerConfig` -/
structure MCPServerConfig where
  name : String
  transport : Transport := .stdio
  command : String := ""
  args : List String := []
  env : Dict String String := .empty
  url : String := ""
  headers : Dict String String := .empty
  enabled : Bool := true
  alwaysOn : Bool := false
  noCache : Bool := false
  costPerCallCents : Number := .float (.finite 0)
  auth : AuthConfig := .none
  spawn : Spawn := .eager
  timeoutClass : TimeoutClass := .default
  maxConcurrency : ℤ := defaultMaxConcurrency
  deriving DecidableEq

/-- `is_pinned` -/
def MCPServerConfig.isPinned (cfg : MCPServerConfig) : Bool :=
  cfg.spawn = .pinned || cfg.alwaysOn

namespace MCPServerConfig

/-- `==`: mappings are compared by their entries, numbers by what they amount to. -/
structure Same (a b : MCPServerConfig) : Prop where
  fields : { a with env := .empty, headers := .empty, costPerCallCents := .int 0 } =
    { b with env := .empty, headers := .empty, costPerCallCents := .int 0 }
  env : ∀ k, a.env.get? k = b.env.get? k
  headers : ∀ k, a.headers.get? k = b.headers.get? k
  cost : a.costPerCallCents.value = b.costPerCallCents.value

theorem Same.refl (a : MCPServerConfig) : a.Same a := ⟨rfl, fun _ => rfl, fun _ => rfl, rfl⟩

end MCPServerConfig

/-- An `MCPServerConfig` nothing has validated. -/
structure UncheckedServerConfig where
  name : String
  transport : Json
  command : Json := .str ""
  args : List Json := []
  env : Json := .obj []
  url : Json := .str ""
  headers : Json := .obj []
  enabled : Json
  alwaysOn : Json
  noCache : Json
  costPerCallCents : Json
  auth : AuthConfig
  spawn : Json
  timeoutClass : Json
  maxConcurrency : ℤ

/-- A value that has to be one of a set of strings. -/
def Json.memberOf {α : Type} (ofValue? : String → Option α) (message : String) :
    Json → Checked α
  | .str s => Checked.expect (ofValue? s) message
  | v => .error (if v.hashable then .validation message else .type)

/-- `_validate_string_map` -/
def validateStringMap (fieldName : String) (value : Json) : Checked (Dict String String) :=
  Checked.expect value.stringMap?
    s!"Server {fieldName} must be an object containing string values"

/-- The check of a field that has to be a truth value. -/
def validateBool (fieldName : String) (value : Json) : Checked Bool :=
  Checked.expect value.bool? s!"Server {fieldName} must be a boolean"

/-- The headers that carry credentials. -/
def credentialHeaders (R : Runtime) (headers : Dict String String) : List String :=
  headers.keys.filter fun k => authCredentialHeaders.contains (R.lower (Text.strip k))

/-- Whether a policy is `oauth`. -/
def AuthConfig.isOauth : AuthConfig → Bool
  | .oauth _ => true
  | _ => false

/-- `validate_server_config` -/
def validateServerConfig (R : Runtime) (c : UncheckedServerConfig) : Checked MCPServerConfig := do
  Checked.require (!Text.isBlank c.name) "Server name must be a non-empty string"
  let transport ← c.transport.memberOf Transport.ofValue?
    "Server transport must be one of: http, sse, stdio"
  let command ← Checked.expect c.command.str? "Server command must be a string"
  let args ← Checked.expect (c.args.mapM Json.str?) "Server args must contain only strings"
  let env ← validateStringMap "env" c.env
  let url ← Checked.expect c.url.str? "Server url must be a string"
  let headers ← validateStringMap "headers" c.headers
  let enabled ← validateBool "enabled" c.enabled
  let alwaysOn ← validateBool "always_on" c.alwaysOn
  let noCache ← validateBool "no_cache" c.noCache
  let cost ← Checked.expect (c.costPerCallCents.numeral?.filter fun x => !x.value.isNeg)
    "Server cost_per_call_cents must be a non-negative number"
  let spawn ← c.spawn.memberOf Spawn.ofValue?
    s!"Server spawn must be one of: eager, lazy, pinned; got {R.repr c.spawn}"
  let timeoutClass ← c.timeoutClass.memberOf TimeoutClass.ofValue?
    ("Server timeout_class must be one of: default, extended, fast, unbounded; got " ++
      R.repr c.timeoutClass)
  Checked.require (1 ≤ c.maxConcurrency)
    s!"Server max_concurrency must be a positive integer, got {R.repr (.int c.maxConcurrency)}"
  Checked.require (!c.auth.isOauth || credentialHeaders R headers = [])
    ("oauth auth mode is incompatible with credential-bearing static headers: " ++
      ", ".intercalate ((credentialHeaders R headers).mergeSort (· ≤ ·)) ++
      ". Remove the header(s) or switch to static_headers auth mode.")
  Checked.require (!(transport = .sse && c.auth.isOauth))
    ("transport='sse' is incompatible with auth.mode='oauth': use transport='http' for " ++
      "OAuth-authenticated backends.")
  pure { name := c.name, transport, command, args, env, url, headers, enabled, alwaysOn, noCache
         costPerCallCents := cost, auth := c.auth, spawn, timeoutClass
         maxConcurrency := c.maxConcurrency }

/-- `parse_mcp_server`, of an entry that is an object. -/
def parseMcpServer (R : Runtime) (name : String) (raw : Dict String Json) :
    Checked MCPServerConfig := do
  let auth ← parseAuthConfig R ((raw.get? "auth").getD .null)
  let alwaysOn := (raw.get? "always_on").getD (.bool false)
  let spawn := (raw.get? "spawn").getD (.str (if alwaysOn.truthy then "pinned" else "eager"))
  let timeoutClass := (raw.get? "timeout_class").getD (.str "default")
  let maxConcurrency ← ((raw.get? "max_concurrency").getD (.int defaultMaxConcurrency)).toInt
  match raw.get? "url" with
  | some url =>
    validateServerConfig R
      { name, transport := (raw.get? "type").getD (.str "http"), url
        headers := (raw.get? "headers").getD (.obj [])
        enabled := (raw.get? "enabled").getD (.bool true), alwaysOn
        noCache := (raw.get? "no_cache").getD (.bool false)
        costPerCallCents := (raw.get? "cost_per_call_cents").getD (.float (.finite 0))
        auth, spawn, timeoutClass, maxConcurrency }
  | none => do
    let args ← ((raw.get? "args").getD (.arr [])).toTuple
    validateServerConfig R
      { name, transport := .str "stdio", command := (raw.get? "command").getD (.str ""), args
        env := (raw.get? "env").getD (.obj [])
        enabled := (raw.get? "enabled").getD (.bool true), alwaysOn
        noCache := (raw.get? "no_cache").getD (.bool false)
        costPerCallCents := (raw.get? "cost_per_call_cents").getD (.float (.finite 0))
        auth, spawn, timeoutClass, maxConcurrency }

/-! ### The hub -/

theorem startup_pos_default : 1 ≤ 8 := by decide

theorem dashboardBind_nonblank_default : Text.isBlank "127.0.0.1" = false := by decide

theorem eventQueue_pos_default : (1 : ℤ) ≤ 256 := by decide

/-- `HubConfig`. A field nothing converts is the value of the file, and a path is its text. -/
structure HubConfig where
  host : Json := .str "127.0.0.1"
  port : Json := .int 52414
  configDir : String := "~/.slm-mcp-hub"
  mcpServers : List MCPServerConfig := []
  sessionTimeoutSeconds : Json := .int 3600
  maxSessions : Json := .int 50
  cacheTtlSeconds : Json := .int 300
  cacheMaxEntries : Json := .int 1000
  idleShutdownSeconds : Json := .int 1800
  logLevel : Json := .str "INFO"
  corsOrigins : List Json := [.str "http://127.0.0.1", .str "http://localhost"]
  pluginsEnabled : List Json := []
  webhooks : List Json := []
  startupMaxConcurrency : ℕ := 8
  idleTtlSeconds : ℕ := 300
  maxLiveBackends : ℕ := 0
  eventStoreEnabled : Bool := true
  eventStoreMaxEventsPerStream : ℤ := 500
  eventStoreMaxStreams : ℤ := 200
  eventStoreStreamTtlS : Double := .finite 7200
  transportStateful : Bool := false
  dashboardEnabled : Bool := true
  dashboardBind : String := "127.0.0.1"
  eventQueueMaxsize : ℤ := 256
  startup_pos : 1 ≤ startupMaxConcurrency := by exact startup_pos_default
  dashboardBind_nonblank : Text.isBlank dashboardBind = false := by
    exact dashboardBind_nonblank_default
  eventQueue_pos : 1 ≤ eventQueueMaxsize := by exact eventQueue_pos_default

/-- `next((s for s in mcp_servers if s.name == name), None)` -/
def HubConfig.find? (config : HubConfig) (name : String) : Option MCPServerConfig :=
  config.mcpServers.find? fun cfg => cfg.name = name

/-! ### What validation accepts -/

/-- `s` is what the validation makes of `c`. -/
structure Validates (R : Runtime) (c : UncheckedServerConfig) (s : MCPServerConfig) : Prop where
  name : c.name = s.name
  nonblank : Text.isBlank c.name = false
  transport : c.transport = .str s.transport.value
  command : c.command = .str s.command
  args : c.args.mapM Json.str? = some s.args
  env : c.env.stringMap? = some s.env
  url : c.url = .str s.url
  headers : c.headers.stringMap? = some s.headers
  enabled : c.enabled = .bool s.enabled
  alwaysOn : c.alwaysOn = .bool s.alwaysOn
  noCache : c.noCache = .bool s.noCache
  costPerCallCents : c.costPerCallCents = s.costPerCallCents.toJson
  nonneg : s.costPerCallCents.value.isNeg = false
  auth : c.auth = s.auth
  spawn : c.spawn = .str s.spawn.value
  timeoutClass : c.timeoutClass = .str s.timeoutClass.value
  maxConcurrency : c.maxConcurrency = s.maxConcurrency
  positive : 1 ≤ s.maxConcurrency
  companions : s.auth.isOauth = true → credentialHeaders R s.headers = []
  streamable : s.transport = .sse → s.auth.isOauth = false

theorem Json.memberOf_eq_ok_iff {α : Type} {ofValue? : String → Option α} {message : String}
    {v : Json} {a : α} :
    v.memberOf ofValue? message = .ok a ↔ ∃ s, v = .str s ∧ ofValue? s = some a := by
  cases v <;> simp [memberOf]

theorem Transport.ofValue?_eq_some_iff {s : String} {t : Transport} :
    ofValue? s = some t ↔ s = t.value := by
  constructor
  · intro h
    unfold ofValue? at h
    split at h <;> cases h <;> rfl
  · rintro rfl
    exact ofValue?_value t

theorem Spawn.ofValue?_eq_some_iff {s : String} {p : Spawn} :
    ofValue? s = some p ↔ s = p.value := by
  constructor
  · intro h
    unfold ofValue? at h
    split at h <;> cases h <;> rfl
  · rintro rfl
    exact ofValue?_value p

theorem TimeoutClass.ofValue?_eq_some_iff {s : String} {c : TimeoutClass} :
    ofValue? s = some c ↔ s = c.value := by
  constructor
  · intro h
    unfold ofValue? at h
    split at h <;> cases h <;> rfl
  · rintro rfl
    exact ofValue?_value c

theorem Json.str?_eq_some_iff {v : Json} {s : String} : v.str? = some s ↔ v = .str s := by
  cases v <;> simp [str?]

theorem Json.bool?_eq_some_iff {v : Json} {b : Bool} : v.bool? = some b ↔ v = .bool b := by
  cases v <;> simp [bool?]

theorem Json.numeral?_eq_some_iff {v : Json} {x : Number} :
    v.numeral? = some x ↔ v = x.toJson := by
  cases v <;> cases x <;> simp [numeral?, Number.toJson]

/-- **What is accepted, and as what.** -/
theorem validateServerConfig_eq_ok_iff {R : Runtime} {c : UncheckedServerConfig}
    {s : MCPServerConfig} : validateServerConfig R c = .ok s ↔ Validates R c s := by
  simp only [validateServerConfig, Checked.bind_eq_ok_iff, Checked.require_eq_ok_iff,
    Checked.expect_eq_ok_iff, validateStringMap, validateBool, Json.memberOf_eq_ok_iff,
    Transport.ofValue?_eq_some_iff, Spawn.ofValue?_eq_some_iff,
    TimeoutClass.ofValue?_eq_some_iff, Json.str?_eq_some_iff, Json.bool?_eq_some_iff,
    Option.filter_eq_some_iff, Json.numeral?_eq_some_iff]
  constructor
  · rintro ⟨_, hname, t, ⟨_, ht, rfl⟩, cmd, hcmd, args, hargs, env, henv, url, hurl, hd, hhd, en,
      hen, ao, hao, nc, hnc, cost, ⟨hcost, hneg⟩, sp, ⟨_, hsp, rfl⟩, tc, ⟨_, htc, rfl⟩, _, hpos, _,
      hcomp, _, hsse, heq⟩
    cases heq
    refine ⟨rfl, by simpa using hname, ht, hcmd, hargs, henv, hurl, hhd, hen, hao, hnc, hcost,
      by simpa using hneg, rfl, hsp, htc, rfl, by simpa using hpos, fun h => ?_, fun h => ?_⟩
    · simpa [h] using hcomp
    · cases h
      simpa using hsse
  · intro h
    refine ⟨(), by simpa using h.nonblank, s.transport, ⟨_, h.transport, rfl⟩, s.command, h.command,
      s.args, h.args, s.env, h.env, s.url, h.url, s.headers, h.headers, s.enabled, h.enabled,
      s.alwaysOn, h.alwaysOn, s.noCache, h.noCache, s.costPerCallCents,
      ⟨h.costPerCallCents, by simpa using h.nonneg⟩, s.spawn, ⟨_, h.spawn, rfl⟩, s.timeoutClass,
      ⟨_, h.timeoutClass, rfl⟩, (), by simpa [h.maxConcurrency] using h.positive, (), ?_, (), ?_,
      ?_⟩
    · cases hauth : s.auth.isOauth with
      | false => simp [h.auth, hauth]
      | true => simpa [h.auth, hauth] using h.companions hauth
    · by_cases ht : s.transport = .sse
      · simp [h.auth, h.streamable ht]
      · simp [ht]
    · rw [h.name, h.auth, h.maxConcurrency]
      rfl

end SlmMcpHub
