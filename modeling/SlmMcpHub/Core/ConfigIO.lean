import SlmMcpHub.Core.Config

/-!
# The configuration file

`core/config_io.py`: what `load_config` makes of the file and of the environment, and what
`save_config` writes. A file is the object that is its content; its text, the snapshots and the
permissions do not occur.

## Main definitions

* `serverEntry` — the entry `save_config` writes for a server
* `HubEnv` — the environment variables that override settings
* `loadConfig`, `applyEnvOverrides`, `saveConfig`
-/

namespace SlmMcpHub

/-! ### Servers -/

/-- An entry that is written only sometimes. -/
def entryIf (condition : Bool) (key : String) (value : Json) : List (String × Json) :=
  if condition then [(key, value)] else []

/-- `_serialize_auth`. It raises for the mode `none`, which its caller leaves out. -/
def serializeAuth : AuthConfig → Option Json
  | .none => none
  | .staticHeaders => some (.obj [("mode", .str "static_headers")])
  | .oauth config => some (.obj ([("mode", .str "oauth"),
      ("scopes", .arr (config.scopes.map .str)), ("callback_host", .str config.callbackHost),
      ("callback_port", .int config.callbackPort)] ++
      entryIf (config.clientMetadataUrl ≠ .null) "client_metadata_url" config.clientMetadataUrl))

/-- The part of an entry that depends on the transport. -/
def transportEntry (srv : MCPServerConfig) : List (String × Json) :=
  if srv.transport = .stdio then
    [("command", .str srv.command), ("args", .arr (srv.args.map .str))] ++
      entryIf (srv.env.size ≠ 0) "env" (.ofStringMap srv.env)
  else
    [("type", .str srv.transport.value), ("url", .str srv.url)] ++
      entryIf (srv.headers.size ≠ 0) "headers" (.ofStringMap srv.headers)

/-- The part of an entry that does not. -/
def policyEntry (srv : MCPServerConfig) : List (String × Json) :=
  entryIf srv.alwaysOn "always_on" (.bool true) ++
    entryIf srv.noCache "no_cache" (.bool true) ++
    entryIf (srv.spawn ≠ .eager) "spawn" (.str srv.spawn.value) ++
    entryIf srv.costPerCallCents.value.isPos "cost_per_call_cents" srv.costPerCallCents.toJson ++
    entryIf (srv.timeoutClass ≠ .default) "timeout_class" (.str srv.timeoutClass.value) ++
    entryIf (srv.maxConcurrency ≠ defaultMaxConcurrency) "max_concurrency"
      (.int srv.maxConcurrency) ++
    (serializeAuth srv.auth).toList.map fun auth => ("auth", auth)

/-- The entry of a server. -/
def serverEntry (srv : MCPServerConfig) : Dict String Json :=
  Dict.empty.setAll ([("enabled", .bool srv.enabled)] ++ transportEntry srv ++ policyEntry srv)

/-- A configuration as the validation finds it. -/
def MCPServerConfig.unchecked (srv : MCPServerConfig) : UncheckedServerConfig where
  name := srv.name
  transport := .str srv.transport.value
  command := .str srv.command
  args := srv.args.map .str
  env := .ofStringMap srv.env
  url := .str srv.url
  headers := .ofStringMap srv.headers
  enabled := .bool srv.enabled
  alwaysOn := .bool srv.alwaysOn
  noCache := .bool srv.noCache
  costPerCallCents := srv.costPerCallCents.toJson
  auth := srv.auth
  spawn := .str srv.spawn.value
  timeoutClass := .str srv.timeoutClass.value
  maxConcurrency := srv.maxConcurrency

/-! ### Loading -/

/-- The environment variables `SLM_HUB_*`, and the home directory. -/
structure HubEnv where
  port : Option String := none
  host : Option String := none
  logLevel : Option String := none
  configDir : Option String := none
  startupMaxConcurrency : Option String := none
  idleTtlSeconds : Option String := none
  maxLiveBackends : Option String := none
  home : String

/-- The environment without the overrides. -/
def HubEnv.cleared (env : HubEnv) : HubEnv := { home := env.home }

/-- `get_config_dir` -/
def getConfigDir (env : HubEnv) : String := env.configDir.getD (env.home ++ "/.slm-mcp-hub")

/-- `as_bool` -/
def asBool (R : Runtime) (default : Bool) : Json → Bool
  | .bool b => b
  | .str s => ["1", "true", "yes", "on"].contains (R.lower (Text.strip s))
  | .null => default
  | v => v.truthy

/-- A check of `HubConfig.__post_init__`. -/
def atLeast (lo : ℕ) (message : String) (n : ℤ) : Checked {k : ℕ // lo ≤ k} :=
  if h : (lo : ℤ) ≤ n then .ok ⟨n.toNat, by omega⟩ else .error (.validation message)

/-- The check of `startup_max_concurrency`. -/
def checkStartup (n : ℤ) : Checked {k : ℕ // 1 ≤ k} :=
  atLeast 1 s!"startup_max_concurrency must be >= 1, got {n}" n

/-- The check of `idle_ttl_seconds`. -/
def checkIdleTtl (n : ℤ) : Checked {k : ℕ // 0 ≤ k} :=
  atLeast 0 s!"idle_ttl_seconds must be >= 0 (0 = never evict), got {n}" n

/-- The check of `max_live_backends`. -/
def checkMaxLive (n : ℤ) : Checked {k : ℕ // 0 ≤ k} :=
  atLeast 0 s!"max_live_backends must be >= 0 (0 = unlimited), got {n}" n

/-- The check of `dashboard_bind`. -/
def checkDashboardBind (R : Runtime) (s : String) :
    Checked {s : String // Text.isBlank s = false} :=
  if h : Text.isBlank s = false then .ok ⟨s, h⟩
  else .error (.validation s!"dashboard_bind must be a non-empty string, got {R.repr (.str s)}")

/-- The check of `event_queue_maxsize`. -/
def checkEventQueue (n : ℤ) : Checked {n : ℤ // 1 ≤ n} :=
  if h : 1 ≤ n then .ok ⟨n, h⟩
  else .error (.validation s!"event_queue_maxsize must be a positive integer, got {n}")

/-- `==`: a number that is no number is not equal to itself. -/
def Json.eqv (a b : Json) : Bool := decide (Json.SameValue a b) && a ≠ .float .nan

/-- An integer from the environment, else one that is there. -/
def intOverride (override : Option String) (value : Json) : Checked ℤ :=
  ((override.map Json.str).getD value).toInt

/-- `_apply_env_overrides` -/
def applyEnvOverrides (env : HubEnv) (config : HubConfig) : Checked HubConfig := do
  let port ← intOverride env.port config.port
  let host := (env.host.map Json.str).getD config.host
  let logLevel := (env.logLevel.map Json.str).getD config.logLevel
  let configDir := env.configDir.getD config.configDir
  let startup ← intOverride env.startupMaxConcurrency (.int config.startupMaxConcurrency)
  let idle ← intOverride env.idleTtlSeconds (.int config.idleTtlSeconds)
  let live ← intOverride env.maxLiveBackends (.int config.maxLiveBackends)
  if (Json.int port).eqv config.port ∧ host.eqv config.host ∧ logLevel.eqv config.logLevel ∧
      configDir = config.configDir ∧ startup = config.startupMaxConcurrency ∧
      idle = config.idleTtlSeconds ∧ live = config.maxLiveBackends then
    pure config
  else
    let startup ← checkStartup startup
    let idle ← checkIdleTtl idle
    let live ← checkMaxLive live
    pure { config with
      host, port := .int port, configDir, logLevel, startupMaxConcurrency := startup.1
      idleTtlSeconds := idle.1, maxLiveBackends := live.1, startup_pos := startup.2 }

/-- `raw.get("mcpServers", raw.get("servers", {}))` -/
def serversRaw (raw : Dict String Json) : Json :=
  (raw.get? "mcpServers").getD ((raw.get? "servers").getD (.obj []))

/-- The server a file has under a name. -/
def parseServerEntry (R : Runtime) : String × Json → Checked MCPServerConfig
  | (name, .obj entries) => parseMcpServer R name (Json.toDict entries)
  | _ => .error (.validation "Server configuration must be an object")

/-- The servers of a file. -/
def loadServers (R : Runtime) : Json → Checked (List MCPServerConfig)
  | .obj entries => (Json.toDict entries).entries.mapM (parseServerEntry R)
  | _ => .error .attribute

/-- `Path(value)` -/
def Json.toPath : Json → Checked String
  | .str s => .ok s
  | _ => .error .type

/-- What `load_config` reads from a file, before the overrides. -/
def readConfig (R : Runtime) (env : HubEnv) (raw : Dict String Json) : Checked HubConfig := do
  let value (key : String) (default : Json) : Json := (raw.get? key).getD default
  let servers ← loadServers R (serversRaw raw)
  let configDir ← (value "config_dir" (.str (getConfigDir env))).toPath
  let corsOrigins ←
    (value "cors_origins" (.arr [.str "http://127.0.0.1", .str "http://localhost"])).toTuple
  let pluginsEnabled ← (value "plugins_enabled" (.arr [])).toTuple
  let webhooks ← (value "webhooks" (.arr [])).toTuple
  let startup ← (value "startup_max_concurrency" (.int 8)).toInt
  let idle ← (value "idle_ttl_seconds" (.int 300)).toInt
  let live ← (value "max_live_backends" (.int 0)).toInt
  let maxEvents ← (value "event_store_max_events_per_stream" (.int 500)).toInt
  let maxStreams ← (value "event_store_max_streams" (.int 200)).toInt
  let streamTtl ← (value "event_store_stream_ttl_s" (.float (.finite 7200))).toFloat
  let queue ← (value "event_queue_maxsize" (.int 256)).toInt
  let startup ← checkStartup startup
  let idle ← checkIdleTtl idle
  let live ← checkMaxLive live
  let bind ← checkDashboardBind R (R.str (value "dashboard_bind" (.str "127.0.0.1")))
  let queue ← checkEventQueue queue
  pure
    { host := value "host" (.str "127.0.0.1")
      port := value "port" (.int 52414)
      configDir
      mcpServers := servers
      sessionTimeoutSeconds := value "session_timeout_seconds" (.int 3600)
      maxSessions := value "max_sessions" (.int 50)
      cacheTtlSeconds := value "cache_ttl_seconds" (.int 300)
      cacheMaxEntries := value "cache_max_entries" (.int 1000)
      idleShutdownSeconds := value "idle_shutdown_seconds" (.int 1800)
      logLevel := value "log_level" (.str "INFO")
      corsOrigins, pluginsEnabled, webhooks
      startupMaxConcurrency := startup.1
      idleTtlSeconds := idle.1
      maxLiveBackends := live.1
      eventStoreEnabled := asBool R true (value "event_store_enabled" .null)
      eventStoreMaxEventsPerStream := maxEvents
      eventStoreMaxStreams := maxStreams
      eventStoreStreamTtlS := streamTtl
      transportStateful := asBool R false (value "transport_stateful" .null)
      dashboardEnabled := asBool R true (value "dashboard_enabled" .null)
      dashboardBind := bind.1
      eventQueueMaxsize := queue.1
      startup_pos := startup.2
      dashboardBind_nonblank := bind.2
      eventQueue_pos := queue.2 }

/-- `HubConfig()` -/
def defaultConfig (env : HubEnv) : HubConfig := { configDir := getConfigDir env }

/-- `load_config`, of a path where there is a file or not. -/
def loadConfig (R : Runtime) (env : HubEnv) : Option (Dict String Json) → Checked HubConfig
  | none => applyEnvOverrides env (defaultConfig env)
  | some raw => do
    let config ← readConfig R env raw
    applyEnvOverrides env config

/-! ### Saving -/

/-- `len(value)` -/
def Json.len : Json → Checked ℕ
  | .str s => .ok s.length
  | .arr l => .ok l.length
  | .obj entries => .ok (toDict entries).size
  | _ => .error .type

/-- `DROP_GUARD_THRESHOLD`, as the double it is. -/
def dropGuardThreshold : ℚ :=
  match Double.ofRat (7 / 10) with
  | .finite q => q
  | _ => 0

/-- `int(existing_count * _drop_threshold)` -/
def dropGuardMinimum (existingCount : ℕ) : ℤ :=
  ((Double.ofRat (existingCount * dropGuardThreshold)).truncate).getD 0

/-- `get_snapshots_dir` -/
def getSnapshotsDir (configDir : String) : String := configDir ++ "/snapshots"

/-- The guard against a drop of the number of servers, for a file in some directory. -/
def countDropGuard (configDir : String) (existing : Option (Dict String Json)) (force : Bool)
    (newCount : ℕ) : Checked Unit :=
  match existing with
  | none => .ok ()
  | some existing =>
    if force then .ok ()
    else do
      let existingCount ← (serversRaw existing).len
      if 5 < existingCount ∧ (newCount : ℤ) < dropGuardMinimum existingCount then
        .error (.runtime
          (s!"REFUSING to save: MCP count would drop from {existingCount} to {newCount} " ++
            "(>30% loss). Pass force=True or use 'slm-hub config restore' if this is unintended. " ++
              s!"Snapshots: {getSnapshotsDir configDir}"))
      else .ok ()

/-- What `save_config` writes under the name of a server. -/
def savedServer (R : Runtime) (srv : MCPServerConfig) : Checked (String × Json) := do
  let srv ← validateServerConfig R srv.unchecked
  pure (srv.name, .obj (serverEntry srv).entries)

/-- The settings of a configuration, under the names the file has for them. The directory is not
among them: `save_config` does not write it. -/
def HubConfig.settings (config : HubConfig) : List (String × Json) :=
  [("host", config.host),
    ("port", config.port),
    ("session_timeout_seconds", config.sessionTimeoutSeconds),
    ("max_sessions", config.maxSessions),
    ("cache_ttl_seconds", config.cacheTtlSeconds),
    ("cache_max_entries", config.cacheMaxEntries),
    ("idle_shutdown_seconds", config.idleShutdownSeconds),
    ("log_level", config.logLevel),
    ("cors_origins", .arr config.corsOrigins),
    ("plugins_enabled", .arr config.pluginsEnabled),
    ("webhooks", .arr config.webhooks),
    ("startup_max_concurrency", .int config.startupMaxConcurrency),
    ("idle_ttl_seconds", .int config.idleTtlSeconds),
    ("max_live_backends", .int config.maxLiveBackends),
    ("event_store_enabled", .bool config.eventStoreEnabled),
    ("event_store_max_events_per_stream", .int config.eventStoreMaxEventsPerStream),
    ("event_store_max_streams", .int config.eventStoreMaxStreams),
    ("event_store_stream_ttl_s", .float config.eventStoreStreamTtlS),
    ("transport_stateful", .bool config.transportStateful),
    ("dashboard_enabled", .bool config.dashboardEnabled),
    ("dashboard_bind", .str config.dashboardBind),
    ("event_queue_maxsize", .int config.eventQueueMaxsize)]

/-- `save_config` to the directory of the configuration, where there is a file or not: the content
written. -/
def saveConfig (R : Runtime) (existing : Option (Dict String Json)) (config : HubConfig)
    (force : Bool) : Checked (Dict String Json) := do
  countDropGuard config.configDir existing force config.mcpServers.length
  let servers ← config.mcpServers.mapM (savedServer R)
  let servers := Json.obj (Dict.empty.setAll servers).entries
  pure (Dict.empty.setAll
    (config.settings.take 2 ++ [("mcpServers", servers)] ++ config.settings.drop 2))

end SlmMcpHub
