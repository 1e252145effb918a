import SlmMcpHub.Federation.Connection

/-!
# The connection manager

`federation/manager.py` and `federation/manager_retry.py`, function by function. An operation that
callers use to ask for a connection is inside a section `requesting`, and inside `armed` from where
it has the configuration of the backend in hand.

## Main definitions

* `ConnectionManager.connectTimed` — the one way of the manager to connect a backend
* `ConnectionManager.ensureSupervisors` — the one way to start supervisors
-/

namespace SlmMcpHub

open HubOp MCPConnection

namespace ConnectionManager

/-- The manager's `_lock`. -/
def lock : ℕ := 0

/-- A caller asks for connections of these backends. -/
def requesting {α : Type} (names : List String) (p : HubOp α) : HubOp α :=
  inside (.note (.asked names)) (.requesting names) p

/-- Look up the configuration of a backend, and go on with it in hand. -/
def withConfig {α : Type} (name : String) (absent : α) (p : MCPServerConfig → HubOp α) :
    HubOp α := do
  let s ← get
  match s.config.find? name with
  | none => pure absent
  | some cfg => inside .nop (.armed [name]) (p cfg)

/-- The `try` of `_connect_timed` that is past the gate. -/
def connectStored (cfg : MCPServerConfig) : HubOp Unit := do
  let s ← get
  let x : ConnRef := ⟨s.nextConn, cfg⟩
  inside (.storeConnection x) (.attempt x) do
    tryCatch (do
      waitFor (connect x true)
      act (.connectReturned x)) fun e => do
        if e = .timeout then
          act (.setFailed cfg.name "Connection timed out after 60s")
          catchException (disconnect x) fun _ => pure ()
        else if e.isException then
          act (.setFailed cfg.name e.message)
        else
          throw e
    act .syncRegistry

/-- `_connect_timed` -/
def connectTimed (cfg : MCPServerConfig) : HubOp Unit := do
  let s ← get
  match s.connectEvents.get? cfg.name with
  | some e => wait' (.event e)
  | none =>
    act (.enterGate cfg.name)
    (connectStored cfg).ensure (act (.leaveGate cfg.name s.nextEvent))

/-- `_disconnect_one` -/
def disconnectStored (serverName : String) : HubOp Unit := do
  let s ← get
  match s.connections.get? serverName with
  | none => pure ()
  | some x => catchException (disconnect x) fun _ => pure ()

/-! ### The supervisors of the fleet -/

/-- The connection stored for a backend, a new one if there is none. -/
def storedConnection (cfg : MCPServerConfig) : HubOp ConnRef := do
  let s ← get
  match s.connections.get? cfg.name with
  | some x => pure x
  | none =>
    act (.storeConnection ⟨s.nextConn, cfg⟩)
    pure ⟨s.nextConn, cfg⟩

/-- A new supervisor for a backend, started. -/
def startSupervisor (name : String) (p : SupRef) : HubOp Unit := do
  act (.storeSupervisor name p)
  act (.armStop p)
  let t ← Op.spawn (S := hubSignature) (.supervised p)
  act (.setSupervisorTask p (some t))

/-- The round of `ensure_supervisors` for one backend. -/
def ensureSupervisor (cfg : MCPServerConfig) : HubOp Unit := do
  let s ← get
  if s.shutdown ∨ !cfg.enabled then
    pure ()
  else if (s.connections.get? cfg.name).any fun x => (s.conn x).state = .failed then
    pure ()
  else
    let running ← isRunning ((s.supervisors.get? cfg.name).bind fun p => (s.sup p).task)
    if running then
      pure ()
    else
      let x ← storedConnection cfg
      startSupervisor cfg.name ⟨s.nextSup, x⟩

/-- `ensure_supervisors` -/
def ensureSupervisors : HubOp Unit := do
  let s ← get
  Op.forEach s.config.mcpServers ensureSupervisor

/-- `supervisor_fleet_coordinator`, up to its loop. -/
def coordinator : HubOp Unit := do
  ensureSupervisors
  Op.jump .coordinating

/-- One round of the loop of `supervisor_fleet_coordinator`, and what comes after it. -/
def coordinating : HubOp Unit := do
  let s ← get
  if s.shutdown then
    Op.forEach s.supervisors.values fun p =>
      catchException (ConnectionSupervisor.stop p) fun _ => pure ()
  else
    wait' .sleep
    let s ← get
    Op.forEach s.supervisors.entries fun (supName, p) => do
      let s ← get
      when (s.isConnected p.conn ∧ s.failed.contains supName) do
        act (.popFailed supName)
        act .syncRegistry
    ensureSupervisors
    Op.jump .coordinating

/-- `start_retry_loop` -/
def startRetryLoop : HubOp Unit := do
  let s ← get
  let running ← isRunning s.retryTask
  if running then
    pure ()
  else
    let t ← Op.spawn (S := hubSignature) .coordinator
    act (.setRetryTask (some t))

/-! ### The idle reaper -/

/-- `IdleReaper.start` -/
def startReaper : HubOp Unit := do
  let s ← get
  if s.config.idleTtlSeconds = 0 then
    pure ()
  else
    let running ← isRunning s.reaperTask
    if running then
      pure ()
    else
      let t ← Op.spawn (S := hubSignature) .reaper
      act (.setReaperTask (some t))

/-- `IdleReaper.stop` -/
def stopReaper : HubOp Unit := do
  let s ← get
  act (.setReaperTask none)
  whenSome s.reaperTask fun t => do
    let running ← isRunning (some t)
    when running (cancelAndWait t)

/-- `IdleReaper._check_and_evict` -/
def checkAndEvict : HubOp Unit := do
  let s ← get
  if s.config.idleTtlSeconds = 0 then
    pure ()
  else
    act (.select s.idleBackends)
    when (s.idleBackends ≠ []) (gatherSettled (s.idleBackends.map Call.evict))

/-- One round of `IdleReaper._loop`. -/
def reaperLoop : HubOp Unit := do
  wait' .sleep
  catchException checkAndEvict fun _ => pure ()
  Op.jump .reaper

/-! ### Eviction -/

/-- `evict` -/
def evict (name : String) : HubOp Unit := do
  let s ← get
  if (s.config.find? name).any MCPServerConfig.isPinned then
    pure ()
  else
    match s.connections.get? name with
    | none => act (.note (.evicted name))
    | some x =>
      act (.cacheCapabilities name)
      catchException (drainAndDisconnect x) fun _ => pure ()
      withLock lock do
        act (.forget name)
        act .syncRegistry
      act (.note (.evicted name))

/-- `select_lru_victim`: the first of the candidates that were used least recently. -/
def selectLruVictim (candidates : List String) (lastActivity : Dict String ℚ) : Option String :=
  candidates.foldl (fun best n =>
    match best with
    | none => some n
    | some b =>
      match lastActivity.get? n, lastActivity.get? b with
      | none, some _ => some n
      | some t, some u => if t < u then some n else some b
      | _, none => some b) none

/-- `_apply_lru_cap` -/
def applyLruCap (connectingName : String) : HubOp Unit := do
  let s ← get
  if s.config.maxLiveBackends = 0 then
    pure ()
  else
    let pinned := (s.config.mcpServers.filter MCPServerConfig.isPinned).map MCPServerConfig.name
    let live := (s.connections.entries.filter fun (n, x) =>
      s.isConnected x && !pinned.contains n && n ≠ connectingName).map Prod.fst
    if live.length < s.config.maxLiveBackends then
      pure ()
    else
      match selectLruVictim live s.lastActivity with
      | none => pure ()
      | some victim => evict victim

/-! ### The operations -/

/-- What an operation that ends with a connection attempt returns. -/
def report (name failure : String) : HubOp (Bool × String) := do
  let s ← get
  match s.failed.get? name with
  | some message => pure (false, s!"{failure}: {message}")
  | none =>
    match s.connections.get? name with
    | none => throw (.other "KeyError" name .transient)
    | some x => pure (true, s!"Connected: {(s.conn x).capabilities.tools.length} tools")

/-- `reconnect` -/
def reconnect (serverName : String) : HubOp (Bool × String) :=
  requesting [serverName] do
    withConfig serverName (false, s!"Server '{serverName}' not found in config") fun cfg => do
      let s ← get
      when ((s.connections.get? serverName).any fun x => s.isConnected x)
        (disconnectStored serverName)
      connectTimed cfg
      report serverName "Failed"

/-- `connect_one` -/
def connectOne (serverName : String) : HubOp Bool := do
  let (ok, _) ← reconnect serverName
  pure ok

/-- `ensure_connected` -/
def ensureConnected (name : String) : HubOp Bool :=
  requesting [name] do
    let s ← get
    if (s.connections.get? name).any fun x => s.isConnected x then
      pure true
    else
      withConfig name false fun cfg => do
        when (!cfg.isPinned) (applyLruCap name)
        connectTimed cfg
        let s ← get
        pure ((s.connections.get? name).any fun x => s.isConnected x)

/-- `_bounded`, the task of `connect_all` for one server. -/
def bounded (sem : ℕ) (cfg : MCPServerConfig) : HubOp Unit :=
  withLock sem (connectTimed cfg)

/-- The servers of a phase of `connect_all`, asked for and in hand. -/
def phase {α : Type} (servers : List MCPServerConfig) (p : HubOp α) : HubOp α :=
  inside .nop (.armed (servers.map MCPServerConfig.name))
    (requesting (servers.map MCPServerConfig.name) p)

/-- `connect_all` from where it has read the configuration. From the start of its task on, a server
is in the hands of that task alone. -/
def connectServers (stdio http : List MCPServerConfig) : HubOp (Dict String String) := do
  let httpTasks ← phase http do
    let s ← get
    let stdioTasks ← phase stdio do
      act (.makeSemaphore s.config.startupMaxConcurrency)
      spawnAll (stdio.map (Call.bounded s.nextLock))
    when (stdio ≠ []) (wait' (.gather stdioTasks))
    spawnAll (http.map (Call.bounded s.nextLock))
  when (http ≠ []) (wait' (.gather httpTasks))
  let s ← get
  when (s.failed.size ≠ 0) startRetryLoop
  startReaper
  let s ← get
  pure s.failed

/-- `connect_all` -/
def connectAll : HubOp (Dict String String) := do
  let s ← get
  let enabled := s.config.mcpServers.filter MCPServerConfig.enabled
  if enabled = [] then
    pure .empty
  else
    connectServers (enabled.filter fun cfg => cfg.transport = .stdio)
      (enabled.filter fun cfg => cfg.transport ≠ .stdio)

/-- `disconnect_all` -/
def disconnectAll : HubOp Unit := do
  act .setShutdown
  let s ← get
  whenSome s.retryTask fun t => do
    let running ← isRunning (some t)
    when running do
      cancelAndWait t
      act (.setRetryTask none)
  stopReaper
  let s ← get
  when (s.supervisors.size ≠ 0) do
    Op.forEach s.supervisors.values fun p =>
      catchException (ConnectionSupervisor.stop p) fun _ => pure ()
    act .clearSupervisors
  let s ← get
  when (s.connections.size ≠ 0) (gather (s.connections.keys.map Call.closing))
  act .closeAll

/-- `disconnect_one` -/
def disconnectOne (serverName : String) : HubOp Unit :=
  withLock lock do
    disconnectStored serverName
    act (.popConnection serverName)
    act (.popFailed serverName)
    act (.popEvictedCaps serverName)
    act (.forget serverName)
    act .syncRegistry

/-- What `add_server` does under the lock; whether it found the server connected. -/
def registerAndConnect (cfg : MCPServerConfig) : HubOp Bool := do
  let s ← get
  if (s.connections.get? cfg.name).any fun x => s.isConnected x then
    pure true
  else
    when (s.config.find? cfg.name).isNone (act (.setServers (s.config.mcpServers ++ [cfg])))
    connectTimed cfg
    pure false

/-- `add_server` -/
def addServer (cfg : MCPServerConfig) : HubOp (Bool × String) :=
  requesting [cfg.name] do
    inside (.note (.added cfg.name)) (.armed [cfg.name]) do
      let known ← withLock lock (registerAndConnect cfg)
      if known then
        pure (false, s!"Server '{cfg.name}' is already connected")
      else
        report cfg.name "Failed to connect"

/-- What `remove_server` does under the lock. -/
def deregister (serverName : String) : HubOp Unit := do
  act (.popConnection serverName)
  act (.popFailed serverName)
  act (.popEvictedCaps serverName)
  act (.forget serverName)
  let s ← get
  act (.setServers (s.config.mcpServers.filter fun cfg => cfg.name ≠ serverName))
  act .syncRegistry

/-- `remove_server` -/
def removeServer (serverName : String) : HubOp (Bool × String) := do
  let s ← get
  match s.connections.get? serverName with
  | none => pure (false, s!"Server '{serverName}' not found in active connections")
  | some x =>
    drainAndDisconnect x
    withLock lock (deregister serverName)
    act (.note (.removed serverName))
    pure (true, s!"Removed and deregistered: {serverName}")

/-- What `replace_server` does under the lock. -/
def replaceConfig (cfg : MCPServerConfig) : HubOp Unit := do
  act (.popConnection cfg.name)
  act (.popFailed cfg.name)
  let s ← get
  act (.setServers (s.config.mcpServers.map fun c => if c.name = cfg.name then cfg else c))

/-- `replace_server` -/
def replaceServer (cfg : MCPServerConfig) : HubOp (Bool × String) :=
  requesting [cfg.name] do
    let s ← get
    whenSome (s.connections.get? cfg.name) fun x => do
      drainAndDisconnect x
      withLock lock (replaceConfig cfg)
    addServer cfg

/-- The round of `fast_retry_failed` for one failed backend. -/
def fastRetry (name : String) : HubOp Unit :=
  requesting [name] do
    withConfig name () fun cfg => do
      let s ← get
      whenSome (s.connections.get? name) fun old => do
        act (.popConnection name)
        catchException (disconnect old) fun _ => pure ()
      withLock lock (connectTimed cfg)

/-- `fast_retry_failed`; `delays` are its gaps that are left. -/
def fastRetryRounds : ℕ → HubOp (Dict String String)
  | 0 => do
    let s ← get
    pure s.failed
  | delays + 1 => do
    let s ← get
    if s.failed.size = 0 ∨ s.shutdown then
      pure s.failed
    else
      wait' .sleep
      let s ← get
      Op.forEach s.failed.keys fastRetry
      fastRetryRounds delays

/-- `fast_retry_failed`, with its three gaps. -/
def fastRetryFailed : HubOp (Dict String String) := fastRetryRounds 3

end ConnectionManager

end SlmMcpHub
