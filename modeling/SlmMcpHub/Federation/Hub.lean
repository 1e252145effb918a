import Mathlib.Data.Rat.Defs
import Mathlib.Algebra.Order.Ring.Rat
import SlmMcpHub.Core.Config
import SlmMcpHub.Core.Registry
import SlmMcpHub.Library.Operation

/-!
# The state of the hub

What the tasks of the hub share: the tables of `ConnectionManager`, the attributes of the
`MCPConnection` and `ConnectionSupervisor` objects, the activity table of the `IdleReaper`, and the
locks and events of the event loop. `Act.apply` is what each assignment, or each group of
assignments that no `await` separates, does to it.

Objects live in heaps and are referred to by a number. What an object can never change is part of
the reference: a connection has one configuration for life, a supervisor one connection.

The time is that of the monotonic clock and passes only between two turns of the loop.

`history` is not read by any program. It records what the properties of runs speak about: who asked
for what, what was synced, connected, evicted and removed. `Act.event?` is what an act adds to it.

## Main definitions

* `Hub` — the shared state
* `Act`, `Act.apply`, `Act.event?` — its atomic changes, and what is remembered of them
* `Hub.syncedMap` — the map `_sync_registry` hands to the registry
* `Hub.idleBackends` — the selection of an idle sweep
-/

namespace SlmMcpHub

/-! ### Objects -/

/-- `ConnectionState` -/
inductive ConnectionState where
  | disconnected
  | connecting
  | connected
  | draining
  | error
  | authRequired
  | starting
  | initializing
  | ready
  | degraded
  | reconnecting
  | circuitOpen
  | stopped
  | failed
  deriving DecidableEq

theorem ConnectionState.connecting_ne_connected : connecting ≠ connected := by decide

theorem ConnectionState.error_ne_connected : error ≠ connected := by decide

theorem ConnectionState.authRequired_ne_connected : authRequired ≠ connected := by decide

/-- A reference to an `MCPConnection`. -/
structure ConnRef where
  id : ℕ
  config : MCPServerConfig
  deriving DecidableEq

/-- `MCPConnection.name` -/
def ConnRef.name (x : ConnRef) : String := x.config.name

/-- A reference to a `ConnectionSupervisor`. -/
structure SupRef where
  id : ℕ
  conn : ConnRef
  deriving DecidableEq

/-- The attributes of an `MCPConnection`. The requests that make up the counter `_in_flight` are
told apart by numbers, and of the outbound client only its being there matters. -/
structure MCPConnection where
  state : ConnectionState := .disconnected
  capabilities : Capabilities := {}
  inFlight : List ℕ := []
  drainEvent : Option ℕ := none
  drainLock : Option ℕ := none
  outbound : Bool := false
  subscribers : List SupRef := []

/-- The attributes of a `ConnectionSupervisor`. -/
structure ConnectionSupervisor where
  consecutiveFailures : ℕ := 0
  needsAttention : Bool := false
  breakerOpen : Bool := false
  breakerOpenCycles : ℕ := 0
  task : Option TaskId := none
  stopEvent : Option ℕ := none
  dropEvent : Option ℕ := none

/-- `failure_threshold` -/
def failureThreshold : ℕ := 5

/-- `escalation_after` -/
def escalationAfter : ℕ := 3

/-! ### What is remembered of a run -/

/-- A call of `_sync_registry`. -/
structure SyncRecord where
  /-- What the registry was built from before. -/
  previous : Dict String Capabilities
  /-- What it was given. -/
  servers : Dict String Capabilities
  before : Registry
  after : Registry
  /-- Whether a notifier was attached, and whether it was told. -/
  attached : Bool
  notified : Bool

/-- Something that happened in a run. -/
inductive Event where
  /-- The registry was synced. -/
  | synced (r : SyncRecord)
  /-- `evict` cached the capabilities of a connected backend. -/
  | cached (name : String) (caps : Capabilities)
  /-- A connection of the backend became CONNECTED. -/
  | connected (name : String) (time : ℚ)
  /-- An attempt to connect the backend ended with a connected connection. -/
  | landed (name : String)
  /-- The cached capabilities of the backend were given up. -/
  | takenDown (name : String)
  /-- All cached capabilities were given up. -/
  | allTakenDown
  /-- A caller asked for connections of these backends. -/
  | asked (names : List String)
  /-- A caller added the backend. -/
  | added (name : String)
  /-- An eviction of the backend was completed. -/
  | evicted (name : String)
  /-- A removal of the backend was completed. -/
  | removed (name : String)
  /-- A tool call to the backend was completed. -/
  | completed (name : String) (time : ℚ)

/-- The map the registry was last built from; a cleared one is as after an empty map. -/
def lastSynced : List Event → Dict String Capabilities
  | [] => .empty
  | .synced r :: _ => r.servers
  | .allTakenDown :: _ => .empty
  | _ :: h => lastSynced h

/-- The shared state. -/
structure Hub where
  config : HubConfig
  registry : Registry := .empty
  connections : Dict String ConnRef := .empty
  failed : Dict String String := .empty
  connectEvents : Dict String ℕ := .empty
  evictedCaps : Dict String Capabilities := .empty
  supervisors : Dict String SupRef := .empty
  /-- The dictionary the router was given, once it is no longer `connections`. -/
  routerPool : Option (Dict String ConnRef) := none
  notifierAttached : Bool := false
  shutdown : Bool := false
  retryTask : Option TaskId := none
  reaperTask : Option TaskId := none
  lastActivity : Dict String ℚ := .empty
  now : ℚ := 0
  conns : ℕ → MCPConnection := fun _ => {}
  sups : ℕ → ConnectionSupervisor := fun _ => {}
  events : ℕ → Bool := fun _ => false
  /-- How often a lock or semaphore can be taken; the manager's `_lock` is number 0. -/
  permits : ℕ → ℕ := fun _ => 1
  nextConn : ℕ := 0
  nextSup : ℕ := 0
  nextEvent : ℕ := 0
  nextLock : ℕ := 1
  nextRequest : ℕ := 0
  /-- What has happened, newest first. -/
  history : List Event := []

namespace Hub

/-- The attributes of a connection. -/
def conn (s : Hub) (x : ConnRef) : MCPConnection := s.conns x.id

/-- The attributes of a supervisor. -/
def sup (s : Hub) (p : SupRef) : ConnectionSupervisor := s.sups p.id

/-- `is_connected` -/
def isConnected (s : Hub) (x : ConnRef) : Bool := (s.conn x).state = .connected

/-- The connection is the one stored under its server name. -/
def Stored (s : Hub) (x : ConnRef) : Prop := s.connections.get? x.name = some x

instance (s : Hub) (x : ConnRef) : Decidable (s.Stored x) :=
  inferInstanceAs (Decidable (_ = _))

/-- Change a connection. -/
def modifyConn (s : Hub) (x : ConnRef) (f : MCPConnection → MCPConnection) : Hub :=
  { s with conns := Function.update s.conns x.id (f (s.conns x.id)) }

/-- Change a supervisor. -/
def modifySup (s : Hub) (p : SupRef) (f : ConnectionSupervisor → ConnectionSupervisor) : Hub :=
  { s with sups := Function.update s.sups p.id (f (s.sups p.id)) }

/-- `Event()`: the number of the new event is `nextEvent` of the state before. -/
def newEvent (s : Hub) : Hub :=
  { s with events := Function.update s.events s.nextEvent false, nextEvent := s.nextEvent + 1 }

/-- `_transition`, with the `_capture_event` of the subscribers: leaving CONNECTED sets their drop
events. -/
def transition (s : Hub) (x : ConnRef) (target : ConnectionState) : Hub :=
  { s.modifyConn x fun c => { c with state := target } with
    events := fun e => s.events e ||
      (s.isConnected x && (s.conn x).subscribers.any fun p => (s.sup p).dropEvent = some e) }

/-- The map `_sync_registry` builds: what is cached, overridden by what is live. -/
def syncedMap (s : Hub) : Dict String Capabilities :=
  (Dict.empty.setAll s.evictedCaps.entries).setAll
    ((s.connections.entries.filter fun e => s.isConnected e.2).map
      fun e => (e.1, (s.conn e.2).capabilities))

/-- What is remembered of a call of `_sync_registry`. -/
def syncRecord (s : Hub) : SyncRecord :=
  let result := s.registry.sync s.syncedMap
  { previous := lastSynced s.history, servers := s.syncedMap, before := s.registry
    after := result.1, attached := s.notifierAttached, notified := result.2 && s.notifierAttached }

/-- `IdleReaper.seed_activity` -/
def seedActivity (s : Hub) (name : String) : Hub :=
  { s with
    lastActivity :=
      if s.lastActivity.contains name then s.lastActivity else s.lastActivity.set name s.now }

/-- The connections the router looks into. -/
def pool (s : Hub) : Dict String ConnRef := s.routerPool.getD s.connections

/-- The selection of `IdleReaper._check_and_evict`. -/
def idleBackends (s : Hub) : List String :=
  (s.config.mcpServers.filter fun cfg =>
    cfg.spawn = .lazy && !cfg.isPinned &&
      (s.connections.get? cfg.name).any (fun x => s.isConnected x) &&
      !(s.connections.get? cfg.name).any (fun x => !(s.conn x).inFlight.isEmpty) &&
      (s.lastActivity.get? cfg.name).any fun last => s.config.idleTtlSeconds < s.now - last).map
    MCPServerConfig.name

end Hub

/-! ### Acts -/

/-- The atomic changes of the shared state. -/
inductive Act where
  /-- `_transition`; CONNECTED is reached by `establish` alone. -/
  | transition (x : ConnRef) (target : ConnectionState) (ne : target ≠ .connected := by decide)
  /-- The end of a successful `connect`: client, capabilities, CONNECTED. -/
  | establish (x : ConnRef) (caps : Capabilities)
  /-- `self._outbound = None` -/
  | dropOutbound (x : ConnRef)
  /-- `self._drain_lock = asyncio.Lock()` -/
  | makeDrainLock (x : ConnRef)
  /-- `self._drain_event = asyncio.Event()` -/
  | armDrain (x : ConnRef)
  /-- `self._in_flight += 1` -/
  | beginRequest (x : ConnRef) (n : ℕ)
  /-- The `finally` of `_dispatch`. -/
  | endRequest (x : ConnRef) (n : ℕ)
  /-- `asyncio.Semaphore(permits)` -/
  | makeSemaphore (permits : ℕ)
  | take (l : ℕ)
  | release (l : ℕ)
  | setEvent (e : ℕ)
  /-- `conn = MCPConnection(cfg); self._connections[name] = conn` -/
  | storeConnection (x : ConnRef)
  /-- `connect_done = asyncio.Event(); self._connect_events[name] = connect_done` -/
  | enterGate (name : String)
  /-- `connect_done.set(); self._connect_events.pop(name, None)` -/
  | leaveGate (name : String) (e : ℕ)
  /-- The bookkeeping of `_connect_timed` after `connect` has returned. -/
  | connectReturned (x : ConnRef)
  /-- `self._failed[name] = message` -/
  | setFailed (name message : String)
  | popConnection (name : String)
  | popFailed (name : String)
  | popEvictedCaps (name : String)
  /-- `self._evicted_caps[name] = copy.deepcopy(conn.capabilities)`, with the connection stored
  under the name. -/
  | cacheCapabilities (name : String)
  /-- The last assignments of `disconnect_all`. -/
  | closeAll
  | clearSupervisors
  | setShutdown
  /-- `self._config = dc_replace(self._config, mcp_servers=servers)` -/
  | setServers (servers : List MCPServerConfig)
  | syncRegistry
  | setRetryTask (t : Option TaskId)
  | setReaperTask (t : Option TaskId)
  /-- `sup = ConnectionSupervisor(conn); manager._supervisors[name] = sup` -/
  | storeSupervisor (name : String) (p : SupRef)
  /-- `self._stop_event = asyncio.Event()` -/
  | armStop (p : SupRef)
  /-- `self._drop_event = asyncio.Event()` -/
  | armDrop (p : SupRef)
  | setSupervisorTask (p : SupRef) (t : Option TaskId)
  /-- `self._unsub()` -/
  | unsubscribe (p : SupRef)
  /-- `_on_connect_success` -/
  | resetFailures (p : SupRef)
  /-- `self.consecutive_failures += 1` -/
  | countFailure (p : SupRef)
  /-- One more cycle with the breaker open. -/
  | openBreaker (p : SupRef)
  /-- `IdleReaper.mark_activity` -/
  | markActivity (name : String)
  /-- The same at the end of a routed tool call. -/
  | markCompleted (name : String)
  /-- `IdleReaper.forget` -/
  | forget (name : String)
  /-- A tool call has ended that nothing marks. -/
  | complete (name : String)
  /-- The reaper has made its selection. -/
  | select (names : List String)
  /-- Nothing but something to remember. -/
  | note (e : Event)
  | nop

/-- What an act does. -/
def Act.apply (s : Hub) : Act → Hub
  | .transition x target _ => s.transition x target
  | .establish x caps =>
    (s.modifyConn x fun c => { c with outbound := true, capabilities := caps }).transition x
      .connected
  | .dropOutbound x => s.modifyConn x fun c => { c with outbound := false }
  | .makeDrainLock x =>
    { s.modifyConn x fun c => { c with drainLock := some s.nextLock } with
      permits := Function.update s.permits s.nextLock 1, nextLock := s.nextLock + 1 }
  | .armDrain x => (s.modifyConn x fun c => { c with drainEvent := some s.nextEvent }).newEvent
  | .beginRequest x n =>
    { s.modifyConn x fun c => { c with inFlight := n :: c.inFlight } with
      nextRequest := s.nextRequest + 1 }
  | .endRequest x n =>
    { s.modifyConn x fun c => { c with inFlight := c.inFlight.erase n } with
      events := fun e => s.events e ||
        (((s.conn x).inFlight.erase n).isEmpty && (s.conn x).drainEvent = some e) }
  | .makeSemaphore n =>
    { s with permits := Function.update s.permits s.nextLock n, nextLock := s.nextLock + 1 }
  | .take l => { s with permits := Function.update s.permits l (s.permits l - 1) }
  | .release l => { s with permits := Function.update s.permits l (s.permits l + 1) }
  | .setEvent e => { s with events := Function.update s.events e true }
  | .storeConnection x =>
    { s.modifyConn x fun _ => {} with
      connections := s.connections.set x.name x, nextConn := s.nextConn + 1 }
  | .enterGate name => { s with connectEvents := s.connectEvents.set name s.nextEvent }.newEvent
  | .leaveGate name e =>
    { s with
      events := Function.update s.events e true, connectEvents := s.connectEvents.erase name }
  | .connectReturned x =>
    { s with
      failed := s.failed.erase x.name
      evictedCaps := s.evictedCaps.erase x.name }.seedActivity x.name
  | .setFailed name message => { s with failed := s.failed.set name message }
  | .popConnection name => { s with connections := s.connections.erase name }
  | .popFailed name => { s with failed := s.failed.erase name }
  | .popEvictedCaps name => { s with evictedCaps := s.evictedCaps.erase name }
  | .cacheCapabilities name =>
    { s with evictedCaps := match s.connections.get? name with
        | none => s.evictedCaps
        | some x => s.evictedCaps.set name (s.conn x).capabilities }
  | .closeAll =>
    { s with
      connections := .empty
      routerPool := some s.pool
      failed := .empty
      evictedCaps := .empty
      registry := .empty }
  | .clearSupervisors => { s with supervisors := .empty }
  | .setShutdown => { s with shutdown := true }
  | .setServers servers => { s with config := { s.config with mcpServers := servers } }
  | .syncRegistry => { s with registry := (s.registry.sync s.syncedMap).1 }
  | .setRetryTask t => { s with retryTask := t }
  | .setReaperTask t => { s with reaperTask := t }
  | .storeSupervisor name p =>
    { (s.modifyConn p.conn fun c => { c with subscribers := c.subscribers ++ [p] }).modifySup p
        fun _ => {} with
      supervisors := s.supervisors.set name p, nextSup := s.nextSup + 1 }
  | .armStop p => (s.modifySup p fun r => { r with stopEvent := some s.nextEvent }).newEvent
  | .armDrop p => (s.modifySup p fun r => { r with dropEvent := some s.nextEvent }).newEvent
  | .setSupervisorTask p t => s.modifySup p fun r => { r with task := t }
  | .unsubscribe p =>
    s.modifyConn p.conn fun c => { c with subscribers := c.subscribers.erase p }
  | .resetFailures p => s.modifySup p fun r =>
    { r with consecutiveFailures := 0, breakerOpen := false, needsAttention := false }
  | .countFailure p => s.modifySup p fun r =>
    { r with consecutiveFailures := r.consecutiveFailures + 1 }
  | .openBreaker p => s.modifySup p fun r =>
    { r with
      breakerOpen := true
      breakerOpenCycles := r.breakerOpenCycles + 1
      needsAttention := r.needsAttention || escalationAfter ≤ r.breakerOpenCycles + 1 }
  | .markActivity name => { s with lastActivity := s.lastActivity.set name s.now }
  | .markCompleted name => { s with lastActivity := s.lastActivity.set name s.now }
  | .forget name => { s with lastActivity := s.lastActivity.erase name }
  | .complete _ => s
  | .select _ => s
  | .note _ => s
  | .nop => s

/-- What is remembered of an act. -/
def Act.event? (s : Hub) : Act → Option Event
  | .establish x _ => some (.connected x.name s.now)
  | .connectReturned x => if s.isConnected x then some (.landed x.name) else none
  | .popEvictedCaps name => some (.takenDown name)
  | .cacheCapabilities name =>
    ((s.connections.get? name).filter fun x => s.isConnected x).map fun x =>
      .cached name (s.conn x).capabilities
  | .closeAll => some .allTakenDown
  | .syncRegistry => some (.synced s.syncRecord)
  | .markCompleted name => some (.completed name s.now)
  | .complete name => some (.completed name s.now)
  | .note e => some e
  | _ => none

/-- An act, with what is remembered of it. -/
def Act.eval (s : Hub) (a : Act) : Hub :=
  { a.apply s with history := (a.event? s).toList ++ s.history }

end SlmMcpHub
