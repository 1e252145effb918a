import SlmMcpHub.Federation.Signature
import SlmMcpHub.Library.RestLogic
import SlmMcpHub.Library.StackDiscipline

/-!
# The tasks of one connection

`MCPConnection` with its outbound clients, and the loop of the supervisor around it: the functions
of `Federation.Connection` at the level of the transports. A client is the number of an
`OutboundClient`; it opens one transport, which its exit stack holds until a close takes it off.

The answers of the world outside, the SDK and the clock, may come at any time and be anything, a
`CancelledError` included: `wait_for` and the cancel scopes of the SDK raise it without a request.
Opening that raises leaves no transport behind, and a close that has ended, in whatever way, has
closed what it took off the stack.

`history` is not read by any program. It keeps the lifecycle events and the dispatched calls.

## Main definitions

* `Connection` — the attributes of the connection and of its clients
* `connect`, `disconnect`, `drainAndDisconnect`, `request`, `supervisedLoop` — the operations
* `connection` — some of these operations as a system of tasks
-/

namespace SlmMcpHub

namespace ConnectionTasks

/-! ### The state -/

/-- `OutboundClient._stack` -/
inductive ExitStack where
  | unset
  /-- It holds the transport. -/
  | holding
  /-- A close has taken the transport off. -/
  | emptied
  deriving DecidableEq

/-- Something that happened to the connection. -/
inductive Event where
  /-- A `LifecycleEvent`. -/
  | changed (source target : ConnectionState)
  /-- A call was dispatched. -/
  | dispatched
  deriving DecidableEq

/-- The attributes of an `MCPConnection`, and those of its clients that decide about transports. -/
structure Connection where
  name : String := ""
  state : ConnectionState := .disconnected
  outbound : Option ℕ := none
  inFlight : ℕ := 0
  drainEvent : Option ℕ := none
  /-- `_drain_lock`, once it is there, and whether it is locked. -/
  drainLock : Option Bool := none
  events : ℕ → Bool := fun _ => false
  nextEvent : ℕ := 0
  nextClient : ℕ := 0
  exitStacks : ℕ → ExitStack := fun _ => .unset
  /-- The clients whose transports are open. -/
  transports : List ℕ := []
  /-- What has happened, newest first. -/
  history : List Event := []

/-- The attributes of a `ConnectionSupervisor` its loop goes by. -/
structure Supervisor where
  consecutiveFailures : ℕ := 0
  breakerOpen : Bool := false
  breakerOpenCycles : ℕ := 0
  needsAttention : Bool := false
  deriving DecidableEq

/-- The atomic changes of the state. -/
inductive Act where
  /-- `_transition` -/
  | transition (target : ConnectionState)
  /-- `_transition(CONNECTING)` and `OutboundClient(self._config)` -/
  | beginConnect
  /-- `enter_async_context` has returned: `self._stack = stack`. -/
  | opened (c : ℕ)
  /-- `self._outbound = outbound` and `_transition(CONNECTED)` -/
  | establish (c : ℕ)
  /-- Nothing: the exception that ends `OutboundClient.connect` passes by a client with an open
  transport, which nothing refers to afterwards. -/
  | abandon (c : ℕ)
  /-- `aclose` takes the transport off the stack. -/
  | popExit (c : ℕ)
  /-- The transport is closed. -/
  | closed (c : ℕ)
  /-- `self._stack = None` -/
  | dropStack (c : ℕ)
  /-- `self._outbound = None` -/
  | dropOutbound
  /-- `self._drain_lock = asyncio.Lock()` -/
  | makeDrainLock
  | take
  | release
  /-- `self._drain_event = asyncio.Event()` -/
  | armDrain
  /-- `self._in_flight += 1` -/
  | beginRequest
  /-- The `finally` of `_dispatch`. -/
  | endRequest
  | nop

/-- What a task can be in. -/
inductive Call where
  | connect
  | disconnect
  | drainAndDisconnect
  /-- `call_tool`, `call_tool_streaming`, `read_resource` or `get_prompt` -/
  | request
  | supervised (p : Supervisor)
  -- the sections
  /-- Past the check of `connect`, with a client of its own. -/
  | connecting (c : ℕ)
  /-- The transport is open and the capabilities are being discovered. -/
  | discovering (c : ℕ)
  /-- The transport is being closed. -/
  | closing (c : ℕ)
  /-- Inside the drain lock. -/
  | draining
  /-- A drain has found calls in flight. -/
  | waiting (e : ℕ)
  /-- Its timeout has elapsed. -/
  | expired
  /-- A call is dispatched. -/
  | dispatch
  deriving DecidableEq

/-- What a task can wait for. -/
inductive Wait where
  | turn
  /-- `stack.enter_async_context(client)` -/
  | enter
  /-- The requests of `_discover_capabilities`. -/
  | discover
  /-- What a close has taken off the stack. -/
  | close
  | lock
  /-- An event, for a limited time. -/
  | eventFor (e : ℕ)
  /-- The answer to a request. -/
  | answer
  /-- The backoff of the supervisor. -/
  | sleep
  /-- `_wait_for_drop_or_stop` -/
  | drop
  /-- `stop.wait()` -/
  | stop

/-- The signature of a connection. -/
abbrev connectionSignature : Signature := ⟨Connection, Act, Call, Wait, Except Exc Unit, Empty⟩

/-- Operations of a connection. -/
abbrev ConnOp (α : Type) := Op connectionSignature Exc α

/-! ### Operations -/

/-- The state. -/
def get : ConnOp Connection := Op.get (S := connectionSignature)

/-- A change of the state. -/
def act (a : Act) : ConnOp Unit := Op.act (S := connectionSignature) a

/-- Wait, and raise what comes back as an exception. -/
def wait (w : Wait) : ConnOp Unit := Coro.await (S := connectionSignature) w Coro.ret

/-- An operation inside a section. -/
def inside {α : Type} (enter : Act) (c : Call) (leave : Act) (p : ConnOp α) : ConnOp α :=
  Op.within (S := connectionSignature) enter c leave p

/-- `if` without `else` -/
def when (c : Prop) [Decidable c] (p : ConnOp Unit) : ConnOp Unit := if c then p else pure ()

/-- `try … except Exception: pass` -/
def swallow (p : ConnOp Unit) : ConnOp Unit :=
  tryCatch p fun e => if e.isException then pure () else throw e

/-- `try … except`, with how the operation has ended as a value. -/
def caught (p : ConnOp Unit) : ConnOp (Except Exc Unit) :=
  Coro.bind p fun ended => Coro.ret (.ok ended)

/-- `_is_discover_probe_rejection` -/
def isDiscoverProbeRejection : Exc → Bool
  | .streamDropped _ _ => true
  | _ => false

/-- The `ConnectionError` that stands for another exception. -/
def initializationFailed (name : String) (e : Exc) : Exc :=
  .connection s!"MCP {name} initialization failed ({e.typeName})" e.classify

namespace OutboundClient

/-- `OutboundClient.connect`, with what to do about an exception that is none of authorization. -/
def connectOr (c : ℕ) (failed : Exc → ConnOp Unit) : ConnOp Unit := do
  match ← caught (wait .enter) with
  | .ok () =>
    inside (.opened c) (.discovering c) .nop do
      tryCatch (wait .discover) fun e => do
        if e.isException then
          pure ()
        else
          act (.abandon c)
          throw e
  | .error .authRequired => throw .authRequired
  | .error e => if e.isException then failed e else throw e

/-- `OutboundClient.connect` in legacy mode. -/
def connectLegacy (name : String) (c : ℕ) : ConnOp Unit :=
  connectOr c fun e => throw (initializationFailed name e)

/-- `OutboundClient.connect` of a new client: a server that closes the connection on the probe is
tried once more in legacy mode. -/
def connect (name : String) (c : ℕ) : ConnOp Unit :=
  connectOr c fun e =>
    if isDiscoverProbeRejection e then connectLegacy name c
    else throw (initializationFailed name e)

/-- `OutboundClient.disconnect` -/
def disconnect (c : ℕ) : ConnOp Unit := do
  let s ← get
  match s.exitStacks c with
  | .unset => pure ()
  | .emptied => act (.dropStack c)
  | .holding =>
    swallow (inside (.popExit c) (.closing c) (.closed c) (wait .close))
    act (.dropStack c)

end OutboundClient

/-- What `MCPConnection.connect` makes of the end of `outbound.connect()`. -/
def finishConnect (name : String) (c : ℕ) : Except Exc Unit → ConnOp Unit
  | .ok () => act (.establish c)
  | .error .authRequired => act (.transition .authRequired)
  | .error (.connection message cls) => do
    act (.transition .error)
    throw (.connection message cls)
  | .error e =>
    if e.isException then do
      act (.transition .error)
      throw (initializationFailed name e)
    else
      throw e

/-- `MCPConnection.connect` -/
def connect : ConnOp Unit := do
  let s ← get
  if s.state = .connected then
    pure ()
  else
    inside .beginConnect (.connecting s.nextClient) .nop do
      let ended ← caught (OutboundClient.connect s.name s.nextClient)
      finishConnect s.name s.nextClient ended

/-- The `if` of `MCPConnection.disconnect`. -/
def closeOutbound : Option ℕ → ConnOp Unit
  | none => pure ()
  | some c => do
    swallow (OutboundClient.disconnect c)
    act .dropOutbound

/-- `MCPConnection.disconnect` -/
def disconnect : ConnOp Unit := do
  let s ← get
  closeOutbound s.outbound
  act (.transition .disconnected)

/-- The wait of a drain for the calls in flight, and what comes after it. -/
def awaitDrain (e : ℕ) : ConnOp Unit := do
  let expired ← tryCatch (do wait (.eventFor e); pure false) fun e =>
    if e = .timeout then pure true else throw e
  if expired then
    inside .nop .expired .nop disconnect
  else
    disconnect

/-- `MCPConnection.drain_and_disconnect`, inside the lock. -/
def drain : ConnOp Unit := do
  let s ← get
  if s.state ≠ .connected ∧ s.state ≠ .draining then
    disconnect
  else
    act (.transition .draining)
    if s.inFlight = 0 then
      disconnect
    else
      inside .armDrain (.waiting s.nextEvent) .nop (awaitDrain s.nextEvent)

/-- `MCPConnection.drain_and_disconnect` -/
def drainAndDisconnect : ConnOp Unit := do
  let s ← get
  when (s.drainLock = none) (act .makeDrainLock)
  when (s.drainLock = some true) (wait .lock)
  inside .take .draining .release drain

/-- A request: `_check_callable` and `_dispatch`. -/
def request : ConnOp Unit := do
  let s ← get
  if s.state = .draining then
    throw (.connection s!"MCP {s.name} is draining — no new requests accepted" .transient)
  else if s.outbound = none then
    throw (.connection s!"MCP {s.name} not connected" .transient)
  else
    inside .beginRequest .dispatch .endRequest (wait .answer)

/-! ### The supervisor -/

namespace Supervisor

/-- `_on_connect_success` -/
def reset (p : Supervisor) : Supervisor :=
  { p with consecutiveFailures := 0, breakerOpen := false, needsAttention := false }

/-- `self.consecutive_failures += 1` -/
def countFailure (p : Supervisor) : Supervisor :=
  { p with consecutiveFailures := p.consecutiveFailures + 1 }

/-- One more cycle with the breaker open. -/
def openBreaker (p : Supervisor) : Supervisor :=
  { p with
    breakerOpen := true
    breakerOpenCycles := p.breakerOpenCycles + 1
    needsAttention := p.needsAttention || escalationAfter ≤ p.breakerOpenCycles + 1 }

end Supervisor

/-- Go on with the next round of the loop. -/
def nextRound (p : Supervisor) : ConnOp Unit := Op.jump (S := connectionSignature) (.supervised p)

/-- `_handle_connect_failure`, and the `continue` after it. -/
def handleConnectFailure (p : Supervisor) (e : Exc) : ConnOp Unit :=
  match e.classify with
  | .auth => wait .stop
  | .terminal => act (.transition .failed)
  | .transient => do
    let p := p.countFailure
    if failureThreshold ≤ p.consecutiveFailures ∨ p.breakerOpen then
      act (.transition .circuitOpen)
      wait .sleep
      nextRound p.openBreaker
    else
      act (.transition .reconnecting)
      wait .sleep
      nextRound p

/-- What a round of the loop makes of the end of its attempt. -/
def afterAttempt (p : Supervisor) : Except Exc Unit → ConnOp Unit
  | .error (.connection message cls) => handleConnectFailure p (.connection message cls)
  | .error e =>
    if !e.isException then throw e
    else if e.classify = .auth then wait .stop
    else act (.transition .failed)
  | .ok () => do
    let s ← get
    if s.state = .authRequired then
      wait .stop
    else if s.state ≠ .connected then
      wait .sleep
      nextRound p
    else
      wait .drop
      nextRound p.reset

/-- One round of `_supervised_loop`. -/
def supervisedLoop (p : Supervisor) : ConnOp Unit := do
  let s ← get
  when (p.breakerOpen = true ∧ s.state = .circuitOpen) (act (.transition .reconnecting))
  let ended ← caught connect
  afterAttempt p ended

/-! ### The system -/

namespace Connection

/-- `_transition` -/
def transition (s : Connection) (target : ConnectionState) : Connection :=
  { s with state := target, history := .changed s.state target :: s.history }

end Connection

/-- What an act does. -/
def Act.eval (s : Connection) : Act → Connection
  | .transition target => s.transition target
  | .beginConnect => { s.transition .connecting with nextClient := s.nextClient + 1 }
  | .opened c =>
    { s with
      exitStacks := Function.update s.exitStacks c .holding, transports := c :: s.transports }
  | .establish c => { s with outbound := some c }.transition .connected
  | .abandon _ => s
  | .popExit c => { s with exitStacks := Function.update s.exitStacks c .emptied }
  | .closed c => { s with transports := s.transports.erase c }
  | .dropStack c => { s with exitStacks := Function.update s.exitStacks c .unset }
  | .dropOutbound => { s with outbound := none }
  | .makeDrainLock => { s with drainLock := some false }
  | .take => { s with drainLock := some true }
  | .release => { s with drainLock := some false }
  | .armDrain =>
    { s with
      drainEvent := some s.nextEvent
      events := Function.update s.events s.nextEvent false
      nextEvent := s.nextEvent + 1 }
  | .beginRequest => { s with inFlight := s.inFlight + 1, history := .dispatched :: s.history }
  | .endRequest =>
    { s with
      inFlight := s.inFlight - 1
      events := fun e => s.events e || (s.inFlight - 1 = 0 && s.drainEvent = some e) }
  | .nop => s

/-- Whether a wait can end, and with what. -/
def ready (w : World connectionSignature) (t : TaskId) : Wait → Except Exc Unit → Bool
  | .enter, _ | .discover, _ | .close, _ | .answer, _ => true
  | _, .error .cancelled => (w.tasks t).requested
  | .turn, .ok () | .sleep, .ok () | .drop, .ok () | .stop, .ok () => !(w.tasks t).requested
  | .lock, .ok () => !(w.tasks t).requested && Connection.drainLock w.state = some false
  | .eventFor e, .ok () => !(w.tasks t).requested && Connection.events w.state e
  | .eventFor _, .error e => !(w.tasks t).requested && e = .timeout
  | _, .error _ => false

/-- The program of a task. -/
def Call.program : Call → Coro connectionSignature (Except Exc Unit)
  | .connect => ConnectionTasks.connect
  | .disconnect => ConnectionTasks.disconnect
  | .drainAndDisconnect => ConnectionTasks.drainAndDisconnect
  | .request => ConnectionTasks.request
  | .supervised p => supervisedLoop p
  | _ => .ret (.ok ())

/-- The program of a task, given how the wait for its first turn ended. -/
def Call.body (c : Call) : Except Exc Unit → Coro connectionSignature (Except Exc Unit)
  | .ok () => c.program
  | .error e => .ret (.error e)

/-- A connection with these operations. -/
def connection (operations : Call → Bool) : System connectionSignature where
  eval _ a s := a.eval s
  turn := .turn
  ready := ready
  joins _ := []
  body c r := if operations c then c.body r else .ret r
  again := .ok ()
  client := operations
  tick e _ := nomatch e

/-- The operations of the connection, and the loop of its supervisor. -/
def isOperation : Call → Bool
  | .connect | .disconnect | .drainAndDisconnect | .request | .supervised _ => true
  | _ => false

/-- Every statement is allowed. -/
def anyStep : World connectionSignature → TaskId → Stmt connectionSignature → Prop :=
  fun _ _ _ => True

end ConnectionTasks

end SlmMcpHub
