import SlmMcpHub.Federation.Signature

/-!
# Connections and their supervisors

`federation/connection.py` and `resilience/supervisor.py`: `MCPConnection` and the loop of
`ConnectionSupervisor` around it. The loop of the source goes on with `continue`; here it jumps to
itself, so that a task of a supervisor is in `supervised` between two rounds and in nothing else.

A supervisor that waits for its stop event and does nothing after it is in `parked` instead.
-/

namespace SlmMcpHub

open HubOp

namespace MCPConnection

/-- `MCPConnection.connect`. -/
def connect (x : ConnRef) (timed : Bool) : HubOp Unit := do
  let s ← get
  if s.isConnected x then
    pure ()
  else
    inside (.transition x .connecting) (.connect x) do
      match ← caught (wait (.outbound timed)) with
      | .error .authRequired => act (.transition x .authRequired)
      | .error (.connection message cls) =>
        act (.transition x .error)
        throw (.connection message cls)
      | .error e =>
        if e.isException then
          act (.transition x .error)
          throw (.connection s!"MCP {x.name} initialization failed ({e.typeName})" e.classify)
        else
          throw e
      | .ok (.connected caps) => act (.establish x caps)
      | .ok _ => pure ()

/-- `MCPConnection.disconnect` -/
def disconnect (x : ConnRef) : HubOp Unit := do
  let s ← get
  when (s.conn x).outbound do
    catchException (wait' .close) fun _ => pure ()
    act (.dropOutbound x)
  act (.transition x .disconnected)

/-- `MCPConnection.drain_and_disconnect` -/
def drainAndDisconnect (x : ConnRef) : HubOp Unit := do
  let s ← get
  let l := (s.conn x).drainLock.getD s.nextLock
  when (s.conn x).drainLock.isNone (act (.makeDrainLock x))
  withLock l do
    let s ← get
    if (s.conn x).state ≠ .connected ∧ (s.conn x).state ≠ .draining then
      disconnect x
    else
      act (.transition x .draining)
      let s ← get
      when (!(s.conn x).inFlight.isEmpty) do
        act (.armDrain x)
        tryCatch (waitFor (wait' (.eventFor s.nextEvent))) fun
          | .timeout => pure ()
          | e => throw e
      disconnect x

/-- `MCPConnection._check_callable` -/
def checkCallable (x : ConnRef) : HubOp Unit := do
  let s ← get
  if (s.conn x).state = .draining then
    throw (.connection s!"MCP {x.name} is draining — no new requests accepted" .transient)
  else if !(s.conn x).outbound then
    throw (.connection s!"MCP {x.name} not connected" .transient)
  else
    pure ()

/-- `MCPConnection._dispatch`, of a request of some kind. -/
def dispatch (x : ConnRef) (kind : RequestKind) : HubOp CallResult := do
  let s ← get
  Op.within (S := hubSignature) (.beginRequest x s.nextRequest) (.dispatch x s.nextRequest kind)
    (.endRequest x s.nextRequest) do
    match ← wait .request with
    | .answered result => pure result
    | _ => pure {}

/-- `call_tool`, `call_tool_streaming`, `read_resource` and `get_prompt`. -/
def request (x : ConnRef) (kind : RequestKind) : HubOp CallResult := do
  checkCallable x
  dispatch x kind

end MCPConnection

namespace ConnectionSupervisor

open MCPConnection

/-- `ConnectionSupervisor.stop` -/
def stop (p : SupRef) : HubOp Unit := do
  let s ← get
  whenSome (s.sup p).stopEvent fun e => act (.setEvent e)
  whenSome (s.sup p).dropEvent fun e => act (.setEvent e)
  whenSome (s.sup p).task fun t => do
    let running ← isRunning (some t)
    when running do
      cancelAndWait t
      act (.setSupervisorTask p none)
  act (.unsubscribe p)

/-- Whether the stop event of a supervisor is set. -/
def stopped (s : Hub) (p : SupRef) : Bool := (s.sup p).stopEvent.any fun e => s.events e

/-- What `_handle_connect_failure` does about a transient failure: the breaker opens, or stays open,
or the connection enters the backoff. -/
def afterFailure (s : Hub) (p : SupRef) : HubOp Unit :=
  if failureThreshold ≤ (s.sup p).consecutiveFailures ∨ (s.sup p).breakerOpen then do
    act (.transition p.conn .circuitOpen)
    act (.openBreaker p)
  else
    act (.transition p.conn .reconnecting)

/-- `_handle_connect_failure`, and the `continue` after it. -/
def handleConnectFailure (p : SupRef) (e : Exc) : HubOp Unit := do
  match e.classify with
  | .auth => Op.jump (.parked p)
  | .terminal =>
    act (.transition p.conn .failed)
    let s ← get
    whenSome (s.sup p).stopEvent fun e => act (.setEvent e)
    Op.jump (.supervised p)
  | .transient =>
    act (.countFailure p)
    let s ← get
    afterFailure s p
    wait' .sleep
    Op.jump (.supervised p)

/-- `_wait_for_drop_or_stop` -/
def waitForDropOrStop (p : SupRef) : HubOp Unit := do
  let s ← get
  if s.isConnected p.conn then
    match (s.sup p).stopEvent, (s.sup p).dropEvent with
    | some stop, some drop => wait' (.either stop drop)
    | _, _ => pure ()

/-- What a round of the loop makes of the end of its attempt. -/
def afterAttempt (p : SupRef) : Except Exc Unit → HubOp Unit
  | .error .cancelled => throw .cancelled
  | .error .deadline => throw .deadline
  | .error (.connection message cls) => handleConnectFailure p (.connection message cls)
  | .error e =>
    if e.classify = .auth then
      Op.jump (.parked p)
    else
      act (.transition p.conn .failed)
  | .ok () => do
    let s ← get
    if (s.conn p.conn).state = .authRequired then
      Op.jump (.parked p)
    else if (s.conn p.conn).state ≠ .connected then
      wait' .sleep
      Op.jump (.supervised p)
    else
      act (.resetFailures p)
      waitForDropOrStop p
      let s ← get
      if stopped s p then pure () else Op.jump (.supervised p)

/-- One round of `_supervised_loop`. -/
def supervisedLoop (p : SupRef) : HubOp Unit := do
  let s ← get
  if stopped s p then
    pure ()
  else
    act (.armDrop p)
    when ((s.sup p).breakerOpen ∧ (s.conn p.conn).state = .circuitOpen)
      (act (.transition p.conn .reconnecting))
    let ended ← caught (connect p.conn false)
    afterAttempt p ended

/-- `await stop.wait()`, with nothing but the end of the loop after it. -/
def park (p : SupRef) : HubOp Unit := do
  let s ← get
  whenSome (s.sup p).stopEvent fun e => wait' (.event e)

end ConnectionSupervisor

end SlmMcpHub
