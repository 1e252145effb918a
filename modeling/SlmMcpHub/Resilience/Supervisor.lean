import SlmMcpHub.Library.RestLogic
import SlmMcpHub.Library.StackDiscipline
import SlmMcpHub.Resilience.Classifier

/-!
# The supervisors of a connection

`resilience/supervisor.py`, and what it calls of `federation/connection.py`: a connection and the
supervisors that are made for it, each with a loop of its own. What else uses the connection shows
in its state alone: it may change between any two turns of the event loop, and every change is an
event the supervisors are told of.

A supervisor is started once, right after it has been made. `outbound.connect()` and the injected
sleep may end in any way at any time.

`history` is not read by any program. It keeps the lifecycle events, the beginnings of the rounds of
the loops, and the failures with what they have made of the breaker.

## Main definitions

* `Supervisor` — the attributes of a `ConnectionSupervisor`
* `Backend` — the connection with its supervisors
* `launch`, `stop`, `supervisedLoop` — the operations
* `supervision` — the system
-/

namespace SlmMcpHub

/-- The value of a `ConnectionState`. -/
def ConnectionState.value : ConnectionState → String
  | .disconnected => "disconnected"
  | .connecting => "connecting"
  | .connected => "connected"
  | .draining => "draining"
  | .error => "error"
  | .authRequired => "auth_required"
  | .starting => "starting"
  | .initializing => "initializing"
  | .ready => "ready"
  | .degraded => "degraded"
  | .reconnecting => "reconnecting"
  | .circuitOpen => "circuit_open"
  | .stopped => "stopped"
  | .failed => "failed"

namespace Resilience

/-! ### The state -/

/-- The attributes of a `ConnectionSupervisor`. -/
structure Supervisor where
  failureThreshold : ℤ := 5
  escalationAfter : ℤ := 3
  consecutiveFailures : ℕ := 0
  needsAttention : Bool := false
  restartCount : ℕ := 0
  lastError : Option String := none
  breakerOpen : Bool := false
  breakerOpenCycles : ℕ := 0
  task : Option TaskId := none
  stopEvent : Option ℕ := none
  dropEvent : Option ℕ := none
  /-- `_capture_event` is among the subscribers of the connection. -/
  subscribed : Bool := false

namespace Supervisor

/-- `_on_connect_success` -/
def onConnectSuccess (q : Supervisor) : Supervisor :=
  { q with
    consecutiveFailures := 0
    breakerOpen := false
    needsAttention := false
    lastError := none
    restartCount := q.restartCount + 1 }

/-- The text of `last_error`. -/
def noteError (q : Supervisor) (exc : Raised) (state : ConnectionState) : Supervisor :=
  let cls := (classifyFailure exc).value
  { q with lastError := some s!"failure_class={cls}, exc={exc.typeName}, state={state.value}" }

/-- `self.consecutive_failures += 1` -/
def countFailure (q : Supervisor) : Supervisor :=
  { q with consecutiveFailures := q.consecutiveFailures + 1 }

/-- The breaker opens. -/
def tripBreaker (q : Supervisor) : Supervisor :=
  let q := { q with breakerOpen := true, breakerOpenCycles := q.breakerOpenCycles + 1 }
  if q.escalationAfter ≤ q.breakerOpenCycles then { q with needsAttention := true } else q

/-- A probe has failed: the breaker stays open. -/
def probeFailed (q : Supervisor) : Supervisor :=
  let q := { q with breakerOpenCycles := q.breakerOpenCycles + 1 }
  if q.needsAttention = false ∧ q.escalationAfter ≤ q.breakerOpenCycles then
    { q with needsAttention := true }
  else q

end Supervisor

/-- Something that happened. -/
inductive Event where
  /-- A `LifecycleEvent`. -/
  | changed (source target : ConnectionState)
  /-- A round of the loop of a supervisor has armed its drop event; it goes on to connect. -/
  | round (p : ℕ) (drop : ℕ)
  /-- A failed attempt of a supervisor has been handled, and the breaker is open after it or not. -/
  | failed (p : ℕ) (cls : FailureClass) (breakerOpen : Bool)
  deriving DecidableEq

/-- A connection with its supervisors, and the events of the loops. -/
structure Backend where
  state : ConnectionState := .disconnected
  supervisors : ℕ → Supervisor := fun _ => {}
  nextSupervisor : ℕ := 0
  events : ℕ → Bool := fun _ => false
  nextEvent : ℕ := 0
  /-- What has happened, newest first. -/
  history : List Event := []

namespace Backend

/-- Change the attributes of a supervisor. -/
def update (s : Backend) (p : ℕ) (f : Supervisor → Supervisor) : Backend :=
  { s with supervisors := Function.update s.supervisors p (f (s.supervisors p)) }

/-- `event.set()` -/
def setEvent (s : Backend) : Option ℕ → Backend
  | none => s
  | some e => { s with events := Function.update s.events e true }

/-- `_capture_event` of some supervisor sets an event. -/
def captured (s : Backend) (e : ℕ) : Bool :=
  s.state = .connected && (List.range s.nextSupervisor).any fun p =>
    (s.supervisors p).subscribed && (s.supervisors p).dropEvent = some e

/-- `_transition`, and with it `_capture_event` of every subscriber. -/
def transition (s : Backend) (target : ConnectionState) : Backend :=
  { s with
    state := target
    events := fun e => s.events e || s.captured e
    history := .changed s.state target :: s.history }

/-- Remember a failure. -/
def log (s : Backend) (p : ℕ) (cls : FailureClass) : Backend :=
  { s with history := .failed p cls (s.supervisors p).breakerOpen :: s.history }

/-- Whether the stop event of a supervisor is set. -/
def stopped (s : Backend) (p : ℕ) : Bool := (s.supervisors p).stopEvent.any s.events

/-- What `_handle_connect_failure` does about a transient failure. -/
def handleTransient (s : Backend) (p : ℕ) : Backend :=
  let s := s.update p Supervisor.countFailure
  let q := s.supervisors p
  if q.failureThreshold ≤ q.consecutiveFailures ∧ q.breakerOpen = false then
    (s.transition .circuitOpen).update p Supervisor.tripBreaker
  else if q.breakerOpen = true then
    (s.transition .circuitOpen).update p Supervisor.probeFailed
  else
    s.transition .reconnecting

/-- What `_handle_connect_failure` does before it waits. -/
def handleConnectFailure (s : Backend) (p : ℕ) (exc : Raised) : Backend :=
  let s := s.update p fun q => q.noteError exc s.state
  match classifyFailure exc with
  | .auth => s.log p .auth
  | .terminal => ((s.transition .failed).setEvent (s.supervisors p).stopEvent).log p .terminal
  | .transient => (s.handleTransient p).log p .transient

/-- `ConnectionSupervisor.__init__` -/
def create (s : Backend) (failureThreshold escalationAfter : ℤ) : Backend :=
  { s with
    supervisors := Function.update s.supervisors s.nextSupervisor
      { failureThreshold, escalationAfter, subscribed := true }
    nextSupervisor := s.nextSupervisor + 1 }

/-- `self._stop_event = asyncio.Event()` -/
def makeStop (s : Backend) (p : ℕ) : Backend :=
  { s.update p fun q => { q with stopEvent := some s.nextEvent } with
    events := Function.update s.events s.nextEvent false
    nextEvent := s.nextEvent + 1 }

/-- `self._drop_event = asyncio.Event()` -/
def armDrop (s : Backend) (p : ℕ) : Backend :=
  { s.update p fun q => { q with dropEvent := some s.nextEvent } with
    events := Function.update s.events s.nextEvent false
    nextEvent := s.nextEvent + 1
    history := .round p s.nextEvent :: s.history }

end Backend

/-! ### Programs -/

/-- The atomic changes of the state. -/
inductive Act where
  | transition (target : ConnectionState)
  | create (failureThreshold escalationAfter : ℤ)
  | makeStop (p : ℕ)
  | setTask (p : ℕ) (task : Option TaskId)
  | armDrop (p : ℕ)
  | onConnectSuccess (p : ℕ)
  | handleConnectFailure (p : ℕ) (exc : Raised)
  /-- `stop` sets the stop event and the drop event. -/
  | signal (p : ℕ)
  /-- `self._unsub()` -/
  | unsubscribe (p : ℕ)
  | nop

/-- What an act does. -/
def Act.eval (s : Backend) : Act → Backend
  | .transition target => s.transition target
  | .create failureThreshold escalationAfter => s.create failureThreshold escalationAfter
  | .makeStop p => s.makeStop p
  | .setTask p task => s.update p fun q => { q with task }
  | .armDrop p => s.armDrop p
  | .onConnectSuccess p => s.update p Supervisor.onConnectSuccess
  | .handleConnectFailure p exc => s.handleConnectFailure p exc
  | .signal p =>
    (s.setEvent (s.supervisors p).stopEvent).setEvent (s.supervisors p).dropEvent
  | .unsubscribe p => s.update p fun q => { q with subscribed := false }
  | .nop => s

/-- What a task can be in. -/
inductive Call where
  /-- A supervisor is made and started. -/
  | launch (failureThreshold escalationAfter : ℤ)
  | stop (p : ℕ)
  | supervised (p : ℕ)
  -- the sections
  /-- `stop` has set the events. -/
  | stopping (p : ℕ)
  /-- `_wait_for_drop_or_stop` waits for a drop event. -/
  | watching (p : ℕ) (drop : ℕ)
  deriving DecidableEq

/-- What a task can wait for. -/
inductive Wait where
  | turn
  /-- `outbound.connect()` -/
  | attempt
  | sleep
  | event (e : ℕ)
  /-- `asyncio.wait` for the stop event or the drop event. -/
  | dropOrStop (stop drop : ℕ)
  | task (t : TaskId)
  deriving DecidableEq

/-- The signature of the supervisors. -/
abbrev supervisionSignature : Signature := ⟨Backend, Act, Call, Wait, Except Raised Unit,
  ConnectionState⟩

/-- Operations of the supervisors. -/
abbrev SupervisorOp (α : Type) := Op supervisionSignature Raised α

/-- The state. -/
def get : SupervisorOp Backend := Op.get (S := supervisionSignature)

/-- A change of the state. -/
def act (a : Act) : SupervisorOp Unit := Op.act (S := supervisionSignature) a

/-- Wait, and raise what comes back as an exception. -/
def wait (w : Wait) : SupervisorOp Unit := Coro.await (S := supervisionSignature) w Coro.ret

/-- `try … except`, with how the operation has ended as a value. -/
def caught (p : SupervisorOp Unit) : SupervisorOp (Except Raised Unit) :=
  Coro.bind p fun ended => Coro.ret (.ok ended)

/-- Return, or raise. -/
def ofExcept : Except Raised Unit → SupervisorOp Unit
  | .ok () => pure ()
  | .error exc => throw exc

/-- An operation inside a section. -/
def inside (enter : Act) (c : Call) (p : SupervisorOp Unit) : SupervisorOp Unit :=
  Op.within (S := supervisionSignature) enter c .nop p

/-- `if` without `else` -/
def when (c : Prop) [Decidable c] (p : SupervisorOp Unit) : SupervisorOp Unit :=
  if c then p else pure ()

/-- `assert … is not None` -/
def whenSome : Option ℕ → (ℕ → SupervisorOp Unit) → SupervisorOp Unit
  | some e, f => f e
  | none, _ => throw Raised.assertion

/-- Go on with the next round of the loop. -/
def nextRound (p : ℕ) : SupervisorOp Unit := Op.jump (S := supervisionSignature) (.supervised p)

/-- What `MCPConnection.connect` makes of the end of `outbound.connect()`. -/
def finishConnect : Except Raised Unit → SupervisorOp Unit
  | .ok () => act (.transition .connected)
  | .error exc =>
    if exc.isinstance [.oAuthAuthRequiredError] then act (.transition .authRequired)
    else if exc.isinstance [.connectionError] then do
      act (.transition .error)
      throw exc
    else if exc.isinstance [.exception] then do
      act (.transition .error)
      throw exc.connectionFrom
    else throw exc

/-- `MCPConnection.connect` -/
def connect : SupervisorOp Unit := do
  let s ← get
  if s.state = .connected then
    pure ()
  else
    act (.transition .connecting)
    let ended ← caught (wait .attempt)
    finishConnect ended

/-- `stop.wait()` -/
def waitStop (p : ℕ) : SupervisorOp Unit := do
  let s ← get
  whenSome (s.supervisors p).stopEvent fun e => wait (.event e)

/-- `_wait_for_drop_or_stop`. Both waits it has started are cancelled before it goes on, which takes
a turn; a request to stop that comes then is lost. -/
def waitForDropOrStop (p : ℕ) : SupervisorOp Unit := do
  let s ← get
  if s.state = .connected then
    whenSome (s.supervisors p).dropEvent fun drop =>
      whenSome (s.supervisors p).stopEvent fun stop => do
        let ended ← caught (inside .nop (.watching p drop) (wait (.dropOrStop stop drop)))
        let _ ← caught (wait .turn)
        ofExcept ended
  else
    pure ()

/-- What `_handle_connect_failure` waits for, by the class of the failure. -/
def awaitRetry (p : ℕ) : FailureClass → SupervisorOp Unit
  | .auth => waitStop p
  | .terminal => pure ()
  | .transient => wait .sleep

/-- What a round of the loop makes of the end of its attempt. -/
def afterAttempt (p : ℕ) : Except Raised Unit → SupervisorOp Unit
  | .error exc =>
    if exc.isinstance [.cancelledError] then throw exc
    else if exc.isinstance [.connectionError] then do
      act (.handleConnectFailure p exc)
      awaitRetry p (classifyFailure exc)
      nextRound p
    else if exc.isinstance [.exception] then
      if classifyFailure exc = .auth then waitStop p
      else act (.transition .failed)
    else throw exc
  | .ok () => do
    let s ← get
    if s.state = .authRequired then
      waitStop p
    else if s.state ≠ .connected then
      wait .sleep
      nextRound p
    else
      act (.onConnectSuccess p)
      waitForDropOrStop p
      let s ← get
      if s.stopped p then pure () else nextRound p

/-- One round of `_supervised_loop`. -/
def supervisedLoop (p : ℕ) : SupervisorOp Unit := do
  let s ← get
  if s.stopped p then
    pure ()
  else
    act (.armDrop p)
    when ((s.supervisors p).breakerOpen = true ∧ s.state = .circuitOpen)
      (act (.transition .reconnecting))
    let ended ← caught connect
    afterAttempt p ended

/-- `task is not None and not task.done()` -/
def isRunning : Option TaskId → SupervisorOp Bool
  | some t => do
    let done ← Op.isDone (S := supervisionSignature) t
    pure !done
  | none => pure false

/-- `ConnectionSupervisor.start` -/
def start (p : ℕ) : SupervisorOp Unit := do
  let s ← get
  let running ← isRunning (s.supervisors p).task
  when (running = false) do
    act (.makeStop p)
    let t ← Op.spawn (S := supervisionSignature) (.supervised p)
    act (.setTask p (some t))

/-- `ConnectionSupervisor(conn)` and `start` -/
def launch (failureThreshold escalationAfter : ℤ) : SupervisorOp Unit := do
  let s ← get
  act (.create failureThreshold escalationAfter)
  start s.nextSupervisor

/-- The part of `stop` that ends the task. -/
def endTask (p : ℕ) : Option TaskId → SupervisorOp Unit
  | none => pure ()
  | some t => do
    let running ← isRunning (some t)
    when (running = true) do
      Op.exec (S := supervisionSignature) (.cancel t)
      tryCatch (wait (.task t)) fun exc =>
        if exc.isinstance [.cancelledError] then pure () else throw exc
      act (.setTask p none)

/-- `ConnectionSupervisor.stop`. A number that stands for no supervisor yet cannot be asked to. -/
def stop (p : ℕ) : SupervisorOp Unit := do
  let s ← get
  when (p < s.nextSupervisor) <| inside (.signal p) (.stopping p) do
    endTask p (s.supervisors p).task
    act (.unsubscribe p)

/-! ### The system -/

/-- Whether a wait can end, and with what. How a task has ended that another one waits for is left
open. -/
def ready (w : World supervisionSignature) (t : TaskId) : Wait → Except Raised Unit → Bool
  | .attempt, _ | .sleep, _ => true
  | .task u, _ => w.done u || (w.tasks t).requested
  | .turn, .ok () => !(w.tasks t).requested
  | .event e, .ok () => !(w.tasks t).requested && Backend.events w.state e
  | .dropOrStop stop drop, .ok () =>
    !(w.tasks t).requested && (Backend.events w.state stop || Backend.events w.state drop)
  | _, .error exc => (w.tasks t).requested && exc.isinstance [.cancelledError]

/-- The program of a task. -/
def Call.program : Call → Coro supervisionSignature (Except Raised Unit)
  | .launch failureThreshold escalationAfter => Resilience.launch failureThreshold escalationAfter
  | .stop p => Resilience.stop p
  | .supervised p => supervisedLoop p
  | _ => .ret (.ok ())

/-- The program of a task, given how the wait for its first turn ended. -/
def Call.body (c : Call) : Except Raised Unit → Coro supervisionSignature (Except Raised Unit)
  | .ok () => c.program
  | .error exc => .ret (.error exc)

/-- Supervisors are made, started and stopped from outside. -/
def Call.isClient : Call → Bool
  | .launch _ _ | .stop _ => true
  | _ => false

/-- A connection whose state others change, with its supervisors. -/
def supervision : System supervisionSignature where
  eval _ a s := a.eval s
  turn := .turn
  ready := ready
  joins
    | .task t => [t]
    | _ => []
  body c r := c.body r
  again := .ok ()
  client := Call.isClient
  tick target s := some (s.transition target)

end Resilience

end SlmMcpHub
