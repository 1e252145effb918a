import SlmMcpHub.Federation.Hub

/-!
# The tasks of the hub

What the programs of the hub are made of besides the acts on its state: the coroutines that run as
tasks, the sections in which a task is in the middle of something, what a task waits for, and what
comes back from outside.

Everything beyond the hub answers through the result of a wait: the outbound client of a backend,
the concurrency gate of the router, the plugins, the clock of a sleep. Any answer may come at any
time, so no run is excluded by how long something takes.

## Main definitions

* `Exc` — the exceptions, with the distinctions the handlers make
* `Call` — coroutines and sections
* `HubOp` — operations of the hub
* `waitFor`, `withLock`, `gather` — the constructs of `asyncio` the source uses
-/

namespace SlmMcpHub

/-! ### Exceptions and results -/

/-- `FailureClass`, as `classify_failure` reads it off an exception and its causes. -/
inductive FailureClass where
  | transient
  | auth
  | terminal
  deriving DecidableEq

/-- The value of a `FailureClass`. -/
def FailureClass.value : FailureClass → String
  | .transient => "TRANSIENT"
  | .auth => "AUTH"
  | .terminal => "TERMINAL"

/-- An exception. -/
inductive Exc where
  /-- `CancelledError`, from a request to stop. -/
  | cancelled
  /-- `CancelledError`, from a deadline that has passed. -/
  | deadline
  /-- `asyncio.TimeoutError` -/
  | timeout
  /-- `OAuthAuthRequiredError` -/
  | authRequired
  /-- `ConnectionError` -/
  | connection (message : String) (cls : FailureClass)
  /-- A transport error that ends a streaming call: `MCPError` with `CONNECTION_CLOSED`, or
  `ResumptionError`. It is resumable when a token was captured before. -/
  | streamDropped (message : String) (resumable : Bool)
  /-- Any other exception: the name of its type, and its text. -/
  | other (type message : String) (cls : FailureClass)
  deriving DecidableEq

namespace Exc

/-- Whether `except Exception` catches it. -/
def isException : Exc → Bool
  | .cancelled => false
  | .deadline => false
  | _ => true

/-- `str(exc)` -/
def message : Exc → String
  | .connection message _ => message
  | .streamDropped message _ => message
  | .other _ message _ => message
  | _ => ""

/-- `type(exc).__name__` -/
def typeName : Exc → String
  | .cancelled => "CancelledError"
  | .deadline => "CancelledError"
  | .timeout => "TimeoutError"
  | .authRequired => "OAuthAuthRequiredError"
  | .connection _ _ => "ConnectionError"
  | .streamDropped _ _ => "MCPError"
  | .other type _ _ => type

/-- `classify_failure` -/
def classify : Exc → FailureClass
  | .authRequired => .auth
  | .connection _ cls => cls
  | .other _ _ cls => cls
  | _ => .transient

end Exc

/-- What a backend answers a request with. -/
structure CallResult where
  content : Json := .null
  isError : Bool := false

/-- `RouteResult`, without its duration. -/
structure RouteResult where
  result : CallResult
  serverName : String
  toolName : String
  success : Bool

/-- The response of the proxy endpoint to a request. -/
inductive Response where
  | result (result : CallResult)
  | error (code : ℤ) (message : String)

/-- What a coroutine returns. -/
inductive Value where
  | none
  | bool (b : Bool)
  | report (success : Bool) (message : String)
  | failures (failed : Dict String String)
  | routed (r : RouteResult)
  | response (r : Response)

/-- What a wait, or a task, can result in. -/
inductive Res where
  | ok
  | raised (e : Exc)
  | connected (caps : Capabilities)
  | answered (result : CallResult)
  | returned (v : Value)

/-! ### Coroutines, sections and waits -/

/-- The kinds of requests to a backend. -/
inductive RequestKind where
  | tool
  | resource
  | prompt
  deriving DecidableEq

/-- What a task can be in. -/
inductive Call where
  -- the operations of the manager
  | connectAll
  | reconnect (serverName : String)
  | connectOne (serverName : String)
  | ensureConnected (name : String)
  | evict (name : String)
  | disconnectOne (serverName : String)
  | addServer (cfg : MCPServerConfig)
  | removeServer (serverName : String)
  | replaceServer (cfg : MCPServerConfig)
  | fastRetryFailed
  | disconnectAll
  -- the operations of the router and of the proxy endpoint
  | routeToolCall (namespacedName : String) (streaming : Bool)
  | routeStreamingCall (namespacedName : String)
  | routeResourceRead (namespacedUri : String)
  | routePromptGet (namespacedName : String)
  | proxyRequest (kind : RequestKind) (serverName : String)
  -- the tasks the hub starts
  | bounded (sem : ℕ) (cfg : MCPServerConfig)
  | closing (serverName : String)
  | coordinator
  | coordinating
  | supervised (p : SupRef)
  | parked (p : SupRef)
  | reaper
  -- the sections
  /-- A caller has asked for connections of these backends. -/
  | requesting (names : List String)
  /-- The configurations of these backends have been looked up. -/
  | armed (names : List String)
  /-- `_connect_timed` has stored the connection. -/
  | attempt (x : ConnRef)
  /-- The connection is in the middle of `connect`. -/
  | connect (x : ConnRef)
  /-- The connection is in the middle of a request. -/
  | dispatch (x : ConnRef) (n : ℕ) (kind : RequestKind)

/-- What a task can wait for. -/
inductive Wait where
  | turn
  | sleep
  /-- A lock or a semaphore. -/
  | lock (l : ℕ)
  | event (e : ℕ)
  /-- An event, for a limited time. -/
  | eventFor (e : ℕ)
  /-- One of two events. -/
  | either (e e' : ℕ)
  /-- `outbound.connect()`, for a limited time or not. -/
  | outbound (timed : Bool)
  /-- `outbound.disconnect()` -/
  | close
  /-- The answer to a request. -/
  | request
  | gate
  | plugins
  | task (t : TaskId)
  | gather (ts : List TaskId)
  /-- `gather(..., return_exceptions=True)` -/
  | settle (ts : List TaskId)

/-- What happens to the hub from outside. -/
inductive Tick where
  | clock (time : ℚ)
  | setNotifier (attached : Bool)

/-- The signature of the hub. -/
abbrev hubSignature : Signature := ⟨Hub, Act, Call, Wait, Res, Tick⟩

/-- Operations of the hub. -/
abbrev HubOp (α : Type) := Op hubSignature Exc α

/-! ### `asyncio` -/

namespace HubOp

/-- The state. -/
def get : HubOp Hub := Op.get (S := hubSignature)

/-- A change of the state. -/
def act (a : Act) : HubOp Unit := Op.act (S := hubSignature) a

/-- `try … except Exception` -/
def catchException {α : Type} (p : HubOp α) (h : Exc → HubOp α) : HubOp α :=
  tryCatch p fun e => if e.isException then h e else throw e

/-- Wait, and raise what comes back as an exception. -/
def wait (w : Wait) : HubOp Res := do
  match ← Op.await (S := hubSignature) w with
  | .raised e => throw e
  | r => pure r

/-- Wait, with nothing to come back. -/
def wait' (w : Wait) : HubOp Unit := do
  let _ ← wait w

/-- `if` without `else` -/
def when (c : Prop) [Decidable c] (p : HubOp Unit) : HubOp Unit := if c then p else pure ()

/-- `if … is not None` without `else` -/
def whenSome {α : Type} : Option α → (α → HubOp Unit) → HubOp Unit
  | some a, f => f a
  | none, _ => pure ()

/-- `try … except`, with what was caught as a value. -/
def caught {α : Type} (p : HubOp α) : HubOp (Except Exc α) :=
  tryCatch (do pure (.ok (← p))) fun e => pure (.error e)

/-- `asyncio.wait_for`. Python 3.11 runs the operation in a task of its own, later versions in the
caller; the two turns stand for the former. -/
def waitFor {α : Type} (p : HubOp α) : HubOp α := do
  wait' .turn
  let a ← tryCatch p fun
    | .deadline => throw .timeout
    | e => throw e
  wait' .turn
  pure a

/-- `acquire`: a lock that is free is taken without a wait. -/
def acquire (l : ℕ) : HubOp Unit := do
  let s ← get
  when (s.permits l = 0) (wait' (.lock l))
  act (.take l)

/-- `async with` a lock or a semaphore. -/
def withLock {α : Type} (l : ℕ) (p : HubOp α) : HubOp α := do
  acquire l
  p.ensure (act (.release l))

/-- Start a task for each coroutine. -/
def spawnAll : List Call → HubOp (List TaskId)
  | [] => pure []
  | c :: cs => do
    let t ← Op.spawn (S := hubSignature) c
    let ts ← spawnAll cs
    pure (t :: ts)

/-- `asyncio.gather` -/
def gather (cs : List Call) : HubOp Unit := do
  let ts ← spawnAll cs
  wait' (.gather ts)

/-- `asyncio.gather(..., return_exceptions=True)` -/
def gatherSettled (cs : List Call) : HubOp Unit := do
  let ts ← spawnAll cs
  wait' (.settle ts)

/-- `task is not None and not task.done()` -/
def isRunning : Option TaskId → HubOp Bool
  | some t => do
    let done ← Op.isDone (S := hubSignature) t
    pure !done
  | none => pure false

/-- Cancel a task that is not done, and wait until it is. -/
def cancelAndWait (t : TaskId) : HubOp Unit := do
  Op.exec (S := hubSignature) (.cancel t)
  tryCatch (wait' (.task t)) fun
    | .cancelled => pure ()
    | e => throw e

/-- An operation inside a section. -/
def inside {α : Type} (enter : Act) (c : Call) (p : HubOp α) : HubOp α :=
  Op.within (S := hubSignature) enter c .nop p

end HubOp

end SlmMcpHub
