import SlmMcpHub.Federation.Routing

/-!
# The system

The program of every coroutine, what ends each wait, and what can happen from outside: together
they make the hub a system of cooperative tasks, and `Reach hub` are its runs.

A wait that is over is taken up at any later time. A task that was asked to stop is resumed with
`CancelledError` whatever it waits for, unless it waits for other tasks: then these were asked in
its place, and it hears of it through them.

## Main definitions

* `hub` — the system
* `Hub.start` — the state of a new manager
-/

namespace SlmMcpHub

/-- What a coroutine leaves behind. -/
def outcome {α : Type} (value : α → Value) (p : HubOp α) : Coro hubSignature Res :=
  Coro.bind p fun
    | .ok a => .ret (.returned (value a))
    | .error e => .ret (.raised e)

/-- The value of an operation that reports success and a message. -/
def Value.ofReport (r : Bool × String) : Value := .report r.1 r.2

/-- The program of a coroutine. A section is no coroutine. -/
def Call.program : Call → Coro hubSignature Res
  | .connectAll => outcome .failures ConnectionManager.connectAll
  | .reconnect name => outcome .ofReport (ConnectionManager.reconnect name)
  | .connectOne name => outcome .bool (ConnectionManager.connectOne name)
  | .ensureConnected name => outcome .bool (ConnectionManager.ensureConnected name)
  | .evict name => outcome (fun _ => .none) (ConnectionManager.evict name)
  | .disconnectOne name => outcome (fun _ => .none) (ConnectionManager.disconnectOne name)
  | .addServer cfg => outcome .ofReport (ConnectionManager.addServer cfg)
  | .removeServer name => outcome .ofReport (ConnectionManager.removeServer name)
  | .replaceServer cfg => outcome .ofReport (ConnectionManager.replaceServer cfg)
  | .fastRetryFailed => outcome .failures ConnectionManager.fastRetryFailed
  | .disconnectAll => outcome (fun _ => .none) ConnectionManager.disconnectAll
  | .routeToolCall name streaming =>
    outcome .routed (FederationRouter.routeToolCall name streaming)
  | .routeStreamingCall name => outcome .routed (FederationRouter.routeStreamingCall name)
  | .routeResourceRead uri => outcome .routed (FederationRouter.routeResourceRead uri)
  | .routePromptGet name => outcome .routed (FederationRouter.routePromptGet name)
  | .proxyRequest kind name => outcome .response (ProxyEndpoint.handleJsonrpc kind name)
  | .bounded sem cfg => outcome (fun _ => .none) (ConnectionManager.bounded sem cfg)
  | .closing name => outcome (fun _ => .none) (ConnectionManager.disconnectStored name)
  | .coordinator => outcome (fun _ => .none) ConnectionManager.coordinator
  | .coordinating => outcome (fun _ => .none) ConnectionManager.coordinating
  | .supervised p => outcome (fun _ => .none) (ConnectionSupervisor.supervisedLoop p)
  | .parked p => outcome (fun _ => .none) (ConnectionSupervisor.park p)
  | .reaper => outcome (fun _ => .none) ConnectionManager.reaperLoop
  | .requesting _ | .armed _ | .attempt _ | .connect _ | .dispatch _ _ _ => .ret .ok

/-- The program of a task, given how the wait for its first turn ended. -/
def Call.body (c : Call) : Res → Coro hubSignature Res
  | .raised e => .ret (.raised e)
  | _ => c.program

/-- The operations callers have. -/
def Call.isClient : Call → Bool
  | .connectAll | .reconnect _ | .connectOne _ | .ensureConnected _ | .evict _ | .disconnectOne _
  | .addServer _ | .removeServer _ | .replaceServer _ | .fastRetryFailed | .disconnectAll
  | .routeToolCall _ _ | .routeStreamingCall _ | .routeResourceRead _ | .routePromptGet _
  | .proxyRequest _ _ => true
  | _ => false

/-- The exception a task has ended with. -/
def exceptionOf (w : World hubSignature) (t : TaskId) : Option Exc :=
  match (w.tasks t).result with
  | some (.raised e) => some e
  | _ => none

/-- How a wait for other tasks can end. -/
def readyForTasks (w : World hubSignature) (requested : Bool) (settled : Bool) (ts : List TaskId) :
    Res → Bool
  | .ok => ts.all w.done && !requested && (settled || ts.all fun t => (exceptionOf w t).isNone)
  | .raised e =>
    (!settled && ts.any fun t => exceptionOf w t = some e) ||
      (e = .cancelled && requested && ts.all w.done)
  | _ => false

/-- How a wait for something outside the hub can end. -/
def answers : Wait → Res → Bool
  | .outbound _, .connected _ => true
  | .outbound timed, .raised e => e.isException || (e = .deadline && timed)
  | .close, .ok => true
  | .close, .raised e => e.isException
  | .request, .answered _ => true
  | .request, .raised e => e.isException
  | .gate, .ok => true
  | .gate, .raised e => e.isException
  | .plugins, .ok => true
  | .plugins, .raised e => e.isException
  | _, _ => false

/-- Whether a wait can end, and with what. -/
def ready (w : World hubSignature) (t : TaskId) (wt : Wait) (r : Res) : Bool :=
  let s : Hub := w.state
  match wt, r with
  | .task u, .ok => w.done u && (exceptionOf w u).isNone
  | .task u, .raised e =>
    exceptionOf w u = some e || (e = .cancelled && (w.tasks t).requested && w.done u)
  | .task _, _ => false
  | .gather ts, r => readyForTasks w (w.tasks t).requested false ts r
  | .settle ts, r => readyForTasks w (w.tasks t).requested true ts r
  | _, .raised .cancelled => (w.tasks t).requested
  | wt, r =>
    !(w.tasks t).requested &&
      match wt, r with
      | .turn, .ok => true
      | .sleep, .ok => true
      | .lock l, .ok => s.permits l ≠ 0
      | .event e, .ok => s.events e
      | .eventFor e, .ok => s.events e
      | .eventFor _, .raised .deadline => true
      | .either e e', .ok => s.events e || s.events e'
      | wt, r => answers wt r

/-- The tasks a request to stop is passed on to. -/
def Wait.joins : Wait → List TaskId
  | .task t => [t]
  | .gather ts => ts
  | .settle ts => ts
  | _ => []

/-- What happens from outside, if it can: the clock never goes back. -/
def Tick.apply : Tick → Hub → Option Hub
  | .clock time, s => if s.now ≤ time then some { s with now := time } else none
  | .setNotifier attached, s => some { s with notifierAttached := attached }

/-- The hub. -/
def hub : System hubSignature where
  eval _ a s := a.eval s
  turn := .turn
  ready := ready
  joins := Wait.joins
  body := Call.body
  again := .ok
  client := Call.isClient
  tick := Tick.apply

/-- A new manager. -/
def Hub.start (config : HubConfig) : Hub := { config := config }

end SlmMcpHub
