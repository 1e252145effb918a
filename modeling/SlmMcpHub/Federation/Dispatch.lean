import SlmMcpHub.Federation.Routing
import SlmMcpHub.Streaming.SafeResume

/-!
# The dispatch of a routed request

`federation/timeouts.py` and `federation/router.py`, down to the requests of the SDK in
`Streaming/SafeResume.lean`: one request of the router, with everything it consults on its way. The
hooks, the concurrency gate and the reconnect are given by what they come to.

## Main definitions

* `TimeoutRegistry` — the timeout classes
* `Router`, `Router.route` — the router with its hooks, and its requests
* `Router.quiet` — the same router, with hooks that do nothing

## Main results

* `Router.route_eq_quiet_iff` — which requests the hooks cannot break
* `Router.carriesTimeout_iff` — which tool calls carry their timeout to the SDK
-/

namespace SlmMcpHub

namespace Resumable

/-! ### Timeout classes -/

/-- `TimeoutPolicy` -/
structure TimeoutPolicy where
  timeout : Option ℚ
  keepaliveInterval : Option ℚ := none

/-- `TIMEOUT_CLASS_DEFAULT` -/
def timeoutClassDefault : String := "default"

/-- `DEFAULT_TOOL_TIMEOUT_S` -/
def defaultToolTimeout : ℚ := 120

/-- `BUILTIN_TIMEOUT_POLICIES` -/
def builtinTimeoutPolicies : Dict String TimeoutPolicy :=
  ((((Dict.empty.set "fast" { timeout := some 30 }).set
    timeoutClassDefault { timeout := some 120 }).set
    "extended" { timeout := some 600, keepaliveInterval := some 55 }).set
    "unbounded" { timeout := none, keepaliveInterval := some 55 })

/-- `TimeoutRegistry`: whatever an operator overrides, there is a default class. -/
structure TimeoutRegistry where
  policies : Dict String TimeoutPolicy
  default_mem : timeoutClassDefault ∈ policies.keys

namespace TimeoutRegistry

/-- `__init__` -/
def init (overrides : Dict String TimeoutPolicy) : TimeoutRegistry where
  policies := builtinTimeoutPolicies.setAll overrides.entries
  default_mem := Dict.mem_keys_setAll.mpr (Or.inr (by decide))

/-- The policy of the default class. -/
def default (p : TimeoutRegistry) : TimeoutPolicy :=
  (p.policies.get? timeoutClassDefault).get
    (Dict.contains_iff.mpr p.default_mem)

/-- `resolve` -/
def resolve (p : TimeoutRegistry) (className : String) : TimeoutPolicy :=
  match p.policies.get? className with
  | some policy => policy
  | none => p.default

/-- `resolve_for_server` -/
def resolveForServer (p : TimeoutRegistry) (serverTimeoutClass : String)
    (callTimeoutOverride : Option ℚ) : TimeoutPolicy :=
  let policy := p.resolve serverTimeoutClass
  match callTimeoutOverride with
  | some t => { timeout := some t, keepaliveInterval := policy.keepaliveInterval }
  | none => policy

end TimeoutRegistry

/-- The timeout of a call by the policy: the override, or else what the class has, and a flat value
without timeout classes. -/
def policyTimeout (policies : Option TimeoutRegistry) (timeoutClass : String) :
    Option ℚ → Option ℚ
  | some t => some t
  | none =>
    match policies with
    | some p => (p.resolve timeoutClass).timeout
    | none => some defaultToolTimeout

/-! ### The router -/

/-- `try … except Exception` -/
def catchException {α : Type} (p : CallOp α) (h : CallError → CallOp α) : CallOp α :=
  tryCatch p fun e => if e.isException then h e else throw e

/-- An exception that `except Exception` catches. -/
abbrev Raised : Type := { e : CallError // e.isException = true }

/-- A connection of the pool, with what it is when it is looked up. -/
structure Pooled where
  conn : Connection
  state : ConnectionState

/-- `_connections` -/
abbrev Pool : Type := Dict String Pooled

/-- The connection of a backend, if it is live. -/
def Pool.live (pool : Pool) (serverName : String) : Option Connection :=
  match pool.get? serverName with
  | some p => if p.state = .connected then some p.conn else none
  | none => none

/-- Whether the connection of a backend is draining. -/
def Pool.isDraining (pool : Pool) (serverName : String) : Bool :=
  (pool.get? serverName).any (·.state = .draining)

/-- What `reconnect_fn` comes to, with the connections there are then. -/
structure Reconnect where
  returned : Except CallError Bool
  connections : Pool

/-- `FederationRouter` -/
structure Router where
  registry : Registry
  connections : Pool
  activityFn : Option (String → Except Raised Unit) := none
  reconnectFn : Option (String → Reconnect) := none
  concurrencyGate : Option (String → Except CallError Unit) := none
  timeoutRegistry : Option TimeoutRegistry := none
  /-- `metrics.record`, for a backend and the success of its call. -/
  metrics : Option (String → Bool → Except Raised Unit) := none

/-- Where a request is dispatched to: the connection, and the connections it was found in. -/
structure Route where
  connections : Pool
  conn : Connection

/-- Why a request is not dispatched to the backend it is for. -/
inductive Refusal where
  | unavailable
  | shuttingDown
  | notConfigured
  | notConnected

/-- The text of a refusal. -/
def Refusal.message (serverName : String) : Refusal → String
  | .unavailable => s!"Server unavailable after reconnect: {serverName}"
  | .shuttingDown => s!"Server is shutting down: {serverName}"
  | .notConfigured => s!"Server not configured: {serverName}"
  | .notConnected => s!"Server not connected: {serverName}"

/-- A tool call, as `route_tool_call` and `route_streaming_call` hand it on. -/
structure ToolCall where
  namespacedName : String
  arguments : Dict String Json
  timeout : Option ℚ
  progressCallback : Bool
  resumptionContext : Bool
  forceStreaming : Bool

namespace Router

variable (r : Router) (out : Outside)

/-- `reconnect_fn`, with an `Exception` taken for a failure. -/
def reconnected (a : Reconnect) : Except CallError Bool :=
  match a.returned with
  | .error e => if e.isException then .ok false else .error e
  | .ok b => .ok b

/-- What `_resolve_connection_async`, `route_resource_read` and `route_prompt_get` do to find the
connection of a backend. -/
def resolve (serverName : String) : Except CallError (Except Refusal Route) :=
  match r.connections.live serverName with
  | some x => .ok (.ok ⟨r.connections, x⟩)
  | none =>
    if r.connections.isDraining serverName then
      .ok (.error .shuttingDown)
    else
      match r.reconnectFn with
      | some reconnect =>
        match reconnected (reconnect serverName) with
        | .error e => .error e
        | .ok b =>
          match (reconnect serverName).connections.live serverName with
          | some x =>
            if b then .ok (.ok ⟨(reconnect serverName).connections, x⟩)
            else .ok (.error .unavailable)
          | none => .ok (.error .unavailable)
      | none =>
        if r.connections.contains serverName then .ok (.error .notConnected)
        else .ok (.error .notConfigured)

/-- `_resolve_timeout` -/
def resolveTimeout (connections : Pool) (serverName : String) (override : Option ℚ) : Option ℚ :=
  match r.timeoutRegistry with
  | none => some (override.getD defaultToolTimeout)
  | some p =>
    let className :=
      match connections.get? serverName with
      | some c => c.conn.timeoutClass
      | none => timeoutClassDefault
    (p.resolveForServer className override).timeout

/-- `async with gate` -/
def enterGate (serverName : String) : Except CallError Unit :=
  match r.concurrencyGate with
  | some gate => gate serverName
  | none => .ok ()

/-- What a hook comes to. -/
def raising : Except Raised Unit → CallOp Unit
  | .ok () => pure ()
  | .error e => throw e.val

/-- `metrics.record` -/
def record (serverName : String) (success : Bool) : CallOp Unit :=
  match r.metrics with
  | some metrics => raising (metrics serverName success)
  | none => pure ()

/-- `activity_fn` -/
def markActivity (serverName : String) : CallOp Unit :=
  match r.activityFn with
  | some activity => raising (activity serverName)
  | none => pure ()

/-- The `ResumableCallContext` of a call: the one that is given, or one of its own. -/
def callContext (c : ToolCall) : CallOp Unit :=
  if c.resumptionContext then pure ()
  else Fallible.modify fun s => { s with context := {}, persisted := none }

/-- Whether a call takes the streaming path. -/
def useStreaming (c : ToolCall) (x : Connection) : Bool :=
  c.forceStreaming || c.progressCallback || c.resumptionContext ||
    x.timeoutClass ≠ timeoutClassDefault

/-- The call of the backend, in `_dispatch_call`. -/
def callTool (cap : RegisteredCapability) (route : Route) (c : ToolCall) : CallOp CallResult :=
  let effectiveTimeout := r.resolveTimeout route.connections cap.serverName c.timeout
  if useStreaming c route.conn then do
    callContext c
    runWithSafeResume out route.conn cap.originalName c.arguments effectiveTimeout
  else
    route.conn.callTool out cap.originalName c.arguments effectiveTimeout

/-- The `try` and the `except` of `_dispatch_call`. -/
def attemptCall (cap : RegisteredCapability) (route : Route) (c : ToolCall) : CallOp RouteResult :=
  catchException (do
    Fallible.ofExcept (r.enterGate cap.serverName)
    let result ← r.callTool out cap route c
    pure ⟨result, cap.serverName, cap.originalName, !result.isError⟩)
    fun exc => pure (FederationRouter.failure (.text exc.message) cap.serverName cap.originalName)

/-- `_dispatch_call` -/
def dispatchCall (cap : RegisteredCapability) (route : Route) (c : ToolCall) : CallOp RouteResult :=
  Fallible.ensure (r.attemptCall out cap route c)
    fun ended => do
      let success :=
        match ended with
        | .ok result => result.success
        | .error _ => false
      catchException (r.record cap.serverName success) fun _ => pure ()
      catchException (r.markActivity cap.serverName) fun _ => pure ()

/-- What `route_tool_call` and `route_streaming_call` have in common. -/
def routeCall (c : ToolCall) : CallOp RouteResult :=
  match r.registry.lookupTool c.namespacedName with
  | none => pure (FederationRouter.failure (.text s!"Tool not found: {c.namespacedName}") "unknown"
      c.namespacedName)
  | some cap => do
    match ← Fallible.ofExcept (r.resolve cap.serverName) with
    | .error refusal =>
      pure (FederationRouter.failure (.text (refusal.message cap.serverName)) cap.serverName
        cap.originalName)
    | .ok route => r.dispatchCall out cap route c

/-- `route_tool_call` -/
def routeToolCall (namespacedName : String) (arguments : Dict String Json) (timeout : Option ℚ)
    (progressCallback resumptionContext : Bool) : CallOp RouteResult :=
  r.routeCall out
    { namespacedName, arguments, timeout, progressCallback, resumptionContext
      forceStreaming := false }

/-- `route_streaming_call` -/
def routeStreamingCall (namespacedName : String) (arguments : Dict String Json)
    (progressCallback : Bool) (timeoutOverride : Option ℚ) : CallOp RouteResult :=
  r.routeCall out
    { namespacedName, arguments, timeout := timeoutOverride, progressCallback
      resumptionContext := false, forceStreaming := true }

/-- The `try` and the `except` of `route_resource_read` and of `route_prompt_get`. -/
def attemptRead (cap : RegisteredCapability) (read : CallOp CallResult) : CallOp RouteResult :=
  catchException (do
    let result ← read
    pure ⟨result, cap.serverName, cap.originalName, true⟩)
    fun _ => pure (FederationRouter.failure {} cap.serverName cap.originalName)

/-- What `route_resource_read` and `route_prompt_get` do after the lookup in the registry. -/
def routeRead (namespacedName : String) (cap : Option RegisteredCapability)
    (read : Connection → String → CallOp CallResult) : CallOp RouteResult :=
  match cap with
  | none => pure (FederationRouter.failure {} "unknown" namespacedName)
  | some cap => do
    match ← Fallible.ofExcept (r.resolve cap.serverName) with
    | .error _ => pure (FederationRouter.failure {} cap.serverName cap.originalName)
    | .ok route =>
      Fallible.ensure (attemptRead cap (read route.conn cap.originalName))
        fun _ => r.markActivity cap.serverName

/-- `route_resource_read` -/
def routeResourceRead (namespacedUri : String) : CallOp RouteResult :=
  r.routeRead namespacedUri (r.registry.lookupResource namespacedUri) fun x uri =>
    x.readResource out uri

/-- `route_prompt_get` -/
def routePromptGet (namespacedName : String) (arguments : Dict String Json) : CallOp RouteResult :=
  r.routeRead namespacedName (r.registry.lookupPrompt namespacedName) fun x name =>
    x.getPrompt out name arguments

end Router

/-- A request to the router. -/
inductive Request where
  | toolCall (namespacedName : String) (arguments : Dict String Json) (timeout : Option ℚ)
      (progressCallback resumptionContext : Bool)
  | streamingCall (namespacedName : String) (arguments : Dict String Json)
      (progressCallback : Bool) (timeoutOverride : Option ℚ)
  | resourceRead (namespacedUri : String)
  | promptGet (namespacedName : String) (arguments : Dict String Json)

namespace Router

variable (r : Router) (out : Outside)

/-- The method of the router for a request. -/
def route : Request → CallOp RouteResult
  | .toolCall name arguments timeout progressCallback resumptionContext =>
    r.routeToolCall out name arguments timeout progressCallback resumptionContext
  | .streamingCall name arguments progressCallback timeoutOverride =>
    r.routeStreamingCall out name arguments progressCallback timeoutOverride
  | .resourceRead uri => r.routeResourceRead out uri
  | .promptGet name arguments => r.routePromptGet out name arguments

/-- The same router, with hooks that do nothing. -/
def quiet : Router :=
  { r with
    activityFn := r.activityFn.map fun _ _ => .ok ()
    metrics := r.metrics.map fun _ _ _ => .ok () }

/-- What the registry has for the name of a read. -/
def readOf : Request → Option RegisteredCapability
  | .resourceRead uri => r.registry.lookupResource uri
  | .promptGet name _ => r.registry.lookupPrompt name
  | _ => none

/-- The router finds a live connection of the backend: there is one, or the reconnect makes one. -/
def Serves (serverName : String) : Prop :=
  (∃ x, r.connections.live serverName = some x) ∨
    r.connections.live serverName = none ∧ r.connections.isDraining serverName = false ∧
      ∃ reconnect, r.reconnectFn = some reconnect ∧ (reconnect serverName).returned = .ok true ∧
        ∃ x, (reconnect serverName).connections.live serverName = some x

variable {r out} {s : Wire}

/-! ### Hooks -/

theorem serves_iff {serverName : String} :
    r.Serves serverName ↔ ∃ route, r.resolve serverName = .ok (.ok route) := by
  rw [Serves, resolve]
  cases r.connections.live serverName with
  | some x => simp
  | none =>
    cases r.connections.isDraining serverName with
    | true => simp
    | false =>
      cases r.reconnectFn with
      | none => cases r.connections.contains serverName <;> simp
      | some reconnect =>
        rcases hreturned : (reconnect serverName).returned with e | b
        · cases he : e.isException with
          | true =>
            cases hlive : (reconnect serverName).connections.live serverName <;>
              simp [reconnected, hreturned, he, hlive]
          | false => simp [reconnected, hreturned, he]
        · cases hlive : (reconnect serverName).connections.live serverName with
          | none => simp [reconnected, hreturned, hlive]
          | some x => cases b <;> simp [reconnected, hreturned, hlive]

/-- A hook that is guarded leaves no trace. -/
theorem catchException_raising (o : Except Raised Unit) (s : Wire) :
    catchException (raising o) (fun _ => pure ()) s = (.ok (), s) := by
  rcases o with ⟨e, he⟩ | u
  · show (if e.isException then (pure () : CallOp Unit) else throw e) s = _
    rw [if_pos he]
    rfl
  · rfl

theorem guarded_record (serverName : String) (success : Bool) (s : Wire) :
    catchException (r.record serverName success) (fun _ => pure ()) s = (.ok (), s) := by
  rw [record]
  cases r.metrics with
  | some metrics => exact catchException_raising _ s
  | none => rfl

theorem guarded_markActivity (serverName : String) (s : Wire) :
    catchException (r.markActivity serverName) (fun _ => pure ()) s = (.ok (), s) := by
  rw [markActivity]
  cases r.activityFn with
  | some activity => exact catchException_raising _ s
  | none => rfl

/-- The hooks of a tool call do nothing to it. -/
theorem dispatchCall_eq (cap : RegisteredCapability) (route : Route) (c : ToolCall) :
    r.dispatchCall out cap route c = r.attemptCall out cap route c := by
  funext s
  rw [dispatchCall, Fallible.ensure]
  rcases r.attemptCall out cap route c s with ⟨ended, s'⟩
  simp only [bind, guarded_record, guarded_markActivity]

theorem routeCall_quiet (c : ToolCall) : r.quiet.routeCall out c = r.routeCall out c := by
  have hdispatch : ∀ cap route,
      r.quiet.dispatchCall out cap route c = r.dispatchCall out cap route c := by
    intro cap route
    rw [dispatchCall_eq, dispatchCall_eq]
    rfl
  simp only [routeCall, hdispatch]
  rfl

/-- A read raises nothing that `except Exception` catches. -/
theorem attemptRead_error {cap : RegisteredCapability} {read : CallOp CallResult} {e : CallError}
    (h : (attemptRead cap read s).1 = .error e) : e.isException = false := by
  have hsat : (attemptRead cap read).sat
      (fun ended _ => ∀ e, ended = .error e → e.isException = false) s := by
    rw [attemptRead, catchException, Fallible.sat_tryCatch, Fallible.sat_bind, Fallible.sat]
    rcases (read s).1 with e | result
    · simp only [Fallible.andThen_error, Fallible.orElse_error]
      cases he : e.isException with
      | true =>
        intro e' h'
        cases h'
      | false =>
        intro e' h'
        exact Except.error.inj h' ▸ he
    · intro e' h'
      cases h'
  exact hsat e h

/-- A read with a hook comes to the same as without one when the hook returns. -/
theorem fst_ensure_markActivity_iff {cap : RegisteredCapability} {read : CallOp CallResult} :
    (Fallible.ensure (attemptRead cap read) (fun _ => r.markActivity cap.serverName) s).1 =
        (attemptRead cap read s).1 ↔
      ∀ activity, r.activityFn = some activity → activity cap.serverName = .ok () := by
  rw [Fallible.fst_ensure, markActivity]
  cases r.activityFn with
  | none => simp [pure]
  | some activity =>
    rcases hactivity : activity cap.serverName with e | u
    · have hne : (attemptRead cap read s).1 ≠ .error e.val := by
        intro h
        have := attemptRead_error h
        rw [e.property] at this
        cases this
      simpa [raising, throw, throwThe, MonadExceptOf.throw, hactivity] using hne.symm
    · simp [raising, pure, hactivity]

theorem markActivity_quiet (serverName : String) :
    r.quiet.markActivity serverName = pure () := by
  rw [markActivity, quiet]
  cases r.activityFn <;> rfl

theorem routeRead_quiet_iff (name : String) (cap : Option RegisteredCapability)
    (read : Connection → String → CallOp CallResult) :
    (r.routeRead name cap read s).1 = (r.quiet.routeRead name cap read s).1 ↔
      ∀ c, cap = some c → r.Serves c.serverName →
        ∀ activity, r.activityFn = some activity → activity c.serverName = .ok () := by
  cases cap with
  | none => simp [routeRead]
  | some c =>
    have hresolve : r.quiet.resolve c.serverName = r.resolve c.serverName := rfl
    simp only [routeRead, Option.some.injEq, forall_eq', serves_iff, hresolve, markActivity_quiet,
      Fallible.ensure_pure]
    rcases r.resolve c.serverName with e | refusal | route
    · simp
    · simp
    · simpa using fst_ensure_markActivity_iff

/-- **When the hooks cannot break a request.** The outcome of a request, the result or what is
raised, is the same as with hooks that do nothing just when the request is a tool call, or a read
that is not dispatched, or the activity hook returns. -/
theorem route_eq_quiet_iff (r : Router) (out : Outside) (q : Request) (s : Wire) :
    (r.route out q s).1 = (r.quiet.route out q s).1 ↔
      ∀ cap, r.readOf q = some cap → r.Serves cap.serverName →
        ∀ activity, r.activityFn = some activity → activity cap.serverName = .ok () := by
  cases q with
  | toolCall name arguments timeout progressCallback resumptionContext =>
    simp [route, readOf, routeToolCall, routeCall_quiet]
  | streamingCall name arguments progressCallback timeoutOverride =>
    simp [route, readOf, routeStreamingCall, routeCall_quiet]
  | resourceRead uri =>
    simp only [route, readOf, routeResourceRead]
    exact routeRead_quiet_iff uri _ _
  | promptGet name arguments =>
    simp only [route, readOf, routePromptGet]
    exact routeRead_quiet_iff name _ _

/-- The resource has been read, and the activity hook makes an error of it. -/
theorem route_ne_quiet :
    ¬ ∀ (r : Router) (out : Outside) (q : Request) (s : Wire),
      (r.route out q s).1 = (r.quiet.route out q s).1 := by
  intro h
  let cap : RegisteredCapability := ⟨"a", "a", "doc", { name := "doc" }⟩
  let x : Connection := ⟨"a", "default", fun _ => ⟨.connected, some ⟨true⟩⟩⟩
  let r : Router :=
    { registry := { Registry.empty with resources := Dict.empty.set "a__doc" cap }
      connections := Dict.empty.set "a" ⟨x, .connected⟩
      activityFn := some fun _ => .error ⟨.other "KeyError" "'a'", rfl⟩ }
  let out : Outside := { connectionClosed := -32000, attempts := fun _ => ⟨[], .ok {}⟩ }
  have hok := congrArg Except.isOk (h r out (.resourceRead "a__doc") {})
  revert hok
  decide

/-! ### Timeouts -/

theorem live_of_resolve {serverName : String} {route : Route}
    (h : r.resolve serverName = .ok (.ok route)) :
    route.connections.live serverName = some route.conn := by
  rw [resolve] at h
  cases hlive : r.connections.live serverName with
  | some x =>
    simp only [hlive, Except.ok.injEq] at h
    rw [← h]
    exact hlive
  | none =>
    simp only [hlive] at h
    cases hdraining : r.connections.isDraining serverName with
    | true =>
      rw [hdraining, if_pos rfl] at h
      cases h
    | false =>
      rw [hdraining, if_neg Bool.false_ne_true] at h
      cases hreconnect : r.reconnectFn with
      | none =>
        simp only [hreconnect] at h
        split_ifs at h <;> cases h
      | some reconnect =>
        simp only [hreconnect] at h
        rcases hreturned : reconnected (reconnect serverName) with e | b
        · simp only [hreturned] at h
          cases h
        · cases hafter : (reconnect serverName).connections.live serverName with
          | none =>
            simp only [hreturned, hafter] at h
            cases h
          | some x =>
            simp only [hreturned, hafter] at h
            cases b with
            | false => cases h
            | true =>
              simp only [if_true, Except.ok.injEq] at h
              rw [← h]
              exact hafter

/-- The timeout resolved for a route is that of the policy for the class of its connection. -/
theorem resolveTimeout_eq {serverName : String} {route : Route}
    (hresolve : r.resolve serverName = .ok (.ok route)) (override : Option ℚ) :
    r.resolveTimeout route.connections serverName override =
      policyTimeout r.timeoutRegistry route.conn.timeoutClass override := by
  have hlive := live_of_resolve hresolve
  rw [Pool.live] at hlive
  rw [resolveTimeout]
  cases hpooled : route.connections.get? serverName with
  | none =>
    rw [hpooled] at hlive
    cases hlive
  | some p =>
    simp only [hpooled] at hlive
    split_ifs at hlive
    have hclass : p.conn.timeoutClass = route.conn.timeoutClass :=
      congrArg Connection.timeoutClass (Option.some.inj hlive)
    cases r.timeoutRegistry <;> cases override <;>
      simp [policyTimeout, TimeoutRegistry.resolveForServer, hclass]

/-- The requests sent from one state to another all carry a timeout. -/
def Sent (timeout : Option ℚ) (s s' : Wire) : Prop :=
  ∃ requests, s'.requests = s.requests ++ requests ∧ ∀ q ∈ requests, q.readTimeout = timeout

instance (timeout : Option ℚ) : Std.Refl (Sent timeout) where
  refl s := ⟨[], (List.append_nil _).symm, by simp⟩

instance (timeout : Option ℚ) : IsTrans Wire (Sent timeout) where
  trans := by
    rintro s s' s'' ⟨requests, h, hall⟩ ⟨requests', h', hall'⟩
    refine ⟨requests ++ requests', ?_, ?_⟩
    · rw [h', h, List.append_assoc]
    · intro q hq
      rcases List.mem_append.mp hq with hq | hq
      · exact hall q hq
      · exact hall' q hq

/-- What leaves the requests alone sends nothing. -/
theorem sent_of_eq {timeout : Option ℚ} {s s' : Wire} (h : s'.requests = s.requests) :
    Sent timeout s s' := ⟨[], h.trans (List.append_nil _).symm, by simp⟩

theorem sent_foldl {timeout : Option ℚ} (us : List Update) :
    ∀ s : Wire, Sent timeout s (us.foldl (fun s u => (onTokenUpdate u s).2) s) := by
  induction us with
  | nil => exact refl_of (Sent timeout)
  | cons u us ih =>
    intro s
    have hone : (onTokenUpdate u s).2.requests = s.requests := by
      obtain ⟨token, stored, saved⟩ := u
      cases stored <;> cases saved <;> rfl
    exact trans_of (Sent timeout) (sent_of_eq hone) (ih _)

/-- What a connection that can make a request does with it. -/
theorem send_of_check {x : Connection} {q : SdkRequest} {onResumptionToken : Bool}
    (h : x.check (x.view s.requests.length) = .ok ()) :
    x.send out q onResumptionToken s = sdk out q onResumptionToken s := by
  show (Fallible.ofExcept (x.check (x.view s.requests.length)) >>= fun _ =>
    sdk out q onResumptionToken) s = _
  rw [h, Fallible.ofExcept_ok_bind]

theorem send_of_not_check {x : Connection} {q : SdkRequest} {onResumptionToken : Bool}
    {e : CallError} (h : x.check (x.view s.requests.length) = .error e) :
    x.send out q onResumptionToken s = (.error e, s) := by
  show (Fallible.ofExcept (x.check (x.view s.requests.length)) >>= fun _ =>
    sdk out q onResumptionToken) s = _
  rw [h, Fallible.ofExcept_error_bind]
  rfl

theorem sent_send (x : Connection) (q : SdkRequest) (onResumptionToken : Bool) (s : Wire) :
    Sent q.readTimeout s (x.send out q onResumptionToken s).2 := by
  rcases hcheck : x.check (x.view s.requests.length) with e | u
  · rw [send_of_not_check hcheck]
    exact refl_of (Sent q.readTimeout) s
  · rw [send_of_check hcheck, sdk]
    have hlogged : Sent q.readTimeout s { s with requests := s.requests ++ [q] } :=
      ⟨[q], rfl, by simp⟩
    cases onResumptionToken with
    | false => exact hlogged
    | true => exact trans_of (Sent q.readTimeout) hlogged (sent_foldl _ _)

theorem within_getToken {timeout : Option ℚ} (load : Except CallError Unit) :
    Fallible.Within (Sent timeout) (getToken load) := by
  refine Fallible.within_bind Fallible.within_get fun s => ?_
  split_ifs
  · exact Fallible.within_pure _
  · exact Fallible.within_bind (Fallible.within_ofExcept _) fun _ =>
      Fallible.within_bind (Fallible.within_modify fun _ => sent_of_eq rfl) fun _ =>
        Fallible.within_pure _

theorem within_clear {timeout : Option ℚ} : Fallible.Within (Sent timeout) (clear out) := by
  refine Fallible.within_bind (Fallible.within_modify fun _ => sent_of_eq rfl) fun _ => ?_
  cases out.delete with
  | succeeds => exact Fallible.within_modify fun _ => sent_of_eq rfl
  | fails removed exc =>
    refine Fallible.within_bind (Fallible.within_modify fun s => ?_) fun _ =>
      Fallible.within_throw _
    cases removed <;> exact sent_of_eq rfl

theorem within_callToolStreaming (x : Connection) (toolName : String) (arguments : Dict String Json)
    (timeout : Option ℚ) (token : Option String) :
    Fallible.Within (Sent timeout) (x.callToolStreaming out toolName arguments timeout token) :=
  fun s => sent_send x
    { kind := .tool, name := toolName, arguments, readTimeout := timeout, resumptionToken := token }
    true { s with issued := [] }

/-- A call that is resumed carries its timeout each time. -/
theorem within_runWithSafeResume (x : Connection) (toolName : String) (arguments : Dict String Json)
    (timeout : Option ℚ) :
    Fallible.Within (Sent timeout) (runWithSafeResume out x toolName arguments timeout) := by
  refine Fallible.within_ensure (Fallible.within_tryCatch (Fallible.within_bind
    (within_getToken _) fun token => within_callToolStreaming x toolName arguments timeout token)
    fun exc => ?_) fun _ => within_clear
  rw [resume]
  split_ifs
  · refine Fallible.within_bind (within_getToken _) fun token => ?_
    cases token with
    | none => exact Fallible.within_throw _
    | some token => exact within_callToolStreaming x toolName arguments timeout (some token)
  · exact Fallible.within_throw _

/-- The requests of a routed call. -/
def sent (r : Router) (out : Outside) (c : ToolCall) (s : Wire) : List SdkRequest :=
  (r.routeCall out c s).2.requests.drop s.requests.length

/-- Every request of a routed call carries the timeout that the policy has for it. -/
def CarriesTimeout (r : Router) (out : Outside) (c : ToolCall) (s : Wire) : Prop :=
  ∀ q ∈ r.sent out c s, ∃ cap route, r.registry.lookupTool c.namespacedName = some cap ∧
    r.resolve cap.serverName = .ok (.ok route) ∧
      q.readTimeout = policyTimeout r.timeoutRegistry route.conn.timeoutClass c.timeout

/-- The gate lets a call through, and its connection can make the request. -/
def Sends (r : Router) (cap : RegisteredCapability) (x : Connection) (s : Wire) : Prop :=
  r.enterGate cap.serverName = .ok () ∧ x.check (x.view s.requests.length) = .ok ()

theorem sent_eq_of_requests {c : ToolCall} {requests : List SdkRequest}
    (h : (r.routeCall out c s).2.requests = s.requests ++ requests) :
    r.sent out c s = requests := by
  rw [sent, h, List.drop_left]

theorem routeCall_of_resolve {c : ToolCall} {cap : RegisteredCapability} {route : Route}
    (hcap : r.registry.lookupTool c.namespacedName = some cap)
    (hroute : r.resolve cap.serverName = .ok (.ok route)) :
    r.routeCall out c s = r.attemptCall out cap route c s := by
  rw [routeCall, ← dispatchCall_eq]
  simp only [hcap, hroute, Fallible.ofExcept_ok_bind]

/-- A call that is not dispatched sends nothing. -/
theorem sent_of_not_resolve {c : ToolCall}
    (h : ¬ ∃ cap route, r.registry.lookupTool c.namespacedName = some cap ∧
      r.resolve cap.serverName = .ok (.ok route)) : r.sent out c s = [] := by
  refine sent_eq_of_requests ?_
  rw [List.append_nil, routeCall]
  cases hcap : r.registry.lookupTool c.namespacedName with
  | none => rfl
  | some cap =>
    rcases hroute : r.resolve cap.serverName with e | refusal | route
    · simp only [hroute, Fallible.ofExcept_error_bind]
      rfl
    · simp only [hroute, Fallible.ofExcept_ok_bind]
      rfl
    · exact absurd ⟨cap, route, hcap, hroute⟩ h

/-- A call that the gate refuses leaves everything as it is. -/
theorem snd_attemptCall_of_refused {c : ToolCall} {cap : RegisteredCapability} {route : Route}
    {e : CallError} (hgate : r.enterGate cap.serverName = .error e) :
    (r.attemptCall out cap route c s).2 = s := by
  show (r.attemptCall out cap route c).sat (fun _ s' => s' = s) s
  rw [attemptCall, catchException, Fallible.sat_tryCatch, hgate, Fallible.ofExcept_error_bind,
    Fallible.sat_throw, Fallible.orElse_error]
  split_ifs <;> rfl

/-- A call that passes the gate does what the call of the backend does. -/
theorem snd_attemptCall {c : ToolCall} {cap : RegisteredCapability} {route : Route}
    (hgate : r.enterGate cap.serverName = .ok ()) :
    (r.attemptCall out cap route c s).2 = (r.callTool out cap route c s).2 := by
  show (r.attemptCall out cap route c).sat
    (fun _ s' => s' = (r.callTool out cap route c s).2) s
  rw [attemptCall, catchException, Fallible.sat_tryCatch, hgate, Fallible.ofExcept_ok_bind,
    Fallible.sat_bind, Fallible.sat]
  rcases (r.callTool out cap route c s).1 with e | result
  · rw [Fallible.andThen_error, Fallible.orElse_error]
    split_ifs <;> rfl
  · rfl

/-- The streaming path sends nothing without the timeout. -/
theorem sent_callTool_of_streaming {c : ToolCall} {cap : RegisteredCapability} {route : Route}
    (hstreaming : useStreaming c route.conn = true)
    (hroute : r.resolve cap.serverName = .ok (.ok route)) :
    Sent (policyTimeout r.timeoutRegistry route.conn.timeoutClass c.timeout) s
      (r.callTool out cap route c s).2 := by
  have hwithin : Fallible.Within
      (Sent (policyTimeout r.timeoutRegistry route.conn.timeoutClass c.timeout))
      (r.callTool out cap route c) := by
    rw [callTool, if_pos hstreaming, resolveTimeout_eq hroute]
    refine Fallible.within_bind ?_ fun _ => within_runWithSafeResume _ _ _ _
    rw [callContext]
    split_ifs
    · exact Fallible.within_pure _
    · exact Fallible.within_modify fun _ => sent_of_eq rfl
  exact hwithin s

/-- The other path makes one request, and its timeout stays behind. -/
theorem sent_callTool_of_not_streaming {c : ToolCall} {cap : RegisteredCapability} {route : Route}
    (hstreaming : useStreaming c route.conn = false) :
    Sent none s (r.callTool out cap route c s).2 ∧
      (route.conn.check (route.conn.view s.requests.length) = .ok () →
        (r.callTool out cap route c s).2.requests =
          s.requests ++ [⟨.tool, cap.originalName, c.arguments, none, none⟩]) := by
  rw [callTool, hstreaming]
  refine ⟨sent_send _ _ _ s, fun hcheck => ?_⟩
  show (route.conn.send out _ false s).2.requests = _
  rw [send_of_check hcheck]
  rfl

/-- For a call that is dispatched there is one timeout to carry. -/
theorem carriesTimeout_of_resolve {c : ToolCall} {cap : RegisteredCapability} {route : Route}
    (hcap : r.registry.lookupTool c.namespacedName = some cap)
    (hroute : r.resolve cap.serverName = .ok (.ok route)) :
    r.CarriesTimeout out c s ↔ ∀ q ∈ r.sent out c s,
      q.readTimeout = policyTimeout r.timeoutRegistry route.conn.timeoutClass c.timeout := by
  refine ⟨fun h q hq => ?_, fun h q hq => ⟨cap, route, hcap, hroute, h q hq⟩⟩
  obtain ⟨cap', route', hcap', hroute', htimeout⟩ := h q hq
  obtain rfl : cap = cap' := Option.some.inj (hcap.symm.trans hcap')
  obtain rfl : route = route' := by
    rw [hroute] at hroute'
    exact Except.ok.inj (Except.ok.inj hroute')
  exact htimeout

theorem carriesTimeout_iff_of_resolve {c : ToolCall} {cap : RegisteredCapability} {route : Route}
    (hcap : r.registry.lookupTool c.namespacedName = some cap)
    (hroute : r.resolve cap.serverName = .ok (.ok route)) :
    r.CarriesTimeout out c s ↔ useStreaming c route.conn = true ∨
      policyTimeout r.timeoutRegistry route.conn.timeoutClass c.timeout = none ∨
        ¬ r.Sends cap route.conn s := by
  have hcall : r.routeCall out c s = r.attemptCall out cap route c s :=
    routeCall_of_resolve hcap hroute
  rw [carriesTimeout_of_resolve hcap hroute]
  constructor
  · intro hcarries
    by_contra! hbad
    obtain ⟨hstreaming, htimeout, hgate, hcheck⟩ := hbad
    have hrequests : (r.routeCall out c s).2.requests =
        s.requests ++ [⟨.tool, cap.originalName, c.arguments, none, none⟩] := by
      rw [hcall, snd_attemptCall hgate]
      exact (sent_callTool_of_not_streaming (Bool.eq_false_iff.mpr hstreaming)).2 hcheck
    rw [sent_eq_of_requests hrequests] at hcarries
    exact htimeout (hcarries _ (List.mem_singleton_self _)).symm
  · intro h
    suffices hsent : Sent (policyTimeout r.timeoutRegistry route.conn.timeoutClass c.timeout) s
        (r.routeCall out c s).2 by
      obtain ⟨requests, hrequests, hall⟩ := hsent
      rw [sent_eq_of_requests hrequests]
      exact hall
    rw [hcall]
    rcases hgate : r.enterGate cap.serverName with e | u
    · rw [snd_attemptCall_of_refused hgate]
      exact refl_of (Sent _) s
    · rw [snd_attemptCall hgate]
      cases hstreaming : useStreaming c route.conn with
      | true => exact sent_callTool_of_streaming hstreaming hroute
      | false =>
        rcases h with hs | htimeout | hsends
        · rw [hstreaming] at hs
          cases hs
        · rw [htimeout]
          exact (sent_callTool_of_not_streaming hstreaming).1
        · rcases hcheck : route.conn.check (route.conn.view s.requests.length) with e | u
          · rw [callTool, hstreaming]
            show Sent _ s (route.conn.send out _ false s).2
            rw [send_of_not_check hcheck]
            exact refl_of (Sent _) s
          · exact absurd ⟨hgate, hcheck⟩ hsends

/-- **When a tool call carries its timeout.** Every request the SDK gets for a routed call carries
the timeout that the policy has for it just when the call is not dispatched, or takes the streaming
path, or has no timeout, or makes no request. -/
theorem carriesTimeout_iff (r : Router) (out : Outside) (c : ToolCall) (s : Wire) :
    r.CarriesTimeout out c s ↔
      ∀ cap route, r.registry.lookupTool c.namespacedName = some cap →
        r.resolve cap.serverName = .ok (.ok route) →
          useStreaming c route.conn = true ∨
            policyTimeout r.timeoutRegistry route.conn.timeoutClass c.timeout = none ∨
              ¬ r.Sends cap route.conn s := by
  constructor
  · intro hcarries cap route hcap hroute
    exact (carriesTimeout_iff_of_resolve hcap hroute).mp hcarries
  · intro h
    by_cases hdispatched : ∃ cap route, r.registry.lookupTool c.namespacedName = some cap ∧
        r.resolve cap.serverName = .ok (.ok route)
    · obtain ⟨cap, route, hcap, hroute⟩ := hdispatched
      exact (carriesTimeout_iff_of_resolve hcap hroute).mpr (h cap route hcap hroute)
    · intro q hq
      rw [sent_of_not_resolve hdispatched] at hq
      cases hq

/-- A call of a standard backend, with a timeout of its own: the SDK gets none. -/
theorem not_carriesTimeout :
    ¬ ∀ (r : Router) (out : Outside) (c : ToolCall) (s : Wire), r.CarriesTimeout out c s := by
  intro h
  let cap : RegisteredCapability := ⟨"a", "a", "search", { name := "search" }⟩
  let x : Connection := ⟨"a", timeoutClassDefault, fun _ => ⟨.connected, some ⟨true⟩⟩⟩
  let r : Router :=
    { registry := { Registry.empty with tools := Dict.empty.set "a__search" cap }
      connections := Dict.empty.set "a" ⟨x, .connected⟩
      timeoutRegistry := some (.init .empty) }
  let out : Outside := { connectionClosed := -32000, attempts := fun _ => ⟨[], .ok {}⟩ }
  let c : ToolCall := ⟨"a__search", .empty, some 5, false, false, false⟩
  have hroute : r.resolve "a" = .ok (.ok ⟨r.connections, x⟩) := rfl
  have hcap : r.registry.lookupTool "a__search" = some cap := rfl
  have hcarries := (carriesTimeout_of_resolve hcap hroute).mp (h r out c {})
  have hnone : none = some (5 : ℚ) :=
    hcarries ⟨.tool, "search", .empty, none, none⟩ (List.mem_singleton_self _)
  cases hnone

end Router

end Resumable

end SlmMcpHub
