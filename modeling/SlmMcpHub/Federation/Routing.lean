import SlmMcpHub.Federation.Manager

/-!
# Routed and proxied calls

`federation/router.py`, `streaming/resume.py` and `server/proxy_endpoint.py`: the two ways a call
reaches a backend. The router looks the name up in the registry, connects an evicted backend on
demand and marks the activity of the backend when the call is over; the proxy endpoint forwards to
a backend that is connected.
-/

namespace SlmMcpHub

open HubOp MCPConnection

namespace Registry

/-- `lookup_resource` -/
def lookupResource (r : Registry) (namespacedUri : String) : Option RegisteredCapability :=
  r.resources.get? namespacedUri

/-- `lookup_prompt` -/
def lookupPrompt (r : Registry) (namespacedName : String) : Option RegisteredCapability :=
  r.prompts.get? namespacedName

end Registry

/-- A result that consists of one line of text. -/
def CallResult.text (text : String) : CallResult where
  content := .arr [.obj [("type", .str "text"), ("text", .str text)]]
  isError := true

namespace FederationRouter

/-- The result of a call that was not dispatched. -/
def failure (result : CallResult) (serverName toolName : String) : RouteResult :=
  ⟨result, serverName, toolName, false⟩

/-- `reconnect_fn`, unless the connection is live. -/
def onDemand (serverName : String) (live : Bool) : HubOp Bool :=
  if live then pure true
  else catchException (ConnectionManager.ensureConnected serverName) fun _ => pure false

/-- Find the connection of a backend, and connect the backend if it has none that is live. -/
def resolve (serverName : String) : HubOp (Except String ConnRef) := do
  let s ← get
  let conn := s.pool.get? serverName
  if conn.any fun x => (s.conn x).state = .draining then
    pure (.error s!"Server is shutting down: {serverName}")
  else
    let reconnected ← onDemand serverName (conn.any fun x => s.isConnected x)
    let s ← get
    match s.pool.get? serverName with
    | some x =>
      if reconnected ∧ s.isConnected x then pure (.ok x)
      else pure (.error s!"Server unavailable after reconnect: {serverName}")
    | none => pure (.error s!"Server unavailable after reconnect: {serverName}")

/-- `run_with_safe_resume` -/
def runWithSafeResume (x : ConnRef) : HubOp CallResult :=
  tryCatch (request x .tool) fun
    | .streamDropped _ true => request x .tool
    | e => throw e

/-- The call of the backend, streaming or not. -/
def callTool (x : ConnRef) (useStreaming : Bool) : HubOp CallResult :=
  if useStreaming then runWithSafeResume x else request x .tool

/-- `_dispatch_call` -/
def dispatchCall (cap : RegisteredCapability) (x : ConnRef) (forceStreaming : Bool) :
    HubOp RouteResult :=
  let useStreaming := forceStreaming || x.config.timeoutClass ≠ .default
  (catchException (do
    wait' .gate
    let result ← callTool x useStreaming
    pure (⟨result, cap.serverName, cap.originalName, !result.isError⟩ : RouteResult)) fun e =>
      pure (failure (.text e.message) cap.serverName cap.originalName)).ensure
    (act (.markCompleted cap.serverName))

/-- `route_tool_call`; `streaming` when a progress callback or a resumption context is given. -/
def routeToolCall (namespacedName : String) (streaming : Bool) : HubOp RouteResult := do
  let s ← get
  match s.registry.lookupTool namespacedName with
  | none =>
    pure (failure (.text s!"Tool not found: {namespacedName}") "unknown" namespacedName)
  | some cap =>
    match ← resolve cap.serverName with
    | .error message => pure (failure (.text message) cap.serverName cap.originalName)
    | .ok x => dispatchCall cap x streaming

/-- `route_streaming_call` -/
def routeStreamingCall (namespacedName : String) : HubOp RouteResult :=
  routeToolCall namespacedName true

/-- `route_resource_read` and `route_prompt_get`, given what the registry has for the name. -/
def routeRead (kind : RequestKind) (namespacedName : String) :
    Option RegisteredCapability → HubOp RouteResult
  | none => pure (failure {} "unknown" namespacedName)
  | some cap => do
    match ← resolve cap.serverName with
    | .error _ => pure (failure {} cap.serverName cap.originalName)
    | .ok x =>
      (catchException (do
        let result ← request x kind
        pure (⟨result, cap.serverName, cap.originalName, true⟩ : RouteResult)) fun _ =>
          pure (failure {} cap.serverName cap.originalName)).ensure
        (act (.markActivity cap.serverName))

/-- `route_resource_read` -/
def routeResourceRead (namespacedUri : String) : HubOp RouteResult := do
  let s ← get
  routeRead .resource namespacedUri (s.registry.lookupResource namespacedUri)

/-- `route_prompt_get` -/
def routePromptGet (namespacedName : String) : HubOp RouteResult := do
  let s ← get
  routeRead .prompt namespacedName (s.registry.lookupPrompt namespacedName)

end FederationRouter

namespace ProxyEndpoint

/-- The response to a request the backend did not serve. -/
def internalError : Response := .error (-32603) "Internal server error"

/-- `_proxy_tool_call`: the call is over before the plugins are told of it. -/
def proxyToolCall (x : ConnRef) : HubOp Response :=
  (catchException (do
    let result ← (request x .tool).ensure (act (.complete x.name))
    pure (.result result)) fun _ => pure internalError).ensure
    (catchException (wait' .plugins) fun _ => pure ())

/-- `_proxy_resource_read` and `_proxy_prompt_get` -/
def proxyRead (kind : RequestKind) (x : ConnRef) : HubOp Response :=
  catchException (do pure (.result (← request x kind))) fun _ => pure internalError

/-- `handle_jsonrpc`, for the methods it forwards. -/
def handleJsonrpc (kind : RequestKind) (serverName : String) : HubOp Response := do
  let s ← get
  match s.connections.get? serverName with
  | none => pure (.error (-32001) s!"Server not found: {serverName}")
  | some x =>
    if !s.isConnected x then
      if (s.conn x).state = .authRequired then
        pure (.error (-32003) s!"Server requires authentication: {serverName}")
      else
        pure (.error (-32002) s!"Server not connected: {serverName}")
    else if kind = .tool then
      proxyToolCall x
    else
      proxyRead kind x

end ProxyEndpoint

end SlmMcpHub
