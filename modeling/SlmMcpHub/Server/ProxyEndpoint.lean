import SlmMcpHub.Federation.System
import SlmMcpHub.Library.Execution
import SlmMcpHub.Library.Text
import SlmMcpHub.Protocol.Conversion

/-!
# The proxy endpoint and the router

`server/proxy_endpoint.py` gives every backend an endpoint of its own, with the names the backend
uses. `handle` is what `handle_jsonrpc` does with a message before anything is sent: nothing is
awaited until then, so it is a function of the state.

The router takes a call of the same tool by another way. It finds the tool in the registry, and
connects the backend on demand.

## Main definitions

* `BackendCall` — a tool call as the backend gets it
* `ProxyEndpoint.handle`, `ProxyEndpoint.Dispatches` — the proxied call
* `FederationRouter.Dispatches` — the federated call

## Main results

* `dispatchedAlike_iff` — when the two ways agree
-/

namespace SlmMcpHub

open HubOp MCPConnection Protocol

/-- A tool call as the backend gets it: `conn.call_tool(tool_name, arguments)`. -/
structure BackendCall where
  serverName : String
  toolName : String
  arguments : Dict String Json

/-- `_check_callable` passes. -/
def Callable (s : Hub) (x : ConnRef) : Prop :=
  (s.conn x).state ≠ .draining ∧ (s.conn x).outbound = true

instance (s : Hub) (x : ConnRef) : Decidable (Callable s x) := instDecidableAnd

/-- A backend can be called as it is: its connection is up. -/
def Hub.Serves (s : Hub) (serverName : String) : Prop :=
  ∃ x, s.connections.get? serverName = some x ∧ s.isConnected x = true ∧ Callable s x

/-! ### The proxied call -/

namespace ProxyEndpoint

/-- What `handle_jsonrpc` does with a message. -/
inductive Handling where
  /-- A notification. -/
  | ignored
  | error (msgId : Json) (code : ℤ) (message : String)
  /-- The response is made of what is known of the connection. -/
  | answered (msgId : Json) (x : ConnRef) (method : String)
  | callTool (msgId : Json) (x : ConnRef) (toolName : String) (arguments : Dict String Json)
  | readResource (msgId : Json) (x : ConnRef) (uri : String)
  | getPrompt (msgId : Json) (x : ConnRef) (name : String) (arguments : Dict String Json)

/-- What `params.get(key, "")` is, if it is a text that is not blank. -/
def textParam (params : Dict String Json) (key : String) : Option String :=
  match (params.get? key).getD (.str "") with
  | .str given => if Text.isBlank given then none else some given
  | _ => none

/-- `_proxy_tool_call` and `_proxy_prompt_get`, up to the call of the connection. -/
def forwardNamed (msgId : Json) (params : Dict String Json)
    (call : String → Dict String Json → Handling) : Handling :=
  match textParam params "name", (params.get? "arguments").getD (.obj []) with
  | some name, .obj arguments => call name (Json.toDict arguments)
  | _, _ => .error msgId (-32602) "Invalid params"

/-- `_proxy_resource_read`, up to the call of the connection. -/
def forwardRead (msgId : Json) (x : ConnRef) (params : Dict String Json) : Handling :=
  match textParam params "uri" with
  | some uri => .readResource msgId x uri
  | none => .error msgId (-32602) "Invalid params"

/-- The methods that are answered from what is known of the connection. -/
def answeredMethods : List String :=
  ["initialize", "tools/list", "resources/list", "resources/templates/list", "prompts/list"]

/-- What is done for a connection that is up. -/
def serve (msgId : Json) (x : ConnRef) (method : String) (params : Dict String Json) : Handling :=
  if method = "tools/call" then forwardNamed msgId params (.callTool msgId x)
  else if method = "resources/read" then forwardRead msgId x params
  else if method = "prompts/get" then forwardNamed msgId params (.getPrompt msgId x)
  else if method ∈ answeredMethods then .answered msgId x method
  else .error msgId (-32601) s!"Method not found: {method}"

/-- The connection of a server, if it is up, or why there is none. -/
def liveConnection (s : Hub) (serverName : String) : Except (ℤ × String) ConnRef :=
  match s.connections.get? serverName with
  | none => .error (-32001, s!"Server not found: {serverName}")
  | some x =>
    if s.isConnected x then .ok x
    else if (s.conn x).state = .authRequired then
      .error (-32003, s!"Server requires authentication: {serverName}")
    else
      .error (-32002, s!"Server not connected: {serverName}")

/-- `handle_jsonrpc`, for a message that is an object with an id. -/
def handleRequest (s : Hub) (serverName : String) (msgId : Json) (message : Dict String Json) :
    Handling :=
  match (message.get? "method").getD (.str ""), (message.get? "params").getD (.obj []) with
  | .str method, .obj params =>
    if method = "" then .error msgId (-32600) "Invalid Request"
    else
      match liveConnection s serverName with
      | .error (code, text) => .error msgId code text
      | .ok x => serve msgId x method (Json.toDict params)
  | .str method, _ =>
    if method = "" then .error msgId (-32600) "Invalid Request"
    else .error msgId (-32602) "Invalid params"
  | _, _ => .error msgId (-32600) "Invalid Request"

/-- `handle_jsonrpc`, up to the call of the connection. -/
def handle (s : Hub) (serverName : String) : Json → Handling
  | .obj entries =>
    let message := Json.toDict entries
    if field message "id" = .null then .ignored
    else handleRequest s serverName (field message "id") message
  | _ => .error .null (-32600) "Invalid Request"

/-- The call reaches the backend. -/
def Dispatches (s : Hub) (serverName : String) (message : Json) (call : BackendCall) : Prop :=
  ∃ msgId x, handle s serverName message = .callTool msgId x call.toolName call.arguments ∧
    Callable s x ∧ call.serverName = serverName

end ProxyEndpoint

/-- A `tools/call` request: what else the message and its parameters have does not matter. -/
structure ToolsCall where
  message : List (String × Json)
  params : List (String × Json)
  toolName : String
  arguments : List (String × Json)
  id_ne : field (Json.toDict message) "id" ≠ .null
  method_eq : (Json.toDict message).get? "method" = some (.str "tools/call")
  params_eq : (Json.toDict message).get? "params" = some (.obj params)
  name_eq : (Json.toDict params).get? "name" = some (.str toolName)
  arguments_eq : (Json.toDict params).get? "arguments" = some (.obj arguments)

namespace ProxyEndpoint

/-- What the endpoint does with a tool call. -/
theorem handle_toolsCall (s : Hub) (serverName : String) (request : ToolsCall) :
    handle s serverName (.obj request.message) =
      match liveConnection s serverName with
      | .error (code, text) => .error (field (Json.toDict request.message) "id") code text
      | .ok x =>
        if Text.isBlank request.toolName then
          .error (field (Json.toDict request.message) "id") (-32602) "Invalid params"
        else
          .callTool (field (Json.toDict request.message) "id") x request.toolName
            (Json.toDict request.arguments) := by
  simp only [handle, if_neg request.id_ne, handleRequest, request.method_eq, request.params_eq,
    Option.getD_some]
  rw [if_neg (by decide)]
  cases liveConnection s serverName with
  | error _ => rfl
  | ok x =>
    simp only [serve, if_true, forwardNamed, textParam, request.name_eq, request.arguments_eq,
      Option.getD_some]
    cases Text.isBlank request.toolName <;> rfl

theorem liveConnection_eq_ok {s : Hub} {serverName : String} {x : ConnRef} :
    liveConnection s serverName = .ok x ↔
      s.connections.get? serverName = some x ∧ s.isConnected x = true := by
  rw [liveConnection]
  cases s.connections.get? serverName with
  | none => exact iff_of_false nofun nofun
  | some y =>
    simp only [Option.some.injEq]
    by_cases hconnected : s.isConnected y = true
    · rw [if_pos hconnected, Except.ok.injEq]
      constructor
      · rintro rfl
        exact ⟨rfl, hconnected⟩
      · exact And.left
    · rw [if_neg hconnected]
      refine iff_of_false ?_ ?_
      · split_ifs <;> exact nofun
      · rintro ⟨rfl, hx⟩
        exact hconnected hx

/-- The proxied call reaches the backend of a connection that is up. -/
theorem dispatches_iff {s : Hub} {serverName : String} {request : ToolsCall} {call : BackendCall} :
    Dispatches s serverName (.obj request.message) call ↔
      s.Serves serverName ∧ Text.isBlank request.toolName = false ∧
        call = ⟨serverName, request.toolName, Json.toDict request.arguments⟩ := by
  rw [Dispatches, handle_toolsCall]
  constructor
  · rintro ⟨msgId, x, hhandle, hcallable, hserver⟩
    cases hlive : liveConnection s serverName with
    | error e => simp [hlive] at hhandle
    | ok y =>
      obtain ⟨hget, hconnected⟩ := liveConnection_eq_ok.mp hlive
      cases hblank : Text.isBlank request.toolName with
      | true => simp [hlive, hblank] at hhandle
      | false =>
        simp only [hlive, hblank, Bool.false_eq_true, if_false, Handling.callTool.injEq] at hhandle
        obtain ⟨-, rfl, htool, harguments⟩ := hhandle
        refine ⟨⟨y, hget, hconnected, hcallable⟩, rfl, ?_⟩
        rw [htool, harguments, ← hserver]
  · rintro ⟨⟨x, hget, hconnected, hcallable⟩, hblank, rfl⟩
    have hlive := liveConnection_eq_ok.mpr ⟨hget, hconnected⟩
    refine ⟨field (Json.toDict request.message) "id", x, ?_, hcallable, rfl⟩
    simp only [hlive, hblank, Bool.false_eq_true, if_false]

/-- What a run of the endpoint comes to is what `handle` says of the request. -/
theorem exec_handleJsonrpc_iff {M : System hubSignature} {rely : Hub → Hub → Prop} {t : TaskId}
    {w w' : World hubSignature} {serverName : String} {request : ToolsCall}
    {r : Except Exc Response} (hblank : Text.isBlank request.toolName = false) :
    (handleJsonrpc .tool serverName).Exec M rely t w r w' ↔
      match handle w.state serverName (.obj request.message) with
      | .callTool _ x _ _ => (proxyToolCall x).Exec M rely t w r w'
      | .error _ code text => .ok (.error code text) = r ∧ w = w'
      | _ => False := by
  rw [handleJsonrpc, HubOp.get, Op.exec_get_bind, handle_toolsCall, hblank, liveConnection]
  cases (Hub.connections w.state).get? serverName with
  | none => exact Op.exec_pure
  | some x =>
    simp only
    by_cases hconnected : Hub.isConnected w.state x = true
    · rw [if_pos hconnected, if_neg (by simp [hconnected])]
      simp only [if_true, Bool.false_eq_true, if_false]
    · rw [if_neg hconnected, if_pos (by simpa using hconnected)]
      by_cases hauth : (Hub.conn w.state x).state = .authRequired
      · rw [if_pos hauth, if_pos hauth]
        exact Op.exec_pure
      · rw [if_neg hauth, if_neg hauth]
        exact Op.exec_pure

end ProxyEndpoint

/-! ### The federated call -/

namespace FederationRouter

/-- What `_dispatch_call` does before the request of the connection. -/
def enter (x : ConnRef) : HubOp Unit := do
  wait' .gate
  checkCallable x

section Executions

variable (M : System hubSignature) (rely : Hub → Hub → Prop) (t : TaskId)

/-- The call reaches the backend, from a world on. -/
def Dispatches (namespacedName : String) (arguments : Dict String Json) (w : World hubSignature)
    (call : BackendCall) : Prop :=
  ∃ cap x v v', (Hub.registry w.state).lookupTool namespacedName = some cap ∧
    (resolve cap.serverName).Exec M rely t w (.ok (.ok x)) v ∧
      (enter x).Exec M rely t v (.ok ()) v' ∧
        call = ⟨cap.serverName, cap.originalName, arguments⟩

/-- The connection the router has for a backend satisfies `p`. -/
def Holds (s : Hub) (serverName : String) (p : ConnRef → Bool) : Bool :=
  (s.pool.get? serverName).any p

/-- The router gets at the backend: it is not being drained, it has a connection that is up or is
connected on demand, and its connection takes the call. -/
def Available (serverName : String) (w : World hubSignature) : Prop :=
  Holds w.state serverName (fun x => (Hub.conn w.state x).state = .draining) = false ∧
    ∃ v, (onDemand serverName (Holds w.state serverName (Hub.isConnected w.state))).Exec M rely t w
        (.ok true) v ∧
      ∃ x v', (Hub.pool v.state).get? serverName = some x ∧ Hub.isConnected v.state x = true ∧
        (enter x).Exec M rely t v (.ok ()) v'

end Executions

variable {M : System hubSignature} {rely : Hub → Hub → Prop} {t : TaskId}
  {w w' : World hubSignature}

/-- The second lookup of the router, after the connection on demand. -/
theorem exec_lookup_iff {serverName : String} {x : ConnRef} (reconnected : Bool) :
    (do
      let s ← HubOp.get
      match s.pool.get? serverName with
      | some x =>
        if reconnected ∧ s.isConnected x then pure (.ok x)
        else pure (.error s!"Server unavailable after reconnect: {serverName}")
      | none => pure (.error s!"Server unavailable after reconnect: {serverName}") :
        HubOp (Except String ConnRef)).Exec M rely t w (.ok (.ok x)) w' ↔
      reconnected = true ∧ w = w' ∧ (Hub.pool w'.state).get? serverName = some x ∧
        Hub.isConnected w'.state x = true := by
  rw [HubOp.get, Op.exec_get_bind]
  cases hget : (Hub.pool w.state).get? serverName with
  | none =>
    simp only [Op.exec_pure]
    refine iff_of_false (fun h => by cases h.1) ?_
    rintro ⟨-, rfl, h, -⟩
    rw [hget] at h
    cases h
  | some y =>
    simp only
    split_ifs with hlive
    · rw [Op.exec_pure]
      constructor
      · rintro ⟨heq, rfl⟩
        obtain rfl := Except.ok.inj (Except.ok.inj heq)
        exact ⟨hlive.1, rfl, hget, hlive.2⟩
      · rintro ⟨-, rfl, h, -⟩
        rw [hget] at h
        exact ⟨by rw [Option.some.inj h], rfl⟩
    · rw [Op.exec_pure]
      refine iff_of_false (fun h => by cases h.1) ?_
      rintro ⟨hreconnected, rfl, h, hconnected⟩
      rw [hget] at h
      rw [← Option.some.inj h] at hconnected
      exact hlive ⟨hreconnected, hconnected⟩

/-- The connection the router goes by. -/
theorem exec_resolve_iff {serverName : String} {x : ConnRef} :
    (resolve serverName).Exec M rely t w (.ok (.ok x)) w' ↔
      Holds w.state serverName (fun x => (Hub.conn w.state x).state = .draining) = false ∧
        (onDemand serverName (Holds w.state serverName (Hub.isConnected w.state))).Exec M rely t w
          (.ok true) w' ∧
        (Hub.pool w'.state).get? serverName = some x ∧ Hub.isConnected w'.state x = true := by
  rw [resolve, HubOp.get, Op.exec_get_bind]
  by_cases hdraining : ((Hub.pool w.state).get? serverName).any
      fun x => (Hub.conn w.state x).state = .draining
  · rw [if_pos hdraining]
    refine iff_of_false (fun h => by cases h.1) fun h => ?_
    rw [Holds, hdraining] at h
    cases h.1
  · rw [if_neg hdraining, Op.exec_bind]
    constructor
    · rintro (⟨reconnected, v, hdemand, h⟩ | ⟨_, _, h⟩)
      · obtain ⟨rfl, rfl, hget⟩ := (exec_lookup_iff reconnected).mp h
        exact ⟨Bool.eq_false_iff.mpr hdraining, hdemand, hget⟩
      · cases h
    · rintro ⟨-, hdemand, hget⟩
      exact .inl ⟨true, w', hdemand, (exec_lookup_iff true).mpr ⟨rfl, rfl, hget⟩⟩

/-- A run of a routed call is one of `_dispatch_call` for the connection that was found, or it ends
where the connection was looked for. -/
theorem exec_routeToolCall_iff {namespacedName : String} {streaming : Bool}
    {cap : RegisteredCapability} {r : Except Exc RouteResult}
    (hcap : (Hub.registry w.state).lookupTool namespacedName = some cap) :
    (routeToolCall namespacedName streaming).Exec M rely t w r w' ↔
      (∃ x v, (resolve cap.serverName).Exec M rely t w (.ok (.ok x)) v ∧
        (dispatchCall cap x streaming).Exec M rely t v r w') ∨
      (∃ text, (resolve cap.serverName).Exec M rely t w (.ok (.error text)) w' ∧
        .ok (failure (.text text) cap.serverName cap.originalName) = r) ∨
      ∃ e, (resolve cap.serverName).Exec M rely t w (.error e) w' ∧ r = .error e := by
  rw [routeToolCall, HubOp.get, Op.exec_get_bind, hcap]
  refine Op.exec_bind.trans ?_
  rw [← or_assoc]
  refine or_congr_left ?_
  constructor
  · rintro ⟨found, v, hresolve, h⟩
    cases found with
    | ok x => exact .inl ⟨x, v, hresolve, h⟩
    | error text =>
      obtain ⟨rfl, rfl⟩ := Op.exec_pure.mp h
      exact .inr ⟨text, hresolve, rfl⟩
  · rintro (⟨x, v, hresolve, h⟩ | ⟨text, hresolve, rfl⟩)
    · exact ⟨.ok x, v, hresolve, h⟩
    · exact ⟨.error text, w', hresolve, Op.exec_pure.mpr ⟨rfl, rfl⟩⟩

/-- The federated call reaches the backends the router gets at. -/
theorem dispatches_iff {namespacedName : String} {arguments : Dict String Json}
    {call : BackendCall} :
    Dispatches M rely t namespacedName arguments w call ↔
      ∃ cap, (Hub.registry w.state).lookupTool namespacedName = some cap ∧
        Available M rely t cap.serverName w ∧
          call = ⟨cap.serverName, cap.originalName, arguments⟩ := by
  constructor
  · rintro ⟨cap, x, v, v', hcap, hresolve, henter, rfl⟩
    obtain ⟨hdraining, hdemand, hget, hconnected⟩ := exec_resolve_iff.mp hresolve
    exact ⟨cap, hcap, ⟨hdraining, v, hdemand, x, v', hget, hconnected, henter⟩, rfl⟩
  · rintro ⟨cap, hcap, ⟨hdraining, v, hdemand, x, v', hget, hconnected, henter⟩, rfl⟩
    exact ⟨cap, x, v, v', hcap,
      exec_resolve_iff.mpr ⟨hdraining, hdemand, hget, hconnected⟩, henter, rfl⟩

end FederationRouter

/-- **When the two ways agree**: the backend has a connection that is up and the tool has a name
that is not blank, or the router does not get at the backend either. -/
theorem dispatchedAlike_iff {M : System hubSignature} {rely : Hub → Hub → Prop} {t : TaskId}
    {w : World hubSignature} (request : ToolsCall) {namespacedName : String}
    {cap : RegisteredCapability}
    (hcap : (Hub.registry w.state).lookupTool namespacedName = some cap)
    (hname : cap.originalName = request.toolName) :
    (∀ call, FederationRouter.Dispatches M rely t namespacedName (Json.toDict request.arguments) w
        call → ProxyEndpoint.Dispatches w.state cap.serverName (.obj request.message) call) ↔
      (Hub.Serves w.state cap.serverName ∧ Text.isBlank request.toolName = false) ∨
        ¬ FederationRouter.Available M rely t cap.serverName w := by
  have hrouted : ∀ {call}, FederationRouter.Dispatches M rely t namespacedName
      (Json.toDict request.arguments) w call ↔
        FederationRouter.Available M rely t cap.serverName w ∧
        call = ⟨cap.serverName, request.toolName, Json.toDict request.arguments⟩ := by
    intro call
    rw [FederationRouter.dispatches_iff, ← hname]
    constructor
    · rintro ⟨cap', hcap', havailable, rfl⟩
      obtain rfl := Option.some.inj (hcap.symm.trans hcap')
      exact ⟨havailable, rfl⟩
    · rintro ⟨havailable, rfl⟩
      exact ⟨cap, hcap, havailable, rfl⟩
  constructor
  · intro h
    by_cases havailable : FederationRouter.Available M rely t cap.serverName w
    · obtain ⟨hserves, hblank, -⟩ := ProxyEndpoint.dispatches_iff.mp
        (h _ (hrouted.mpr ⟨havailable, rfl⟩))
      exact .inl ⟨hserves, hblank⟩
    · exact .inr havailable
  · rintro (⟨hserves, hblank⟩ | havailable) call hcall
    · exact ProxyEndpoint.dispatches_iff.mpr ⟨hserves, hblank, (hrouted.mp hcall).2⟩
    · exact absurd (hrouted.mp hcall).1 havailable

/-! ### An evicted backend -/

/-- A tool call with no arguments. -/
def readFile : ToolsCall where
  message := [("jsonrpc", .str "2.0"), ("id", .int 1), ("method", .str "tools/call"),
    ("params", .obj [("name", .str "read"), ("arguments", .obj [])])]
  params := [("name", .str "read"), ("arguments", .obj [])]
  toolName := "read"
  arguments := []
  id_ne := by decide +kernel
  method_eq := by decide +kernel
  params_eq := by decide +kernel
  name_eq := by decide +kernel
  arguments_eq := by decide +kernel

/-- What the registry has for the tool. -/
def filesCap : RegisteredCapability := ⟨"files", "files", "read", { name := "files__read" }⟩

/-- The one connection of the backend. -/
def filesConn : ConnRef := ⟨0, { name := "files" }⟩

/-- A hub with one backend, whose connection is in this state. -/
def filesHub (state : ConnectionState) : Hub where
  config := { mcpServers := [{ name := "files" }] }
  registry := { Registry.empty with tools := Dict.empty.set "files__read" filesCap }
  connections := Dict.empty.set "files" filesConn
  evictedCaps := Dict.empty.set "files" { tools := [{ name := "read" }] }
  conns _ := { state := state, outbound := state = .connected }
  nextConn := 1

/-- The world of a task that makes a call. -/
def filesWorld (state : ConnectionState) : World hubSignature :=
  ⟨filesHub state, fun _ => .unborn, 1⟩

theorem dispatchedAlike_iff_connected :
    (∀ call, FederationRouter.Dispatches hub (· = ·) 0 "files__read" .empty (filesWorld .connected)
        call → ProxyEndpoint.Dispatches (filesHub .connected) "files"
          (.obj readFile.message) call) ↔
      ((filesHub .connected).Serves "files" ∧ Text.isBlank "read" = false) ∨
        ¬ FederationRouter.Available hub (· = ·) 0 "files" (filesWorld .connected) :=
  dispatchedAlike_iff (w := filesWorld .connected) readFile (show _ = some filesCap from rfl) rfl

/-- The router connects an evicted backend, and gets at it. -/
theorem available_evicted :
    FederationRouter.Available hub (· = ·) 0 "files" (filesWorld .disconnected) := by
  obtain ⟨r, w', hexec, hr⟩ := Op.exists_exec_of_play (M := hub) (t := 0) (· = ·)
    (w := filesWorld .disconnected) (fun _ => rfl)
    (p := do
      match ← FederationRouter.resolve "files" with
      | .ok x => FederationRouter.enter x
      | .error message => throw (.other "Error" message .transient)) Nat.zero_lt_one
    [.ok, .connected {}, .ok, .ok] (fun r _ => r.isOk) (by decide +kernel)
  rcases Op.exec_bind.mp hexec with ⟨found, v, hresolve, henter⟩ | ⟨e, -, rfl⟩
  · cases found with
    | error message =>
      obtain ⟨rfl, -⟩ := henter
      cases hr
    | ok x =>
      obtain ⟨hdraining, hdemand, hget, hconnected⟩ :=
        FederationRouter.exec_resolve_iff.mp hresolve
      cases r with
      | error e => cases hr
      | ok _ => exact ⟨hdraining, v, hdemand, x, w', hget, hconnected, henter⟩
  · cases hr

/-- The proxy endpoint does not. -/
theorem not_dispatchedAlike_evicted :
    ¬ ∀ (s : Hub) (t next : TaskId) (request : ToolsCall) (namespacedName : String)
      (cap : RegisteredCapability), t < next →
      s.registry.lookupTool namespacedName = some cap → cap.originalName = request.toolName →
      (s.config.find? cap.serverName).any MCPServerConfig.enabled →
      s.evictedCaps.contains cap.serverName →
      FederationRouter.Holds s cap.serverName (fun x => (s.conn x).state = .draining) = false →
      ∀ call, FederationRouter.Dispatches hub (· = ·) t namespacedName
        (Json.toDict request.arguments) ⟨s, fun _ => .unborn, next⟩ call →
        ProxyEndpoint.Dispatches s cap.serverName (.obj request.message) call := by
  intro h
  have hproxied := h (filesHub .disconnected) 0 1 readFile "files__read" filesCap Nat.zero_lt_one
    rfl rfl (by decide) (by decide) (by decide) _
    (FederationRouter.dispatches_iff.mpr ⟨filesCap, rfl, available_evicted, rfl⟩)
  obtain ⟨⟨x, hget, hconnected, -⟩, -⟩ := ProxyEndpoint.dispatches_iff.mp hproxied
  obtain rfl : filesConn = x := Option.some.inj hget
  exact absurd hconnected (by decide)

end SlmMcpHub
