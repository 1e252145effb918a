import SlmMcpHub.Protocol.Conversion

/-!
# The JSON-RPC endpoint

`server/mcp_endpoint.py`: the nine handlers, and the dispatch of a message to one of them.

Whatever a handler raises becomes an error response, as far as it is an `Exception`. The lookup of
the handler comes before that, and a method that cannot be the key of a dictionary ends it.

## Main definitions

* `MCPEndpoint`, with its handlers and `handleJsonrpc`
* `Answers` — what a client is promised of an answer

## Main results

* `answers_iff` — the messages the endpoint answers as promised
-/

namespace SlmMcpHub

namespace Protocol

/-- `MCPEndpoint`: its sessions, as far as they are known to exist, and the operations. -/
structure MCPEndpoint where
  hasSession : String → Bool
  ops : HubProductOperations

/-- A handler, given the session and the parameters. -/
abbrev Handler : Type := String → Dict String Json → Result (Dict String Json)

namespace MCPEndpoint

/-- `MCPEndpoint._META_TOOL_ALIASES` -/
def metaToolAliases : Dict String String :=
  Dict.empty.setAll [("hub__search_tools", "search_tools"), ("hub__call_tool", "call_tool"),
    ("hub__list_servers", "list_servers")]

variable (R : Formats) (endpoint : MCPEndpoint)

/-- `handle_initialize`; the name of the client is read for the log. -/
def handleInitialize : Handler := fun sessionId params => do
  let clientInfo := field params "clientInfo"
  let given := if clientInfo.truthy then clientInfo else .obj []
  if endpoint.hasSession sessionId && given.typeName ≠ "dict" then
    throw (.exception "AttributeError")
  let outcome ← HubProductOperations.negotiate (field params "protocolVersion") given
  pure (initializeToWire outcome)

/-- `handle_server_discover` -/
def handleServerDiscover : Handler := fun _ _ =>
  .ok (discoverToWire HubProductOperations.discover)

/-- `handle_tools_list` -/
def handleToolsList : Handler := fun _ _ => .ok (listToWire "tools" endpoint.ops.listTools)

/-- What `handle_tools_call` does with its parameters. -/
inductive ToolsCall where
  | reply (result : Dict String Json)
  | call (dispatch : Dispatch)

/-- The first part of `handle_tools_call`. -/
def toolsCall (params : Dict String Json) : Result ToolsCall :=
  match (params.get? "name").getD (.str "") with
  | .str given =>
    let name := Text.strip given
    if name = "" then
      .error (.invalidParams "'name' is required")
    else
      match coerceObject R (field params "arguments") with
      | .error argError => .ok (.reply (Json.toDict [
          ("content",
            .arr [textBlock s!"Error calling '{name}': 'arguments' is invalid: {argError}"]),
          ("isError", .bool true)]))
      | .ok arguments =>
        let name := resolveAlias metaToolAliases name
        if "hub__".toList.isPrefixOf name.toList ∨
            name ∈ ["search_tools", "call_tool", "list_servers"] then
          .ok (.call (.handleMetaTool name arguments))
        else
          .ok (.call (.routeTool name arguments))
  | value => .error (.invalidParams s!"'name' must be a string, got {value.typeName}")

/-- `handle_tools_call` -/
def handleToolsCall : Handler := fun _ params => do
  match ← toolsCall R params with
  | .reply result => pure result
  | .call dispatch => pure (callToolOutcomeToWire (← endpoint.ops.perform R dispatch))

/-- `handle_resources_list` -/
def handleResourcesList : Handler := fun _ _ =>
  .ok (listToWire "resources" endpoint.ops.listResources)

/-- `handle_resources_read` -/
def handleResourcesRead : Handler := fun _ params => do
  pure (rawToWire (← endpoint.ops.readResource ((params.get? "uri").getD (.str ""))))

/-- `handle_resources_templates_list` -/
def handleResourcesTemplatesList : Handler := fun _ _ =>
  .ok (listToWire "resourceTemplates" endpoint.ops.listResourceTemplates)

/-- `handle_prompts_list` -/
def handlePromptsList : Handler := fun _ _ =>
  .ok (listToWire "prompts" endpoint.ops.listPrompts)

/-- `handle_prompts_get` -/
def handlePromptsGet : Handler := fun _ params => do
  pure (rawToWire (← endpoint.ops.getPrompt ((params.get? "name").getD (.str ""))
    ((params.get? "arguments").getD (.obj []))))

/-- `handler_map` -/
def handlerMap : Dict String Handler :=
  Dict.empty.setAll [
    ("server/discover", handleServerDiscover),
    ("initialize", handleInitialize endpoint),
    ("tools/list", handleToolsList endpoint),
    ("tools/call", handleToolsCall R endpoint),
    ("resources/list", handleResourcesList endpoint),
    ("resources/read", handleResourcesRead endpoint),
    ("resources/templates/list", handleResourcesTemplatesList endpoint),
    ("prompts/list", handlePromptsList endpoint),
    ("prompts/get", handlePromptsGet endpoint)]

/-- `handler_map.get(method)` -/
def findHandler : Json → Result (Option (String × Handler))
  | .str method => .ok (((handlerMap R endpoint).get? method).map fun handler => (method, handler))
  | method => if method.hashable then .ok none else .error (.exception "TypeError")

/-- A response with a result. -/
def resultResponse (msgId : Json) (result : Dict String Json) : Dict String Json :=
  Json.toDict [("jsonrpc", .str "2.0"), ("id", msgId), ("result", ofDict result)]

/-- A response with an error. -/
def errorResponse (msgId : Json) (code : ℤ) (message : String) : Dict String Json :=
  Json.toDict [("jsonrpc", .str "2.0"), ("id", msgId),
    ("error", .obj [("code", .int code), ("message", .str message)])]

/-- The `try` of `handle_jsonrpc`. -/
def callHandler (sessionId : String) (message : Dict String Json) (msgId : Json) (method : String)
    (handler : Handler) (params : Dict String Json) : Result (Option (Dict String Json)) :=
  match handler sessionId params with
  | .ok result =>
    .ok (some (resultResponse msgId
      (if isModernRequest message then toModernResult method result else result)))
  | .error (.invalidParams exc) =>
    .ok (some (errorResponse msgId (-32602) s!"Invalid params: {exc}"))
  | .error (.exception _) => .ok (some (errorResponse msgId (-32603) "Internal server error"))
  | .error .cancelled => .error .cancelled

/-- `handle_jsonrpc` -/
def handleJsonrpc (sessionId : String) (message : Dict String Json) :
    Result (Option (Dict String Json)) :=
  let method := (message.get? "method").getD (.str "")
  let params := (message.get? "params").getD (.obj [])
  let msgId := field message "id"
  if msgId = .null then
    .ok none
  else
    match findHandler R endpoint method with
    | .error e => .error e
    | .ok none => .ok (some (errorResponse msgId (-32601) s!"Method not found: {R.str method}"))
    | .ok (some (method, handler)) =>
      match params with
      | .null => callHandler sessionId message msgId method handler .empty
      | .obj entries => callHandler sessionId message msgId method handler (Json.toDict entries)
      | params => .ok (some (errorResponse msgId (-32602)
          s!"Invalid params: 'params' must be an object, got {params.typeName}"))

end MCPEndpoint

/-! ### Answers -/

/-- What a client is promised of the answer to a message: no response exactly when the message has
no id, else a response with this id and one of a result and an error, and no exception but that of
a task that is stopped. -/
def Answers (message : Dict String Json) : Result (Option (Dict String Json)) → Prop
  | .ok none => field message "id" = .null
  | .ok (some response) => field message "id" ≠ .null ∧
      response.get? "id" = some (field message "id") ∧
        Xor (response.contains "result") (response.contains "error")
  | .error e => e.isException = false

open MCPEndpoint

section Answers

variable {R : Formats} {endpoint : MCPEndpoint} {message : Dict String Json}

theorem answers_resultResponse (h : field message "id" ≠ .null) (result : Dict String Json) :
    Answers message (.ok (some (resultResponse (field message "id") result))) :=
  ⟨h, by simp [resultResponse, Json.toDict, Dict.get?_set],
    by simp [resultResponse, Json.toDict, Dict.contains, Dict.get?_set, Xor]⟩

theorem answers_errorResponse (h : field message "id" ≠ .null) (code : ℤ) (text : String) :
    Answers message (.ok (some (errorResponse (field message "id") code text))) :=
  ⟨h, by simp [errorResponse, Json.toDict, Dict.get?_set],
    by simp [errorResponse, Json.toDict, Dict.contains, Dict.get?_set, Xor]⟩

/-- Whatever a handler does, its caller answers. -/
theorem answers_callHandler (h : field message "id" ≠ .null) (sessionId method : String)
    (handler : Handler) (params : Dict String Json) :
    Answers message
      (callHandler sessionId message (field message "id") method handler params) := by
  rw [callHandler]
  cases handler sessionId params with
  | ok result => exact answers_resultResponse h _
  | error e =>
    cases e with
    | invalidParams exc => exact answers_errorResponse h _ _
    | exception typeName => exact answers_errorResponse h _ _
    | cancelled => rfl

/-- The lookup of a handler succeeds for a method that can be a key. -/
theorem exists_findHandler {method : Json} (h : method.hashable = true) :
    ∃ found, findHandler R endpoint method = .ok found := by
  cases method with
  | str s => exact ⟨_, rfl⟩
  | _ => exact ⟨none, by rw [findHandler, if_pos h]; exact nofun⟩

theorem findHandler_of_not_hashable {method : Json} (h : method.hashable = false) :
    findHandler R endpoint method = .error (.exception "TypeError") := by
  cases method with
  | arr l => rfl
  | obj entries => rfl
  | _ => cases h

theorem hashable_method (message : Dict String Json) :
    ((message.get? "method").getD (.str "")).hashable = (field message "method").hashable := by
  rw [field]
  cases message.get? "method" <;> rfl

/-- A request whose handler cannot be looked up. -/
theorem handleJsonrpc_of_not_hashable (sessionId : String) (hid : field message "id" ≠ .null)
    (hmethod : (field message "method").hashable = false) :
    handleJsonrpc R endpoint sessionId message = .error (.exception "TypeError") := by
  have hfound : findHandler R endpoint ((message.get? "method").getD (.str "")) =
      .error (.exception "TypeError") :=
    findHandler_of_not_hashable ((hashable_method message).trans hmethod)
  rw [handleJsonrpc, if_neg hid, hfound]

/-- **The messages the endpoint answers as promised**: those without an id, and those whose method
is no list and no object. -/
theorem answers_iff (R : Formats) (endpoint : MCPEndpoint) (sessionId : String)
    (message : Dict String Json) :
    Answers message (handleJsonrpc R endpoint sessionId message) ↔
      field message "id" = .null ∨ (field message "method").hashable = true := by
  by_cases hid : field message "id" = .null
  · rw [handleJsonrpc, if_pos hid]
    exact iff_of_true hid (Or.inl hid)
  rw [or_iff_right hid]
  cases hhash : (field message "method").hashable with
  | false =>
    rw [handleJsonrpc_of_not_hashable sessionId hid hhash]
    exact iff_of_false (by simp [Answers, Raised.isException]) (by simp)
  | true =>
    refine iff_of_true ?_ rfl
    obtain ⟨found, hfound⟩ :
        ∃ found, findHandler R endpoint ((message.get? "method").getD (.str "")) = .ok found :=
      exists_findHandler ((hashable_method message).trans hhash)
    rw [handleJsonrpc, if_neg hid, hfound]
    cases found with
    | none => exact answers_errorResponse hid _ _
    | some found =>
      obtain ⟨method, handler⟩ := found
      cases (message.get? "params").getD (.obj []) with
      | null => exact answers_callHandler hid _ _ _ _
      | obj entries => exact answers_callHandler hid _ _ _ _
      | _ => exact answers_errorResponse hid _ _

end Answers

/-- A request whose method is a list ends with the exception of the lookup. -/
theorem not_answers_list :
    ¬ Answers (Json.toDict [("id", .int 1), ("method", .arr [])])
      (handleJsonrpc plainFormats ⟨fun _ => false, ⟨plainRouter .empty, none⟩⟩ "session"
        (Json.toDict [("id", .int 1), ("method", .arr [])])) := by
  have hraised : handleJsonrpc plainFormats ⟨fun _ => false, ⟨plainRouter .empty, none⟩⟩ "session"
      (Json.toDict [("id", .int 1), ("method", .arr [])]) = .error (.exception "TypeError") := rfl
  rw [hraised]
  exact Bool.noConfusion

end Protocol

end SlmMcpHub
