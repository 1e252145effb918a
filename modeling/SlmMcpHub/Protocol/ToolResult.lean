import SlmMcpHub.Protocol.ContentBlock
import SlmMcpHub.Protocol.Discovery
import SlmMcpHub.Protocol.Inbound

/-!
# The result of a federated call

`protocol/outbound.py`, `_serialize_call_tool_result`, and the way of a result from there through
the router, the operations and the JSON-RPC endpoint to the client. From the router on the
dictionary is handed on as it is; what is lost is lost where it is made.

The types of the SDK are records whose dump has an entry for each field that is set.

## Main definitions

* `CallToolResult`, `serializeCallToolResult`
* `FederatedCall` — a message the endpoint answers with the result of a routed call
* `Delivers` — what a response has to hold

## Main results

* `delivers_iff` — the results that are delivered as they are
* `callToolOutcomeToSdk_routedOutcome` — what the SDK makes of a result again
-/

namespace SlmMcpHub

namespace Protocol

open HubProductOperations

/-- The kinds of content blocks. -/
inductive BlockKind where
  | text
  | image
  | audio
  | resourceLink
  | resource

/-- The tag of a kind. -/
def BlockKind.tag : BlockKind → String
  | .text => "text"
  | .image => "image"
  | .audio => "audio"
  | .resourceLink => "resource_link"
  | .resource => "resource"

/-- A content block: its kind, and the other fields that are set, under their names on the wire. -/
structure ContentBlock where
  kind : BlockKind
  fields : List (String × Json)

/-- `block.model_dump(by_alias=True, exclude_none=True)` -/
def ContentBlock.modelDump (block : ContentBlock) : Json :=
  .obj (("type", .str block.kind.tag) :: block.fields)

/-- The `CallToolResult` of the SDK. -/
structure CallToolResult where
  content : List ContentBlock
  isError : Bool := false
  structuredContent : Option (List (String × Json)) := none
  metaFields : Option (List (String × Json)) := none

/-- `_serialize_call_tool_result` -/
def serializeCallToolResult (result : CallToolResult) : Dict String Json :=
  let out := Dict.empty.set "content" (.arr (result.content.map ContentBlock.modelDump))
  if result.isError then out.set "isError" (.bool true) else out

/-- What `_dispatch_call` makes of the result of a backend. -/
def dispatchResult (cap : RegisteredCapability) (result : Dict String Json) : RouteResult :=
  ⟨result, cap.serverName, .str cap.originalName,
    !((result.get? "isError").getD (.bool false)).truthy⟩

/-! ### Federated calls -/

/-- How a call of a tool reaches the router: directly, or by way of `call_tool`. -/
inductive Routed (R : Formats) (dispatch : Dispatch) (name : String)
    (arguments : Dict String Json) : Prop
  | direct (h : dispatch = .routeTool name arguments)
  | byCallTool (metaName : String) (payload : Dict String Json)
      (hdispatch : dispatch = .handleMetaTool metaName payload)
      (halias : resolveAlias metaToolAliases metaName = "call_tool")
      (hplan : callPlan R payload = .route name arguments)

/-- The message is a call of a tool, and the endpoint routes it to an entry of the registry. -/
structure FederatedCall (R : Formats) (endpoint : MCPEndpoint) (message : Dict String Json)
    (cap : RegisteredCapability) (arguments : Dict String Json) : Prop where
  method : message.get? "method" = some (.str "tools/call")
  routed : ∃ params dispatch name, message.get? "params" = some (.obj params) ∧
    MCPEndpoint.toolsCall R (Json.toDict params) = .ok (.call dispatch) ∧
    Routed R dispatch name arguments ∧ endpoint.ops.registry.lookupTool name = some cap

/-- A dictionary on the wire carries what the result says. -/
structure Carries (wire : Dict String Json) (result : CallToolResult) : Prop where
  content : wire.get? "content" = some (.arr (result.content.map ContentBlock.modelDump))
  isError : ((wire.get? "isError").getD (.bool false)).truthy = result.isError
  structuredContent : wire.get? "structuredContent" = result.structuredContent.map .obj
  metaFields : wire.get? "_meta" = result.metaFields.map .obj

/-- The result in a response carries what the result of the backend says. -/
def Delivers (response : Dict String Json) (result : CallToolResult) : Prop :=
  ∃ wire, response.get? "result" = some (ofDict wire) ∧ Carries wire result

theorem get?_serialize (result : CallToolResult) (key : String) :
    (serializeCallToolResult result).get? key =
      if key = "isError" then (if result.isError then some (.bool true) else none)
      else if key = "content" then some (.arr (result.content.map ContentBlock.modelDump))
      else none := by
  rw [serializeCallToolResult]
  by_cases herror : key = "isError"
  · subst herror
    cases result.isError <;> simp [Dict.get?_set]
  · cases result.isError <;> simp [Dict.get?_set, herror, Ne.symm herror, eq_comm]

/-- A dump carries what it is made of, and nothing else. -/
theorem carries_serialize_iff (result : CallToolResult) :
    Carries (serializeCallToolResult result) result ↔
      result.structuredContent = none ∧ result.metaFields = none := by
  constructor
  · intro h
    have hstructured := h.structuredContent
    have hmeta := h.metaFields
    rw [get?_serialize, if_neg (by decide), if_neg (by decide)] at hstructured hmeta
    exact ⟨Option.map_eq_none_iff.mp hstructured.symm, Option.map_eq_none_iff.mp hmeta.symm⟩
  · rintro ⟨hstructured, hmeta⟩
    refine ⟨?_, ?_, ?_, ?_⟩
    · rw [get?_serialize, if_neg (by decide), if_pos rfl]
    · rw [get?_serialize, if_pos rfl]
      cases result.isError <;> rfl
    · rw [get?_serialize, if_neg (by decide), if_neg (by decide), hstructured]
      rfl
    · rw [get?_serialize, if_neg (by decide), if_neg (by decide), hmeta]
      rfl

/-- The envelope of the revision 2026-07-28 changes nothing of this. -/
theorem carries_toModernResult_iff (method : String) (wire : Dict String Json)
    (result : CallToolResult) :
    Carries (toModernResult method wire) result ↔ Carries wire result := by
  have hget : ∀ key ∈ ["content", "isError", "structuredContent", "_meta"],
      (toModernResult method wire).get? key = wire.get? key := by
    intro key hkey
    refine get?_toModernResult method wire ?_
    simp only [List.mem_cons, List.not_mem_nil, or_false] at hkey
    rcases hkey with rfl | rfl | rfl | rfl <;> decide
  constructor
  · rintro ⟨hcontent, herror, hstructured, hmeta⟩
    rw [hget _ (by simp)] at hcontent herror hstructured hmeta
    exact ⟨hcontent, herror, hstructured, hmeta⟩
  · rintro ⟨hcontent, herror, hstructured, hmeta⟩
    refine ⟨?_, ?_, ?_, ?_⟩
    · rw [hget _ (by simp), hcontent]
    · rw [hget _ (by simp), herror]
    · rw [hget _ (by simp), hstructured]
    · rw [hget _ (by simp), hmeta]

theorem ofDict_injective : Function.Injective ofDict := by
  intro d d' h
  rw [← toDict_ofDict d, ← toDict_ofDict d']
  exact congrArg Json.toDict (Json.obj.inj h)

theorem delivers_resultResponse_iff (msgId : Json) (wire : Dict String Json)
    (result : CallToolResult) :
    Delivers (MCPEndpoint.resultResponse msgId wire) result ↔ Carries wire result := by
  have hget : (MCPEndpoint.resultResponse msgId wire).get? "result" = some (ofDict wire) := by
    simp [MCPEndpoint.resultResponse, Json.toDict]
  constructor
  · rintro ⟨wire', hwire', h⟩
    rw [ofDict_injective (Option.some.inj (hget.symm.trans hwire'))]
    exact h
  · exact fun h => ⟨wire, hget, h⟩

/-! ### From the backend to the client -/

section Delivery

variable {R : Formats} {endpoint : MCPEndpoint} {name : String} {arguments : Dict String Json}
  {cap : RegisteredCapability} {result : CallToolResult}

/-- The outcome of a routed call has the dictionary of the backend, as it is. -/
theorem routedOutcome_serialize (route : RouteResult)
    (hroute : route.result = serializeCallToolResult result) :
    ∃ outcome, routedOutcome route = .ok outcome ∧
      callToolOutcomeToWire outcome = serializeCallToolResult result := by
  have hcontent : route.result.get? "content" =
      some (.arr (result.content.map ContentBlock.modelDump)) := by
    rw [hroute, get?_serialize, if_neg (by decide), if_pos rfl]
  refine ⟨⟨result.content.map ContentBlock.modelDump,
    ((route.result.get? "isError").getD (.bool false)).truthy, route.serverName,
    some route.result⟩, ?_, hroute⟩
  rw [routedOutcome, hcontent]
  rfl

theorem notifyPlugins_eq (ops : HubProductOperations) (call : PluginCall) :
    ops.notifyPlugins call = .ok () ∨ ops.notifyPlugins call = .error .cancelled := by
  rw [notifyPlugins]
  cases ops.hub with
  | none => exact Or.inl rfl
  | some notify =>
    cases hcall : notify call with
    | ok => exact Or.inl (by simp only [hcall])
    | error e =>
      cases e with
      | cancelled => exact Or.inr (by simp only [hcall]; rfl)
      | _ => exact Or.inl (by simp only [hcall]; rfl)

/-- A direct call hands the dictionary of a backend on as it is. -/
theorem perform_routeTool {ops : HubProductOperations}
    (hcap : ops.registry.lookupTool name = some cap)
    (hresult : ops.router.toolCall cap arguments =
      .ok (dispatchResult cap (serializeCallToolResult result))) :
    ∃ outcome, ops.perform R (.routeTool name arguments) = .ok outcome ∧
      callToolOutcomeToWire outcome = serializeCallToolResult result := by
  obtain ⟨outcome, houtcome, hwire⟩ :=
    routedOutcome_serialize (dispatchResult cap (serializeCallToolResult result)) rfl
  have hroute : ops.router.routeToolCall name arguments = ops.router.toolCall cap arguments := by
    rw [Router.routeToolCall, show ops.router.registry.lookupTool name = some cap from hcap]
  refine ⟨outcome, ?_, hwire⟩
  rw [perform, routeTool, routeToolNotifying, hroute, hresult]
  exact houtcome

/-- So does `call_tool`, unless the plugins are stopped. -/
theorem perform_routed {ops : HubProductOperations} {dispatch : Dispatch}
    (hrouted : Routed R dispatch name arguments) (hcap : ops.registry.lookupTool name = some cap)
    (hresult : ops.router.toolCall cap arguments =
      .ok (dispatchResult cap (serializeCallToolResult result))) :
    (∃ outcome, ops.perform R dispatch = .ok outcome ∧
      callToolOutcomeToWire outcome = serializeCallToolResult result) ∨
        ops.perform R dispatch = .error .cancelled := by
  cases hrouted with
  | direct h =>
    rw [h]
    exact Or.inl (perform_routeTool hcap hresult)
  | byCallTool metaName payload hdispatch halias hplan =>
    obtain ⟨outcome, houtcome, hwire⟩ :=
      routedOutcome_serialize (dispatchResult cap (serializeCallToolResult result)) rfl
    rw [hdispatch, perform, handleMetaTool, halias, dispatchMeta, if_neg (by decide),
      if_neg (by decide), if_pos rfl, callTool_of_route hplan hcap, hresult]
    rcases notifyPlugins_eq ops ⟨"federated", cap.serverName,
      ((splitName name).map Prod.snd).getD name, arguments, serializeCallToolResult result,
      (dispatchResult cap (serializeCallToolResult result)).success⟩ with hnotify | hnotify
    · refine Or.inl ⟨outcome, ?_, hwire⟩
      refine Eq.trans ?_ houtcome
      exact congrArg (fun r => r >>= fun _ => routedOutcome _) hnotify
    · exact Or.inr (congrArg (fun r => r >>= fun _ => routedOutcome _) hnotify)

variable {message params : Dict String Json} {sessionId : String} {dispatch : Dispatch}

theorem handleToolsCall_of_call
    (htools : MCPEndpoint.toolsCall R params = .ok (.call dispatch)) :
    MCPEndpoint.handleToolsCall R endpoint sessionId params =
      endpoint.ops.perform R dispatch >>= fun outcome => pure (callToolOutcomeToWire outcome) := by
  rw [MCPEndpoint.handleToolsCall, htools]
  rfl

/-- A call of a tool is answered by its handler. -/
theorem handleJsonrpc_toolsCall {entries : List (String × Json)}
    (hmethod : message.get? "method" = some (.str "tools/call"))
    (hparams : message.get? "params" = some (.obj entries)) (hid : field message "id" ≠ .null) :
    MCPEndpoint.handleJsonrpc R endpoint sessionId message =
      MCPEndpoint.callHandler sessionId message (field message "id") "tools/call"
        (MCPEndpoint.handleToolsCall R endpoint) (Json.toDict entries) := by
  have hfound : MCPEndpoint.findHandler R endpoint (.str "tools/call") =
      .ok (some ("tools/call", MCPEndpoint.handleToolsCall R endpoint)) := rfl
  rw [MCPEndpoint.handleJsonrpc, hmethod, hparams]
  simp only [Option.getD_some, hfound, if_neg hid]

/-- **The results that are delivered as they are**: those without structured content and without
meta fields. -/
theorem delivers_iff {response : Dict String Json}
    (hcall : FederatedCall R endpoint message cap arguments)
    (hresult : endpoint.ops.router.toolCall cap arguments =
      .ok (dispatchResult cap (serializeCallToolResult result)))
    (hresponse : MCPEndpoint.handleJsonrpc R endpoint sessionId message = .ok (some response)) :
    Delivers response result ↔ result.structuredContent = none ∧ result.metaFields = none := by
  obtain ⟨entries, dispatch, name, hparams, htools, hrouted, hcap⟩ := hcall.routed
  have hid : field message "id" ≠ .null := by
    intro hnull
    rw [MCPEndpoint.handleJsonrpc, if_pos hnull] at hresponse
    cases hresponse
  rw [handleJsonrpc_toolsCall hcall.method hparams hid, MCPEndpoint.callHandler,
    handleToolsCall_of_call htools] at hresponse
  rcases perform_routed hrouted hcap hresult with ⟨outcome, hperform, hwire⟩ | hperform
  · rw [hperform] at hresponse
    obtain rfl := Option.some.inj (Except.ok.inj hresponse)
    rw [delivers_resultResponse_iff, hwire]
    split
    · rw [carries_toModernResult_iff]
      exact carries_serialize_iff result
    · exact carries_serialize_iff result
  · rw [hperform] at hresponse
    cases hresponse

end Delivery

/-! ### From the SDK to the SDK -/

namespace Conversion

/-- A block with the fields it sets. -/
def ContentBlock.dumped : ContentBlock → Protocol.ContentBlock
  | .text s => ⟨.text, [("text", .str s)]⟩
  | .image data mimeType => ⟨.image, [("data", .str data), ("mimeType", .str mimeType)]⟩
  | .audio data mimeType => ⟨.audio, [("data", .str data), ("mimeType", .str mimeType)]⟩
  | .resourceLink uri name description mimeType =>
    ⟨.resourceLink, [("uri", .str uri), ("name", .str name)] ++
      (description.toList.map fun s => ("description", .str s)) ++
        mimeType.toList.map fun s => ("mimeType", .str s)⟩
  | .resource contents => ⟨.resource, [("resource", ofDict (resourceContentsToDict contents))]⟩

/-- A result with the fields its blocks set. -/
def CallToolResult.dumped (result : CallToolResult) : Protocol.CallToolResult where
  content := result.content.map ContentBlock.dumped
  isError := result.isError

/-- The dump of a block is what the conversion makes of it. -/
theorem modelDump_dumped (b : ContentBlock) :
    b.dumped.modelDump = ofDict (sdkContentBlockToDict b) := by
  cases b with
  | resourceLink uri name description mimeType => cases description <;> cases mimeType <;> rfl
  | _ => rfl

/-- The outcome of a routed call is the conversion of the result it began with. -/
theorem routedOutcome_dumped {result : CallToolResult} {route : RouteResult}
    (hroute : route.result = serializeCallToolResult result.dumped) :
    routedOutcome route = .ok { sdkCallToolResultToOutcome result route.serverName with
      raw := some route.result } := by
  have hdump : (result.content.map ContentBlock.dumped).map Protocol.ContentBlock.modelDump =
      result.content.map fun b => ofDict (sdkContentBlockToDict b) := by
    rw [List.map_map]
    exact List.map_congr_left fun b _ => modelDump_dumped b
  have hcontent : route.result.get? "content" =
      some (.arr (result.content.map fun b => ofDict (sdkContentBlockToDict b))) := by
    rw [hroute, get?_serialize, if_neg (by decide), if_pos rfl, CallToolResult.dumped, hdump]
  have herror : ((route.result.get? "isError").getD (.bool false)).truthy = result.isError := by
    rw [hroute, get?_serialize, if_pos rfl]
    show ((if result.isError = true then some (Json.bool true) else none).getD _).truthy = _
    cases result.isError <;> rfl
  rw [routedOutcome, hcontent, herror]
  rfl

/-- **A routed result comes back to the SDK block by block**, with no more lost of it than by the
conversion there and back. -/
theorem callToolOutcomeToSdk_routedOutcome {result : CallToolResult} {route : RouteResult}
    (hroute : route.result = serializeCallToolResult result.dumped) :
    (routedOutcome route >>= callToolOutcomeToSdk) =
      .ok ⟨result.content.map ContentBlock.bare, result.isError⟩ := by
  rw [routedOutcome_dumped hroute]
  exact callToolOutcomeToSdk_sdkCallToolResultToOutcome result route.serverName

end Conversion

/-- An endpoint in front of one tool, `a__b`, that has one result. -/
def resultEndpoint (result : CallToolResult) : MCPEndpoint where
  hasSession _ := false
  ops :=
    { router := { (oneTool "a" "b").router with
        toolCall := fun cap _ => .ok (dispatchResult cap (serializeCallToolResult result)) } }

/-- A call of it. -/
def resultCall : Dict String Json :=
  Json.toDict [("id", .int 1), ("method", .str "tools/call"),
    ("params", ofDict (callParams .empty "a__b" .empty))]

/-- Its entry in the registry. -/
def resultCap : RegisteredCapability :=
  ⟨"a", safeServerId "a", "b", namespaceDefinition (safeServerId "a") { name := "b" }⟩

theorem toolsCall_resultCall :
    MCPEndpoint.toolsCall plainFormats (callParams .empty "a__b" .empty) =
      .ok (.call (.routeTool "a__b" .empty)) := by
  have hstrip : Text.strip "a__b" = "a__b" := by decide +kernel
  have hself : resolveAlias metaToolAliases "a__b" = "a__b" :=
    resolveAlias_of_not_isAlias (by decide +kernel)
  rw [toolsCall_callParams plainFormats .empty .empty (by decide +kernel), hstrip, hself,
    if_neg (by decide +kernel)]

theorem lookupTool_resultCap (result : CallToolResult) :
    (resultEndpoint result).ops.registry.lookupTool "a__b" = some resultCap := by
  have hname : namespaceName (safeServerId "a") "b" = "a__b" := by decide +kernel
  rw [← hname]
  exact Dict.get?_set_self .empty _ _

theorem get?_resultCall : resultCall.get? "method" = some (.str "tools/call") ∧
    resultCall.get? "params" = some (ofDict (callParams .empty "a__b" .empty)) ∧
      field resultCall "id" = .int 1 := by
  refine ⟨?_, ?_, ?_⟩ <;> simp [resultCall, field, Json.toDict, Dict.get?_set]

theorem federatedCall_resultCall (result : CallToolResult) :
    FederatedCall plainFormats (resultEndpoint result) resultCall resultCap .empty where
  method := get?_resultCall.1
  routed := ⟨_, _, "a__b", get?_resultCall.2.1,
    (congrArg _ (toDict_ofDict _)).trans toolsCall_resultCall, .direct rfl,
    lookupTool_resultCap result⟩

/-- The call is answered with the dump, in an envelope or not. -/
theorem handleJsonrpc_resultCall (result : CallToolResult) :
    MCPEndpoint.handleJsonrpc plainFormats (resultEndpoint result) "" resultCall =
      .ok (some (MCPEndpoint.resultResponse (field resultCall "id")
        (if isModernRequest resultCall then
          toModernResult "tools/call" (serializeCallToolResult result)
        else serializeCallToolResult result))) := by
  obtain ⟨outcome, hperform, hwire⟩ : ∃ outcome,
      (resultEndpoint result).ops.perform plainFormats (.routeTool "a__b" .empty) = .ok outcome ∧
        callToolOutcomeToWire outcome = serializeCallToolResult result :=
    perform_routeTool (lookupTool_resultCap result) rfl
  have hid : field resultCall "id" ≠ .null := by
    rw [get?_resultCall.2.2]
    exact Json.noConfusion
  rw [handleJsonrpc_toolsCall get?_resultCall.1 get?_resultCall.2.1 hid, MCPEndpoint.callHandler,
    handleToolsCall_of_call ((congrArg _ (toDict_ofDict _)).trans toolsCall_resultCall), hperform,
    ← hwire]
  rfl

/-- A result with a text, and the mark of an error. -/
def textResult : CallToolResult where
  content := [⟨.text, [("text", .str "no such row")]⟩]
  isError := true

/-- It is delivered as it is. -/
theorem delivers_iff_text : ∃ response,
    MCPEndpoint.handleJsonrpc plainFormats (resultEndpoint textResult) "" resultCall =
        .ok (some response) ∧ Delivers response textResult :=
  ⟨_, handleJsonrpc_resultCall _, (delivers_iff (federatedCall_resultCall _) rfl
    (handleJsonrpc_resultCall _)).mpr ⟨rfl, rfl⟩⟩

/-- Structured content is lost. -/
theorem not_delivers_structured : ∃ response,
    FederatedCall plainFormats
        (resultEndpoint { content := [], structuredContent := some [("rows", .int 1)] }) resultCall
        resultCap .empty ∧
      MCPEndpoint.handleJsonrpc plainFormats
          (resultEndpoint { content := [], structuredContent := some [("rows", .int 1)] }) ""
          resultCall = .ok (some response) ∧
        ¬ Delivers response { content := [], structuredContent := some [("rows", .int 1)] } := by
  refine ⟨_, federatedCall_resultCall _, handleJsonrpc_resultCall _, ?_⟩
  rw [delivers_resultResponse_iff]
  split
  · rw [carries_toModernResult_iff, carries_serialize_iff]
    exact fun h => absurd h.1 (Option.some_ne_none _)
  · rw [carries_serialize_iff]
    exact fun h => absurd h.1 (Option.some_ne_none _)

end Protocol

end SlmMcpHub
