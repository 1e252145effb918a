import SlmMcpHub.Server.McpEndpoint

/-!
# The two inbound transports

`protocol/inbound.py`: how the server of the SDK dispatches a call of a tool, beside the JSON-RPC
endpoint. The tables of the meta-tools are the same; the endpoint strips the name first, and takes
whatever begins with `hub__` for a meta-tool.

## Main results

* `toolsCall_eq_onCallTool_iff` — the names the two dispatch alike
-/

namespace SlmMcpHub

namespace Protocol

namespace Inbound

/-- `_META_TOOL_ALIASES` -/
def metaToolAliases : Dict String String :=
  Dict.empty.setAll [("hub__search_tools", "search_tools"), ("hub__call_tool", "call_tool"),
    ("hub__list_servers", "list_servers")]

/-- `_META_TOOL_NAMES` -/
def metaToolNames : List String := ["search_tools", "call_tool", "list_servers"]

/-- The call `on_call_tool` makes. -/
def onCallTool (name : String) (arguments : Option (Dict String Json)) : Dispatch :=
  let arguments := arguments.getD .empty
  let resolved := resolveAlias metaToolAliases name
  if resolved ∈ metaToolNames then .handleMetaTool resolved arguments
  else .routeTool name arguments

end Inbound

open Inbound (onCallTool)

/-- The parameters of a call of a tool, with whatever else they hold. -/
def callParams (params : Dict String Json) (name : String) (arguments : Dict String Json) :
    Dict String Json :=
  (params.set "name" (.str name)).set "arguments" (ofDict arguments)

/-- The name begins as those of the hub do. -/
def HasHubPrefix (name : String) : Prop := "hub__".toList.isPrefixOf name.toList

instance (name : String) : Decidable (HasHubPrefix name) := inferInstanceAs (Decidable (_ = true))

/-- The table of the server of the SDK is that of the operations. -/
theorem onCallTool_eq (name : String) (arguments : Dict String Json) :
    onCallTool name (some arguments) =
      if resolveAlias metaToolAliases name ∈ metaTools then
        .handleMetaTool (resolveAlias metaToolAliases name) arguments
      else .routeTool name arguments := rfl

theorem strip_of_mem {name : String} (h : name ∈ metaTools ∨ IsAlias name) :
    Text.strip name = name := by
  simp only [IsAlias, metaTools, List.mem_cons, List.not_mem_nil, or_false] at h
  rcases h with (rfl | rfl | rfl) | rfl | rfl | rfl <;> decide +kernel

theorem not_hasHubPrefix_of_mem {name : String} (h : name ∈ metaTools) :
    ¬ HasHubPrefix name := by
  simp only [metaTools, List.mem_cons, List.not_mem_nil, or_false] at h
  rcases h with rfl | rfl | rfl <;> decide +kernel

/-- The call the endpoint makes for a name that is not blank. -/
theorem toolsCall_callParams (R : Formats) (params arguments : Dict String Json) {name : String}
    (hname : Text.strip name ≠ "") :
    MCPEndpoint.toolsCall R (callParams params name arguments) =
      .ok (.call (if HasHubPrefix (resolveAlias metaToolAliases (Text.strip name)) ∨
          resolveAlias metaToolAliases (Text.strip name) ∈ metaTools then
        .handleMetaTool (resolveAlias metaToolAliases (Text.strip name)) arguments
      else .routeTool (resolveAlias metaToolAliases (Text.strip name)) arguments)) := by
  have hget : (callParams params name arguments).get? "name" = some (.str name) := by
    simp [callParams, Dict.get?_set]
  have hfield : field (callParams params name arguments) "arguments" = ofDict arguments := by
    simp [callParams, field]
  rw [MCPEndpoint.toolsCall, hget, hfield]
  simp only [Option.getD_some, if_neg hname, coerceObject, ofDict, asObject, toDict_ofDict]
  by_cases hmeta : HasHubPrefix (resolveAlias metaToolAliases (Text.strip name)) ∨
      resolveAlias metaToolAliases (Text.strip name) ∈ metaTools
  · rw [if_pos hmeta]
    exact if_pos hmeta
  · rw [if_neg hmeta]
    exact if_neg hmeta

/-- **The names the two transports dispatch alike**: those with no white space around them that are
aliases of the meta-tools or do not begin as the names of the hub do. -/
theorem toolsCall_eq_onCallTool_iff (R : Formats) (params arguments : Dict String Json)
    {name : String} (hname : Text.isBlank name = false) :
    MCPEndpoint.toolsCall R (callParams params name arguments) =
        .ok (.call (onCallTool name (some arguments))) ↔
      Text.strip name = name ∧ (IsAlias name ∨ ¬ HasHubPrefix name) := by
  have hstrip : Text.strip name ≠ "" := by simpa [Text.isBlank] using hname
  rw [toolsCall_callParams R params arguments hstrip, Except.ok.injEq,
    MCPEndpoint.ToolsCall.call.injEq, onCallTool_eq]
  constructor
  · intro h
    by_cases hmeta : resolveAlias metaToolAliases name ∈ metaTools
    · -- A name that stands for a meta-tool has no white space around it.
      have hmem : name ∈ metaTools ∨ IsAlias name := by
        by_cases halias : IsAlias name
        · exact Or.inr halias
        · rw [resolveAlias_of_not_isAlias halias] at hmeta
          exact Or.inl hmeta
      exact ⟨strip_of_mem hmem, hmem.symm.imp_right not_hasHubPrefix_of_mem⟩
    · rw [if_neg hmeta] at h
      split at h
      · cases h
      · rename_i hrouted
        obtain ⟨hhub, hother⟩ := not_or.mp hrouted
        have halias : ¬ IsAlias (Text.strip name) := fun halias => hother (resolveAlias_mem halias)
        rw [resolveAlias_of_not_isAlias halias] at h hhub
        have hsame : Text.strip name = name := by
          injection h
        exact ⟨hsame, Or.inr (hsame ▸ hhub)⟩
  · rintro ⟨hsame, hor⟩
    rw [hsame]
    by_cases halias : IsAlias name
    · have hmeta := resolveAlias_mem halias
      rw [if_pos (Or.inr hmeta), if_pos hmeta]
    · have hhub := hor.resolve_left halias
      rw [resolveAlias_of_not_isAlias halias]
      simp only [hhub, false_or]

theorem toolsCall_eq_onCallTool_iff_search :
    MCPEndpoint.toolsCall plainFormats (callParams .empty "search_tools" .empty) =
        .ok (.call (onCallTool "search_tools" (some .empty))) ↔
      Text.strip "search_tools" = "search_tools" ∧
        (IsAlias "search_tools" ∨ ¬ HasHubPrefix "search_tools") :=
  toolsCall_eq_onCallTool_iff plainFormats .empty .empty (by decide +kernel)

/-- A tool of a backend called `hub` is a meta-tool for the endpoint, and a routed one for the
server of the SDK. -/
theorem toolsCall_ne_onCallTool_hub :
    Text.isBlank "hub__status" = false ∧
      MCPEndpoint.toolsCall plainFormats (callParams .empty "hub__status" .empty) ≠
        .ok (.call (onCallTool "hub__status" (some .empty))) := by
  have hself : resolveAlias metaToolAliases "hub__status" = "hub__status" :=
    resolveAlias_of_not_isAlias (by decide +kernel)
  have hstrip : Text.strip "hub__status" = "hub__status" := by decide +kernel
  have hother : "hub__status" ∉ metaTools := by decide +kernel
  refine ⟨by decide +kernel, ?_⟩
  rw [toolsCall_callParams plainFormats .empty .empty (by decide +kernel), hstrip, hself,
    if_pos (Or.inl (by decide +kernel)), onCallTool_eq, hself, if_neg hother]
  intro h
  injection h with h
  injection h with h
  cases h

end Protocol

end SlmMcpHub
