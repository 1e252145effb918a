import SlmMcpHub.Protocol.ProductOperations

/-!
# Results on the wire

`protocol/conversion.py`, as far as the JSON-RPC endpoint uses it: the results of the operations as
dictionaries, and the envelope of the revision 2026-07-28.
-/

namespace SlmMcpHub

namespace Protocol

/-- `_META_VERSION_KEY` -/
def metaVersionKey : String := "io.modelcontextprotocol/protocolVersion"

/-- `_CACHEABLE_METHODS` -/
def cacheableMethods : List String :=
  ["server/discover", "tools/list", "resources/list", "resources/templates/list",
    "resources/read", "prompts/list"]

/-- `dict.get(key)` -/
def field (d : Dict String Json) (key : String) : Json := (d.get? key).getD .null

/-- `dict.setdefault(key, value)` -/
def setDefault (d : Dict String Json) (key : String) (value : Json) : Dict String Json :=
  if d.contains key then d else d.set key value

/-- `is_modern_request` -/
def isModernRequest (message : Dict String Json) : Bool :=
  field message "method" = .str "server/discover" ||
    match field message "params" with
    | .obj params =>
      match field (Json.toDict params) "_meta" with
      | .obj fields => field (Json.toDict fields) metaVersionKey = .str modernVersion
      | _ => false
    | _ => false

/-- `to_modern_result` -/
def toModernResult (method : String) (result : Dict String Json) : Dict String Json :=
  let wrapped := setDefault result "resultType" (.str "complete")
  if cacheableMethods.contains method then
    setDefault (setDefault wrapped "ttlMs" (.int 0)) "cacheScope" (.str "private")
  else wrapped

/-- `tools_list_to_wire`, `resources_list_to_wire`, `resource_templates_list_to_wire` and
`prompts_list_to_wire`, by the key of the list -/
def listToWire (key : String) (outcome : ListOutcome) : Dict String Json :=
  Json.toDict [(key, .arr outcome.items)]

/-- `call_tool_outcome_to_wire` -/
def callToolOutcomeToWire (outcome : CallToolOutcome) : Dict String Json :=
  match outcome.raw with
  | some raw => raw
  | none =>
    Json.toDict (("content", .arr outcome.content) ::
      if outcome.isError then [("isError", .bool true)] else [])

/-- `resource_read_to_wire` and `prompt_get_to_wire` -/
def rawToWire (outcome : RawOutcome) : Dict String Json := outcome.raw

/-- `{"name": outcome.server_name, "version": outcome.server_version}` -/
def serverInfo (name version : String) : Json :=
  .obj [("name", .str name), ("version", .str version)]

/-- `initialize_to_wire` -/
def initializeToWire (outcome : InitializeOutcome) : Dict String Json :=
  Json.toDict [("protocolVersion", .str outcome.protocolVersion),
    ("capabilities", .obj outcome.capabilities),
    ("serverInfo", serverInfo outcome.serverName outcome.serverVersion)]

/-- `discover_to_wire` -/
def discoverToWire (outcome : DiscoverOutcome) : Dict String Json :=
  Json.toDict [("supportedVersions", .arr (outcome.supportedVersions.map .str)),
    ("capabilities", .obj outcome.capabilities),
    ("serverInfo", serverInfo outcome.serverName outcome.serverVersion),
    ("instructions", .str outcome.instructions)]

/-! ### The envelope -/

theorem get?_setDefault (d : Dict String Json) (key key' : String) (value : Json) :
    (setDefault d key value).get? key' =
      if key' = key then some ((d.get? key).getD value) else d.get? key' := by
  rw [setDefault, Dict.contains]
  by_cases hkey : key' = key
  · subst hkey
    cases hget : d.get? key' <;> simp [hget]
  · rw [if_neg hkey]
    split
    · rfl
    · exact Dict.get?_set_of_ne (Ne.symm hkey)

/-- The envelope adds entries of its own and leaves the others alone. -/
theorem get?_toModernResult (method : String) (result : Dict String Json) {key : String}
    (hkey : key ∉ ["resultType", "ttlMs", "cacheScope"]) :
    (toModernResult method result).get? key = result.get? key := by
  simp only [List.mem_cons, List.not_mem_nil, or_false, not_or] at hkey
  obtain ⟨hresult, httl, hscope⟩ := hkey
  rw [toModernResult]
  split <;> simp [get?_setDefault, hresult, httl, hscope]

end Protocol

end SlmMcpHub
