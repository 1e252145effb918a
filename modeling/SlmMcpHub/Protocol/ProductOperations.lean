import Mathlib.Data.List.Infix
import SlmMcpHub.Protocol.Models

/-!
# The operations of the hub

`protocol/product_operations.py`: what the endpoints of both transports call. A call of a tool is
decided first and performed then: `callPlan` says what `call_tool` does with a payload, and
`Dispatch` is a call of one of the two operations the endpoints use for a tool.

## Main definitions

* `coerceObject`, `normaliseToolArguments`, `reconstructDottedArguments` — the repair of arguments
* `HubProductOperations`, with `searchTools`, `listServers`, `callTool`, `routeTool`
* `Dispatch`, `HubProductOperations.perform`
-/

namespace SlmMcpHub

namespace Protocol

/-- `_MODERN_VERSION` -/
def modernVersion : String := "2026-07-28"

/-- `_LEGACY_VERSIONS`, newest first -/
def legacyVersions : List String := ["2025-11-25", "2025-06-18", "2025-03-26", "2024-11-05"]

/-- `VERSION` -/
def version : String := "0.3.4"

/-- `_RESERVED_META_KEYS` -/
def reservedMetaKeys : List String := ["tool", "arguments"]

/-- `_FLAT_ARG_PREFIX` -/
def flatArgPrefix : String := "arguments."

/-- `HubProductOperations._META_TOOL_ALIASES` -/
def metaToolAliases : Dict String String :=
  Dict.empty.setAll [("hub__search_tools", "search_tools"), ("hub__call_tool", "call_tool"),
    ("hub__list_servers", "list_servers")]

/-- `aliases.get(name, name)` -/
def resolveAlias (aliases : Dict String String) (name : String) : String :=
  (aliases.get? name).getD name

/-! ### The repair of arguments -/

/-- What a value that may be an object is taken for. -/
def asObject : Json → Except String (Dict String Json)
  | .null => .ok .empty
  | .obj entries => .ok (Json.toDict entries)
  | value => .error s!"expected an object, got {value.typeName}"

/-- `_coerce_object` -/
def coerceObject (R : Formats) : Json → Except String (Dict String Json)
  | .str s =>
    let text := Text.strip s
    if text = "" then
      .ok .empty
    else
      match R.loads text with
      | .ok value => asObject value
      | .error exc => .error s!"it is a string but not valid JSON ({exc})"
  | value => asObject value

/-- A dictionary without some of its keys. -/
def without (d : Dict String Json) (drop : String → Bool) : Dict String Json :=
  Dict.empty.setAll (d.entries.filter fun e => !drop e.1)

/-- `_normalise_tool_arguments` -/
def normaliseToolArguments (R : Formats) (payload : Dict String Json) :
    Except String (Dict String Json) :=
  match payload.get? "arguments" with
  | some value =>
    match coerceObject R value with
    | .ok nested => .ok nested
    | .error error => .error s!"'arguments' is invalid: {error}"
  | none => .ok (without payload (reservedMetaKeys.contains ·))

/-- Put a value at the end of a path of keys, unless something is in its way. Objects the path
lacks are made, and where one is made nothing further can be in the way. -/
def place (root : Dict String Json) : List String → Json → Option (Dict String Json)
  | [], _ => none
  | [leaf], value => if root.contains leaf then none else some (root.set leaf value)
  | segment :: segments, value =>
    match root.get? segment with
    | none => (place .empty segments value).map fun d => root.set segment (ofDict d)
    | some (.obj entries) =>
      (place (Json.toDict entries) segments value).map fun d => root.set segment (ofDict d)
    | some _ => none

/-- What the loop over the dotted keys accumulates. -/
structure Rebuilding where
  rebuilt : Dict String Json
  repaired : List String := []
  skipped : List String := []

/-- One turn of the loop over the dotted keys. -/
def repairKey (payload : Dict String Json) (st : Rebuilding) (key : String) : Rebuilding :=
  let segments := ((key.drop flatArgPrefix.length).toString).splitOn "."
  if segments.contains "" then
    { st with skipped := st.skipped ++ [key] }
  else
    match place st.rebuilt segments ((payload.get? key).getD .null) with
    | none => { st with skipped := st.skipped ++ [key] }
    | some rebuilt => { st with rebuilt := rebuilt, repaired := st.repaired ++ [key] }

/-- The keys of a payload that are dotted, in order. -/
def dottedKeys (payload : Dict String Json) : List String :=
  (payload.keys.filter fun k => flatArgPrefix.toList.isPrefixOf k.toList).mergeSort (· ≤ ·)

/-- The loop over the dotted keys, and what is made of its result. -/
def rebuildArguments (payload stripped existing : Dict String Json) (dotted : List String) :
    Dict String Json :=
  let st := dotted.foldl (repairKey payload) { rebuilt := existing }
  if payload.contains "arguments" then
    stripped.set "arguments" (ofDict st.rebuilt)
  else if st.repaired = [] then
    stripped
  else
    -- The other keys of the payload are arguments too.
    let others := without stripped (reservedMetaKeys.contains ·)
    let rebuilt := others.entries.foldl (fun d e => if d.contains e.1 then d else d.set e.1 e.2)
      st.rebuilt
    (without stripped fun k => !reservedMetaKeys.contains k).set "arguments" (ofDict rebuilt)

/-- `_reconstruct_dotted_arguments`, without the keys it reports for the log. -/
def reconstructDottedArguments (payload : Dict String Json) : Dict String Json :=
  let dotted := dottedKeys payload
  if dotted = [] then
    payload
  else
    let stripped := without payload fun k => flatArgPrefix.toList.isPrefixOf k.toList
    match payload.get? "arguments" with
    | none | some .null => rebuildArguments payload stripped .empty dotted
    | some (.obj entries) => rebuildArguments payload stripped (Json.toDict entries) dotted
    | some _ => stripped

/-! ### The operations -/

/-- `HubProductOperations`: `router` holds the registry, and `hub` tells the plugins of a call. -/
structure HubProductOperations where
  router : Router
  hub : Option (PluginCall → Result Unit) := none

/-- The capabilities the hub advertises. -/
def advertisedCapabilities : List (String × Json) :=
  [("tools", .obj [("listChanged", .bool true)]), ("resources", .obj [("listChanged", .bool true)]),
    ("prompts", .obj [("listChanged", .bool true)])]

/-- What a name is made of, split at the first delimiter: `name.split("__", 1)`. -/
def splitDelimiter : List Char → Option (List Char × List Char)
  | [] => none
  | c :: cs =>
    if c = '_' ∧ cs.head? = some '_' then some ([], cs.tail)
    else (splitDelimiter cs).map fun p => (c :: p.1, p.2)

/-- The server id and the short name a name begins with, if it has a delimiter. -/
def splitName (name : String) : Option (String × String) :=
  (splitDelimiter name.toList).map fun p => (String.ofList p.1, String.ofList p.2)

/-- A hub-generated error. -/
def hubError (text : String) : CallToolOutcome := ⟨[textBlock text], true, "hub", none⟩

/-- A hub-generated result: one block of JSON text. -/
def hubReport (R : Formats) (value : Json) : CallToolOutcome :=
  ⟨[textBlock (R.dumps value)], false, "hub", none⟩

/-- An entry of a definition: `definition.get(key)`. -/
def definitionField (d : Definition) (key : String) : Json :=
  ((Json.toDict d.fields).get? key).getD .null

/-- What an iteration over a value runs through. -/
def elements : Json → Result (List Json)
  | .arr l => .ok l
  | .str s => .ok (s.toList.map fun c => .str (String.singleton c))
  | .obj entries => .ok ((Json.toDict entries).keys.map .str)
  | _ => .error (.exception "TypeError")

/-- `_SEARCH_SCHEMA` -/
def searchSchema : Json :=
  .obj [("type", .str "object"),
    ("properties", .obj [("query", .obj [("type", .str "string"),
      ("description", .str "Search keyword — matches tool names and descriptions")])]),
    ("required", .arr [.str "query"])]

/-- `_CALL_TOOL_SCHEMA` -/
def callToolSchema : Json :=
  .obj [("type", .str "object"),
    ("properties", .obj [
      ("tool", .obj [("type", .str "string"), ("description",
        .str "Full tool name from search_tools results (e.g., 'context7__query-docs')")]),
      ("arguments", .obj [("type", .str "object"), ("description",
        .str "Arguments to pass to the tool — see inputSchema from search_tools"),
        ("additionalProperties", .bool true)])]),
    ("required", .arr [.str "tool"])]

/-- `_LIST_SERVERS_SCHEMA` -/
def listServersSchema : Json := .obj [("type", .str "object"), ("properties", .obj [])]

namespace HubProductOperations

/-- `self._registry` -/
def registry (ops : HubProductOperations) : Registry := ops.router.registry

/-- `registry.list_tools()` and its siblings -/
def definitions (table : Dict String RegisteredCapability) : List Definition :=
  table.values.map (·.definition)

/-- A definition as a value, under the key that identifies it. -/
def definitionValue (key : String) (d : Definition) : Json := .obj ((key, .str d.name) :: d.fields)

/-- `discover` -/
def discover : DiscoverOutcome where
  supportedVersions := modernVersion :: legacyVersions
  capabilities := advertisedCapabilities
  serverName := "slm-mcp-hub"
  serverVersion := version
  instructions := "Use search_tools to discover federated tools, then call_tool " ++
    "with the full namespaced tool name."

/-- `negotiate`: what the client says of itself has to be an object, if it says anything. -/
def negotiate (requestedVersion clientInfo : Json) : Result InitializeOutcome :=
  match clientInfo.truthy, clientInfo with
  | true, .obj _ | false, _ => .ok {
      protocolVersion := match requestedVersion with
        | .str v => if v ∈ legacyVersions then v else legacyVersions.headD ""
        | _ => legacyVersions.headD ""
      capabilities := advertisedCapabilities
      serverName := "slm-mcp-hub"
      serverVersion := version }
  | true, _ => .error (.exception "AttributeError")

/-- The number of servers the published tools are of. -/
def serverCount (r : Registry) : ℕ :=
  ((definitions r.tools).filterMap fun d => (splitName d.name).map Prod.fst).dedup.length

/-- A definition of a meta-tool. -/
def metaTool (name description : String) (inputSchema : Json) : Json :=
  .obj [("name", .str name), ("description", .str description), ("inputSchema", inputSchema)]

/-- `list_tools` -/
def listTools (ops : HubProductOperations) : ListOutcome where
  items := [
    metaTool "search_tools" (s!"Search across {ops.registry.tools.size} tools from " ++
      s!"{serverCount ops.registry} MCP servers. " ++
      "Returns matching tool names, descriptions, server name, and full input schema. " ++
      "Use this to find the right tool before calling it with call_tool. " ++
      "Example queries: 'github search', 'generate image', 'database query', 'memory recall'.")
      searchSchema,
    metaTool "call_tool" ("Call any tool from any connected MCP server. " ++
      "First use search_tools to find the tool name and its parameters, " ++
      "then call it here. The tool name must be the full namespaced name " ++
      "from the search results (e.g., 'github__search_repositories').") callToolSchema,
    metaTool "list_servers" (s!"List all {serverCount ops.registry} connected MCP servers with " ++
      "their tool counts. Use to understand what's available before searching.")
      listServersSchema]

/-! #### Search -/

/-- The description of a tool, or nothing. -/
def descriptionOf (d : Definition) : Result String :=
  match definitionField d "description" with
  | .str s => .ok s
  | value => if value.truthy then .error (.exception "AttributeError") else .ok ""

/-- `name.replace('__', ' ').replace('_', ' ')` -/
def spaced : List Char → List Char
  | [] => []
  | [c] => [if c = '_' then ' ' else c]
  | c :: c' :: cs =>
    if c = '_' ∧ c' = '_' then ' ' :: spaced cs
    else (if c = '_' then ' ' else c) :: spaced (c' :: cs)

/-- The text a search looks for the words of a query in. -/
def searchable (R : Formats) (d : Definition) : Result String := do
  let name := R.lower d.name
  let desc := R.lower (← descriptionOf d)
  pure s!"{name} {desc} {String.ofList (spaced name.toList)}"

/-- Whether a tool matches a query. -/
def matchesQuery (R : Formats) (words : List String) (d : Definition) : Result Bool := do
  let text ← searchable R d
  pure (words.all fun word => decide (word.toList <:+: text.toList))

/-- The tools that match, in the order of the registry. -/
def matching (R : Formats) (words : List String) : List Definition → Result (List Definition)
  | [] => .ok []
  | d :: ds => do
    let found ← matchesQuery R words d
    let rest ← matching R words ds
    pure (if found then d :: rest else rest)

/-- The entry of a tool in a result of a search. -/
def searchEntry (d : Definition) : Json :=
  let description := definitionField d "description"
  let inputSchema := definitionField d "inputSchema"
  .obj [("tool", .str d.name),
    ("server", .str (((splitName d.name).map Prod.fst).getD "unknown")),
    ("description", if description.truthy then description else .str ""),
    ("inputSchema", if inputSchema.truthy then inputSchema else .obj [])]

/-- The text of the query, or what is said of one that is no text. -/
def queryText (R : Formats) (arguments : Dict String Json) : Except String String :=
  match (arguments.get? "query").getD .null with
  | .null => .ok (R.lower "")
  | .str query => .ok (R.lower query)
  | query => .error s!"Error: 'query' must be a string, got {query.typeName}."

/-- The result of a search: at most thirty of the tools that match. -/
def searchReport (query : String) (found : List Definition) : Json :=
  .obj [("found", .int found.length), ("query", .str query),
    ("tools", .arr ((found.take 30).map searchEntry))]

/-- `search_tools` -/
def searchTools (R : Formats) (ops : HubProductOperations) (arguments : Dict String Json) :
    Result CallToolOutcome :=
  match queryText R arguments with
  | .error message => .ok (hubError message)
  | .ok query => do
    let found ← matching R (Text.split query) (definitions ops.registry.tools)
    pure (hubReport R (searchReport query found))

/-- `list_servers` -/
def listServers (R : Formats) (ops : HubProductOperations) : CallToolOutcome :=
  let serverTools : Dict String (List String) :=
    (definitions ops.registry.tools).foldl (fun m d => match splitName d.name with
      | none => m
      | some (server, tool) => m.set server ((m.get? server).getD [] ++ [tool])) .empty
  let servers := (serverTools.entries.mergeSort fun a b => a.1 ≤ b.1).map fun e =>
    Json.obj [("server", .str e.1), ("tools", .int e.2.length),
      ("tool_names", .arr ((e.2.mergeSort (· ≤ ·)).map .str))]
  hubReport R (.obj [("server_count", .int servers.length), ("servers", .arr servers)])

/-! #### Calls -/

/-- What is made of the result of a routed call. -/
def routedOutcome (result : RouteResult) : Result CallToolOutcome := do
  let content ← elements ((result.result.get? "content").getD (.arr []))
  pure ⟨content, ((result.result.get? "isError").getD (.bool false)).truthy, result.serverName,
    some result.result⟩

/-- Tell the plugins; what they raise is logged. -/
def notifyPlugins (ops : HubProductOperations) (call : PluginCall) : Result Unit :=
  match ops.hub with
  | none => .ok ()
  | some notify =>
    match notify call with
    | .error e => if e.isException then .ok () else .error e
    | .ok () => .ok ()

/-- `_route_tool` -/
def routeToolNotifying (ops : HubProductOperations) (name : String) (arguments : Dict String Json)
    (notify : Bool) : Result CallToolOutcome := do
  let result ← ops.router.routeToolCall name arguments
  if notify then
    ops.notifyPlugins ⟨"federated", result.serverName, ((splitName name).map Prod.snd).getD name,
      arguments, result.result, result.success⟩
  routedOutcome result

/-- `route_tool` -/
def routeTool (ops : HubProductOperations) (name : String) (arguments : Dict String Json) :
    Result CallToolOutcome :=
  ops.routeToolNotifying name arguments false

/-- What `call_tool` does with a payload. -/
inductive CallPlan where
  | reject (outcome : CallToolOutcome)
  | search (arguments : Dict String Json)
  | listServers
  | route (name : String) (arguments : Dict String Json)

/-- The first part of `call_tool`. -/
def callPlan (R : Formats) (payload : Dict String Json) : CallPlan :=
  let payload := reconstructDottedArguments payload
  let missing (got : String) : CallPlan := .reject (hubError
    (s!"Error: 'tool' parameter is required and must be a non-empty string ({got}). " ++
      "Use search_tools to find tool names."))
  match payload.get? "tool" with
  | none | some .null => missing "missing"
  | some (.str tool) =>
    let toolName := Text.strip tool
    if toolName = "" then
      missing "got str"
    else
      match normaliseToolArguments R payload with
      | .error argError => .reject (hubError s!"Error calling '{toolName}': {argError}")
      | .ok toolArgs =>
        let resolved := resolveAlias metaToolAliases toolName
        if resolved = "call_tool" then
          .reject (hubError ("Error: call_tool cannot invoke itself. Set 'tool' to the " ++
            "name of the tool you want to run."))
        else if resolved = "search_tools" then
          .search toolArgs
        else if resolved = "list_servers" then
          .listServers
        else
          .route toolName toolArgs
  | some value => missing s!"got {value.typeName}"

/-- `call_tool` -/
def callTool (R : Formats) (ops : HubProductOperations) (payload : Dict String Json) :
    Result CallToolOutcome :=
  match callPlan R payload with
  | .reject outcome => .ok outcome
  | .search arguments => ops.searchTools R arguments
  | .listServers => .ok (ops.listServers R)
  | .route name arguments => ops.routeToolNotifying name arguments true

/-- `_dispatch_meta` -/
def dispatchMeta (R : Formats) (ops : HubProductOperations) (name : String)
    (arguments : Dict String Json) : Result CallToolOutcome :=
  if name = "search_tools" then
    ops.searchTools R arguments
  else if name = "list_servers" then
    .ok (ops.listServers R)
  else if name = "call_tool" then
    ops.callTool R arguments
  else
    .ok (hubError s!"Unknown meta-tool: {name}")

/-- `handle_meta_tool` -/
def handleMetaTool (R : Formats) (ops : HubProductOperations) (name : String)
    (arguments : Dict String Json) : Result CallToolOutcome :=
  ops.dispatchMeta R (resolveAlias metaToolAliases name) arguments

/-! #### Resources and prompts -/

/-- `list_resources` -/
def listResources (ops : HubProductOperations) : ListOutcome :=
  ⟨(definitions ops.registry.resources).map (definitionValue "uri")⟩

/-- `list_resource_templates` -/
def listResourceTemplates (ops : HubProductOperations) : ListOutcome :=
  ⟨(definitions ops.registry.resourceTemplates).map (definitionValue "uriTemplate")⟩

/-- `list_prompts` -/
def listPrompts (ops : HubProductOperations) : ListOutcome :=
  ⟨(definitions ops.registry.prompts).map (definitionValue "name")⟩

/-- `read_resource` -/
def readResource (ops : HubProductOperations) (uri : Json) : Result RawOutcome := do
  pure ⟨(← ops.router.routeResourceRead uri).result⟩

/-- `get_prompt` -/
def getPrompt (ops : HubProductOperations) (name arguments : Json) : Result RawOutcome := do
  pure ⟨(← ops.router.routePromptGet name arguments).result⟩

end HubProductOperations

/-! ### Calls of a tool -/

/-- A call of an operation of the hub, by an endpoint that has been asked for a tool. -/
inductive Dispatch where
  /-- `ops.handle_meta_tool(name, arguments)` -/
  | handleMetaTool (name : String) (arguments : Dict String Json)
  /-- `ops.route_tool(name, arguments)` -/
  | routeTool (name : String) (arguments : Dict String Json)

/-- Make the call. -/
def HubProductOperations.perform (R : Formats) (ops : HubProductOperations) :
    Dispatch → Result CallToolOutcome
  | .handleMetaTool name arguments => ops.handleMetaTool R name arguments
  | .routeTool name arguments => ops.routeTool name arguments

/-! ### The names of the meta-tools -/

/-- The names `_dispatch_meta` knows. -/
def metaTools : List String := ["search_tools", "call_tool", "list_servers"]

/-- The name is one of the aliases of the meta-tools. -/
def IsAlias (name : String) : Prop :=
  name ∈ ["hub__search_tools", "hub__call_tool", "hub__list_servers"]

instance (name : String) : Decidable (IsAlias name) := inferInstanceAs (Decidable (_ ∈ _))

theorem resolveAlias_of_not_isAlias {name : String} (h : ¬ IsAlias name) :
    resolveAlias metaToolAliases name = name := by
  simp only [IsAlias, List.mem_cons, List.not_mem_nil, or_false, not_or] at h
  obtain ⟨hsearch, hcall, hlist⟩ := h
  have hnone : metaToolAliases.get? name = none := by
    rw [metaToolAliases, Dict.get?_setAll, Dict.get?_empty, Option.or_none]
    exact Dict.lastOf_eq_none_iff.mpr (by simp [hsearch, hcall, hlist])
  rw [resolveAlias, hnone]
  rfl

/-- An alias stands for a meta-tool. -/
theorem resolveAlias_mem {name : String} (h : IsAlias name) :
    resolveAlias metaToolAliases name ∈ metaTools := by
  simp only [IsAlias, List.mem_cons, List.not_mem_nil, or_false] at h
  rcases h with rfl | rfl | rfl <;> decide +kernel

end Protocol

end SlmMcpHub
