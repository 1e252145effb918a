import SlmMcpHub.Protocol.ProductOperations

/-!
# From a search to a call

A tool that `search_tools` lists is to be run by `call_tool` under the name it is listed with. On
the way the name is stripped, and looked up among the aliases of the meta-tools; the registry has
neither in mind when it makes up a name.

## Main definitions

* `Lists`, `Runs`

## Main results

* `runs_iff` — the listed tools that can be run
-/

namespace SlmMcpHub

namespace Protocol

open HubProductOperations Registry

/-- The operations when the registry has been synchronised with some servers. -/
def HubProductOperations.synced (ops : HubProductOperations) (servers : Dict String Capabilities) :
    HubProductOperations :=
  { ops with router := { ops.router with registry := (ops.registry.sync servers).1 } }

/-- `search_tools` lists a tool under a name. -/
def Lists (R : Formats) (ops : HubProductOperations) (arguments : Dict String Json)
    (name : String) : Prop :=
  ∃ query found, ops.searchTools R arguments = .ok (hubReport R (searchReport query found)) ∧
    queryText R arguments = .ok query ∧
    matching R (Text.split query) (definitions ops.registry.tools) = .ok found ∧
    name ∈ (found.take 30).map (·.name)

/-- The payload of `call_tool` for a tool and an object of arguments. -/
def callPayload (name : String) (arguments : Dict String Json) : Dict String Json :=
  (Dict.empty.set "tool" (.str name)).set "arguments" (ofDict arguments)

/-- `call_tool` routes a call to the entry of exactly this name, whatever the arguments are, with
exactly these. -/
def Runs (R : Formats) (ops : HubProductOperations) (name : String) : Prop :=
  ∃ cap, ops.registry.lookupTool name = some cap ∧ cap.definition.name = name ∧
    ∀ arguments, callPlan R (callPayload name arguments) = .route name arguments

/-- A call that is routed is one of the router for the entry. -/
theorem callTool_of_route {R : Formats} {ops : HubProductOperations} {payload : Dict String Json}
    {name : String} {arguments : Dict String Json} {cap : RegisteredCapability}
    (hplan : callPlan R payload = .route name arguments)
    (hcap : ops.registry.lookupTool name = some cap) :
    ops.callTool R payload = (do
      let result ← ops.router.toolCall cap arguments
      ops.notifyPlugins ⟨"federated", result.serverName,
        ((splitName name).map Prod.snd).getD name, arguments, result.result, result.success⟩
      routedOutcome result) := by
  have hrouted : ops.router.routeToolCall name arguments = ops.router.toolCall cap arguments := by
    rw [Router.routeToolCall, show ops.router.registry.lookupTool name = some cap from hcap]
  rw [callTool, hplan]
  simp only [routeToolNotifying, hrouted, if_true]

/-! ### What a search lists -/

theorem mem_of_matching {R : Formats} {words : List String} {d : Definition} :
    ∀ {l found}, matching R words l = .ok found → d ∈ found → d ∈ l := by
  intro l
  induction l with
  | nil =>
    rintro found ⟨⟩ hd
    exact hd
  | cons e l ih =>
    intro found h hd
    cases hmatch : matchesQuery R words e with
    | error exc => simp [matching, hmatch, bind, Except.bind] at h
    | ok isMatch =>
      cases hrest : matching R words l with
      | error exc => simp [matching, hmatch, hrest, bind, Except.bind] at h
      | ok rest =>
        simp only [matching, hmatch, hrest, bind, Except.bind, pure, Except.pure,
          Except.ok.injEq] at h
        have hmem : d = e ∨ d ∈ rest := by
          rw [← h] at hd
          split at hd
          · exact List.mem_cons.mp hd
          · exact Or.inr hd
        rcases hmem with rfl | hmem
        · exact List.mem_cons_self
        · exact List.mem_cons_of_mem e (ih hrest hmem)

/-- A listed tool is in the registry, under the name it is listed with. -/
theorem exists_cap_of_lists {R : Formats} {ops : HubProductOperations}
    {servers : Dict String Capabilities} {arguments : Dict String Json} {name : String}
    (h : Lists R (ops.synced servers) arguments name) :
    ∃ cap, (ops.synced servers).registry.lookupTool name = some cap ∧
      cap.definition.name = name ∧ ∃ serverId originalName,
        name = namespaceName serverId originalName := by
  obtain ⟨query, found, -, -, hfound, hname⟩ := h
  obtain ⟨d, hd, rfl⟩ := List.mem_map.mp hname
  obtain ⟨cap, hcap, rfl⟩ := List.mem_map.mp (mem_of_matching hfound (List.mem_of_mem_take hd))
  obtain ⟨key, hget⟩ := Dict.mem_values_iff.mp hcap
  have hlast : Dict.lastOf (published .tool servers) key = some cap :=
    (get?_table_sync ops.registry servers .tool key).symm.trans hget
  obtain ⟨p, -, d, -, hentry⟩ := mem_published.mp (Dict.lastOf_mem hlast)
  obtain ⟨rfl, rfl⟩ := Prod.mk.inj hentry
  exact ⟨_, hget, rfl, p.serverId, d.name, rfl⟩

/-! ### What a call makes of a name -/

theorem callPlan_callPayload (R : Formats) (arguments : Dict String Json) {name : String}
    (hname : Text.strip name ≠ "") :
    callPlan R (callPayload name arguments) =
      if resolveAlias metaToolAliases (Text.strip name) = "call_tool" then
        .reject (hubError ("Error: call_tool cannot invoke itself. Set 'tool' to the " ++
          "name of the tool you want to run."))
      else if resolveAlias metaToolAliases (Text.strip name) = "search_tools" then
        .search arguments
      else if resolveAlias metaToolAliases (Text.strip name) = "list_servers" then
        .listServers
      else .route (Text.strip name) arguments := by
  have hdotted : dottedKeys (callPayload name arguments) = [] := by
    have hkeys : (callPayload name arguments).keys = ["tool", "arguments"] := rfl
    rw [dottedKeys, hkeys]
    decide +kernel
  have hpayload : reconstructDottedArguments (callPayload name arguments) =
      callPayload name arguments := by
    rw [reconstructDottedArguments, hdotted]
    rfl
  have htool : (callPayload name arguments).get? "tool" = some (.str name) := by
    simp [callPayload, Dict.get?_set]
  have harguments : normaliseToolArguments R (callPayload name arguments) = .ok arguments := by
    have hget : (callPayload name arguments).get? "arguments" = some (ofDict arguments) := by
      simp [callPayload]
    rw [normaliseToolArguments, hget]
    simp only [ofDict, coerceObject, asObject, toDict_ofDict]
  simp only [callPlan, hpayload, htool, if_neg hname, harguments]

theorem strip_namespaceName (serverId originalName : String) :
    Text.strip (namespaceName serverId originalName) ≠ "" := by
  intro h
  have hspace := Text.strip_eq_empty_iff.mp h '_' (by simp [namespaceName, namespaceDelimiter])
  exact absurd hspace (by decide)

/-- No published name is that of a meta-tool. -/
theorem namespaceName_not_mem_metaTools (serverId originalName : String) :
    namespaceName serverId originalName ∉ metaTools := by
  have hinfix : ['_', '_'] <:+: (namespaceName serverId originalName).toList := by
    refine ⟨serverId.toList, originalName.toList, ?_⟩
    simp [namespaceName, namespaceDelimiter]
  intro h
  simp only [metaTools, List.mem_cons, List.not_mem_nil, or_false] at h
  rcases h with h | h | h <;>
  · rw [h] at hinfix
    revert hinfix
    decide +kernel

/-- **The listed tools that can be run**: those whose name has no white space around it and is no
alias of a meta-tool. -/
theorem runs_iff (R : Formats) (ops : HubProductOperations) (servers : Dict String Capabilities)
    (arguments : Dict String Json) {name : String}
    (h : Lists R (ops.synced servers) arguments name) :
    Runs R (ops.synced servers) name ↔ Text.strip name = name ∧ ¬ IsAlias name := by
  obtain ⟨cap, hcap, hdefinition, serverId, originalName, hname⟩ := exists_cap_of_lists h
  have hstrip : Text.strip name ≠ "" := hname ▸ strip_namespaceName serverId originalName
  have hother : name ∉ metaTools := hname ▸ namespaceName_not_mem_metaTools serverId originalName
  constructor
  · rintro ⟨-, -, -, hplan⟩
    have hroute := (callPlan_callPayload R .empty hstrip).symm.trans (hplan .empty)
    by_cases hcall : resolveAlias metaToolAliases (Text.strip name) = "call_tool"
    · rw [if_pos hcall] at hroute
      cases hroute
    by_cases hsearch : resolveAlias metaToolAliases (Text.strip name) = "search_tools"
    · rw [if_neg hcall, if_pos hsearch] at hroute
      cases hroute
    by_cases hlist : resolveAlias metaToolAliases (Text.strip name) = "list_servers"
    · rw [if_neg hcall, if_neg hsearch, if_pos hlist] at hroute
      cases hroute
    rw [if_neg hcall, if_neg hsearch, if_neg hlist] at hroute
    have hsame : Text.strip name = name := by injection hroute
    refine ⟨hsame, fun halias => ?_⟩
    have hmem := resolveAlias_mem halias
    rw [hsame] at hcall hsearch hlist
    simp [metaTools, hcall, hsearch, hlist] at hmem
  · rintro ⟨hsame, halias⟩
    refine ⟨cap, hcap, hdefinition, fun arguments => ?_⟩
    simp only [metaTools, List.mem_cons, List.not_mem_nil, or_false, not_or] at hother
    obtain ⟨hsearch, hcall, hlist⟩ := hother
    rw [callPlan_callPayload R arguments hstrip, hsame, resolveAlias_of_not_isAlias halias,
      if_neg hcall, if_neg hsearch, if_neg hlist]

/-- The operations of a hub with one server that has one tool. -/
def oneTool (serverName toolName : String) : HubProductOperations :=
  HubProductOperations.synced ⟨plainRouter .empty, none⟩
    (Dict.empty.set serverName { tools := [{ name := toolName }] })

theorem definitions_oneTool (serverName toolName : String) :
    definitions (oneTool serverName toolName).registry.tools =
      [{ name := namespaceName (safeServerId serverName) toolName }] := rfl

/-- A search for nothing lists it. -/
theorem lists_oneTool (serverName toolName : String) :
    Lists plainFormats (oneTool serverName toolName) .empty
      (namespaceName (safeServerId serverName) toolName) := by
  have hsplit : Text.split "" = [] := by decide +kernel
  have hfound : matching plainFormats (Text.split "")
      (definitions (oneTool serverName toolName).registry.tools) =
        .ok [{ name := namespaceName (safeServerId serverName) toolName }] := by
    rw [hsplit, definitions_oneTool]
    rfl
  have hquery : queryText plainFormats .empty = .ok "" := rfl
  refine ⟨"", _, ?_, hquery, hfound, List.mem_singleton.mpr rfl⟩
  simp only [searchTools, hquery, hfound]
  rfl

theorem runs_iff_plain :
    Runs plainFormats (oneTool "a" "b") (namespaceName (safeServerId "a") "b") ↔
      Text.strip (namespaceName (safeServerId "a") "b") = namespaceName (safeServerId "a") "b" ∧
        ¬ IsAlias (namespaceName (safeServerId "a") "b") :=
  runs_iff plainFormats ⟨plainRouter .empty, none⟩ _ .empty (lists_oneTool "a" "b")

/-- The tool `call_tool` of a server called `hub` is taken for that of the hub itself. -/
theorem not_runs_hub :
    Lists plainFormats (oneTool "hub" "call_tool") .empty
        (namespaceName (safeServerId "hub") "call_tool") ∧
      ¬ Runs plainFormats (oneTool "hub" "call_tool")
        (namespaceName (safeServerId "hub") "call_tool") := by
  refine ⟨lists_oneTool "hub" "call_tool", ?_⟩
  rintro ⟨-, -, -, hplan⟩
  have hroute := (callPlan_callPayload plainFormats .empty (strip_namespaceName _ _)).symm.trans
    (hplan .empty)
  rw [if_pos (by decide +kernel)] at hroute
  cases hroute

end Protocol

end SlmMcpHub
