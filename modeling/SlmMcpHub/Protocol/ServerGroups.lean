import Mathlib.Algebra.Order.BigOperators.Group.List
import SlmMcpHub.Library.Grouping
import SlmMcpHub.Protocol.Discovery

/-!
# The servers a client is told of

`list_servers` groups the tools of the registry by what stands before the first delimiter of their
names. The registry knows the owner of each tool; the two agree as long as no id has a delimiter in
it, or ends where one could begin.

## Main definitions

* `serverGroups` — the groups that are reported
* `GroupsByOwner` — one group a server, with its tools

## Main results

* `listServers_groups_iff` — when the groups are those of the owners
-/

namespace SlmMcpHub

namespace Protocol

open HubProductOperations Registry

/-! ### The report -/

/-- What the names of the tools are split into. -/
def splitNames (r : Registry) : List (String × String) :=
  (definitions r.tools).filterMap fun d => splitName d.name

/-- The groups `list_servers` reports: what is taken for a server, and the names of its tools. -/
def serverGroups (r : Registry) : List (String × List String) :=
  ((Dict.collect (splitNames r)).entries.mergeSort fun a b => a.1 ≤ b.1).map fun e =>
    (e.1, e.2.mergeSort (· ≤ ·))

/-- The report of some groups. -/
def groupsReport (groups : List (String × List String)) : Json :=
  .obj [("server_count", .int groups.length), ("servers", .arr (groups.map fun g =>
    .obj [("server", .str g.1), ("tools", .int g.2.length), ("tool_names", .arr (g.2.map .str))]))]

theorem collect_splitNames (r : Registry) :
    Dict.collect (splitNames r) = (definitions r.tools).foldl
      (fun m d => match splitName d.name with
        | none => m
        | some (server, tool) => m.set server ((m.get? server).getD [] ++ [tool])) .empty := by
  rw [Dict.collect, splitNames, List.foldl_filterMap]
  congr 1
  funext m d
  rcases splitName d.name with _ | ⟨server, tool⟩ <;> rfl

theorem listServers_eq (R : Formats) (ops : HubProductOperations) :
    ops.listServers R = hubReport R (groupsReport (serverGroups ops.registry)) := by
  let servers (m : Dict String (List String)) : List Json :=
    (m.entries.mergeSort fun a b => a.1 ≤ b.1).map fun e =>
      .obj [("server", .str e.1), ("tools", .int e.2.length),
        ("tool_names", .arr ((e.2.mergeSort (· ≤ ·)).map .str))]
  let report (m : Dict String (List String)) : CallToolOutcome :=
    hubReport R (.obj [("server_count", .int (servers m).length), ("servers", .arr (servers m))])
  calc ops.listServers R = report (Dict.collect (splitNames ops.registry)) := by
        rw [collect_splitNames]
        rfl
    _ = hubReport R (groupsReport (serverGroups ops.registry)) := by
        simp [report, servers, groupsReport, serverGroups, List.map_map, Function.comp_def,
          List.length_mergeSort]

/-- The servers that own a registered tool. -/
def owners (r : Registry) : List String := (r.tools.values.map (·.serverName)).dedup

/-- The original names of the tools of a server. -/
def ownedNames (r : Registry) (serverName : String) : List String :=
  (r.tools.values.filter fun cap => cap.serverName = serverName).map (·.originalName)

/-- One group for each server that owns a tool, with exactly its tools under their original
names. -/
def GroupsByOwner (r : Registry) (groups : List (String × List String)) : Prop :=
  (groups.map Prod.snd).Perm ((owners r).map fun n => (ownedNames r n).mergeSort (· ≤ ·))

/-! ### The first delimiter -/

theorem splitDelimiter_cons_cons (c c' : Char) (cs : List Char) :
    splitDelimiter (c :: c' :: cs) =
      if c = '_' ∧ c' = '_' then some ([], cs)
      else (splitDelimiter (c' :: cs)).map fun p => (c :: p.1, p.2) := by
  rw [splitDelimiter]
  simp

@[simp] theorem splitDelimiter_singleton (c : Char) : splitDelimiter [c] = none := by
  simp [splitDelimiter]

/-- What follows a delimiter does not matter to where it is. -/
theorem splitDelimiter_append {l : List Char} : ∀ {g w : List Char},
    splitDelimiter l = some (g, w) → ∀ m, splitDelimiter (l ++ m) = some (g, w ++ m) := by
  induction l with
  | nil => exact nofun
  | cons c cs ih =>
    intro g w h m
    cases cs with
    | nil =>
      rw [splitDelimiter_singleton] at h
      cases h
    | cons c' cs =>
      rw [splitDelimiter_cons_cons] at h
      rw [List.cons_append, List.cons_append, splitDelimiter_cons_cons]
      split_ifs at h ⊢ with hc
      · obtain ⟨rfl, rfl⟩ := Prod.mk.inj (Option.some.inj h)
        rfl
      · obtain ⟨⟨g', w'⟩, hsplit, heq⟩ := Option.map_eq_some_iff.mp h
        obtain ⟨rfl, rfl⟩ := Prod.mk.inj heq
        rw [← List.cons_append, ih hsplit]
        rfl

/-- An id from which the first delimiter of a published name cannot be told: one that has a
delimiter in it, or ends with the beginning of one. -/
def Delimited (serverId : String) : Prop := ['_', '_'] <:+: serverId.toList ++ ['_']

instance (serverId : String) : Decidable (Delimited serverId) :=
  inferInstanceAs (Decidable (_ <:+: _))

/-- Where a delimiter is, one is found. -/
theorem exists_splitDelimiter {l : List Char} (h : ['_', '_'] <:+: l) :
    ∃ g w, splitDelimiter l = some (g, w) := by
  induction l with
  | nil => simp at h
  | cons c cs ih =>
    cases cs with
    | nil =>
      have := h.length_le
      simp at this
    | cons c' cs =>
      rw [splitDelimiter_cons_cons]
      split_ifs with hc
      · exact ⟨_, _, rfl⟩
      · rcases List.infix_cons_iff.mp h with hle | hinfix
        · obtain ⟨hc₁, hle⟩ := List.cons_prefix_cons.mp hle
          exact absurd ⟨hc₁.symm, (List.cons_prefix_cons.mp hle).1.symm⟩ hc
        · obtain ⟨g, w, hsplit⟩ := ih hinfix
          exact ⟨c :: g, w, by rw [hsplit]; rfl⟩

/-- Where none is, and none begins at the end, the first delimiter is the next one. -/
theorem splitDelimiter_delimiter {l : List Char} (h : ¬ ['_', '_'] <:+: l ++ ['_']) :
    splitDelimiter (l ++ ['_', '_']) = some (l, []) := by
  induction l with
  | nil => rfl
  | cons c cs ih =>
    rw [List.cons_append, List.infix_cons_iff, not_or] at h
    have hih := ih h.2
    cases cs with
    | nil =>
      have hc : ¬ (c = '_' ∧ '_' = '_') := fun hc => h.1 (by rw [hc.1]; exact List.prefix_rfl)
      rw [List.cons_append, List.nil_append, splitDelimiter_cons_cons, if_neg hc]
      rfl
    | cons c' cs =>
      have hc : ¬ (c = '_' ∧ c' = '_') := by
        rintro ⟨rfl, rfl⟩
        exact h.1 (List.prefix_append ['_', '_'] _)
      rw [List.cons_append, List.cons_append, splitDelimiter_cons_cons, if_neg hc,
        ← List.cons_append, hih]
      rfl

/-- What `list_servers` cuts the published names of a server into: the part it takes for the server,
and what is left in front of each name. -/
def cut (serverId : String) : List Char × List Char :=
  (splitDelimiter (serverId.toList ++ ['_', '_'])).getD ([], [])

theorem splitDelimiter_eq_cut (serverId : String) :
    splitDelimiter (serverId.toList ++ ['_', '_']) = some (cut serverId) := by
  obtain ⟨g, w, h⟩ := exists_splitDelimiter (List.infix_append' serverId.toList ['_', '_'] [])
  rw [List.append_nil] at h
  rw [cut, h]
  rfl

theorem splitName_namespaceName (serverId originalName : String) :
    splitName (namespaceName serverId originalName) =
      some (String.ofList (cut serverId).1,
        String.ofList ((cut serverId).2 ++ originalName.toList)) := by
  have htoList : (namespaceName serverId originalName).toList =
      serverId.toList ++ ['_', '_'] ++ originalName.toList := by
    rw [namespaceName, String.toList_append, String.toList_append]
    rfl
  rw [splitName, htoList, splitDelimiter_append (splitDelimiter_eq_cut serverId)]
  rfl

theorem cut_of_not_delimited {serverId : String} (h : ¬ Delimited serverId) :
    cut serverId = (serverId.toList, []) := by
  rw [cut, splitDelimiter_delimiter h]
  rfl

/-- Something is left in front of the names of a server whose id has a delimiter. -/
theorem cut_ne_nil_of_delimited {serverId : String} (h : Delimited serverId) :
    (cut serverId).2 ≠ [] := by
  obtain ⟨g, w, hsplit⟩ := exists_splitDelimiter h
  have hcut := splitDelimiter_append hsplit ['_']
  rw [List.append_assoc, show ['_'] ++ ['_'] = ['_', '_'] from rfl, splitDelimiter_eq_cut] at hcut
  rw [Option.some.inj hcut]
  exact List.append_ne_nil_of_right_ne_nil _ (List.cons_ne_nil _ _)

/-! ### The owners -/

section Synced

variable {r : Registry} {servers : Dict String Capabilities}

/-- A registered tool is that of a server of the sync, under the id of the server. -/
theorem exists_assigned {cap : RegisteredCapability} (h : cap ∈ (r.sync servers).1.tools.values) :
    cap.definition.name = namespaceName cap.serverId cap.originalName ∧
      ∃ p ∈ assignIds [] servers.entries, p.serverName = cap.serverName ∧
        p.serverId = cap.serverId := by
  obtain ⟨key, hget⟩ := Dict.mem_values_iff.mp h
  have hlast : Dict.lastOf (published .tool servers) key = some cap :=
    (get?_table_sync r servers .tool key).symm.trans hget
  obtain ⟨p, hp, d, -, hentry⟩ := mem_published.mp (Dict.lastOf_mem hlast)
  obtain ⟨-, rfl⟩ := Prod.mk.inj hentry
  exact ⟨rfl, p, hp, rfl, rfl⟩

/-- One server has one id, and one id is that of one server. -/
theorem serverName_eq_iff {cap cap' : RegisteredCapability}
    (h : cap ∈ (r.sync servers).1.tools.values) (h' : cap' ∈ (r.sync servers).1.tools.values) :
    cap.serverName = cap'.serverName ↔ cap.serverId = cap'.serverId := by
  obtain ⟨-, p, hp, hname, hid⟩ := exists_assigned h
  obtain ⟨-, q, hq, hname', hid'⟩ := exists_assigned h'
  rw [← hname, ← hname', ← hid, ← hid']
  exact ⟨fun heq => by rw [eq_of_serverName_eq hp hq heq],
    fun heq => by rw [eq_of_serverId_eq hp hq heq]⟩

/-- The names of the registered tools, as `list_servers` splits them. -/
theorem splitNames_sync : splitNames (r.sync servers).1 =
    (r.sync servers).1.tools.values.map fun cap => (String.ofList (cut cap.serverId).1,
      String.ofList ((cut cap.serverId).2 ++ cap.originalName.toList)) := by
  rw [splitNames, definitions, List.filterMap_map, ← List.filterMap_eq_map]
  refine List.filterMap_congr fun cap hcap => ?_
  rw [Function.comp_apply, (exists_assigned hcap).1, splitName_namespaceName]
  rfl

/-! ### Groups by ids without a delimiter -/

/-- The groups, but for their order. -/
theorem serverGroups_perm (r : Registry) : (serverGroups r).Perm
    ((Dict.collect (splitNames r)).keys.map fun k =>
      (k, (Dict.groupOf (splitNames r) k).mergeSort (· ≤ ·))) := by
  rw [serverGroups]
  refine ((List.mergeSort_perm _ _).map _).trans ?_
  rw [Dict.entries_collect, List.map_map]
  exact .refl _

/-- The names in the groups are those the published names have been split into. -/
theorem flatten_serverGroups_perm (r : Registry) :
    ((serverGroups r).flatMap Prod.snd).Perm ((splitNames r).map Prod.snd) := by
  refine ((serverGroups_perm r).flatMap_right _).trans ?_
  rw [List.flatMap_map]
  refine (List.Perm.flatMap_left _ fun k _ => List.mergeSort_perm _ _).trans ?_
  have h := Dict.flatMap_collect_perm (splitNames r)
  rw [Dict.entries_collect, List.flatMap_map] at h
  exact h

/-- The original names of all servers are those of all registered tools. -/
theorem flatMap_ownedNames_perm (r : Registry) :
    ((owners r).flatMap (ownedNames r)).Perm (r.tools.values.map (·.originalName)) := by
  have h := flatMap_filter_perm (fun cap : RegisteredCapability => cap.serverName)
    (l := r.tools.values) (List.nodup_dedup (r.tools.values.map (·.serverName))) fun cap hcap =>
      List.mem_dedup.mpr (List.mem_map_of_mem hcap)
  have hmap := h.map (·.originalName)
  rw [List.map_flatMap] at hmap
  exact hmap

/-- The id a server has in the registry. -/
def idOf (r : Registry) (serverName : String) : String := (r.serverIds.get? serverName).getD ""

theorem idOf_serverName {cap : RegisteredCapability}
    (h : cap ∈ (r.sync servers).1.tools.values) :
    idOf (r.sync servers).1 cap.serverName = cap.serverId := by
  obtain ⟨-, p, hp, hname, hid⟩ := exists_assigned h
  rw [idOf, ← hname, get?_serverIds_sync r hp, ← hid]
  rfl

theorem mem_owners {r : Registry} {serverName : String} :
    serverName ∈ owners r ↔ ∃ cap ∈ r.tools.values, cap.serverName = serverName := by
  rw [owners, List.mem_dedup, List.mem_map]

/-- **Groups of owners.** Without a delimiter in the ids, there is one group for each server that
owns a tool, under its id and with its tools. -/
theorem serverGroups_of_not_delimited
    (h : ∀ cap ∈ (r.sync servers).1.tools.values, ¬ Delimited cap.serverId) :
    (serverGroups (r.sync servers).1).Perm ((owners (r.sync servers).1).map fun n =>
      (idOf (r.sync servers).1 n, (ownedNames (r.sync servers).1 n).mergeSort (· ≤ ·))) := by
  have hsplit : splitNames (r.sync servers).1 =
      (r.sync servers).1.tools.values.map fun cap => (cap.serverId, cap.originalName) := by
    rw [splitNames_sync]
    refine List.map_congr_left fun cap hcap => ?_
    rw [cut_of_not_delimited (h cap hcap), List.nil_append, String.ofList_toList,
      String.ofList_toList]
  have hgroup : ∀ n ∈ owners (r.sync servers).1,
      Dict.groupOf (splitNames (r.sync servers).1) (idOf (r.sync servers).1 n) =
        ownedNames (r.sync servers).1 n := by
    intro n hn
    obtain ⟨cap, hcap, rfl⟩ := mem_owners.mp hn
    rw [hsplit, idOf_serverName hcap, Dict.groupOf, List.filter_map, List.map_map, ownedNames]
    refine congrArg _ (List.filter_congr fun cap' hcap' => ?_)
    rw [Bool.eq_iff_iff, Function.comp_apply, decide_eq_true_eq, decide_eq_true_eq]
    exact (serverName_eq_iff hcap' hcap).symm
  have hkeys : (Dict.collect (splitNames (r.sync servers).1)).keys.Perm
      ((owners (r.sync servers).1).map (idOf (r.sync servers).1)) := by
    refine (List.perm_ext_iff_of_nodup (Dict.keys_nodup _) ?_).mpr fun k => ?_
    · refine List.Nodup.map_on (fun n hn n' hn' heq => ?_) (List.nodup_dedup _)
      obtain ⟨cap, hcap, rfl⟩ := mem_owners.mp hn
      obtain ⟨cap', hcap', rfl⟩ := mem_owners.mp hn'
      rw [idOf_serverName hcap, idOf_serverName hcap'] at heq
      exact (serverName_eq_iff hcap hcap').mpr heq
    · rw [Dict.mem_keys_collect, hsplit, List.map_map, List.mem_map, List.mem_map]
      constructor
      · rintro ⟨cap, hcap, rfl⟩
        exact ⟨cap.serverName, mem_owners.mpr ⟨cap, hcap, rfl⟩, idOf_serverName hcap⟩
      · rintro ⟨n, hn, rfl⟩
        obtain ⟨cap, hcap, rfl⟩ := mem_owners.mp hn
        exact ⟨cap, hcap, (idOf_serverName hcap).symm⟩
  refine (serverGroups_perm _).trans ((hkeys.map _).trans ?_)
  rw [List.map_map]
  refine List.Perm.of_eq (List.map_congr_left fun n hn => ?_)
  rw [Function.comp_apply, hgroup n hn]

/-- With the original names of all tools in the groups, nothing is left in front of a name. -/
theorem not_delimited_of_groupsByOwner
    (h : GroupsByOwner (r.sync servers).1 (serverGroups (r.sync servers).1)) :
    ∀ cap ∈ (r.sync servers).1.tools.values, ¬ Delimited cap.serverId := by
  have hnames : ((r.sync servers).1.tools.values.map fun cap =>
      String.ofList ((cut cap.serverId).2 ++ cap.originalName.toList)).Perm
        ((r.sync servers).1.tools.values.map (·.originalName)) := by
    have hsplit := congrArg (List.map Prod.snd) (@splitNames_sync r servers)
    rw [List.map_map] at hsplit
    have hflat := h.flatten
    rw [← List.flatMap_def, ← List.flatMap_def] at hflat
    refine (List.Perm.of_eq hsplit.symm).trans ((flatten_serverGroups_perm _).symm.trans ?_)
    refine hflat.trans ((List.Perm.flatMap_left _ fun n _ => List.mergeSort_perm _ _).trans ?_)
    exact flatMap_ownedNames_perm _
  intro cap hcap hdelimited
  have hlengths := (hnames.map String.length).sum_eq
  rw [List.map_map, List.map_map] at hlengths
  refine absurd hlengths (ne_of_gt (List.sum_lt_sum _ _ (fun cap' _ => ?_) ⟨cap, hcap, ?_⟩))
  · simp
  · have hlength := List.length_pos_iff.mpr (cut_ne_nil_of_delimited hdelimited)
    simpa using hlength

end Synced

/-- **When the groups are those of the owners.** `list_servers` reports some groups; whatever has
been synced, there is one for each server that owns a registered tool, with exactly its tools under
their original names, just when no owner has an id from which the first delimiter of a name cannot
be told. -/
theorem listServers_groups_iff (R : Formats) (ops : HubProductOperations)
    (servers : Dict String Capabilities) :
    let registry := (ops.synced servers).registry
    (ops.synced servers).listServers R = hubReport R (groupsReport (serverGroups registry)) ∧
      (GroupsByOwner registry (serverGroups registry) ↔
        ∀ cap ∈ registry.tools.values, ¬ Delimited cap.serverId) := by
  refine ⟨listServers_eq R (ops.synced servers),
    not_delimited_of_groupsByOwner (r := ops.registry), fun h => ?_⟩
  have hperm := (serverGroups_of_not_delimited (r := ops.registry) h).map Prod.snd
  rwa [List.map_map] at hperm

/-- A server whose name ends in a bracket: its tool is reported as another one. -/
theorem not_groupsByOwner :
    ¬ ∀ servers : Dict String Capabilities,
      GroupsByOwner (Registry.empty.sync servers).1
        (serverGroups (Registry.empty.sync servers).1) := by
  intro h
  let servers : Dict String Capabilities :=
    Dict.empty.set "files (local)" { tools := [{ name := "read" }] }
  let tool : RegisteredCapability :=
    ⟨"files (local)", "files__local_", "read", { name := "files__local___read" }⟩
  have hvalues : (Registry.empty.sync servers).1.tools.values = [tool] := rfl
  have htool : tool ∈ (Registry.empty.sync servers).1.tools.values := by
    rw [hvalues]
    exact List.mem_singleton_self tool
  have hdelimited : Delimited "files__local_" := ⟨"files".toList, "local__".toList, by rfl⟩
  exact not_delimited_of_groupsByOwner (h servers) tool htool hdelimited

end Protocol

end SlmMcpHub
