import SlmMcpHub.Federation.Namespace
import SlmMcpHub.Library.Dict
import SlmMcpHub.Library.Json

/-!
# The capability registry

`core/registry.py`: the flat dictionaries of all published tools, resources, resource templates
and prompts, rebuilt from scratch by every `sync`.

`sync` walks the servers in the order of the dictionary it is given, derives an id for each from
its name and the ids taken so far, and writes one entry per capability. The four inner loops of
the source differ only in the list they walk and the dictionary they write, so they are one
definition, `registerAll`, used four times.

## The published list

`published` lists the entries in the order in which `sync` writes them, before any dictionary is
built. `table_sync` says that each dictionary is that list written one after the other, and from
there on a lookup is `Dict.lastOf` of the list: an entry is visible exactly when no later one has
its key.

## Main results

* `table_sync`, `serverIds_sync` — what a sync leaves in the registry
* `registersExactly_iff` — a sync registers every capability of a kind exactly once, under a name
  that leads back to it, if and only if no two capabilities overlap
-/

namespace SlmMcpHub

/-- A definition as a backend lists it: the entry that identifies it (`"name"` of a tool or a
prompt, `"uri"` of a resource, `"uriTemplate"` of a resource template) and the other entries. -/
structure Definition where
  name : String
  fields : List (String × Json) := []

/-- The four kinds of capabilities. -/
inductive Kind where
  | tool
  | resource
  | resourceTemplate
  | prompt
  deriving DecidableEq

/-- `{"tools": [...], "resources": [...], "resource_templates": [...], "prompts": [...]}`; a key
the source reads with `.get(key, [])` and does not find is an empty list here. -/
structure Capabilities where
  tools : List Definition := []
  resources : List Definition := []
  resourceTemplates : List Definition := []
  prompts : List Definition := []

/-- The capabilities of one kind. -/
def Capabilities.of (caps : Capabilities) : Kind → List Definition
  | .tool => caps.tools
  | .resource => caps.resources
  | .resourceTemplate => caps.resourceTemplates
  | .prompt => caps.prompts

/-- A federated capability with its routing metadata. -/
structure RegisteredCapability where
  serverName : String
  serverId : String
  originalName : String
  definition : Definition

/-! ### The `namespace_*` helpers -/

/-- A new definition whose identifying entry is namespaced. -/
def namespaceDefinition (serverId : String) (d : Definition) : Definition :=
  { d with name := namespaceName serverId d.name }

/-- `{**tool_def, "name": ...}` -/
def namespaceTool : String → Definition → Definition := namespaceDefinition

/-- `{**resource_def, "uri": ...}` -/
def namespaceResource : String → Definition → Definition := namespaceDefinition

/-- `{**template_def, "uriTemplate": ...}` -/
def namespaceResourceTemplate : String → Definition → Definition := namespaceDefinition

/-- `{**prompt_def, "name": ...}` -/
def namespacePrompt : String → Definition → Definition := namespaceDefinition

/-! ### The registry and its sync -/

/-- `CapabilityRegistry` -/
structure Registry where
  tools : Dict String RegisteredCapability
  resources : Dict String RegisteredCapability
  resourceTemplates : Dict String RegisteredCapability
  prompts : Dict String RegisteredCapability
  serverIds : Dict String String

namespace Registry

/-- A registry as `__init__` and `clear` leave it. -/
def empty : Registry := ⟨.empty, .empty, .empty, .empty, .empty⟩

/-- The dictionary of one kind. -/
def table (r : Registry) : Kind → Dict String RegisteredCapability
  | .tool => r.tools
  | .resource => r.resources
  | .resourceTemplate => r.resourceTemplates
  | .prompt => r.prompts

@[simp] theorem table_empty (k : Kind) : empty.table k = .empty := by cases k <;> rfl

/-- `lookup_tool` -/
def lookupTool (r : Registry) (namespacedName : String) : Option RegisteredCapability :=
  r.tools.get? namespacedName

/-- One of the four inner loops of `sync`. -/
def registerAll (namespaced : String → Definition → Definition) (serverName sid : String)
    (defs : List Definition) (table : Dict String RegisteredCapability) :
    Dict String RegisteredCapability :=
  defs.foldl (fun t d =>
    let ns := namespaced sid d
    t.set ns.name ⟨serverName, sid, d.name, ns⟩) table

/-- What the loop of `sync` accumulates. -/
structure SyncState where
  new : Registry
  usedIds : List String

/-- One round of the loop of `sync`: derive the id, then register the four kinds. -/
def syncServer (st : SyncState) (entry : String × Capabilities) : SyncState :=
  let serverName := entry.1
  let caps := entry.2
  let sid := makeUniqueId (safeServerId serverName) st.usedIds
  { usedIds := sid :: st.usedIds
    new :=
      { serverIds := st.new.serverIds.set serverName sid
        tools := registerAll namespaceTool serverName sid caps.tools st.new.tools
        resources := registerAll namespaceResource serverName sid caps.resources st.new.resources
        resourceTemplates := registerAll namespaceResourceTemplate serverName sid
          caps.resourceTemplates st.new.resourceTemplates
        prompts := registerAll namespacePrompt serverName sid caps.prompts st.new.prompts } }

/-- `set(a.keys()) != set(b.keys())` -/
def keysDiffer (a b : Dict String RegisteredCapability) : Bool :=
  !(a.keys.all (b.keys.contains ·) && b.keys.all (a.keys.contains ·))

/-- `CapabilityRegistry.sync`: the rebuilt registry, and the flag it returns. -/
def sync (r : Registry) (servers : Dict String Capabilities) : Registry × Bool :=
  let st := servers.entries.foldl syncServer ⟨.empty, []⟩
  (st.new,
    keysDiffer st.new.tools r.tools || keysDiffer st.new.resources r.resources ||
      keysDiffer st.new.prompts r.prompts)

/-! ### The published list -/

/-- A server in a sync: its name, the id it gets, and its capabilities. -/
structure Placed where
  serverName : String
  serverId : String
  caps : Capabilities

/-- The ids the servers get, in order, when `used` are taken. They depend on the names alone. -/
def assignIds (used : List String) : List (String × Capabilities) → List Placed
  | [] => []
  | (serverName, caps) :: rest =>
    let sid := makeUniqueId (safeServerId serverName) used
    ⟨serverName, sid, caps⟩ :: assignIds (sid :: used) rest

/-- The entry of one capability: its published name and what is stored under it. -/
def Placed.entry (p : Placed) (d : Definition) : String × RegisteredCapability :=
  (namespaceName p.serverId d.name,
    ⟨p.serverName, p.serverId, d.name, namespaceDefinition p.serverId d⟩)

/-- The entries one server writes. -/
def Placed.entries (p : Placed) (k : Kind) : List (String × RegisteredCapability) :=
  (p.caps.of k).map p.entry

/-- The entries a sync writes, in the order in which it writes them. -/
def published (k : Kind) (servers : Dict String Capabilities) :
    List (String × RegisteredCapability) :=
  (assignIds [] servers.entries).flatMap (Placed.entries · k)

theorem registerAll_eq (serverName sid : String) (k : Kind) (caps : Capabilities)
    (table : Dict String RegisteredCapability) :
    registerAll namespaceDefinition serverName sid (caps.of k) table =
      table.setAll (Placed.entries ⟨serverName, sid, caps⟩ k) := by
  rw [registerAll, Placed.entries, Dict.setAll, List.foldl_map]
  rfl

theorem table_syncServer (st : SyncState) (entry : String × Capabilities) (k : Kind) :
    (syncServer st entry).new.table k = (st.new.table k).setAll
      (Placed.entries ⟨entry.1, makeUniqueId (safeServerId entry.1) st.usedIds, entry.2⟩ k) := by
  rw [← registerAll_eq]
  cases k <;> rfl

/-- **What the loop writes.** From any accumulated state, the loop appends the entries of the
remaining servers. -/
theorem table_foldl_syncServer (k : Kind) : ∀ (l : List (String × Capabilities)) (st : SyncState),
    (l.foldl syncServer st).new.table k =
      (st.new.table k).setAll ((assignIds st.usedIds l).flatMap (Placed.entries · k))
  | [], _ => rfl
  | entry :: l, st => by
    rw [List.foldl_cons, table_foldl_syncServer k l, table_syncServer, ← Dict.setAll_append]
    rfl

theorem table_sync (r : Registry) (servers : Dict String Capabilities) (k : Kind) :
    (r.sync servers).1.table k = Dict.empty.setAll (published k servers) := by
  have h := table_foldl_syncServer k servers.entries ⟨.empty, []⟩
  rwa [table_empty] at h

/-- A lookup finds the last entry written under the name. -/
theorem get?_table_sync (r : Registry) (servers : Dict String Capabilities) (k : Kind)
    (name : String) :
    ((r.sync servers).1.table k).get? name = Dict.lastOf (published k servers) name := by
  rw [table_sync, Dict.get?_setAll]
  simp

theorem serverIds_foldl_syncServer : ∀ (l : List (String × Capabilities)) (st : SyncState),
    (l.foldl syncServer st).new.serverIds = st.new.serverIds.setAll
      ((assignIds st.usedIds l).map fun p => (p.serverName, p.serverId))
  | [], _ => rfl
  | _ :: l, _ => by
    rw [List.foldl_cons, serverIds_foldl_syncServer l]
    rfl

theorem serverIds_sync (r : Registry) (servers : Dict String Capabilities) :
    (r.sync servers).1.serverIds = Dict.empty.setAll
      ((assignIds [] servers.entries).map fun p => (p.serverName, p.serverId)) :=
  serverIds_foldl_syncServer servers.entries ⟨.empty, []⟩

/-! ### The assigned ids -/

theorem map_assignIds : ∀ (l : List (String × Capabilities)) (used : List String),
    (assignIds used l).map (fun p => (p.serverName, p.caps)) = l
  | [], _ => rfl
  | _ :: l, _ => congrArg _ (map_assignIds l _)

theorem map_serverName_assignIds (l : List (String × Capabilities)) (used : List String) :
    (assignIds used l).map Placed.serverName = l.map Prod.fst := by
  conv_rhs => rw [← map_assignIds l used, List.map_map]
  rfl

/-- The loop hands out ids that are free and pairwise distinct. -/
theorem assignIds_fresh : ∀ (l : List (String × Capabilities)) (used : List String),
    (∀ p ∈ assignIds used l, p.serverId ∉ used) ∧
      ((assignIds used l).map Placed.serverId).Nodup
  | [], _ => by simp [assignIds]
  | (serverName, caps) :: l, used => by
    obtain ⟨hfree, hnodup⟩ :=
      assignIds_fresh l (makeUniqueId (safeServerId serverName) used :: used)
    simp only [assignIds, List.map_cons, List.nodup_cons, List.mem_cons, forall_eq_or_imp]
    refine ⟨⟨makeUniqueId_not_mem _ _, fun p hp hmem => hfree p hp (List.mem_cons_of_mem _ hmem)⟩,
      ?_, hnodup⟩
    intro hmem
    obtain ⟨p, hp, hid⟩ := List.mem_map.mp hmem
    exact hfree p hp (hid ▸ List.mem_cons_self)

variable {servers : Dict String Capabilities}

theorem mem_entries_of_mem_assignIds {p : Placed} (hp : p ∈ assignIds [] servers.entries) :
    (p.serverName, p.caps) ∈ servers.entries := by
  rw [← map_assignIds servers.entries []]
  exact List.mem_map.mpr ⟨p, hp, rfl⟩

theorem exists_mem_assignIds {serverName : String} {caps : Capabilities}
    (h : (serverName, caps) ∈ servers.entries) :
    ∃ p ∈ assignIds [] servers.entries, p.serverName = serverName ∧ p.caps = caps := by
  rw [← map_assignIds servers.entries []] at h
  obtain ⟨p, hp, heq⟩ := List.mem_map.mp h
  exact ⟨p, hp, congrArg Prod.fst heq, congrArg Prod.snd heq⟩

theorem eq_of_serverName_eq {p q : Placed} (hp : p ∈ assignIds [] servers.entries)
    (hq : q ∈ assignIds [] servers.entries) (h : p.serverName = q.serverName) : p = q := by
  have hnodup : ((assignIds [] servers.entries).map Placed.serverName).Nodup := by
    rw [map_serverName_assignIds]
    exact servers.nodup
  exact List.inj_on_of_nodup_map hnodup hp hq h

theorem eq_of_serverId_eq {p q : Placed} (hp : p ∈ assignIds [] servers.entries)
    (hq : q ∈ assignIds [] servers.entries) (h : p.serverId = q.serverId) : p = q :=
  List.inj_on_of_nodup_map (assignIds_fresh servers.entries []).2 hp hq h

theorem get?_serverIds_sync_iff (r : Registry) {serverName sid : String} :
    (r.sync servers).1.serverIds.get? serverName = some sid ↔
      ∃ p ∈ assignIds [] servers.entries, p.serverName = serverName ∧ p.serverId = sid := by
  have hnodup : (((assignIds [] servers.entries).map fun p => (p.serverName, p.serverId)).map
      Prod.fst).Nodup := by
    rw [List.map_map]
    exact (map_serverName_assignIds servers.entries []).symm ▸ servers.nodup
  rw [serverIds_sync, Dict.get?_setAll, Dict.get?_empty, Option.or_none,
    Dict.lastOf_eq_some_iff hnodup, List.mem_map]
  simp only [Prod.mk.injEq]

theorem get?_serverIds_sync (r : Registry) {p : Placed}
    (hp : p ∈ assignIds [] servers.entries) :
    (r.sync servers).1.serverIds.get? p.serverName = some p.serverId :=
  (get?_serverIds_sync_iff r).mpr ⟨p, hp, rfl, rfl⟩

/-- **Every server gets an id of its own.** The search for one ends on an id that is not taken,
whatever ids are. So of the servers of a map each has an id after a sync, no two have the same, and
nothing else has one: also where an id with a suffix is what another server's name is made into. -/
theorem distinct_serverIds_sync :
    (∀ baseId existingIds, makeUniqueId baseId existingIds ∉ existingIds ∧
      ∀ rounds, existingIds.length < rounds →
        makeUniqueIdLoop rounds baseId existingIds = some (makeUniqueId baseId existingIds)) ∧
    ∀ (r : Registry) (servers : Dict String Capabilities),
      (∀ serverName, serverName ∈ servers.keys ↔
        ∃ sid, (r.sync servers).1.serverIds.get? serverName = some sid) ∧
      ∀ serverName serverName' sid,
        (r.sync servers).1.serverIds.get? serverName = some sid →
        (r.sync servers).1.serverIds.get? serverName' = some sid → serverName = serverName' := by
  refine ⟨fun baseId existingIds => ⟨makeUniqueId_not_mem baseId existingIds, fun rounds =>
    makeUniqueIdLoop_eq baseId existingIds⟩, fun r servers => ⟨fun serverName => ?_, ?_⟩⟩
  · constructor
    · intro hmem
      obtain ⟨caps, hcaps⟩ := Dict.mem_keys_iff.mp hmem
      obtain ⟨p, hp, rfl, -⟩ := exists_mem_assignIds (Dict.mem_entries_iff.mpr hcaps)
      exact ⟨p.serverId, get?_serverIds_sync r hp⟩
    · rintro ⟨sid, hsid⟩
      obtain ⟨p, hp, rfl, -⟩ := (get?_serverIds_sync_iff r).mp hsid
      exact Dict.mem_keys_iff.mpr
        ⟨p.caps, Dict.mem_entries_iff.mp (mem_entries_of_mem_assignIds hp)⟩
  · intro serverName serverName' sid h h'
    obtain ⟨p, hp, rfl, hid⟩ := (get?_serverIds_sync_iff r).mp h
    obtain ⟨q, hq, rfl, hid'⟩ := (get?_serverIds_sync_iff r).mp h'
    rw [eq_of_serverId_eq hp hq (hid.trans hid'.symm)]

/-- The second server is given the id that the third one asks for. -/
example : (assignIds [] [("a.b", {}), ("a_b", {}), ("a_b_2", {})]).map Placed.serverId =
    ["a_b", "a_b_2", "a_b_2_2"] := by
  decide

theorem mem_published {k : Kind} {e : String × RegisteredCapability} :
    e ∈ published k servers ↔
      ∃ p ∈ assignIds [] servers.entries, ∃ d ∈ p.caps.of k, p.entry d = e := by
  simp [published, Placed.entries]

/-- The entries of one server are among those of servers with other names. -/
theorem filter_entries (k : Kind) {p : Placed} : ∀ {l : List Placed},
    (l.map Placed.serverName).Nodup → p ∈ l →
      (l.flatMap (Placed.entries · k)).filter (fun e => e.2.serverName = p.serverName) =
        p.entries k := by
  have hown : ∀ q : Placed, ∀ e ∈ q.entries k, e.2.serverName = q.serverName := by
    intro q e he
    obtain ⟨d, -, rfl⟩ := List.mem_map.mp he
    rfl
  have hother : ∀ l : List Placed, p.serverName ∉ l.map Placed.serverName →
      (l.flatMap (Placed.entries · k)).filter (fun e => e.2.serverName = p.serverName) = [] := by
    intro l hl
    refine List.filter_eq_nil_iff.mpr fun e he hname => hl ?_
    obtain ⟨q, hq, he⟩ := List.mem_flatMap.mp he
    exact List.mem_map.mpr ⟨q, hq, (hown q e he).symm.trans (of_decide_eq_true hname)⟩
  intro l
  induction l with
  | nil => exact fun _ hp => absurd hp List.not_mem_nil
  | cons q l ih =>
    intro hl hp
    rw [List.map_cons, List.nodup_cons] at hl
    rw [List.flatMap_cons, List.filter_append]
    rcases List.mem_cons.mp hp with rfl | hp
    · rw [hother l hl.1, List.append_nil]
      exact List.filter_eq_self.mpr fun e he => decide_eq_true (hown p e he)
    · rw [ih hl.2 hp]
      refine List.append_left_eq_self.mpr (List.filter_eq_nil_iff.mpr fun e he hname => hl.1 ?_)
      rw [← hown q e he, of_decide_eq_true hname]
      exact List.mem_map.mpr ⟨p, hp, rfl⟩

/-- What a sync writes for one server: its capabilities, all under one id. -/
theorem filter_published {serverName : String} {caps : Capabilities}
    (h : servers.get? serverName = some caps) :
    ∃ sid, ∀ k, (published k servers).filter (fun e => e.2.serverName = serverName) =
      Placed.entries ⟨serverName, sid, caps⟩ k := by
  obtain ⟨p, hp, rfl, rfl⟩ := exists_mem_assignIds (Dict.mem_entries_iff.mpr h)
  refine ⟨p.serverId, fun k => filter_entries k ?_ hp⟩
  rw [map_serverName_assignIds]
  exact servers.nodup

/-! ### Every capability once, under a name that leads back to it -/

/-- What registering the capabilities of one kind should mean: exactly one entry per server and
capability, no other entry, and the published name of a capability leads back to it. -/
structure RegistersExactly (k : Kind) (servers : Dict String Capabilities) (r : Registry) :
    Prop where
  /-- Each capability of each server has exactly one entry. -/
  unique : ∀ serverName caps d, (serverName, caps) ∈ servers.entries → d ∈ caps.of k →
    ∃! e, e ∈ (r.table k).entries ∧ e.2.serverName = serverName ∧ e.2.originalName = d.name
  /-- Each entry is that of a capability of a server. -/
  sound : ∀ e ∈ (r.table k).entries, ∃ caps d, (e.2.serverName, caps) ∈ servers.entries ∧
    d ∈ caps.of k ∧ e.2.originalName = d.name
  /-- Looking up the published name of a capability returns its server and its own name. -/
  lookup : ∀ serverName caps d, (serverName, caps) ∈ servers.entries → d ∈ caps.of k →
    ∃ sid cap, r.serverIds.get? serverName = some sid ∧
      (r.table k).get? (namespaceName sid d.name) = some cap ∧
      cap.serverName = serverName ∧ cap.originalName = d.name
  /-- Different capabilities are published under different names. -/
  separate : ∀ serverName caps d serverName' caps' d' sid sid',
    (serverName, caps) ∈ servers.entries → d ∈ caps.of k →
    (serverName', caps') ∈ servers.entries → d' ∈ caps'.of k →
    r.serverIds.get? serverName = some sid → r.serverIds.get? serverName' = some sid' →
    namespaceName sid d.name = namespaceName sid' d'.name →
    serverName = serverName' ∧ d.name = d'.name

/-- No id extends another one into a capability name: of no two capabilities of kind `k` does one
begin with the rest by which the id of the other's server is longer. The ids are those the server
names get from `makeUniqueId` and `safeServerId` in the order of the dictionary. -/
def Separated (k : Kind) (servers : Dict String Capabilities) : Prop :=
  ∀ p ∈ assignIds [] servers.entries, ∀ q ∈ assignIds [] servers.entries,
    ∀ d ∈ p.caps.of k, ∀ d' ∈ q.caps.of k, ¬ Overlaps p.serverId d.name q.serverId d'.name

/-- The capabilities of kind `k` of each server have distinct names. -/
def NamesDistinct (k : Kind) (servers : Dict String Capabilities) : Prop :=
  ∀ e ∈ servers.entries, ((e.2.of k).map Definition.name).Nodup

variable {k : Kind}

/-- Two published names agree only if the servers and the names do, when nothing overlaps. -/
theorem Separated.eq_of_namespaceName_eq (h : Separated k servers) {p q : Placed}
    (hp : p ∈ assignIds [] servers.entries) (hq : q ∈ assignIds [] servers.entries)
    {d d' : Definition} (hd : d ∈ p.caps.of k) (hd' : d' ∈ q.caps.of k)
    (heq : namespaceName p.serverId d.name = namespaceName q.serverId d'.name) :
    p = q ∧ d.name = d'.name := by
  by_cases hid : p.serverId = q.serverId
  · exact ⟨eq_of_serverId_eq hp hq hid, namespaceName_left_injective _ (hid ▸ heq)⟩
  · rcases (namespaceName_eq_iff hid).mp heq with ho | ho
    · exact absurd ho (h p hp q hq d hd d' hd')
    · exact absurd ho (h q hq p hp d' hd' d hd)

theorem nodup_published (h : Separated k servers) (hn : NamesDistinct k servers) :
    ((published k servers).map Prod.fst).Nodup := by
  have hflat : (published k servers).map Prod.fst = (assignIds [] servers.entries).flatMap
      fun p => (p.caps.of k).map fun d => namespaceName p.serverId d.name := by
    simp [published, Placed.entries, Placed.entry, List.map_flatMap, Function.comp_def]
  rw [hflat, List.nodup_flatMap]
  refine ⟨fun p hp => ?_, ?_⟩
  · have hnames := hn _ (mem_entries_of_mem_assignIds hp)
    have := hnames.map (namespaceName_left_injective p.serverId)
    rwa [List.map_map] at this
  · have hnodup : (assignIds [] servers.entries).Nodup :=
      (assignIds_fresh servers.entries []).2.of_map
    refine hnodup.imp_of_mem fun {p q} hp hq hpq => ?_
    rintro name hname hname'
    obtain ⟨d, hd, rfl⟩ := List.mem_map.mp hname
    obtain ⟨d', hd', heq⟩ := List.mem_map.mp hname'
    exact hpq (h.eq_of_namespaceName_eq hp hq hd hd' heq.symm).1

/-- When nothing overlaps the dictionary is the published list. -/
theorem entries_table_sync (r : Registry) (h : Separated k servers)
    (hn : NamesDistinct k servers) :
    ((r.sync servers).1.table k).entries = published k servers := by
  rw [table_sync, Dict.entries_setAll (nodup_published h hn) (by simp)]
  rfl

theorem Separated.registersExactly (r : Registry) (h : Separated k servers)
    (hn : NamesDistinct k servers) : RegistersExactly k servers (r.sync servers).1 := by
  have hget : ∀ p ∈ assignIds [] servers.entries, ∀ d ∈ p.caps.of k,
      ((r.sync servers).1.table k).get? (namespaceName p.serverId d.name) =
        some (p.entry d).2 := by
    intro p hp d hd
    rw [get?_table_sync, Dict.lastOf_eq_some_iff (nodup_published h hn)]
    exact mem_published.mpr ⟨p, hp, d, hd, rfl⟩
  constructor
  · intro serverName caps d hmem hd
    obtain ⟨p, hp, rfl, rfl⟩ := exists_mem_assignIds hmem
    rw [entries_table_sync r h hn]
    refine ⟨p.entry d, ⟨mem_published.mpr ⟨p, hp, d, hd, rfl⟩, rfl, rfl⟩, ?_⟩
    rintro e ⟨he, hserver, hname⟩
    obtain ⟨q, hq, d', hd', rfl⟩ := mem_published.mp he
    obtain rfl : q = p := eq_of_serverName_eq hq hp hserver
    have hdd : d' = d := List.inj_on_of_nodup_map
      (hn _ (mem_entries_of_mem_assignIds hp)) hd' hd hname
    rw [hdd]
  · intro e he
    rw [entries_table_sync r h hn] at he
    obtain ⟨p, hp, d, hd, rfl⟩ := mem_published.mp he
    exact ⟨p.caps, d, mem_entries_of_mem_assignIds hp, hd, rfl⟩
  · intro serverName caps d hmem hd
    obtain ⟨p, hp, rfl, rfl⟩ := exists_mem_assignIds hmem
    exact ⟨p.serverId, (p.entry d).2, get?_serverIds_sync r hp, hget p hp d hd, rfl, rfl⟩
  · intro serverName caps d serverName' caps' d' sid sid' hmem hd hmem' hd' hsid hsid' heq
    obtain ⟨p, hp, rfl, rfl⟩ := exists_mem_assignIds hmem
    obtain ⟨q, hq, rfl, rfl⟩ := exists_mem_assignIds hmem'
    rw [get?_serverIds_sync r hp, Option.some.injEq] at hsid
    rw [get?_serverIds_sync r hq, Option.some.injEq] at hsid'
    subst hsid hsid'
    obtain ⟨rfl, hname⟩ := h.eq_of_namespaceName_eq hp hq hd hd' heq
    exact ⟨rfl, hname⟩

theorem RegistersExactly.separated {r : Registry}
    (h : RegistersExactly k servers (r.sync servers).1) : Separated k servers := by
  intro p hp q hq d hd d' hd' ho
  have hpq := h.separate _ _ d _ _ d' _ _ (mem_entries_of_mem_assignIds hp) hd
    (mem_entries_of_mem_assignIds hq) hd' (get?_serverIds_sync r hp) (get?_serverIds_sync r hq)
    ho.namespaceName_eq
  obtain rfl : p = q := eq_of_serverName_eq hp hq hpq.1
  rcases ho with ⟨hid, -⟩ | ⟨rest, hid, -⟩
  all_goals
    have := congrArg (List.length ∘ String.toList) hid
    simp at this

/-- **When a sync registers every capability once.** For every map of servers whose own
capabilities of a kind have distinct names, a sync registers that kind faithfully if and only if
no two of its capabilities overlap. -/
theorem registersExactly_iff (r : Registry) (k : Kind) (servers : Dict String Capabilities)
    (hn : NamesDistinct k servers) :
    RegistersExactly k servers (r.sync servers).1 ↔ Separated k servers :=
  ⟨RegistersExactly.separated, fun h => h.registersExactly r hn⟩

/-- A server `a` with a tool `b__t` beside a server `a__b` with a tool `t`. -/
def shadowedServers : Dict String Capabilities :=
  ⟨[("a", { tools := [{ name := "b__t" }] }), ("a__b", { tools := [{ name := "t" }] })], by decide⟩

theorem namesDistinct_shadowedServers : NamesDistinct .tool shadowedServers := by
  simp [NamesDistinct, shadowedServers, Capabilities.of]

/-- The hypothesis of `registersExactly_iff` is met by servers whose tools collide. -/
theorem registersExactly_iff_shadowedServers :
    NamesDistinct .tool shadowedServers ∧
      (RegistersExactly .tool shadowedServers (Registry.empty.sync shadowedServers).1 ↔
        Separated .tool shadowedServers) :=
  ⟨namesDistinct_shadowedServers,
    registersExactly_iff .empty .tool shadowedServers namesDistinct_shadowedServers⟩

/-- Both tools are published as `a__b__t`, and only the second one is registered. -/
theorem not_registersExactly_shadowedServers :
    NamesDistinct .tool shadowedServers ∧
      ¬ RegistersExactly .tool shadowedServers (Registry.empty.sync shadowedServers).1 := by
  refine ⟨namesDistinct_shadowedServers, fun h => ?_⟩
  have hids : assignIds [] shadowedServers.entries =
      [⟨"a", "a", { tools := [{ name := "b__t" }] }⟩,
        ⟨"a__b", "a__b", { tools := [{ name := "t" }] }⟩] := rfl
  refine h.separated ⟨"a", "a", { tools := [{ name := "b__t" }] }⟩ (by rw [hids]; simp)
    ⟨"a__b", "a__b", { tools := [{ name := "t" }] }⟩ (by rw [hids]; simp)
    { name := "b__t" } (by simp [Capabilities.of]) { name := "t" } (by simp [Capabilities.of]) ?_
  exact Or.inr ⟨"b", by decide, by decide⟩

end Registry

end SlmMcpHub
