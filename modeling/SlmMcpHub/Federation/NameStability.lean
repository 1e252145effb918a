import SlmMcpHub.Federation.ChangeNotification

/-!
# The stability of published names

Every sync derives the ids of the servers anew, in the order of the map it is given, and that order
changes with every eviction and every reconnect: what is cached comes first. A name that was
published for one backend can therefore be published for another one later on.

It can only happen where the ids depend on the order, or where an id and a tool name can be cut in
two ways. `Retargetable` says which servers and tools two maps must have for that, in whatever
order, and as long as no synced map has it after an earlier one, every name stays with the backend
it was published for. Servers that ask for different ids get just these, so that nothing is lost by
a `github` next to a `github_2`.

## Main definitions

* `CanBeGiven`, `CanPublish` — what a sync of some servers can come to, in some order
* `Retargetable`

## Main results

* `namesStable_of_reach` — without retargetable maps, no published name changes its backend
* `not_retargetable_of_distinct` — maps in which no ids clash
* `not_namesStable_evicted` — evicting one backend retargets the tool of another one
-/

namespace SlmMcpHub

open Registry

/-- A tool name that leads to a backend after one sync does not lead to another backend after a
later one, if that backend is still in the map with a tool of that name. -/
def KeepsNames (earlier later : SyncRecord) : Prop :=
  ∀ name cap caps cap', earlier.after.lookupTool name = some cap →
    later.servers.get? cap.serverName = some caps →
    cap.originalName ∈ caps.tools.map Definition.name →
    later.after.lookupTool name = some cap' → cap'.serverName = cap.serverName

/-- No published tool name changes its backend between two syncs of a run. -/
def NamesStable (history : List Event) : Prop :=
  (syncs history).Pairwise fun later earlier => KeepsNames earlier later

/-! ### What names there can be -/

/-- A server of the map has a tool. -/
def HasTool (servers : Dict String Capabilities) (server tool : String) : Prop :=
  ∃ caps, servers.get? server = some caps ∧ tool ∈ caps.tools.map Definition.name

/-- An id a server can be given by a sync of these servers, in some order. -/
def CanBeGiven (servers : Dict String Capabilities) (server sid : String) : Prop :=
  ∃ order, order.Perm servers.entries ∧
    ∃ p ∈ assignIds [] order, p.serverName = server ∧ p.serverId = sid

/-- A name that a tool of a server can be published under. -/
def CanPublish (servers : Dict String Capabilities) (server tool name : String) : Prop :=
  HasTool servers server tool ∧ ∃ sid, CanBeGiven servers server sid ∧ name = namespaceName sid tool

/-- A name that a tool of one server can be published under by a sync of one map can be one for
another server by a sync of a later map, which still has the first server with the tool. -/
def Retargetable (earlier later : Dict String Capabilities) : Prop :=
  ∃ name server tool server' tool', server ≠ server' ∧ CanPublish earlier server tool name ∧
    HasTool later server tool ∧ CanPublish later server' tool' name

/-- No sync is given a map that is retargetable after an earlier one. -/
def NoRetargetableSync (w : World hubSignature) (_ : TaskId) (st : Stmt hubSignature) : Prop :=
  st.toAct = .syncRegistry → ∀ r, .synced r ∈ Hub.history w.state →
    ¬ Retargetable r.servers (Hub.syncedMap w.state)

/-- What a sync registers a tool name for. -/
theorem exists_placed_of_lookupTool {r : Registry} {servers : Dict String Capabilities}
    {name : String} {cap : RegisteredCapability}
    (h : (r.sync servers).1.lookupTool name = some cap) :
    ∃ p ∈ assignIds [] servers.entries, ∃ d ∈ p.caps.tools,
      name = namespaceName p.serverId d.name ∧ cap.serverName = p.serverName ∧
        cap.originalName = d.name := by
  have hlast : Dict.lastOf (published .tool servers) name = some cap :=
    (get?_table_sync r servers .tool name).symm.trans h
  obtain ⟨p, hp, d, hd, heq⟩ := mem_published.mp (Dict.lastOf_mem hlast)
  obtain ⟨hname, rfl⟩ := Prod.mk.inj heq
  exact ⟨p, hp, d, hd, hname.symm, rfl, rfl⟩

theorem hasTool_of_mem_assignIds {servers : Dict String Capabilities} {p : Placed} {d : Definition}
    (hp : p ∈ assignIds [] servers.entries) (hd : d ∈ p.caps.tools) :
    HasTool servers p.serverName d.name :=
  ⟨p.caps, Dict.mem_entries_iff.mp (mem_entries_of_mem_assignIds hp), List.mem_map_of_mem hd⟩

/-- What a sync has published can be published. -/
theorem canPublish_of_lookupTool {r : Registry} {servers : Dict String Capabilities}
    {name : String} {cap : RegisteredCapability}
    (h : (r.sync servers).1.lookupTool name = some cap) :
    CanPublish servers cap.serverName cap.originalName name := by
  obtain ⟨p, hp, d, hd, hname, hserver, horiginal⟩ := exists_placed_of_lookupTool h
  rw [hserver, horiginal]
  exact ⟨hasTool_of_mem_assignIds hp hd, p.serverId, ⟨_, .refl _, p, hp, rfl, rfl⟩, hname⟩

/-- A name that changes its backend makes the two maps retargetable. -/
theorem keepsNames_of_not_retargetable {earlier later : SyncRecord} (he : earlier.Faithful)
    (hl : later.Faithful) (h : ¬ Retargetable earlier.servers later.servers) :
    KeepsNames earlier later := by
  intro name cap caps cap' hcap hcaps htool hcap'
  rw [he.after] at hcap
  rw [hl.after] at hcap'
  by_contra hne
  exact h ⟨name, cap.serverName, cap.originalName, cap'.serverName, cap'.originalName,
    fun heq => hne heq.symm, canPublish_of_lookupTool hcap, ⟨caps, hcaps, htool⟩,
    canPublish_of_lookupTool hcap'⟩

/-! ### Runs -/

/-- No sync of the run was given a map that is retargetable after an earlier one. -/
structure SyncsSeparate (s : Hub) : Prop extends SyncsFaithful s where
  separate : (syncs s.history).Pairwise fun later earlier =>
    ¬ Retargetable earlier.servers later.servers

theorem syncsSeparateInvariant : StateInvariant NoRetargetableSync SyncsSeparate where
  act {w t st} h hC hd := by
    refine ⟨syncInvariant.act h.toSyncsFaithful hC hd, ?_⟩
    have hnote : ∀ e, st.toAct = .note e → Announced e := fun e => announced_of_disciplined hd
    rw [history_eval]
    cases hevent : st.toAct.event? w.state with
    | none => exact h.separate
    | some e =>
      cases e with
      | synced r =>
        obtain ⟨hact, rfl⟩ := synced_event hnote hevent
        exact h.separate.cons fun earlier hearlier => hC hact earlier (mem_syncs.mp hearlier)
      | _ => exact h.separate
  clock _ h := ⟨⟨h.registry, h.records⟩, h.separate⟩
  notifier h := ⟨⟨h.registry, h.records⟩, h.separate⟩

/-- **When published names are stable.** In every run in which no sync is given a map that is
retargetable after an earlier one, no published tool name changes its backend, however the other
backends come and go. -/
theorem namesStable_of_reach {config : HubConfig} {cf : Config hubSignature}
    (h : Reach hub NoRetargetableSync (Hub.start config) cf) :
    NamesStable (Hub.history cf.world.state) := by
  have hinv := syncsSeparateInvariant.reach ⟨syncsFaithful_start config, List.Pairwise.nil⟩ h
  refine hinv.separate.imp_of_mem fun hlater hearlier hseparate => ?_
  rw [mem_syncs] at hlater hearlier
  exact keepsNames_of_not_retargetable (hinv.records _ hearlier) (hinv.records _ hlater) hseparate

/-! ### Servers that ask for different ids -/

/-- No two servers of the map ask for one id. -/
def DistinctIds (servers : Dict String Capabilities) : Prop :=
  (servers.entries.map fun e => safeServerId e.1).Nodup

instance (servers : Dict String Capabilities) : Decidable (DistinctIds servers) :=
  inferInstanceAs (Decidable (List.Nodup _))

/-- Servers that ask for different ids get them. -/
theorem serverId_eq_of_nodup : ∀ {l : List (String × Capabilities)} {used : List String},
    (l.map fun e => safeServerId e.1).Nodup → (∀ e ∈ l, safeServerId e.1 ∉ used) →
      ∀ p ∈ assignIds used l, p.serverId = safeServerId p.serverName
  | [], _, _, _, _, hp => absurd hp List.not_mem_nil
  | e :: l, used, hnodup, hfree, p, hp => by
    obtain ⟨hfirst, hrest⟩ := List.nodup_cons.mp hnodup
    have hid : makeUniqueId (safeServerId e.1) used = safeServerId e.1 :=
      if_pos (hfree e List.mem_cons_self)
    rw [assignIds, hid] at hp
    rcases List.mem_cons.mp hp with rfl | hp
    · rfl
    · refine serverId_eq_of_nodup hrest (fun e' he' hused => ?_) p hp
      rcases List.mem_cons.mp hused with heq | hused
      · exact hfirst (List.mem_map.mpr ⟨e', he', heq⟩)
      · exact hfree e' (List.mem_cons_of_mem _ he') hused

theorem DistinctIds.eq_of_canBeGiven {servers : Dict String Capabilities} (h : DistinctIds servers)
    {server sid : String} (hgiven : CanBeGiven servers server sid) : sid = safeServerId server := by
  obtain ⟨order, hperm, p, hp, rfl, rfl⟩ := hgiven
  exact serverId_eq_of_nodup ((hperm.map _).nodup_iff.mpr h) (fun _ _ => List.not_mem_nil) p hp

/-- **Where no ids clash and no name is shared**, nothing can be retargeted. -/
theorem not_retargetable_of_distinct {earlier later : Dict String Capabilities}
    (hearlier : DistinctIds earlier) (hlater : DistinctIds later)
    (hapart : ∀ server tool server' tool', HasTool later server tool →
      HasTool later server' tool' → server ≠ server' →
        namespaceName (safeServerId server) tool ≠ namespaceName (safeServerId server') tool') :
    ¬ Retargetable earlier later := by
  rintro ⟨name, server, tool, server', tool', hne, ⟨-, sid, hsid, hname⟩, htool,
    htool', sid', hsid', hname'⟩
  obtain rfl := hearlier.eq_of_canBeGiven hsid
  obtain rfl := hlater.eq_of_canBeGiven hsid'
  exact hapart server tool server' tool' htool htool' hne (hname.symm.trans hname')

/-! ### A name that moves, and one that stays -/

/-- Servers `a.b` and `a_b`, which ask for one id. -/
def dottedConfig : HubConfig := { mcpServers := [{ name := "a.b" }, { name := "a_b" }] }

/-- Both servers are connected, and `a_b` is evicted. -/
def retargetMoves : List (Move hubSignature) :=
  [.call .connectAll, .resume 0 .ok,
    .resume 1 .ok, .resume 1 .ok, .resume 1 (.connected toolT), .resume 1 .ok,
    .resume 2 .ok, .resume 2 .ok, .resume 2 (.connected toolT), .resume 2 .ok,
    .resume 0 .ok, .call (.evict "a_b"), .resume 4 .ok, .resume 4 .ok]

/-- Where the tool `a_b__t` leads after a sync. -/
def backendOf (r : SyncRecord) : Option (String × String) :=
  (r.after.lookupTool "a_b__t").map fun cap => (cap.serverName, cap.originalName)

/-- The last sync has led `a_b__t` from `a.b` to `a_b`, with `t` still among the tools of `a.b`. -/
def retargeted (s : Hub) : Bool :=
  match syncs s.history with
  | later :: earlier :: _ =>
    backendOf earlier = some ("a.b", "t") &&
      (later.servers.get? "a.b").map toolNames = some ["t"] &&
      backendOf later = some ("a_b", "t")
  | _ => false

theorem not_namesStable_of_retargeted {s : Hub} (h : retargeted s = true) :
    ¬ NamesStable s.history := by
  intro hstable
  rw [retargeted] at h
  split at h
  · next later earlier rest hsyncs =>
    rw [NamesStable, hsyncs, List.pairwise_cons] at hstable
    have hkeeps := hstable.1 earlier List.mem_cons_self
    simp only [Bool.and_eq_true, decide_eq_true_eq, backendOf, Option.map_eq_some_iff] at h
    obtain ⟨⟨⟨cap, hcap, hbackend⟩, caps, hcaps, htools⟩, cap', hcap', hbackend'⟩ := h
    obtain ⟨hserver, horiginal⟩ := Prod.mk.inj hbackend
    have hsame := hkeeps "a_b__t" cap caps cap' hcap (hserver ▸ hcaps)
      (by rw [show caps.tools.map Definition.name = ["t"] from htools, horiginal]; decide) hcap'
    rw [hserver, (Prod.mk.inj hbackend').1] at hsame
    exact absurd hsame (by decide)
  · cases h

/-- Once it has been synced, `a.b` is configured and is connected or cached with its tool `t`. -/
def dottedStays (w : World hubSignature) (_ : TaskId) (_ : Stmt hubSignature) : Bool :=
  let s : Hub := w.state
  !(lastSynced s.history).contains "a.b" || ((s.config.find? "a.b").isSome &&
    (s.syncedMap.get? "a.b").map toolNames = some ["t"])

/-- Evicting `a_b` retargets the tool of `a.b`, which is there all the time. -/
theorem not_namesStable_evicted :
    ∃ cf, Reach hub (fun w t st => dottedStays w t st = true) (Hub.start dottedConfig) cf ∧
      retargeted cf.world.state = true ∧ ¬ NamesStable (Hub.history cf.world.state) := by
  obtain ⟨cf, hreach, h⟩ := exists_reach (P := retargeted) dottedStays dottedConfig retargetMoves
    (fun _ h => h) (by decide +kernel)
  exact ⟨cf, hreach, h, not_namesStable_of_retargeted h⟩

/-- Servers `github` and `github_2`, of which the second is what a second `github` would be
called. -/
def numberedConfig : HubConfig := { mcpServers := [{ name := "github" }, { name := "github_2" }] }

/-- Both servers are connected, `github_2` is evicted, which brings it to the front of the map, and
comes back. -/
def evictionMoves : List (Move hubSignature) :=
  [.call .connectAll, .resume 0 .ok,
    .resume 1 .ok, .resume 1 .ok, .resume 1 (.connected toolT), .resume 1 .ok,
    .resume 2 .ok, .resume 2 .ok, .resume 2 (.connected toolT), .resume 2 .ok,
    .resume 0 .ok, .call (.evict "github_2"), .resume 4 .ok, .resume 4 .ok,
    .call (.ensureConnected "github_2"), .resume 5 .ok, .resume 5 .ok,
    .resume 5 (.connected toolT), .resume 5 .ok]

/-- The servers of a map ask for different ids, and no two of them have a tool under one name. -/
def apart (servers : Dict String Capabilities) : Bool :=
  DistinctIds servers &&
    servers.entries.all fun e => servers.entries.all fun e' => e.1 = e'.1 ||
      (e.2.tools.all fun d => e'.2.tools.all fun d' =>
        namespaceName (safeServerId e.1) d.name != namespaceName (safeServerId e'.1) d'.name)

/-- Every sync is given servers that are apart. -/
def apartSyncs (w : World hubSignature) (_ : TaskId) (st : Stmt hubSignature) : Bool :=
  match st.toAct with
  | .syncRegistry =>
    apart (Hub.syncedMap w.state) && (syncs (Hub.history w.state)).all fun r => apart r.servers
  | _ => true

theorem noRetargetableSync_of_apartSyncs {w : World hubSignature} {t : TaskId}
    {st : Stmt hubSignature} (h : apartSyncs w t st = true) : NoRetargetableSync w t st := by
  intro hact r hr
  rw [apartSyncs, hact] at h
  obtain ⟨hlater, hall⟩ := Bool.and_eq_true_iff.mp h
  have hearlier := List.all_eq_true.mp hall r (mem_syncs.mpr hr)
  simp only [apart, Bool.and_eq_true, decide_eq_true_eq] at hlater hearlier
  refine not_retargetable_of_distinct hearlier.1 hlater.1 ?_
  rintro server tool server' tool' ⟨caps, hcaps, htool⟩ ⟨caps', hcaps', htool'⟩ hne
  obtain ⟨d, hd, rfl⟩ := List.mem_map.mp htool
  obtain ⟨d', hd', rfl⟩ := List.mem_map.mp htool'
  have hpair := List.all_eq_true.mp (List.all_eq_true.mp hlater.2 _
    (Dict.mem_entries_iff.mpr hcaps)) _ (Dict.mem_entries_iff.mpr hcaps')
  rw [Bool.or_eq_true, decide_eq_true_eq] at hpair
  have hnames := List.all_eq_true.mp (List.all_eq_true.mp (hpair.resolve_left hne) d hd) d' hd'
  exact bne_iff_ne.mp hnames

/-- The order of the map a sync was given, and where the tool names of the two servers led. -/
def numberedBackends (r : SyncRecord) : List String × List (Option String) :=
  (r.servers.keys, ["github__t", "github_2__t"].map fun name =>
    (r.after.lookupTool name).map RegisteredCapability.serverName)

/-- Each of the two servers keeps the name of its tool while the order of the map changes. -/
theorem namesStable_of_reach_comeback : ∃ cf, Reach hub NoRetargetableSync
      (Hub.start numberedConfig) cf ∧
    (syncs (Hub.history cf.world.state)).map numberedBackends =
      [(["github", "github_2"], [some "github", some "github_2"]),
        (["github_2", "github"], [some "github", some "github_2"]),
        (["github", "github_2"], [some "github", some "github_2"]),
        (["github"], [some "github", none])] ∧
    NamesStable (Hub.history cf.world.state) := by
  obtain ⟨cf, hreach, h⟩ := exists_reach
    (P := fun s => (syncs s.history).map numberedBackends =
      [(["github", "github_2"], [some "github", some "github_2"]),
        (["github_2", "github"], [some "github", some "github_2"]),
        (["github", "github_2"], [some "github", some "github_2"]),
        (["github"], [some "github", none])])
    apartSyncs numberedConfig evictionMoves (fun _ => noRetargetableSync_of_apartSyncs)
    (by decide +kernel)
  exact ⟨cf, hreach, of_decide_eq_true h, namesStable_of_reach hreach⟩

end SlmMcpHub
