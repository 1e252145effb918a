import SlmMcpHub.Core.Config

/-!
# The difference of two configurations

`lifecycle/config_diff.py`: the servers a reload adds, removes and replaces. Two configurations of a
server are told apart by a digest of some of their fields. What the other fields say is not part of
the difference, and an edit of one of them is lost.

## Main definitions

* `fingerprint`, `diffConfigs`
* `Verdict`, `verdict` — what becomes of a name, given what is enabled under it before and after
* `ConfigDiff.patch` — a table of servers after a difference

## Main results

* `mem_names_iff` — the four parts of a difference, by the verdict on a name
* `leads_iff` — when a difference leads from one configuration to the other
-/

namespace SlmMcpHub

/-- `ConfigDiff` -/
structure ConfigDiff where
  added : List MCPServerConfig := []
  removed : List String := []
  modified : List MCPServerConfig := []
  unchanged : List String := []
deriving DecidableEq

/-- `is_empty` -/
def ConfigDiff.isEmpty (d : ConfigDiff) : Bool :=
  d.added = [] && d.removed = [] && d.modified = []

/-- `change_count` -/
def ConfigDiff.changeCount (d : ConfigDiff) : ℕ :=
  d.added.length + d.removed.length + d.modified.length

/-- `dict(sorted(mapping.items()))` -/
def sortedItems (m : Dict String String) : Json :=
  .obj ((m.entries.mergeSort fun a b => a.1 ≤ b.1).map fun e => (e.1, .str e.2))

/-- What a fingerprint is a digest of. -/
def fingerprintPayload (server : MCPServerConfig) : Json :=
  .obj [("transport", .str server.transport.value), ("command", .str server.command),
    ("args", .arr (server.args.map .str)), ("env", sortedItems server.env),
    ("url", .str server.url), ("headers", sortedItems server.headers),
    ("enabled", .bool server.enabled)]

/-- `_fingerprint` -/
def fingerprint (R : Runtime) (server : MCPServerConfig) : String :=
  R.digest (fingerprintPayload server)

/-- `{s.name: s for s in config.mcp_servers}` -/
def HubConfig.byName (config : HubConfig) : Dict String MCPServerConfig :=
  Dict.empty.setAll (config.mcpServers.map fun s => (s.name, s))

/-- One turn of the loop over the new servers. -/
def diffStep (R : Runtime) (oldByName : Dict String MCPServerConfig) (d : ConfigDiff)
    (e : String × MCPServerConfig) : ConfigDiff :=
  let old := oldByName.get? e.1
  if e.2.enabled then
    match old with
    | none => { d with added := d.added ++ [e.2] }
    | some old =>
      if old.enabled then
        if fingerprint R old ≠ fingerprint R e.2 then
          { d with modified := d.modified ++ [e.2] }
        else { d with unchanged := d.unchanged ++ [e.1] }
      else { d with added := d.added ++ [e.2] }
  else if old.any (·.enabled) then { d with removed := d.removed ++ [e.1] }
  else d

/-- `diff_configs` -/
def diffConfigs (R : Runtime) (old new : HubConfig) : ConfigDiff :=
  let d := new.byName.entries.foldl (diffStep R old.byName) {}
  let gone := old.byName.entries.filter fun e => !new.byName.contains e.1 && e.2.enabled
  { d with removed := d.removed ++ gone.map Prod.fst }

/-! ### Verdicts -/

/-- What becomes of a name. -/
inductive Verdict where
  | added
  | removed
  | modified
  | unchanged
  deriving DecidableEq

/-- The verdict, given what is enabled under a name before and after. -/
def verdict (R : Runtime) : Option MCPServerConfig → Option MCPServerConfig → Option Verdict
  | none, none => none
  | none, some _ => some .added
  | some _, none => some .removed
  | some old, some new =>
    some (if fingerprint R old = fingerprint R new then .unchanged else .modified)

/-- The enabled server of a configuration under a name. -/
def HubConfig.enabled? (config : HubConfig) (name : String) : Option MCPServerConfig :=
  (config.byName.get? name).filter (·.enabled)

/-- The names in one of the parts of a difference. -/
def ConfigDiff.part (d : ConfigDiff) : Verdict → List String
  | .added => d.added.map (·.name)
  | .removed => d.removed
  | .modified => d.modified.map (·.name)
  | .unchanged => d.unchanged

/-- The names in a difference. -/
def ConfigDiff.names (d : ConfigDiff) : List String :=
  d.part .added ++ d.part .removed ++ d.part .modified ++ d.part .unchanged

theorem name_of_mem_byName {config : HubConfig} {e : String × MCPServerConfig}
    (h : e ∈ config.byName.entries) : e.2.name = e.1 := by
  have hget := Dict.mem_entries_iff.mp h
  rw [HubConfig.byName, Dict.get?_setAll, Dict.get?_empty, Option.or_none] at hget
  obtain ⟨s, -, hs⟩ := List.mem_map.mp (Dict.lastOf_mem hget)
  obtain ⟨hname, hs⟩ := Prod.mk.inj hs
  rw [← hs, hname]

/-- An enabled server is one of the configuration. -/
theorem mem_of_enabled? {config : HubConfig} {name : String} {s : MCPServerConfig}
    (h : config.enabled? name = some s) :
    s ∈ config.mcpServers ∧ s.name = name ∧ s.enabled = true := by
  obtain ⟨hget, henabled⟩ := Option.filter_eq_some_iff.mp h
  have hname := name_of_mem_byName (Dict.mem_entries_iff.mpr hget)
  rw [HubConfig.byName, Dict.get?_setAll, Dict.get?_empty, Option.or_none] at hget
  obtain ⟨t, ht, heq⟩ := List.mem_map.mp (Dict.lastOf_mem hget)
  obtain ⟨-, rfl⟩ := Prod.mk.inj heq
  exact ⟨ht, hname, henabled⟩

section Diff

variable (R : Runtime) (old : HubConfig)

/-- The verdict on an entry of the new configuration. -/
def entryVerdict (e : String × MCPServerConfig) : Option Verdict :=
  verdict R (old.enabled? e.1) (some e.2 |>.filter (·.enabled))

/-- The entries of the new configuration with a verdict. -/
def entriesWith (v : Verdict) (l : List (String × MCPServerConfig)) :
    List (String × MCPServerConfig) :=
  l.filter fun e => entryVerdict R old e = some v

variable {R old}

theorem entriesWith_cons (v : Verdict) (e : String × MCPServerConfig)
    (l : List (String × MCPServerConfig)) :
    entriesWith R old v (e :: l) =
      if entryVerdict R old e = some v then e :: entriesWith R old v l
      else entriesWith R old v l := by
  simp only [entriesWith, List.filter_cons, decide_eq_true_eq]

/-- A turn of the loop goes by the verdict. -/
theorem diffStep_eq (d : ConfigDiff) (e : String × MCPServerConfig) :
    diffStep R old.byName d e =
      match entryVerdict R old e with
      | none => d
      | some .added => { d with added := d.added ++ [e.2] }
      | some .removed => { d with removed := d.removed ++ [e.1] }
      | some .modified => { d with modified := d.modified ++ [e.2] }
      | some .unchanged => { d with unchanged := d.unchanged ++ [e.1] } := by
  rw [diffStep, entryVerdict, HubConfig.enabled?]
  cases old.byName.get? e.1 with
  | none => cases hnew : e.2.enabled <;> simp [Option.filter_some, verdict, hnew]
  | some o =>
    by_cases hfp : fingerprint R o = fingerprint R e.2 <;>
      cases hnew : e.2.enabled <;> cases ho : o.enabled <;>
      simp [Option.filter_some, verdict, hnew, ho, hfp]

/-- What the loop collects. -/
theorem foldl_diffStep (l : List (String × MCPServerConfig)) (d : ConfigDiff) :
    l.foldl (diffStep R old.byName) d =
      { added := d.added ++ (entriesWith R old .added l).map Prod.snd
        removed := d.removed ++ (entriesWith R old .removed l).map Prod.fst
        modified := d.modified ++ (entriesWith R old .modified l).map Prod.snd
        unchanged := d.unchanged ++ (entriesWith R old .unchanged l).map Prod.fst } := by
  induction l generalizing d with
  | nil => simp [entriesWith]
  | cons e l ih =>
    rw [List.foldl_cons, ih, diffStep_eq]
    simp only [entriesWith_cons]
    cases h : entryVerdict R old e with
    | none => simp
    | some v => cases v <;> simp

/-! ### The parts of a difference -/

variable (R old) (new : HubConfig)

/-- The names that are in the old configuration only, and enabled. -/
def goneNames : List String :=
  (old.byName.entries.filter fun e => !new.byName.contains e.1 && e.2.enabled).map Prod.fst

theorem part_diffConfigs (v : Verdict) :
    (diffConfigs R old new).part v = (entriesWith R old v new.byName.entries).map Prod.fst ++
      if v = .removed then goneNames old new else [] := by
  have hnames : ∀ l : List (String × MCPServerConfig), (∀ e ∈ l, e ∈ new.byName.entries) →
      (l.map Prod.snd).map (·.name) = l.map Prod.fst := by
    intro l hl
    rw [List.map_map]
    exact List.map_congr_left fun e he => name_of_mem_byName (hl e he)
  have hmem : ∀ v, ∀ e ∈ entriesWith R old v new.byName.entries, e ∈ new.byName.entries :=
    fun v e he => (List.mem_filter.mp he).1
  rw [diffConfigs, foldl_diffStep]
  cases v
  · simp [ConfigDiff.part, hnames _ (hmem .added)]
  · simp [ConfigDiff.part, goneNames]
  · simp [ConfigDiff.part, hnames _ (hmem .modified)]
  · simp [ConfigDiff.part]

/-- **The parts of a difference**, by the verdict on a name. -/
theorem mem_part_iff (v : Verdict) (name : String) :
    name ∈ (diffConfigs R old new).part v ↔
      verdict R (old.enabled? name) (new.enabled? name) = some v := by
  rw [part_diffConfigs, List.mem_append]
  have hloop : name ∈ (entriesWith R old v new.byName.entries).map Prod.fst ↔
      ∃ s, new.byName.get? name = some s ∧
        verdict R (old.enabled? name) (Option.filter (·.enabled) (some s)) = some v := by
    simp only [entriesWith, List.mem_map, List.mem_filter, decide_eq_true_eq, Prod.exists,
      exists_and_right, exists_eq_right, Dict.mem_entries_iff]
    rfl
  have hgone : name ∈ goneNames old new ↔
      new.byName.get? name = none ∧ ∃ o, old.enabled? name = some o := by
    simp only [goneNames, List.mem_map, List.mem_filter, Bool.and_eq_true, Prod.exists,
      exists_and_right, exists_eq_right, Dict.mem_entries_iff, Dict.contains, Bool.not_eq_true',
      Option.isSome_eq_false_iff, Option.isNone_iff_eq_none, HubConfig.enabled?,
      Option.filter_eq_some_iff]
    grind
  rw [hloop]
  have hnew : new.enabled? name = (new.byName.get? name).filter (·.enabled) := rfl
  cases hget : new.byName.get? name with
  | some s =>
    have hnot : name ∉ goneNames old new := fun h => by simpa [hget] using hgone.mp h
    rw [hnew, hget]
    by_cases hv : v = .removed <;> simp [hv, hnot]
  | none =>
    rw [hnew, hget]
    cases hold : old.enabled? name with
    | none =>
      have hnot : name ∉ goneNames old new := fun h => by simpa [hold] using hgone.mp h
      by_cases hv : v = .removed <;> simp [hv, hnot, verdict]
    | some o =>
      have hin : name ∈ goneNames old new := hgone.mpr ⟨hget, o, hold⟩
      by_cases hv : v = .removed <;> simp [hv, hin, verdict, eq_comm]

theorem nodup_part (v : Verdict) : ((diffConfigs R old new).part v).Nodup := by
  have hloop : ((entriesWith R old v new.byName.entries).map Prod.fst).Nodup :=
    (List.filter_sublist.map Prod.fst).nodup new.byName.nodup
  rw [part_diffConfigs]
  by_cases hv : v = .removed
  · rw [if_pos hv]
    refine List.nodup_append.mpr ⟨hloop, (List.filter_sublist.map Prod.fst).nodup old.byName.nodup,
      ?_⟩
    rintro name hname _ hgone rfl
    obtain ⟨e, he, rfl⟩ := List.mem_map.mp hname
    obtain ⟨e', he', heq⟩ := List.mem_map.mp hgone
    have hget := Dict.mem_entries_iff.mp (List.mem_filter.mp he).1
    have hnot := (List.mem_filter.mp he').2
    rw [heq, Dict.contains, hget] at hnot
    cases hnot
  · rw [if_neg hv, List.append_nil]
    exact hloop

/-- A name is in one part of a difference only, and once. -/
theorem nodup_names : (diffConfigs R old new).names.Nodup := by
  have hdisjoint : ∀ {v v'}, v ≠ v' → ∀ name ∈ (diffConfigs R old new).part v,
      name ∉ (diffConfigs R old new).part v' := by
    intro v v' hne name h h'
    rw [mem_part_iff] at h h'
    exact hne (Option.some.inj (h.symm.trans h'))
  simp only [ConfigDiff.names, List.nodup_append, List.mem_append, nodup_part, true_and]
  refine ⟨⟨?_, ?_⟩, ?_⟩
  · rintro a ha b hb rfl
    exact hdisjoint (by decide) _ ha hb
  · rintro a (ha | ha) b hb rfl
    · exact hdisjoint (by decide) _ ha hb
    · exact hdisjoint (by decide) _ ha hb
  · rintro a ((ha | ha) | ha) b hb rfl
    · exact hdisjoint (by decide) _ ha hb
    · exact hdisjoint (by decide) _ ha hb
    · exact hdisjoint (by decide) _ ha hb

/-- The names in a difference are those that are enabled before or after. -/
theorem mem_names_iff (name : String) :
    name ∈ (diffConfigs R old new).names ↔
      (∃ s, old.enabled? name = some s) ∨ ∃ s, new.enabled? name = some s := by
  simp only [ConfigDiff.names, List.mem_append, mem_part_iff]
  cases old.enabled? name with
  | none => cases new.enabled? name <;> simp [verdict]
  | some o =>
    cases new.enabled? name with
    | none => simp [verdict]
    | some s => by_cases hfp : fingerprint R o = fingerprint R s <;> simp [verdict, hfp]

/-- The servers that are added or replace others are those of the new configuration. -/
theorem enabled?_of_mem {s : MCPServerConfig}
    (h : s ∈ (diffConfigs R old new).added ∨ s ∈ (diffConfigs R old new).modified) :
    new.enabled? s.name = some s := by
  have hentry : ∀ v ≠ Verdict.removed, s ∈ (entriesWith R old v new.byName.entries).map Prod.snd →
      new.enabled? s.name = some s := by
    intro v hv hs
    obtain ⟨e, he, rfl⟩ := List.mem_map.mp hs
    obtain ⟨hmem, hverdict⟩ := List.mem_filter.mp he
    rw [HubConfig.enabled?, name_of_mem_byName hmem, Dict.mem_entries_iff.mp hmem]
    refine Option.filter_eq_some_iff.mpr ⟨rfl, ?_⟩
    by_contra hdisabled
    rw [entryVerdict, Option.filter_some, if_neg hdisabled, decide_eq_true_eq] at hverdict
    cases hold : old.enabled? e.1 with
    | none => rw [hold] at hverdict; cases hverdict
    | some o => rw [hold] at hverdict; exact hv (Option.some.inj hverdict).symm
  rw [diffConfigs, foldl_diffStep] at h
  rcases h with h | h
  · exact hentry .added (by decide) (by simpa using h)
  · exact hentry .modified (by decide) (by simpa using h)

/-- A difference is empty when every name keeps what is enabled under it. -/
theorem isEmpty_diffConfigs_iff : (diffConfigs R old new).isEmpty ↔ ∀ v ≠ .unchanged, ∀ name,
    verdict R (old.enabled? name) (new.enabled? name) ≠ some v := by
  have hparts : (diffConfigs R old new).isEmpty ↔
      ∀ v ≠ .unchanged, (diffConfigs R old new).part v = [] := by
    simp only [ConfigDiff.isEmpty, Bool.and_eq_true, decide_eq_true_eq]
    constructor
    · rintro ⟨⟨hadded, hremoved⟩, hmodified⟩ v hv
      cases v with
      | added => rw [ConfigDiff.part, hadded]; rfl
      | removed => exact hremoved
      | modified => rw [ConfigDiff.part, hmodified]; rfl
      | unchanged => exact absurd rfl hv
    · intro h
      exact ⟨⟨List.map_eq_nil_iff.mp (h .added (by decide)), h .removed (by decide)⟩,
        List.map_eq_nil_iff.mp (h .modified (by decide))⟩
  rw [hparts]
  refine forall_congr' fun v => forall_congr' fun _ => ?_
  rw [List.eq_nil_iff_forall_not_mem]
  exact forall_congr' fun name => not_congr (mem_part_iff R old new v name)

end Diff

/-! ### From one configuration to the other -/

/-- The names of a configuration are unique. -/
def HubConfig.UniqueNames (config : HubConfig) : Prop := (config.mcpServers.map (·.name)).Nodup

/-- `{s.name: s for s in config.mcp_servers if s.enabled}` -/
def HubConfig.enabledMap (config : HubConfig) : Dict String MCPServerConfig :=
  Dict.empty.setAll ((config.mcpServers.filter (·.enabled)).map fun s => (s.name, s))

/-- A table of servers with the removed names deleted, the modified servers replaced and the added
ones inserted. -/
def ConfigDiff.patch (d : ConfigDiff) (m : Dict String MCPServerConfig) :
    Dict String MCPServerConfig :=
  let kept := d.removed.foldl Dict.erase m
  let replaced := (d.modified.map fun s => (s.name, s)).foldl
    (fun m e => m.modify e.1 fun _ => e.2) kept
  replaced.setAll (d.added.map fun s => (s.name, s))

theorem get?_enabledMap {config : HubConfig} (h : config.UniqueNames) (name : String) :
    config.enabledMap.get? name = config.enabled? name := by
  have hpairs : ∀ l : List MCPServerConfig, (l.map fun s => (s.name, s)).map Prod.fst =
      l.map (·.name) := fun l => by simp
  refine Option.ext fun s => ?_
  rw [HubConfig.enabledMap, HubConfig.enabled?, HubConfig.byName, Dict.get?_setAll,
    Dict.get?_setAll, Dict.get?_empty, Option.or_none, Option.or_none, Option.filter_eq_some_iff,
    Dict.lastOf_eq_some_iff, Dict.lastOf_eq_some_iff]
  · simp only [List.mem_map, List.mem_filter]
    grind
  · rw [hpairs]
    exact h
  · rw [hpairs]
    exact (List.filter_sublist.map _).nodup h

section Patch

variable (R : Runtime) (old new : HubConfig)

variable {R old new}

/-- What the loop has collected under a name. -/
theorem lastOf_entriesWith {v : Verdict} (hv : v ≠ .removed) (name : String) :
    Dict.lastOf (entriesWith R old v new.byName.entries) name =
      if verdict R (old.enabled? name) (new.enabled? name) = some v then new.enabled? name
      else none := by
  refine Option.ext fun s => ?_
  rw [entriesWith,
    Dict.lastOf_eq_some_iff ((List.filter_sublist.map Prod.fst).nodup new.byName.nodup),
    List.mem_filter, Dict.mem_entries_iff, decide_eq_true_eq, entryVerdict,
    show new.enabled? name = (new.byName.get? name).filter (·.enabled) from rfl]
  -- Only what is enabled gets a verdict other than `removed`.
  have hnone : ∀ o, verdict R o none ≠ some v := by
    intro o h
    cases o with
    | none => cases h
    | some o => exact hv (Option.some.inj h).symm
  cases hget : new.byName.get? name with
  | none => simp [hnone]
  | some t =>
    cases ht : t.enabled with
    | false =>
      simp only [Option.filter_some, ht, Bool.false_eq_true, if_false, hnone, reduceCtorEq,
        iff_false, Option.some.injEq, not_and]
      rintro rfl
      simp [ht, hnone]
    | true =>
      simp only [Option.filter_some, ht, if_true, Option.some.injEq]
      by_cases h : verdict R (old.enabled? name) (some t) = some v
      · simp only [h, if_true, Option.some.injEq]
        constructor
        · exact fun hs => hs.1
        · rintro rfl
          simpa [ht] using h
      · simp only [h, if_false, reduceCtorEq, iff_false, not_and]
        rintro rfl
        simpa [ht] using h

/-- The servers of a part, under their names. -/
theorem map_pair_entriesWith (v : Verdict) :
    ((entriesWith R old v new.byName.entries).map Prod.snd).map (fun s => (s.name, s)) =
      entriesWith R old v new.byName.entries := by
  rw [List.map_map]
  refine (List.map_congr_left fun e he => ?_).trans (List.map_id _)
  rw [Function.comp_apply, name_of_mem_byName (List.mem_filter.mp he).1]
  rfl

/-- **A table after a difference**: what is enabled afterwards, unless the fingerprint has not
changed. -/
theorem get?_patch (hold : old.UniqueNames) (name : String) :
    ((diffConfigs R old new).patch old.enabledMap).get? name =
      if verdict R (old.enabled? name) (new.enabled? name) = some .unchanged then old.enabled? name
      else new.enabled? name := by
  have hadded : (diffConfigs R old new).added.map (fun s => (s.name, s)) =
      entriesWith R old .added new.byName.entries := by
    rw [diffConfigs, foldl_diffStep]
    simpa using map_pair_entriesWith .added
  have hmodified : (diffConfigs R old new).modified.map (fun s => (s.name, s)) =
      entriesWith R old .modified new.byName.entries := by
    rw [diffConfigs, foldl_diffStep]
    simpa using map_pair_entriesWith .modified
  have hremoved := mem_part_iff R old new .removed name
  rw [ConfigDiff.part] at hremoved
  rw [ConfigDiff.patch, Dict.get?_setAll, Dict.get?_foldl_modify, Dict.get?_foldl_erase, hadded,
    hmodified, lastOf_entriesWith (by decide), lastOf_entriesWith (by decide),
    get?_enabledMap hold]
  simp only [hremoved]
  cases ho : old.enabled? name with
  | none => cases hn : new.enabled? name <;> simp [verdict]
  | some o =>
    cases hn : new.enabled? name with
    | none => simp [verdict]
    | some s => by_cases hfp : fingerprint R o = fingerprint R s <;> simp [verdict, hfp]

end Patch

/-! ### What a fingerprint leaves out -/

/-- Two configurations agree in the settings a fingerprint leaves out. -/
structure MCPServerConfig.SamePolicy (a b : MCPServerConfig) : Prop where
  alwaysOn : a.alwaysOn = b.alwaysOn
  noCache : a.noCache = b.noCache
  cost : a.costPerCallCents.value = b.costPerCallCents.value
  auth : a.auth = b.auth
  spawn : a.spawn = b.spawn
  timeoutClass : a.timeoutClass = b.timeoutClass
  maxConcurrency : a.maxConcurrency = b.maxConcurrency

theorem get?_eq_of_sortedItems {m m' : Dict String String} (h : sortedItems m = sortedItems m')
    (k : String) : m.get? k = m'.get? k := by
  have hinj : Function.Injective fun e : String × String => (e.1, Json.str e.2) := by
    rintro ⟨k, v⟩ ⟨k', v'⟩ he
    simpa using he
  have hlists := List.map_injective_iff.mpr hinj (Json.obj.inj h)
  refine Option.ext fun v => ?_
  rw [← Dict.mem_entries_iff, ← Dict.mem_entries_iff, ← List.mem_mergeSort, hlists,
    List.mem_mergeSort]

/-- Two configurations under one name whose fingerprints are of the same are the same when they
agree in what the fingerprint leaves out. -/
theorem same_iff_samePolicy {a b : MCPServerConfig} (hname : a.name = b.name)
    (h : fingerprintPayload a = fingerprintPayload b) : a.Same b ↔ a.SamePolicy b := by
  simp only [fingerprintPayload, Json.obj.injEq, List.cons.injEq, Prod.mk.injEq, true_and,
    Json.str.injEq, Json.arr.injEq, Json.bool.injEq, and_true] at h
  obtain ⟨htransport, hcommand, hargs, henv, hurl, hheaders, henabled⟩ := h
  have ht : a.transport = b.transport :=
    Option.some.inj ((Transport.ofValue?_value a.transport).symm.trans
      (Transport.ofValue?_eq_some_iff.mpr htransport))
  have hargs : a.args = b.args :=
    List.map_injective_iff.mpr (fun _ _ => Json.str.inj) hargs
  constructor
  · intro hsame
    obtain ⟨_, _, _, _, _, _, _, _, halways, hcache, _, hauth, hspawn, htimeout, hconc⟩ :=
      MCPServerConfig.mk.inj hsame.fields
    exact ⟨halways, hcache, hsame.cost, hauth, hspawn, htimeout, hconc⟩
  · rintro ⟨halways, hcache, hcost, hauth, hspawn, htimeout, hconc⟩
    refine ⟨?_, get?_eq_of_sortedItems henv, get?_eq_of_sortedItems hheaders, hcost⟩
    rw [hname, ht, hcommand, hargs, hurl, henabled, halways, hcache, hauth, hspawn, htimeout, hconc]

/-- A difference leads from one configuration to the other: every name that is enabled in one of
them is in one of the four parts, once, and the old servers patched with it are the new ones. -/
structure Leads (R : Runtime) (old new : HubConfig) : Prop where
  nodup : (diffConfigs R old new).names.Nodup
  names : ∀ name, name ∈ (diffConfigs R old new).names ↔
    name ∈ old.enabledMap.keys ∨ name ∈ new.enabledMap.keys
  patch : ∀ name, Option.Rel MCPServerConfig.Same
    (((diffConfigs R old new).patch old.enabledMap).get? name) (new.enabledMap.get? name)

theorem rel_refl (o : Option MCPServerConfig) : Option.Rel MCPServerConfig.Same o o := by
  cases o with
  | none => exact .none
  | some s => exact .some (.refl s)

/-- A server that keeps its fingerprint has to be the same before and after. -/
theorem rel_verdict_iff {R : Runtime} (o n : Option MCPServerConfig) :
    Option.Rel MCPServerConfig.Same (if verdict R o n = some .unchanged then o else n) n ↔
      ∀ a b, o = some a → n = some b → fingerprint R a = fingerprint R b → a.Same b := by
  cases o with
  | none =>
    refine iff_of_true ?_ fun _ _ h => absurd h.symm (Option.some_ne_none _)
    cases n <;> exact rel_refl _
  | some a =>
    cases n with
    | none => exact iff_of_true .none fun _ _ _ h => absurd h.symm (Option.some_ne_none _)
    | some b =>
      by_cases hfp : fingerprint R a = fingerprint R b
      · rw [verdict, if_pos hfp, if_pos rfl]
        constructor
        · intro h a' b' ha hb _
          obtain rfl := Option.some.inj ha
          obtain rfl := Option.some.inj hb
          cases h
          assumption
        · exact fun h => .some (h a b rfl rfl hfp)
      · rw [verdict, if_neg hfp, if_neg (by decide)]
        refine iff_of_true (rel_refl _) fun a' b' ha hb h => ?_
        obtain rfl := Option.some.inj ha
        obtain rfl := Option.some.inj hb
        exact absurd h hfp

/-- **When a difference leads from one configuration to the other**: no server that is enabled in
both has an edit only of settings the fingerprint leaves out. -/
theorem leads_iff {R : Runtime} {old new : HubConfig} (hold : old.UniqueNames)
    (hnew : new.UniqueNames)
    (hdigest : ∀ a ∈ old.mcpServers, ∀ b ∈ new.mcpServers,
      R.digest (fingerprintPayload a) = R.digest (fingerprintPayload b) →
        fingerprintPayload a = fingerprintPayload b) :
    Leads R old new ↔ ∀ name a b, old.enabledMap.get? name = some a →
      new.enabledMap.get? name = some b → fingerprintPayload a = fingerprintPayload b →
        a.SamePolicy b := by
  -- With unique names the two tables hold what the difference goes by.
  have hpatch : ∀ name, Option.Rel MCPServerConfig.Same
      (((diffConfigs R old new).patch old.enabledMap).get? name) (new.enabledMap.get? name) ↔
        ∀ a b, old.enabledMap.get? name = some a → new.enabledMap.get? name = some b →
          fingerprint R a = fingerprint R b → a.Same b := by
    intro name
    rw [get?_patch hold, get?_enabledMap hold, get?_enabledMap hnew, rel_verdict_iff]
  have hsame : ∀ name a b, old.enabledMap.get? name = some a → new.enabledMap.get? name = some b →
      ((fingerprint R a = fingerprint R b → a.Same b) ↔
        (fingerprintPayload a = fingerprintPayload b → a.SamePolicy b)) := by
    intro name a b ha hb
    obtain ⟨hmem, hname, -⟩ := mem_of_enabled? ((get?_enabledMap hold name).symm.trans ha)
    obtain ⟨hmem', hname', -⟩ := mem_of_enabled? ((get?_enabledMap hnew name).symm.trans hb)
    have hpayload : fingerprint R a = fingerprint R b ↔
        fingerprintPayload a = fingerprintPayload b :=
      ⟨hdigest a hmem b hmem', congrArg R.digest⟩
    rw [hpayload]
    exact forall_congr' fun h => same_iff_samePolicy (hname.trans hname'.symm) h
  constructor
  · intro h name a b ha hb
    exact (hsame name a b ha hb).mp ((hpatch name).mp (h.patch name) a b ha hb)
  · intro h
    refine ⟨nodup_names R old new, fun name => ?_, fun name => (hpatch name).mpr fun a b ha hb =>
      (hsame name a b ha hb).mpr (h name a b ha hb)⟩
    rw [mem_names_iff, Dict.mem_keys_iff, Dict.mem_keys_iff, get?_enabledMap hold,
      get?_enabledMap hnew]

/-- A runtime for examples that tells one payload from all others. -/
def eqRuntime : Runtime where
  lower s := s
  repr _ := ""
  loads _ := .error ""
  digest v := if v = fingerprintPayload { name := "a" } then "0" else "1"

/-- A configuration with one server. -/
def oneServer (server : MCPServerConfig) : HubConfig := { mcpServers := [server] }

theorem uniqueNames_oneServer (server : MCPServerConfig) : (oneServer server).UniqueNames :=
  List.nodup_singleton _

theorem leads_iff_command :
    Leads eqRuntime (oneServer { name := "a" }) (oneServer { name := "a", command := "run" }) ↔
      ∀ name a b, (oneServer { name := "a" }).enabledMap.get? name = some a →
        (oneServer { name := "a", command := "run" }).enabledMap.get? name = some b →
          fingerprintPayload a = fingerprintPayload b → a.SamePolicy b := by
  refine leads_iff (uniqueNames_oneServer _) (uniqueNames_oneServer _) fun a ha b _ h => ?_
  obtain rfl := List.mem_singleton.mp ha
  by_contra hne
  have hother : eqRuntime.digest (fingerprintPayload b) = "1" := if_neg fun hb => hne hb.symm
  have hself : eqRuntime.digest (fingerprintPayload { name := "a" }) = "0" := if_pos rfl
  rw [hself, hother] at h
  exact absurd h (by decide)

/-- A server that is to be started lazily is taken for one that has not changed. -/
theorem not_leads_spawn :
    (oneServer { name := "a" }).UniqueNames ∧
      (oneServer { name := "a", spawn := .lazy }).UniqueNames ∧
      ¬ Leads eqRuntime (oneServer { name := "a" })
        (oneServer { name := "a", spawn := .lazy }) := by
  refine ⟨uniqueNames_oneServer _, uniqueNames_oneServer _, fun h => ?_⟩
  have hrel := h.patch "a"
  have hold : (oneServer { name := "a" }).enabled? "a" = some { name := "a" } := rfl
  have hnew : (oneServer { name := "a", spawn := .lazy }).enabled? "a" =
      some { name := "a", spawn := .lazy } := rfl
  have hfp : fingerprint eqRuntime { name := "a" } =
      fingerprint eqRuntime { name := "a", spawn := .lazy } := rfl
  rw [get?_patch (uniqueNames_oneServer _), get?_enabledMap (uniqueNames_oneServer _), hold, hnew,
    verdict, if_pos hfp, if_pos rfl] at hrel
  cases hrel with
  | some hsame => cases congrArg MCPServerConfig.spawn hsame.fields

end SlmMcpHub
