import SlmMcpHub.Core.ChangeFlag
import SlmMcpHub.Federation.Runs
import SlmMcpHub.Library.CoroutineRun

/-!
# Change notifications

`_sync_registry` fires the notifier when the registry says that something has changed. In every run
the registry holds what the last synced map published, so what the notifier misses is what the flag
of the registry misses: a silent upgrade.

## Main results

* `syncInvariant` — every sync of a run starts from what the sync before it published
* `notified_of_change_iff` — when clients learn of a change
-/

namespace SlmMcpHub

open Registry

/-- A sync did what `_sync_registry` does, to a registry that held what it was built from. -/
structure SyncRecord.Faithful (r : SyncRecord) : Prop where
  before : r.before.Publishes r.previous
  after : r.after = (r.before.sync r.servers).1
  notified : r.notified = ((r.before.sync r.servers).2 && r.attached)

/-- The registry holds what the last synced map published, and so it was at every sync. -/
structure SyncsFaithful (s : Hub) : Prop where
  registry : s.registry.Publishes (lastSynced s.history)
  records : ∀ r, .synced r ∈ s.history → r.Faithful

theorem SyncsFaithful.syncRecord {s : Hub} (h : SyncsFaithful s) : s.syncRecord.Faithful :=
  ⟨h.registry, rfl, rfl⟩

/-- Only a sync, and the end of the manager, change what the registry was last built from. -/
theorem lastSynced_eval {s : Hub} {a : Act} (hsync : a ≠ .syncRegistry) (hclose : a ≠ .closeAll)
    (hnote : ∀ e, a = .note e → Announced e) :
    lastSynced (a.eval s).history = lastSynced s.history := by
  rw [history_eval]
  cases a with
  | syncRegistry => exact absurd rfl hsync
  | closeAll => exact absurd rfl hclose
  | note e => cases hnote e rfl <;> rfl
  | connectReturned x =>
    rw [Act.event?]
    split <;> rfl
  | cacheCapabilities name =>
    rw [Act.event?]
    cases (s.connections.get? name).filter fun x => s.isConnected x <;> rfl
  | _ => rfl

/-- Only a sync is remembered as one. -/
theorem synced_event {s : Hub} {a : Act} {r : SyncRecord}
    (hnote : ∀ e, a = .note e → Announced e) (h : a.event? s = some (.synced r)) :
    a = .syncRegistry ∧ r = s.syncRecord := by
  cases a with
  | syncRegistry => exact ⟨rfl, (Event.synced.inj (Option.some.inj h)).symm⟩
  | note e =>
    obtain rfl := Option.some.inj h
    cases hnote _ rfl
  | connectReturned x =>
    rw [Act.event?] at h
    split at h <;> cases h
  | cacheCapabilities name =>
    rw [Act.event?, Option.map_eq_some_iff] at h
    obtain ⟨x, -, h⟩ := h
    cases h
  | _ => cases h

theorem syncInvariant {C : World hubSignature → TaskId → Stmt hubSignature → Prop} :
    StateInvariant C SyncsFaithful where
  act {w t st} h _ hd := by
    have hnote : ∀ e, st.toAct = .note e → Announced e := fun e => announced_of_disciplined hd
    refine ⟨?_, fun r hr => ?_⟩
    · rw [Act.registry_eval]
      by_cases hsync : st.toAct = .syncRegistry
      · rw [hsync]
        exact publishes_sync _ _
      by_cases hclose : st.toAct = .closeAll
      · rw [hclose]
        exact publishes_empty
      rw [lastSynced_eval hsync hclose hnote]
      have hsame : st.toAct.registry w.state = Hub.registry w.state := by
        cases hact : st.toAct with
        | syncRegistry => exact absurd hact hsync
        | closeAll => exact absurd hact hclose
        | _ => rfl
      rw [hsame]
      exact h.registry
    · rcases mem_history_eval.mp hr with hevent | hold
      · exact (synced_event hnote hevent).2 ▸ h.syncRecord
      · exact h.records r hold
  clock _ h := ⟨h.registry, h.records⟩
  notifier h := ⟨h.registry, h.records⟩

theorem syncsFaithful_start (config : HubConfig) : SyncsFaithful (Hub.start config) :=
  ⟨publishes_empty, nofun⟩

/-- A call of `sync` that returns `False` leaves everything registered as it was, and a sync of the
manager that leaves it different tells the notifier. -/
theorem SyncRecord.Faithful.notified_iff {r : SyncRecord} (h : r.Faithful)
    (hattached : r.attached = true) :
    (¬ SameRegistered r.before r.after → r.notified = true) ↔
      ¬ SilentUpgrade r.previous r.servers := by
  rw [← h.before.unchanged_of_flag_iff, h.after, h.notified, hattached, Bool.and_true]
  constructor
  · intro hnotified hflag
    by_contra hchanged
    rw [hnotified hchanged] at hflag
    cases hflag
  · intro hsame hchanged
    by_contra hflag
    exact hchanged (hsame (Bool.eq_false_iff.mpr hflag))

/-- **When clients learn of a change.** After any sequence of syncs, a further call either returns
`True` or leaves everything registered as it was, exactly when it is not a silent upgrade of the map
before it. In every run of the hub, a sync that changes what is registered while a notifier is
attached fires it, exactly when it is not a silent upgrade of what was synced before. -/
theorem notified_of_change_iff (maps : List (Dict String Capabilities))
    (next : Dict String Capabilities) {config : HubConfig} {cf : Config hubSignature}
    (hreach : Reach hub anyStep (Hub.start config) cf) :
    ((((syncAll maps).sync next).2 = false →
        SameRegistered (syncAll maps) ((syncAll maps).sync next).1) ↔
      ¬ SilentUpgrade (lastMap maps) next) ∧
    ∀ r, .synced r ∈ Hub.history cf.world.state → r.attached = true →
      ((¬ SameRegistered r.before r.after → r.notified = true) ↔
        ¬ SilentUpgrade r.previous r.servers) := by
  refine ⟨(publishes_syncAll maps).unchanged_of_flag_iff, fun r hr hattached => ?_⟩
  have hfaithful := syncInvariant.reach (syncsFaithful_start config) hreach
  exact (hfaithful.records r hr).notified_iff hattached

/-! ### An upgrade that is missed -/

/-- A tool `t` with a description. -/
def describedTool (description : String) : Capabilities :=
  { tools := [{ name := "t", fields := [("description", .str description)] }] }

/-- A server `a` with that tool. -/
def describedServer (description : String) : Dict String Capabilities :=
  ⟨[("a", describedTool description)], by simp⟩

/-- The descriptions a client finds under `a__t`. -/
def descriptions (r : Registry) : List String :=
  ((r.lookupTool "a__t").map fun cap => cap.definition.fields.map fun
    | (_, .str description) => description
    | _ => "").getD []

theorem not_sameRegistered_of_descriptions {r r' : Registry}
    (h : descriptions r ≠ descriptions r') : ¬ SameRegistered r r' := by
  intro hsame
  have hlookup : r.lookupTool "a__t" = r'.lookupTool "a__t" := hsame .tool "a__t"
  rw [descriptions, descriptions, hlookup] at h
  exact h rfl

/-- The server `a` is connected, upgraded, and connected again, all with a notifier attached. -/
def upgradeMoves : List (Move hubSignature) :=
  [.tick (.setNotifier true), .call .connectAll, .resume 0 .ok, .resume 1 .ok, .resume 1 .ok,
    .resume 1 (.connected (describedTool "old")), .resume 1 .ok, .resume 0 .ok,
    .call (.reconnect "a"), .resume 3 .ok, .resume 3 .ok, .resume 3 .ok,
    .resume 3 (.connected (describedTool "new")), .resume 3 .ok]

/-- A sync with a notifier attached changed the description and told nobody. -/
def missesUpgrade (s : Hub) : Bool :=
  (syncs s.history).any fun r =>
    r.attached && !r.notified && descriptions r.before ≠ descriptions r.after

theorem exists_missesUpgrade : ∃ cf, Reach hub anyStep
    (Hub.start { mcpServers := [{ name := "a" }] }) cf ∧ missesUpgrade cf.world.state = true :=
  exists_reach (fun _ _ _ => true) _ upgradeMoves (fun _ _ => trivial) (by decide +kernel)

/-- Both halves of `notified_of_change_iff` speak of runs there are. -/
theorem notified_of_change_iff_upgrade :
    ((((syncAll [describedServer "old"]).sync (describedServer "new")).2 = false →
        SameRegistered (syncAll [describedServer "old"])
          ((syncAll [describedServer "old"]).sync (describedServer "new")).1) ↔
      ¬ SilentUpgrade (describedServer "old") (describedServer "new")) ∧
    ∃ cf, Reach hub anyStep (Hub.start { mcpServers := [{ name := "a" }] }) cf ∧
      ∃ r, .synced r ∈ Hub.history cf.world.state ∧ r.attached = true ∧
        ((¬ SameRegistered r.before r.after → r.notified = true) ↔
          ¬ SilentUpgrade r.previous r.servers) := by
  obtain ⟨cf, hreach, hmisses⟩ := exists_missesUpgrade
  obtain ⟨hflag, hnotified⟩ := notified_of_change_iff [describedServer "old"]
    (describedServer "new") hreach
  refine ⟨hflag, cf, hreach, ?_⟩
  obtain ⟨r, hr, hP⟩ := List.any_eq_true.mp hmisses
  rw [Bool.and_eq_true, Bool.and_eq_true] at hP
  have hmem := mem_syncs.mp hr
  exact ⟨r, hmem, hP.1.1, hnotified r hmem hP.1.1⟩

/-- The flag misses a new description, and the notifier is not told of it. -/
theorem flag_misses_upgrade :
    (((syncAll [describedServer "old"]).sync (describedServer "new")).2 = false ∧
      ¬ SameRegistered (syncAll [describedServer "old"])
        ((syncAll [describedServer "old"]).sync (describedServer "new")).1) ∧
    ∃ cf, Reach hub anyStep (Hub.start { mcpServers := [{ name := "a" }] }) cf ∧
      ∃ r, .synced r ∈ Hub.history cf.world.state ∧ r.attached = true ∧
        ¬ SameRegistered r.before r.after ∧ r.notified = false := by
  refine ⟨⟨by decide +kernel, not_sameRegistered_of_descriptions (by decide +kernel)⟩, ?_⟩
  obtain ⟨cf, hreach, hmisses⟩ := exists_missesUpgrade
  obtain ⟨r, hr, hP⟩ := List.any_eq_true.mp hmisses
  simp only [Bool.and_eq_true, Bool.not_eq_true', decide_eq_true_eq] at hP
  exact ⟨cf, hreach, r, mem_syncs.mp hr, hP.1.1, not_sameRegistered_of_descriptions hP.2, hP.1.2⟩

end SlmMcpHub
