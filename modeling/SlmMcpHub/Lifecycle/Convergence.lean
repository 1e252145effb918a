import SlmMcpHub.Lifecycle.Reloader

/-!
# What a reload leads to

After a reload the difference from the configuration of the manager to the one it was given ought
to be empty, so that the same reload does nothing the second time. The operations of the manager
look at the connections, though, while the difference looks at the entries only: to remove a
backend that has no connection does nothing, nor does it to add one that has an entry already.

## Main definitions

* `Hub.Applicable` — what a reload needs of the manager
* `Converged` — the reload is done

## Main results

* `entry_applyConfig` — the entry of a backend after a reload
* `converged_iff` — when a reload is done after it has run once
-/

namespace SlmMcpHub

open HubOp ConnectionManager ConfigReloader

/-- The entry of a backend after a reload, from its connection and its entry before, the server the
new configuration has enabled under the name, and the verdict on the two. -/
def reloadedEntry (link : Option Bool) (entry new : Option MCPServerConfig) :
    Option Verdict → Option MCPServerConfig
  | some .removed => if link = none then entry else none
  | some .modified => if link = none then entry.or new else new
  | some .added => if link = some true then entry else entry.or new
  | _ => entry

/-- What a reload needs of the connections and of the entries: a backend that is to be removed or
modified has a connection, and one that is to be added has no entry and no connection that is up. -/
structure Hub.Applicable (R : Runtime) (s : Hub) (new : HubConfig) : Prop where
  removed : ∀ n ∈ (diffConfigs R s.config new).removed, s.link n ≠ none
  modified : ∀ cfg ∈ (diffConfigs R s.config new).modified, s.link cfg.name ≠ none
  added : ∀ cfg ∈ (diffConfigs R s.config new).added,
    s.entry cfg.name = none ∧ s.link cfg.name ≠ some true

section Loops

variable {R : Runtime} {new : HubConfig} {t : TaskId} {w w' : World hubSignature}
  {r : Except Exc Unit} {d : ConfigDiff}

/-- The entry `remove_server` leaves. -/
def removedEntry (_ : String) (link : Option Bool) (entry : Option MCPServerConfig) :
    Option MCPServerConfig :=
  if link = none then entry else none

theorem sweeps_applyRemoves (hd : (d.part .removed).Nodup) (hw : Fit t w)
    (h : Executes t (applyRemoves d) w r w') :
    r = .ok () ∧ Sweeps t id removedEntry d.removed w w' := by
  refine sweeps_forEach (fun name w r w' hw h => ?_) (by rwa [List.map_id]) hw h
  obtain ⟨⟨a, rfl⟩, haffects⟩ := affects_removeServer hw h
  exact ⟨nofun, haffects⟩

theorem sweeps_applyModifies (hd : (d.part .modified).Nodup) (hw : Fit t w)
    (h : Executes t (applyModifies d) w r w') :
    r = .ok () ∧ Sweeps t MCPServerConfig.name replacedEntry d.modified w w' :=
  sweeps_forEach (fun _ _ _ _ => affects_replaceServer) hd hw h

theorem sweeps_applyAdds (hd : (d.part .added).Nodup) (hw : Fit t w)
    (h : Executes t (applyAdds d) w r w') :
    r = .ok () ∧ Sweeps t MCPServerConfig.name addedEntry d.added w w' :=
  sweeps_forEach (fun _ _ _ _ => affects_addServer) hd hw h

/-- The three loops of a reload find a backend as the reload did, or leave it alone. -/
theorem entry_of_sweeps {u v : World hubSignature} (hd : d = diffConfigs R (Hub.config w.state) new)
    (hr : Sweeps t id removedEntry d.removed w u)
    (hm : Sweeps t MCPServerConfig.name replacedEntry d.modified u v)
    (ha : Sweeps t MCPServerConfig.name addedEntry d.added v w') (n : String) :
    Hub.entry w'.state n =
      reloadedEntry (Hub.link w.state n) (Hub.entry w.state n) (new.enabled? n)
        (verdict R ((Hub.config w.state).enabled? n) (new.enabled? n)) := by
  have hpart : ∀ v, n ∈ d.part v ↔ _ := hd ▸ fun v => mem_part_iff R (Hub.config w.state) new v n
  have hr' : n ∉ d.part .removed →
      Hub.entry u.state n = Hub.entry w.state n ∧ Hub.link u.state n = Hub.link w.state n :=
    fun h => ⟨hr.entry (by rwa [List.map_id]), hr.link (by rwa [List.map_id])⟩
  cases hverdict : verdict R ((Hub.config w.state).enabled? n) (new.enabled? n) with
  | none =>
    have hnot : ∀ v, n ∉ d.part v := by simp [hpart, hverdict]
    rw [ha.entry (hnot .added), hm.entry (hnot .modified), (hr' (hnot .removed)).1]
    rfl
  | some verdict =>
    have hin := (hpart verdict).mpr hverdict
    have hnot : ∀ v ≠ verdict, n ∉ d.part v :=
      fun v hv hmem => hv (Option.some.inj (((hpart v).mp hmem).symm.trans hverdict))
    cases verdict with
    | added =>
      obtain ⟨cfg, hcfg, rfl⟩ := List.mem_map.mp hin
      obtain ⟨hentry, hlink⟩ := hr' (hnot .removed (by decide))
      rw [ha.own cfg hcfg, hm.link (hnot .modified (by decide)), hlink,
        hm.entry (hnot .modified (by decide)), hentry,
        enabled?_of_mem R _ new (Or.inl (hd ▸ hcfg))]
      rfl
    | removed =>
      rw [ha.entry (hnot .added (by decide)), hm.entry (hnot .modified (by decide))]
      exact hr.own n hin
    | modified =>
      obtain ⟨cfg, hcfg, rfl⟩ := List.mem_map.mp hin
      obtain ⟨hentry, hlink⟩ := hr' (hnot .removed (by decide))
      rw [ha.entry (hnot .added (by decide)), hm.own cfg hcfg, hlink, hentry,
        enabled?_of_mem R _ new (Or.inr (hd ▸ hcfg))]
      rfl
    | unchanged =>
      rw [ha.entry (hnot .added (by decide)), hm.entry (hnot .modified (by decide)),
        (hr' (hnot .removed (by decide))).1]
      rfl

theorem entry_loops (hw : Fit t w) {r : Except Exc ConfigDiff}
    (hd : d = diffConfigs R (Hub.config w.state) new)
    (h : Executes t (do applyRemoves d; applyModifies d; applyAdds d; pure d) w r w') :
    r = .ok d ∧ Fit t w' ∧ ∀ n, Hub.entry w'.state n =
      reloadedEntry (Hub.link w.state n) (Hub.entry w.state n) (new.enabled? n)
        (verdict R ((Hub.config w.state).enabled? n) (new.enabled? n)) := by
  have hnodup : ∀ v, (d.part v).Nodup := hd ▸ nodup_part R (Hub.config w.state) new
  rcases Op.exec_bind.mp h with ⟨_, u, hremoves, h⟩ | ⟨e, hremoves, -⟩
  · have hr := (sweeps_applyRemoves (hnodup _) hw hremoves).2
    rcases Op.exec_bind.mp h with ⟨_, v, hmodifies, h⟩ | ⟨e, hmodifies, -⟩
    · have hm := (sweeps_applyModifies (hnodup _) hr.fit hmodifies).2
      rcases Op.exec_bind.mp h with ⟨_, _, hadds, h⟩ | ⟨e, hadds, -⟩
      · obtain ⟨rfl, rfl⟩ := h
        have ha := (sweeps_applyAdds (hnodup _) hm.fit hadds).2
        exact ⟨rfl, ha.fit, entry_of_sweeps hd hr hm ha⟩
      · cases (sweeps_applyAdds (hnodup _) hm.fit hadds).1
    · cases (sweeps_applyModifies (hnodup _) hr.fit hmodifies).1
  · cases (sweeps_applyRemoves (hnodup _) hw hremoves).1

end Loops

/-! ### The reload -/

section Reload

variable {R : Runtime} {new : HubConfig} {t : TaskId} {l : ℕ} {w w' : World hubSignature}
  {r : Except Exc ConfigDiff}

theorem changeCount_eq_zero {d : ConfigDiff} (h : d.isEmpty) : d.changeCount = 0 := by
  simp only [ConfigDiff.isEmpty, Bool.and_eq_true, decide_eq_true_eq] at h
  obtain ⟨⟨hadded, hremoved⟩, hmodified⟩ := h
  rw [ConfigDiff.changeCount, hadded, hremoved, hmodified]
  rfl

/-- What a reload does under its lock. -/
def underLock (R : Runtime) (new : HubConfig) : HubOp ConfigDiff := do
  let s ← get
  let d := diffConfigs R s.config new
  if d.isEmpty then
    pure d
  else
    applyRemoves d
    applyModifies d
    applyAdds d
    pure d

/-- The entry of a backend that nothing is to be done for. -/
theorem reloadedEntry_of_settled {link : Option Bool} {entry new : Option MCPServerConfig}
    {v : Option Verdict} (h : ∀ v' ≠ .unchanged, v ≠ some v') :
    reloadedEntry link entry new v = entry := by
  cases v with
  | none => rfl
  | some v =>
    have hv : v = .unchanged := by
      by_contra hne
      exact h v hne rfl
    rw [hv]
    rfl

theorem entry_underLock (hw : Fit t w) (h : Executes t (underLock R new) w r w') :
    r = .ok (diffConfigs R (Hub.config w.state) new) ∧ Fit t w' ∧ ∀ n, Hub.entry w'.state n =
      reloadedEntry (Hub.link w.state n) (Hub.entry w.state n) (new.enabled? n)
        (verdict R ((Hub.config w.state).enabled? n) (new.enabled? n)) := by
  change Executes t (if (diffConfigs R (Hub.config w.state) new).isEmpty then
      pure (diffConfigs R (Hub.config w.state) new) else _) w r w' at h
  by_cases hempty : (diffConfigs R (Hub.config w.state) new).isEmpty
  · rw [if_pos hempty] at h
    obtain ⟨rfl, rfl⟩ := h
    refine ⟨rfl, hw, fun n => (reloadedEntry_of_settled fun v hv => ?_).symm⟩
    exact (isEmpty_diffConfigs_iff R _ new).mp hempty v hv n
  · rw [if_neg hempty] at h
    exact entry_loops hw rfl h

/-- **The entry of a backend after a reload.** -/
theorem entry_applyConfig (hw : Fit t w) (h : Executes t (applyConfig R l new) w r w') :
    Fit t w' ∧ ∀ n, Hub.entry w'.state n =
      reloadedEntry (Hub.link w.state n) (Hub.entry w.state n) (new.enabled? n)
        (verdict R ((Hub.config w.state).enabled? n) (new.enabled? n)) := by
  have hlocked : ∀ {r v}, Executes t (withLock l (underLock R new)) w r v →
      Returns r ∧ Fit t v ∧ ∀ n, Hub.entry v.state n =
        reloadedEntry (Hub.link w.state n) (Hub.entry w.state n) (new.enabled? n)
          (verdict R ((Hub.config w.state).enabled? n) (new.enabled? n)) := by
    intro r v hlock
    obtain ⟨u, u', hacquire, hunder, hrelease⟩ := exec_withLock hw.born hlock
    obtain ⟨rfl, hfit, hentry⟩ := entry_underLock (hacquire.fit hw) hunder
    refine ⟨⟨_, rfl⟩, hrelease.fit hfit, fun n => ?_⟩
    rw [hrelease.leavesAlone.entry, hentry, hacquire.leavesAlone.link, hacquire.leavesAlone.entry,
      hacquire.leavesAlone.config]
  rcases Op.exec_bind.mp h with ⟨d, v, hlock, h⟩ | ⟨_, hlock, -⟩
  · obtain ⟨-, hfit, hentry⟩ := hlocked hlock
    have hnotify : Op.Ends calm (LeavesAlone v.state) Returns
        (do when (0 < d.changeCount) (wait' .turn); pure d) :=
      Calm.bind (Calm.when (Calm.wait' .turn nofun)) fun _ => .pure ⟨d, rfl⟩
    have huneventful := (exec_uneventful hnotify hfit.born h).2
    exact ⟨huneventful.fit hfit, fun n => (huneventful.leavesAlone.entry n).trans (hentry n)⟩
  · obtain ⟨⟨_, h⟩, -⟩ := hlocked hlock
    cases h

/-- The reload is done: the difference is empty, and to run the reload again is to take its lock
and to give it back. -/
structure Converged (R : Runtime) (new : HubConfig) (w : World hubSignature) : Prop where
  isEmpty : (diffConfigs R (Hub.config w.state) new).isEmpty
  again : ∀ {t l r w'}, Fit t w → Executes t (applyConfig R l new) w r w' →
    ∃ d, d.isEmpty ∧ r = .ok d ∧ Executes t (withLock l (pure d)) w r w'

theorem converged_of_isEmpty (h : (diffConfigs R (Hub.config w.state) new).isEmpty) :
    Converged R new w := by
  refine ⟨h, fun {t l r w'} hw hexec => ?_⟩
  rcases Op.exec_bind.mp hexec with ⟨d, v, hlock, hexec⟩ | ⟨_, hlock, -⟩
  · rcases Op.exec_bind.mp hlock with ⟨_, u, hacquire, hunder⟩ | ⟨_, hacquire, -⟩
    · have hconfig := (exec_acquire hw.born hacquire).2.leavesAlone.config
      obtain ⟨u', hunder, hrelease⟩ := Op.exec_ensure.mp hunder
      change Executes t (if (diffConfigs R (Hub.config u.state) new).isEmpty then
        pure (diffConfigs R (Hub.config u.state) new) else _) u _ u' at hunder
      rw [hconfig, if_pos h] at hunder
      obtain rfl : diffConfigs R (Hub.config w.state) new = d := Except.ok.inj hunder.1
      change Executes t (when (0 < (diffConfigs R (Hub.config w.state) new).changeCount)
        (wait' .turn) >>= fun _ => pure _) v r w' at hexec
      rw [HubOp.when, if_neg (by rw [changeCount_eq_zero h]; exact lt_irrefl 0)] at hexec
      obtain ⟨rfl, rfl⟩ := hexec
      exact ⟨_, h, rfl, Op.exec_bind.mpr (Or.inl ⟨_, u, hacquire,
        Op.exec_ensure.mpr ⟨u', hunder, hrelease⟩⟩)⟩
    · obtain ⟨⟨_, herror⟩, -⟩ := exec_acquire hw.born hacquire
      cases herror
  · obtain ⟨u, u', hacquire, hunder, -⟩ := exec_withLock hw.born hlock
    cases (entry_underLock (hacquire.fit hw) hunder).1

/-- What a reload needs of a backend, by the verdict on it. -/
def Suits (link : Option Bool) (entry : Option MCPServerConfig) : Option Verdict → Prop
  | some .removed | some .modified => link ≠ none
  | some .added => entry = none ∧ link ≠ some true
  | _ => True

theorem applicable_iff (s : Hub) : s.Applicable R new ↔
    ∀ n, Suits (s.link n) (s.entry n) (verdict R (s.config.enabled? n) (new.enabled? n)) := by
  have hpart := mem_part_iff R s.config new
  constructor
  · intro h n
    cases hverdict : verdict R (s.config.enabled? n) (new.enabled? n) with
    | none => trivial
    | some v =>
      have hin := (hpart v n).mpr hverdict
      cases v with
      | added =>
        obtain ⟨cfg, hcfg, rfl⟩ := List.mem_map.mp hin
        exact h.added cfg hcfg
      | removed => exact h.removed n hin
      | modified =>
        obtain ⟨cfg, hcfg, rfl⟩ := List.mem_map.mp hin
        exact h.modified cfg hcfg
      | unchanged => trivial
  · intro h
    refine ⟨fun n hn => ?_, fun cfg hcfg => ?_, fun cfg hcfg => ?_⟩
    · have hsuits := h n
      rwa [(hpart .removed n).mp hn] at hsuits
    · have hsuits := h cfg.name
      rwa [(hpart .modified cfg.name).mp (List.mem_map_of_mem hcfg)] at hsuits
    · have hsuits := h cfg.name
      rwa [(hpart .added cfg.name).mp (List.mem_map_of_mem hcfg)] at hsuits

/-- A backend is settled by a reload if and only if it suits it. -/
theorem settled_iff_suits {link : Option Bool} {entry new : Option MCPServerConfig}
    (hnew : ∀ s, new = some s → s.enabled = true) :
    (∀ v ≠ .unchanged, verdict R ((reloadedEntry link entry new
      (verdict R (entry.filter (·.enabled)) new)).filter (·.enabled)) new ≠ some v) ↔
        Suits link entry (verdict R (entry.filter (·.enabled)) new) := by
  have hself : ∀ {s}, new = some s → new.filter (·.enabled) = some s := by
    rintro s rfl
    rw [Option.filter_some, if_pos (hnew s rfl)]
  have hsame : ∀ s : MCPServerConfig, ∀ v ≠ .unchanged, verdict R (some s) (some s) ≠ some v := by
    intro s v hv h
    rw [verdict, if_pos rfl] at h
    exact hv (Option.some.inj h).symm
  cases hold : entry.filter (·.enabled) with
  | none =>
    cases new with
    | none => simp [verdict, reloadedEntry, Suits, hold]
    | some s =>
      simp only [verdict, reloadedEntry, Suits]
      constructor
      · intro h
        by_cases hlink : link = some true
        · rw [if_pos hlink, hold] at h
          exact absurd rfl (h .added (by decide))
        · rw [if_neg hlink] at h
          refine ⟨?_, hlink⟩
          by_contra hne
          obtain ⟨a, ha⟩ := Option.ne_none_iff_exists'.mp hne
          rw [ha, Option.some_or, ← ha, hold] at h
          exact absurd rfl (h .added (by decide))
      · rintro ⟨rfl, hlink⟩
        rw [if_neg hlink, Option.none_or, hself rfl]
        exact hsame s
  | some a =>
    have hentry : entry = some a := (Option.filter_eq_some_iff.mp hold).1
    cases new with
    | none =>
      simp only [verdict, reloadedEntry, Suits]
      constructor
      · intro h hlink
        rw [if_pos hlink, hold] at h
        exact absurd rfl (h .removed (by decide))
      · intro hlink
        rw [if_neg hlink, Option.filter_none]
        exact fun _ _ h => by cases h
    | some s =>
      by_cases hfp : fingerprint R a = fingerprint R s
      · simp only [verdict, if_pos hfp, reloadedEntry, Suits, hold, iff_true]
        exact fun v hv h => hv (Option.some.inj h).symm
      · simp only [verdict, if_neg hfp, reloadedEntry, Suits]
        constructor
        · intro h hlink
          rw [if_pos hlink, hentry, Option.some_or, ← hentry, hold] at h
          exact h .modified (by decide) (congrArg some (if_neg hfp))
        · intro hlink
          rw [if_neg hlink, hself rfl]
          exact hsame s

/-- **A reload is done after it has run once**, if and only if what it has to remove or to modify
has a connection, and what it has to add has no entry, and no connection that is up. -/
theorem converged_iff (hw : Fit t w) (h : Executes t (applyConfig R l new) w r w') :
    Converged R new w' ↔ Hub.Applicable R w.state new := by
  obtain ⟨-, hentry⟩ := entry_applyConfig hw h
  have hdone : Converged R new w' ↔ (diffConfigs R (Hub.config w'.state) new).isEmpty :=
    ⟨Converged.isEmpty, converged_of_isEmpty⟩
  have hsettled : ∀ n, (∀ v ≠ .unchanged, verdict R ((Hub.config w'.state).enabled? n)
      (new.enabled? n) ≠ some v) ↔ Suits (Hub.link w.state n) (Hub.entry w.state n)
        (verdict R ((Hub.config w.state).enabled? n) (new.enabled? n)) := by
    intro n
    have henabled : ∀ s : Hub, s.config.enabled? n = (s.entry n).filter (·.enabled) := fun _ => rfl
    rw [henabled, henabled, hentry, henabled]
    exact settled_iff_suits fun s hs => (mem_of_enabled? hs).2.2
  rw [hdone, isEmpty_diffConfigs_iff, applicable_iff, ← forall_congr' hsettled]
  exact ⟨fun h n v hv => h v hv n, fun h v hv n => h n v hv⟩

end Reload

/-- The table of connections is in order in every run of the hub. -/
theorem keyed_of_reach {config : HubConfig} {cf : Config hubSignature}
    {C : World hubSignature → TaskId → Stmt hubSignature → Prop}
    (h : Reach hub C (Hub.start config) cf) : Keyed cf.world.state :=
  RefsValid.keyed (refsInvariant.reach (refsValid_start config) h)

/-- A hub with one task, before it has done anything. -/
def startWorld (config : HubConfig) : World hubSignature := ⟨.start config, fun _ => .unborn, 1⟩

theorem fit_startWorld (config : HubConfig) : Fit 0 (startWorld config) where
  born := Nat.zero_lt_one
  keyed := ⟨fun h => absurd h nofun, fun h => absurd h nofun⟩

/-- A lazy server that has not been started yet is taken off the configuration. -/
def lazyWorld : World hubSignature := startWorld (oneServer { name := "a", spawn := .lazy })

theorem diffConfigs_lazyWorld :
    diffConfigs eqRuntime (Hub.config lazyWorld.state) {} = { removed := ["a"] } := rfl

/-- The world in which the reload has its lock. -/
def lockedWorld : World hubSignature := lazyWorld.exec calm 0 (.act (.take 1))

theorem exec_lazyWorld : ∃ r w', Executes 0 (applyConfig eqRuntime 1 {}) lazyWorld r w' := by
  have hunder : Executes 0 (underLock eqRuntime {}) lockedWorld (.ok { removed := ["a"] })
      lockedWorld := by
    change Executes 0 (if (diffConfigs eqRuntime (Hub.config lazyWorld.state) {}).isEmpty then
      pure (diffConfigs eqRuntime (Hub.config lazyWorld.state) {}) else do
        applyRemoves (diffConfigs eqRuntime (Hub.config lazyWorld.state) {})
        applyModifies (diffConfigs eqRuntime (Hub.config lazyWorld.state) {})
        applyAdds (diffConfigs eqRuntime (Hub.config lazyWorld.state) {})
        pure (diffConfigs eqRuntime (Hub.config lazyWorld.state) {})) lockedWorld _ lockedWorld
    rw [diffConfigs_lazyWorld, if_neg (by decide)]
    exact ⟨rfl, rfl⟩
  have hlock : Executes 0 (withLock 1 (underLock eqRuntime {})) lazyWorld
      (.ok { removed := ["a"] }) (lockedWorld.exec calm 0 (.act (.release 1))) :=
    Op.exec_bind.mpr (Or.inl ⟨(), _, ⟨rfl, rfl⟩, Op.exec_ensure.mpr ⟨_, hunder, rfl⟩⟩)
  refine ⟨.ok { removed := ["a"] }, (lockedWorld.exec calm 0 (.act (.release 1))).resumed 0,
    Op.exec_bind.mpr (Or.inl ⟨_, _, hlock, ?_⟩)⟩
  exact ⟨lockedWorld.exec calm 0 (.act (.release 1)), .ok,
    ⟨.refl _, Nat.zero_lt_one, rfl, rfl⟩, rfl, rfl⟩

/-- The connection of a server. -/
def connA : ConnRef := ⟨0, { name := "a" }⟩

/-- A hub whose one server is connected. -/
def connectedWorld : World hubSignature :=
  { startWorld (oneServer { name := "a" }) with
    state := (Act.establish connA toolT).eval
      ((Act.storeConnection connA).eval (.start (oneServer { name := "a" }))) }

theorem fit_connectedWorld : Fit 0 connectedWorld where
  born := Nat.zero_lt_one
  keyed := by
    have hget : ∀ {n x}, (Hub.connections connectedWorld.state).get? n = some x →
        n = "a" ∧ x = connA := by
      intro n x h
      have h : ((Dict.empty.set "a" connA).get? n) = some x := h
      by_cases hn : "a" = n
      · rw [hn, Dict.get?_set_self] at h
        exact ⟨hn.symm, (Option.some.inj h).symm⟩
      · rw [Dict.get?_set_of_ne hn] at h
        cases h
    refine ⟨fun h => ?_, fun h h' _ => (hget h).1.trans (hget h').1.symm⟩
    rw [(hget h).2]
    exact Nat.zero_lt_one

/-- The connected server is to be removed, and another one to be added. -/
theorem diffConfigs_connectedWorld :
    diffConfigs eqRuntime (Hub.config connectedWorld.state) (oneServer { name := "b" }) =
      { removed := ["a"], added := [{ name := "b" }] } := rfl

theorem applicable_connectedWorld :
    Hub.Applicable eqRuntime connectedWorld.state (oneServer { name := "b" }) where
  removed := by
    rw [diffConfigs_connectedWorld]
    intro n hn
    rw [List.mem_singleton.mp hn]
    decide
  modified := by
    rw [diffConfigs_connectedWorld]
    exact fun _ h => absurd h List.not_mem_nil
  added := by
    rw [diffConfigs_connectedWorld]
    intro cfg hcfg
    rw [List.mem_singleton.mp hcfg]
    exact ⟨rfl, by decide⟩

/-- A server that is connected is exchanged for another one: the reload is done. -/
theorem converged_iff_exchanged : ∃ r w', Fit 0 connectedWorld ∧
    Executes 0 (applyConfig eqRuntime 1 (oneServer { name := "b" })) connectedWorld r w' ∧
      Hub.Applicable eqRuntime connectedWorld.state (oneServer { name := "b" }) ∧
        Converged eqRuntime (oneServer { name := "b" }) w' := by
  obtain ⟨r, w', h, -⟩ := Op.exists_exec_of_play (M := calm) (t := 0) LeavesAlone
    (w := connectedWorld) .refl (p := applyConfig eqRuntime 1 (oneServer { name := "b" }))
    Nat.zero_lt_one [.ok, .ok, .connected toolT, .ok, .ok] (fun _ _ => true) (by decide +kernel)
  exact ⟨r, w', fit_connectedWorld, h, applicable_connectedWorld,
    (converged_iff fit_connectedWorld h).mpr applicable_connectedWorld⟩

/-- A lazy server that has not been started yet cannot be removed. -/
theorem not_converged_lazy :
    ∃ r w', Fit 0 lazyWorld ∧ Executes 0 (applyConfig eqRuntime 1 {}) lazyWorld r w' ∧
      ¬ Converged eqRuntime {} w' := by
  obtain ⟨r, w', h⟩ := exec_lazyWorld
  refine ⟨r, w', fit_startWorld _, h, fun hconverged => ?_⟩
  have hentry : Hub.entry w'.state "a" = some { name := "a", spawn := .lazy } :=
    (entry_applyConfig (fit_startWorld _) h).2 "a"
  have hsettled := (isEmpty_diffConfigs_iff eqRuntime _ _).mp hconverged.isEmpty .removed
    (by decide) "a"
  rw [show (Hub.config w'.state).enabled? "a" =
      (Hub.entry w'.state "a").filter (·.enabled) from rfl,
    hentry] at hsettled
  exact hsettled rfl

end SlmMcpHub
