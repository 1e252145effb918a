import SlmMcpHub.Federation.ChangeNotification
import SlmMcpHub.Federation.References

/-!
# Retained capabilities

`evict` caches the capabilities of a backend so that its tools stay discoverable. `retained` reads
off the history what has been cached and neither given up nor superseded by a connection since.

The cache of the manager agrees with it until one of two things happens: an eviction caches the
empty capabilities of a connection that never came up, or an attempt that returns without a
connection, in AUTH_REQUIRED, empties the cache. In the runs where neither happens every sync
registers exactly what was cached.

## Main definitions

* `retained` — what an eviction has left to be registered
* `KeepsCache` — neither of the two happens

## Main results

* `retainsCache_of_reach` — every sync registers exactly what is retained
* `not_retainsCache_evictedTwice` — a second eviction after a failed reconnect loses it
-/

namespace SlmMcpHub

open Registry

/-- What an eviction has cached for a backend, unless the backend has connected or was taken down
since. -/
def retained (name : String) : List Event → Option Capabilities
  | [] => none
  | .cached n caps :: h => if n = name then some caps else retained name h
  | .connected n _ :: h => if n = name then none else retained name h
  | .landed n :: h => if n = name then none else retained name h
  | .takenDown n :: h => if n = name then none else retained name h
  | .allTakenDown :: _ => none
  | _ :: h => retained name h

/-- What a sync registers for a backend are exactly these capabilities. -/
structure SyncRecord.Registers (r : SyncRecord) (name : String) (caps : Capabilities) : Prop where
  publishes : r.after.Publishes r.servers
  exactly : ∃ sid, ∀ k, (published k r.servers).filter (fun e => e.2.serverName = name) =
    Placed.entries ⟨name, sid, caps⟩ k

/-- Every sync of a run registers exactly what is retained. -/
def RetainsCache (history : List Event) : Prop :=
  ∀ r past name caps, (.synced r :: past) <:+ history → retained name past = some caps →
    r.Registers name caps

/-- No attempt for a backend with retained capabilities returns without a connection, and no
eviction of one finds another one's capabilities on a connection that is not up. -/
def KeepsCache (w : World hubSignature) (_ : TaskId) (st : Stmt hubSignature) : Prop :=
  let s : Hub := w.state
  (∀ x, st.toAct = .connectReturned x → s.isConnected x = false →
    retained x.name s.history = none) ∧
  ∀ name x caps, st.toAct = .cacheCapabilities name → s.connections.get? name = some x →
    s.isConnected x = false → retained name s.history = some caps → (s.conn x).capabilities = caps

/-! ### How the history changes -/

section History

variable {s : Hub} {a : Act} {name : String} {caps : Capabilities}

/-- Only an eviction of a connected backend makes anything retained. -/
theorem retained_of_eval (hnote : ∀ e, a = .note e → Announced e)
    (h : retained name (a.eval s).history = some caps) :
    retained name s.history = some caps ∨ a = .cacheCapabilities name ∧
      ∃ x, s.connections.get? name = some x ∧ s.isConnected x = true ∧
        caps = (s.conn x).capabilities := by
  rw [history_eval] at h
  cases a with
  | establish x caps =>
    change (if x.name = name then none else retained name s.history) = some _ at h
    split at h
    · cases h
    · exact Or.inl h
  | connectReturned x =>
    rw [Act.event?] at h
    split at h
    · change (if x.name = name then none else retained name s.history) = some _ at h
      split at h
      · cases h
      · exact Or.inl h
    · exact Or.inl h
  | popEvictedCaps n =>
    change (if n = name then none else retained name s.history) = some _ at h
    split at h
    · cases h
    · exact Or.inl h
  | cacheCapabilities n =>
    rw [Act.event?] at h
    cases hget : (s.connections.get? n).filter fun x => s.isConnected x with
    | none =>
      rw [hget] at h
      exact Or.inl h
    | some x =>
      rw [hget] at h
      change (if n = name then some (s.conn x).capabilities else retained name s.history) = _ at h
      split at h
      · next hn =>
        subst hn
        obtain ⟨hx, hconnected⟩ := Option.filter_eq_some_iff.mp hget
        exact Or.inr ⟨rfl, x, hx, hconnected, (Option.some.inj h).symm⟩
      · exact Or.inl h
  | closeAll => cases h
  | note e => cases hnote e rfl <;> exact Or.inl h
  | _ => exact Or.inl h

theorem retained_establish (s : Hub) (x : ConnRef) (caps : Capabilities) :
    retained x.name ((Act.establish x caps).eval s).history = none := if_pos rfl

theorem retained_popEvictedCaps (s : Hub) (name : String) :
    retained name ((Act.popEvictedCaps name).eval s).history = none := if_pos rfl

theorem retained_connectReturned {x : ConnRef} (h : s.isConnected x = true) :
    retained x.name ((Act.connectReturned x).eval s).history = none := by
  rw [history_eval, Act.event?, if_pos h]
  exact if_pos rfl

end History

/-! ### The invariant -/

/-- The cache holds what is retained, and a live connection under the same name has it. -/
structure CacheKept (s : Hub) : Prop where
  cached : ∀ {name caps}, retained name s.history = some caps →
    s.evictedCaps.get? name = some caps
  live : ∀ {name caps x}, retained name s.history = some caps →
    s.connections.get? name = some x → s.isConnected x = true → (s.conn x).capabilities = caps
  syncs : RetainsCache s.history

/-- A sync registers what is cached, unless something else is live. -/
theorem CacheKept.syncedMap {s : Hub} (h : CacheKept s) {name : String} {caps : Capabilities}
    (hretained : retained name s.history = some caps) : s.syncedMap.get? name = some caps := by
  rw [Hub.syncedMap, Dict.get?_setAll]
  cases hlast : Dict.lastOf ((s.connections.entries.filter fun e => s.isConnected e.2).map
      fun e => (e.1, (s.conn e.2).capabilities)) name with
  | none =>
    have hentry := Dict.mem_entries_iff.mpr (h.cached hretained)
    rw [Dict.get?_setAll, (Dict.lastOf_eq_some_iff s.evictedCaps.nodup).mpr hentry]
    rfl
  | some caps' =>
    obtain ⟨e, he, heq⟩ := List.mem_map.mp (Dict.lastOf_mem hlast)
    obtain ⟨hentry, hconnected⟩ := List.mem_filter.mp he
    obtain ⟨rfl, rfl⟩ := Prod.mk.inj heq
    rw [Option.some_or, h.live hretained (Dict.mem_entries_iff.mp hentry) hconnected]

theorem CacheKept.registers {s : Hub} (h : CacheKept s) {name : String} {caps : Capabilities}
    (hretained : retained name s.history = some caps) : s.syncRecord.Registers name caps :=
  ⟨publishes_sync s.registry s.syncedMap, filter_published (h.syncedMap hretained)⟩

/-- What an act leaves cached. -/
theorem evictedCaps_eval_of_retained {s : Hub} {a : Act} {name : String} {caps : Capabilities}
    (hcached : s.evictedCaps.get? name = some caps)
    (hretained : retained name (a.eval s).history = some caps)
    (hreturned : ∀ x, a = .connectReturned x → s.isConnected x = false → x.name ≠ name)
    (hcaps : ∀ x, a = .cacheCapabilities name → s.connections.get? name = some x →
      (s.conn x).capabilities = caps) :
    (a.eval s).evictedCaps.get? name = some caps := by
  rw [Act.evictedCaps_eval]
  cases a with
  | connectReturned x =>
    have hne : x.name ≠ name := by
      rintro rfl
      cases hconnected : s.isConnected x with
      | true => cases (retained_connectReturned hconnected).symm.trans hretained
      | false => exact hreturned x rfl hconnected rfl
    rw [Act.evictedCaps, Dict.get?_erase_of_ne hne]
    exact hcached
  | popEvictedCaps n =>
    have hne : n ≠ name := by
      rintro rfl
      cases (retained_popEvictedCaps s n).symm.trans hretained
    rw [Act.evictedCaps, Dict.get?_erase_of_ne hne]
    exact hcached
  | cacheCapabilities n =>
    rw [Act.evictedCaps]
    by_cases hn : n = name
    · subst hn
      cases hget : s.connections.get? n with
      | none => exact hcached
      | some x => rw [Dict.get?_set_self, hcaps x rfl hget]
    · cases s.connections.get? n with
      | none => exact hcached
      | some x => rw [Dict.get?_set_of_ne hn]; exact hcached
  | closeAll => cases hretained
  | _ => exact hcached

/-- A connection that is stored and live after an act was so before, with the same capabilities,
or the act has connected it. -/
theorem live_eval {s : Hub} {a : Act} {name : String} {x : ConnRef}
    (hlt : ∀ y, a = .storeConnection y → s.connections.get? name = some x → x.id ≠ y.id)
    (hget : (a.eval s).connections.get? name = some x)
    (hconnected : (a.eval s).isConnected x = true) :
    (∃ y caps, a = .establish y caps ∧ x.id = y.id) ∨ s.connections.get? name = some x ∧
      s.isConnected x = true ∧ ((a.eval s).conn x).capabilities = (s.conn x).capabilities := by
  have hstate : a.connState s x.id = .connected := by
    rw [← Act.connState_eval]
    exact of_decide_eq_true hconnected
  have hcaps : ((a.eval s).conn x).capabilities = a.connCaps s x.id := Act.connCaps_eval s a x.id
  rcases Act.get?_connections_eval hget with hold | ⟨rfl, -⟩
  · rw [hcaps]
    cases a with
    | transition y target ne =>
      rw [Act.connState] at hstate
      split at hstate
      · exact absurd hstate ne
      · exact Or.inr ⟨hold, decide_eq_true hstate, rfl⟩
    | establish y caps =>
      by_cases hid : x.id = y.id
      · exact Or.inl ⟨y, caps, rfl, hid⟩
      · rw [Act.connState, if_neg hid] at hstate
        exact Or.inr ⟨hold, decide_eq_true hstate, if_neg hid⟩
    | storeConnection y =>
      have hid := hlt y rfl hold
      rw [Act.connState, if_neg hid] at hstate
      exact Or.inr ⟨hold, decide_eq_true hstate, if_neg hid⟩
    | _ => exact Or.inr ⟨hold, decide_eq_true hstate, rfl⟩
  · rw [Act.connState, if_pos rfl] at hstate
    cases hstate

theorem cacheInvariant :
    StateInvariant (fun w t st => KeepsCache w t st ∧ RefsValid w.state w.doing) CacheKept where
  act {w t st} h hC hd := by
    obtain ⟨⟨hreturned, hevicted⟩, hrefs⟩ := hC
    have hnote : ∀ e, st.toAct = .note e → Announced e := fun e => announced_of_disciplined hd
    refine ⟨fun {name caps} hretained => ?_, fun {name caps x} hretained hget hconnected => ?_, ?_⟩
    · rcases retained_of_eval hnote hretained with hold | ⟨hact, x, hx, -, hcaps⟩
      · refine evictedCaps_eval_of_retained (h.cached hold) hretained ?_ ?_
        · rintro x hact hdown rfl
          cases (hreturned x hact hdown).symm.trans hold
        · intro x hact hx
          cases hconnected : Hub.isConnected w.state x with
          | true => exact h.live hold hx hconnected
          | false => exact hevicted name x caps hact hx hconnected hold
      · rw [Act.evictedCaps_eval, hact, Act.evictedCaps, hx]
        dsimp only
        rw [Dict.get?_set_self, hcaps]
    · have hlt : ∀ y, st.toAct = .storeConnection y →
          (Hub.connections w.state).get? name = some x → x.id ≠ y.id := by
        intro y hact hstored hid
        have := hrefs.lt (Or.inl (hrefs.stored hstored))
        rw [hid, id_of_storeConnection hd hact] at this
        exact absurd this (lt_irrefl _)
      rcases live_eval hlt hget hconnected with ⟨y, caps', hact, hid⟩ | ⟨hold, hlive, hcaps⟩
      · have hstored : (Hub.connections w.state).get? name = some x := by
          rcases Act.get?_connections_eval hget with hx | ⟨hstore, -⟩
          · exact hx
          · cases hact.symm.trans hstore
        have hy := connecting_of_establish hd hact
        obtain rfl := hrefs.unique (Or.inl (hrefs.stored hstored)) (Or.inr (Or.inr (Or.inl hy))) hid
        obtain rfl := hrefs.key hstored
        rw [hact] at hretained
        cases (retained_establish w.state x caps').symm.trans hretained
      · rw [hcaps]
        rcases retained_of_eval hnote hretained with hretained | ⟨-, y, hy, -, rfl⟩
        · exact h.live hretained hold hlive
        · rw [Option.some.inj (hold.symm.trans hy)]
    · intro r past name caps hsuffix hretained
      rcases suffix_history_eval.mp hsuffix with ⟨hevent, rfl⟩ | hsuffix
      · obtain ⟨-, rfl⟩ := synced_event hnote hevent
        exact h.registers hretained
      · exact h.syncs r past name caps hsuffix hretained
  clock _ h := ⟨h.cached, h.live, h.syncs⟩
  notifier h := ⟨h.cached, h.live, h.syncs⟩

/-- **When what is cached is registered.** In every run in which no attempt for a backend with
retained capabilities returns without a connection, and no eviction overwrites them with those of a
connection that is not up, every sync registers exactly what was cached. -/
theorem retainsCache_of_reach {config : HubConfig} {cf : Config hubSignature}
    (h : Reach hub KeepsCache (Hub.start config) cf) :
    RetainsCache (Hub.history cf.world.state) := by
  have hstart : CacheKept (Hub.start config) := by
    refine ⟨nofun, nofun, fun r past name caps hsuffix => ?_⟩
    cases List.eq_nil_of_suffix_nil hsuffix
  exact (cacheInvariant.reach hstart (refsInvariant.reach_and (refsValid_start config) h)).syncs

/-! ### A cache that is lost, and one that is kept -/

/-- The server `a` is connected and evicted, and a reconnect fails. -/
def failedComeback : List (Move hubSignature) :=
  [.call (.ensureConnected "a"), .resume 0 .ok, .resume 0 .ok, .resume 0 (.connected toolT),
    .resume 0 .ok, .call (.evict "a"), .resume 1 .ok, .resume 1 .ok, .call (.reconnect "a"),
    .resume 2 .ok, .resume 2 .ok, .resume 2 (.raised (.other "OSError" "refused" .transient))]

/-- The last sync was given no tools of `a`, with `t` retained. -/
def losesTool (s : Hub) : Bool :=
  match s.history with
  | .evicted _ :: .synced r :: past =>
    (retained "a" past).map toolNames = some ["t"] &&
      (r.servers.get? "a").map toolNames = some []
  | _ => false

theorem not_retainsCache_of_losesTool {s : Hub} (h : losesTool s = true) :
    ¬ RetainsCache s.history := by
  intro hretains
  rw [losesTool] at h
  split at h
  · next e r past hhistory =>
    simp only [Bool.and_eq_true, decide_eq_true_eq, Option.map_eq_some_iff] at h
    obtain ⟨⟨caps, hretained, htools⟩, caps', hservers, htools'⟩ := h
    have hsuffix : (.synced r :: past) <:+ s.history := by
      rw [hhistory]
      exact List.suffix_cons _ _
    obtain ⟨sid, hexactly⟩ := (hretains r past "a" caps hsuffix hretained).exactly
    obtain ⟨sid', hexactly'⟩ := filter_published hservers
    have hlength := congrArg List.length ((hexactly .tool).symm.trans (hexactly' .tool))
    simp only [Placed.entries, List.length_map] at hlength
    have hone : caps.tools.length = 1 := by simpa [toolNames] using congrArg List.length htools
    have hzero : caps'.tools.length = 0 := by simpa [toolNames] using congrArg List.length htools'
    exact absurd (hone.symm.trans (hlength.trans hzero)) (by decide)
  · cases h

/-- A second eviction after the failed reconnect loses the tool. -/
theorem not_retainsCache_evictedTwice : ∃ cf, Reach hub anyStep (Hub.start lazyConfig) cf ∧
    losesTool cf.world.state = true ∧ ¬ RetainsCache (Hub.history cf.world.state) := by
  obtain ⟨cf, hreach, h⟩ := exists_reach (C := anyStep) (P := losesTool) (fun _ _ _ => true)
    lazyConfig (failedComeback ++ [.call (.evict "a"), .resume 3 .ok]) (fun _ _ => trivial)
    (by decide +kernel)
  exact ⟨cf, hreach, h, not_retainsCache_of_losesTool h⟩

/-- Attempts that return are connected, and only connected backends are evicted, where anything is
retained. -/
def keepsCache (w : World hubSignature) (_ : TaskId) (st : Stmt hubSignature) : Bool :=
  let s : Hub := w.state
  match st.toAct with
  | .connectReturned x => s.isConnected x || (retained x.name s.history).isNone
  | .cacheCapabilities name =>
    (s.connections.get? name).all (fun x => s.isConnected x) || (retained name s.history).isNone
  | _ => true

theorem keepsCache_of_check {w : World hubSignature} {t : TaskId} {st : Stmt hubSignature}
    (h : keepsCache w t st = true) : KeepsCache w t st := by
  refine ⟨fun x hact hdown => ?_, fun name x caps hact hx hdown hretained => ?_⟩
  · rw [keepsCache, hact] at h
    simpa [hdown] using h
  · rw [keepsCache, hact] at h
    simp [hx, hdown, hretained] at h

/-- The failed reconnect alone keeps the tool. -/
theorem retainsCache_of_reach_failedComeback :
    ∃ cf, Reach hub KeepsCache (Hub.start lazyConfig) cf ∧
    (retained "a" (Hub.history cf.world.state)).isSome ∧
    (syncs (Hub.history cf.world.state)).length = 3 ∧
    RetainsCache (Hub.history cf.world.state) := by
  obtain ⟨cf, hreach, h⟩ := exists_reach
    (P := fun s => (retained "a" s.history).isSome && (syncs s.history).length = 3)
    keepsCache lazyConfig failedComeback (fun _ => keepsCache_of_check) (by decide +kernel)
  simp only [Bool.and_eq_true, decide_eq_true_eq] at h
  exact ⟨cf, hreach, h.1, h.2, retainsCache_of_reach hreach⟩

end SlmMcpHub
