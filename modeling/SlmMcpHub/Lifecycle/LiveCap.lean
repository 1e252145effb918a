import SlmMcpHub.Lifecycle.Frame
import SlmMcpHub.Library.Transition

/-!
# The cap on live backends

`ensure_connected` on a hub with no other operation: it makes room for the backend it connects by
evicting at most one other, the one that was used least recently.

A pinned backend is not counted and not evicted, and nothing is evicted for its sake. Calls may be
in flight meanwhile; the wait of a drain for them may end as it likes.

## Main definitions

* `Hub.liveUnpinned` — the backends that count
* `Hub.recency` — when a backend was last used
* `Victim` — the backend that may be evicted

## Main results

* `ensureConnected_keeps_cap`
-/

namespace SlmMcpHub

open HubOp ConnectionManager MCPConnection

/-! ### The choice of the victim -/

/-- The backends whose configuration is pinned. -/
def Hub.pinnedNames (s : Hub) : List String :=
  (s.config.mcpServers.filter MCPServerConfig.isPinned).map MCPServerConfig.name

/-- The backends that are live and not pinned. -/
def Hub.liveUnpinned (s : Hub) : List String :=
  (s.connections.entries.filter fun (n, x) => s.isConnected x && !s.pinnedNames.contains n).map
    Prod.fst

/-- When a backend was last used; among these `none`, for never, comes before any time. -/
def Hub.recency (s : Hub) (n : String) : Option ℚ := s.lastActivity.get? n

theorem Hub.mem_liveUnpinned {s : Hub} {n : String} :
    n ∈ s.liveUnpinned ↔
      (∃ x, s.connections.get? n = some x ∧ s.isConnected x = true) ∧ n ∉ s.pinnedNames := by
  simp only [liveUnpinned, List.mem_map, List.mem_filter, Bool.and_eq_true, Bool.not_eq_true',
    List.contains_eq_mem, decide_eq_false_iff_not, Prod.exists, exists_and_right, exists_eq_right,
    Dict.mem_entries_iff]
  constructor
  · rintro ⟨x, hx, hconn, hpin⟩
    exact ⟨⟨x, hx, hconn⟩, hpin⟩
  · rintro ⟨⟨x, hx, hconn⟩, hpin⟩
    exact ⟨x, hx, hconn, hpin⟩

theorem Hub.nodup_liveUnpinned (s : Hub) : s.liveUnpinned.Nodup :=
  s.connections.nodup.sublist (List.filter_sublist.map Prod.fst)

private theorem recency_trans {a b c : Option ℚ} (hab : a ≤ b) (hbc : b ≤ c) : a ≤ c := by
  cases a with
  | none => simp
  | some t =>
    cases b with
    | none => simp at hab
    | some u =>
      cases c with
      | none => simp at hbc
      | some v =>
        rw [Option.some_le_some] at hab hbc ⊢
        exact hab.trans hbc

/-- The choice between two candidates. -/
private def older (lastActivity : Dict String ℚ) (best : Option String) (n : String) :
    Option String :=
  match best with
  | none => some n
  | some b =>
    match lastActivity.get? n, lastActivity.get? b with
    | none, some _ => some n
    | some t, some u => if t < u then some n else some b
    | _, none => some b

/-- The older of two candidates is one of them, and was used after neither. -/
private theorem exists_older (lastActivity : Dict String ℚ) (b n : String) :
    ∃ v, older lastActivity (some b) n = some v ∧ (v = b ∨ v = n) ∧
      lastActivity.get? v ≤ lastActivity.get? b ∧ lastActivity.get? v ≤ lastActivity.get? n := by
  cases hb : lastActivity.get? b with
  | none =>
    refine ⟨b, ?_, Or.inl rfl, by simp [hb], by simp [hb]⟩
    rw [older, hb]
    cases lastActivity.get? n <;> rfl
  | some u =>
    cases hn : lastActivity.get? n with
    | none =>
      refine ⟨n, ?_, Or.inr rfl, by simp [hn], by simp [hn]⟩
      rw [older, hb, hn]
    | some t =>
      by_cases htu : t < u
      · refine ⟨n, ?_, Or.inr rfl, by simp [hn, htu.le], by simp [hn]⟩
        rw [older, hb, hn]
        exact if_pos htu
      · refine ⟨b, ?_, Or.inl rfl, by simp [hb], by simp [hb, not_lt.mp htu]⟩
        rw [older, hb, hn]
        exact if_neg htu

private theorem foldl_older (lastActivity : Dict String ℚ) : ∀ (l : List String) (b : String),
    ∃ v, l.foldl (older lastActivity) (some b) = some v ∧ v ∈ b :: l ∧
      ∀ m ∈ b :: l, lastActivity.get? v ≤ lastActivity.get? m := by
  intro l
  induction l with
  | nil =>
    intro b
    refine ⟨b, rfl, List.mem_singleton_self b, fun m hm => ?_⟩
    rw [List.mem_singleton.mp hm]
    cases lastActivity.get? b <;> simp
  | cons n l ih =>
    intro b
    obtain ⟨b', hstep, hor, hb, hn⟩ := exists_older lastActivity b n
    obtain ⟨v, hv, hmem, hmin⟩ := ih b'
    refine ⟨v, ?_, ?_, fun m hm => ?_⟩
    · rw [List.foldl_cons, hstep, hv]
    · rcases hor with rfl | rfl
      · rcases List.mem_cons.mp hmem with rfl | hl
        · exact List.mem_cons_self
        · exact List.mem_cons_of_mem _ (List.mem_cons_of_mem _ hl)
      · exact List.mem_cons_of_mem _ hmem
    · have hb' := hmin b' List.mem_cons_self
      rcases List.mem_cons.mp hm with rfl | hm
      · exact recency_trans hb' hb
      · rcases List.mem_cons.mp hm with rfl | hm
        · exact recency_trans hb' hn
        · exact hmin m (List.mem_cons_of_mem _ hm)

/-- **The victim is one of the candidates, and none of them was used before it.** -/
theorem selectLruVictim_min {candidates : List String} {lastActivity : Dict String ℚ}
    {v : String} (h : selectLruVictim candidates lastActivity = some v) :
    v ∈ candidates ∧ ∀ m ∈ candidates, lastActivity.get? v ≤ lastActivity.get? m := by
  cases candidates with
  | nil => cases h
  | cons b l =>
    obtain ⟨v', hv', hmem, hmin⟩ := foldl_older lastActivity l b
    have hfold : selectLruVictim (b :: l) lastActivity = l.foldl (older lastActivity) (some b) :=
      rfl
    obtain rfl := Option.some.inj (hv'.symm.trans (hfold.symm.trans h))
    exact ⟨hmem, hmin⟩

theorem selectLruVictim_ne_none {candidates : List String} (lastActivity : Dict String ℚ)
    (h : candidates ≠ []) : selectLruVictim candidates lastActivity ≠ none := by
  cases candidates with
  | nil => exact absurd rfl h
  | cons b l =>
    obtain ⟨v, hv, -⟩ := foldl_older lastActivity l b
    have hfold : selectLruVictim (b :: l) lastActivity = l.foldl (older lastActivity) (some b) :=
      rfl
    rw [hfold, hv]
    exact Option.some_ne_none v

/-! ### An eviction takes its backend down -/

section Evict

variable {allowed : Hub → Wait → Res → Bool} {t : TaskId} {w w' : World hubSignature} {x : ConnRef}

theorem down_of_disconnect
    (h : (disconnect x).Exec (hubAllowing allowed) OnlyCalls t w (.ok ()) w') :
    (Hub.conn w'.state x).state = .disconnected := by
  obtain ⟨_, v, -, h⟩ := Op.exec_bind_ok.mp (Op.exec_get_bind.mp h)
  obtain ⟨-, rfl⟩ := h
  exact (Act.connState_eval v.state _ x.id).trans (if_pos rfl)

theorem down_of_drain
    (h : (drainAndDisconnect x).Exec (hubAllowing allowed) OnlyCalls t w (.ok ()) w') :
    (Hub.conn w'.state x).state = .disconnected := by
  obtain ⟨_, v, -, h⟩ := Op.exec_bind_ok.mp (Op.exec_get_bind.mp h)
  obtain ⟨_, v, -, h⟩ := Op.exec_bind_ok.mp h
  obtain ⟨v', hbody, rfl⟩ := Op.exec_ensure.mp h
  refine Eq.trans (Act.connState_eval v'.state (.release _) x.id) ?_
  replace hbody := Op.exec_get_bind.mp hbody
  split at hbody
  · exact down_of_disconnect hbody
  · obtain ⟨_, u, -, h⟩ := Op.exec_bind_ok.mp hbody
    obtain ⟨_, u, -, h⟩ := Op.exec_bind_ok.mp (Op.exec_get_bind.mp h)
    exact down_of_disconnect h

/-- The backend has that connection, and it is down. -/
structure Down (n : String) (x : ConnRef) (s : Hub) : Prop where
  connection : s.connections.get? n = some x
  state : (s.conn x).state = .disconnected

/-- An act that touches neither the table nor the states of the connections. -/
theorem Down.eval {n : String} {s : Hub} {a : Act} (h : Down n x s)
    (hconns : a.connections s = s.connections)
    (hstate : a.connState s x.id = (s.conns x.id).state) : Down n x (a.eval s) :=
  ⟨by rw [Act.connections_eval, hconns, h.connection],
    ((Act.connState_eval s a x.id).trans hstate).trans h.state⟩

theorem stops_cancelled (allowed : Hub → Wait → Res → Bool) : Stops allowed (· = .cancelled) :=
  fun _ _ _ => rfl

/-- A drain raises nothing but a request to stop, and leaves the table of connections alone. -/
theorem exec_drain {r : Except Exc Unit} (hborn : t < w.next)
    (h : (drainAndDisconnect x).Exec (hubAllowing allowed) OnlyCalls t w r w') :
    (∀ e, r = .error e → e = .cancelled) ∧
      Hub.connections w'.state = Hub.connections w.state ∧ t < w'.next := by
  have hkept : Comes allowed (fun s => s.connections = Hub.connections w.state) (· = .cancelled)
      (drainAndDisconnect x) := by
    refine comes_drainAndDisconnect (stops_cancelled allowed) fun a ha s hs => ?_
    rw [Act.connections_eval, ← hs]
    cases a <;> first | rfl | exact ha.elim
  exact hkept.exec (fun hrely hs => hrely.connections.trans hs) rfl hborn h

/-- What an eviction does after the drain. -/
theorem comes_forget (n m : String) : Comes allowed (Down n x) (· = .cancelled) (do
    withLock lock do
      act (.forget m)
      act .syncRegistry
    act (.note (.evicted m))) := by
  have hact : ∀ a : Act, (∀ s, a.connections s = s.connections) →
      (∀ s, a.connState s x.id = (s.conns x.id).state) →
        Comes allowed (Down n x) (· = .cancelled) (act a) :=
    fun a hconns hstate => .act fun s h => h.eval (hconns s) (hstate s)
  refine .bind (.withLock (stops_cancelled allowed) (fun s h => h.eval rfl rfl)
    (fun s h => h.eval rfl rfl) (.bind ?_ fun _ => ?_)) fun _ => ?_
  · exact hact (.forget m) (fun _ => rfl) fun _ => rfl
  · exact hact .syncRegistry (fun _ => rfl) fun _ => rfl
  · exact hact (.note (.evicted m)) (fun _ => rfl) fun _ => rfl

theorem down_of_evict {n : String} (hborn : t < w.next)
    (hpin : ((Hub.config w.state).find? n).any MCPServerConfig.isPinned = false)
    (hx : (Hub.connections w.state).get? n = some x)
    (h : (evict n).Exec (hubAllowing allowed) OnlyCalls t w (.ok ()) w') : Down n x w'.state := by
  have hevict := Op.exec_get_bind.mp h
  rw [hpin, if_neg Bool.false_ne_true, hx] at hevict
  obtain ⟨_, u, ⟨-, hcache⟩, h⟩ := Op.exec_bind_ok.mp hevict
  obtain ⟨_, v, hdrain, h⟩ := Op.exec_bind_ok.mp h
  have hu : t < u.next ∧ Hub.connections u.state = Hub.connections w.state := by
    rw [← hcache]
    exact ⟨hborn, rfl⟩
  -- The drain itself has returned: what it raises is no exception to be caught.
  have hreturned : (drainAndDisconnect x).Exec (hubAllowing allowed) OnlyCalls t u (.ok ()) v := by
    rcases Op.exec_tryCatch.mp hdrain with ⟨_, hok, -⟩ | ⟨e, v', hraise, hcaught⟩
    · exact hok
    · obtain rfl := (exec_drain hu.1 hraise).1 e rfl
      obtain ⟨h, -⟩ := hcaught
      cases h
  obtain ⟨-, hconns, hv⟩ := exec_drain hu.1 hreturned
  have hdown : Down n x v.state := ⟨by rw [hconns, hu.2, hx], down_of_drain hreturned⟩
  exact ((comes_forget n n).exec (fun hrely hs => ⟨by rw [hrely.connections, hs.connection],
    (hrely.state x.id).trans hs.state⟩) hdown hv h).2.1

end Evict

/-! ### Making room -/

/-- What may be evicted for the sake of a backend. -/
structure Victim (name : String) (s : Hub) (v : String) : Prop where
  live : v ∈ s.liveUnpinned
  other : v ≠ name
  oldest : ∀ m ∈ s.liveUnpinned, s.recency v ≤ s.recency m

/-- One backend at most is evicted for the sake of another one. A backend that is not evicted is as
it was, unless it is the one to be connected; and that one's capabilities are not cached either. -/
structure RoomMade (name : String) (victim : Option String) (s s' : Hub) : Prop where
  chosen : ∀ v ∈ victim, Victim name s v
  spared : ∀ n, n ≠ name → n ∉ victim → SameServer n s s'
  uncached : ∀ {n c}, n ∉ victim → s'.evictedCaps.get? n = some c → s.evictedCaps.get? n = some c

theorem OnlyCalls.liveUnpinned {s s' : Hub} (h : OnlyCalls s s') :
    s'.liveUnpinned = s.liveUnpinned := by
  rw [Hub.liveUnpinned, Hub.liveUnpinned, Hub.pinnedNames, h.connections, h.config]
  have hconn : ∀ x : ConnRef, s'.isConnected x = s.isConnected x :=
    fun x => congrArg (fun c => decide (c = ConnectionState.connected)) (h.state x.id)
  simp only [hconn, Hub.pinnedNames]

/-- What happens beside calls only does not count. -/
theorem RoomMade.onlyCalls {name : String} {victim : Option String} {s u v s' : Hub}
    (hu : OnlyCalls s u) (hlast : u.lastActivity = s.lastActivity) (h : RoomMade name victim u v)
    (hv : OnlyCalls v s') : RoomMade name victim s s' where
  chosen n hn := by
    obtain ⟨hlive, hother, holdest⟩ := h.chosen n hn
    rw [hu.liveUnpinned] at hlive holdest
    refine ⟨hlive, hother, fun m hm => ?_⟩
    have hle := holdest m hm
    rwa [Hub.recency, Hub.recency, hlast] at hle
  spared n hn hvictim :=
    (hu.sameServer n).trans ((h.spared n hn hvictim).trans (hv.sameServer n))
  uncached hn hc := by
    rw [hv.evictedCaps] at hc
    rw [← hu.evictedCaps]
    exact h.uncached hn hc

/-- A list of distinct names is no longer than one that has them all. -/
theorem Hub.length_liveUnpinned_le {s : Hub} {l : List String} (h : ∀ n ∈ s.liveUnpinned, n ∈ l) :
    s.liveUnpinned.length ≤ l.length :=
  (List.subperm_of_subset s.nodup_liveUnpinned h).length_le

/-- What is live and unpinned, and was left as it was, was so before. -/
theorem SameServer.mem_liveUnpinned {n : String} {s s' : Hub} (h : SameServer n s s')
    (hconfig : s'.config = s.config) : n ∈ s'.liveUnpinned ↔ n ∈ s.liveUnpinned := by
  rw [Hub.mem_liveUnpinned, Hub.mem_liveUnpinned, Hub.pinnedNames, Hub.pinnedNames, hconfig,
    h.connection]
  refine and_congr_left fun _ => exists_congr fun x => and_congr_right fun hx => ?_
  show decide ((s'.conn x).state = .connected) = true ↔
    decide ((s.conn x).state = .connected) = true
  rw [h.state hx]

section Room

variable {allowed : Hub → Wait → Res → Bool} {t : TaskId} {w w' : World hubSignature}
  {name : String}

/-- The candidates of `_apply_lru_cap`. -/
def Hub.candidates (s : Hub) (name : String) : List String :=
  (s.connections.entries.filter fun (n, x) =>
    s.isConnected x && !s.pinnedNames.contains n && n ≠ name).map Prod.fst

/-- For a backend that is not connected, all that count are candidates. -/
theorem Hub.candidates_eq {s : Hub}
    (hdown : ∀ x, s.connections.get? name = some x → s.isConnected x = false) :
    s.candidates name = s.liveUnpinned := by
  refine congrArg (List.map Prod.fst) (List.filter_congr fun e he => ?_)
  obtain ⟨n, x⟩ := e
  have hx : s.connections.get? n = some x := Dict.mem_entries_iff.mp he
  by_cases hn : n = name
  · subst hn
    simp [hdown x hx]
  · simp [hn]

/-- Room for a backend that is not connected is made by evicting the oldest, if there is none. -/
theorem exec_applyLruCap_iff {r : Except Exc Unit}
    (hdown : ∀ x, (Hub.connections w.state).get? name = some x →
      Hub.isConnected w.state x = false)
    (hpos : 1 ≤ (Hub.config w.state).maxLiveBackends) :
    (applyLruCap name).Exec (hubAllowing allowed) OnlyCalls t w r w' ↔
      (if (Hub.liveUnpinned w.state).length < (Hub.config w.state).maxLiveBackends then pure ()
        else match selectLruVictim (Hub.liveUnpinned w.state) (Hub.lastActivity w.state) with
          | none => pure ()
          | some victim => evict victim : HubOp Unit).Exec
            (hubAllowing allowed) OnlyCalls t w r w' := by
  rw [← Hub.candidates_eq hdown]
  refine Op.exec_get_bind.trans ?_
  rw [if_neg (by omega)]
  rfl

/-- What is not pinned has no entry that is. -/
theorem not_pinned_of_notMem {s : Hub} {n : String} (h : n ∉ s.pinnedNames) :
    (s.config.find? n).any MCPServerConfig.isPinned = false := by
  cases hfind : s.config.find? n with
  | none => rfl
  | some cfg =>
    have hmem := List.mem_of_find?_eq_some hfind
    have hname : cfg.name = n := by simpa using List.find?_some hfind
    by_contra hpin
    refine h (List.mem_map.mpr ⟨cfg, List.mem_filter.mpr ⟨hmem, ?_⟩, hname⟩)
    simpa using hpin

/-- What an eviction of a live backend leaves. -/
theorem liveUnpinned_of_evict {n : String} {r : Except Exc Unit} (hw : Fit t w)
    (hn : n ∈ Hub.liveUnpinned w.state)
    (h : (evict n).Exec (hubAllowing allowed) OnlyCalls t w r w') :
    Leaves true t [n] w w' ∧ (∀ m ∈ Hub.liveUnpinned w'.state, m ∈ Hub.liveUnpinned w.state) ∧
      (r = .ok () → n ∉ Hub.liveUnpinned w'.state) := by
  have hevict : Operates allowed true (· = .cancelled) n (evict n) :=
    fun _ _ => frames_evict (stops_cancelled allowed)
  obtain ⟨-, hleaves⟩ := hevict.leaves hw h
  refine ⟨hleaves, fun m hm => ?_, ?_⟩
  · by_cases hmn : m = n
    · rw [hmn]
      exact hn
    · have hsame := hleaves.same m (by simpa using hmn)
      exact (hsame.mem_liveUnpinned (hleaves.config rfl)).mp hm
  · rintro rfl hlive
    obtain ⟨⟨x, hx, -⟩, hpin⟩ := Hub.mem_liveUnpinned.mp hn
    have hdown := down_of_evict hw.born (not_pinned_of_notMem hpin) hx h
    obtain ⟨⟨y, hy, hconn⟩, -⟩ := Hub.mem_liveUnpinned.mp hlive
    obtain rfl := Option.some.inj (hdown.connection.symm.trans hy)
    rw [Hub.isConnected, hdown.state] at hconn
    cases hconn

/-- **Room is made**: there is a place left when `_apply_lru_cap` returns. -/
theorem exec_applyLruCap {r : Except Exc Unit} (hw : Fit t w)
    (hdown : ∀ x, (Hub.connections w.state).get? name = some x →
      Hub.isConnected w.state x = false)
    (hpos : 1 ≤ (Hub.config w.state).maxLiveBackends)
    (hcap : (Hub.liveUnpinned w.state).length ≤ (Hub.config w.state).maxLiveBackends)
    (h : (applyLruCap name).Exec (hubAllowing allowed) OnlyCalls t w r w') :
    ∃ victim : Option String, (∀ v ∈ victim, Victim name w.state v) ∧
      Leaves true t victim.toList w w' ∧
      (∀ m ∈ Hub.liveUnpinned w'.state, m ∈ Hub.liveUnpinned w.state) ∧
      (r = .ok () →
        (Hub.liveUnpinned w'.state).length < (Hub.config w.state).maxLiveBackends) := by
  rw [exec_applyLruCap_iff hdown hpos] at h
  by_cases hroom : (Hub.liveUnpinned w.state).length < (Hub.config w.state).maxLiveBackends
  · rw [if_pos hroom] at h
    obtain ⟨-, rfl⟩ := h
    exact ⟨none, nofun, .refl hw _, fun _ hm => hm, fun _ => hroom⟩
  · rw [if_neg hroom] at h
    have hne : Hub.liveUnpinned w.state ≠ [] := by
      intro hnil
      rw [hnil, List.length_nil] at hroom
      omega
    cases hvictim : selectLruVictim (Hub.liveUnpinned w.state) (Hub.lastActivity w.state) with
    | none => exact absurd hvictim (selectLruVictim_ne_none _ hne)
    | some n =>
      rw [hvictim] at h
      obtain ⟨hmem, hmin⟩ := selectLruVictim_min hvictim
      obtain ⟨hleaves, hsub, hgone⟩ := liveUnpinned_of_evict hw hmem h
      have hother : n ≠ name := by
        rintro rfl
        obtain ⟨⟨x, hx, hconn⟩, -⟩ := Hub.mem_liveUnpinned.mp hmem
        rw [hdown x hx] at hconn
        cases hconn
      refine ⟨some n, fun v hv => ?_, hleaves, hsub, fun hr => ?_⟩
      · cases hv
        exact ⟨hmem, hother, hmin⟩
      · have hne : ∀ m ∈ Hub.liveUnpinned w'.state, m ≠ n := by
          rintro m hm rfl
          exact hgone hr hm
        have hlen := Hub.length_liveUnpinned_le
          (l := (Hub.liveUnpinned w.state).erase n) fun m hm =>
            (List.mem_erase_of_ne (hne m hm)).mpr (hsub m hm)
        have hpos' := List.length_pos_of_mem hmem
        rw [List.length_erase_of_mem hmem] at hlen
        omega

/-- What an attempt to connect leaves. -/
theorem leaves_connectTimed {cfg : MCPServerConfig} {r : Except Exc Unit} (hw : Fit t w)
    (h : (connectTimed cfg).Exec (hubAllowing allowed) OnlyCalls t w r w') :
    Leaves true t [cfg.name] w w' ∧
      ∀ c, (Hub.evictedCaps w'.state).get? cfg.name = some c →
        (Hub.evictedCaps w.state).get? cfg.name = some c := by
  have hoperates : Operates allowed true (· = .cancelled) cfg.name (connectTimed cfg) :=
    fun _ _ => frames_connectTimed (stops_cancelled allowed)
  refine ⟨(hoperates.leaves hw h).2, ?_⟩
  have huncached : Comes allowed (fun s => ∀ c, s.evictedCaps.get? cfg.name = some c →
      (Hub.evictedCaps w.state).get? cfg.name = some c) (· = .cancelled) (connectTimed cfg) := by
    refine comes_connectTimed (stops_cancelled allowed) fun s hs => ⟨fun c hc => ?_, ?_⟩
    · rw [Act.evictedCaps_eval] at hc
      exact hs c hc
    · intro a ha s' hs' c hc
      rw [Act.evictedCaps_eval] at hc
      cases a with
      | connectReturned y =>
        have hy : y.name = cfg.name := congrArg ConnRef.name ha
        rw [Act.evictedCaps, Dict.get?_erase, if_pos hy] at hc
        cases hc
      | popEvictedCaps n => exact ha.elim
      | cacheCapabilities n => exact ha.elim
      | closeAll => exact ha.elim
      | _ => exact hs' c hc
  exact (huncached.exec (fun hrely hs => hrely.evictedCaps ▸ hs) (fun _ hc => hc) hw.born h).2.1

/-- Room is made for a backend unless it is pinned. -/
theorem exec_makeRoom {cfg : MCPServerConfig} {r : Except Exc Unit} (hw : Fit t w)
    (hfind : (Hub.config w.state).find? name = some cfg)
    (hdown : ∀ x, (Hub.connections w.state).get? name = some x →
      Hub.isConnected w.state x = false)
    (hpos : 1 ≤ (Hub.config w.state).maxLiveBackends)
    (hcap : (Hub.liveUnpinned w.state).length ≤ (Hub.config w.state).maxLiveBackends)
    (h : (when (!cfg.isPinned) (applyLruCap name)).Exec (hubAllowing allowed) OnlyCalls t w r w') :
    ∃ victim : Option String, (∀ v ∈ victim, Victim name w.state v) ∧
      (cfg.isPinned = true → victim = none) ∧ Leaves true t victim.toList w w' ∧
      (∀ m ∈ Hub.liveUnpinned w'.state, m ∈ Hub.liveUnpinned w.state) ∧
      (r = .ok () → name ∈ Hub.pinnedNames w.state ∨
        (Hub.liveUnpinned w'.state).length < (Hub.config w.state).maxLiveBackends) := by
  cases hpin : cfg.isPinned with
  | false =>
    rw [HubOp.when, hpin, if_pos (by decide)] at h
    obtain ⟨victim, hvictim, hleaves, hsub, hroom⟩ := exec_applyLruCap hw hdown hpos hcap h
    exact ⟨victim, hvictim, by simp, hleaves, hsub, fun hr => Or.inr (hroom hr)⟩
  | true =>
    rw [HubOp.when, hpin, if_neg (by decide)] at h
    obtain ⟨-, rfl⟩ := h
    have hname : cfg.name = name := by simpa using List.find?_some hfind
    refine ⟨none, by simp, fun _ => rfl, .refl hw _, fun _ hm => hm, fun _ => Or.inl ?_⟩
    exact List.mem_map.mpr ⟨cfg, List.mem_filter.mpr ⟨List.mem_of_find?_eq_some hfind, hpin⟩, hname⟩

/-- Room is made, and the backend is connected. -/
theorem roomMade_of_attempt {cfg : MCPServerConfig} {r : Except Exc Unit} (hw : Fit t w)
    (hfind : (Hub.config w.state).find? name = some cfg)
    (hdown : ∀ x, (Hub.connections w.state).get? name = some x →
      Hub.isConnected w.state x = false)
    (hpos : 1 ≤ (Hub.config w.state).maxLiveBackends)
    (hcap : (Hub.liveUnpinned w.state).length ≤ (Hub.config w.state).maxLiveBackends)
    (h : Op.Exec (hubAllowing allowed) OnlyCalls t
      (do when (!cfg.isPinned) (applyLruCap name); connectTimed cfg) w r w') :
    ∃ victim, RoomMade name victim w.state w'.state ∧ (cfg.isPinned = true → victim = none) ∧
      (Hub.liveUnpinned w'.state).length ≤ (Hub.config w.state).maxLiveBackends ∧ t < w'.next := by
  have hname : cfg.name = name := by simpa using List.find?_some hfind
  rcases Op.exec_bind.mp h with ⟨_, u, hmake, hconnect⟩ | ⟨e, hmake, -⟩
  · obtain ⟨victim, hvictim, hpin, hleaves, hsub, hroom⟩ :=
      exec_makeRoom hw hfind hdown hpos hcap hmake
    obtain ⟨hleaves', huncached⟩ := leaves_connectTimed hleaves.fit hconnect
    rw [hname] at hleaves' huncached
    refine ⟨victim, ⟨hvictim, fun n hn hv => ?_, fun {n c} hv hc => ?_⟩, hpin, ?_,
      hleaves'.fit.born⟩
    · exact (hleaves.same n (by simpa using hv)).trans (hleaves'.same n (by simpa using hn))
    · rw [← (hleaves.same n (by simpa using hv)).evictedCaps]
      by_cases hn : n = name
      · subst hn
        exact huncached c hc
      · rwa [(hleaves'.same n (by simpa using hn)).evictedCaps] at hc
    · have hold : ∀ m ∈ Hub.liveUnpinned w'.state, m ≠ name → m ∈ Hub.liveUnpinned u.state :=
        fun m hm hne => ((hleaves'.same m (by simpa using hne)).mem_liveUnpinned
          (hleaves'.config rfl)).mp hm
      rcases hroom rfl with hpinned | hlt
      · -- A pinned backend does not count.
        have hne : ∀ m ∈ Hub.liveUnpinned w'.state, m ≠ name := by
          rintro m hm rfl
          refine (Hub.mem_liveUnpinned.mp hm).2 ?_
          rwa [Hub.pinnedNames, hleaves'.config rfl, hleaves.config rfl]
        have hlen := Hub.length_liveUnpinned_le (l := Hub.liveUnpinned w.state) fun m hm =>
          hsub m (hold m hm (hne m hm))
        omega
      · have hname : ∀ m ∈ Hub.liveUnpinned w'.state, m ∈ name :: Hub.liveUnpinned u.state := by
          intro m hm
          by_cases hne : m = name
          · exact hne ▸ List.mem_cons_self
          · exact List.mem_cons_of_mem _ (hold m hm hne)
        have hlen := Hub.length_liveUnpinned_le hname
        rw [List.length_cons] at hlen
        omega
  · obtain ⟨victim, hvictim, hpin, hleaves, hsub, -⟩ := exec_makeRoom hw hfind hdown hpos hcap hmake
    have hsame : ∀ n ∉ victim, SameServer n w.state w'.state :=
      fun n hn => hleaves.same n (by simpa using hn)
    refine ⟨victim, ⟨hvictim, fun n _ hn => hsame n hn, fun {n c} hn hc => ?_⟩, hpin, ?_,
      hleaves.fit.born⟩
    · rwa [(hsame n hn).evictedCaps] at hc
    · exact (Hub.length_liveUnpinned_le hsub).trans hcap

/-- What a call of `ensure_connected` keeps to. -/
structure CapKept (name : String) (s s' : Hub) : Prop where
  length_le : s'.liveUnpinned.length ≤ s.config.maxLiveBackends
  room : ∃ victim, RoomMade name victim s s' ∧
    ((∃ x, s.connections.get? name = some x ∧ s.isConnected x = true) →
      victim = none ∧ SameServer name s s') ∧
    ((∃ cfg, s.config.find? name = some cfg ∧ cfg.isPinned = true) → victim = none)

theorem OnlyCalls.capKept {s s' : Hub} (h : OnlyCalls s s')
    (hcap : s.liveUnpinned.length ≤ s.config.maxLiveBackends) : CapKept name s s' where
  length_le := h.liveUnpinned ▸ hcap
  room := by
    refine ⟨none, ⟨nofun, fun n _ _ => h.sameServer n, fun _ hc => ?_⟩,
      fun _ => ⟨rfl, h.sameServer name⟩, fun _ => rfl⟩
    rwa [h.evictedCaps] at hc

/-- What comes of an attempt is looked at. -/
theorem exec_of_lookup {p q : HubOp Unit} {f : Hub → Bool} {r : Except Exc Bool}
    (h : Op.Exec (hubAllowing allowed) OnlyCalls t
      (do p; q; let s ← HubOp.get; pure (f s)) w r w') :
    ∃ r', Op.Exec (hubAllowing allowed) OnlyCalls t (do p; q) w r' w' := by
  rcases Op.exec_bind.mp h with ⟨_, u, hp, h⟩ | ⟨e, hp, -⟩
  · rcases Op.exec_bind.mp h with ⟨_, v, hq, h⟩ | ⟨e, hq, -⟩
    · obtain ⟨-, rfl⟩ := h
      exact ⟨.ok (), Op.exec_bind.mpr (Or.inl ⟨_, u, hp, hq⟩)⟩
    · exact ⟨.error e, Op.exec_bind.mpr (Or.inl ⟨_, u, hp, hq⟩)⟩
  · exact ⟨.error e, Op.exec_bind.mpr (Or.inr ⟨e, hp, rfl⟩)⟩

/-- The attempt for a backend that is not connected, between two stretches that do nothing. -/
theorem capKept_of_attempt {cfg : MCPServerConfig} {r : Except Exc Unit} {s' : Hub}
    {u : World hubSignature} (hw : Fit t w) (hborn : t < u.next) (hu : OnlyCalls w.state u.state)
    (hlast : Hub.lastActivity u.state = Hub.lastActivity w.state)
    (hfind : (Hub.config w.state).find? name = some cfg)
    (hdown : ∀ x, (Hub.connections w.state).get? name = some x →
      ¬ Hub.isConnected w.state x = true)
    (hpos : 1 ≤ (Hub.config w.state).maxLiveBackends)
    (hcap : (Hub.liveUnpinned w.state).length ≤ (Hub.config w.state).maxLiveBackends)
    (h : Op.Exec (hubAllowing allowed) OnlyCalls t
      (do when (!cfg.isPinned) (applyLruCap name); connectTimed cfg) u r w')
    (hend : OnlyCalls w'.state s') : CapKept name w.state s' := by
  have hdown' : ∀ x, (Hub.connections u.state).get? name = some x →
      Hub.isConnected u.state x = false := by
    intro x hx
    rw [hu.connections] at hx
    refine Eq.trans (congrArg (fun c => decide (c = ConnectionState.connected)) (hu.state x.id)) ?_
    exact Bool.eq_false_iff.mpr (hdown x hx)
  obtain ⟨victim, hroom, hpin, hlen, -⟩ :=
    roomMade_of_attempt ⟨hborn, hu.keyed hw.keyed⟩ (by rwa [hu.config]) hdown' (by rwa [hu.config])
      (by rwa [hu.config, hu.liveUnpinned]) h
  refine ⟨?_, victim, hroom.onlyCalls hu hlast hend, ?_, ?_⟩
  · rw [hend.liveUnpinned, ← hu.config]
    exact hlen
  · rintro ⟨x, hx, hconn⟩
    exact absurd hconn (hdown x hx)
  · rintro ⟨c, hc, hcpin⟩
    obtain rfl := Option.some.inj (hc.symm.trans hfind)
    exact hpin hcpin

/-- **A call of `ensure_connected` keeps the cap**: it evicts one backend at most, live, unpinned,
another one and used least recently, and none for a backend that is connected or pinned. -/
theorem ensureConnected_keeps_cap {r : Except Exc Bool} (hw : Fit t w)
    (hpos : 1 ≤ (Hub.config w.state).maxLiveBackends)
    (hcap : (Hub.liveUnpinned w.state).length ≤ (Hub.config w.state).maxLiveBackends)
    (h : (ensureConnected name).Exec (hubAllowing allowed) OnlyCalls t w r w') :
    CapKept name w.state w'.state := by
  obtain ⟨v, hbody, rfl⟩ := Op.exec_within.mp h
  have hask : OnlyCalls w.state (w.exec (hubAllowing allowed) t
      (.push (.note (.asked [name])) (.requesting [name]))).state := onlyCalls_exec trivial
  have hleave : ∀ u : World hubSignature,
      OnlyCalls u.state (u.exec (hubAllowing allowed) t (.pop .nop)).state :=
    fun u => onlyCalls_exec (s := .pop .nop) trivial
  replace hbody := Op.exec_get_bind.mp hbody
  split at hbody
  · obtain ⟨-, rfl⟩ := hbody
    exact (hask.trans (hleave _)).capKept hcap
  · next hnot =>
    replace hbody := Op.exec_get_bind.mp hbody
    split at hbody
    · obtain ⟨-, rfl⟩ := hbody
      exact (hask.trans (hleave _)).capKept hcap
    · next cfg hfind =>
      obtain ⟨v', hattempt, rfl⟩ := Op.exec_within.mp hbody
      obtain ⟨r', hattempt⟩ := exec_of_lookup hattempt
      have harm : OnlyCalls w.state ((w.exec (hubAllowing allowed) t
          (.push (.note (.asked [name])) (.requesting [name]))).exec (hubAllowing allowed) t
            (.push .nop (.armed [name]))).state := hask.trans (onlyCalls_exec trivial)
      have hdown : ∀ x, (Hub.connections w.state).get? name = some x →
          ¬ Hub.isConnected w.state x = true := by
        intro x hx hconn
        refine hnot ?_
        show ((Hub.connections w.state).get? name).any (fun x => Hub.isConnected w.state x) = true
        rw [hx]
        exact hconn
      refine capKept_of_attempt hw ?_ harm rfl hfind hdown hpos hcap hattempt
        ((hleave v').trans (hleave _))
      exact hw.born

end Room

/-- A hub with room for one backend, which is live, and another one that is not. -/
def fullWorld : World hubSignature :=
  { state :=
      { config := { mcpServers := [{ name := "a" }, { name := "b" }], maxLiveBackends := 1 }
        connections := Dict.empty.set "a" ⟨0, { name := "a" }⟩
        conns := fun _ => { state := .connected, outbound := true }
        nextConn := 1 }
    tasks := fun _ => .unborn
    next := 1 }

/-- The live backend has to make room for the other one. -/
theorem ensureConnected_keeps_cap_full : ∃ r w', Fit 0 fullWorld ∧
    1 ≤ (Hub.config fullWorld.state).maxLiveBackends ∧
    (Hub.liveUnpinned fullWorld.state).length ≤ (Hub.config fullWorld.state).maxLiveBackends ∧
    (ensureConnected "b").Exec (hubAllowing fun _ _ _ => true) OnlyCalls 0 fullWorld r w' ∧
    CapKept "b" fullWorld.state w'.state ∧ Hub.liveUnpinned w'.state = ["b"] := by
  obtain ⟨r, w', h, hlive⟩ := Op.exists_exec_of_play (M := hubAllowing fun _ _ _ => true) (t := 0)
    OnlyCalls (w := fullWorld) .refl (p := ensureConnected "b") Nat.zero_lt_one
    [.ok, .ok, .connected {}, .ok] (fun _ w => Hub.liveUnpinned w.state = ["b"]) (by decide +kernel)
  have hkeyed : Keyed fullWorld.state := by
    have hget : ∀ {n x}, (Hub.connections fullWorld.state).get? n = some x →
        n = "a" ∧ x = ⟨0, { name := "a" }⟩ := by
      intro n x hx
      rw [fullWorld, Dict.get?_set] at hx
      split at hx
      · next hn => exact ⟨hn.symm, (Option.some.inj hx).symm⟩
      · cases hx
    refine ⟨fun hx => ?_, fun hx hx' _ => (hget hx).1.trans (hget hx').1.symm⟩
    rw [(hget hx).2]
    exact Nat.zero_lt_one
  have hw : Fit 0 fullWorld := ⟨Nat.zero_lt_one, hkeyed⟩
  have hcap : (Hub.liveUnpinned fullWorld.state).length ≤
      (Hub.config fullWorld.state).maxLiveBackends := by decide +kernel
  have hpos : 1 ≤ (Hub.config fullWorld.state).maxLiveBackends := le_refl 1
  have hkept : CapKept "b" fullWorld.state w'.state :=
    @ensureConnected_keeps_cap (fun _ _ _ => true) 0 fullWorld w' "b" r hw hpos hcap h
  have hlive' : Hub.liveUnpinned w'.state = ["b"] := of_decide_eq_true hlive
  exact ⟨r, w', hw, hpos, hcap, h, hkept, hlive'⟩

end SlmMcpHub
