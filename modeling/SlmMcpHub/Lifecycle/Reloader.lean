import SlmMcpHub.Federation.References
import SlmMcpHub.Library.Execution
import SlmMcpHub.Lifecycle.ConfigDiff

/-!
# Reloading a configuration

`lifecycle/reloader.py`: the operations of the manager that `apply_config` runs for a difference,
one after the other, and what they do to the configuration of the manager and to its connections.

An operation on one backend leaves the others alone. What it does to its own goes by two things
only: the entry the configuration has for the backend, and whether it has a connection, up or down.

## Main definitions

* `ConfigReloader.applyConfig`
* `calm` — the hub, when nothing fails
* `LeavesAlone` — what other tasks may do while a reload waits
* `Hub.entry`, `Hub.link` — what an operation on a backend goes by
* `Affects` — what it does

## Main results

* `affects_removeServer`, `affects_replaceServer`, `affects_addServer`
-/

namespace SlmMcpHub

open HubOp ConnectionManager MCPConnection

namespace ConfigReloader

/-- `_apply_removes` -/
def applyRemoves (d : ConfigDiff) : HubOp Unit :=
  Op.forEach d.removed fun name =>
    catchException (do let _ ← removeServer name) fun _ => pure ()

/-- `_apply_modifies` -/
def applyModifies (d : ConfigDiff) : HubOp Unit :=
  Op.forEach d.modified fun cfg =>
    catchException (do let _ ← replaceServer cfg) fun _ => pure ()

/-- `_apply_adds` -/
def applyAdds (d : ConfigDiff) : HubOp Unit :=
  Op.forEach d.added fun cfg =>
    catchException (do let _ ← addServer cfg) fun _ => pure ()

/-- `apply_config`. The call of the notifier at its end changes nothing here; it waits for the
notifier's own lock. -/
def applyConfig (R : Runtime) (reloadLock : ℕ) (new : HubConfig) : HubOp ConfigDiff := do
  let d ← withLock reloadLock do
    let s ← get
    let d := diffConfigs R s.config new
    if d.isEmpty then
      pure d
    else
      applyRemoves d
      applyModifies d
      applyAdds d
      pure d
  when (0 < d.changeCount) (wait' .turn)
  pure d

end ConfigReloader

/-! ### When nothing fails -/

/-- A wait does not end with an exception, but for the deadline of a drain. -/
def Res.isCalm (wt : Wait) : Res → Bool
  | .raised e => match wt with
    | .eventFor _ => e = .deadline
    | _ => false
  | _ => true

/-- The hub, when nothing fails. -/
def calm : System hubSignature :=
  { hub with ready := fun w t wt r => ready w t wt r && r.isCalm wt }

/-- What other tasks may do meanwhile: the configuration, the table of connections, and which of
them are up, stay as they are. -/
structure LeavesAlone (s s' : Hub) : Prop where
  config : s'.config = s.config
  connections : s'.connections = s.connections
  isConnected : ∀ {n y}, s.connections.get? n = some y → s'.isConnected y = s.isConnected y
  nextConn : s.nextConn ≤ s'.nextConn

/-- The table of connections goes by name, and no two of its connections share a number. -/
structure Keyed (s : Hub) : Prop where
  lt : ∀ {n x}, s.connections.get? n = some x → x.id < s.nextConn
  unique : ∀ {n n' x x'}, s.connections.get? n = some x → s.connections.get? n' = some x' →
    x.id = x'.id → n = n'

/-- The entry the configuration has for a backend. -/
def Hub.entry (s : Hub) (name : String) : Option MCPServerConfig := s.config.byName.get? name

/-- Whether a backend has a connection, and whether it is up. -/
def Hub.link (s : Hub) (name : String) : Option Bool :=
  (s.connections.get? name).map s.isConnected

theorem LeavesAlone.refl (s : Hub) : LeavesAlone s s :=
  ⟨rfl, rfl, fun _ => rfl, Nat.le_refl _⟩

theorem LeavesAlone.trans {s s' s'' : Hub} (h : LeavesAlone s s') (h' : LeavesAlone s' s'') :
    LeavesAlone s s'' where
  config := h'.config.trans h.config
  connections := h'.connections.trans h.connections
  isConnected hy := (h'.isConnected (h.connections ▸ hy)).trans (h.isConnected hy)
  nextConn := h.nextConn.trans h'.nextConn

theorem LeavesAlone.keyed {s s' : Hub} (h : LeavesAlone s s') (hs : Keyed s) : Keyed s' where
  lt hx := (hs.lt (h.connections ▸ hx)).trans_le h.nextConn
  unique hx hx' := hs.unique (h.connections ▸ hx) (h.connections ▸ hx')

theorem LeavesAlone.entry {s s' : Hub} (h : LeavesAlone s s') (n : String) :
    s'.entry n = s.entry n := by
  rw [Hub.entry, Hub.entry, h.config]

theorem LeavesAlone.link {s s' : Hub} (h : LeavesAlone s s') (n : String) :
    s'.link n = s.link n := by
  rw [Hub.link, Hub.link, h.connections]
  cases hget : s.connections.get? n with
  | none => rfl
  | some y => exact congrArg some (h.isConnected hget)

/-- The acts that change nothing of this. -/
def Act.Neutral : Act → Prop
  | .transition _ _ _ | .establish _ _ | .storeConnection _ | .popConnection _ | .closeAll
  | .setServers _ => False
  | _ => True

theorem Act.Neutral.leavesAlone {a : Act} (h : a.Neutral) (s : Hub) : LeavesAlone s (a.eval s) := by
  refine ⟨?_, ?_, fun {_ y} _ => ?_, ?_⟩
  · rw [Act.config_eval]
    cases a <;> first | rfl | exact h.elim
  · rw [Act.connections_eval]
    cases a <;> first | rfl | exact h.elim
  · refine congrArg (fun c => decide (c = ConnectionState.connected)) ?_
    show ((a.eval s).conns y.id).state = (s.conns y.id).state
    rw [Act.connState_eval]
    cases a <;> first | rfl | exact h.elim
  · exact le_nextConn_eval s a

theorem RefsValid.keyed {s : Hub} {D : Call → Prop} (h : RefsValid s D) : Keyed s where
  lt hx := h.lt (Or.inl (h.stored hx))
  unique {n n' x x'} hx hx' hid := by
    obtain rfl := h.unique (Or.inl (h.stored hx)) (Or.inl (h.stored hx')) hid
    exact (h.key hx).symm.trans (h.key hx')

/-! ### An operation on one backend -/

/-- The backends other than one are as they were in `s₀`. -/
structure Elsewhere (name : String) (s₀ s : Hub) : Prop where
  config : s.config = s₀.config
  connections : ∀ {n}, n ≠ name → s.connections.get? n = s₀.connections.get? n
  isConnected : ∀ {n y}, n ≠ name → s₀.connections.get? n = some y →
    s.isConnected y = s₀.isConnected y
  nextConn : s₀.nextConn ≤ s.nextConn
  keyed : Keyed s

/-- The connection is none of those other backends have. -/
def Apart (name : String) (s₀ : Hub) (x : ConnRef) : Prop :=
  ∀ {n y}, n ≠ name → s₀.connections.get? n = some y → y.id ≠ x.id

/-- The act is about one backend only. -/
def Act.Local (name : String) (s₀ : Hub) : Act → Prop
  | .transition x _ _ => Apart name s₀ x
  | .establish x _ => Apart name s₀ x
  | .popConnection n => n = name
  | .storeConnection _ | .closeAll | .setServers _ => False
  | _ => True

theorem Elsewhere.refl {name : String} {s : Hub} (h : Keyed s) : Elsewhere name s s :=
  ⟨rfl, fun _ => rfl, fun _ _ => rfl, Nat.le_refl _, h⟩

theorem Elsewhere.trans {name : String} {s s' s'' : Hub} (h : Elsewhere name s s')
    (h' : Elsewhere name s' s'') : Elsewhere name s s'' where
  config := h'.config.trans h.config
  connections hn := (h'.connections hn).trans (h.connections hn)
  isConnected hn hy :=
    (h'.isConnected hn ((h.connections hn).trans hy)).trans (h.isConnected hn hy)
  nextConn := h.nextConn.trans h'.nextConn
  keyed := h'.keyed

theorem LeavesAlone.elsewhere {name : String} {s s' : Hub} (h : LeavesAlone s s') (hs : Keyed s) :
    Elsewhere name s s' :=
  ⟨h.config, fun _ => by rw [h.connections], fun _ => h.isConnected, h.nextConn, h.keyed hs⟩

theorem Elsewhere.entry {name : String} {s s' : Hub} (h : Elsewhere name s s') (n : String) :
    s'.entry n = s.entry n := by
  rw [Hub.entry, Hub.entry, h.config]

theorem Elsewhere.link {name n : String} {s s' : Hub} (h : Elsewhere name s s') (hn : n ≠ name) :
    s'.link n = s.link n := by
  rw [Hub.link, Hub.link, h.connections hn]
  cases hget : s.connections.get? n with
  | none => rfl
  | some y => exact congrArg some (h.isConnected hn hget)

section Local

variable {name : String} {s₀ s : Hub} {a : Act} {x : ConnRef}

/-- Which connections are up after an act that is none of theirs. -/
theorem isConnected_eval_of_ne {y : ConnRef}
    (h : ∀ x, (∃ target ne, a = .transition x target ne) ∨ (∃ caps, a = .establish x caps) ∨
      a = .storeConnection x → y.id ≠ x.id) : (a.eval s).isConnected y = s.isConnected y := by
  refine congrArg (fun c => decide (c = ConnectionState.connected)) ?_
  show ((a.eval s).conns y.id).state = (s.conns y.id).state
  rw [Act.connState_eval]
  cases a with
  | transition x target ne => exact if_neg (h x (Or.inl ⟨target, ne, rfl⟩))
  | establish x caps => exact if_neg (h x (Or.inr (Or.inl ⟨caps, rfl⟩)))
  | storeConnection x => exact if_neg (h x (Or.inr (Or.inr rfl)))
  | _ => rfl

theorem Elsewhere.eval (h : Elsewhere name s₀ s) (ha : a.Local name s₀) :
    Elsewhere name s₀ (a.eval s) := by
  have hget : ∀ {n y}, (a.eval s).connections.get? n = some y → s.connections.get? n = some y := by
    intro n y hy
    rcases Act.get?_connections_eval hy with hold | ⟨rfl, -⟩
    · exact hold
    · exact ha.elim
  refine ⟨?_, fun {n} hn => ?_, fun {n y} hn hy => ?_, h.nextConn.trans (le_nextConn_eval s a), ?_⟩
  · rw [Act.config_eval, ← h.config]
    cases a <;> first | rfl | exact ha.elim
  · rw [Act.connections_eval, ← h.connections hn]
    cases a with
    | popConnection n' => exact Dict.get?_erase_of_ne fun heq => hn (heq.symm.trans ha)
    | storeConnection x => exact ha.elim
    | closeAll => exact ha.elim
    | _ => rfl
  · rw [← h.isConnected hn hy]
    refine isConnected_eval_of_ne fun x hx => ?_
    rcases hx with ⟨target, ne, rfl⟩ | ⟨caps, rfl⟩ | rfl
    · exact ha hn hy
    · exact ha hn hy
    · exact ha.elim
  · exact ⟨fun hx => (h.keyed.lt (hget hx)).trans_le (le_nextConn_eval s a),
      fun hx hx' => h.keyed.unique (hget hx) (hget hx')⟩

/-- A new connection of the backend. -/
theorem Elsewhere.store (h : Elsewhere name s₀ s) {cfg : MCPServerConfig} (hcfg : cfg.name = name) :
    Elsewhere name s₀ ((Act.storeConnection ⟨s.nextConn, cfg⟩).eval s) := by
  have hname : ConnRef.name ⟨s.nextConn, cfg⟩ = name := hcfg
  refine ⟨?_, fun {n} hn => ?_, fun {n y} hn hy => ?_, h.nextConn.trans (le_nextConn_eval s _), ?_⟩
  · rw [Act.config_eval, ← h.config]
    rfl
  · rw [Act.connections_eval, ← h.connections hn]
    exact Dict.get?_set_of_ne fun heq => hn (heq.symm.trans hname)
  · rw [← h.isConnected hn hy]
    refine isConnected_eval_of_ne fun x hx => ?_
    rcases hx with ⟨_, _, hx⟩ | ⟨_, hx⟩ | hx
    · cases hx
    · cases hx
    · cases hx
      exact (h.keyed.lt ((h.connections hn).trans hy)).ne
  · have hnext : ((Act.storeConnection ⟨s.nextConn, cfg⟩).eval s).nextConn = s.nextConn + 1 :=
      Act.nextConn_eval s _
    have hnew : ∀ {n y}, ((Act.storeConnection ⟨s.nextConn, cfg⟩).eval s).connections.get? n =
        some y → s.connections.get? n = some y ∨ y = ⟨s.nextConn, cfg⟩ ∧ n = name := by
      intro n y hy
      rcases Act.get?_connections_eval hy with hold | ⟨heq, hyn⟩
      · exact Or.inl hold
      · cases heq
        exact Or.inr ⟨rfl, hyn.symm.trans hname⟩
    refine ⟨fun {n x} hx => ?_, fun {n n' x x'} hx hx' hid => ?_⟩
    · rw [hnext]
      rcases hnew hx with hold | ⟨rfl, -⟩
      · exact Nat.lt_succ_of_lt (h.keyed.lt hold)
      · exact Nat.lt_succ_self _
    · rcases hnew hx with hold | ⟨rfl, rfl⟩ <;> rcases hnew hx' with hold' | ⟨rfl, rfl⟩
      · exact h.keyed.unique hold hold' hid
      · exact absurd hid (h.keyed.lt hold).ne
      · exact absurd hid.symm (h.keyed.lt hold').ne
      · rfl

theorem apart_of_get? (hs : Keyed s₀) (hx : s₀.connections.get? name = some x) :
    Apart name s₀ x :=
  fun hn hy hid => hn (hs.unique hy hx hid)

theorem apart_of_le {cfg : MCPServerConfig} {id : ℕ} (hs : Keyed s₀) (h : s₀.nextConn ≤ id) :
    Apart name s₀ ⟨id, cfg⟩ :=
  fun _ hy => ((hs.lt hy).trans_le h).ne

end Local

/-! ### Contracts in a hub where nothing fails -/

/-- The operation returns. -/
def Returns {α : Type} (r : Except Exc α) : Prop := ∃ a, r = .ok a

/-- The operation returns, or raises what `except Exception` catches. -/
def ReturnsOrRaises {α : Type} (r : Except Exc α) : Prop :=
  ∀ e, r = .error e → e.isException = true

namespace Calm

variable {α β : Type} {rest : Hub → Prop}

theorem act {a : Act} {E : Except Exc Unit → Prop} (hE : E (.ok ()))
    (h : ∀ s, rest s → rest (a.eval s)) : Op.Ends calm rest E (HubOp.act a) :=
  Op.Ends.act hE fun _ => h

theorem when {c : Prop} [Decidable c] {p : HubOp Unit} (hp : Op.Ends calm rest Returns p) :
    Op.Ends calm rest Returns (HubOp.when c p) := by
  by_cases hc : c
  · rw [HubOp.when, if_pos hc]
    exact hp
  · rw [HubOp.when, if_neg hc]
    exact .pure ⟨(), rfl⟩

theorem ite {c : Prop} [Decidable c] {p q : HubOp α} {E : Except Exc α → Prop}
    (hp : Op.Ends calm rest E p) (hq : Op.Ends calm rest E q) :
    Op.Ends calm rest E (if c then p else q) := by
  split
  · exact hp
  · exact hq

/-- One operation after another that returns. -/
theorem bind {p : HubOp α} {f : α → HubOp β} {E : Except Exc β → Prop}
    (hp : Op.Ends calm rest Returns p) (hf : ∀ a, Op.Ends calm rest E (f a)) :
    Op.Ends calm rest E (p >>= f) :=
  hp.bind (fun a _ => hf a) fun e he => by
    obtain ⟨_, h⟩ := he
    cases h

/-- What a wait may end with. -/
def Allowed (wt : Wait) (r : Except Exc Res) : Prop :=
  Returns r ∨ (∃ e, wt = .eventFor e) ∧ r = .error .deadline

theorem wait (wt : Wait) : Op.Ends calm rest (Allowed wt) (HubOp.wait wt) := by
  have hawait : Op.Ends calm rest (fun r => ∃ a, r = .ok a ∧ a.isCalm wt = true)
      (Op.await (S := hubSignature) wt : HubOp Res) :=
    .await fun w t r hr => ⟨r, rfl, (Bool.and_eq_true_iff.mp hr).2⟩
  refine hawait.bind (fun r hr => ?_) fun e ⟨_, h, _⟩ => by cases h
  obtain ⟨_, heq, hcalm⟩ := hr
  obtain rfl := Except.ok.inj heq
  cases r with
  | raised e =>
    cases wt with
    | eventFor e' =>
      obtain rfl : e = .deadline := by simpa [Res.isCalm] using hcalm
      exact .throw (Or.inr ⟨⟨e', rfl⟩, rfl⟩)
    | _ => cases hcalm
  | _ => exact .pure (Or.inl ⟨_, rfl⟩)

/-- A wait without a deadline returns. -/
theorem wait' (wt : Wait) (h : ∀ e, wt ≠ .eventFor e) :
    Op.Ends calm rest Returns (HubOp.wait' wt) := by
  refine (wait wt).bind (fun _ _ => .pure ⟨(), rfl⟩) fun e he => ?_
  rcases he with ⟨_, he⟩ | ⟨⟨e', hwt⟩, -⟩
  · cases he
  · exact absurd hwt (h e')

theorem acquire (l : ℕ) (hrest : ∀ (a : Act) s, a.Neutral → rest s → rest (a.eval s)) :
    Op.Ends calm rest Returns (HubOp.acquire l) :=
  .get_bind fun _ _ => bind (when (wait' _ nofun)) fun _ =>
    act ⟨(), rfl⟩ fun s => hrest (.take l) s trivial

theorem withLock {l : ℕ} {p : HubOp α} {E : Except Exc α → Prop} (hp : Op.Ends calm rest E p)
    (hrest : ∀ (a : Act) s, a.Neutral → rest s → rest (a.eval s)) :
    Op.Ends calm rest E (HubOp.withLock l p) :=
  bind (acquire l hrest) fun _ => hp.ensure
    (act rfl fun s => hrest (.release l) s trivial)

/-- What fails with its deadline alone fails with a timeout alone. -/
theorem deadline {p : HubOp Unit}
    (hp : Op.Ends calm rest (fun r => Returns r ∨ r = .error .deadline) p) :
    Op.Ends calm rest (fun r => Returns r ∨ r = .error .timeout)
      (tryCatch p fun (e : Exc) => (match e with
        | .deadline => throw .timeout
        | e => throw e : HubOp Unit)) := by
  refine hp.tryCatch (fun a _ => Or.inl ⟨a, rfl⟩) fun e he => ?_
  rcases he with ⟨_, he⟩ | he
  · cases he
  · obtain rfl := Except.error.inj he
    exact .throw (Or.inr rfl)

/-- A wait with a deadline returns, or its deadline has passed. -/
theorem waitForEvent (e : ℕ) : Op.Ends calm rest (fun r => Returns r ∨ r = .error .timeout)
    (HubOp.waitFor (HubOp.wait' (.eventFor e))) := by
  have hturn : Op.Ends calm rest Returns (HubOp.wait' .turn) := wait' .turn fun e => by simp
  have hevent : Op.Ends calm rest (fun r => Returns r ∨ r = .error .deadline)
      (HubOp.wait' (.eventFor e)) := by
    refine (wait (.eventFor e)).bind (fun _ _ => .pure (Or.inl ⟨(), rfl⟩)) fun e he => ?_
    rcases he with ⟨_, he⟩ | ⟨-, he⟩
    · cases he
    · exact Or.inr (by rw [Except.error.inj he])
  refine bind hturn fun _ => (deadline hevent).bind (fun _ _ => ?_) fun e he => ?_
  · exact bind hturn fun _ => .pure (Or.inl ⟨_, rfl⟩)
  · rcases he with ⟨_, he⟩ | he
    · cases he
    · exact Or.inr (by rw [Except.error.inj he])

end Calm

section Programs

variable {name : String} {s₀ : Hub} {x : ConnRef}

theorem Elsewhere.neutral (a : Act) (s : Hub) (ha : a.Neutral) (h : Elsewhere name s₀ s) :
    Elsewhere name s₀ (a.eval s) :=
  h.trans ((ha.leavesAlone s).elsewhere h.keyed)

/-- An act of an operation on the backend. -/
theorem ends_act {a : Act} (ha : a.Local name s₀) :
    Op.Ends calm (Elsewhere name s₀) Returns (HubOp.act a) :=
  Calm.act ⟨(), rfl⟩ fun _ h => h.eval ha

theorem ends_disconnect (hx : Apart name s₀ x) :
    Op.Ends calm (Elsewhere name s₀) Returns (disconnect x) := by
  refine .get_bind fun s _ => Calm.bind (Calm.when (Calm.bind ?_ fun _ => ?_)) fun _ => ?_
  · refine (Calm.wait' .close nofun).tryCatch (fun a _ => ⟨a, rfl⟩) fun e he => ?_
    obtain ⟨_, he⟩ := he
    cases he
  · exact ends_act trivial
  · exact ends_act hx

theorem ends_drainAndDisconnect (hx : Apart name s₀ x) :
    Op.Ends calm (Elsewhere name s₀) Returns (drainAndDisconnect x) := by
  refine .get_bind fun s _ => Calm.bind (Calm.when (ends_act trivial)) fun _ => ?_
  refine Calm.withLock (.get_bind fun s _ => Calm.ite (ends_disconnect hx) ?_) Elsewhere.neutral
  refine Calm.bind (ends_act hx) fun _ => .get_bind fun s _ => ?_
  refine Calm.bind (Calm.when (Calm.bind (ends_act trivial) fun _ => ?_)) fun _ =>
    ends_disconnect hx
  refine (Calm.waitForEvent s.nextEvent).tryCatch (fun a _ => ⟨a, rfl⟩) fun e he => ?_
  rcases he with ⟨_, he⟩ | he
  · cases he
  · obtain rfl := Except.error.inj he
    exact .pure ⟨(), rfl⟩

theorem ends_connect (hx : Apart name s₀ x) (timed : Bool) :
    Op.Ends calm (Elsewhere name s₀) Returns (connect x timed) := by
  refine .get_bind fun s _ => Calm.ite (.pure ⟨(), rfl⟩) (Op.Ends.within ?_ ?_ ?_)
  · exact fun _ _ h => h.eval (a := .transition x .connecting) hx
  · exact fun _ s h => Elsewhere.neutral .nop s trivial h
  · have hcaught : Op.Ends calm (Elsewhere name s₀) (fun r => ∃ a, r = .ok (.ok a))
        (HubOp.caught (HubOp.wait (.outbound timed))) := by
      refine Op.Ends.tryCatch (E := fun r => ∃ a, r = .ok (.ok a))
        ((Calm.wait (.outbound timed)).bind (fun a _ => .pure ⟨a, rfl⟩) fun e he => ?_)
        (fun _ h => h) fun e he => ?_
      · rcases he with ⟨_, he⟩ | ⟨⟨_, he⟩, -⟩ <;> cases he
      · obtain ⟨_, he⟩ := he
        cases he
    refine hcaught.bind (fun r hr => ?_) fun e he => ?_
    · obtain ⟨a, hr⟩ := hr
      obtain rfl := Except.ok.inj hr
      cases a with
      | connected caps => exact ends_act hx
      | _ => exact .pure ⟨(), rfl⟩
    · obtain ⟨_, he⟩ := he
      cases he

theorem ends_connectStored {cfg : MCPServerConfig} (hs : Keyed s₀) (hcfg : cfg.name = name) :
    Op.Ends calm (Elsewhere name s₀) Returns (connectStored cfg) := by
  intro st t w hw
  rw [connectStored, HubOp.get, Op.wp_bind]
  have hx : Apart name s₀ ⟨Hub.nextConn w.state, cfg⟩ := apart_of_le hs hw.state.nextConn
  refine hw.ends_within (hw.state.store hcfg) (fun s h => Elsewhere.neutral .nop s trivial h) ?_
  have hcaught : ∀ {p : HubOp Unit} (h : Exc → HubOp Unit),
      Op.Ends calm (Elsewhere name s₀) Returns p →
        Op.Ends calm (Elsewhere name s₀) Returns (tryCatch p h) := by
    intro p h hp
    refine hp.tryCatch (fun a _ => ⟨a, rfl⟩) fun e he => ?_
    obtain ⟨_, he⟩ := he
    cases he
  refine Calm.bind (hcaught _ (Calm.bind ?_ fun _ => ends_act trivial)) fun _ => ends_act trivial
  exact Calm.bind (Calm.wait' .turn nofun) fun _ => Calm.bind (hcaught _ (ends_connect hx true))
    fun _ => Calm.bind (Calm.wait' .turn nofun) fun _ => .pure ⟨_, rfl⟩

theorem ends_connectTimed {cfg : MCPServerConfig} (hs : Keyed s₀) (hcfg : cfg.name = name) :
    Op.Ends calm (Elsewhere name s₀) Returns (connectTimed cfg) := by
  refine .get_bind fun s _ => ?_
  cases s.connectEvents.get? cfg.name with
  | some e => exact Calm.wait' _ nofun
  | none =>
    refine Calm.bind (ends_act trivial) fun _ => (ends_connectStored hs hcfg).ensure ?_
    exact Calm.act rfl fun s => Elsewhere.neutral _ s trivial

theorem ends_report (n failure : String) :
    Op.Ends calm (Elsewhere name s₀) ReturnsOrRaises (report n failure) := by
  refine .get_bind fun s _ => ?_
  cases s.failed.get? n with
  | some message => exact .pure nofun
  | none =>
    cases s.connections.get? n with
    | none => exact .throw fun e he => by cases he; rfl
    | some x => exact .pure nofun

end Programs

/-! ### What the operations of the manager do -/

/-- The task can run: it is one of the world's, and the table of connections is in order. -/
structure Fit (t : TaskId) (w : World hubSignature) : Prop where
  born : t < w.next
  keyed : Keyed w.state

/-- A stretch of an operation that changes nothing an operation goes by. -/
structure Uneventful (t : TaskId) (w w' : World hubSignature) : Prop where
  born : t < w.next → t < w'.next
  leavesAlone : LeavesAlone w.state w'.state

/-- An operation on a backend leaves the others alone, and an entry in the configuration. -/
structure Affects (t : TaskId) (name : String) (e : Option MCPServerConfig)
    (w w' : World hubSignature) : Prop where
  fit : Fit t w'
  entry : ∀ {n}, n ≠ name → Hub.entry w'.state n = Hub.entry w.state n
  link : ∀ {n}, n ≠ name → Hub.link w'.state n = Hub.link w.state n
  own : Hub.entry w'.state name = e

/-- The executions beside tasks that leave the manager alone, when nothing fails. -/
abbrev Executes {α : Type} (t : TaskId) (p : HubOp α) (w : World hubSignature)
    (r : Except Exc α) (w' : World hubSignature) : Prop :=
  Op.Exec calm LeavesAlone t p w r w'

section Executes

variable {t : TaskId} {name : String} {e : Option MCPServerConfig}
  {u v w w' : World hubSignature} {α : Type}

theorem Uneventful.fit (h : Uneventful t w w') (hw : Fit t w) : Fit t w' :=
  ⟨h.born hw.born, h.leavesAlone.keyed hw.keyed⟩

theorem Uneventful.trans (h : Uneventful t w v) (h' : Uneventful t v w') : Uneventful t w w' :=
  ⟨h'.born ∘ h.born, h.leavesAlone.trans h'.leavesAlone⟩

theorem uneventful_exec {s : Stmt hubSignature} (h : s.toAct.Neutral) :
    Uneventful t w (w.exec calm t s) := by
  refine ⟨fun ht => ht.trans_le (w.next_exec calm t s), ?_⟩
  rw [World.state_exec]
  cases s <;> exact h.leavesAlone _

/-- What is uneventful before and after an operation does not change what it does. -/
theorem Affects.uneventful (hu : Uneventful t w u) (h : Affects t name e u v)
    (hv : Uneventful t v w') :
    Affects t name e w w' where
  fit := hv.fit h.fit
  entry {n} hn := by rw [hv.leavesAlone.entry, h.entry hn, hu.leavesAlone.entry]
  link {n} hn := by rw [hv.leavesAlone.link, h.link hn, hu.leavesAlone.link]
  own := (hv.leavesAlone.entry name).trans h.own

theorem Affects.trans {e' : Option MCPServerConfig} (h : Affects t name e w v)
    (h' : Affects t name e' v w') : Affects t name e' w w' where
  fit := h'.fit
  entry hn := (h'.entry hn).trans (h.entry hn)
  link hn := (h'.link hn).trans (h.link hn)
  own := h'.own

theorem Affects.refl (hw : Fit t w) : Affects t name (Hub.entry w.state name) w w :=
  ⟨hw, fun _ => rfl, fun _ => rfl, rfl⟩

/-- A phase of an operation on a backend. -/
theorem affects_of_ends {E : Except Exc α → Prop} {p : HubOp α} {r : Except Exc α}
    (hp : Op.Ends calm (Elsewhere name w.state) E p) (hw : Fit t w) (h : Executes t p w r w') :
    E r ∧ Elsewhere name w.state w'.state ∧ Fit t w' := by
  have hrest : Op.AtRest (Elsewhere name w.state) (w.tasks t).stack t w :=
    ⟨.refl hw.keyed, hw.born, rfl⟩
  obtain ⟨hE, hstate, hborn, -⟩ :=
    hp.exec (fun s s' hrely hs => hs.trans (hrely.elsewhere hs.keyed)) hrest h
  exact ⟨hE, hstate, hborn, hstate.keyed⟩

/-- A stretch that only waits, and changes nothing an operation goes by. -/
theorem exec_uneventful {E : Except Exc α → Prop} {p : HubOp α} {r : Except Exc α}
    (hp : Op.Ends calm (LeavesAlone w.state) E p) (hw : t < w.next) (h : Executes t p w r w') :
    E r ∧ Uneventful t w w' := by
  have hrest : Op.AtRest (LeavesAlone w.state) (w.tasks t).stack t w := ⟨.refl _, hw, rfl⟩
  obtain ⟨hE, hstate, hborn, -⟩ := hp.exec (fun s s' hrely hs => hs.trans hrely) hrest h
  exact ⟨hE, fun _ => hborn, hstate⟩

theorem exec_acquire {l : ℕ} {r : Except Exc Unit} (hw : t < w.next)
    (h : Executes t (acquire l) w r w') : Returns r ∧ Uneventful t w w' :=
  exec_uneventful (Calm.acquire l fun _ s ha hs => hs.trans (ha.leavesAlone s)) hw h

theorem exec_withLock {l : ℕ} {p : HubOp α} {r : Except Exc α} (hw : t < w.next)
    (h : Executes t (withLock l p) w r w') :
    ∃ u v, Uneventful t w u ∧ Executes t p u r v ∧ Uneventful t v w' := by
  rcases Op.exec_bind.mp h with ⟨_, u, hacquire, h⟩ | ⟨_, hacquire, -⟩
  · obtain ⟨v, hp, rfl⟩ := Op.exec_ensure.mp h
    exact ⟨u, v, (exec_acquire hw hacquire).2, hp, uneventful_exec trivial⟩
  · obtain ⟨⟨_, h⟩, -⟩ := exec_acquire hw hacquire
    cases h

theorem exec_inside {enter : Act} {c : Call} {p : HubOp α} {r : Except Exc α}
    (henter : enter.Neutral) (h : Executes t (inside enter c p) w r w') :
    ∃ u v, Uneventful t w u ∧ Executes t p u r v ∧ Uneventful t v w' := by
  obtain ⟨v, hp, rfl⟩ := Op.exec_within.mp h
  exact ⟨_, v, uneventful_exec (s := .push enter c) henter, hp,
    uneventful_exec (s := .pop .nop) trivial⟩

/-! ### Writing the servers -/

/-- The servers of a configuration under their names. -/
def namedServers (l : List MCPServerConfig) : List (String × MCPServerConfig) :=
  l.map fun s => (s.name, s)

theorem entry_eq (s : Hub) (n : String) :
    s.entry n = Dict.lastOf (namedServers s.config.mcpServers) n := by
  rw [Hub.entry, HubConfig.byName, Dict.get?_setAll, Dict.get?_empty, Option.or_none]
  rfl

theorem lastOf_filter_name (l : List MCPServerConfig) (name n : String) :
    Dict.lastOf (namedServers (l.filter fun c => c.name ≠ name)) n =
      if n = name then none else Dict.lastOf (namedServers l) n := by
  induction l with
  | nil => simp [namedServers]
  | cons c l ih =>
    simp only [namedServers] at ih ⊢
    by_cases hc : c.name = name
    · rw [List.filter_cons_of_neg (by simpa using hc), ih, List.map_cons, Dict.lastOf_cons]
      by_cases hn : n = name
      · simp [hn]
      · have hne : c.name ≠ n := fun h => hn (h.symm.trans hc)
        simp [hn, hne]
    · rw [List.filter_cons_of_pos (by simpa using hc), List.map_cons, Dict.lastOf_cons, ih,
        List.map_cons, Dict.lastOf_cons]
      by_cases hn : n = name
      · simp [hn, hc]
      · simp [hn]

theorem lastOf_map_replace (l : List MCPServerConfig) (cfg : MCPServerConfig) (n : String) :
    Dict.lastOf (namedServers (l.map fun c => if c.name = cfg.name then cfg else c)) n =
      if n = cfg.name then (Dict.lastOf (namedServers l) n).map fun _ => cfg
      else Dict.lastOf (namedServers l) n := by
  induction l with
  | nil => simp [namedServers]
  | cons c l ih =>
    simp only [namedServers] at ih ⊢
    rw [List.map_cons, List.map_cons, Dict.lastOf_cons, ih, List.map_cons, Dict.lastOf_cons]
    by_cases hn : n = cfg.name
    · by_cases hc : c.name = cfg.name
      · cases Dict.lastOf (l.map fun s => (s.name, s)) n <;> simp [hn, hc]
      · cases Dict.lastOf (l.map fun s => (s.name, s)) n <;> simp [hn, hc]
    · have hne : cfg.name ≠ n := Ne.symm hn
      by_cases hc : c.name = cfg.name
      · simp [hn, hc, hne]
      · simp [hn, hc]

theorem lastOf_append_server (l : List MCPServerConfig) (cfg : MCPServerConfig) (n : String) :
    Dict.lastOf (namedServers (l ++ [cfg])) n =
      if n = cfg.name then some cfg else Dict.lastOf (namedServers l) n := by
  rw [namedServers, List.map_append, Dict.lastOf_append]
  by_cases hn : n = cfg.name
  · simp [Dict.lastOf_cons, hn]
  · have hne : cfg.name ≠ n := Ne.symm hn
    simp [Dict.lastOf_cons, hn, hne, namedServers]

theorem find?_isNone_iff (s : Hub) (n : String) :
    (s.config.find? n).isNone ↔ s.entry n = none := by
  rw [entry_eq, Dict.lastOf_eq_none_iff, Option.isNone_iff_eq_none, HubConfig.find?,
    List.find?_eq_none, namedServers]
  simp [eq_comm]

theorem Fit.setServers (hw : Fit t w) (l : List MCPServerConfig) :
    Fit t (w.exec calm t (.act (.setServers l))) :=
  ⟨hw.born, fun hx => hw.keyed.lt hx, fun hx => hw.keyed.unique hx⟩

/-- The servers are written, those of the other backends as they were. -/
theorem affects_setServers {l : List MCPServerConfig} (hu : Elsewhere name w.state u.state)
    (hl : ∀ {n}, n ≠ name → Dict.lastOf (namedServers l) n = Hub.entry u.state n)
    (hv : Elsewhere name (u.exec calm t (.act (.setServers l))).state v.state) (hfit : Fit t v) :
    Affects t name (Dict.lastOf (namedServers l) name) w v := by
  have hentry : ∀ n, Hub.entry (u.exec calm t (.act (.setServers l))).state n =
      Dict.lastOf (namedServers l) n := fun n => entry_eq _ n
  refine ⟨hfit, fun {n} hn => ?_, fun {n} hn => ?_, ?_⟩
  · rw [hv.entry, hentry, hl hn, hu.entry]
  · rw [hv.link hn, ← hu.link hn]
    rfl
  · rw [hv.entry, hentry]

/-! ### The operations -/

theorem elsewhere_act {s₀ : Hub} {a : Act} (h : Elsewhere name s₀ w.state) (ha : a.Local name s₀) :
    Elsewhere name s₀ (w.exec calm t (.act a)).state := by
  rw [World.state_exec]
  exact h.eval ha

theorem Fit.act {a : Act} (name : String) (hw : Fit t w) (ha : a.Local name w.state) :
    Fit t (w.exec calm t (.act a)) :=
  ⟨hw.born, (elsewhere_act (Elsewhere.refl hw.keyed) ha).keyed⟩

/-- An act of an operation on the backend, and the rest of the operation. -/
theorem Elsewhere.next {s₀ : Hub} {a : Act} {f : Unit → HubOp α} {r : Except Exc α}
    (h : Executes t (act a >>= f) w r w') (hw : Elsewhere name s₀ w.state) (hborn : t < w.next)
    (ha : a.Local name s₀) :
    ∃ u, Executes t (f ()) u r w' ∧ Elsewhere name s₀ u.state ∧ t < u.next :=
  ⟨_, h, elsewhere_act hw ha, hborn⟩

/-- What `remove_server` does under the lock. -/
theorem affects_deregister {r : Except Exc Unit} (hw : Fit t w)
    (h : Executes t (deregister name) w r w') : Returns r ∧ Affects t name none w w' := by
  obtain ⟨w₁, h, h₁, hborn⟩ := Elsewhere.next h (.refl hw.keyed) hw.born rfl
  obtain ⟨w₂, h, h₂, hborn⟩ := Elsewhere.next h h₁ hborn trivial
  obtain ⟨w₃, h, h₃, hborn⟩ := Elsewhere.next h h₂ hborn trivial
  obtain ⟨w₄, h, h₄, hborn⟩ := Elsewhere.next h h₃ hborn trivial
  obtain ⟨rfl, rfl⟩ := h
  refine ⟨⟨(), rfl⟩, ?_⟩
  have hfit := Fit.setServers ⟨hborn, h₄.keyed⟩
    ((Hub.config w₄.state).mcpServers.filter fun cfg => cfg.name ≠ name)
  have hnone := lastOf_filter_name (Hub.config w₄.state).mcpServers name name
  rw [if_pos rfl] at hnone
  rw [← hnone]
  refine affects_setServers h₄ (fun {n} hn => ?_)
    (elsewhere_act (a := .syncRegistry) (.refl hfit.keyed) trivial)
    (hfit.act name trivial)
  rw [lastOf_filter_name, if_neg hn, entry_eq]

/-- **`remove_server`** does something to a backend that has a connection. -/
theorem affects_removeServer {r : Except Exc (Bool × String)} (hw : Fit t w)
    (h : Executes t (removeServer name) w r w') :
    Returns r ∧
      Affects t name (if Hub.link w.state name = none then Hub.entry w.state name else none)
        w w' := by
  rw [removeServer, HubOp.get] at h
  replace h := Op.exec_get_bind.mp h
  cases hget : (Hub.connections w.state).get? name with
  | none =>
    rw [hget] at h
    obtain ⟨rfl, rfl⟩ := h
    have hlink : Hub.link w.state name = none := by rw [Hub.link, hget]; rfl
    rw [if_pos hlink]
    exact ⟨⟨_, rfl⟩, .refl hw⟩
  | some x =>
    rw [hget] at h
    have hlink : Hub.link w.state name ≠ none := by rw [Hub.link, hget]; simp
    rw [if_neg hlink]
    rcases Op.exec_bind.mp h with ⟨_, u, hdrain, h⟩ | ⟨_, hdrain, -⟩
    · obtain ⟨-, hu, hfit⟩ := affects_of_ends
        (ends_drainAndDisconnect (apart_of_get? hw.keyed hget)) hw hdrain
      rcases Op.exec_bind.mp h with ⟨_, v, hlock, h⟩ | ⟨_, hlock, -⟩
      · obtain ⟨rfl, rfl⟩ := h
        obtain ⟨u', v', hacquire, hderegister, hrelease⟩ := exec_withLock hfit.born hlock
        have haffects := (affects_deregister (hacquire.fit hfit) hderegister).2.uneventful hacquire
          (hrelease.trans (uneventful_exec (s := .act (.note (.removed name))) trivial))
        refine ⟨⟨_, rfl⟩, haffects.fit, fun {n} hn => ?_, fun {n} hn => ?_, haffects.own⟩
        · rw [haffects.entry hn, hu.entry]
        · rw [haffects.link hn, hu.link hn]
      · obtain ⟨u', v', hacquire, hderegister, -⟩ := exec_withLock hfit.born hlock
        obtain ⟨⟨_, h⟩, -⟩ := affects_deregister (hacquire.fit hfit) hderegister
        cases h
    · obtain ⟨⟨_, h⟩, -⟩ := affects_of_ends
        (ends_drainAndDisconnect (apart_of_get? hw.keyed hget)) hw hdrain
      cases h

/-- What `replace_server` does under the lock. -/
theorem affects_replaceConfig {cfg : MCPServerConfig} {r : Except Exc Unit} (hw : Fit t w)
    (h : Executes t (replaceConfig cfg) w r w') :
    Returns r ∧ Affects t cfg.name ((Hub.entry w.state cfg.name).map fun _ => cfg) w w' ∧
      Hub.link w'.state cfg.name = none := by
  have hpopped :
      Hub.link (w.exec calm t (.act (.popConnection cfg.name))).state cfg.name = none := by
    show (((Act.popConnection cfg.name).eval w.state).connections.get? cfg.name).map _ = none
    rw [Act.connections_eval]
    exact congrArg _ (Dict.get?_erase_self (Hub.connections w.state) cfg.name)
  have h₁ := elsewhere_act (t := t) (a := .popConnection cfg.name) (.refl hw.keyed) rfl
  have h₂ := elsewhere_act (t := t) (a := .popFailed cfg.name) h₁ trivial
  have hlink := (uneventful_exec (t := t) (w := w.exec calm t (.act (.popConnection cfg.name)))
    (s := .act (.popFailed cfg.name)) trivial).leavesAlone.link cfg.name
  rw [hpopped] at hlink
  obtain ⟨rfl, rfl⟩ := h
  have hborn : t < ((w.exec calm t (.act (.popConnection cfg.name))).exec calm t
    (.act (.popFailed cfg.name))).next := hw.born
  generalize (w.exec calm t (.act (.popConnection cfg.name))).exec calm t
    (.act (.popFailed cfg.name)) = u at h₂ hlink hborn ⊢
  have hfit := Fit.setServers ⟨hborn, h₂.keyed⟩
    ((Hub.config u.state).mcpServers.map fun c => if c.name = cfg.name then cfg else c)
  refine ⟨⟨(), rfl⟩, ?_, hlink⟩
  have hown := lastOf_map_replace (Hub.config u.state).mcpServers cfg cfg.name
  rw [if_pos rfl, ← entry_eq, h₂.entry] at hown
  rw [← hown]
  refine affects_setServers h₂ (fun {n} hn => ?_) (.refl hfit.keyed) hfit
  rw [lastOf_map_replace, if_neg hn, entry_eq]

/-- Whether `add_server` finds the backend connected. -/
theorem any_isConnected_iff (s : Hub) (n : String) :
    (s.connections.get? n).any (fun x => s.isConnected x) = true ↔ s.link n = some true := by
  rw [Hub.link]
  cases s.connections.get? n <;> simp

/-- The entry of a backend when it has been added. -/
def addedEntry (cfg : MCPServerConfig) (link : Option Bool) (entry : Option MCPServerConfig) :
    Option MCPServerConfig :=
  if link = some true then entry else entry.or (some cfg)

/-- What `add_server` does under the lock. -/
theorem affects_registerAndConnect {cfg : MCPServerConfig} {r : Except Exc Bool} (hw : Fit t w)
    (h : Executes t (registerAndConnect cfg) w r w') :
    Returns r ∧ Affects t cfg.name
      (addedEntry cfg (Hub.link w.state cfg.name) (Hub.entry w.state cfg.name)) w w' := by
  change Executes t (if ((Hub.connections w.state).get? cfg.name).any fun x =>
      Hub.isConnected w.state x then pure true
    else do
      when ((Hub.config w.state).find? cfg.name).isNone
        (act (.setServers ((Hub.config w.state).mcpServers ++ [cfg])))
      connectTimed cfg
      pure false) w r w' at h
  by_cases hlink : Hub.link w.state cfg.name = some true
  · rw [if_pos ((any_isConnected_iff _ _).mpr hlink)] at h
    obtain ⟨rfl, rfl⟩ := h
    rw [addedEntry, if_pos hlink]
    exact ⟨⟨_, rfl⟩, .refl hw⟩
  rw [if_neg fun h => hlink ((any_isConnected_iff _ _).mp h)] at h
  rw [addedEntry, if_neg hlink]
  -- The attempt that follows leaves the configuration alone.
  have hattempt : ∀ {u}, Fit t u →
      Executes t (connectTimed cfg >>= fun _ => pure false) u r w' →
        Returns r ∧ Elsewhere cfg.name u.state w'.state ∧ Fit t w' := by
    intro u hu h
    rcases Op.exec_bind.mp h with ⟨_, v, hconnect, h⟩ | ⟨_, hconnect, -⟩
    · obtain ⟨rfl, rfl⟩ := h
      exact ⟨⟨_, rfl⟩, (affects_of_ends (ends_connectTimed hu.keyed rfl) hu hconnect).2⟩
    · obtain ⟨⟨_, h⟩, -⟩ := affects_of_ends (ends_connectTimed hu.keyed rfl) hu hconnect
      cases h
  by_cases hnone : Hub.entry w.state cfg.name = none
  · rw [HubOp.when, if_pos ((find?_isNone_iff _ _).mpr hnone)] at h
    have hfit := hw.setServers ((Hub.config w.state).mcpServers ++ [cfg])
    obtain ⟨hreturns, helse, hfit'⟩ := hattempt hfit h
    have hown := lastOf_append_server (Hub.config w.state).mcpServers cfg cfg.name
    rw [if_pos rfl] at hown
    rw [hnone, Option.none_or, ← hown]
    refine ⟨hreturns, affects_setServers (.refl hw.keyed) (fun {n} hn => ?_) helse hfit'⟩
    rw [lastOf_append_server, if_neg hn, entry_eq]
  · rw [HubOp.when, if_neg fun h => hnone ((find?_isNone_iff _ _).mp h)] at h
    obtain ⟨hreturns, helse, hfit'⟩ := hattempt hw h
    obtain ⟨c, hc⟩ := Option.ne_none_iff_exists'.mp hnone
    refine ⟨hreturns, hfit', fun _ => helse.entry _, fun hn => helse.link hn, ?_⟩
    rw [helse.entry, hc, Option.some_or]

/-- An operation between two stretches that leave all other backends alone and the configuration. -/
theorem Affects.elsewhere (hu : Elsewhere name w.state u.state) (h : Affects t name e u v)
    (hv : Elsewhere name v.state w'.state) (hfit : Fit t w') : Affects t name e w w' where
  fit := hfit
  entry {n} hn := by rw [hv.entry, h.entry hn, hu.entry]
  link {n} hn := by rw [hv.link hn, h.link hn, hu.link hn]
  own := (hv.entry name).trans h.own

/-- **`add_server`** adds an entry for a backend that has none, unless it is connected. -/
theorem affects_addServer {cfg : MCPServerConfig} {r : Except Exc (Bool × String)} (hw : Fit t w)
    (h : Executes t (addServer cfg) w r w') :
    ReturnsOrRaises r ∧ Affects t cfg.name
      (addedEntry cfg (Hub.link w.state cfg.name) (Hub.entry w.state cfg.name)) w w' := by
  obtain ⟨w₁, w₄, h₁, h, h₄⟩ := exec_inside (by trivial) h
  obtain ⟨w₂, w₃, h₂, h, h₃⟩ := exec_inside (by trivial) h
  have hentered := h₁.trans h₂
  have hleft := h₃.trans h₄
  have hw₂ := hentered.fit hw
  rw [← hentered.leavesAlone.link, ← hentered.leavesAlone.entry]
  have hlocked : ∀ {r v}, Executes t (withLock lock (registerAndConnect cfg)) w₂ r v →
      Returns r ∧ Affects t cfg.name (addedEntry cfg (Hub.link w₂.state cfg.name)
        (Hub.entry w₂.state cfg.name)) w₂ v := by
    intro r v hlock
    obtain ⟨u, u', hacquire, hregister, hrelease⟩ := exec_withLock hw₂.born hlock
    rw [← hacquire.leavesAlone.link, ← hacquire.leavesAlone.entry]
    obtain ⟨hreturns, haffects⟩ := affects_registerAndConnect (hacquire.fit hw₂) hregister
    exact ⟨hreturns, haffects.uneventful hacquire hrelease⟩
  rcases Op.exec_bind.mp h with ⟨known, v, hlock, h⟩ | ⟨_, hlock, -⟩
  · have haffects := (hlocked hlock).2
    cases known with
    | true =>
      obtain ⟨rfl, rfl⟩ := h
      exact ⟨nofun, haffects.uneventful hentered hleft⟩
    | false =>
      have hends : Op.Ends calm (Elsewhere cfg.name v.state) ReturnsOrRaises _ :=
        ends_report cfg.name "Failed to connect"
      obtain ⟨hE, helse, hfit⟩ := affects_of_ends hends haffects.fit h
      refine ⟨hE, Affects.uneventful hentered ?_ hleft⟩
      exact .elsewhere (.refl hw₂.keyed) haffects helse hfit
  · obtain ⟨⟨_, h⟩, -⟩ := hlocked hlock
    cases h

/-- The entry of a backend when it has been replaced. -/
def replacedEntry (cfg : MCPServerConfig) (link : Option Bool) (entry : Option MCPServerConfig) :
    Option MCPServerConfig :=
  if link = none then entry.or (some cfg) else some cfg

/-- **`replace_server`** replaces the entry of a backend that has a connection. -/
theorem affects_replaceServer {cfg : MCPServerConfig} {r : Except Exc (Bool × String)}
    (hw : Fit t w) (h : Executes t (replaceServer cfg) w r w') :
    ReturnsOrRaises r ∧ Affects t cfg.name
      (replacedEntry cfg (Hub.link w.state cfg.name) (Hub.entry w.state cfg.name)) w w' := by
  obtain ⟨w₁, w₂, h₁, h, h₂⟩ := exec_inside (by trivial) h
  have hw₁ := h₁.fit hw
  rw [← h₁.leavesAlone.link, ← h₁.leavesAlone.entry]
  change Executes t (whenSome ((Hub.connections w₁.state).get? cfg.name) (fun x => do
      drainAndDisconnect x
      withLock lock (replaceConfig cfg)) >>= fun _ => addServer cfg) w₁ r w₂ at h
  cases hget : (Hub.connections w₁.state).get? cfg.name with
  | none =>
    rw [hget] at h
    have hlink : Hub.link w₁.state cfg.name = none := by rw [Hub.link, hget]; rfl
    obtain ⟨hE, haffects⟩ := affects_addServer hw₁ h
    rw [hlink] at haffects ⊢
    exact ⟨hE, haffects.uneventful h₁ h₂⟩
  | some x =>
    rw [hget] at h
    have hlink : Hub.link w₁.state cfg.name ≠ none := by rw [Hub.link, hget]; simp
    rw [replacedEntry, if_neg hlink]
    have hapart : Apart cfg.name w₁.state x := apart_of_get? hw₁.keyed hget
    have hreplaced : ∀ {r v}, Executes t (do
        drainAndDisconnect x
        withLock lock (replaceConfig cfg)) w₁ r v →
        Returns r ∧ Affects t cfg.name ((Hub.entry w₁.state cfg.name).map fun _ => cfg) w₁ v ∧
          Hub.link v.state cfg.name = none := by
      intro r v h
      rcases Op.exec_bind.mp h with ⟨_, u, hdrain, hlock⟩ | ⟨_, hdrain, -⟩
      · obtain ⟨-, hu, hfit⟩ := affects_of_ends (ends_drainAndDisconnect hapart) hw₁ hdrain
        obtain ⟨u₁, u₂, hacquire, hreplace, hrelease⟩ := exec_withLock hfit.born hlock
        obtain ⟨hreturns, haffects, hnone⟩ :=
          affects_replaceConfig (hacquire.fit hfit) hreplace
        rw [hacquire.leavesAlone.entry, hu.entry] at haffects
        have hquiet := haffects.uneventful hacquire hrelease
        refine ⟨hreturns, .elsewhere hu hquiet (.refl hquiet.fit.keyed) hquiet.fit, ?_⟩
        rw [hrelease.leavesAlone.link, hnone]
      · obtain ⟨⟨_, h⟩, -⟩ := affects_of_ends (ends_drainAndDisconnect hapart) hw₁ hdrain
        cases h
    rcases Op.exec_bind.mp h with ⟨_, v, h, hadd⟩ | ⟨_, h, -⟩
    · obtain ⟨-, haffects, hnone⟩ := hreplaced h
      obtain ⟨hE, hadded⟩ := affects_addServer haffects.fit hadd
      rw [hnone, haffects.own, addedEntry, if_neg nofun, Option.or_some] at hadded
      refine ⟨hE, Affects.uneventful h₁ ?_ h₂⟩
      have hown : ((Hub.entry w₁.state cfg.name).map fun _ => cfg).getD cfg = cfg := by
        cases Hub.entry w₁.state cfg.name <;> rfl
      rw [hown] at hadded
      exact haffects.trans hadded
    · obtain ⟨⟨_, h⟩, -⟩ := hreplaced h
      cases h

/-! ### One backend after the other -/

/-- Operations on some backends: their entries, and the other backends, afterwards. -/
structure Sweeps {β : Type} (t : TaskId) (key : β → String)
    (out : β → Option Bool → Option MCPServerConfig → Option MCPServerConfig) (bs : List β)
    (w w' : World hubSignature) : Prop where
  fit : Fit t w'
  entry : ∀ {n}, n ∉ bs.map key → Hub.entry w'.state n = Hub.entry w.state n
  link : ∀ {n}, n ∉ bs.map key → Hub.link w'.state n = Hub.link w.state n
  own : ∀ b ∈ bs, Hub.entry w'.state (key b) =
    out b (Hub.link w.state (key b)) (Hub.entry w.state (key b))

section Sweeps

variable {β : Type} {key : β → String}
  {out : β → Option Bool → Option MCPServerConfig → Option MCPServerConfig}
  {p : β → HubOp (Bool × String)}

/-- An operation of which the reload logs what it raises. -/
theorem exec_logged {M : System hubSignature} {rely : Hub → Hub → Prop}
    {p : HubOp (Bool × String)} {r : Except Exc Unit}
    (h : (catchException (do let _ ← p) fun _ => pure ()).Exec M rely t w r w') :
    ∃ r₀, p.Exec M rely t w r₀ w' ∧ (ReturnsOrRaises r₀ → r = .ok ()) := by
  rcases Op.exec_tryCatch.mp h with ⟨a, htry, rfl⟩ | ⟨e, v, htry, hcaught⟩
  · rcases Op.exec_bind.mp htry with ⟨a, _, hp, hret⟩ | ⟨e, -, hr⟩
    · obtain ⟨-, rfl⟩ := hret
      exact ⟨_, hp, fun _ => rfl⟩
    · cases hr
  · rcases Op.exec_bind.mp htry with ⟨a, _, -, hret⟩ | ⟨e', hp, he⟩
    · cases hret.1
    · obtain rfl := Except.error.inj he
      by_cases hexc : e.isException
      · rw [if_pos hexc] at hcaught
        obtain ⟨rfl, rfl⟩ := hcaught
        exact ⟨_, hp, fun _ => rfl⟩
      · rw [if_neg hexc] at hcaught
        obtain ⟨rfl, rfl⟩ := hcaught
        exact ⟨_, hp, fun hr => absurd (hr e rfl) hexc⟩

/-- **A loop over backends**: each operation finds its backend as the loop did. -/
theorem sweeps_forEach
    (hp : ∀ b {w r w'}, Fit t w → Executes t (p b) w r w' → ReturnsOrRaises r ∧
      Affects t (key b) (out b (Hub.link w.state (key b)) (Hub.entry w.state (key b))) w w') :
    ∀ {bs : List β} {w r w'}, (bs.map key).Nodup → Fit t w →
      Executes t (Op.forEach bs fun b => catchException (do let _ ← p b) fun _ => pure ()) w r w' →
        r = .ok () ∧ Sweeps t key out bs w w' := by
  intro bs
  induction bs with
  | nil =>
    rintro w r w' - hw ⟨rfl, rfl⟩
    exact ⟨rfl, hw, fun _ => rfl, fun _ => rfl, nofun⟩
  | cons b bs ih =>
    intro w r w' hnodup hw h
    obtain ⟨hb, hnodup⟩ := List.nodup_cons.mp hnodup
    rcases Op.exec_bind.mp h with ⟨_, v, hfirst, h⟩ | ⟨e, hfirst, -⟩
    · obtain ⟨r₀, hfirst, -⟩ := exec_logged hfirst
      have haffects := (hp b hw hfirst).2
      obtain ⟨hr, hsweeps⟩ := ih hnodup haffects.fit h
      refine ⟨hr, hsweeps.fit, fun {n} hn => ?_, fun {n} hn => ?_, fun b' hb' => ?_⟩
      · rw [List.map_cons, List.mem_cons, not_or] at hn
        rw [hsweeps.entry hn.2, haffects.entry hn.1]
      · rw [List.map_cons, List.mem_cons, not_or] at hn
        rw [hsweeps.link hn.2, haffects.link hn.1]
      · rcases List.mem_cons.mp hb' with rfl | hmem
        · rw [hsweeps.entry hb, haffects.own]
        · have hne : key b' ≠ key b := fun heq => hb (heq ▸ List.mem_map_of_mem hmem)
          rw [hsweeps.own b' hmem, haffects.link hne, haffects.entry hne]
    · obtain ⟨r₀, hfirst, hok⟩ := exec_logged hfirst
      cases hok (hp b hw hfirst).1

end Sweeps

end Executes

end SlmMcpHub
