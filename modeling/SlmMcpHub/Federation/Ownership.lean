import SlmMcpHub.Federation.References

/-!
# The owner of a connection

The table of the manager is what `disconnect_all` goes by: a connection that is up and not in it is
out of reach for good. An operation that takes a connection out of the table, or puts another one in
its place, leaves such a connection behind when it is up, and when an attempt or a supervisor goes
on to connect it.

As long as connections are taken out only when they are spent, every connection that is up is the
one stored under its name.

## Main definitions

* `DisplacesSpent` — only spent connections do

## Main results

* `owned_of_reach` — every connection that is up is stored under its name
* `not_owned_supervised` — a reconnect leaves a connection to its supervisor, which brings it up
-/

namespace SlmMcpHub

/-- Whatever connection loses its entry is down, and nothing will connect it any more. -/
def DisplacesSpent (w : World hubSignature) (_ : TaskId) (st : Stmt hubSignature) : Prop :=
  ∀ x, Hub.Stored w.state x → st.toAct.Displaces x →
    Hub.isConnected w.state x = false ∧ ¬ Driven w.doing x

/-- Every connection that is up, and every one that may yet be, is stored under its name. -/
structure Owned (s : Hub) (D : Call → Prop) : Prop where
  up : ∀ {id}, (s.conns id).state = .connected → ∃ x : ConnRef, x.id = id ∧ s.Stored x
  driven : ∀ {x}, Driven D x → s.Stored x

theorem ownedInvariant :
    HubInvariant (fun w t st => DisplacesSpent w t st ∧ RefsValid w.state w.doing) Owned where
  mono h hD := ⟨h.up, fun hx => h.driven (hx.mono hD)⟩
  act {w t st} h hC hd := by
    obtain ⟨hspent, hrefs⟩ := hC
    refine ⟨fun {id} hup => ?_, fun {x} hx => ?_⟩
    · rcases Act.connState_eq_connected hup with hold | ⟨x, caps, hact, rfl⟩
      · obtain ⟨x, rfl, hx⟩ := h.up hold
        refine ⟨x, rfl, Act.stored_eval hx fun hdisplaced => ?_⟩
        have hdown := (hspent x hx hdisplaced).1
        rw [Hub.isConnected, Hub.conn, hold] at hdown
        cases hdown
      · have hx := h.driven (Or.inr (Or.inl (connecting_of_establish hd hact)))
        exact ⟨x, rfl, Act.stored_eval hx (by rw [hact]; exact id)⟩
    · rcases driven_step hd hx with hold | hact | ⟨hact, name, hget⟩
      · have hx := h.driven hold
        exact Act.stored_eval hx fun hdisplaced => (hspent x hx hdisplaced).2 hold
      · rw [Hub.Stored, Act.connections_eval, hact]
        exact Dict.get?_set_self _ _ _
      · exact Act.stored_eval (hrefs.stored hget) (by rw [hact]; exact id)
  call hc h := ⟨h.up, fun hx => h.driven (driven_of_client hc hx)⟩
  clock _ h := ⟨h.up, h.driven⟩
  notifier h := ⟨h.up, h.driven⟩

theorem owned_start (config : HubConfig) : Owned (Hub.start config) fun _ => False where
  up h := nomatch h
  driven hx := absurd hx not_driven_start

/-- **When every connection has an owner.** In every run in which only spent connections lose their
entry in the table, every connection that is up is the one stored under its name. So no backend has
two connections that are up, whoever still refers to them. -/
theorem owned_of_reach {config : HubConfig} {cf : Config hubSignature}
    (h : Reach hub DisplacesSpent (Hub.start config) cf) :
    (∀ id, (Hub.conns cf.world.state id).state = .connected →
      ∃ x : ConnRef, x.id = id ∧ Hub.Stored cf.world.state x) ∧
    ∀ x y, Referenced cf.world.state cf.world.doing x →
      Referenced cf.world.state cf.world.doing y → Hub.isConnected cf.world.state x = true →
      Hub.isConnected cf.world.state y = true → x.name = y.name → x = y := by
  have hrefs := refsInvariant.reach (refsValid_start config) h
  have howned := ownedInvariant.reach (owned_start config)
    (refsInvariant.reach_and (refsValid_start config) h)
  have hstored : ∀ {x}, Referenced cf.world.state cf.world.doing x →
      Hub.isConnected cf.world.state x = true → Hub.Stored cf.world.state x := by
    intro x hx hup
    obtain ⟨y, hid, hy⟩ := howned.up (of_decide_eq_true hup)
    rw [hrefs.unique hx (Or.inl hy) hid.symm]
    exact hy
  refine ⟨fun id hup => howned.up hup, fun x y hx hy hupx hupy hname => ?_⟩
  have hget := hstored hx hupx
  rw [Hub.Stored, hname, hstored hy hupy] at hget
  exact (Option.some.inj hget).symm

/-! ### A connection without an owner -/

/-- `connect_all` fails, a supervisor is started, and a reconnect replaces its connection, which the
supervisor then connects. -/
def supervisedMoves : List (Move hubSignature) :=
  [.call .connectAll, .resume 0 .ok, .resume 1 .ok, .resume 1 .ok,
    .resume 1 (.raised (.other "OSError" "refused" .transient)), .resume 0 .ok, .resume 2 .ok,
    .call (.reconnect "a"), .resume 5 .ok, .resume 5 .ok, .resume 5 (.connected toolT),
    .resume 5 .ok, .resume 4 .ok, .resume 4 (.connected toolT)]

/-- Two connections are up, and the first one is not in the table. -/
def orphaned (s : Hub) : Bool :=
  (s.conns 0).state = .connected && (s.conns 1).state = .connected &&
    s.connections.values.all fun x => x.id ≠ 0

/-- The connection the supervisor brings up is not the one in the table. -/
theorem not_owned_supervised : ∃ cf, Reach hub anyStep
    (Hub.start { mcpServers := [{ name := "a" }] }) cf ∧ orphaned cf.world.state = true ∧
      ¬ ∀ id, (Hub.conns cf.world.state id).state = .connected →
        ∃ x : ConnRef, x.id = id ∧ Hub.Stored cf.world.state x := by
  obtain ⟨cf, hreach, h⟩ := exists_reach (C := anyStep) (P := orphaned) (fun _ _ _ => true)
    { mcpServers := [{ name := "a" }] } supervisedMoves (fun _ _ => trivial) (by decide +kernel)
  refine ⟨cf, hreach, h, fun howned => ?_⟩
  simp only [orphaned, Bool.and_eq_true, decide_eq_true_eq, List.all_eq_true] at h
  obtain ⟨x, hid, hx⟩ := howned 0 h.1.1
  exact h.2 x (Dict.mem_values_iff.mpr ⟨x.name, hx⟩) hid

/-- The connection is down, and nothing that is in progress will connect it. -/
def spent (w : World hubSignature) (x : ConnRef) : Bool :=
  !Hub.isConnected w.state x && w.inProgress.all fun
    | .attempt y => y ≠ x
    | .connect y => y ≠ x
    | .supervised p => p.conn ≠ x
    | _ => true

theorem spent_spec {w : World hubSignature} (hlist : ∀ c, w.doing c → c ∈ w.inProgress)
    {x : ConnRef} (h : spent w x = true) :
    Hub.isConnected w.state x = false ∧ ¬ Driven w.doing x := by
  simp only [spent, Bool.and_eq_true, Bool.not_eq_true', List.all_eq_true] at h
  refine ⟨h.1, ?_⟩
  rintro (hd | hd | ⟨p, hp, hd⟩)
  · exact of_decide_eq_true (h.2 _ (hlist _ hd)) rfl
  · exact of_decide_eq_true (h.2 _ (hlist _ hd)) rfl
  · exact of_decide_eq_true (h.2 _ (hlist _ hd)) hp

/-- Only spent connections are displaced. -/
def displacesSpent (w : World hubSignature) (_ : TaskId) (st : Stmt hubSignature) : Bool :=
  match st.toAct with
  | .storeConnection y => (Dict.get? (Hub.connections w.state) y.name).all (spent w)
  | .popConnection name => (Dict.get? (Hub.connections w.state) name).all (spent w)
  | .closeAll => (Hub.connections w.state).values.all (spent w)
  | _ => true

theorem displacesSpent_of_check {w : World hubSignature} {t : TaskId} {st : Stmt hubSignature}
    (hlist : ∀ c, w.doing c → c ∈ w.inProgress) (h : displacesSpent w t st = true) :
    DisplacesSpent w t st := by
  intro x hx hdisplaced
  rw [Hub.Stored] at hx
  refine spent_spec hlist ?_
  cases hact : st.toAct with
  | storeConnection y =>
    rw [hact] at hdisplaced
    have hname : y.name = x.name := hdisplaced
    rw [displacesSpent, hact] at h
    simpa [hname, hx] using h
  | popConnection name =>
    rw [hact] at hdisplaced
    obtain rfl : name = x.name := hdisplaced
    rw [displacesSpent, hact] at h
    simpa [hx] using h
  | closeAll =>
    rw [displacesSpent, hact] at h
    exact List.all_eq_true.mp h x (Dict.mem_values_iff.mpr ⟨x.name, hx⟩)
  | _ =>
    rw [hact] at hdisplaced
    exact hdisplaced.elim

/-- A lazy backend is connected, evicted and connected again, which displaces a connection. -/
theorem owned_of_reach_comeback : ∃ cf, Reach hub DisplacesSpent (Hub.start lazyConfig) cf ∧
    (Hub.conns cf.world.state 1).state = .connected ∧
    ∃ x : ConnRef, x.id = 1 ∧ Hub.Stored cf.world.state x := by
  obtain ⟨cf, hreach, h⟩ := exists_reach (P := fun s => (s.conns 1).state = .connected)
    displacesSpent lazyConfig comebackMoves displacesSpent_of_check (by decide +kernel)
  have hup := of_decide_eq_true h
  exact ⟨cf, hreach, hup, (owned_of_reach hreach).1 1 hup⟩

end SlmMcpHub
