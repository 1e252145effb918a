import SlmMcpHub.Lifecycle.Reloader

/-!
# What an operation leaves alone

An operation of the manager on some backends leaves every other backend exactly as it was: the same
connection in the same state, the same cached capabilities, the same entries of the configuration.
This holds however the operation ends, and whatever its waits end with.

## Main definitions

* `hubAllowing` — the hub, when waits end only in ways that are allowed
* `OnlyCalls` — what happens beside an operation that runs alone
* `SameServer` — a backend is as it was
* `Frames` — an operation leaves a backend as it was

## Main results

* `frames_evict`, `frames_connectTimed`, `frames_removeServer`, `frames_replaceServer`,
  `frames_addServer`
-/

namespace SlmMcpHub

open HubOp ConnectionManager MCPConnection

/-- The hub, when waits end only in ways that are allowed. -/
def hubAllowing (allowed : Hub → Wait → Res → Bool) : System hubSignature :=
  { hub with ready := fun w t wt r => ready w t wt r && allowed w.state wt r }

/-- What calls in flight, and the clock, may do beside an operation. -/
structure OnlyCalls (s s' : Hub) : Prop where
  config : s'.config = s.config
  connections : s'.connections = s.connections
  evictedCaps : s'.evictedCaps = s.evictedCaps
  nextConn : s.nextConn ≤ s'.nextConn
  state : ∀ i, (s'.conns i).state = (s.conns i).state
  capabilities : ∀ i, (s'.conns i).capabilities = (s.conns i).capabilities

/-- A backend is as it was. -/
structure SameServer (n : String) (s s' : Hub) : Prop where
  entries : (s'.config.mcpServers.filter fun c => c.name = n) =
    s.config.mcpServers.filter fun c => c.name = n
  connection : s'.connections.get? n = s.connections.get? n
  state : ∀ {y}, s.connections.get? n = some y → (s'.conn y).state = (s.conn y).state
  capabilities : ∀ {y}, s.connections.get? n = some y →
    (s'.conn y).capabilities = (s.conn y).capabilities
  evictedCaps : s'.evictedCaps.get? n = s.evictedCaps.get? n

theorem SameServer.refl (n : String) (s : Hub) : SameServer n s s :=
  ⟨rfl, rfl, fun _ => rfl, fun _ => rfl, rfl⟩

theorem SameServer.trans {n : String} {s s' s'' : Hub} (h : SameServer n s s')
    (h' : SameServer n s' s'') : SameServer n s s'' where
  entries := h'.entries.trans h.entries
  connection := h'.connection.trans h.connection
  state hy := (h'.state (h.connection.trans hy)).trans (h.state hy)
  capabilities hy := (h'.capabilities (h.connection.trans hy)).trans (h.capabilities hy)
  evictedCaps := h'.evictedCaps.trans h.evictedCaps

theorem OnlyCalls.refl (s : Hub) : OnlyCalls s s :=
  ⟨rfl, rfl, rfl, Nat.le_refl _, fun _ => rfl, fun _ => rfl⟩

theorem OnlyCalls.trans {s s' s'' : Hub} (h : OnlyCalls s s') (h' : OnlyCalls s' s'') :
    OnlyCalls s s'' where
  config := h'.config.trans h.config
  connections := h'.connections.trans h.connections
  evictedCaps := h'.evictedCaps.trans h.evictedCaps
  nextConn := h.nextConn.trans h'.nextConn
  state i := (h'.state i).trans (h.state i)
  capabilities i := (h'.capabilities i).trans (h.capabilities i)

theorem OnlyCalls.sameServer {s s' : Hub} (h : OnlyCalls s s') (n : String) : SameServer n s s' :=
  ⟨by rw [h.config], by rw [h.connections], fun _ => h.state _, fun _ => h.capabilities _,
    by rw [h.evictedCaps]⟩

theorem OnlyCalls.keyed {s s' : Hub} (h : OnlyCalls s s') (hs : Keyed s) : Keyed s' where
  lt hx := (hs.lt (h.connections ▸ hx)).trans_le h.nextConn
  unique hx hx' := hs.unique (h.connections ▸ hx) (h.connections ▸ hx')

/-! ### Acts -/

/-- The connection is not the one the backend had. -/
def Foreign (n : String) (s₀ : Hub) (x : ConnRef) : Prop :=
  ∀ {y}, s₀.connections.get? n = some y → y.id ≠ x.id

/-- The act does nothing to the backend. -/
def Act.Spares (static : Bool) (n : String) (s₀ : Hub) : Act → Prop
  | .transition x _ _ | .establish x _ => Foreign n s₀ x
  | .popConnection m | .popEvictedCaps m | .cacheCapabilities m => m ≠ n
  | .connectReturned x => x.name ≠ n
  | .setServers l => static = false ∧ (l.filter fun c => c.name = n) =
      s₀.config.mcpServers.filter fun c => c.name = n
  | .storeConnection _ | .closeAll => False
  | _ => True

/-- The backend is as it was in `s₀`, and the table of connections is in order; if it is to be
static, the configuration is as it was, too. -/
structure Frame (static : Bool) (n : String) (s₀ s : Hub) : Prop where
  same : SameServer n s₀ s
  keyed : Keyed s
  config : static = true → s.config = s₀.config

theorem Frame.refl (static : Bool) (n : String) {s : Hub} (hs : Keyed s) : Frame static n s s :=
  ⟨.refl n s, hs, fun _ => rfl⟩

theorem OnlyCalls.frame {static : Bool} {n : String} {s₀ s s' : Hub} (h : OnlyCalls s s')
    (hs : Frame static n s₀ s) : Frame static n s₀ s' :=
  ⟨hs.same.trans (h.sameServer n), h.keyed hs.keyed, fun hstatic =>
    h.config.trans (hs.config hstatic)⟩

section Acts

variable {static : Bool} {n : String} {s₀ s : Hub} {a : Act}

/-- An act that makes no connection keeps the table of connections in order. -/
theorem Keyed.eval (hs : Keyed s) (ha : ∀ x, a ≠ .storeConnection x) : Keyed (a.eval s) := by
  have hget : ∀ {m y}, (a.eval s).connections.get? m = some y →
      s.connections.get? m = some y := by
    intro m y hy
    rcases Act.get?_connections_eval hy with hold | ⟨hstore, -⟩
    · exact hold
    · exact absurd hstore (ha y)
  exact ⟨fun hx => (hs.lt (hget hx)).trans_le (le_nextConn_eval s a),
    fun hx hx' => hs.unique (hget hx) (hget hx')⟩

/-- So does the act that makes one. -/
theorem Keyed.store (hs : Keyed s) (cfg : MCPServerConfig) :
    Keyed ((Act.storeConnection ⟨s.nextConn, cfg⟩).eval s) :=
  (Elsewhere.store (.refl hs) rfl : Elsewhere cfg.name s _).keyed

/-- An act that does nothing to a backend leaves it as it was. -/
theorem Frame.eval (h : Frame static n s₀ s) (ha : a.Spares static n s₀) :
    Frame static n s₀ (a.eval s) := by
  have hstored : ∀ {y}, s₀.connections.get? n = some y → s.connections.get? n = some y :=
    fun hy => h.same.connection.trans hy
  refine ⟨⟨?_, ?_, fun {y} hy => ?_, fun {y} hy => ?_, ?_⟩, h.keyed.eval fun x hx => ?_,
    fun hstatic => ?_⟩
  · rw [Act.config_eval, ← h.same.entries]
    cases a with
    | setServers l => exact ha.2.trans h.same.entries.symm
    | _ => rfl
  · rw [Act.connections_eval, ← h.same.connection]
    cases a with
    | popConnection m => exact Dict.get?_erase_of_ne ha
    | storeConnection x => exact ha.elim
    | closeAll => exact ha.elim
    | _ => rfl
  · rw [← h.same.state hy]
    show ((a.eval s).conns y.id).state = (s.conns y.id).state
    rw [Act.connState_eval]
    cases a with
    | transition x target ne => exact if_neg (ha hy)
    | establish x caps => exact if_neg (ha hy)
    | storeConnection x => exact ha.elim
    | _ => rfl
  · rw [← h.same.capabilities hy]
    show ((a.eval s).conns y.id).capabilities = (s.conns y.id).capabilities
    rw [Act.connCaps_eval]
    cases a with
    | establish x caps => exact if_neg (ha hy)
    | storeConnection x => exact ha.elim
    | _ => rfl
  · rw [Act.evictedCaps_eval, ← h.same.evictedCaps]
    cases a with
    | connectReturned x => exact Dict.get?_erase_of_ne ha
    | popEvictedCaps m => exact Dict.get?_erase_of_ne ha
    | cacheCapabilities m =>
      simp only [Act.evictedCaps]
      cases s.connections.get? m with
      | none => rfl
      | some x => exact Dict.get?_set_of_ne ha
    | closeAll => exact ha.elim
    | _ => rfl
  · subst hx
    exact ha.elim
  · rw [Act.config_eval, ← h.config hstatic]
    cases a with
    | setServers l => cases hstatic.symm.trans ha.1
    | _ => rfl

/-- A new connection of another backend. -/
theorem Frame.store (h : Frame static n s₀ s) {cfg : MCPServerConfig} (hcfg : cfg.name ≠ n) :
    Frame static n s₀ ((Act.storeConnection ⟨s.nextConn, cfg⟩).eval s) := by
  have hold : ∀ {y}, s₀.connections.get? n = some y → y.id ≠ s.nextConn :=
    fun hy => (h.keyed.lt (h.same.connection.trans hy)).ne
  refine ⟨⟨?_, ?_, fun {y} hy => ?_, fun {y} hy => ?_, ?_⟩, h.keyed.store cfg, fun hstatic => ?_⟩
  · rw [Act.config_eval]
    exact h.same.entries
  · rw [Act.connections_eval, ← h.same.connection]
    exact Dict.get?_set_of_ne hcfg
  · rw [← h.same.state hy]
    exact (Act.connState_eval s _ y.id).trans (if_neg (hold hy))
  · rw [← h.same.capabilities hy]
    exact (Act.connCaps_eval s _ y.id).trans (if_neg (hold hy))
  · rw [Act.evictedCaps_eval]
    exact h.same.evictedCaps
  · rw [Act.config_eval]
    exact h.config hstatic

/-- The connection of another backend. -/
theorem Frame.foreign (h : Frame static n s₀ s) {m : String} {x : ConnRef} (hm : m ≠ n)
    (hx : s.connections.get? m = some x) : Foreign n s₀ x :=
  fun hy hid => hm (h.keyed.unique hx (h.same.connection.trans hy) hid.symm)

end Acts

/-! ### Contracts -/

/-- Whether a wait has a deadline. -/
def Wait.isTimed : Wait → Bool
  | .eventFor _ => true
  | .outbound timed => timed
  | _ => false

/-- Whether the event loop itself ends a wait, and nothing outside the hub. -/
def Wait.isInternal : Wait → Bool
  | .turn | .sleep | .lock _ | .event _ | .eventFor _ | .either _ _ => true
  | _ => false

/-- What a wait for something other than tasks can raise. -/
theorem raised_of_ready {w : World hubSignature} {t : TaskId} {wt : Wait} {e : Exc}
    (hwt : wt.joins = []) (h : ready w t wt (.raised e) = true) :
    e = .cancelled ∨ (wt.isInternal = false ∧ e.isException = true) ∨
      e = .deadline ∧ wt.isTimed = true := by
  cases wt with
  | task u => cases hwt
  | gather ts =>
    obtain rfl : ts = [] := hwt
    have hcancelled : e = .cancelled ∧ (w.tasks t).requested = true := by
      simpa [ready, readyForTasks] using h
    exact Or.inl hcancelled.1
  | settle ts =>
    obtain rfl : ts = [] := hwt
    have hcancelled : e = .cancelled ∧ (w.tasks t).requested = true := by
      simpa [ready, readyForTasks] using h
    exact Or.inl hcancelled.1
  | _ => cases e <;> simp_all [ready, answers, Exc.isException, Wait.isTimed, Wait.isInternal]

/-- An operation can end with a request to stop, if a wait can. -/
def Stops (allowed : Hub → Wait → Res → Bool) (P : Exc → Prop) : Prop :=
  ∀ s wt, allowed s wt (.raised .cancelled) = true → P .cancelled

/-- The exceptions an operation can end with, when waits end in the ways that are allowed. -/
structure Admits (allowed : Hub → Wait → Res → Bool) (P : Exc → Prop) : Prop where
  exception : ∀ e, e.isException = true → P e
  cancelled : Stops allowed P

/-- The same, and what `except Exception` catches. -/
def OrException (P : Exc → Prop) (e : Exc) : Prop := P e ∨ e.isException = true

/-- The same, and a deadline that has passed. -/
def OrDeadline (P : Exc → Prop) (e : Exc) : Prop := P e ∨ e = .deadline

section Contracts

variable (allowed : Hub → Wait → Res → Bool) (rest : Hub → Prop) (P : Exc → Prop)

/-- An operation comes back to states at rest, and raises only some exceptions. -/
def Comes {α : Type} (p : HubOp α) : Prop :=
  Op.Ends (hubAllowing allowed) rest (fun r => ∀ e, r = .error e → P e) p

end Contracts

variable {allowed : Hub → Wait → Res → Bool} {rest : Hub → Prop} {P : Exc → Prop}

theorem Stops.orException (h : Stops allowed P) : Admits allowed (OrException P) :=
  ⟨fun _ he => Or.inr he, fun s wt hwt => Or.inl (h s wt hwt)⟩

namespace Comes

variable {α β : Type}

theorem pure (a : α) : Comes allowed rest P (Pure.pure a) := Op.Ends.pure fun _ h => by cases h

theorem throw {e : Exc} (he : P e) : Comes allowed rest P (MonadExcept.throw e : HubOp α) :=
  Op.Ends.throw fun _ h => by cases h; exact he

theorem bind {p : HubOp α} {f : α → HubOp β} (hp : Comes allowed rest P p)
    (hf : ∀ a, Comes allowed rest P (f a)) : Comes allowed rest P (p >>= f) :=
  Op.Ends.bind hp (fun a _ => hf a) fun e he _ h => by cases h; exact he e rfl

theorem tryCatch {Q : Exc → Prop} {p : HubOp α} {h : Exc → HubOp α}
    (hp : Comes allowed rest Q p) (hh : ∀ e, Q e → Comes allowed rest P (h e)) :
    Comes allowed rest P (MonadExcept.tryCatch p h) :=
  Op.Ends.tryCatch hp (fun _ _ _ h => by cases h) fun e he => hh e (he e rfl)

theorem get_bind {f : Hub → HubOp α} (hf : ∀ s, rest s → Comes allowed rest P (f s)) :
    Comes allowed rest P (HubOp.get >>= f) :=
  Op.Ends.get_bind hf

theorem act {a : Act} (ha : ∀ s, rest s → rest (a.eval s)) : Comes allowed rest P (HubOp.act a) :=
  Op.Ends.act (fun _ h => by cases h) fun _ => ha

theorem ite {c : Prop} [Decidable c] {p q : HubOp α} (hp : c → Comes allowed rest P p)
    (hq : ¬ c → Comes allowed rest P q) : Comes allowed rest P (if c then p else q) := by
  by_cases hc : c
  · rw [if_pos hc]
    exact hp hc
  · rw [if_neg hc]
    exact hq hc

theorem when {c : Prop} [Decidable c] {p : HubOp Unit} (hp : Comes allowed rest P p) :
    Comes allowed rest P (HubOp.when c p) :=
  ite (fun _ => hp) fun _ => pure ()

theorem whenSome {o : Option β} {f : β → HubOp Unit}
    (hf : ∀ b ∈ o, Comes allowed rest P (f b)) : Comes allowed rest P (HubOp.whenSome o f) := by
  cases o with
  | none => exact pure ()
  | some b => exact hf b rfl

theorem catchException {p : HubOp α} {h : Exc → HubOp α}
    (hp : Comes allowed rest (OrException P) p) (hh : ∀ e, Comes allowed rest P (h e)) :
    Comes allowed rest P (HubOp.catchException p h) :=
  tryCatch hp fun e he => ite (fun _ => hh e) fun hexc => throw (he.resolve_right hexc)

/-- A wait, by what it can raise. -/
theorem wait_of_raised {wt : Wait} (h : ∀ w t e, ready w t wt (.raised e) = true →
    allowed w.state wt (.raised e) = true → P e) : Comes allowed rest P (HubOp.wait wt) := by
  have hawait : Op.Ends (hubAllowing allowed) rest
      (fun r => ∃ a, r = .ok a ∧ ∀ e, a = .raised e → P e)
      (Op.await (S := hubSignature) wt : HubOp Res) := by
    refine .await fun w t r hr => ⟨r, rfl, ?_⟩
    rintro e rfl
    obtain ⟨hready, hallowed⟩ := Bool.and_eq_true_iff.mp hr
    exact h w t e hready hallowed
  refine hawait.bind (fun r hr => ?_) fun e ⟨_, he, _⟩ => by cases he
  obtain ⟨_, heq, hraised⟩ := hr
  obtain rfl := Except.ok.inj heq
  cases r with
  | raised e => exact throw (hraised e rfl)
  | _ => exact pure _

/-- A wait that may have a deadline. -/
theorem waitTimed (hP : Admits allowed P) {wt : Wait} (hwt : wt.joins = []) :
    Comes allowed rest (OrDeadline P) (HubOp.wait wt) := by
  refine wait_of_raised fun w t e hready hallowed => ?_
  rcases raised_of_ready hwt hready with rfl | ⟨-, he⟩ | ⟨rfl, -⟩
  · exact Or.inl (hP.cancelled _ wt hallowed)
  · exact Or.inl (hP.exception e he)
  · exact Or.inr rfl

/-- A wait without a deadline. -/
theorem wait (hP : Admits allowed P) {wt : Wait} (hwt : wt.joins = [])
    (htimed : wt.isTimed = false) : Comes allowed rest P (HubOp.wait wt) := by
  refine wait_of_raised fun w t e hready hallowed => ?_
  rcases raised_of_ready hwt hready with rfl | ⟨-, he⟩ | ⟨rfl, h⟩
  · exact hP.cancelled _ wt hallowed
  · exact hP.exception e he
  · rw [htimed] at h
    cases h

theorem wait' (hP : Admits allowed P) {wt : Wait} (hwt : wt.joins = [])
    (htimed : wt.isTimed = false) : Comes allowed rest P (HubOp.wait' wt) :=
  bind (wait hP hwt htimed) fun _ => pure ()

/-- A wait that nothing outside the hub ends. -/
theorem waitInside (hP : Stops allowed P) {wt : Wait} (hwt : wt.isInternal = true) :
    Comes allowed rest (OrDeadline P) (HubOp.wait' wt) := by
  refine bind (wait_of_raised fun w t e hready hallowed => ?_) fun _ => pure ()
  have hjoins : wt.joins = [] := by cases wt <;> first | rfl | cases hwt
  rcases raised_of_ready hjoins hready with rfl | ⟨h, -⟩ | ⟨rfl, -⟩
  · exact Or.inl (hP _ wt hallowed)
  · rw [hwt] at h
    cases h
  · exact Or.inr rfl

/-- A wait that only a request to stop can end with an exception. -/
theorem waitQuietly (hP : Stops allowed P) {wt : Wait} (hwt : wt.isInternal = true)
    (htimed : wt.isTimed = false) : Comes allowed rest P (HubOp.wait' wt) := by
  refine bind (wait_of_raised fun w t e hready hallowed => ?_) fun _ => pure ()
  have hjoins : wt.joins = [] := by cases wt <;> first | rfl | cases hwt
  rcases raised_of_ready hjoins hready with rfl | ⟨h, -⟩ | ⟨rfl, h⟩
  · exact hP _ wt hallowed
  · rw [hwt] at h
    cases h
  · rw [htimed] at h
    cases h

/-- `wait_for` turns the deadline of what it waits for into an exception. -/
theorem waitFor (hP : Stops allowed P) {p : HubOp α} (hp : Comes allowed rest (OrDeadline P) p) :
    Comes allowed rest (fun e => P e ∨ e = .timeout) (HubOp.waitFor p) := by
  have hstop : Stops allowed fun e => P e ∨ e = .timeout := fun s wt hwt => Or.inl (hP s wt hwt)
  refine bind (waitQuietly hstop rfl rfl) fun _ => bind (tryCatch hp fun e he => ?_) fun _ =>
    bind (waitQuietly hstop rfl rfl) fun _ => pure _
  cases e with
  | deadline => exact throw (Or.inr rfl)
  | _ => exact throw (Or.inl (he.resolve_right nofun))

theorem mono {P' : Exc → Prop} {p : HubOp α} (hp : Comes allowed rest P p)
    (h : ∀ e, P e → P' e) : Comes allowed rest P' p :=
  Op.Ends.mono hp fun _ hr e he => h e (hr e he)

/-- What was caught is one of the exceptions. -/
theorem caught {Q : Exc → Prop} {p : HubOp α} (hp : Comes allowed rest Q p) :
    Op.Ends (hubAllowing allowed) rest
      (fun r => ∃ a, r = .ok a ∧ ∀ e, a = .error e → Q e) (HubOp.caught p) := by
  have hvalue : Op.Ends (hubAllowing allowed) rest
      (fun r => (∃ a, r = .ok (.ok a)) ∨ ∃ e, r = .error e ∧ Q e)
      (p >>= fun a => Pure.pure (.ok a) : HubOp (Except Exc α)) :=
    Op.Ends.bind hp (fun a _ => .pure (Or.inl ⟨a, rfl⟩)) fun e he => Or.inr ⟨e, rfl, he e rfl⟩
  refine hvalue.tryCatch (fun a ha => ?_) fun e he => ?_
  · rcases ha with ⟨b, hb⟩ | ⟨_, he, _⟩
    · exact ⟨a, rfl, fun e he => by rw [Except.ok.inj hb] at he; cases he⟩
    · cases he
  · rcases he with ⟨_, he⟩ | ⟨e', he, hq⟩
    · cases he
    · refine .pure ⟨_, rfl, fun e'' he'' => ?_⟩
      rw [← Except.error.inj he'', Except.error.inj he]
      exact hq

theorem withLock (hP : Stops allowed P) {l : ℕ} {p : HubOp α}
    (htake : ∀ s, rest s → rest ((Act.take l).eval s))
    (hrelease : ∀ s, rest s → rest ((Act.release l).eval s)) (hp : Comes allowed rest P p) :
    Comes allowed rest P (HubOp.withLock l p) :=
  bind (get_bind fun _ _ => bind (when (waitQuietly hP rfl rfl)) fun _ => act htake) fun _ =>
    Op.Ends.ensure hp (Op.Ends.act rfl fun _ => hrelease)

end Comes

/-! ### Closing a connection -/

/-- The acts that close a connection. -/
def Act.Closes (x : ConnRef) : Act → Prop
  | .transition y target _ => y = x ∧ (target = .draining ∨ target = .disconnected)
  | .dropOutbound y | .makeDrainLock y | .armDrain y => y = x
  | .take _ | .release _ => True
  | _ => False

section Closing

open Comes

variable {x : ConnRef}

theorem comes_disconnect (hP : Stops allowed P)
    (hdrop : ∀ s, rest s → rest ((Act.dropOutbound x).eval s))
    (hdown : ∀ s, rest s → rest ((Act.transition x .disconnected).eval s)) :
    Comes allowed rest P (disconnect x) := by
  refine get_bind fun s _ => bind (when (bind ?_ fun _ => act hdrop)) fun _ => act hdown
  exact catchException (wait' hP.orException rfl rfl) fun _ => pure ()

/-- What a drain raises is a request to stop: its deadline is caught, and so is what the end of the
transport raises. -/
theorem comes_drainAndDisconnect (hP : Stops allowed P)
    (hrest : ∀ a : Act, a.Closes x → ∀ s, rest s → rest (a.eval s)) :
    Comes allowed rest P (drainAndDisconnect x) := by
  have hdisconnect : Comes allowed rest P (disconnect x) :=
    comes_disconnect hP (hrest _ rfl) (hrest _ ⟨rfl, Or.inr rfl⟩)
  refine get_bind fun s _ => bind (when (act (hrest (.makeDrainLock x) rfl))) fun _ =>
    withLock hP (hrest _ trivial) (hrest _ trivial) (get_bind fun s _ =>
      ite (fun _ => hdisconnect) fun _ => ?_)
  refine bind (act (hrest (.transition x .draining) ⟨rfl, Or.inl rfl⟩)) fun _ =>
    get_bind fun s _ => bind (when (bind (act (hrest (.armDrain x) rfl)) fun _ => ?_)) fun _ =>
      hdisconnect
  refine tryCatch (waitFor hP (waitInside hP rfl)) fun e he => ?_
  cases e with
  | timeout => exact pure ()
  | _ => exact throw (he.resolve_right nofun)

end Closing

/-! ### An attempt to connect -/

/-- The acts of an attempt to connect, once its connection is stored. -/
def Act.Attempts (x : ConnRef) : Act → Prop
  | .transition y _ _ | .establish y _ | .dropOutbound y | .connectReturned y => y = x
  | .setFailed name _ | .enterGate name | .leaveGate name _ => name = x.name
  | .syncRegistry | .nop => True
  | _ => False

/-- An attempt to connect comes back to states at rest: the new connection is stored at one, and
nothing it does after that leads away. -/
def Attempting (rest : Hub → Prop) (cfg : MCPServerConfig) : Prop :=
  ∀ s, rest s → rest ((Act.storeConnection ⟨s.nextConn, cfg⟩).eval s) ∧
    ∀ a : Act, a.Attempts ⟨s.nextConn, cfg⟩ → ∀ s', rest s' → rest (a.eval s')

section Attempting

open Comes

variable {x : ConnRef} {cfg : MCPServerConfig}

theorem comes_connect (hP : Stops allowed P)
    (hrest : ∀ a : Act, a.Attempts x → ∀ s, rest s → rest (a.eval s)) :
    Comes allowed rest (OrDeadline (OrException P)) (connect x true) := by
  refine get_bind fun s _ => ite (fun _ => pure ()) fun _ => Op.Ends.within ?_ ?_ ?_
  · exact fun _ => hrest (.transition x .connecting) rfl
  · exact fun _ => hrest .nop trivial
  · have hwait : Comes allowed rest (OrDeadline (OrException P)) (HubOp.wait (.outbound true)) :=
      waitTimed hP.orException rfl
    refine (caught hwait).bind (fun r hr => ?_) fun e ⟨_, he, _⟩ => by cases he
    obtain ⟨_, heq, hraised⟩ := hr
    obtain rfl := Except.ok.inj heq
    cases r with
    | error e =>
      have he := hraised e rfl
      have herror : Comes allowed rest (OrDeadline (OrException P))
          (HubOp.act (.transition x .error)) := act (hrest _ rfl)
      cases e with
      | authRequired => exact act (hrest _ rfl)
      | connection message cls => exact bind herror fun _ => throw he
      | _ =>
        refine ite (fun _ => bind herror fun _ => throw ?_) fun _ => throw he
        exact Or.inl (Or.inr rfl)
    | ok res =>
      cases res with
      | connected caps => exact act (hrest _ rfl)
      | _ => exact pure ()

theorem comes_connectStored (hP : Stops allowed P) (hrest : Attempting rest cfg) :
    Comes allowed rest P (connectStored cfg) := by
  intro st t w hw
  rw [connectStored, HubOp.get, Op.wp_bind]
  obtain ⟨hstore, hacts⟩ := hrest w.state hw.state
  refine hw.ends_within hstore (hacts .nop trivial) ?_
  have hconnect : Comes allowed rest (OrDeadline (OrException P))
      (connect ⟨Hub.nextConn w.state, cfg⟩ true) := comes_connect hP hacts
  have hattempt : Comes allowed rest (OrException P) (do
      HubOp.waitFor (connect ⟨Hub.nextConn w.state, cfg⟩ true)
      HubOp.act (.connectReturned ⟨Hub.nextConn w.state, cfg⟩)) := by
    refine bind ((waitFor hP.orException.cancelled hconnect).mono fun e he => ?_) fun _ =>
      act (hacts _ rfl)
    rcases he with he | rfl
    · exact he
    · exact Or.inr rfl
  have hfailed : ∀ message, Comes allowed rest P (HubOp.act (.setFailed cfg.name message)) :=
    fun message => act (hacts (.setFailed cfg.name message) rfl)
  refine bind (tryCatch hattempt fun e he => ?_) fun _ => act (hacts _ trivial)
  refine ite (fun _ => bind (hfailed _) fun _ => ?_) fun _ =>
    ite (fun _ => hfailed _) fun hexc => throw (he.resolve_right hexc)
  exact catchException ((comes_disconnect hP (hacts _ rfl) (hacts _ rfl)).mono fun _ => Or.inl)
    fun _ => pure ()

/-- An attempt is joined, or carried out. -/
theorem comes_connectTimed (hP : Stops allowed P) (hrest : Attempting rest cfg) :
    Comes allowed rest P (connectTimed cfg) := by
  refine get_bind fun s hs => ?_
  cases s.connectEvents.get? cfg.name with
  | some e => exact waitQuietly hP rfl rfl
  | none =>
    obtain ⟨-, hacts⟩ := hrest s hs
    refine bind (act (hacts (.enterGate cfg.name) rfl)) fun _ =>
      Op.Ends.ensure (comes_connectStored hP hrest) ?_
    exact Op.Ends.act rfl fun _ => hacts (.leaveGate cfg.name s.nextEvent) rfl

end Attempting

/-! ### Frames -/

/-- An operation leaves a backend as it was, and raises only some exceptions. -/
abbrev Frames (allowed : Hub → Wait → Res → Bool) (static : Bool) (n : String) (s₀ : Hub)
    (P : Exc → Prop) {α : Type} (p : HubOp α) : Prop :=
  Comes allowed (Frame static n s₀) P p

variable {static : Bool} {n : String} {s₀ : Hub}

theorem frames_act {a : Act} (ha : a.Spares static n s₀) :
    Frames allowed static n s₀ P (HubOp.act a) :=
  Comes.act fun _ h => h.eval ha

theorem frames_withLock (hP : Stops allowed P) {l : ℕ} {α : Type} {p : HubOp α}
    (hp : Frames allowed static n s₀ P p) : Frames allowed static n s₀ P (HubOp.withLock l p) :=
  Comes.withLock hP (fun _ h => h.eval (a := .take l) trivial)
    (fun _ h => h.eval (a := .release l) trivial) hp

theorem frames_inside {enter : Act} {c : Call} {α : Type} {p : HubOp α}
    (henter : enter.Spares static n s₀) (hp : Frames allowed static n s₀ P p) :
    Frames allowed static n s₀ P (HubOp.inside enter c p) :=
  Op.Ends.within (fun _ _ h => h.eval henter) (fun _ _ h => h.eval (a := .nop) trivial) hp

/-! ### The operations -/

section Programs

open Comes

variable {x : ConnRef} {m : String} {cfg : MCPServerConfig}

theorem Act.Closes.spares {a : Act} (ha : a.Closes x) (hx : Foreign n s₀ x) :
    a.Spares static n s₀ := by
  cases a with
  | transition y target ne => exact ha.1 ▸ hx
  | dropOutbound y => trivial
  | makeDrainLock y => trivial
  | armDrain y => trivial
  | take l => trivial
  | release l => trivial
  | _ => exact ha.elim

theorem frames_drainAndDisconnect (hP : Stops allowed P) (hx : Foreign n s₀ x) :
    Frames allowed static n s₀ P (drainAndDisconnect x) :=
  comes_drainAndDisconnect hP fun _ ha _ h => h.eval (ha.spares hx)

theorem Frame.attempting (hcfg : cfg.name ≠ n) : Attempting (Frame static n s₀) cfg := by
  intro s hs
  have hforeign : Foreign n s₀ ⟨s.nextConn, cfg⟩ := fun hy =>
    (hs.keyed.lt (hs.same.connection.trans hy)).ne
  refine ⟨hs.store hcfg, fun a ha s' hs' => hs'.eval ?_⟩
  cases a with
  | transition y target ne => exact ha ▸ hforeign
  | establish y caps => exact ha ▸ hforeign
  | connectReturned y => exact ha ▸ hcfg
  | dropOutbound y => trivial
  | setFailed name message => trivial
  | enterGate name => trivial
  | leaveGate name e => trivial
  | syncRegistry => trivial
  | nop => trivial
  | _ => exact ha.elim

theorem frames_connectTimed (hP : Stops allowed P) (hcfg : cfg.name ≠ n) :
    Frames allowed static n s₀ P (connectTimed cfg) :=
  comes_connectTimed hP (Frame.attempting hcfg)

theorem frames_report (hP : Admits allowed P) (m failure : String) :
    Frames allowed static n s₀ P (report m failure) := by
  refine get_bind fun s _ => ?_
  cases s.failed.get? m with
  | some message => exact pure _
  | none =>
    cases s.connections.get? m with
    | none => exact throw (hP.exception _ rfl)
    | some x => exact pure _

/-- The eviction of another backend. -/
theorem frames_evict (hP : Stops allowed P) (hm : m ≠ n) :
    Frames allowed static n s₀ P (evict m) := by
  refine get_bind fun s hs => ite (fun _ => pure ()) fun _ => ?_
  cases hget : s.connections.get? m with
  | none => exact frames_act trivial
  | some x =>
    have hdrain : Frames allowed static n s₀ (OrException P) (drainAndDisconnect x) :=
      (frames_drainAndDisconnect hP (hs.foreign hm hget)).mono fun _ => Or.inl
    exact bind (frames_act hm) fun _ => bind (catchException hdrain fun _ => pure ()) fun _ =>
      bind (frames_withLock hP (bind (frames_act trivial) fun _ => frames_act trivial)) fun _ =>
        frames_act trivial

/-! #### Reloading -/

theorem filter_ne_filter {l : List MCPServerConfig} (hm : m ≠ n) :
    ((l.filter fun c => c.name ≠ m).filter fun c => c.name = n) = l.filter fun c => c.name = n := by
  rw [List.filter_filter]
  refine List.filter_congr fun c _ => ?_
  by_cases hc : c.name = n
  · simp [hc, hm.symm]
  · simp [hc]

theorem filter_map_replace {l : List MCPServerConfig} (hcfg : cfg.name ≠ n) :
    ((l.map fun c => if c.name = cfg.name then cfg else c).filter fun c => c.name = n) =
      l.filter fun c => c.name = n := by
  induction l with
  | nil => rfl
  | cons c l ih =>
    rw [List.map_cons, List.filter_cons, List.filter_cons, ih]
    by_cases hc : c.name = cfg.name
    · simp [hc, hcfg]
    · simp [hc]

theorem filter_append_server {l : List MCPServerConfig} (hcfg : cfg.name ≠ n) :
    ((l ++ [cfg]).filter fun c => c.name = n) = l.filter fun c => c.name = n := by
  rw [List.filter_append, List.filter_singleton]
  simp [hcfg]

theorem frames_deregister (hm : m ≠ n) : Frames allowed false n s₀ P (deregister m) := by
  refine bind (frames_act hm) fun _ => bind (frames_act trivial) fun _ => bind (frames_act hm)
    fun _ => bind (frames_act trivial) fun _ => get_bind fun s hs => bind (frames_act ?_) fun _ =>
      frames_act trivial
  exact ⟨rfl, (filter_ne_filter hm).trans hs.same.entries⟩

theorem frames_removeServer (hP : Stops allowed P) (hm : m ≠ n) :
    Frames allowed false n s₀ P (removeServer m) := by
  refine get_bind fun s hs => ?_
  cases hget : s.connections.get? m with
  | none => exact pure _
  | some x =>
    exact bind (frames_drainAndDisconnect hP (hs.foreign hm hget)) fun _ =>
      bind (frames_withLock hP (frames_deregister hm)) fun _ => bind (frames_act trivial) fun _ =>
        pure _

theorem frames_replaceConfig (hcfg : cfg.name ≠ n) :
    Frames allowed false n s₀ P (replaceConfig cfg) := by
  refine bind (frames_act hcfg) fun _ => bind (frames_act trivial) fun _ =>
    get_bind fun s hs => frames_act ?_
  exact ⟨rfl, (filter_map_replace hcfg).trans hs.same.entries⟩

theorem frames_registerAndConnect (hP : Stops allowed P) (hcfg : cfg.name ≠ n) :
    Frames allowed false n s₀ P (registerAndConnect cfg) := by
  refine get_bind fun s hs => ite (fun _ => pure _) fun _ => bind (when (frames_act ?_)) fun _ =>
    bind (frames_connectTimed hP hcfg) fun _ => pure _
  exact ⟨rfl, (filter_append_server hcfg).trans hs.same.entries⟩

theorem frames_addServer (hP : Admits allowed P) (hcfg : cfg.name ≠ n) :
    Frames allowed false n s₀ P (addServer cfg) := by
  refine frames_inside trivial (frames_inside trivial (bind ?_ fun known => ?_))
  · exact frames_withLock hP.cancelled (frames_registerAndConnect hP.cancelled hcfg)
  · cases known with
    | true => exact pure _
    | false => exact frames_report hP _ _

theorem frames_replaceServer (hP : Admits allowed P) (hcfg : cfg.name ≠ n) :
    Frames allowed false n s₀ P (replaceServer cfg) := by
  refine frames_inside trivial (get_bind fun s hs => bind (whenSome fun x hx => ?_) fun _ =>
    frames_addServer hP hcfg)
  exact bind (frames_drainAndDisconnect hP.cancelled (hs.foreign hcfg hx)) fun _ =>
    frames_withLock hP.cancelled (frames_replaceConfig hcfg)

end Programs

/-- How a wait goes by, whatever happens beside it. -/
theorem exec_wait {rely : Hub → Hub → Prop} {t : TaskId} {w w' : World hubSignature} {wt : Wait}
    {r : Except Exc Res} (h : (HubOp.wait wt).Exec (hubAllowing allowed) rely t w r w') :
    ∃ v res, (rely w.state v.state ∧ t < v.next) ∧ ready v t wt res = true ∧
      allowed v.state wt res = true ∧ w' = v.resumed t ∧
        ((∃ e, res = .raised e ∧ r = .error e) ∨ (∀ e, res ≠ .raised e) ∧ r = .ok res) := by
  obtain ⟨v, res, ⟨hrely, hborn, -, hready⟩, h⟩ := h
  obtain ⟨hready, hallowed⟩ := Bool.and_eq_true_iff.mp hready
  refine ⟨v, res, ⟨hrely, hborn⟩, hready, hallowed, ?_⟩
  cases res with
  | raised e =>
    obtain ⟨rfl, rfl⟩ := h
    exact ⟨rfl, Or.inl ⟨e, rfl, rfl⟩⟩
  | _ =>
    obtain ⟨rfl, rfl⟩ := h
    exact ⟨rfl, Or.inr ⟨nofun, rfl⟩⟩

theorem exec_wait' {rely : Hub → Hub → Prop} {t : TaskId} {w w' : World hubSignature} {wt : Wait}
    {r : Except Exc Unit} (h : (HubOp.wait' wt).Exec (hubAllowing allowed) rely t w r w') :
    ∃ v res, (rely w.state v.state ∧ t < v.next) ∧ ready v t wt res = true ∧
      allowed v.state wt res = true ∧ w' = v.resumed t ∧
        ((∃ e, res = .raised e ∧ r = .error e) ∨ (∀ e, res ≠ .raised e) ∧ r = .ok ()) := by
  rcases Op.exec_bind.mp h with ⟨a, u, hwait, h⟩ | ⟨e, hwait, rfl⟩
  · obtain ⟨v, res, hrely, hready, hallowed, rfl, hres⟩ := exec_wait hwait
    obtain ⟨rfl, rfl⟩ := h
    rcases hres with ⟨e, -, he⟩ | ⟨hres, -⟩
    · cases he
    · exact ⟨v, res, hrely, hready, hallowed, rfl, Or.inr ⟨hres, rfl⟩⟩
  · obtain ⟨v, res, hrely, hready, hallowed, rfl, hres⟩ := exec_wait hwait
    rcases hres with ⟨e', rfl, he⟩ | ⟨-, he⟩
    · exact ⟨v, _, hrely, hready, hallowed, rfl, Or.inl ⟨e', rfl, by rw [Except.error.inj he]⟩⟩
    · cases he

/-- What an operation comes to, and what it leaves. -/
theorem Comes.exec (hrely : ∀ {s s'}, OnlyCalls s s' → rest s → rest s') {α : Type} {p : HubOp α}
    {t : TaskId} {w w' : World hubSignature} {r : Except Exc α} (hp : Comes allowed rest P p)
    (hs : rest w.state) (hborn : t < w.next) (h : p.Exec (hubAllowing allowed) OnlyCalls t w r w') :
    (∀ e, r = .error e → P e) ∧ rest w'.state ∧ t < w'.next := by
  have hrest : Op.AtRest rest (w.tasks t).stack t w := ⟨hs, hborn, rfl⟩
  obtain ⟨hr, hw'⟩ := Op.Ends.exec (fun _ _ h hs => hrely h hs) hp hrest h
  exact ⟨hr, hw'.state, hw'.born⟩

/-! ### What is left of the others -/

/-- The acts of locks and sections. -/
def Act.Idle : Act → Prop
  | .take _ | .release _ | .note _ | .nop => True
  | _ => False

theorem Act.Idle.onlyCalls {a : Act} (h : a.Idle) (s : Hub) : OnlyCalls s (a.eval s) := by
  cases a with
  | take l => exact ⟨rfl, rfl, rfl, Nat.le_refl _, fun _ => rfl, fun _ => rfl⟩
  | release l => exact ⟨rfl, rfl, rfl, Nat.le_refl _, fun _ => rfl, fun _ => rfl⟩
  | note e => exact ⟨rfl, rfl, rfl, Nat.le_refl _, fun _ => rfl, fun _ => rfl⟩
  | nop => exact ⟨rfl, rfl, rfl, Nat.le_refl _, fun _ => rfl, fun _ => rfl⟩
  | _ => exact h.elim

/-- To take or to release a lock, and to enter or to leave a section, does nothing to a backend. -/
theorem onlyCalls_exec {t : TaskId} {w : World hubSignature} {s : Stmt hubSignature}
    (h : s.toAct.Idle) : OnlyCalls w.state (w.exec (hubAllowing allowed) t s).state := by
  rw [World.state_exec]
  cases s <;> exact h.onlyCalls _

/-- What a stretch of an operation leaves of the backends it is not about. -/
structure Leaves (static : Bool) (t : TaskId) (about : List String) (w w' : World hubSignature) :
    Prop where
  fit : Fit t w'
  same : ∀ n ∉ about, SameServer n w.state w'.state
  config : static = true → Hub.config w'.state = Hub.config w.state

section Leaves

variable {t : TaskId} {w v w' : World hubSignature}

theorem Leaves.refl (hw : Fit t w) (names : List String) : Leaves static t names w w :=
  ⟨hw, fun n _ => .refl n _, fun _ => rfl⟩

theorem Leaves.trans {names names' : List String} (h : Leaves static t names w v)
    (h' : Leaves static t names' v w') : Leaves static t (names ++ names') w w' := by
  refine ⟨h'.fit, fun n hn => ?_, fun hs => (h'.config hs).trans (h.config hs)⟩
  rw [List.mem_append, not_or] at hn
  exact (h.same n hn.1).trans (h'.same n hn.2)

theorem OnlyCalls.leaves (hw : Fit t w) (h : OnlyCalls w.state w'.state) (hborn : t < w'.next)
    (names : List String) : Leaves static t names w w' :=
  ⟨⟨hborn, h.keyed hw.keyed⟩, fun n _ => h.sameServer n, fun _ => h.config⟩

/-- The operation frames all backends but one. -/
def Operates (allowed : Hub → Wait → Res → Bool) (static : Bool) (P : Exc → Prop) {α : Type}
    (name : String) (p : HubOp α) : Prop :=
  ∀ n s₀, name ≠ n → Frames allowed static n s₀ P p

/-- An operation on a backend leaves the others alone. -/
theorem Operates.leaves {α : Type} {name : String} {p : HubOp α} {r : Except Exc α}
    (hp : Operates allowed static P name p) (hw : Fit t w)
    (h : p.Exec (hubAllowing allowed) OnlyCalls t w r w') :
    (∀ e, r = .error e → P e) ∧ Leaves static t [name] w w' := by
  have hframe : ∀ {n}, name ≠ n →
      (∀ e, r = .error e → P e) ∧ Frame static n w.state w'.state ∧ t < w'.next :=
    fun {n} hn => (hp n _ hn).exec (fun hrely hs => hrely.frame hs) (.refl _ n hw.keyed) hw.born h
  obtain ⟨m, hm⟩ : ∃ m, name ≠ m := by
    by_cases hname : name = ""
    · exact ⟨"a", by rw [hname]; decide⟩
    · exact ⟨"", hname⟩
  obtain ⟨hr, hkept, hborn⟩ := hframe hm
  refine ⟨hr, ⟨hborn, hkept.keyed⟩, fun n hn => ?_, hkept.config⟩
  exact (hframe fun heq => hn (List.mem_singleton.mpr heq.symm)).2.1.same

end Leaves

end SlmMcpHub
