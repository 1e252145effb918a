import SlmMcpHub.Federation.Effects
import SlmMcpHub.Federation.System

/-!
# The discipline of the programs

What every statement of every program of the hub can count on, for all interleavings. A statement
is disciplined when the sections its task is in allow it: a connection becomes CONNECTED only in
the middle of `connect`, `connect` is entered only by an attempt of the manager or by the
supervisor of the connection, an attempt is made only by someone who has asked for the backend and
has its configuration in hand, and a supervisor is started only for a connection in the table.

All programs are verified against this once. The invariants of the hub are then proved statement by
statement, with no program in sight.

## Main definitions

* `disciplined` — the guard
* `Disciplined` — the contract of an operation

## Main results

* `verified_hub` — every program keeps the discipline
* `reach_disciplined` — so does every run
-/

namespace SlmMcpHub

open HubOp MCPConnection

/-! ### The guard -/

/-- Someone has asked for the backend and has its configuration in hand. -/
def InHand (st : List Call) (name : String) : Prop :=
  ((∃ names, name ∈ names ∧ Call.requesting names ∈ st) ∧
      ∃ names, name ∈ names ∧ Call.armed names ∈ st) ∨
    ∃ sem cfg, cfg.name = name ∧ Call.bounded sem cfg ∈ st

/-- An attempt of the manager or the supervisor of the connection. -/
def Drives (st : List Call) (x : ConnRef) : Prop :=
  Call.attempt x ∈ st ∨ ∃ p : SupRef, p.conn = x ∧ Call.supervised p ∈ st

/-- What an act can count on. -/
def Act.Allowed (s : Hub) (st : List Call) : Act → Prop
  | .establish x _ => .connect x ∈ st
  | .beginRequest _ _ => False
  | .endRequest _ _ => False
  | .storeConnection x => x.id = s.nextConn ∧ s.connections.get? x.name = none
  | .setServers servers => ∀ cfg ∈ servers,
      (s.config.find? cfg.name).isSome ∨ .armed [cfg.name] ∈ st
  | .select names => names = s.idleBackends
  | .note (.evicted _) => True
  | .note (.removed name) => s.config.find? name = none
  | .note _ => False
  | _ => True

/-- What entering a section can count on. -/
def Call.EntryAllowed (s : Hub) (st : List Call) (a : Act) : Call → Prop
  | .requesting names => a = .note (.asked names)
  | .armed names => (a = .nop ∧ ∀ name ∈ names, (s.config.find? name).isSome) ∨
      ∃ name, names = [name] ∧ a = .note (.added name)
  | .attempt x => a = .storeConnection x ∧ x.id = s.nextConn ∧ InHand st x.name
  | .connect x =>
    a = .transition x .connecting ConnectionState.connecting_ne_connected ∧ Drives st x
  | .dispatch x n _ => a = .beginRequest x n ∧ n = s.nextRequest
  | _ => False

/-- What leaving a section can count on. -/
def Act.ExitAllowed (st : List Call) (a : Act) : Prop :=
  a = .nop ∨ ∃ x n kind, st.head? = some (.dispatch x n kind) ∧ a = .endRequest x n

/-- What starting a task can count on. -/
def Call.SpawnAllowed (s : Hub) (st : List Call) : Call → Prop
  | .supervised p => ∃ name, s.connections.get? name = some p.conn ∧ (s.config.find? name).isSome
  | .bounded _ cfg => InHand st cfg.name
  | .evict _ | .closing _ | .coordinator | .reaper => True
  | _ => False

/-- What going on with a procedure can count on. -/
def Call.JumpAllowed (st : List Call) : Call → Prop
  | .supervised p => .supervised p ∈ st
  | .parked _ | .coordinating | .reaper => True
  | _ => False

/-- What every statement can count on. -/
def disciplined (w : World hubSignature) (t : TaskId) : Stmt hubSignature → Prop
  | .act a => Act.Allowed w.state (w.tasks t).stack a
  | .push a c => Call.EntryAllowed w.state (w.tasks t).stack a c
  | .pop a => Act.ExitAllowed (w.tasks t).stack a
  | .spawn c => Call.SpawnAllowed w.state (w.tasks t).stack c
  | .cancel _ => True
  | .jump c => Call.JumpAllowed (w.tasks t).stack c

theorem wp_act {a : Act} {t : TaskId} {w : World hubSignature}
    {Q : Except Exc Unit → World hubSignature → Prop} :
    (HubOp.act a).wp hub disciplined (fun _ => True) t Q w ↔
      a.Allowed w.state (w.tasks t).stack ∧ Q (.ok ()) (w.exec hub t (.act a)) := Iff.rfl

theorem wp_get_bind {α : Type} {f : Hub → HubOp α} {t : TaskId} {w : World hubSignature}
    {Q : Except Exc α → World hubSignature → Prop} :
    (HubOp.get >>= f).wp hub disciplined (fun _ => True) t Q w ↔
      (f w.state).wp hub disciplined (fun _ => True) t Q w := Op.wp_bind _ _ _

/-- The contract of an operation run with the stack `st`. -/
def Disciplined {α : Type} (st : List Call) (p : HubOp α) : Prop :=
  Op.Keeps hub disciplined (fun _ => True) st p

namespace Disciplined

variable {α β : Type} {st : List Call}

theorem pure (a : α) : Disciplined st (Pure.pure a : HubOp α) := Op.Keeps.pure a

theorem throw (e : Exc) : Disciplined st (MonadExcept.throw e : HubOp α) := Op.Keeps.throw e

theorem bind {p : HubOp α} {f : α → HubOp β} (hp : Disciplined st p)
    (hf : ∀ a, Disciplined st (f a)) : Disciplined st (p >>= f) := Op.Keeps.bind hp hf

theorem bind_of_wp {p : HubOp α} {f : α → HubOp β} {t : TaskId} {w : World hubSignature}
    (hp : p.wp hub disciplined (fun _ => True) t (fun _ => Op.AtRest (fun _ => True) st t) w)
    (hf : ∀ a, Disciplined st (f a)) :
    (p >>= f).wp hub disciplined (fun _ => True) t (fun _ => Op.AtRest (fun _ => True) st t) w :=
  Op.Keeps.bind_of_wp hp hf

/-- An operation that looks at the state first. -/
theorem get {f : Hub → HubOp α} (hf : ∀ s, Disciplined st (f s)) :
    Disciplined st (HubOp.get >>= f) := Op.Keeps.bind Op.Keeps.get hf

/-- An operation whose first statement relies on what it has just seen. -/
theorem get' {f : Hub → HubOp α} (hf : ∀ t w, Op.AtRest (fun _ => True) st t w →
    (f w.state).wp hub disciplined (fun _ => True) t (fun _ => Op.AtRest (fun _ => True) st t) w) :
    Disciplined st (HubOp.get >>= f) := Op.Keeps.get_bind hf

theorem act {a : Act} (h : ∀ s, a.Allowed s st) : Disciplined st (HubOp.act a) :=
  Op.Keeps.act (fun _ w hw => by
    show Act.Allowed _ _ _
    rw [hw.stack]
    exact h w.state) fun _ _ _ => trivial

theorem tryCatch {p : HubOp α} {h : Exc → HubOp α} (hp : Disciplined st p)
    (hh : ∀ e, Disciplined st (h e)) : Disciplined st (MonadExcept.tryCatch p h) :=
  Op.Keeps.tryCatch hp hh

theorem ensure {p : HubOp α} {after : HubOp Unit} (hp : Disciplined st p)
    (hafter : Disciplined st after) : Disciplined st (p.ensure after) := Op.Keeps.ensure hp hafter

theorem forEach {l : List β} {f : β → HubOp Unit} (h : ∀ b ∈ l, Disciplined st (f b)) :
    Disciplined st (Op.forEach l f) := Op.Keeps.forEach h

theorem isDone (t : TaskId) : Disciplined st (Op.isDone (S := hubSignature) t : HubOp Bool) :=
  Op.Keeps.isDone t

theorem spawn {c : Call} (h : ∀ s, c.SpawnAllowed s st) :
    Disciplined st (Op.spawn (S := hubSignature) c : HubOp TaskId) :=
  Op.Keeps.spawn fun _ w hw => by
    show Call.SpawnAllowed _ _ _
    rw [hw.stack]
    exact h w.state

theorem jump {c : Call} (h : c.JumpAllowed st) :
    Disciplined st (Op.jump (S := hubSignature) c : HubOp α) :=
  Op.Keeps.jump fun _ w hw => by
    show Call.JumpAllowed _ _
    rwa [hw.stack]

theorem ite {c : Prop} [Decidable c] {p q : HubOp α} (hp : c → Disciplined st p)
    (hq : ¬ c → Disciplined st q) : Disciplined st (if c then p else q) := by
  split
  · next hc => exact hp hc
  · next hc => exact hq hc

theorem when {c : Prop} [Decidable c] {p : HubOp Unit} (hp : Disciplined st p) :
    Disciplined st (HubOp.when c p) := ite (fun _ => hp) fun _ => pure ()

theorem whenSome {o : Option β} {f : β → HubOp Unit} (hf : ∀ b, Disciplined st (f b)) :
    Disciplined st (HubOp.whenSome o f) := by
  cases o with
  | none => exact pure ()
  | some b => exact hf b

theorem catchException {p : HubOp α} {h : Exc → HubOp α} (hp : Disciplined st p)
    (hh : ∀ e, Disciplined st (h e)) : Disciplined st (HubOp.catchException p h) :=
  tryCatch hp fun e => ite (fun _ => hh e) fun _ => throw e

theorem wait (wt : Wait) : Disciplined st (HubOp.wait wt) := by
  refine bind Op.Keeps.await fun r => ?_
  cases r with
  | raised e => exact throw e
  | _ => exact pure _

theorem wait' (wt : Wait) : Disciplined st (HubOp.wait' wt) := bind (wait wt) fun _ => pure ()

theorem caught {p : HubOp α} (hp : Disciplined st p) : Disciplined st (HubOp.caught p) :=
  tryCatch (bind hp fun _ => pure _) fun _ => pure _

theorem waitFor {p : HubOp α} (hp : Disciplined st p) : Disciplined st (HubOp.waitFor p) := by
  refine bind (wait' .turn) fun _ => bind (tryCatch hp fun e => ?_) fun _ =>
    bind (wait' .turn) fun _ => pure _
  cases e with
  | deadline => exact throw .timeout
  | _ => exact throw _

theorem acquire (l : ℕ) : Disciplined st (HubOp.acquire l) :=
  get fun _ => bind (when (wait' _)) fun _ => act fun _ => trivial

theorem withLock {l : ℕ} {p : HubOp α} (hp : Disciplined st p) :
    Disciplined st (HubOp.withLock l p) :=
  bind (acquire l) fun _ => ensure hp (act fun _ => trivial)

theorem spawnAll : ∀ {cs : List Call}, (∀ c ∈ cs, ∀ s, c.SpawnAllowed s st) →
    Disciplined st (HubOp.spawnAll cs)
  | [], _ => pure []
  | c :: _, h => bind (spawn (h c List.mem_cons_self)) fun _ =>
      bind (spawnAll fun c' hc' => h c' (List.mem_cons_of_mem c hc')) fun _ => pure _

theorem gather {cs : List Call} (h : ∀ c ∈ cs, ∀ s, c.SpawnAllowed s st) :
    Disciplined st (HubOp.gather cs) := bind (spawnAll h) fun _ => wait' _

theorem gatherSettled {cs : List Call} (h : ∀ c ∈ cs, ∀ s, c.SpawnAllowed s st) :
    Disciplined st (HubOp.gatherSettled cs) := bind (spawnAll h) fun _ => wait' _

theorem isRunning (o : Option TaskId) : Disciplined st (HubOp.isRunning o) := by
  cases o with
  | none => exact pure false
  | some t => exact bind (isDone t) fun _ => pure _

theorem cancelAndWait (t : TaskId) : Disciplined st (HubOp.cancelAndWait t) := by
  refine bind (Op.Keeps.cancel fun _ _ _ => trivial) fun _ => tryCatch (wait' _) fun e => ?_
  cases e with
  | cancelled => exact pure ()
  | _ => exact throw _

/-- A section, entered with what is known at that moment. -/
theorem inside_of_wp {enter : Act} {c : Call} {p : HubOp α} {t : TaskId} {w : World hubSignature}
    (hw : Op.AtRest (fun _ => True) st t w) (henter : c.EntryAllowed w.state st enter)
    (hp : Op.AtRest (fun _ => True) (c :: st) t (w.exec hub t (.push enter c)) →
      p.wp hub disciplined (fun _ => True) t (fun _ => Op.AtRest (fun _ => True) (c :: st) t)
        (w.exec hub t (.push enter c))) :
    (HubOp.inside enter c p).wp hub disciplined (fun _ => True) t
      (fun _ => Op.AtRest (fun _ => True) st t) w := by
  refine hw.within_of_wp ?_ (fun _ _ => Or.inl rfl) (fun _ _ => trivial) (fun _ _ => trivial) hp
  show Call.EntryAllowed _ _ _ _
  rwa [hw.stack]

theorem inside_wp {enter : Act} {c : Call} {p : HubOp α} {t : TaskId} {w : World hubSignature}
    (hw : Op.AtRest (fun _ => True) st t w) (henter : c.EntryAllowed w.state st enter)
    (hp : Disciplined (c :: st) p) :
    (HubOp.inside enter c p).wp hub disciplined (fun _ => True) t
      (fun _ => Op.AtRest (fun _ => True) st t) w :=
  inside_of_wp hw henter fun hentered => hp t _ hentered

theorem inside {enter : Act} {c : Call} {p : HubOp α} (henter : ∀ s, c.EntryAllowed s st enter)
    (hp : Disciplined (c :: st) p) : Disciplined st (HubOp.inside enter c p) :=
  fun _ w hw => inside_wp hw (henter w.state) hp

end Disciplined

end SlmMcpHub
