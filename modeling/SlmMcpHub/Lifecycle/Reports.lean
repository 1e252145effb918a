import SlmMcpHub.Lifecycle.Convergence
import SlmMcpHub.Lifecycle.Frame

/-!
# What an operation reports of an attempt to connect

`reconnect`, `connect_one` and `add_server` take the absence of an entry in the table of failures
for a success. An attempt that ends for want of an authorization leaves no such entry, and neither
does an attempt of another caller that is joined and then cancelled.

An attempt is described by how it ends, and by what that leaves of the tables of the manager. An
operation makes an attempt of its own, or joins the one that is in progress; which of the two it is
goes by whether there is one when the operation begins, as one that is in progress then goes on
until it is joined.

## Main definitions

* `Outcome` — how an attempt ends
* `Outcome.Ended` — what this leaves
* `Request` — the operations
* `Request.Sound` — when what they report is true

## Main results

* `reports_live_iff`
-/

namespace SlmMcpHub

open HubOp ConnectionManager MCPConnection

/-- How an attempt to connect ends. -/
inductive Outcome where
  | success
  | failure
  | authRequired
  | timeout
  | cancelled
  /-- `connect` had returned before the attempt was joined. -/
  | landed
  deriving DecidableEq

namespace Outcome

/-- How the waits of an operation end whose own attempt ends this way: nobody asks it to stop but in
the middle of the attempt, and then only if this is how it ends. -/
def ends (o : Outcome) : Wait → Res → Bool
  | .outbound _, .connected _ => o = .success
  | .outbound _, .raised .authRequired => o = .authRequired
  | .outbound _, .raised .deadline => o = .timeout
  | .outbound _, .raised .cancelled => o = .cancelled
  | .outbound _, .raised _ => o = .failure
  | .turn, .raised .cancelled => o = .cancelled
  | _, .raised .cancelled => false
  | _, _ => true

/-- What an attempt leaves in the table of failures. -/
def Marks (o : Outcome) (before after : Option String) : Prop :=
  match o with
  | .failure | .timeout => after ≠ none
  | .cancelled => after = before
  | _ => after = none

/-- What an attempt leaves its connection in. -/
def Leads (o : Outcome) (before after : ConnectionState) : Prop :=
  match o with
  | .success => after = .connected
  | .landed => after = before
  | _ => after ≠ .connected

/-- What the end of an attempt leaves. -/
structure Ended (o : Outcome) (x : ConnRef) (s s' : Hub) : Prop where
  connections : s'.connections = s.connections
  failed : o.Marks (s.failed.get? x.name) (s'.failed.get? x.name)
  others : ∀ i, i ≠ x.id → (s'.conns i).state = (s.conns i).state
  own : o.Leads (s.conns x.id).state (s'.conns x.id).state

end Outcome

/-- Whether a wait is one for an event. -/
def Wait.isEvent : Wait → Bool
  | .event _ => true
  | _ => false

/-- The tables of the manager, and the states of the connections but for one, are as they were. -/
structure TablesKept (but : Option ℕ) (s s' : Hub) : Prop where
  connections : s'.connections = s.connections
  failed : s'.failed = s.failed
  connectEvents : s'.connectEvents = s.connectEvents
  nextConn : s.nextConn ≤ s'.nextConn
  state : ∀ i ∉ but, (s'.conns i).state = (s.conns i).state

/-- What happens beside an operation: nothing that matters to it, or the end of the attempt it is
going to join. -/
def Beside (o : Outcome) (joined : Option ConnRef) (s s' : Hub) : Prop :=
  TablesKept none s s' ∨ ∃ x ∈ joined, s.connectEvents.contains x.name = true ∧ o.Ended x s s' ∧
    s'.connectEvents.contains x.name = false

/-- The attempt that is in progress goes on until it is joined. -/
def joining (o : Outcome) (joined : Option ConnRef) (s : Hub) (wt : Wait) (r : Res) : Bool :=
  o.ends wt r && joined.all fun x => s.connectEvents.contains x.name != wt.isEvent

/-! ### The operations -/

/-- The operations that report on an attempt to connect. -/
inductive Request where
  | reconnect (serverName : String)
  | connectOne (serverName : String)
  | addServer (cfg : MCPServerConfig)

namespace Request

/-- The backend it is about. -/
def name : Request → String
  | .reconnect serverName => serverName
  | .connectOne serverName => serverName
  | .addServer cfg => cfg.name

/-- The operation, and whether it reports success. -/
def run : Request → HubOp Bool
  | .reconnect serverName => do
    let (success, _) ← ConnectionManager.reconnect serverName
    pure success
  | .connectOne serverName => ConnectionManager.connectOne serverName
  | .addServer cfg => do
    let (success, _) ← ConnectionManager.addServer cfg
    pure success

end Request

/-- The backend has a connection, and it is up. -/
def Hub.isLive (s : Hub) (name : String) : Bool :=
  (s.connections.get? name).any fun x => s.isConnected x

theorem TablesKept.refl (but : Option ℕ) (s : Hub) : TablesKept but s s :=
  ⟨rfl, rfl, rfl, Nat.le_refl _, fun _ _ => rfl⟩

theorem TablesKept.trans {but : Option ℕ} {s s' s'' : Hub} (h : TablesKept but s s')
    (h' : TablesKept but s' s'') : TablesKept but s s'' where
  connections := h'.connections.trans h.connections
  failed := h'.failed.trans h.failed
  connectEvents := h'.connectEvents.trans h.connectEvents
  nextConn := h.nextConn.trans h'.nextConn
  state i hi := (h'.state i hi).trans (h.state i hi)

theorem TablesKept.weaken {s s' : Hub} (h : TablesKept none s s') (but : Option ℕ) :
    TablesKept but s s' :=
  ⟨h.connections, h.failed, h.connectEvents, h.nextConn, fun i _ => h.state i nofun⟩

/-- The acts that write none of the tables, and the state of one connection at most. -/
def Act.KeepsTables (but : Option ℕ) : Act → Prop
  | .transition x _ _ | .establish x _ => x.id ∈ but
  | .dropOutbound _ | .makeDrainLock _ | .armDrain _ | .take _ | .release _ | .setServers _
  | .syncRegistry | .note _ | .nop => True
  | _ => False

theorem Act.KeepsTables.eval {but : Option ℕ} {a : Act} (ha : a.KeepsTables but) (s : Hub) :
    TablesKept but s (a.eval s) := by
  refine ⟨?_, ?_, ?_, le_nextConn_eval s a, fun i hi => ?_⟩
  · rw [Act.connections_eval]
    cases a <;> first | rfl | exact ha.elim
  · cases a <;> first
      | exact ha.elim
      | simp only [Act.eval, Act.apply, Hub.transition, Hub.modifyConn, Hub.newEvent]
  · cases a <;> first
      | exact ha.elim
      | simp only [Act.eval, Act.apply, Hub.transition, Hub.modifyConn, Hub.newEvent]
  · rw [Act.connState_eval]
    cases a with
    | transition x target ne => exact if_neg (by rintro rfl; exact hi ha)
    | establish x caps => exact if_neg (by rintro rfl; exact hi ha)
    | _ => first | rfl | exact ha.elim

/-- Until an attempt is joined, nothing happens that matters. -/
theorem Beside.kept {o : Outcome} {joined : Option ConnRef} {s s' : Hub} {wt : Wait} {r : Res}
    (h : Beside o joined s s') (hallowed : joining o joined s' wt r = true)
    (hwt : wt.isEvent = false) : TablesKept none s s' := by
  rcases h with h | ⟨x, hx, -, -, hgate⟩
  · exact h
  · obtain rfl := hx
    have hall := (Bool.and_eq_true_iff.mp hallowed).2
    rw [Option.all_some, hgate, hwt] at hall
    cases hall

/-! ### An attempt of one's own -/

/-- What the outbound client answers to an attempt of one's own. -/
def Outcome.Answered (o : Outcome) (r : Except Exc Res) : Prop :=
  match o with
  | .success => ∃ caps, r = .ok (.connected caps)
  | .failure => ∃ e, r = .error e ∧ e.isException = true ∧ e ≠ .authRequired
  | .authRequired => r = .error .authRequired
  | .timeout => r = .error .deadline
  | .cancelled => r = .error .cancelled
  | .landed => False

/-- What an attempt of one's own comes to. -/
def Outcome.Ran (o : Outcome) (r : Except Exc Unit) : Prop :=
  match o with
  | .success | .authRequired => r = .ok ()
  | .failure => ∃ e, r = .error e ∧ e.isException = true ∧ e ≠ .timeout
  | .timeout => r = .error .deadline
  | .cancelled => r = .error .cancelled
  | .landed => False

section Lead

variable {o : Outcome} {joined : Option ConnRef} {t : TaskId} {w w' : World hubSignature}
  {x : ConnRef}

/-- The executions of an operation on a backend whose attempt ends in a given way. -/
abbrev Runs (o : Outcome) (joined : Option ConnRef) {α : Type} (t : TaskId) (p : HubOp α)
    (w : World hubSignature) (r : Except Exc α) (w' : World hubSignature) : Prop :=
  p.Exec (hubAllowing (joining o joined)) (Beside o joined) t w r w'

theorem ends_of_joining {s : Hub} {wt : Wait} {res : Res} (h : joining o joined s wt res = true) :
    o.ends wt res = true :=
  (Bool.and_eq_true_iff.mp h).1

theorem leads_turn {r : Except Exc Unit} (h : Runs o joined t (wait' .turn) w r w') :
    TablesKept none w.state w'.state ∧ (r = .ok () ∨ o = .cancelled ∧ r = .error .cancelled) := by
  obtain ⟨v, res, ⟨hrely, -⟩, hready, hallowed, rfl, ⟨e, rfl, rfl⟩ | ⟨-, rfl⟩⟩ := exec_wait' h
  · refine ⟨hrely.kept hallowed rfl, Or.inr ?_⟩
    have hends := ends_of_joining hallowed
    cases e <;> simp_all [ready, answers, Outcome.ends]
  · exact ⟨hrely.kept hallowed rfl, Or.inl rfl⟩

theorem leads_outbound {r : Except Exc Res} (h : Runs o joined t (wait (.outbound true)) w r w') :
    TablesKept none w.state w'.state ∧ o.Answered r := by
  obtain ⟨v, res, ⟨hrely, -⟩, hready, hallowed, rfl, ⟨e, rfl, rfl⟩ | ⟨hres, rfl⟩⟩ := exec_wait h
  · refine ⟨hrely.kept hallowed rfl, ?_⟩
    have hends := ends_of_joining hallowed
    clear h hrely hallowed
    cases e <;> simp_all [ready, answers, Outcome.ends, Exc.isException, Outcome.Answered]
  · refine ⟨hrely.kept hallowed rfl, ?_⟩
    have hends := ends_of_joining hallowed
    clear h hrely hallowed
    cases res <;> simp_all [ready, answers, Outcome.ends, Outcome.Answered]

/-- A connection is closed whatever its transport makes of it. -/
theorem leads_close {r : Except Exc Unit}
    (h : Runs o joined t (catchException (wait' .close) fun _ => pure ()) w r w') :
    r = .ok () ∧ TablesKept none w.state w'.state := by
  rcases Op.exec_tryCatch.mp h with ⟨_, hwait, rfl⟩ | ⟨e, u, hwait, hcaught⟩
  · obtain ⟨v, res, ⟨hrely, -⟩, hready, hallowed, rfl, -⟩ := exec_wait' hwait
    exact ⟨rfl, hrely.kept hallowed rfl⟩
  · obtain ⟨v, res, ⟨hrely, -⟩, hready, hallowed, rfl, ⟨e', rfl, he⟩ | ⟨-, he⟩⟩ := exec_wait' hwait
    · obtain rfl := Except.error.inj he
      have hexc : e.isException = true := by
        have hends := ends_of_joining hallowed
        cases e <;> simp_all [ready, answers, Outcome.ends, Exc.isException]
      rw [hexc, if_pos rfl] at hcaught
      obtain ⟨hr, rfl⟩ := hcaught
      exact ⟨hr.symm, hrely.kept hallowed rfl⟩
    · cases he

/-- What was raised is a value. -/
theorem exec_caught {α : Type} {M : System hubSignature} {rely : Hub → Hub → Prop} {p : HubOp α}
    {r : Except Exc (Except Exc α)} (h : (caught p).Exec M rely t w r w') :
    ∃ r', p.Exec M rely t w r' w' ∧ r = .ok r' := by
  rcases Op.exec_tryCatch.mp h with ⟨a, hp, rfl⟩ | ⟨e, v, hp, h⟩
  · obtain ⟨b, v, hb, hret⟩ := Op.exec_bind_ok.mp hp
    obtain ⟨heq, rfl⟩ := hret
    exact ⟨_, hb, heq.symm⟩
  · obtain ⟨rfl, rfl⟩ := h
    rcases Op.exec_bind.mp hp with ⟨b, u, -, h⟩ | ⟨e', hp, he⟩
    · cases h.1
    · exact ⟨_, hp, by rw [Except.error.inj he]⟩

/-- What an answer of the outbound client makes of the attempt. -/
theorem Outcome.Answered.cases {r : Except Exc Res} (h : o.Answered r) :
    (o = .success ∧ ∃ caps, r = .ok (.connected caps)) ∨
      ∃ e, r = .error e ∧
        ((o = .authRequired ∧ e = .authRequired) ∨ (o = .timeout ∧ e = .deadline) ∨
          (o = .cancelled ∧ e = .cancelled) ∨
            o = .failure ∧ e.isException = true ∧ e ≠ .authRequired) := by
  cases o with
  | success => exact Or.inl ⟨rfl, h⟩
  | failure =>
    obtain ⟨e, rfl, he⟩ := h
    exact Or.inr ⟨e, rfl, Or.inr (Or.inr (Or.inr ⟨rfl, he⟩))⟩
  | authRequired => exact Or.inr ⟨_, h, Or.inl ⟨rfl, rfl⟩⟩
  | timeout => exact Or.inr ⟨_, h, Or.inr (Or.inl ⟨rfl, rfl⟩)⟩
  | cancelled => exact Or.inr ⟨_, h, Or.inr (Or.inr (Or.inl ⟨rfl, rfl⟩))⟩
  | landed => exact h.elim

/-- A state of a connection that has been set. -/
theorem isConnected_eval_transition {s : Hub} {target : ConnectionState}
    {ne : target ≠ .connected} :
    ((Act.transition x target ne).eval s).isConnected x = false := by
  refine decide_eq_false ?_
  show ¬ (((Act.transition x target ne).eval s).conns x.id).state = .connected
  rw [Act.connState_eval, Act.connState, if_pos rfl]
  exact ne

theorem TablesKept.isConnected {s s' : Hub} (h : TablesKept none s s') :
    s'.isConnected x = s.isConnected x :=
  congrArg (fun c => decide (c = ConnectionState.connected)) (h.state x.id nofun)

theorem leads_act {a : Act} {r : Except Exc Unit} (h : Runs o joined t (act a) w r w') :
    r = .ok () ∧ w'.state = a.eval w.state :=
  ⟨h.1.symm, h.2 ▸ rfl⟩

theorem leads_act_throw {α : Type} {a : Act} {e : Exc} {r : Except Exc α}
    (h : Runs o joined t (do act a; throw e) w r w') :
    r = .error e ∧ w'.state = a.eval w.state := by
  rcases Op.exec_bind.mp h with ⟨_, v, hact, hr, hv⟩ | ⟨_, hact, -⟩
  · exact ⟨hr.symm, hv ▸ (leads_act hact).2⟩
  · cases (leads_act hact).1

/-- What `connect` makes of the answer. -/
def answered (x : ConnRef) : Except Exc Res → HubOp Unit
  | .error .authRequired =>
    act (.transition x .authRequired ConnectionState.authRequired_ne_connected)
  | .error (.connection message cls) => do
    act (.transition x .error ConnectionState.error_ne_connected)
    throw (.connection message cls)
  | .error e => do
    if e.isException then
      act (.transition x .error ConnectionState.error_ne_connected)
      throw (.connection s!"MCP {x.name} initialization failed ({e.typeName})" e.classify)
    else
      throw e
  | .ok (.connected caps) => act (.establish x caps)
  | .ok _ => pure ()

theorem connect_eq (x : ConnRef) (timed : Bool) : connect x timed = (do
    let s ← HubOp.get
    if s.isConnected x then
      pure ()
    else
      inside (.transition x .connecting) (.connect x)
        (caught (wait (.outbound timed)) >>= answered x)) := rfl

theorem leads_answered {r : Except Exc Unit} {r' : Except Exc Res} (hanswer : o.Answered r')
    (hdown : Hub.isConnected w.state x = false) (h : Runs o joined t (answered x r') w r w') :
    o.Ran r ∧ TablesKept (some x.id) w.state w'.state ∧
      (Hub.isConnected w'.state x = true ↔ o = .success) := by
  have herror : ∀ {target : ConnectionState} {ne : target ≠ .connected},
      w'.state = (Act.transition x target ne).eval w.state →
        TablesKept (some x.id) w.state w'.state ∧ ¬ Hub.isConnected w'.state x = true := by
    intro target ne hstate
    rw [hstate]
    refine ⟨Act.KeepsTables.eval (a := .transition x target ne) rfl w.state, ?_⟩
    rw [isConnected_eval_transition]
    exact Bool.false_ne_true
  rcases hanswer.cases with ⟨rfl, caps, rfl⟩ | ⟨e, rfl, hcase⟩
  · obtain ⟨rfl, hstate⟩ := leads_act h
    rw [hstate]
    refine ⟨rfl, Act.KeepsTables.eval (a := .establish x caps) rfl w.state, fun _ => rfl,
      fun _ => ?_⟩
    refine decide_eq_true ?_
    exact (Act.connState_eval w.state (.establish x caps) x.id).trans (if_pos rfl)
  · rcases hcase with ⟨rfl, rfl⟩ | ⟨rfl, rfl⟩ | ⟨rfl, rfl⟩ | ⟨rfl, hexc, hauth⟩
    · obtain ⟨rfl, hstate⟩ := leads_act h
      obtain ⟨hkept, hnot⟩ := herror hstate
      exact ⟨rfl, hkept, fun hconn => absurd hconn hnot, nofun⟩
    · obtain ⟨hr, rfl⟩ := h
      exact ⟨hr.symm, .refl _ _, fun hconn => absurd hconn (by rw [hdown]; decide), nofun⟩
    · obtain ⟨hr, rfl⟩ := h
      exact ⟨hr.symm, .refl _ _, fun hconn => absurd hconn (by rw [hdown]; decide), nofun⟩
    · have hraise : ∃ e', r = .error e' ∧ e'.isException = true ∧ e' ≠ .timeout ∧
          w'.state = (Act.transition x .error).eval w.state := by
        cases e with
        | cancelled => cases hexc
        | deadline => cases hexc
        | authRequired => exact absurd rfl hauth
        | _ =>
          obtain ⟨rfl, hstate⟩ := leads_act_throw h
          exact ⟨_, rfl, rfl, nofun, hstate⟩
      obtain ⟨e', rfl, hexc', hne, hstate⟩ := hraise
      obtain ⟨hkept, hnot⟩ := herror hstate
      exact ⟨⟨e', rfl, hexc', hne⟩, hkept, fun hconn => absurd hconn hnot, nofun⟩

/-- An attempt of one's own connects the backend if it succeeds. -/
theorem leads_connect {r : Except Exc Unit} (hdown : Hub.isConnected w.state x = false)
    (h : Runs o joined t (connect x true) w r w') :
    o.Ran r ∧ TablesKept (some x.id) w.state w'.state ∧
      (Hub.isConnected w'.state x = true ↔ o = .success) := by
  rw [connect_eq] at h
  replace h := Op.exec_get_bind.mp h
  rw [hdown, if_neg Bool.false_ne_true] at h
  obtain ⟨v', hbody, rfl⟩ := Op.exec_within.mp h
  rcases Op.exec_bind.mp hbody with ⟨r', v, hcaught, hbody⟩ | ⟨e, hcaught, -⟩
  · obtain ⟨r'', hwait, heq⟩ := exec_caught hcaught
    obtain rfl := Except.ok.inj heq
    obtain ⟨hkept, hanswer⟩ := leads_outbound hwait
    have hconnecting : Hub.isConnected v.state x = false :=
      hkept.isConnected.trans isConnected_eval_transition
    obtain ⟨hran, hkept', hconn⟩ := leads_answered hanswer hconnecting hbody
    refine ⟨hran, ?_, hconn⟩
    exact (Act.KeepsTables.eval (a := .transition x .connecting) rfl w.state).trans
      ((hkept.weaken _).trans hkept')
  · obtain ⟨_, -, heq⟩ := exec_caught hcaught
    cases heq

/-- What an attempt of one's own comes to with its deadline. -/
def Outcome.Came (o : Outcome) (r : Except Exc Unit) : Prop :=
  match o with
  | .success | .authRequired => r = .ok ()
  | .failure => ∃ e, r = .error e ∧ e.isException = true ∧ e ≠ .timeout
  | .timeout => r = .error .timeout
  | .cancelled => r = .error .cancelled
  | .landed => False

theorem Outcome.Came.cases {r : Except Exc Unit} (h : o.Came r) :
    (r = .ok () ∧ (o = .success ∨ o = .authRequired)) ∨ (r = .error .timeout ∧ o = .timeout) ∨
      (r = .error .cancelled ∧ o = .cancelled) ∨
        ∃ e, r = .error e ∧ o = .failure ∧ e.isException = true ∧ e ≠ .timeout := by
  cases o with
  | success => exact Or.inl ⟨h, Or.inl rfl⟩
  | authRequired => exact Or.inl ⟨h, Or.inr rfl⟩
  | timeout => exact Or.inr (Or.inl ⟨h, rfl⟩)
  | cancelled => exact Or.inr (Or.inr (Or.inl ⟨h, rfl⟩))
  | failure =>
    obtain ⟨e, rfl, he⟩ := h
    exact Or.inr (Or.inr (Or.inr ⟨e, rfl, rfl, he⟩))
  | landed => exact h.elim

/-- An attempt of a client, with its deadline turned into a timeout. -/
theorem leads_timed {r : Except Exc Unit} (hdown : Hub.isConnected w.state x = false)
    (h : Runs o joined t (tryCatch (connect x true) fun e => (match e with
      | .deadline => throw .timeout
      | e => throw e : HubOp Unit)) w r w') :
    o.Came r ∧ TablesKept (some x.id) w.state w'.state ∧
      (Hub.isConnected w'.state x = true ↔ o = .success) := by
  rcases Op.exec_tryCatch.mp h with ⟨_, hconnect, rfl⟩ | ⟨e, u, hconnect, hraise⟩
  · obtain ⟨hran, hkept, hconn⟩ := leads_connect hdown hconnect
    refine ⟨?_, hkept, hconn⟩
    cases o <;> first | exact hran | cases hran
  · obtain ⟨hran, hkept, hconn⟩ := leads_connect hdown hconnect
    have hcame : o.Came r ∧ w' = u := by
      cases o with
      | failure =>
        obtain ⟨e', he, hexc, hne⟩ := hran
        obtain rfl := Except.error.inj he
        cases e with
        | deadline => cases hexc
        | _ =>
          obtain ⟨rfl, rfl⟩ := hraise
          exact ⟨⟨_, rfl, hexc, hne⟩, rfl⟩
      | timeout =>
        obtain rfl := Except.error.inj hran
        obtain ⟨rfl, rfl⟩ := hraise
        exact ⟨rfl, rfl⟩
      | cancelled =>
        obtain rfl := Except.error.inj hran
        obtain ⟨rfl, rfl⟩ := hraise
        exact ⟨rfl, rfl⟩
      | success => cases hran
      | authRequired => cases hran
      | landed => exact hran.elim
    obtain ⟨hcame, rfl⟩ := hcame
    exact ⟨hcame, hkept, hconn⟩

theorem leads_waitFor {r : Except Exc Unit} (hdown : Hub.isConnected w.state x = false)
    (h : Runs o joined t (waitFor (connect x true)) w r w') :
    o.Came r ∧ TablesKept (some x.id) w.state w'.state ∧
      (Hub.isConnected w'.state x = true ↔ o = .success) := by
  rcases Op.exec_bind.mp h with ⟨_, v, hturn, h⟩ | ⟨e, hturn, rfl⟩
  · obtain ⟨hkept, -⟩ := leads_turn hturn
    have hdown' : Hub.isConnected v.state x = false := hkept.isConnected.trans hdown
    have hafter : ∀ {r₁ u}, o.Came r₁ ∧ TablesKept (some x.id) v.state u ∧
        (Hub.isConnected u x = true ↔ o = .success) → o.Came r₁ ∧
          TablesKept (some x.id) w.state u ∧ (Hub.isConnected u x = true ↔ o = .success) :=
      fun h => ⟨h.1, (hkept.weaken _).trans h.2.1, h.2.2⟩
    rcases Op.exec_bind.mp h with ⟨_, u, hconnect, h⟩ | ⟨e, hconnect, rfl⟩
    · obtain ⟨hcame, hkept', hconn⟩ := hafter (leads_timed hdown' hconnect)
      rcases Op.exec_bind.mp h with ⟨_, u', hturn', hret⟩ | ⟨e, hturn', rfl⟩
      · obtain ⟨hlast, -⟩ := leads_turn hturn'
        obtain ⟨rfl, rfl⟩ := hret
        refine ⟨hcame, hkept'.trans (hlast.weaken _), ?_⟩
        rw [hlast.isConnected]
        exact hconn
      · obtain ⟨-, hok | ⟨rfl, -⟩⟩ := leads_turn hturn'
        · cases hok
        · cases hcame
    · exact hafter (leads_timed hdown' hconnect)
  · obtain ⟨hkept, hok | ⟨rfl, he⟩⟩ := leads_turn hturn
    · cases hok
    · refine ⟨congrArg _ (Except.error.inj he), hkept.weaken _, fun hconn => ?_, by simp⟩
      rw [hkept.isConnected, hdown] at hconn
      cases hconn

/-- Whether an attempt of one's own raises. -/
def Outcome.Passed (o : Outcome) (r : Except Exc Unit) : Prop :=
  if o = .cancelled then r = .error .cancelled else r = .ok ()

theorem leads_disconnect {r : Except Exc Unit} (h : Runs o joined t (disconnect x) w r w') :
    r = .ok () ∧ TablesKept (some x.id) w.state w'.state ∧ Hub.isConnected w'.state x = false := by
  replace h := Op.exec_get_bind.mp h
  have hclose : ∀ {r u}, Runs o joined t (when ((Hub.conn w.state x).outbound) (do
      catchException (wait' .close) fun _ => pure ()
      act (.dropOutbound x))) w r u → r = .ok () ∧ TablesKept none w.state u.state := by
    intro r u h
    by_cases hout : (Hub.conn w.state x).outbound = true
    · rw [HubOp.when, if_pos hout] at h
      rcases Op.exec_bind.mp h with ⟨_, v, hclose, hdrop⟩ | ⟨e, hclose, -⟩
      · obtain ⟨rfl, hstate⟩ := leads_act hdrop
        rw [hstate]
        exact ⟨rfl, (leads_close hclose).2.trans
          (Act.KeepsTables.eval (a := .dropOutbound x) trivial _)⟩
      · cases (leads_close hclose).1
    · rw [HubOp.when, if_neg hout] at h
      obtain ⟨hr, rfl⟩ := h
      exact ⟨hr.symm, .refl _ _⟩
  rcases Op.exec_bind.mp h with ⟨_, v, hfirst, hdown⟩ | ⟨e, hfirst, -⟩
  · obtain ⟨-, hkept⟩ := hclose hfirst
    obtain ⟨rfl, hstate⟩ := leads_act hdown
    rw [hstate]
    refine ⟨rfl, (hkept.weaken _).trans ?_, isConnected_eval_transition⟩
    exact Act.KeepsTables.eval (a := .transition x .disconnected) rfl _
  · cases (hclose hfirst).1

theorem leads_catch_disconnect {r : Except Exc Unit}
    (h : Runs o joined t (catchException (disconnect x) fun _ => pure ()) w r w') :
    r = .ok () ∧ TablesKept (some x.id) w.state w'.state ∧ Hub.isConnected w'.state x = false := by
  rcases Op.exec_tryCatch.mp h with ⟨_, hdisconnect, rfl⟩ | ⟨e, _, hdisconnect, -⟩
  · exact leads_disconnect hdisconnect
  · cases (leads_disconnect hdisconnect).1

/-- What is left after an attempt, if no more than its connection and its failure have changed. -/
theorem Outcome.ended_of {s u s' : Hub} (h : TablesKept (some x.id) s u)
    (hconns : s'.connections = u.connections)
    (hstate : ∀ i, i ≠ x.id → (s'.conns i).state = (u.conns i).state)
    (hmarks : o.Marks (s.failed.get? x.name) (s'.failed.get? x.name))
    (hown : o.Leads (s.conns x.id).state (s'.conns x.id).state) : o.Ended x s s' where
  connections := hconns.trans h.connections
  failed := hmarks
  others i hi := (hstate i hi).trans (h.state i fun heq => hi (Option.some.inj heq).symm)
  own := hown

/-- What follows the end of an attempt does not change what it leaves. -/
theorem Outcome.Ended.kept {s u s' : Hub} (h : o.Ended x s u) (hkept : TablesKept none u s') :
    o.Ended x s s' where
  connections := hkept.connections.trans h.connections
  failed := by
    rw [hkept.failed]
    exact h.failed
  others i hi := (hkept.state i nofun).trans (h.others i hi)
  own := by
    rw [hkept.state x.id nofun]
    exact h.own

theorem Outcome.leads_of_isConnected {s u : Hub} (hlanded : o ≠ .landed)
    (h : u.isConnected x = true ↔ o = .success) :
    o.Leads (s.conns x.id).state (u.conns x.id).state := by
  have hstate : u.isConnected x = true ↔ (u.conns x.id).state = .connected := decide_eq_true_iff
  rw [hstate] at h
  cases o with
  | success => exact h.mpr rfl
  | landed => exact absurd rfl hlanded
  | _ => exact fun hconn => nomatch h.mp hconn

/-- The attempt has returned, or its end is dealt with. -/
theorem leads_attempt {cfg : MCPServerConfig} {r : Except Exc Unit} (hcfg : cfg = x.config)
    (hdown : Hub.isConnected w.state x = false)
    (h : Runs o joined t (tryCatch (do
      waitFor (connect x true)
      act (.connectReturned x)) fun e => do
        if e = .timeout then
          act (.setFailed cfg.name "Connection timed out after 60s")
          catchException (disconnect x) fun _ => pure ()
        else if e.isException then
          act (.setFailed cfg.name e.message)
        else
          throw e) w r w') :
    o ≠ .landed ∧ o.Passed r ∧ o.Ended x w.state w'.state := by
  subst hcfg
  rcases Op.exec_tryCatch.mp h with ⟨_, hattempt, rfl⟩ | ⟨e, v, hattempt, hhandler⟩
  · obtain ⟨_, v, hconnect, hreturned⟩ := Op.exec_bind_ok.mp hattempt
    obtain ⟨hcame, hkept, hconn⟩ := leads_waitFor hdown hconnect
    obtain ⟨-, hstate⟩ := leads_act hreturned
    have hnone : (Hub.failed w'.state).get? x.name = none := by
      rw [hstate]
      show (Dict.erase _ x.name).get? x.name = none
      rw [Dict.get?_erase, if_pos rfl]
    rcases hcame.cases with ⟨-, ho⟩ | ⟨he, -⟩ | ⟨he, -⟩ | ⟨_, he, -⟩
    · have hlanded : o ≠ .landed := by rcases ho with rfl | rfl <;> decide
      refine ⟨hlanded, ?_, ?_⟩
      · rw [Outcome.Passed, if_neg (by rcases ho with rfl | rfl <;> decide)]
      · refine Outcome.ended_of hkept (by rw [hstate]; rfl) (fun i _ => by rw [hstate]; rfl) ?_
          (Outcome.leads_of_isConnected hlanded (by rw [hstate]; exact hconn))
        rcases ho with rfl | rfl
        · exact hnone
        · exact hnone
    · cases he
    · cases he
    · cases he
  · rcases Op.exec_bind.mp hattempt with ⟨_, u, -, hreturned⟩ | ⟨e', hconnect, heq⟩
    · cases (leads_act hreturned).1
    · obtain rfl := Except.error.inj heq
      obtain ⟨hcame, hkept, hconn⟩ := leads_waitFor hdown hconnect
      -- The failure that is recorded.
      have hset : ∀ {message : String} {s : Hub},
          ((Act.setFailed x.config.name message).eval s).failed.get? x.name ≠ none := by
        intro message s
        show (Dict.set _ x.name message).get? x.name ≠ none
        rw [Dict.get?_set, if_pos rfl]
        exact Option.some_ne_none _
      rcases hcame.cases with ⟨he, -⟩ | ⟨he, rfl⟩ | ⟨he, rfl⟩ | ⟨_, he, rfl, hexc, hne⟩
      · cases he
      · obtain rfl := Except.error.inj he
        rw [if_pos rfl] at hhandler
        rcases Op.exec_bind.mp hhandler with ⟨_, u, hact, hclose⟩ | ⟨_, hact, -⟩
        · obtain ⟨-, hstate⟩ := leads_act hact
          obtain ⟨rfl, hkept', hdown'⟩ := leads_catch_disconnect hclose
          refine ⟨by decide, rfl, ?_⟩
          refine Outcome.ended_of hkept (by rw [hkept'.connections, hstate]; rfl)
            (fun i hi => ?_) ?_ (Outcome.leads_of_isConnected (by decide) (by simp [hdown']))
          · rw [hkept'.state i fun heq => hi (Option.some.inj heq).symm, hstate]
            rfl
          · rw [hkept'.failed, hstate]
            exact hset
        · cases (leads_act hact).1
      · obtain rfl := Except.error.inj he
        obtain ⟨hr, rfl⟩ := hhandler
        refine ⟨by decide, hr.symm, ?_⟩
        exact Outcome.ended_of hkept rfl (fun _ _ => rfl) (by rw [hkept.failed]; rfl)
          (Outcome.leads_of_isConnected (by decide) hconn)
      · obtain rfl := Except.error.inj he
        rw [if_neg hne, if_pos hexc] at hhandler
        obtain ⟨rfl, hstate⟩ := leads_act hhandler
        refine ⟨by decide, rfl, ?_⟩
        refine Outcome.ended_of hkept (by rw [hstate]; rfl) (fun i _ => by rw [hstate]; rfl) ?_
          (Outcome.leads_of_isConnected (by decide) (by rw [hstate]; exact hconn))
        rw [hstate]
        exact hset

/-- **An attempt of one's own** leaves of the tables what its outcome says. -/
theorem leads_connectStored {cfg : MCPServerConfig} {r : Except Exc Unit}
    (h : Runs o joined t (connectStored cfg) w r w') :
    o ≠ .landed ∧ o.Passed r ∧ o.Ended ⟨Hub.nextConn w.state, cfg⟩
      ((Act.storeConnection ⟨Hub.nextConn w.state, cfg⟩).eval w.state) w'.state := by
  obtain ⟨v, hbody, rfl⟩ := Op.exec_within.mp (Op.exec_get_bind.mp h)
  have hdown : Hub.isConnected ((Act.storeConnection ⟨Hub.nextConn w.state, cfg⟩).eval w.state)
      ⟨Hub.nextConn w.state, cfg⟩ = false := by
    refine decide_eq_false ?_
    show ¬ (((Act.storeConnection ⟨Hub.nextConn w.state, cfg⟩).eval w.state).conns
      (Hub.nextConn w.state)).state = .connected
    rw [Act.connState_eval, Act.connState, if_pos rfl]
    decide
  rcases Op.exec_bind.mp hbody with ⟨_, u, hattempt, hsync⟩ | ⟨e, hattempt, rfl⟩
  · obtain ⟨hlanded, hpassed, hended⟩ :=
      leads_attempt (x := ⟨Hub.nextConn w.state, cfg⟩) rfl hdown hattempt
    obtain ⟨rfl, hstate⟩ := leads_act hsync
    refine ⟨hlanded, hpassed, hended.kept ?_⟩
    show TablesKept none u.state (Act.nop.eval v.state)
    rw [hstate]
    exact (Act.KeepsTables.eval (a := .syncRegistry) trivial _).trans
      (Act.KeepsTables.eval (a := .nop) trivial _)
  · obtain ⟨hlanded, hpassed, hended⟩ :=
      leads_attempt (x := ⟨Hub.nextConn w.state, cfg⟩) rfl hdown hattempt
    exact ⟨hlanded, hpassed, hended.kept (Act.KeepsTables.eval (a := .nop) trivial _)⟩

end Lead

/-! ### What is reported -/

/-- What is reported after an attempt is true. -/
def Outcome.Tells (o : Outcome) (joined : Option ConnRef) (name : String) (s : Hub) : Prop :=
  match joined with
  | none => o ≠ .authRequired
  | some x => s.connections.get? name = none ∨ o = .failure ∨ o = .timeout ∨
      (o = .success ∧ ∃ y, s.connections.get? name = some y ∧ y.id = x.id) ∨
        o = .cancelled ∧ s.failed.get? name ≠ none

/-- Success would be reported. -/
def Hub.Succeeded (s : Hub) (name : String) : Prop :=
  s.failed.get? name = none ∧ s.connections.get? name ≠ none

/-- An attempt is in progress just if there is one to be joined. -/
def InProgress (joined : Option ConnRef) (name : String) (s : Hub) : Prop :=
  s.connectEvents.contains name = joined.isSome ∧ ∀ x ∈ joined, x.name = name

section Verdict

variable {o : Outcome} {joined : Option ConnRef} {t : TaskId} {w w' : World hubSignature}
  {name : String}

theorem Hub.isLive_iff {s : Hub} :
    s.isLive name = true ↔ ∃ x, s.connections.get? name = some x ∧ s.isConnected x = true := by
  rw [Hub.isLive, Option.any_eq_true]

/-- Which stored connection is up goes by its state. -/
theorem Hub.isLive_of_get? {s : Hub} {x : ConnRef} (hx : s.connections.get? name = some x) :
    s.isLive name = true ↔ (s.conns x.id).state = .connected := by
  rw [Hub.isLive, hx]
  exact decide_eq_true_iff

/-- What is reported after an attempt of one's own that has not been cancelled. -/
theorem Outcome.Ended.verdict_own {x : ConnRef} {s s' : Hub} (h : o.Ended x s s')
    (hlanded : o ≠ .landed) (hcancelled : o ≠ .cancelled)
    (hx : s.connections.get? x.name = some x) :
    (s'.Succeeded x.name → s'.isLive x.name = true) ↔ o ≠ .authRequired := by
  have hx' : s'.connections.get? x.name = some x := by rw [h.connections, hx]
  have hsucceeded : s'.Succeeded x.name ↔ s'.failed.get? x.name = none :=
    and_iff_left (by rw [hx']; exact Option.some_ne_none x)
  rw [Hub.isLive_of_get? hx', hsucceeded]
  have hfailed := h.failed
  have hown := h.own
  cases o with
  | success => exact ⟨fun _ => by decide, fun _ _ => hown⟩
  | failure => exact ⟨fun _ => by decide, fun _ hnone => absurd hnone hfailed⟩
  | timeout => exact ⟨fun _ => by decide, fun _ hnone => absurd hnone hfailed⟩
  | authRequired => exact ⟨fun htrue => absurd (htrue hfailed) hown, fun hne => absurd rfl hne⟩
  | cancelled => exact absurd rfl hcancelled
  | landed => exact absurd rfl hlanded

/-- What is reported after an attempt that was joined. -/
theorem Outcome.Ended.verdict_joined {x : ConnRef} {s s' : Hub} (h : o.Ended x s s')
    (hdown : s.isLive x.name = false) :
    (s'.Succeeded x.name → s'.isLive x.name = true) ↔ o.Tells (some x) x.name s := by
  have hfailed := h.failed
  have hown := h.own
  cases hget : s.connections.get? x.name with
  | none =>
    have hget' : s'.connections.get? x.name = none := by rw [h.connections, hget]
    exact ⟨fun _ => Or.inl hget, fun _ hsucceeded => absurd hget' hsucceeded.2⟩
  | some y =>
    have hget' : s'.connections.get? x.name = some y := by rw [h.connections, hget]
    have hsucceeded : s'.Succeeded x.name ↔ s'.failed.get? x.name = none :=
      and_iff_left (by rw [hget']; exact Option.some_ne_none y)
    have hold : (s.conns y.id).state ≠ .connected := by
      intro hconn
      rw [(Hub.isLive_of_get? hget).mpr hconn] at hdown
      cases hdown
    -- The stored connection is up only if it is the one of a successful attempt.
    have hup : (s'.conns y.id).state = .connected ↔ o = .success ∧ y.id = x.id := by
      by_cases hid : y.id = x.id
      · rw [hid] at hold ⊢
        cases o with
        | success => exact ⟨fun _ => ⟨rfl, rfl⟩, fun _ => hown⟩
        | landed => exact ⟨fun hconn => absurd (hown ▸ hconn) hold, fun hsame => nomatch hsame.1⟩
        | _ => exact ⟨fun hconn => absurd hconn hown, fun hsame => nomatch hsame.1⟩
      · rw [h.others _ hid]
        exact ⟨fun hconn => absurd hconn hold, fun hsame => absurd hsame.2 hid⟩
    rw [Hub.isLive_of_get? hget', hsucceeded, hup, Outcome.Tells, hget]
    cases o with
    | success =>
      have hnone : s'.failed.get? x.name = none := hfailed
      simp [hnone]
    | failure =>
      have hsome : s'.failed.get? x.name ≠ none := hfailed
      simp [hsome]
    | timeout =>
      have hsome : s'.failed.get? x.name ≠ none := hfailed
      simp [hsome]
    | authRequired =>
      have hnone : s'.failed.get? x.name = none := hfailed
      simp [hnone]
    | landed =>
      have hnone : s'.failed.get? x.name = none := hfailed
      simp [hnone]
    | cancelled =>
      have hsame : s'.failed.get? x.name = s.failed.get? x.name := hfailed
      simp [hsame]

/-- **What is reported after `_connect_timed`**, whether it makes an attempt or joins one. -/
theorem verdict_connectTimed {cfg : MCPServerConfig} {r : Except Exc Unit}
    (hgate : InProgress joined cfg.name w.state) (hdown : Hub.isLive w.state cfg.name = false)
    (h : Runs o joined t (connectTimed cfg) w r w') :
    (∃ e, r = .error e ∧ o.Tells joined cfg.name w.state) ∨ r = .ok () ∧
      ((Hub.Succeeded w'.state cfg.name → Hub.isLive w'.state cfg.name = true) ↔
        o.Tells joined cfg.name w.state) := by
  replace h := Op.exec_get_bind.mp h
  cases joined with
  | none =>
    have hfree : (Hub.connectEvents w.state).get? cfg.name = none :=
      Option.not_isSome_iff_eq_none.mp (Bool.eq_false_iff.mp hgate.1)
    rw [hfree] at h
    rcases Op.exec_bind.mp h with ⟨_, u, henter, h⟩ | ⟨_, henter, -⟩
    · obtain ⟨-, hu⟩ := leads_act henter
      obtain ⟨v, hstored, rfl⟩ := Op.exec_ensure.mp h
      obtain ⟨hlanded, hpassed, hended⟩ := leads_connectStored hstored
      by_cases hcancelled : o = .cancelled
      · subst hcancelled
        exact Or.inl ⟨_, hpassed, fun h => nomatch h⟩
      · rw [Outcome.Passed, if_neg hcancelled] at hpassed
        refine Or.inr ⟨hpassed, ?_⟩
        refine hended.verdict_own hlanded hcancelled ?_
        show (Dict.set _ cfg.name _).get? cfg.name = _
        rw [Dict.get?_set, if_pos rfl]
    · cases (leads_act henter).1
  | some x =>
    obtain ⟨e, he⟩ := Option.isSome_iff_exists.mp hgate.1
    have hname : x.name = cfg.name := hgate.2 x rfl
    rw [he] at h
    obtain ⟨v, res, ⟨hrely, -⟩, hready, hallowed, rfl, hres⟩ := exec_wait' h
    have hgone : (Hub.connectEvents v.state).contains x.name = false := by
      have hall := (Bool.and_eq_true_iff.mp hallowed).2
      simpa [Wait.isEvent] using hall
    rcases hrely with hkept | ⟨y, hy, -, hended, -⟩
    · rw [hkept.connectEvents, hname, hgate.1] at hgone
      cases hgone
    · obtain rfl := Option.some.inj hy
      rw [← hname] at hdown ⊢
      rcases hres with ⟨e', rfl, -⟩ | ⟨-, rfl⟩
      · have hends := ends_of_joining hallowed
        cases e' <;> simp_all [ready, answers, Outcome.ends]
      · exact Or.inr ⟨rfl, hended.verdict_joined hdown⟩

theorem TablesKept.tells {but : Option ℕ} {s s' : Hub} (h : TablesKept but s s') :
    o.Tells joined name s' ↔ o.Tells joined name s := by
  cases joined with
  | none => rfl
  | some x => simp only [Outcome.Tells, h.connections, h.failed]

theorem TablesKept.inProgress {but : Option ℕ} {s s' : Hub} (h : TablesKept but s s')
    (hs : InProgress joined name s) : InProgress joined name s' :=
  ⟨by rw [h.connectEvents]; exact hs.1, hs.2⟩

theorem TablesKept.isLive {s s' : Hub} (h : TablesKept none s s') :
    s'.isLive name = s.isLive name := by
  rw [Hub.isLive, Hub.isLive, h.connections]
  exact congrArg (fun f => Option.any f _) (funext fun x => h.isConnected)

theorem TablesKept.succeeded {s s' : Hub} (h : TablesKept none s s') :
    s'.Succeeded name ↔ s.Succeeded name := by
  rw [Hub.Succeeded, Hub.Succeeded, h.connections, h.failed]

/-- A section is entered and left. -/
theorem leads_inside {α : Type} {enter : Act} {c : Call} {p : HubOp α} {r : Except Exc α}
    (h : Runs o joined t (inside enter c p) w r w') (henter : enter.Idle) :
    ∃ u v, TablesKept none w.state u.state ∧ Hub.config u.state = Hub.config w.state ∧
      Runs o joined t p u r v ∧ TablesKept none v.state w'.state := by
  obtain ⟨v, hp, rfl⟩ := Op.exec_within.mp h
  have hkept : enter.KeepsTables none := by cases enter <;> trivial
  exact ⟨_, v, hkept.eval w.state, (henter.onlyCalls w.state).config, hp,
    Act.KeepsTables.eval (a := .nop) trivial v.state⟩

/-- What is reported goes by the tables. -/
theorem reports_iff {failure : String} {r : Except Exc (Bool × String)}
    (h : Runs o joined t (report name failure) w r w') :
    w' = w ∧ ((∃ message, r = .ok (true, message)) ↔ Hub.Succeeded w.state name) := by
  replace h := Op.exec_get_bind.mp h
  cases hfailed : (Hub.failed w.state).get? name with
  | some message =>
    rw [hfailed] at h
    obtain ⟨rfl, rfl⟩ := h
    exact ⟨rfl, fun ⟨_, h⟩ => (nomatch h), fun h => nomatch hfailed.symm.trans h.1⟩
  | none =>
    rw [hfailed] at h
    cases hget : (Hub.connections w.state).get? name with
    | none =>
      rw [hget] at h
      obtain ⟨rfl, rfl⟩ := h
      exact ⟨rfl, fun ⟨_, h⟩ => (nomatch h), fun h => absurd hget h.2⟩
    | some x =>
      rw [hget] at h
      obtain ⟨rfl, rfl⟩ := h
      exact ⟨rfl, fun _ => ⟨hfailed, by rw [hget]; exact Option.some_ne_none x⟩, fun _ => ⟨_, rfl⟩⟩

/-- What is reported after an attempt is true just if it is by the outcome. -/
theorem reports_of_verdict {failure : String} {u : World hubSignature} {P : Prop}
    {r : Except Exc (Bool × String)}
    (hverdict : (Hub.Succeeded u.state name → Hub.isLive u.state name = true) ↔ P)
    (hkept : TablesKept none u.state w.state) (h : Runs o joined t (report name failure) w r w') :
    ((∃ message, r = .ok (true, message)) → Hub.isLive w'.state name = true) ↔ P := by
  obtain ⟨rfl, hreports⟩ := reports_iff h
  rw [hreports, hkept.succeeded, hkept.isLive]
  exact hverdict

/-- A connected backend is disconnected first, which touches none of the tables. -/
theorem leads_disconnectStored {r : Except Exc Unit}
    (h : Runs o joined t (when (Hub.isLive w.state name) (disconnectStored name)) w r w') :
    r = .ok () ∧ Hub.isLive w'.state name = false ∧ ∃ but, TablesKept but w.state w'.state := by
  by_cases hlive : Hub.isLive w.state name = true
  · rw [HubOp.when, if_pos hlive] at h
    obtain ⟨x, hx, -⟩ := Hub.isLive_iff.mp hlive
    replace h := Op.exec_get_bind.mp h
    rw [hx] at h
    obtain ⟨rfl, hkept, hdown⟩ := leads_catch_disconnect h
    refine ⟨rfl, ?_, _, hkept⟩
    rw [Hub.isLive, hkept.connections, hx]
    exact hdown
  · rw [HubOp.when, if_neg hlive] at h
    obtain ⟨hr, rfl⟩ := h
    exact ⟨hr.symm, Bool.eq_false_iff.mpr hlive, none, .refl _ _⟩

/-- What `reconnect` reports of a backend that is configured. -/
theorem reconnect_reports_iff {cfg : MCPServerConfig} {r : Except Exc (Bool × String)}
    (hgate : InProgress joined cfg.name w.state)
    (h : Runs o joined t (do
      when (Hub.isLive w.state cfg.name) (disconnectStored cfg.name)
      connectTimed cfg
      report cfg.name "Failed") w r w') :
    ((∃ message, r = .ok (true, message)) → Hub.isLive w'.state cfg.name = true) ↔
      o.Tells joined cfg.name w.state := by
  rcases Op.exec_bind.mp h with ⟨_, u, hdisconnect, h⟩ | ⟨_, hdisconnect, -⟩
  · obtain ⟨-, hdown, but, hkept⟩ := leads_disconnectStored hdisconnect
    rcases Op.exec_bind.mp h with ⟨_, v, hconnect, hreport⟩ | ⟨e, hconnect, rfl⟩
    · rcases verdict_connectTimed (hkept.inProgress hgate) hdown hconnect with
        ⟨_, he, -⟩ | ⟨-, hverdict⟩
      · cases he
      · rw [hkept.tells] at hverdict
        exact reports_of_verdict hverdict (.refl _ _) hreport
    · rcases verdict_connectTimed (hkept.inProgress hgate) hdown hconnect with
        ⟨_, -, htells⟩ | ⟨he, -⟩
      · exact ⟨fun _ => hkept.tells.mp htells, fun _ ⟨_, h⟩ => (nomatch h)⟩
      · cases he
  · cases (leads_disconnectStored hdisconnect).1

theorem leads_acquire {l : ℕ} {r : Except Exc Unit} (h : Runs o joined t (acquire l) w r w') :
    r = .ok () ∧ TablesKept none w.state w'.state := by
  have hwait : ∀ {r u}, Runs o joined t (when (Hub.permits w.state l = 0) (wait' (.lock l))) w r u →
      r = .ok () ∧ TablesKept none w.state u.state := by
    intro r u h
    by_cases hfree : Hub.permits w.state l = 0
    · rw [HubOp.when, if_pos hfree] at h
      obtain ⟨v, res, ⟨hrely, -⟩, hready, hallowed, rfl, ⟨e, rfl, -⟩ | ⟨-, rfl⟩⟩ := exec_wait' h
      · have hends := ends_of_joining hallowed
        cases e <;> simp_all [ready, answers, Outcome.ends]
      · exact ⟨rfl, hrely.kept hallowed rfl⟩
    · rw [HubOp.when, if_neg hfree] at h
      obtain ⟨hr, rfl⟩ := h
      exact ⟨hr.symm, .refl _ _⟩
  rcases Op.exec_bind.mp (Op.exec_get_bind.mp h) with ⟨_, u, hfirst, htake⟩ | ⟨_, hfirst, -⟩
  · obtain ⟨-, hkept⟩ := hwait hfirst
    obtain ⟨rfl, hstate⟩ := leads_act htake
    rw [hstate]
    exact ⟨rfl, hkept.trans (Act.KeepsTables.eval (a := .take l) trivial _)⟩
  · cases (hwait hfirst).1

/-- What `add_server` does under the lock. -/
theorem verdict_registerAndConnect {cfg : MCPServerConfig} {r : Except Exc Bool}
    (hgate : InProgress joined cfg.name w.state)
    (h : Runs o joined t (registerAndConnect cfg) w r w') :
    (Hub.isLive w.state cfg.name = true ∧ r = .ok true) ∨ Hub.isLive w.state cfg.name = false ∧
      ((∃ e, r = .error e ∧ o.Tells joined cfg.name w.state) ∨ r = .ok false ∧
        ((Hub.Succeeded w'.state cfg.name → Hub.isLive w'.state cfg.name = true) ↔
          o.Tells joined cfg.name w.state)) := by
  replace h := Op.exec_get_bind.mp h
  by_cases hlive : Hub.isLive w.state cfg.name = true
  · have hknown : ((Hub.connections w.state).get? cfg.name).any
        (fun x => Hub.isConnected w.state x) = true := hlive
    rw [hknown, if_pos rfl] at h
    obtain ⟨hr, -⟩ := h
    exact Or.inl ⟨hlive, hr.symm⟩
  · have hknown : ((Hub.connections w.state).get? cfg.name).any
        (fun x => Hub.isConnected w.state x) = false := Bool.eq_false_iff.mpr hlive
    rw [hknown, if_neg Bool.false_ne_true] at h
    refine Or.inr ⟨hknown, ?_⟩
    have hregister : ∀ {c : Prop} [Decidable c] {a : Act} {r u}, a.KeepsTables none →
        Runs o joined t (when c (act a)) w r u → r = .ok () ∧ TablesKept none w.state u.state := by
      intro c _ a r u ha h
      by_cases hc : c
      · rw [HubOp.when, if_pos hc] at h
        obtain ⟨rfl, hstate⟩ := leads_act h
        exact ⟨rfl, hstate ▸ ha.eval _⟩
      · rw [HubOp.when, if_neg hc] at h
        obtain ⟨hr, rfl⟩ := h
        exact ⟨hr.symm, .refl _ _⟩
    rcases Op.exec_bind.mp h with ⟨_, u, hset, h⟩ | ⟨_, hset, -⟩
    · obtain ⟨-, hkept⟩ := hregister (a := .setServers _) trivial hset
      have hdown : Hub.isLive u.state cfg.name = false := by rw [hkept.isLive]; exact hknown
      rcases Op.exec_bind.mp h with ⟨_, v, hconnect, hret⟩ | ⟨e, hconnect, rfl⟩
      · obtain ⟨hr, rfl⟩ := hret
        rcases verdict_connectTimed (hkept.inProgress hgate) hdown hconnect with
          ⟨_, he, -⟩ | ⟨-, hverdict⟩
        · cases he
        · rw [hkept.tells] at hverdict
          exact Or.inr ⟨hr.symm, hverdict⟩
      · rcases verdict_connectTimed (hkept.inProgress hgate) hdown hconnect with
          ⟨_, -, htells⟩ | ⟨he, -⟩
        · exact Or.inl ⟨e, rfl, hkept.tells.mp htells⟩
        · cases he
    · cases (hregister (a := .setServers _) trivial hset).1

/-- What `add_server` reports. -/
theorem addServer_reports_iff {cfg : MCPServerConfig} {r : Except Exc (Bool × String)}
    (hgate : InProgress joined cfg.name w.state)
    (h : Runs o joined t (do
      let known ← withLock lock (registerAndConnect cfg)
      if known then
        pure (false, s!"Server '{cfg.name}' is already connected")
      else
        report cfg.name "Failed to connect") w r w') :
    ((∃ message, r = .ok (true, message)) → Hub.isLive w'.state cfg.name = true) ↔
      Hub.isLive w.state cfg.name = true ∨ o.Tells joined cfg.name w.state := by
  have hlocked : ∀ {r v}, Runs o joined t (withLock lock (registerAndConnect cfg)) w r v →
      (Hub.isLive w.state cfg.name = true ∧ r = .ok true) ∨ Hub.isLive w.state cfg.name = false ∧
        ((∃ e, r = .error e ∧ o.Tells joined cfg.name w.state) ∨ r = .ok false ∧
          ((Hub.Succeeded v.state cfg.name → Hub.isLive v.state cfg.name = true) ↔
            o.Tells joined cfg.name w.state)) := by
    intro r v h
    rcases Op.exec_bind.mp h with ⟨_, u, hacquire, h⟩ | ⟨_, hacquire, -⟩
    · obtain ⟨-, hkept⟩ := leads_acquire hacquire
      obtain ⟨v', hbody, rfl⟩ := Op.exec_ensure.mp h
      have hverdict := verdict_registerAndConnect (hkept.inProgress hgate) hbody
      rw [hkept.isLive, hkept.tells] at hverdict
      exact hverdict
    · cases (leads_acquire hacquire).1
  rcases Op.exec_bind.mp h with ⟨known, v, hlock, h⟩ | ⟨e, hlock, rfl⟩
  · rcases hlocked hlock with ⟨hlive, hr⟩ | ⟨hdown, ⟨_, he, -⟩ | ⟨hr, hverdict⟩⟩
    · obtain rfl := Except.ok.inj hr
      obtain ⟨rfl, rfl⟩ := h
      exact ⟨fun _ => Or.inl hlive, fun _ ⟨_, h⟩ => (nomatch h)⟩
    · cases he
    · obtain rfl := Except.ok.inj hr
      rw [reports_of_verdict hverdict (.refl _ _) h, hdown]
      simp
  · rcases hlocked hlock with ⟨-, he⟩ | ⟨-, ⟨_, -, htells⟩ | ⟨he, -⟩⟩
    · cases he
    · exact ⟨fun _ => Or.inr htells, fun _ ⟨_, h⟩ => (nomatch h)⟩
    · cases he

end Verdict

namespace Request

/-- No attempt is made: the backend is not configured, or is connected already. -/
def Refuses (q : Request) (s : Hub) : Prop :=
  match q with
  | .reconnect serverName => s.config.find? serverName = none
  | .connectOne serverName => s.config.find? serverName = none
  | .addServer cfg => s.isLive cfg.name = true

/-- What an operation reports is true. -/
def Sound (q : Request) (o : Outcome) (joined : Option ConnRef) (s : Hub) : Prop :=
  q.Refuses s ∨ o.Tells joined q.name s

end Request

section Reports

variable {o : Outcome} {joined : Option ConnRef} {t : TaskId} {w w' : World hubSignature}

/-- Only the flag of a report is looked at. -/
theorem reports_flag {p : HubOp (Bool × String)} {r : Except Exc Bool}
    (h : Runs o joined t (do let (success, _) ← p; pure success) w r w') :
    ∃ r', Runs o joined t p w r' w' ∧ (r = .ok true ↔ ∃ message, r' = .ok (true, message)) := by
  rcases Op.exec_bind.mp h with ⟨⟨success, message⟩, v, hp, hr, rfl⟩ | ⟨e, hp, rfl⟩
  · refine ⟨_, hp, ?_⟩
    rw [← hr]
    constructor
    · intro h
      exact ⟨message, by rw [Except.ok.inj h]⟩
    · rintro ⟨_, h⟩
      rw [(Prod.mk.inj (Except.ok.inj h)).1]
  · exact ⟨_, hp, nofun, fun ⟨_, h⟩ => nomatch h⟩

/-- What `reconnect` reports. -/
theorem reconnect_iff {serverName : String} {r : Except Exc (Bool × String)}
    (hgate : InProgress joined serverName w.state)
    (h : Runs o joined t (reconnect serverName) w r w') :
    ((∃ message, r = .ok (true, message)) → Hub.isLive w'.state serverName = true) ↔
      (Request.reconnect serverName).Sound o joined w.state := by
  obtain ⟨u, v, henter, hconfig, hbody, hleave⟩ := leads_inside h trivial
  replace hbody := Op.exec_get_bind.mp hbody
  rw [hconfig] at hbody
  cases hfind : (Hub.config w.state).find? serverName with
  | none =>
    rw [hfind] at hbody
    obtain ⟨rfl, rfl⟩ := hbody
    exact ⟨fun _ => Or.inl hfind, fun _ ⟨_, h⟩ => (nomatch h)⟩
  | some cfg =>
    rw [hfind] at hbody
    obtain ⟨u', v', henter', -, hattempt, hleave'⟩ := leads_inside hbody trivial
    obtain rfl : cfg.name = serverName := by simpa using List.find?_some hfind
    have hkept := henter.trans henter'
    have hiff := reconnect_reports_iff (hkept.inProgress hgate) hattempt
    rw [hkept.tells, ← (hleave'.trans hleave).isLive] at hiff
    have hfound : ¬ (Request.reconnect cfg.name).Refuses w.state := by
      intro hnone
      cases hfind.symm.trans hnone
    rw [Request.Sound, or_iff_right hfound]
    exact hiff

/-- What `add_server` reports. -/
theorem addServer_iff {cfg : MCPServerConfig} {r : Except Exc (Bool × String)}
    (hgate : InProgress joined cfg.name w.state) (h : Runs o joined t (addServer cfg) w r w') :
    ((∃ message, r = .ok (true, message)) → Hub.isLive w'.state cfg.name = true) ↔
      (Request.addServer cfg).Sound o joined w.state := by
  obtain ⟨u, v, henter, -, hbody, hleave⟩ := leads_inside h trivial
  obtain ⟨u', v', henter', -, hattempt, hleave'⟩ := leads_inside hbody trivial
  have hkept := henter.trans henter'
  have hiff := addServer_reports_iff (hkept.inProgress hgate) hattempt
  rw [hkept.tells, hkept.isLive, ← (hleave'.trans hleave).isLive] at hiff
  exact hiff

/-- **What is reported is true** just under the condition. -/
theorem reports_live_iff {q : Request} {r : Except Exc Bool}
    (hgate : InProgress joined q.name w.state) (h : Runs o joined t q.run w r w') :
    (r = .ok true → Hub.isLive w'.state q.name = true) ↔ q.Sound o joined w.state := by
  cases q with
  | reconnect serverName =>
    obtain ⟨r', h, hflag⟩ := reports_flag h
    rw [hflag]
    exact reconnect_iff hgate h
  | connectOne serverName =>
    obtain ⟨r', h, hflag⟩ := reports_flag h
    rw [hflag]
    exact reconnect_iff hgate h
  | addServer cfg =>
    obtain ⟨r', h, hflag⟩ := reports_flag h
    rw [hflag]
    exact addServer_iff hgate h

end Reports

/-- A hub with one backend that has never been connected. -/
def newWorld : World hubSignature := startWorld (oneServer { name := "a" })

/-- The backend asks for an authorization: success is reported, and nothing is connected. -/
theorem not_live_unauthorized : ¬ ∀ r w',
    Runs .authRequired none 0 (Request.reconnect "a").run newWorld r w' →
      r = .ok true → Hub.isLive w'.state "a" = true := by
  intro hclaim
  obtain ⟨r, w', h, hplayed⟩ := Op.exists_exec_of_play
    (M := hubAllowing (joining .authRequired none)) (t := 0) (Beside .authRequired none)
    (w := newWorld) (fun s => Or.inl (.refl none s)) (p := (Request.reconnect "a").run)
    Nat.zero_lt_one [.ok, .raised .authRequired, .ok]
    (fun r w => (match r with | .ok success => success | .error _ => false) &&
      !Hub.isLive w.state "a") (by decide +kernel)
  obtain ⟨hsuccess, hdown⟩ := Bool.and_eq_true_iff.mp hplayed
  have hr : r = .ok true := by
    cases r with
    | ok success => rw [show success = true from hsuccess]
    | error e => cases hsuccess
  rw [hclaim r w' h hr] at hdown
  cases hdown

/-- The backend is connected, and that is what is reported. -/
theorem reports_live_iff_connected : ∃ r w',
    Runs .success none 0 (Request.reconnect "a").run newWorld r w' ∧
      InProgress none (Request.reconnect "a").name newWorld.state ∧
      ((r = .ok true → Hub.isLive w'.state (Request.reconnect "a").name = true) ↔
        (Request.reconnect "a").Sound .success none newWorld.state) := by
  obtain ⟨r, w', h, -⟩ := Op.exists_exec_of_play (M := hubAllowing (joining .success none)) (t := 0)
    (Beside .success none) (w := newWorld) (fun s => Or.inl (.refl none s))
    (p := (Request.reconnect "a").run) Nat.zero_lt_one [.ok, .connected {}, .ok]
    (fun _ _ => true) (by decide +kernel)
  have hgate : InProgress none (Request.reconnect "a").name newWorld.state :=
    ⟨rfl, fun _ hx => absurd hx (Option.not_mem_none _)⟩
  exact ⟨r, w', h, hgate, reports_live_iff hgate h⟩

end SlmMcpHub
