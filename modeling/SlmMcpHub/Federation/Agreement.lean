import SlmMcpHub.Resilience.SupervisorView

/-!
# A connection in the hub

The operations of `ConnectionTasks` see the transports, and those of the hub do not: one wait of the
hub is all that a client does to connect. Otherwise the two are in step, and so are the loops of
their supervisors. The hub keeps the counters of a supervisor in its attributes, and the task of a
connection hands them from round to round.

## Main definitions

* `Hosted`, `Follows` — a connection and one of the hub have the same state, and as many failures
* `inHub` — what belongs together in the two systems

## Main results

* `sim_connect`, `sim_request` — `connect` and a request are in step with those of the hub
* `sim_supervisedLoop` — so is every round of the loop
* `simFor_supervisedLoop` — and the loop, for any number of rounds
-/

namespace SlmMcpHub

namespace ConnectionTasks

/-- A connection and the one a supervisor of the hub is for have the same state. -/
structure Hosted (p : SupRef) (s : Connection) (h : Hub) : Prop where
  name : s.name = p.conn.name
  state : s.state = (h.conn p.conn).state

/-- What a wait is given on both sides. The client swallows what its discovery raises, and makes a
`ConnectionError` of what has kept it from opening a transport. -/
def AnsweredAlike : Wait → Except Exc Unit → Res → Prop
  | _, .ok (), .raised _ => False
  | _, .ok (), _ => True
  | .discover, .error e, .connected _ => e.isException = true
  | .enter, .error e, .raised e' =>
    e' = e ∨ e.isException = true ∧ ∃ name, e' = initializationFailed name e
  | _, .error e, .raised e' => e' = e
  | _, .error _, _ => False

/-- A wait for the same thing. All that a client waits for to connect is one wait of the hub. -/
def WaitAlike (p : SupRef) (h : Hub) : Wait → SlmMcpHub.Wait → Prop
  | .enter, .outbound _ | .discover, .outbound _ | .answer, .request | .sleep, .sleep => True
  | .stop, .event e => (h.sup p).stopEvent = some e
  | .drop, .either e d => (h.sup p).stopEvent = some e ∧ (h.sup p).dropEvent = some d
  | _, _ => False

/-- What belongs together for a task of a connection and one of the hub, as long as something holds
of the client and the hub. Nobody else counts the failures of the supervisor, and once it has been
stopped neither the wait for a drop nor the one between two rounds ends like any other. -/
def inHub (operations : Call → Bool) (p : SupRef) (good : Option ℕ → Hub → Prop) (t t' : TaskId) :
    Comparison connectionSignature hubSignature where
  fine := connection operations
  coarse := hub
  fineTask := t
  coarseTask := t'
  state s h := Hosted p s h ∧ good s.outbound h
  keeps _ h _ h' := (h'.sup p).counters = (h.sup p).counters
  wait _ := WaitAlike p
  possible h wt r := wt = .drop ∨ wt = .sleep → r = .ok () →
    ConnectionSupervisor.stopped h p = false
  answer := AnsweredAlike
  call _ h c c' := c = .supervised (h.sup p).counters ∧ c' = .supervised p ∧
    ConnectionSupervisor.stopped h p = false

section

variable {operations : Call → Bool} {p : SupRef} {good : Option ℕ → Hub → Prop} {t t' : TaskId}
  {w : World connectionSignature} {w' : World hubSignature}

theorem Hosted.transition {s : Connection} {h : Hub} (hs : Hosted p s h) (target : ConnectionState)
    (ne : target ≠ .connected) :
    Hosted p (s.transition target) ((SlmMcpHub.Act.transition p.conn target ne).eval h) :=
  ⟨hs.name, (Hub.state_transition h p.conn target).symm⟩

theorem Hosted.establish {s : Connection} {h : Hub} (hs : Hosted p s h) (c : ℕ)
    (caps : Capabilities) :
    Hosted p ((Act.establish c).eval s) ((SlmMcpHub.Act.establish p.conn caps).eval h) := by
  refine ⟨hs.name, ?_⟩
  rw [Hub.conn_eval]
  exact (Hub.state_transition (h.modifyConn p.conn _) p.conn .connected).symm

/-- A supervisor is started in the hub, with the counters of a new one. -/
theorem Hosted.startSupervisor {s : Connection} {h h' : Hub} (hs : Hosted p s h) (name : String)
    (hdrops : ∀ i e, (h.sups i).dropEvent = some e → e < h.nextEvent)
    (hh' : h' = (SlmMcpHub.Act.armStop p).eval ((SlmMcpHub.Act.storeSupervisor name p).eval h)) :
    Hosted p s h' ∧ h'.Started p ∧ ConnectionSupervisor.stopped h' p = false ∧
      (h'.sup p).counters = {} := by
  obtain ⟨hstarted, hview⟩ := hh' ▸ Hub.started_startSupervisor h name p hdrops
  exact ⟨⟨hs.name, hs.state.trans (congrArg View.state hview).symm⟩, hstarted,
    congrArg View.stopped hview, congrArg View.counters hview⟩

/-! ### Connecting -/

/-- The two go on side by side, and the failures counted are those of a state before. -/
structure Alongside (p : SupRef) (good : Option ℕ → Hub → Prop) (before : Hub) (s : Connection)
    (h : Hub) : Prop where
  hosted : Hosted p s h
  good : good s.outbound h
  counters : (h.sup p).counters = (before.sup p).counters

/-- A client has connected, or both have raised the same. -/
def Opened (p : SupRef) (good : Option ℕ → Hub → Prop) (before : Hub) :
    Except Exc Unit → World connectionSignature → Except Exc Res → World hubSignature → Prop
  | .ok (), v, .ok (.connected _), v' => Alongside p good before v.state v'.state
  | .error e, v, .error e', v' => e' = e ∧ Alongside p good before v.state v'.state
  | _, _, _, _ => False

variable {before : Hub} {timed : Bool} {c : ℕ}

/-- A client in step with one wait of the hub. -/
abbrev Opens (operations : Call → Bool) (p : SupRef) (good : Option ℕ → Hub → Prop)
    (t t' : TaskId) (before : Hub) (timed : Bool) (client : ConnOp Unit)
    (w : World connectionSignature) (w' : World hubSignature) : Prop :=
  Coro.Sim (inHub operations p good t t') .none (Opened p good before) client w
    (HubOp.wait (.outbound timed)) w'

/-- `OutboundClient.connect`, with what it does about an exception: it raises a `ConnectionError`,
or goes on in step. -/
theorem sim_connectOr {failed : Exc → ConnOp Unit}
    (hw : Alongside p good before w.state w'.state)
    (hfailed : ∀ e, (∃ name, failed e = throw (initializationFailed name e)) ∨
      ∀ (u : World connectionSignature) (u' : World hubSignature),
        Alongside p good before u.state u'.state →
          Opens operations p good t t' before timed (failed e) u u') :
    Opens operations p good t t' before timed (OutboundClient.connectOr c failed) w w' := by
  refine ⟨.outbound timed, _, w', .halt rfl, ⟨hw.hosted, hw.good⟩, trivial, ?_⟩
  rintro r u u' - - ⟨hhosted, hgood⟩ hkept
  have hu : Alongside p good before u.state u'.state :=
    ⟨hhosted, hgood, hkept.trans hw.counters⟩
  cases r with
  | ok a =>
    refine .inl ⟨.outbound timed, _, u', .halt rfl, ⟨⟨hhosted.name, hhosted.state⟩, hgood⟩,
      trivial, ?_⟩
    rintro r v v' - - ⟨hhosted, hgood⟩ hkept
    have hv : Alongside p good before v.state v'.state :=
      ⟨hhosted, hgood, hkept.trans hu.counters⟩
    refine .inr ?_
    cases r with
    | ok a => exact ⟨.connected {}, trivial, .ok (.connected {}), _, .halt rfl, hv⟩
    | error e => cases e with
      | cancelled => exact ⟨.raised .cancelled, rfl, .error .cancelled, _, .halt rfl, rfl, hv⟩
      | deadline => exact ⟨.raised .deadline, rfl, .error .deadline, _, .halt rfl, rfl, hv⟩
      | _ => exact ⟨.connected {}, rfl, .ok (.connected {}), _, .halt rfl, hv⟩
  | error e =>
    have hanswered : ∀ e : Exc, e.isException = true →
        Opens operations p good t t' before timed (failed e) (u.resumed t) u' ∨
          ∃ e', AnsweredAlike .enter (.error e) (.raised e') ∧
            Coro.Sim (inHub operations p good t t') .none (Opened p good before) (failed e)
              (u.resumed t) (throw e' : HubOp Res) (u'.resumed t') := by
      intro e hexception
      rcases hfailed e with ⟨name, hthrow⟩ | hsim
      · refine .inr ⟨initializationFailed name e, .inr ⟨hexception, name, rfl⟩, ?_⟩
        rw [hthrow]
        exact ⟨.error (initializationFailed name e), _, .halt rfl, rfl, hu⟩
      · exact .inl (hsim (u.resumed t) u' hu)
    cases e with
    | cancelled =>
      exact .inr ⟨.raised .cancelled, .inl rfl, .error .cancelled, _, .halt rfl, rfl, hu⟩
    | deadline =>
      exact .inr ⟨.raised .deadline, .inl rfl, .error .deadline, _, .halt rfl, rfl, hu⟩
    | authRequired =>
      exact .inr ⟨.raised .authRequired, .inl rfl, .error .authRequired, _, .halt rfl, rfl, hu⟩
    | _ =>
      refine Or.imp_right ?_ (hanswered _ rfl)
      rintro ⟨e', halike, hsim⟩
      exact ⟨.raised e', halike, hsim⟩

/-- `OutboundClient.connect` of a new client. -/
theorem sim_client (name : String) (hw : Alongside p good before w.state w'.state) :
    Opens operations p good t t' before timed (OutboundClient.connect name c) w w' := by
  refine sim_connectOr hw fun e => ?_
  by_cases hrejected : isDiscoverProbeRejection e = true
  · refine .inr fun u u' hu => ?_
    rw [if_pos hrejected]
    exact sim_connectOr hu fun e => .inl ⟨name, rfl⟩
  · refine .inl ⟨name, ?_⟩
    rw [if_neg hrejected]

/-- What a connection of the hub may rely on: its changes of state keep it, and a new client brings
it about. -/
structure Carried (p : SupRef) (good : Option ℕ → Hub → Prop) : Prop where
  transition : ∀ {o h} target ne, good o h →
    good o ((SlmMcpHub.Act.transition p.conn target ne).eval h)
  establish : ∀ {o h} c caps, good o h →
    good (some c) ((SlmMcpHub.Act.establish p.conn caps).eval h)

theorem Alongside.transition (hgood : Carried p good) {s : Connection} {h : Hub}
    (hs : Alongside p good before s h) (target : ConnectionState) (ne : target ≠ .connected) :
    Alongside p good before (s.transition target)
      ((SlmMcpHub.Act.transition p.conn target ne).eval h) :=
  ⟨hs.hosted.transition target ne, hgood.transition target ne hs.good, hs.counters⟩

theorem Alongside.establish (hgood : Carried p good) {s : Connection} {h : Hub}
    (hs : Alongside p good before s h) (c : ℕ) (caps : Capabilities) :
    Alongside p good before ((Act.establish c).eval s)
      ((SlmMcpHub.Act.establish p.conn caps).eval h) := by
  refine ⟨hs.hosted.establish c caps, hgood.establish c caps hs.good, ?_⟩
  rw [Hub.sup_eval]
  exact hs.counters

/-- Two operations have ended the same, side by side. -/
def Ended (p : SupRef) (good : Option ℕ → Hub → Prop) (before : Hub) (r : Except Exc Unit)
    (v : World connectionSignature) (r' : Except Exc Unit) (v' : World hubSignature) : Prop :=
  r' = r ∧ Alongside p good before v.state v'.state

/-- **`connect` is in step with the `connect` of the hub.** -/
theorem sim_connect (hgood : Carried p good) (timed : Bool)
    (hw : Alongside p good before w.state w'.state) :
    Coro.Sim (inHub operations p good t t') .none (Ended p good before) connect w
      (MCPConnection.connect p.conn timed) w' := by
  refine Op.sim_get_right.mpr ?_
  show Coro.Sim _ _ _ (if Connection.state w.state = .connected then _ else _ : ConnOp Unit) w
    (if Hub.isConnected w'.state p.conn = true then _ else _ : HubOp Unit) w'
  have hconnected : Connection.state w.state = .connected ↔
      Hub.isConnected w'.state p.conn = true := by
    rw [hw.hosted.state]
    exact decide_eq_true_iff.symm
  by_cases hup : Connection.state w.state = .connected
  · rw [if_pos hup, if_pos (hconnected.mp hup)]
    exact ⟨.ok (), w', .halt rfl, rfl, hw⟩
  · rw [if_neg hup, if_neg (hconnected.not.mp hup), HubOp.caught_eq]
    refine Op.sim_within (P := Ended p good before) ?_ fun r v r' v' h => h
    have hbegun := hw.transition hgood .connecting (by decide)
    refine Op.sim_caught_bind (P := Opened p good before) (sim_client _
      ⟨⟨hbegun.hosted.name, hbegun.hosted.state⟩, hbegun.good, hbegun.counters⟩) ?_
    rintro (e | a) v (e' | res) v' h
    · obtain ⟨rfl, hv⟩ := h
      have herror := hv.transition hgood .error (by decide)
      have hrenamed : ∀ e : Exc, (.error (initializationFailed p.conn.name e) : Except Exc Unit) =
          .error (initializationFailed (Connection.name w.state) e) := by
        intro e
        rw [hw.hosted.name]
      cases e' with
      | cancelled => exact ⟨.error .cancelled, _, .halt rfl, rfl, hv⟩
      | deadline => exact ⟨.error .deadline, _, .halt rfl, rfl, hv⟩
      | authRequired =>
        exact ⟨.ok (), _, .halt rfl, rfl, hv.transition hgood .authRequired (by decide)⟩
      | connection message cls =>
        exact ⟨.error (.connection message cls), _, .halt rfl, rfl, herror⟩
      | timeout => exact ⟨_, _, .halt rfl, hrenamed .timeout, herror⟩
      | streamDropped message resumable =>
        exact ⟨_, _, .halt rfl, hrenamed (.streamDropped message resumable), herror⟩
      | other type message cls =>
        exact ⟨_, _, .halt rfl, hrenamed (.other type message cls), herror⟩
    · cases h
    · cases h
    · cases res with
      | connected caps => exact ⟨.ok (), _, .halt rfl, rfl, h.establish hgood _ caps⟩
      | _ => cases h

/-! ### Requests -/

/-- The hub knows whether there is a client. -/
def Equipped (p : SupRef) (o : Option ℕ) (h : Hub) : Prop := o.isSome = (h.conn p.conn).outbound

theorem outbound_transition (h : Hub) (x : ConnRef) (target : ConnectionState) :
    ((h.transition x target).conn x).outbound = (h.conn x).outbound := by
  show (Function.update h.conns x.id _ x.id).outbound = _
  rw [Function.update_self]
  rfl

theorem carried_equipped (p : SupRef) : Carried p (Equipped p) where
  transition {o h} target _ hequipped := hequipped.trans (outbound_transition h p.conn target).symm
  establish {o h} c caps _ := by
    refine Eq.trans ?_ (outbound_transition (h.modifyConn p.conn fun r =>
      { r with outbound := true, capabilities := caps }) p.conn .connected).symm
    show true = (Function.update h.conns p.conn.id _ p.conn.id).outbound
    rw [Function.update_self]

/-- A request has ended alike. -/
def AnswerAlike : Except Exc Unit → Except Exc CallResult → Prop
  | .ok (), .ok _ => True
  | .error e, .error e' => e' = e
  | _, _ => False

/-- **A request is in step with one of the hub.** -/
theorem sim_request (kind : RequestKind) (hhosted : Hosted p w.state w'.state)
    (hequipped : Equipped p (Connection.outbound w.state) w'.state) :
    Coro.Sim (inHub operations p (Equipped p) t t') .none (fun r _ r' _ => AnswerAlike r r') request
      w (MCPConnection.request p.conn kind) w' := by
  have hcheck : Coro.turn hub t' (MCPConnection.request p.conn kind) w' =
      Coro.turn hub t' ((if (Hub.conn w'.state p.conn).state = .draining then
        throw (.connection s!"MCP {p.conn.name} is draining — no new requests accepted" .transient)
      else if !(Hub.conn w'.state p.conn).outbound then
        throw (.connection s!"MCP {p.conn.name} not connected" .transient)
      else pure ()) >>= fun _ => MCPConnection.dispatch p.conn kind : HubOp CallResult) w' := rfl
  refine (Coro.sim_congr_right hcheck).mpr ?_
  show Coro.Sim _ _ _ (if Connection.state w.state = .draining then
      throw (.connection s!"MCP {Connection.name w.state} is draining — no new requests accepted"
        .transient)
    else if Connection.outbound w.state = none then
      throw (.connection s!"MCP {Connection.name w.state} not connected" .transient)
    else _ : ConnOp Unit) w _ w'
  rw [← hhosted.state, ← hequipped, hhosted.name]
  by_cases hdraining : Connection.state w.state = .draining
  · rw [if_pos hdraining, if_pos hdraining]
    exact ⟨_, _, .halt rfl, rfl⟩
  rw [if_neg hdraining, if_neg hdraining]
  cases hclient : Connection.outbound w.state with
  | none => exact ⟨_, _, .halt rfl, rfl⟩
  | some c =>
    have hconn : ∀ n, (((SlmMcpHub.Act.beginRequest p.conn n).eval w'.state).conn p.conn) =
        { Hub.conn w'.state p.conn with inFlight := n :: (Hub.conn w'.state p.conn).inFlight } :=
      fun n => Function.update_self ..
    have hbegun : ∀ n, Hosted p ((Act.beginRequest).eval w.state)
        ((SlmMcpHub.Act.beginRequest p.conn n).eval w'.state) ∧
          Equipped p (some c) ((SlmMcpHub.Act.beginRequest p.conn n).eval w'.state) := by
      intro n
      refine ⟨⟨hhosted.name, ?_⟩, ?_⟩
      · rw [hconn]
        exact hhosted.state
      · rw [Equipped, hconn, ← hclient]
        exact hequipped
    refine ⟨.request, _, _, .halt rfl, ?_, trivial, ?_⟩
    · obtain ⟨hhosted', hequipped'⟩ := hbegun (Hub.nextRequest w'.state)
      exact ⟨hhosted', hclient.symm ▸ hequipped'⟩
    rintro (e | a) u u' - - - -
    · exact .inr ⟨.raised e, rfl, .error e, _, .halt rfl, rfl⟩
    · exact .inr ⟨.answered {}, trivial, .ok {}, _, .halt rfl, trivial⟩

/-- A connection that is made for a request. -/
theorem sim_connect_request (timed : Bool) (kind : RequestKind)
    (hhosted : Hosted p w.state w'.state)
    (hequipped : Equipped p (Connection.outbound w.state) w'.state) :
    Coro.Sim (inHub operations p (Equipped p) t t') .none (fun r _ r' _ => AnswerAlike r r')
      (connect >>= fun _ => request : ConnOp Unit) w
      (MCPConnection.connect p.conn timed >>= fun _ => MCPConnection.request p.conn kind :
        HubOp CallResult) w' := by
  have hstart : Alongside p (Equipped p) w'.state w.state w'.state := ⟨hhosted, hequipped, rfl⟩
  refine Coro.Sim.bind (sim_connect (carried_equipped p) timed hstart) ?_
  rintro r v r' v' ⟨rfl, hv⟩
  cases r' with
  | ok a => exact sim_request kind hv.hosted hv.good
  | error e => exact ⟨.error e, v', .halt rfl, rfl⟩

/-! ### The loop of the supervisor -/

/-- The supervisor of the hub has been started, and has a drop event. -/
def Watched (p : SupRef) (_ : Option ℕ) (h : Hub) : Prop :=
  h.Started p ∧ (h.view p).armed = true

theorem Watched.turns {o o' : Option ℕ} {h h' : Hub} {f : View → View} (hw : Watched p o h)
    (hturns : h.Turns h' p f) (hf : ∀ v, (f v).armed = v.armed) : Watched p o' h' := by
  obtain ⟨hstarted, hview⟩ := hturns hw.1
  exact ⟨hstarted, by rw [hview, hf, hw.2]⟩

theorem carried_watched (p : SupRef) : Carried p (Watched p) where
  transition {_ h} target ne hw := hw.turns (Hub.turns_transition h p target ne) fun _ => rfl
  establish {_ h} _ caps hw := hw.turns (Hub.turns_establish h p caps) fun _ => rfl

/-- A supervisor of the hub that is watched has the state of a connection, and these counters. -/
structure Follows (p : SupRef) (counters : Supervisor) (s : Connection) (h : Hub) : Prop where
  name : s.name = p.conn.name
  watched : Watched p s.outbound h
  state : (h.view p).state = s.state
  counters : (h.view p).counters = counters

/-- A supervisor of the hub goes on with its next round, or waits for its stop event, in a procedure
of its own. -/
def rounds : Bodies connectionSignature hubSignature (Except Exc Unit) (Except Exc Unit) where
  fine _ := none
  coarse
    | .supervised p => some (ConnectionSupervisor.supervisedLoop p)
    | .parked p => some (ConnectionSupervisor.park p)
    | _ => none

/-- What is left of a round is in step, and ends the same. -/
def InStep (operations : Call → Bool) (p : SupRef) (t t' : TaskId) : ConnOp Unit →
    World connectionSignature → HubOp Unit → World hubSignature → Prop :=
  Coro.Sim (inHub operations p (Watched p) t t') rounds fun r _ r' _ => r' = r

variable {counters : Supervisor}

theorem Follows.hosted {s : Connection} {h : Hub} (hw : Follows p counters s h) : Hosted p s h :=
  ⟨hw.name, hw.state.symm⟩

/-- The supervisor of the hub has turned to where the connection is. -/
theorem Follows.turn {s s' : Connection} {h h' : Hub} {f : View → View} {counters' : Supervisor}
    (hw : Follows p counters s h) (hturns : h.Turns h' p f) (hf : ∀ v, (f v).armed = v.armed)
    (hname : s'.name = s.name) (hstate : (f (h.view p)).state = s'.state)
    (hcounters : (f (h.view p)).counters = counters') : Follows p counters' s' h' := by
  obtain ⟨-, hview⟩ := hturns hw.watched.1
  refine ⟨hname.trans hw.name, hw.watched.turns hturns hf, ?_, ?_⟩
  · rw [hview, hstate]
  · rw [hview, hcounters]

theorem sim_nextRound (hw : Follows p counters w.state w'.state)
    (hgoing : ConnectionSupervisor.stopped w'.state p = false) :
    InStep operations p t t' (nextRound counters) w (Op.jump (.supervised p)) w' :=
  .inl ⟨.supervised p, w', .halt rfl, ⟨hw.hosted, hw.watched⟩,
    congrArg Call.supervised hw.counters.symm, rfl, hgoing⟩

/-- The wait between two rounds. -/
theorem sim_sleep (hw : Follows p counters w.state w'.state) :
    InStep operations p t t' (wait .sleep >>= fun _ => nextRound counters) w
      (HubOp.wait' .sleep >>= fun _ => Op.jump (.supervised p)) w' := by
  refine ⟨.sleep, _, w', .halt rfl, ⟨hw.hosted, hw.watched⟩, trivial, ?_⟩
  rintro (e | a) u u' - hpossible ⟨hhosted, hwatched⟩ hkept
  · exact .inr ⟨.raised e, rfl, .error e, _, .halt rfl, rfl⟩
  · refine .inr ⟨.ok, trivial, ?_⟩
    have hu : Follows p counters (u.resumed t).state (u'.resumed t').state :=
      ⟨hhosted.name, hwatched, hhosted.state.symm, hkept.trans hw.counters⟩
    exact (Coro.sim_congr_right rfl).mp (sim_nextRound hu (hpossible (.inr rfl) rfl))

/-- The wait for the stop event. -/
theorem sim_waitStop (hw : Follows p counters w.state w'.state) :
    InStep operations p t t' (wait .stop) w (Op.jump (.parked p)) w' := by
  obtain ⟨stop, hstop, -⟩ := hw.watched.1
  refine ⟨.event stop, _, _, .through rfl rfl (.halt (ConnectionSupervisor.turn_park hstop)),
    ⟨⟨hw.name, hw.hosted.state⟩, hw.watched⟩, hstop, ?_⟩
  rintro (e | a) u u' - - - -
  · exact .inr ⟨.raised e, rfl, .error e, _, .halt rfl, rfl⟩
  · exact .inr ⟨.ok, trivial, .ok (), _, .halt rfl, rfl⟩

/-- What a round does about an exception with a class. -/
theorem sim_failed (e : Exc) (hw : Follows p counters w.state w'.state) :
    InStep operations p t t' (handleConnectFailure counters e) w
      (ConnectionSupervisor.handleConnectFailure p e) w' := by
  obtain ⟨v', hturn, hturns⟩ :=
    ConnectionSupervisor.turn_handleConnectFailure p w' e hw.watched.1
  have harmed : ∀ v : View, (v.afterFailure e.classify).armed = v.armed := fun v =>
    v.armed_afterFailure _
  refine (Coro.sim_congr_right hturn).mpr ?_
  rw [handleConnectFailure]
  cases hcls : e.classify with
  | auth =>
    rw [hcls] at hturns harmed
    exact sim_waitStop (hw.turn hturns harmed rfl hw.state hw.counters)
  | terminal =>
    rw [hcls] at hturns
    have hstopped : ConnectionSupervisor.stopped v'.state p = true :=
      congrArg View.stopped (hturns hw.watched.1).2
    have hover : Coro.turn hub t' (ConnectionSupervisor.supervisedLoop p)
        (v'.exec hub t' (.jump (.supervised p))) =
          (.ended (.ok ()), v'.exec hub t' (.jump (.supervised p))) := by
      show Coro.turn hub t' (if ConnectionSupervisor.stopped v'.state p = true then pure ()
        else _ : HubOp Unit) _ = _
      rw [if_pos hstopped]
      rfl
    exact ⟨.ok (), _, .through rfl rfl (.halt hover), rfl⟩
  | transient =>
    rw [hcls] at hturns harmed
    show InStep operations p t t' (if failureThreshold ≤ counters.countFailure.consecutiveFailures ∨
        counters.countFailure.breakerOpen = true then _ else _ : ConnOp Unit) w
      (ConnectionSupervisor.retry p .transient) v'
    obtain rfl := hw.counters
    split_ifs with hopen
    · have hview := View.afterTransient_of_open hopen
      have hv : Follows p (Hub.view w'.state p).counters.countFailure.openBreaker
          (w.exec (connection operations) t (.act (.transition .circuitOpen))).state v'.state :=
        hw.turn hturns harmed rfl (congrArg View.state hview) (congrArg View.counters hview)
      exact sim_sleep hv
    · have hview := View.afterTransient_of_closed hopen
      have hv : Follows p (Hub.view w'.state p).counters.countFailure
          (w.exec (connection operations) t (.act (.transition .reconnecting))).state v'.state :=
        hw.turn hturns harmed rfl (congrArg View.state hview) (congrArg View.counters hview)
      exact sim_sleep hv

/-- The wait for a drop, and what comes after it. -/
theorem sim_waitForDrop (hw : Follows p counters w.state w'.state)
    (hconnected : Connection.state w.state = .connected) :
    InStep operations p t t' (wait .drop >>= fun _ => nextRound counters) w (do
      ConnectionSupervisor.waitForDropOrStop p
      let s ← HubOp.get
      if ConnectionSupervisor.stopped s p then pure () else Op.jump (.supervised p)) w' := by
  obtain ⟨stop, hstop, -⟩ := hw.watched.1
  obtain ⟨drop, hdrop⟩ := Option.isSome_iff_exists.mp hw.watched.2
  have hhub : Hub.isConnected w'.state p.conn = true :=
    decide_eq_true (hw.state.trans hconnected)
  refine (Coro.sim_congr_right (ConnectionSupervisor.turn_waitForDropOrStop _ hhub hstop
    hdrop)).mpr ?_
  refine ⟨.either stop drop, _, w', .halt rfl, ⟨hw.hosted, hw.watched⟩, ⟨hstop, hdrop⟩, ?_⟩
  rintro (e | a) u u' - hpossible ⟨hhosted, hwatched⟩ hkept
  · exact .inr ⟨.raised e, rfl, .error e, _, .halt rfl, rfl⟩
  · refine .inr ⟨.ok, trivial, ?_⟩
    have hgoing : ConnectionSupervisor.stopped u'.state p = false := hpossible (.inl rfl) rfl
    have hu : Follows p counters (u.resumed t).state (u'.resumed t').state :=
      ⟨hhosted.name, hwatched, hhosted.state.symm, hkept.trans hw.counters⟩
    have hturn : Coro.turn hub t' (if ConnectionSupervisor.stopped u'.state p = true then pure ()
        else Op.jump (.supervised p) : HubOp Unit) (u'.resumed t') =
          Coro.turn hub t' (Op.jump (.supervised p) : HubOp Unit) (u'.resumed t') := by
      rw [if_neg (Bool.eq_false_iff.mp hgoing)]
    exact (Coro.sim_congr_right hturn).mpr (sim_nextRound hu hgoing)

/-- What a round makes of the end of its attempt. -/
theorem sim_afterAttempt (ended : Except Exc Unit) (hw : Follows p counters w.state w'.state) :
    InStep operations p t t' (afterAttempt counters ended) w
      (ConnectionSupervisor.afterAttempt p ended) w' := by
  cases ended with
  | ok a =>
    refine Op.sim_get_right.mpr ?_
    show Coro.Sim _ _ _ (if Connection.state w.state = .authRequired then _ else
        if Connection.state w.state ≠ .connected then _ else _ : ConnOp Unit) w
      (if (Hub.conn w'.state p.conn).state = .authRequired then _ else
        if (Hub.conn w'.state p.conn).state ≠ .connected then _ else _ : HubOp Unit) w'
    rw [← hw.hosted.state]
    split_ifs with hauth hdown
    · exact sim_waitStop hw
    · exact sim_sleep hw
    · have hreset : Follows p counters.reset w.state
          (w'.exec hub t' (.act (.resetFailures p))).state :=
        hw.turn (Hub.turns_resetFailures w'.state p) (fun _ => rfl) rfl hw.state
          (congrArg Supervisor.reset hw.counters)
      exact Op.sim_act_right.mpr (sim_waitForDrop hreset (not_not.mp hdown))
  | error e =>
    have hfailed : InStep operations p t t' (act (.transition .failed)) w
        (HubOp.act (.transition p.conn .failed)) w' := ⟨.ok (), _, .halt rfl, rfl⟩
    cases e with
    | cancelled => exact ⟨.error .cancelled, w', .halt rfl, rfl⟩
    | deadline => exact ⟨.error .deadline, w', .halt rfl, rfl⟩
    | connection message cls => exact sim_failed (.connection message cls) hw
    | authRequired => exact sim_waitStop hw
    | timeout => exact hfailed
    | streamDropped message resumable => exact hfailed
    | other type message cls =>
      cases cls with
      | auth => exact sim_waitStop hw
      | _ => exact hfailed

/-- The attempt of a round, and what the round makes of it. -/
theorem sim_attempt (hw : Follows p counters w.state w'.state) :
    InStep operations p t t' (caught connect >>= afterAttempt counters) w
      (HubOp.caught (MCPConnection.connect p.conn false) >>= ConnectionSupervisor.afterAttempt p)
      w' := by
  have hstart : Alongside p (Watched p) w'.state w.state w'.state := ⟨hw.hosted, hw.watched, rfl⟩
  rw [HubOp.caught_eq]
  refine Op.sim_caught_bind (sim_connect (carried_watched p) false hstart) ?_
  rintro r v r' v' ⟨rfl, hv⟩
  exact sim_afterAttempt r' ⟨hv.hosted.name, hv.good, hv.hosted.state.symm,
    hv.counters.trans hw.counters⟩

/-- **A round of the loop is in step with a round in the hub**, with the counters the hub has. -/
theorem sim_supervisedLoop (hhosted : Hosted p w.state w'.state) (hstarted : Hub.Started w'.state p)
    (hgoing : ConnectionSupervisor.stopped w'.state p = false) :
    InStep operations p t t' (supervisedLoop (Hub.sup w'.state p).counters) w
      (ConnectionSupervisor.supervisedLoop p) w' := by
  set counters := (Hub.sup w'.state p).counters with hcounters
  obtain ⟨hstarted', hview⟩ := Hub.turns_armDrop w'.state p hstarted
  have harmed : Follows p counters w.state (w'.exec hub t' (.act (.armDrop p))).state :=
    ⟨hhosted.name, ⟨hstarted', congrArg View.armed hview⟩,
      (congrArg View.state hview).trans hhosted.state.symm, congrArg View.counters hview⟩
  have hprobe : (counters.breakerOpen = true ∧ Connection.state w.state = .circuitOpen) ↔
      ((Hub.sup w'.state p).breakerOpen = true ∧
        (Hub.conn w'.state p.conn).state = .circuitOpen) := by
    rw [← hhosted.state]
    rfl
  refine Op.sim_get_right.mpr ?_
  rw [if_neg (Bool.eq_false_iff.mp hgoing)]
  refine Op.sim_act_right.mpr ?_
  show Coro.Sim _ _ _ (when _ (act (.transition .reconnecting)) >>= fun _ =>
    caught connect >>= afterAttempt counters : ConnOp Unit) w _ _
  rw [when, HubOp.when]
  by_cases hopen : counters.breakerOpen = true ∧ Connection.state w.state = .circuitOpen
  · rw [if_pos hopen, if_pos (hprobe.mp hopen)]
    refine Op.sim_act_right.mpr ?_
    have hprobing : Follows p counters
        (w.exec (connection operations) t (.act (.transition .reconnecting))).state _ :=
      harmed.turn (Hub.turns_transition _ p .reconnecting (by decide)) (fun _ => rfl) rfl rfl
        harmed.counters
    exact sim_attempt hprobing
  · rw [if_neg hopen, if_neg (hprobe.not.mp hopen)]
    exact sim_attempt harmed

/-- The rounds of the two loops. -/
def loops : Bodies connectionSignature hubSignature (Except Exc Unit) (Except Exc Unit) where
  fine
    | .supervised counters => some (supervisedLoop counters)
    | _ => none
  coarse
    | .supervised p => some (ConnectionSupervisor.supervisedLoop p)
    | _ => none

/-- **The loop, round after round.** -/
theorem simFor_supervisedLoop (n : ℕ) (hhosted : Hosted p w.state w'.state)
    (hstarted : Hub.Started w'.state p) (hgoing : ConnectionSupervisor.stopped w'.state p = false) :
    Coro.SimFor (inHub operations p (Watched p) t t') rounds loops (fun r _ r' _ => r' = r) n
      (supervisedLoop (Hub.sup w'.state p).counters) w (ConnectionSupervisor.supervisedLoop p)
        w' := by
  refine Coro.Sim.rounds ?_ n (sim_supervisedLoop hhosted hstarted hgoing)
  rintro s h _ _ ⟨hhosted, hstarted, -⟩ ⟨rfl, rfl, hgoing⟩
  refine ⟨_, _, rfl, rfl, fun v v' hv hv' => ?_⟩
  subst hv hv'
  exact sim_supervisedLoop hhosted hstarted hgoing

end

end ConnectionTasks

end SlmMcpHub
