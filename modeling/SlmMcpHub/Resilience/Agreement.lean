import SlmMcpHub.Library.Simulation
import SlmMcpHub.Resilience.SupervisorView

/-!
# A supervisor in the hub

The loop of a supervisor with a backend of its own is in step with the loop of a supervisor of the
hub that has the same view. Both wait for the same things. The first one waits a turn more for a
drop, while the second one is still waiting; and where it waits for the stop event in the middle of
a round, the second one has a procedure of its own.

## Main definitions

* `Mirrors` — a supervisor and one of the hub have the same view
* `inHub` — what belongs together in the two systems

## Main results

* `mirrors_start` — they have when they are started
* `sim_connect` — `connect` is in step with the `connect` of the hub
* `sim_supervisedLoop` — so is every round of the loop
* `simFor_supervisedLoop` — and the loop, for any number of rounds
-/

namespace SlmMcpHub

namespace Resilience

/-- A supervisor and one of the hub have the same view. -/
structure Mirrors (q : ℕ) (p : SupRef) (b : Backend) (h : Hub) : Prop where
  backend : b.Started q
  hub : h.Started p
  view : b.view q = h.view p

/-- An exception of which the chain of causes is not cut, with classes that belong together. -/
structure Raised.Plain (exc : Raised) : Prop where
  proper : exc.Proper
  uncut : causeChain (maxDepth - 1) exc = causeChain maxDepth exc

/-- The hub raises what it keeps of an exception. -/
def Raised.Becomes (exc : Raised) (e : Exc) : Prop := ∃ message, e = exc.toExc message

/-- Two operations have ended alike. -/
def EndAlike : Except Raised Unit → Except Exc Unit → Prop
  | .ok (), .ok () => True
  | .error exc, .error e => exc.Becomes e
  | _, _ => False

/-- A wait for the same thing. The turn a supervisor takes to cancel its waits is a part of the wait
of the hub. -/
def WaitAlike (q : ℕ) (p : SupRef) (b : Backend) (h : Hub) : Wait → SlmMcpHub.Wait → Prop
  | .attempt, .outbound false => True
  | .sleep, .sleep => True
  | .event e, .event e' => (b.supervisors q).stopEvent = some e ∧ (h.sup p).stopEvent = some e'
  | .dropOrStop stop drop, .either stop' drop' =>
    (b.supervisors q).stopEvent = some stop ∧ (h.sup p).stopEvent = some stop' ∧
      (b.supervisors q).dropEvent = some drop ∧ (h.sup p).dropEvent = some drop'
  | .turn, .either _ _ => True
  | _, _ => False

/-- What a wait is given on both sides; how the last turn of a wait for a drop ends does not
matter. -/
def AnsweredAlike : Wait → Except Raised Unit → Res → Prop
  | .turn, _, _ => True
  | _, .ok (), .raised _ => False
  | _, .ok (), _ => True
  | _, .error exc, .raised e => exc.Becomes e
  | _, .error _, _ => False

/-- What belongs together for a task with the loop of a supervisor, and one of the hub. -/
def inHub (q : ℕ) (p : SupRef) (t t' : TaskId) :
    Comparison supervisionSignature hubSignature where
  fine := supervision
  coarse := hub
  fineTask := t
  coarseTask := t'
  state b h := Mirrors q p b h ∧ (Backend.view b q).armed = true
  keeps b _ b' _ := (b'.supervisors q).stopEvent = (b.supervisors q).stopEvent
  wait := WaitAlike q p
  possible _ _ r := ∀ exc, r = .error exc → exc.Plain
  answer := AnsweredAlike
  call _ _ c c' := c = .supervised q ∧ c' = .supervised p

section

variable {q : ℕ} {p : SupRef} {t t' : TaskId} {w : World supervisionSignature}
  {w' : World hubSignature} {f : View → View}

/-- Both supervisors do the same. -/
theorem Mirrors.turn {b b' : Backend} {h h' : Hub} (hm : Mirrors q p b h)
    (hb : b.Turns b' q f) (hh : h.Turns h' p f) : Mirrors q p b' h' := by
  obtain ⟨hbackend, hview⟩ := hb hm.backend
  obtain ⟨hhub, hview'⟩ := hh hm.hub
  exact ⟨hbackend, hhub, by rw [hview, hview', hm.view]⟩

theorem Mirrors.nop {b : Backend} {h : Hub} (hm : Mirrors q p b h) :
    Mirrors q p b (SlmMcpHub.Act.nop.eval h) :=
  ⟨hm.backend, hm.hub, hm.view⟩

/-- Two supervisors that are started for connections in the same state have the same view. -/
theorem mirrors_start {b : Backend} {h : Hub} (name : String)
    (hdrops : ∀ i e, (b.supervisors i).dropEvent = some e → e < b.nextEvent)
    (hdrops' : ∀ i e, (h.sups i).dropEvent = some e → e < h.nextEvent)
    (hstate : b.state = (h.conn p.conn).state) :
    Mirrors b.nextSupervisor p
      ((b.create SlmMcpHub.failureThreshold SlmMcpHub.escalationAfter).makeStop b.nextSupervisor)
      ((SlmMcpHub.Act.armStop p).eval ((SlmMcpHub.Act.storeSupervisor name p).eval h)) := by
  obtain ⟨hbackend, hview⟩ := Backend.started_launch b hdrops
  obtain ⟨hhub, hview'⟩ := Hub.started_startSupervisor h name p hdrops'
  exact ⟨hbackend, hhub, by rw [hview, hview', hstate]⟩

/-! ### Connecting -/

/-- An attempt has ended alike, and the two supervisors have the same view after it. -/
def AttemptAlike (q : ℕ) (p : SupRef) (r : Except Raised Unit) (v : World supervisionSignature)
    (r' : Except Exc Unit) (v' : World hubSignature) : Prop :=
  EndAlike r r' ∧ (∀ exc, r = .error exc → exc.Proper) ∧ Mirrors q p v.state v'.state ∧
    (Backend.view v.state q).armed = true

/-- The exception `connect` raises for another one is an ordinary `ConnectionError`. -/
theorem proper_connectionFrom (exc : Raised) : exc.connectionFrom.Proper :=
  ⟨rfl, fun _ => rfl, fun h => by cases h⟩

theorem toExc_connectionFrom {exc : Raised} {e : Exc} (hplain : exc.Plain)
    (hexception : exc.isinstance [.exception] = true) (he : exc.Becomes e) (message : String) :
    exc.connectionFrom.Becomes (.connection message e.classify) := by
  obtain ⟨text, rfl⟩ := he
  refine ⟨message, ?_⟩
  rw [Raised.classify_toExc hexception, ← classifyFailure_connectionFrom hplain.uncut]
  exact (Raised.toExc_of_connection rfl rfl).symm

theorem sim_connect (hw : Mirrors q p w.state w'.state)
    (harmed : (Backend.view w.state q).armed = true) :
    Coro.Sim (inHub q p t t') .none (AttemptAlike q p) connect w
      (MCPConnection.connect p.conn false) w' := by
  have hstate : (Backend.state w.state) = (Hub.conn w'.state p.conn).state :=
    congrArg View.state hw.view
  refine Op.sim_get_right.mpr ?_
  show Coro.Sim _ _ _ (if Backend.state w.state = .connected then _ else _ : SupervisorOp Unit) w
    (if Hub.isConnected w'.state p.conn then _ else _ : HubOp Unit) w'
  by_cases hconnected : Backend.state w.state = .connected
  · have hhub : Hub.isConnected w'.state p.conn = true :=
      decide_eq_true (hstate.symm.trans hconnected)
    rw [if_pos hconnected, if_pos hhub]
    exact ⟨.ok (), w', .halt rfl, trivial, nofun, hw, harmed⟩
  · have hhub : ¬ Hub.isConnected w'.state p.conn = true := fun h =>
      hconnected (hstate.trans (of_decide_eq_true h))
    rw [if_neg hconnected, if_neg hhub]
    have hconnecting := hw.turn (Backend.turns_transition w.state q .connecting)
      (Hub.turns_transition w'.state p .connecting (by decide))
    refine ⟨.outbound false, _, _, .halt rfl, ⟨hconnecting, harmed⟩, trivial, ?_⟩
    rintro r u u' - hplain ⟨hu, harmed⟩ -
    refine .inr ?_
    have harmed' : ∀ target, (Backend.view (Backend.transition u.state target) q).armed = true :=
      fun _ => harmed
    cases r with
    | ok a =>
      have hconnected := hu.turn (Backend.turns_transition u.state q .connected)
        (Hub.turns_establish u'.state p {})
      refine ⟨.connected {}, trivial, ?_⟩
      show Coro.Sim _ _ _ (finishConnect (.ok a)) _ _ _
      refine ⟨.ok (), _, .halt rfl, ?_⟩
      exact ⟨trivial, nofun, hconnected.nop, harmed' _⟩
    | error exc =>
      have hexc := hplain exc rfl
      have herror := hu.turn (Backend.turns_transition u.state q .error)
        (Hub.turns_transition u'.state p .error (by decide))
      refine ⟨.raised (exc.toExc ""), ⟨"", rfl⟩, ?_⟩
      show Coro.Sim _ _ _ (finishConnect (.error exc)) _ _ _
      rw [finishConnect]
      by_cases hauth : exc.isinstance [.oAuthAuthRequiredError] = true
      · have hrefused := hu.turn (Backend.turns_transition u.state q .authRequired)
          (Hub.turns_transition u'.state p .authRequired (by decide))
        rw [if_pos hauth, Raised.toExc_of_auth hauth]
        refine ⟨.ok (), _, .halt rfl, ?_⟩
        exact ⟨trivial, nofun, hrefused.nop, harmed' _⟩
      rw [if_neg hauth]
      replace hauth := Bool.eq_false_iff.mpr hauth
      by_cases hconnection : exc.isinstance [.connectionError] = true
      · have htold : exc.toExc "" = .connection "" (classifyFailure exc) :=
          Raised.toExc_of_connection hauth hconnection
        rw [if_pos hconnection, htold]
        refine ⟨_, _, .halt rfl, ⟨"", htold.symm⟩, ?_, herror.nop, harmed' _⟩
        rintro _ ⟨⟩
        exact hexc.proper
      rw [if_neg hconnection]
      replace hconnection := Bool.eq_false_iff.mpr hconnection
      by_cases hexception : exc.isinstance [.exception] = true
      · have hbecomes := toExc_connectionFrom hexc hexception ⟨"", rfl⟩
          s!"MCP {p.conn.name} initialization failed ({exc.typeName})"
        rw [Raised.toExc_of_exception hauth hconnection hexception] at hbecomes ⊢
        rw [if_pos hexception]
        refine ⟨_, _, .halt rfl, hbecomes, ?_, herror.nop, harmed' _⟩
        rintro _ ⟨⟩
        exact proper_connectionFrom exc
      · have htold : exc.toExc "" = .cancelled :=
          Raised.toExc_of_cancelled hexc.proper (Bool.eq_false_iff.mpr hexception)
        rw [if_neg hexception, htold]
        refine ⟨_, _, .halt rfl, ⟨"", htold.symm⟩, ?_, hu.nop, harmed⟩
        rintro _ ⟨⟩
        exact hexc.proper

/-! ### Waiting -/

/-- A supervisor that waits for its stop event in the middle of a round is in another procedure in
the hub; and a round of a supervisor that has been stopped is over at once. -/
def rounds :
    Bodies supervisionSignature hubSignature (Except Raised Unit) (Except Exc Unit) where
  fine
    | .supervised q => some (supervisedLoop q)
    | _ => none
  coarse
    | .parked p => some (ConnectionSupervisor.park p)
    | _ => none

/-- What is left of a round is in step, and ends alike. -/
def InStep (q : ℕ) (p : SupRef) (t t' : TaskId) : SupervisorOp Unit → World supervisionSignature →
    HubOp Unit → World hubSignature → Prop :=
  Coro.Sim (inHub q p t t') rounds fun r _ r' _ => EndAlike r r'

/-- What the hub is given in the place of an answer. -/
def answerFor : Except Raised Unit → Res
  | .ok () => .ok
  | .error exc => .raised (exc.toExc "")

theorem answeredAlike_answerFor (wt : Wait) (r : Except Raised Unit) :
    AnsweredAlike wt r (answerFor r) := by
  cases r with
  | ok a => cases wt <;> trivial
  | error exc => cases wt <;> first | trivial | exact ⟨"", rfl⟩

/-- A wait, and what comes after it. -/
theorem sim_await {wt : Wait} {wt' : SlmMcpHub.Wait} {k : Except Raised Unit → SupervisorOp Unit}
    {g : Unit → HubOp Unit} (hw : Mirrors q p w.state w'.state)
    (harmed : (Backend.view w.state q).armed = true)
    (hwt : WaitAlike q p w.state w'.state wt wt') (herror : ∀ exc, k (.error exc) = throw exc)
    (hok : ∀ (u : World supervisionSignature) (u' : World hubSignature),
      supervision.ready u t wt (.ok ()) = true → Mirrors q p u.state u'.state →
        (Backend.view u.state q).armed = true →
          InStep q p t t' (k (.ok ())) (u.resumed t) (g ()) (u'.resumed t')) :
    InStep q p t t' (Coro.await (S := supervisionSignature) wt k) w (HubOp.wait' wt' >>= g) w' := by
  refine ⟨wt', _, w', .halt rfl, ⟨hw, harmed⟩, hwt, ?_⟩
  rintro r u u' hready - ⟨hu, hstill⟩ -
  refine .inr ⟨answerFor r, answeredAlike_answerFor wt r, ?_⟩
  cases r with
  | ok a => exact (Coro.sim_congr_right rfl).mp (hok u u' hready hu hstill)
  | error exc =>
    rw [herror]
    exact ⟨.error (exc.toExc ""), _, .halt rfl, "", rfl⟩

/-- The wait for the stop event. -/
theorem sim_waitStop {g : Unit → SupervisorOp Unit} (hw : Mirrors q p w.state w'.state)
    (harmed : (Backend.view w.state q).armed = true)
    (hg : ∀ (u : World supervisionSignature) (u' : World hubSignature),
      Backend.stopped u.state q = true → InStep q p t t' (g ()) u (pure ()) u') :
    InStep q p t t' (waitStop q >>= g) w (Op.jump (.parked p)) w' := by
  obtain ⟨e, he, -⟩ := hw.backend.stopEvent
  obtain ⟨e', he', -⟩ := hw.hub
  show Coro.Sim _ _ _ ((whenSome (Backend.supervisors w.state q).stopEvent fun e =>
    wait (.event e)) >>= g : SupervisorOp Unit) w _ w'
  rw [he]
  refine ⟨.event e', _, _, .through rfl rfl (.halt (ConnectionSupervisor.turn_park he')),
    ⟨hw, harmed⟩, ⟨he, he'⟩, ?_⟩
  rintro r u u' hready - ⟨hu, -⟩ hkept
  refine .inr ⟨answerFor r, answeredAlike_answerFor _ r, ?_⟩
  cases r with
  | ok a =>
    have hset : Backend.stopped u.state q = true := by
      rw [Backend.stopped, hkept.trans he]
      exact (Bool.and_eq_true_iff.mp hready).2
    exact (Coro.sim_congr_right rfl).mp (hg (u.resumed t) (u'.resumed t') hset)
  | error exc => exact ⟨.error (exc.toExc ""), _, .halt rfl, "", rfl⟩

/-- The wait for the stop event, with nothing after it. -/
theorem sim_waitToEnd (hw : Mirrors q p w.state w'.state)
    (harmed : (Backend.view w.state q).armed = true) :
    InStep q p t t' (waitStop q) w (Op.jump (.parked p)) w' := by
  rw [← Op.bind_pure (waitStop q)]
  exact sim_waitStop hw harmed fun u u' _ => ⟨.ok (), u', .halt rfl, trivial⟩

/-! ### A round -/

/-- The next round. -/
theorem sim_nextRound (hw : Mirrors q p w.state w'.state)
    (harmed : (Backend.view w.state q).armed = true) :
    InStep q p t t' (nextRound q) w (Op.jump (.supervised p)) w' :=
  .inl ⟨.supervised p, w', .halt rfl, ⟨hw, harmed⟩, rfl, rfl⟩

/-- A round of a supervisor that has been stopped. -/
theorem sim_lastRound (hstopped : Backend.stopped w.state q = true) :
    InStep q p t t' (nextRound q) w (pure ()) w' := by
  refine .inr ⟨supervisedLoop q, .ok (), w.exec supervision t (.jump (.supervised q)), .ok (), w',
    rfl, ?_, .halt rfl, trivial⟩
  show Coro.turn _ _ (if Backend.stopped w.state q = true then _ else _ : SupervisorOp Unit) _ = _
  rw [if_pos hstopped]
  rfl

/-- What a round does about an exception with a class. -/
theorem sim_failed {exc : Raised} {e : Exc} (hw : Mirrors q p w.state w'.state)
    (harmed : (Backend.view w.state q).armed = true) (he : exc.Becomes e)
    (hexception : exc.isinstance [.exception] = true) :
    InStep q p t t' (do
      act (.handleConnectFailure q exc)
      awaitRetry q (classifyFailure exc)
      nextRound q) w (ConnectionSupervisor.handleConnectFailure p e) w' := by
  obtain ⟨message, rfl⟩ := he
  have hfine := Backend.turns_handleConnectFailure w.state q exc
  obtain ⟨v', hturn, hcoarse⟩ :=
    ConnectionSupervisor.turn_handleConnectFailure p w' (exc.toExc message) hw.hub
  rw [Raised.classify_toExc hexception] at hturn hcoarse
  set v := w.exec supervision t (.act (.handleConnectFailure q exc))
  have hv : Mirrors q p v.state v'.state := hw.turn hfine hcoarse
  have hfailed : (Backend.view v.state q).armed = true :=
    hfine.armed hw.backend (fun u => u.armed_afterFailure _) harmed
  refine (Coro.sim_congr_right hturn).mpr ?_
  show InStep q p t t' (awaitRetry q (classifyFailure exc) >>= fun _ => nextRound q) v _ v'
  cases hcls : classifyFailure exc with
  | auth => exact sim_waitStop hv hfailed fun u u' hstopped => sim_lastRound hstopped
  | terminal => exact sim_nextRound hv hfailed
  | transient =>
    exact sim_await hv hfailed trivial (fun _ => rfl) fun u u' _ hu harmed =>
      sim_nextRound hu harmed

theorem stopped_eq (hw : Mirrors q p w.state w'.state) :
    Backend.stopped w.state q = ConnectionSupervisor.stopped w'.state p :=
  congrArg View.stopped hw.view

theorem state_eq (hw : Mirrors q p w.state w'.state) :
    Backend.state w.state = (Hub.conn w'.state p.conn).state :=
  congrArg View.state hw.view

/-- The end of a round that has been connected. -/
theorem sim_afterDrop (hw : Mirrors q p w.state w'.state)
    (harmed : (Backend.view w.state q).armed = true) :
    InStep q p t t' (do
      let s ← get
      if s.stopped q then pure () else nextRound q) w (do
      let s ← HubOp.get
      if ConnectionSupervisor.stopped s p then pure () else Op.jump (.supervised p)) w' := by
  refine Op.sim_get_right.mpr ?_
  show Coro.Sim _ _ _ (if Backend.stopped w.state q = true then _ else _ : SupervisorOp Unit) w
    (if ConnectionSupervisor.stopped w'.state p = true then _ else _ : HubOp Unit) w'
  rw [← stopped_eq hw]
  split_ifs
  · exact ⟨.ok (), _, .halt rfl, trivial⟩
  · exact sim_nextRound hw harmed

/-- The wait for a drop, and what comes after it. -/
theorem sim_waitForDropOrStop {g : Unit → SupervisorOp Unit} {g' : Unit → HubOp Unit}
    (hw : Mirrors q p w.state w'.state) (harmed : (Backend.view w.state q).armed = true)
    (hconnected : Backend.state w.state = .connected)
    (hg : ∀ (u : World supervisionSignature) (u' : World hubSignature),
      Mirrors q p u.state u'.state → (Backend.view u.state q).armed = true →
        InStep q p t t' (g ()) u (g' ()) u') :
    InStep q p t t' (waitForDropOrStop q >>= g) w
      (ConnectionSupervisor.waitForDropOrStop p >>= g') w' := by
  obtain ⟨e, he, -⟩ := hw.backend.stopEvent
  obtain ⟨e', he', -⟩ := hw.hub
  obtain ⟨d, hd⟩ := Option.isSome_iff_exists.mp harmed
  obtain ⟨d', hd'⟩ := Option.isSome_iff_exists.mp
    (show (Hub.sup w'.state p).dropEvent.isSome = true from
      (congrArg View.armed hw.view).symm.trans harmed)
  have hhub : Hub.isConnected w'.state p.conn = true :=
    decide_eq_true ((state_eq hw).symm.trans hconnected)
  have hcoarse := ConnectionSupervisor.turn_waitForDropOrStop (t := t') g' hhub he' hd'
  refine (Coro.sim_congr_right hcoarse).mpr ?_
  show Coro.Sim _ _ _ ((if Backend.state w.state = .connected then
    whenSome (Backend.supervisors w.state q).dropEvent _ else pure ()) >>= g : SupervisorOp Unit) w
      _ w'
  rw [if_pos hconnected, hd]
  show Coro.Sim _ _ _ (whenSome (Backend.supervisors w.state q).stopEvent _ >>= g :
    SupervisorOp Unit) w _ w'
  rw [he]
  refine ⟨.either e' d', _, w', .halt rfl, ⟨hw, harmed⟩, ⟨he, he', hd, hd'⟩, ?_⟩
  rintro r u u' - - ⟨hu, hstill⟩ -
  refine .inl ⟨.either e' d', _, u', .halt rfl, ⟨hu, hstill⟩, trivial, ?_⟩
  rintro _ v v' - - ⟨hv, hagain⟩ -
  refine .inr ⟨answerFor r, trivial, ?_⟩
  cases r with
  | ok a => exact (Coro.sim_congr_right rfl).mp (hg _ (v'.resumed t') hv hagain)
  | error exc => exact ⟨.error (exc.toExc ""), _, .halt rfl, "", rfl⟩

/-- A round whose attempt has raised nothing. -/
theorem sim_afterAttempt_ok (hw : Mirrors q p w.state w'.state)
    (harmed : (Backend.view w.state q).armed = true) :
    InStep q p t t' (afterAttempt q (.ok ())) w (ConnectionSupervisor.afterAttempt p (.ok ()))
      w' := by
  refine Op.sim_get_right.mpr ?_
  show Coro.Sim _ _ _ (if Backend.state w.state = .authRequired then _ else
      if Backend.state w.state ≠ .connected then _ else _ : SupervisorOp Unit) w
    (if (Hub.conn w'.state p.conn).state = .authRequired then _ else
      if (Hub.conn w'.state p.conn).state ≠ .connected then _ else _ : HubOp Unit) w'
  rw [← state_eq hw]
  split_ifs with hauth hdown
  · exact sim_waitToEnd hw harmed
  · exact sim_await hw harmed trivial (fun _ => rfl) fun u u' _ hu harmed => sim_nextRound hu harmed
  · have hfine := Backend.turns_onConnectSuccess w.state q
    refine Op.sim_act_right.mpr ?_
    have hreset : Mirrors q p (w.exec supervision t (.act (.onConnectSuccess q))).state
        (w'.exec hub t' (.act (.resetFailures p))).state :=
      hw.turn hfine (Hub.turns_resetFailures w'.state p)
    exact sim_waitForDropOrStop hreset (hfine.armed hw.backend (fun _ => rfl) harmed)
      (not_not.mp hdown) fun u u' hu harmed => sim_afterDrop hu harmed

/-- A round whose attempt has raised an exception. -/
theorem sim_afterAttempt_error {exc : Raised} {e : Exc} (hw : Mirrors q p w.state w'.state)
    (harmed : (Backend.view w.state q).armed = true) (he : exc.Becomes e) (hexc : exc.Proper) :
    InStep q p t t' (afterAttempt q (.error exc)) w
      (ConnectionSupervisor.afterAttempt p (.error e)) w' := by
  rw [afterAttempt]
  by_cases hexception : exc.isinstance [.exception] = true
  · have hcancelled : ¬ exc.isinstance [.cancelledError] = true := by
      rw [hexc.cancelled, hexception]
      exact Bool.false_ne_true
    rw [if_neg hcancelled]
    by_cases hconnection : exc.isinstance [.connectionError] = true
    · have hauth : exc.isinstance [.oAuthAuthRequiredError] = false := by
        refine Bool.eq_false_iff.mpr fun hauth => ?_
        exact Bool.false_ne_true ((hexc.auth hauth).2.symm.trans hconnection)
      rw [if_pos hconnection]
      obtain ⟨message, rfl⟩ := he
      have hfailed : InStep q p t t' _ w (ConnectionSupervisor.handleConnectFailure p
          (exc.toExc message)) w' := sim_failed hw harmed ⟨message, rfl⟩ hexception
      rw [Raised.toExc_of_connection hauth hconnection] at hfailed ⊢
      exact hfailed
    · have hcoarse : ConnectionSupervisor.afterAttempt p (.error e) =
          if classifyFailure exc = .auth then Op.jump (S := hubSignature) (.parked p)
          else HubOp.act (.transition p.conn .failed) := by
        obtain ⟨message, rfl⟩ := he
        have hclass : (exc.toExc message).classify = classifyFailure exc :=
          Raised.classify_toExc hexception
        by_cases hauth : exc.isinstance [.oAuthAuthRequiredError] = true
        · rw [Raised.toExc_of_auth hauth] at hclass ⊢
          rw [← hclass]
          rfl
        · rw [Raised.toExc_of_exception (Bool.eq_false_iff.mpr hauth)
            (Bool.eq_false_iff.mpr hconnection) hexception]
          rfl
      rw [if_neg hconnection, if_pos hexception, hcoarse]
      split_ifs with hauth
      · exact sim_waitToEnd hw harmed
      · exact ⟨.ok (), _, .halt rfl, trivial⟩
  · obtain ⟨message, rfl⟩ := he
    have hcancelled : exc.isinstance [.cancelledError] = true := by
      rw [hexc.cancelled, Bool.eq_false_iff.mpr hexception]
      rfl
    have htold : exc.toExc message = .cancelled :=
      Raised.toExc_of_cancelled hexc (Bool.eq_false_iff.mpr hexception)
    rw [if_pos hcancelled, htold]
    exact ⟨.error .cancelled, w', .halt rfl, message, htold.symm⟩

/-- What a round makes of its attempt. -/
theorem sim_attempt (hw : Mirrors q p w.state w'.state)
    (harmed : (Backend.view w.state q).armed = true) :
    InStep q p t t' (caught connect >>= afterAttempt q) w
      (HubOp.caught (MCPConnection.connect p.conn false) >>= ConnectionSupervisor.afterAttempt p)
      w' := by
  rw [HubOp.caught_eq]
  refine Op.sim_caught_bind (sim_connect hw harmed) ?_
  rintro r v r' v' ⟨hend, hproper, hv, hstill⟩
  cases r with
  | ok a => cases r' with
    | ok a' => exact sim_afterAttempt_ok hv hstill
    | error e => cases hend
  | error exc => cases r' with
    | ok a' => cases hend
    | error e => exact sim_afterAttempt_error hv hstill hend (hproper exc rfl)

/-- **A round of the loop.** -/
theorem sim_supervisedLoop (hw : Mirrors q p w.state w'.state) :
    InStep q p t t' (supervisedLoop q) w (ConnectionSupervisor.supervisedLoop p) w' := by
  refine Op.sim_get_right.mpr ?_
  show Coro.Sim _ _ _ (if Backend.stopped w.state q = true then _ else _ : SupervisorOp Unit) w
    (if ConnectionSupervisor.stopped w'.state p = true then _ else _ : HubOp Unit) w'
  rw [← stopped_eq hw]
  split_ifs with hstopped
  · exact ⟨.ok (), _, .halt rfl, trivial⟩
  have harm := Backend.turns_armDrop w.state q
  have harmed : (Backend.view (Backend.armDrop w.state q) q).armed = true :=
    congrArg View.armed (harm hw.backend).2
  have hround := hw.turn harm (Hub.turns_armDrop w'.state p)
  have hprobe : ((Backend.supervisors w.state q).breakerOpen = true ∧
      Backend.state w.state = .circuitOpen) ↔ ((Hub.sup w'.state p).breakerOpen = true ∧
        (Hub.conn w'.state p.conn).state = .circuitOpen) := by
    have hbreaker : (Backend.supervisors w.state q).breakerOpen =
        (Hub.sup w'.state p).breakerOpen := congrArg (fun v => v.counters.breakerOpen) hw.view
    rw [state_eq hw, hbreaker]
  show Coro.Sim _ _ _ (when _ (act (.transition .reconnecting)) >>= fun _ =>
    caught connect >>= afterAttempt q : SupervisorOp Unit)
      (w.exec supervision t (.act (.armDrop q))) _ w'
  refine Op.sim_act_right.mpr ?_
  rw [when, HubOp.when]
  by_cases hopen : (Backend.supervisors w.state q).breakerOpen = true ∧
      Backend.state w.state = .circuitOpen
  · rw [if_pos hopen, if_pos (hprobe.mp hopen)]
    refine Op.sim_act_right.mpr ?_
    have hmoved := Backend.turns_transition (Backend.armDrop w.state q) q .reconnecting
    have hprobing : Mirrors q p ((w.exec supervision t (.act (.armDrop q))).exec supervision t
        (.act (.transition .reconnecting))).state _ :=
      hround.turn hmoved (Hub.turns_transition _ p .reconnecting (by decide))
    exact sim_attempt hprobing (hmoved.armed hround.backend (fun _ => rfl) harmed)
  · rw [if_neg hopen, if_neg (hprobe.not.mp hopen)]
    exact sim_attempt (w := w.exec supervision t (.act (.armDrop q))) hround harmed

/-- The rounds of the two loops. -/
def loops : Bodies supervisionSignature hubSignature (Except Raised Unit) (Except Exc Unit) where
  fine
    | .supervised q => some (supervisedLoop q)
    | _ => none
  coarse
    | .supervised p => some (ConnectionSupervisor.supervisedLoop p)
    | _ => none

/-- **The loop, round after round.** -/
theorem simFor_supervisedLoop (n : ℕ) (hw : Mirrors q p w.state w'.state) :
    Coro.SimFor (inHub q p t t') rounds loops (fun r _ r' _ => EndAlike r r') n (supervisedLoop q) w
      (ConnectionSupervisor.supervisedLoop p) w' := by
  refine Coro.Sim.rounds ?_ n (sim_supervisedLoop hw)
  rintro b h _ _ ⟨hmirrors, -⟩ ⟨rfl, rfl⟩
  refine ⟨_, _, rfl, rfl, fun v v' hv hv' => ?_⟩
  subst hv hv'
  exact sim_supervisedLoop hmirrors

end

end Resilience

end SlmMcpHub
