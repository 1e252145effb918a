import SlmMcpHub.Federation.ConnectionTasks

/-!
# The lifecycle of a connection

The transition table of `resilience/lifecycle.py` is declared apart from the code that changes the
state. This module compares the two over all runs of `connect`, `disconnect`,
`drain_and_disconnect` and the supervisor, with requests in between.

The recorded changes are edges of the table exactly in the runs whose steps are all foreseen by it.
The hooks of the supervisor never are: they follow a failed attempt, so they leave ERROR, and the
table has no such edge.

## Main definitions

* `lifecycleTransitions`, `isValidTransition` — the table
* `Foreseen` — the steps the table has been made for

## Main results

* `transitions_valid_iff` — the changes a run has recorded are edges if and only if its steps were
  foreseen
-/

namespace SlmMcpHub

namespace ConnectionTasks

/-! ### The table -/

/-- `LIFECYCLE_TRANSITIONS` -/
def lifecycleTransitions : List (ConnectionState × ConnectionState) :=
  [ -- legacy edges
    (.disconnected, .connecting), (.connecting, .connected), (.connecting, .error),
    (.connecting, .authRequired), (.connected, .draining), (.connected, .disconnected),
    (.draining, .disconnected), (.error, .disconnected), (.error, .connecting),
    (.authRequired, .disconnected), (.authRequired, .connecting),
    -- start-up
    (.disconnected, .starting), (.starting, .initializing), (.initializing, .ready),
    -- degraded
    (.ready, .degraded), (.degraded, .ready),
    -- reconnect
    (.ready, .reconnecting), (.degraded, .reconnecting), (.connected, .reconnecting),
    (.reconnecting, .initializing), (.reconnecting, .circuitOpen),
    (.circuitOpen, .reconnecting),
    -- graceful shutdown
    (.ready, .draining), (.draining, .stopped),
    -- terminal failure
    (.connecting, .failed), (.connected, .failed), (.starting, .failed), (.initializing, .failed),
    (.ready, .failed), (.degraded, .failed), (.reconnecting, .failed), (.circuitOpen, .failed),
    (.draining, .failed),
    -- authorization
    (.starting, .authRequired), (.initializing, .authRequired), (.ready, .authRequired)]

/-- `is_valid_transition` -/
def isValidTransition (source target : ConnectionState) : Bool :=
  lifecycleTransitions.contains (source, target)

/-! ### Changes -/

/-- The state an act changes to. -/
def Act.target? : Act → Option ConnectionState
  | .transition target => some target
  | .beginConnect => some .connecting
  | .establish _ => some .connected
  | _ => none

/-- The act of a statement. -/
def act? : Stmt connectionSignature → Option Act
  | .act a | .push a _ | .pop a => some a
  | _ => none

/-- The changes an act records. -/
theorem changed_mem_eval_iff {s : Connection} {a : Act} {source target : ConnectionState} :
    .changed source target ∈ (a.eval s).history ↔
      (a.target? = some target ∧ source = s.state) ∨ .changed source target ∈ s.history := by
  cases a <;> simp [Act.eval, Act.target?, Connection.transition, and_comm, eq_comm]

/-- An act that changes the state leaves it as it says, and no other touches it. -/
theorem state_eval (s : Connection) (a : Act) : (a.eval s).state = a.target?.getD s.state := by
  cases a <;> rfl

/-- Every recorded change to a different state is an edge of the table. -/
def ChangesValid (s : Connection) : Prop :=
  ∀ source target, .changed source target ∈ s.history → source ≠ target →
    isValidTransition source target = true

/-- The steps of a run the table has been made for: no hook of the supervisor; no attempt begins
while a drain is under way, and an attempt that ends finds itself still connecting, or what it is
about to set; nothing disconnects while an attempt is under way. -/
def Act.Foreseen (s : Connection) : Act → Prop
  | .beginConnect => s.state ≠ .draining
  | .establish _ => s.state = .connecting ∨ s.state = .connected
  | .transition .error => s.state = .connecting ∨ s.state = .error
  | .transition .authRequired => s.state = .connecting ∨ s.state = .authRequired
  | .transition .disconnected => s.state ≠ .connecting
  | .transition .draining => True
  | .transition _ => False
  | _ => True

/-- Every statement is one the table has been made for. -/
def Foreseen (w : World connectionSignature) (_t : TaskId) (st : Stmt connectionSignature) : Prop :=
  ∀ a, act? st = some a → Act.Foreseen w.state a

/-! ### What the programs make sure of -/

/-- What an act can count on: `connect` and `drain_and_disconnect` have looked at the state, and the
hooks of the supervisor come right after a failed attempt or before a probe. -/
def Act.Checked (s : Connection) : Act → Prop
  | .beginConnect => s.state ≠ .connected
  | .transition .draining => s.state = .connected ∨ s.state = .draining
  | .transition .disconnected | .transition .error | .transition .authRequired => True
  | .transition .reconnecting => s.state = .error ∨ s.state = .circuitOpen
  | .transition .circuitOpen | .transition .failed => s.state = .error
  | .transition _ => False
  | _ => True

/-- What a statement can count on. -/
def checked (w : World connectionSignature) (_t : TaskId) (st : Stmt connectionSignature) : Prop :=
  ∀ a, act? st = some a → Act.Checked w.state a

section Contracts

variable {operations : Call → Bool}

/-- The contract of an operation run with the stack `st`. -/
def Checks (operations : Call → Bool) {α : Type} (st : List Call) (p : ConnOp α) : Prop :=
  Op.Keeps (connection operations) checked (fun _ => True) st p

variable {α : Type} {st : List Call}

theorem checks_wait (wt : Wait) : Checks operations st (wait wt) :=
  fun _ _ h => ⟨trivial, fun _ _ _ ht hstack _ =>
    ⟨trivial, ht, (World.stack_resumed _ _ _).trans (hstack.trans h.stack)⟩⟩

theorem checks_act {a : Act} (h : ∀ s, a.Checked s) : Checks operations st (act a) :=
  Op.Keeps.act (fun _ w _ b hb => by cases hb; exact h w.state) fun _ _ _ => trivial

theorem checks_inside {enter leave : Act} {c : Call} {p : ConnOp α} (henter : ∀ s, enter.Checked s)
    (hleave : ∀ s, leave.Checked s) (hp : Checks operations (c :: st) p) :
    Checks operations st (inside enter c leave p) :=
  Op.Keeps.within (fun _ w _ b hb => by cases hb; exact henter w.state)
    (fun _ w _ b hb => by cases hb; exact hleave w.state) (fun _ _ _ => trivial)
    (fun _ _ _ => trivial) hp

theorem checks_ite {c : Prop} [Decidable c] {p q : ConnOp α} (hp : Checks operations st p)
    (hq : Checks operations st q) : Checks operations st (if c then p else q) := by
  split
  · exact hp
  · exact hq

theorem checks_swallow {p : ConnOp Unit} (hp : Checks operations st p) :
    Checks operations st (swallow p) :=
  Op.Keeps.tryCatch hp fun e => checks_ite (Op.Keeps.pure ()) (Op.Keeps.throw e)

theorem checks_caught {p : ConnOp Unit} (hp : Checks operations st p) :
    Checks operations st (caught p) :=
  fun t w hw => Coro.wp_bind.mpr (hp t w hw)

theorem checks_connectOr {c : ℕ} {failed : Exc → ConnOp Unit}
    (hfailed : ∀ e, Checks operations st (failed e)) :
    Checks operations st (OutboundClient.connectOr c failed) := by
  refine Op.Keeps.bind (checks_caught (checks_wait .enter)) fun opening => ?_
  have hother : ∀ e : Exc, Checks operations st (if e.isException then failed e else throw e) :=
    fun e => checks_ite (hfailed e) (Op.Keeps.throw e)
  cases opening with
  | ok u =>
    refine checks_inside (fun _ => trivial) (fun _ => trivial) (Op.Keeps.tryCatch
      (checks_wait .discover) fun exc => checks_ite (Op.Keeps.pure ()) ?_)
    exact Op.Keeps.bind (checks_act fun _ => trivial) fun _ => Op.Keeps.throw exc
  | error e =>
    cases e with
    | authRequired => exact Op.Keeps.throw _
    | _ => exact hother _

theorem checks_outboundConnect (name : String) (c : ℕ) :
    Checks operations st (OutboundClient.connect name c) :=
  checks_connectOr fun _ => checks_ite (checks_connectOr fun _ => Op.Keeps.throw _)
    (Op.Keeps.throw _)

theorem checks_outboundDisconnect (c : ℕ) :
    Checks operations st (OutboundClient.disconnect c) := by
  refine Op.Keeps.bind Op.Keeps.get fun s => ?_
  cases s.exitStacks c with
  | unset => exact Op.Keeps.pure ()
  | emptied => exact checks_act fun _ => trivial
  | holding =>
    refine Op.Keeps.bind (checks_swallow ?_) fun _ => checks_act fun _ => trivial
    exact checks_inside (fun _ => trivial) (fun _ => trivial) (checks_wait .close)

theorem checks_disconnect : Checks operations st disconnect := by
  refine Op.Keeps.bind Op.Keeps.get fun s => Op.Keeps.bind ?_ fun _ => checks_act fun _ => trivial
  cases s.outbound with
  | none => exact Op.Keeps.pure ()
  | some c =>
    exact Op.Keeps.bind (checks_swallow (checks_outboundDisconnect c)) fun _ =>
      checks_act fun _ => trivial

theorem checks_awaitDrain (e : ℕ) : Checks operations st (awaitDrain e) := by
  refine Op.Keeps.bind (Op.Keeps.tryCatch (Op.Keeps.bind (checks_wait _) fun _ => Op.Keeps.pure _)
    fun exc => checks_ite (Op.Keeps.pure _) (Op.Keeps.throw exc)) fun expired => ?_
  exact checks_ite (checks_inside (fun _ => trivial) (fun _ => trivial) checks_disconnect)
    checks_disconnect

theorem checks_drain : Checks operations st drain := by
  refine Op.Keeps.get_bind fun t w hw => ?_
  split
  · exact checks_disconnect t w hw
  · next hstate =>
    rw [Op.wp_bind]
    have hserving :
        Connection.state w.state = .connected ∨ Connection.state w.state = .draining := by
      by_contra hneither
      exact hstate ⟨fun h => hneither (Or.inl h), fun h => hneither (Or.inr h)⟩
    refine ⟨fun a ha => ?_, ?_⟩
    · cases ha
      exact hserving
    · have hdraining : Op.AtRest (fun _ => True) st t
          (w.exec (connection operations) t (.act (.transition .draining))) :=
        hw.exec trivial rfl
      have hrest : Checks operations st (if Connection.inFlight w.state = 0 then
          disconnect else inside .armDrain (.waiting (Connection.nextEvent w.state)) .nop
            (awaitDrain (Connection.nextEvent w.state))) :=
        checks_ite checks_disconnect
          (checks_inside (fun _ => trivial) (fun _ => trivial) (checks_awaitDrain _))
      exact hrest t _ hdraining

theorem checks_drainAndDisconnect : Checks operations st drainAndDisconnect := by
  refine Op.Keeps.bind Op.Keeps.get fun s => Op.Keeps.bind (checks_ite (checks_act fun _ => trivial)
    (Op.Keeps.pure ())) fun _ => Op.Keeps.bind (checks_ite (checks_wait .lock) (Op.Keeps.pure ()))
    fun _ => ?_
  exact checks_inside (fun _ => trivial) (fun _ => trivial) checks_drain

theorem checks_request : Checks operations st request := by
  refine Op.Keeps.bind Op.Keeps.get fun s => checks_ite (Op.Keeps.throw _)
    (checks_ite (Op.Keeps.throw _) ?_)
  exact checks_inside (fun _ => trivial) (fun _ => trivial) (checks_wait .answer)

/-! ### Attempts and the supervisor -/

/-- An attempt that has failed with an exception has failed with a `ConnectionError`, and the
connection is in ERROR. -/
def FailedInError (ended : Except Exc Unit) (s : Connection) : Prop :=
  ∀ e, ended = .error e → e.isException = true →
    (∃ message cls, e = .connection message cls) ∧ s.state = .error

/-- The end of an attempt, as `connect` leaves it. -/
theorem wp_finishConnect {t : TaskId} {w : World connectionSignature} (name : String) (c : ℕ)
    (ended : Except Exc Unit) (hw : Op.AtRest (fun _ => True) st t w) :
    (finishConnect name c ended).wp (connection operations) checked (fun _ => True) t
      (fun r w' => Op.AtRest (fun _ => True) st t w' ∧ FailedInError r w'.state) w := by
  have hact : ∀ {a : Act} {r : Except Exc Unit}, (∀ s, a.Checked s) →
      FailedInError r (a.eval w.state) → checked w t (.act a) ∧
        (Op.AtRest (fun _ => True) st t (w.exec (connection operations) t (.act a)) ∧
          FailedInError r (w.exec (connection operations) t (.act a)).state) :=
    fun hchecked hfailed =>
      ⟨fun b hb => by cases hb; exact hchecked _, hw.exec trivial rfl, hfailed⟩
  have hok : ∀ s : Connection, FailedInError (.ok ()) s := fun s e h => nomatch h
  have hraise : ∀ message cls, (act (.transition .error) >>= fun _ =>
      (throw (.connection message cls) : ConnOp Unit)).wp (connection operations) checked
        (fun _ => True) t
        (fun r w' => Op.AtRest (fun _ => True) st t w' ∧ FailedInError r w'.state) w := by
    intro message cls
    rw [Op.wp_bind]
    refine hact (fun _ => trivial) fun e he _ => ?_
    cases he
    exact ⟨⟨message, cls, rfl⟩, rfl⟩
  have hother : ∀ e : Exc, (if e.isException then
      (act (.transition .error) >>= fun _ => (throw (initializationFailed name e) : ConnOp Unit))
      else throw e).wp (connection operations) checked (fun _ => True) t
        (fun r w' => Op.AtRest (fun _ => True) st t w' ∧ FailedInError r w'.state) w := by
    intro e
    split
    · exact hraise _ _
    · next hexc =>
      refine ⟨hw, fun e' he' hexc' => ?_⟩
      cases he'
      exact absurd hexc' hexc
  cases ended with
  | ok u => exact hact (fun _ => trivial) (hok _)
  | error e =>
    cases e with
    | authRequired => exact hact (fun _ => trivial) (hok _)
    | connection message cls => exact hraise message cls
    | cancelled => exact hother .cancelled
    | deadline => exact hother .deadline
    | timeout => exact hother .timeout
    | streamDropped message resumable => exact hother (.streamDropped message resumable)
    | other type message cls => exact hother (.other type message cls)

/-- An attempt is begun in another state than CONNECTED, and fails in ERROR. -/
theorem wp_connect {t : TaskId} {w : World connectionSignature}
    (hw : Op.AtRest (fun _ => True) st t w) :
    connect.wp (connection operations) checked (fun _ => True) t
      (fun r w' => Op.AtRest (fun _ => True) st t w' ∧ FailedInError r w'.state) w := by
  refine (Op.wp_bind _ _ _).mpr ?_
  show Op.wp _ _ _ t (if Connection.state w.state = .connected then pure () else _) _ w
  split
  · exact ⟨hw, fun e h => nomatch h⟩
  · next hstate =>
    refine Op.wp_within.mpr ⟨fun a ha => by cases ha; exact hstate, ?_⟩
    have hentered : Op.AtRest (fun _ => True)
        (Call.connecting (Connection.nextClient w.state) :: st) t
        (w.exec (connection operations) t
          (.push .beginConnect (.connecting (Connection.nextClient w.state)))) :=
      ⟨trivial, hw.born, (Op.stack_push _ _ _ _).trans (congrArg _ hw.stack)⟩
    rw [Op.wp_bind]
    refine Coro.wp_bind.mpr (Op.wp_mono (checks_outboundConnect _ _ t _ hentered)
      fun ended w' hw' => ?_)
    change (finishConnect _ _ ended).wp _ _ _ t _ w'
    refine Op.wp_mono (wp_finishConnect _ _ ended hw') fun r w'' h => ?_
    refine ⟨fun a ha => by cases ha; trivial, ⟨trivial, h.1.born, ?_⟩, h.2⟩
    exact (Op.stack_pop _ _ _).trans (by rw [h.1.stack, List.tail_cons])

theorem checks_connect : Checks operations st connect :=
  fun _ _ hw => Op.wp_mono (wp_connect hw) fun _ _ h => h.1

theorem checks_nextRound (p : Supervisor) : Checks operations st (nextRound p) :=
  Op.Keeps.jump fun _ _ _ _ ha => nomatch ha

/-- The hooks find the connection in ERROR. -/
theorem wp_handleConnectFailure {t : TaskId} {w : World connectionSignature} (p : Supervisor)
    (e : Exc) (hw : Op.AtRest (fun _ => True) st t w) (herror : Connection.state w.state = .error) :
    (handleConnectFailure p e).wp (connection operations) checked (fun _ => True) t
      (fun _ => Op.AtRest (fun _ => True) st t) w := by
  have hexec : ∀ a, Op.AtRest (fun _ => True) st t (w.exec (connection operations) t (.act a)) :=
    fun _ => hw.exec trivial rfl
  have hretry : ∀ p, Checks operations st (wait .sleep >>= fun _ => nextRound p) := fun p =>
    Op.Keeps.bind (checks_wait .sleep) fun _ => checks_nextRound p
  rw [handleConnectFailure]
  split
  · exact checks_wait .stop t w hw
  · exact ⟨fun a ha => by cases ha; exact herror, hexec _⟩
  · dsimp only
    split
    · rw [Op.wp_bind]
      exact ⟨fun a ha => by cases ha; exact herror, hretry _ t _ (hexec _)⟩
    · rw [Op.wp_bind]
      exact ⟨fun a ha => by cases ha; exact Or.inl herror, hretry _ t _ (hexec _)⟩

theorem wp_afterAttempt {t : TaskId} {w : World connectionSignature} (p : Supervisor)
    (ended : Except Exc Unit) (hw : Op.AtRest (fun _ => True) st t w)
    (hended : FailedInError ended w.state) :
    (afterAttempt p ended).wp (connection operations) checked (fun _ => True) t
      (fun _ => Op.AtRest (fun _ => True) st t) w := by
  cases ended with
  | ok u =>
    have hstop : Checks operations st (wait .stop) := checks_wait .stop
    exact Op.Keeps.bind Op.Keeps.get (fun s => checks_ite hstop (checks_ite
      (Op.Keeps.bind (checks_wait .sleep) fun _ => checks_nextRound p)
      (Op.Keeps.bind (checks_wait .drop) fun _ => checks_nextRound p.reset))) t w hw
  | error e =>
    by_cases hexc : e.isException = true
    · obtain ⟨⟨message, cls, rfl⟩, herror⟩ := hended e rfl hexc
      exact wp_handleConnectFailure p _ hw herror
    · cases e with
      | cancelled => exact hw
      | deadline => exact hw
      | _ => exact absurd rfl hexc

theorem checks_supervisedLoop (p : Supervisor) : Checks operations st (supervisedLoop p) := by
  refine Op.Keeps.get_bind fun t w hw => ?_
  have hrest : ∀ {w}, Op.AtRest (fun _ => True) st t w →
      (caught connect >>= fun ended => afterAttempt p ended).wp (connection operations) checked
        (fun _ => True) t (fun _ => Op.AtRest (fun _ => True) st t) w := by
    intro w hw
    rw [Op.wp_bind]
    refine Coro.wp_bind.mpr (Op.wp_mono (wp_connect hw) fun ended w' h => ?_)
    exact wp_afterAttempt p ended h.1 h.2
  rw [Op.wp_bind, when]
  split
  · next hprobe =>
    exact ⟨fun a ha => by cases ha; exact Or.inr hprobe.2, hrest (hw.exec trivial rfl)⟩
  · exact hrest hw

theorem verified_connection : Verified (connection operations) checked fun _ => True := by
  intro c r t w _ ht hstack
  have hkeeps : ∀ {p : ConnOp Unit}, Checks operations [c] p →
      Coro.wp (connection operations) checked (fun _ => True) t p (fun _ _ => True) w :=
    fun hp => Coro.wp_mono (fun _ _ _ => trivial) (hp t w ⟨trivial, ht, hstack⟩)
  show Coro.wp _ _ _ _ (if operations c then c.body r else .ret r) _ _
  split
  · cases r with
    | error e => trivial
    | ok u =>
      cases c with
      | connect => exact hkeeps checks_connect
      | disconnect => exact hkeeps checks_disconnect
      | drainAndDisconnect => exact hkeeps checks_drainAndDisconnect
      | request => exact hkeeps checks_request
      | supervised p => exact hkeeps (checks_supervisedLoop p)
      | _ => trivial
  · trivial

end Contracts

/-! ### The table and the code -/

/-- The states the operations pass through when no hook is called. -/
def Legacy (state : ConnectionState) : Prop :=
  state ∈ [.disconnected, .connecting, .connected, .draining, .error, .authRequired]

instance (state : ConnectionState) : Decidable (Legacy state) :=
  inferInstanceAs (Decidable (_ ∈ _))

/-- A foreseen step leads from one of these states to another. -/
theorem legacy_target {s : Connection} {a : Act} (h : a.Foreseen s) {target : ConnectionState}
    (ha : a.target? = some target) : Legacy target := by
  cases a with
  | transition target' =>
    cases ha
    cases target <;> first | exact h.elim | decide
  | beginConnect =>
    cases ha
    decide
  | establish c =>
    cases ha
    decide
  | _ => cases ha

/-- **What the table allows is what has been foreseen**, of the steps the programs make. -/
theorem valid_iff_foreseen {s : Connection} {a : Act} (hs : Legacy s.state)
    (hchecked : a.Checked s) :
    (∀ target, a.target? = some target → s.state ≠ target →
      isValidTransition s.state target = true) ↔ a.Foreseen s := by
  have hstate : s.state = .disconnected ∨ s.state = .connecting ∨ s.state = .connected ∨
      s.state = .draining ∨ s.state = .error ∨ s.state = .authRequired := by
    simpa [Legacy] using hs
  have hone : ∀ {target}, a.target? = some target → ((∀ target', a.target? = some target' →
      s.state ≠ target' → isValidTransition s.state target' = true) ↔
        (s.state ≠ target → isValidTransition s.state target = true)) := by
    intro target ha
    refine ⟨fun h => h target ha, fun h target' ha' => ?_⟩
    rw [ha] at ha'
    cases ha'
    exact h
  cases a with
  | transition target =>
    refine (hone rfl).trans ?_
    cases target <;> rcases hstate with h | h | h | h | h | h <;>
      simp only [Act.Checked, h] at hchecked <;> simp [Act.Foreseen, h, isValidTransition] <;>
      first | decide | simp at hchecked
  | beginConnect =>
    refine (hone rfl).trans ?_
    rcases hstate with h | h | h | h | h | h <;> simp [Act.Foreseen, h] <;> first | decide | skip
    exact absurd h hchecked
  | establish c =>
    refine (hone rfl).trans ?_
    rcases hstate with h | h | h | h | h | h <;> simp [Act.Foreseen, h] <;> decide
  | _ => simp [Act.target?, Act.Foreseen]

/-! ### Runs -/

section Runs

variable {operations : Call → Bool}

/-- What a statement does to the state is what its act does, if it has one. -/
theorem effect_eq (w : World connectionSignature) (t : TaskId) (st : Stmt connectionSignature) :
    w.effect (connection operations) t st = ((act? st).map (Act.eval w.state)).getD w.state := by
  cases st <;> rfl

/-- Nothing that has been recorded is lost. -/
theorem history_effect (w : World connectionSignature) (t : TaskId)
    (st : Stmt connectionSignature) {source target : ConnectionState}
    (h : .changed source target ∈ Connection.history w.state) :
    .changed source target ∈
      Connection.history (w.effect (connection operations) t st : Connection) := by
  rw [effect_eq]
  cases act? st with
  | none => exact h
  | some a => exact changed_mem_eval_iff.mpr (Or.inr h)

theorem history_step {C : World connectionSignature → TaskId → Stmt connectionSignature → Prop}
    {cf cf' : Config connectionSignature} (hstep : Step (connection operations) C cf cf')
    {source target : ConnectionState}
    (h : .changed source target ∈ Connection.history cf.world.state) :
    .changed source target ∈ Connection.history cf'.world.state := by
  cases hstep with
  | @giveUp w conts t =>
    have hsame := World.sameButRequests_request (connection operations) w.next t w
    exact hsame.state.symm ▸ h
  | @stmt w conts t st p hs =>
    show _ ∈ Connection.history (w.exec (connection operations) t st).state
    rw [World.state_exec]
    exact history_effect w t st h
  | @jump w conts t c hc =>
    show _ ∈ Connection.history (w.exec (connection operations) t (.jump c)).state
    rw [World.state_exec]
    exact history_effect w t (.jump c) h
  | @tick w conts e => exact nomatch (show Empty from e)
  | _ => exact h

/-- In a run whose steps are foreseen, the changes are edges, between states without a hook. -/
theorem foreseen_invariant : FrameInvariant (connection operations)
    (fun w t st => Foreseen w t st ∧ checked w t st)
    fun s _ => Legacy (Connection.state s) ∧ ChangesValid s where
  mono h _ := h
  stmt {w t st} h hC := by
    rw [effect_eq]
    cases hact : act? st with
    | none => exact h
    | some a =>
      have hforeseen := hC.1 a hact
      refine ⟨?_, fun source target hmem hne => ?_⟩
      · show Legacy (Act.eval w.state a).state
        rw [state_eval]
        cases htarget : a.target? with
        | none => exact h.1
        | some target => exact legacy_target hforeseen htarget
      · rcases changed_mem_eval_iff.mp hmem with ⟨htarget, rfl⟩ | hmem
        · exact (valid_iff_foreseen h.1 (hC.2 a hact)).mpr hforeseen target htarget hne
        · exact h.2 source target hmem hne
  call _ h := h
  tick hs := nomatch hs

theorem reach_checked {C : World connectionSignature → TaskId → Stmt connectionSignature → Prop}
    {s : Connection} {cf : Config connectionSignature} (h : Reach (connection operations) C s cf) :
    Reach (connection operations) (fun w t st => C w t st ∧ checked w t st) s cf :=
  (verified_connection.reach (fun _ _ => trivial) trivial h).1

end Runs

/-- **The changes a run has recorded are edges of the table if and only if its steps were the ones
the table has been made for.** -/
theorem transitions_valid_iff {name : String} {cf : Config connectionSignature}
    (h : Reach (connection isOperation) anyStep { name } cf) :
    ChangesValid cf.world.state ↔ Reach (connection isOperation) Foreseen { name } cf := by
  have hlegacy : ∀ {cf}, Reach (connection isOperation) Foreseen { name } cf →
      Legacy (Connection.state cf.world.state) ∧ ChangesValid cf.world.state := fun h =>
    foreseen_invariant.reach ⟨show Legacy .disconnected by decide, fun _ _ hmem =>
      absurd hmem List.not_mem_nil⟩ (reach_checked h)
  refine ⟨fun hvalid => ?_, fun h => (hlegacy h).2⟩
  have hchecked := reach_checked h
  clear h
  induction hchecked with
  | refl => exact .refl
  | @tail cf cf' _ hstep ih =>
    have hprev := ih fun source target hmem => hvalid source target (history_step hstep hmem)
    refine hprev.tail (hstep.imp_effect fun t st hC heffect a ha => ?_)
    refine (valid_iff_foreseen (hlegacy hprev).1 (hC.2 a ha)).mp fun target htarget hne => ?_
    refine hvalid _ target ?_ hne
    rw [heffect, effect_eq, ha]
    exact changed_mem_eval_iff.mpr (Or.inl ⟨htarget, rfl⟩)

/-- A supervised attempt fails. -/
def failedAttempt : List (Move connectionSignature) :=
  [.call (.supervised {}), .resume 0 (.ok ()),
    .resume 0 (.error (.other "OSError" "refused" .transient))]

/-- The supervisor goes from ERROR to RECONNECTING, which is no edge. -/
theorem not_valid_failedAttempt : ¬ ∀ cf,
    Reach (connection isOperation) anyStep { name := "a" } cf → ChangesValid cf.world.state := by
  intro hvalid
  have hplay : (Config.play (connection isOperation) (fun _ _ _ => true) 40 failedAttempt
      (Config.start { name := "a" })).any (fun cf =>
        Event.changed .error .reconnecting ∈ Connection.history cf.world.state) = true := by
    decide
  obtain ⟨cf, hrun, hcf⟩ := (Option.any_eq_true _ _).mp hplay
  have hedge := hvalid cf (reach_play (fun _ => trivial) .refl hrun) .error .reconnecting
    (decide_eq_true_eq.mp hcf) (by decide)
  revert hedge
  decide

/-- A connection is made and given up. -/
def plainRun : List (Move connectionSignature) :=
  [.call .connect, .resume 0 (.ok ()), .resume 0 (.ok ()), .resume 0 (.ok ()), .call .disconnect,
    .resume 1 (.ok ()), .resume 1 (.ok ())]

theorem transitions_valid_plainRun : ∃ cf,
    Reach (connection isOperation) Foreseen { name := "a" } cf ∧
      Connection.history cf.world.state = [.changed .connected .disconnected,
        .changed .connecting .connected, .changed .disconnected .connecting] := by
  have hplay : (Config.play (connection isOperation) (fun _ _ _ => true) 40 plainRun
      (Config.start { name := "a" })).any (fun cf => Connection.history cf.world.state =
        [.changed .connected .disconnected, .changed .connecting .connected,
          .changed .disconnected .connecting]) = true := by
    decide
  obtain ⟨cf, hrun, hcf⟩ := (Option.any_eq_true _ _).mp hplay
  rw [decide_eq_true_eq] at hcf
  refine ⟨cf, (transitions_valid_iff (reach_play (fun _ => trivial) .refl hrun)).mp ?_, hcf⟩
  intro source target hmem _
  rw [hcf] at hmem
  simp only [List.mem_cons, Event.changed.injEq, List.not_mem_nil, or_false] at hmem
  rcases hmem with ⟨rfl, rfl⟩ | ⟨rfl, rfl⟩ | ⟨rfl, rfl⟩ <;> decide

end ConnectionTasks

end SlmMcpHub
