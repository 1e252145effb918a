import SlmMcpHub.Federation.ConnectionTasks

/-!
# Draining a connection

Requests and drains of one connected connection, in any order and with any outcome. A drain that
finds calls in flight arms an event and waits for it; the call that ends last sets it. What makes
this work is that nothing is dispatched any more once the state is DRAINING, so the event stays
true to the counter.

## Main definitions

* `Consistent` — the invariant of the counter, the lock, the event and the state
* `Idle` — a connected connection nobody uses yet

## Main results

* `drain_waits` — the counter counts the dispatched calls, none is dispatched after DRAINING, the
  transport is closed only when the counter is zero or the timeout of the drain has elapsed, and a
  drain can go on as soon as the last call has ended
-/

namespace SlmMcpHub

namespace ConnectionTasks

/-- Requests and drains. -/
def isServing : Call → Bool
  | .request | .drainAndDisconnect => true
  | _ => false

/-! ### What the statements can count on -/

/-- A close can begin: no call is in flight, or the drain has waited for its event, or it has waited
long enough. -/
def Releasable (s : Connection) (st : List Call) : Prop :=
  (s.inFlight = 0 ∧ s.state ≠ .connected) ∨ (∃ e, .waiting e ∈ st ∧ s.events e = true) ∨
    (.expired ∈ st ∧ ∃ e, .waiting e ∈ st)

/-- The stacks of a drain: in the lock, with its event armed, and after its timeout. -/
abbrev locked : List Call := [.draining, .drainAndDisconnect]

abbrev armed (e : ℕ) : List Call := .waiting e :: locked

abbrev overdue (e : ℕ) : List Call := .expired :: armed e

/-- How a section is entered. -/
inductive Entry (s : Connection) : List Call → Act → Call → Prop where
  | lock (h : s.drainLock = some false) : Entry s [.drainAndDisconnect] .take .draining
  | arm (hstate : s.state = .draining) (hflight : s.inFlight ≠ 0) :
      Entry s locked .armDrain (.waiting s.nextEvent)
  | expire (e : ℕ) : Entry s (armed e) .nop .expired
  | close {st : List Call} {c : ℕ} (hst : .drainAndDisconnect ∈ st) (h : Releasable s st) :
      Entry s st (.popExit c) (.closing c)
  | dispatch (hstate : s.state ≠ .draining) (houtbound : s.outbound ≠ none) :
      Entry s [.request] .beginRequest .dispatch

/-- How a section is left. -/
inductive Exit : List Call → Act → Prop where
  | lock : Exit locked .release
  | arm (e : ℕ) : Exit (armed e) .nop
  | expire (e : ℕ) : Exit (overdue e) .nop
  | close {st : List Call} (hst : .drainAndDisconnect ∈ st) (c : ℕ) :
      Exit (.closing c :: st) (.closed c)
  | dispatch : Exit [.dispatch, .request] .endRequest

/-- What an act can count on. -/
def Act.Served (s : Connection) : Act → Prop
  | .transition .draining => s.state = .connected ∨ s.state = .draining
  | .transition .disconnected => s.outbound = none
  | .makeDrainLock => s.drainLock = none
  | .dropStack _ | .dropOutbound => True
  | _ => False

/-- What a statement can count on. -/
def served (w : World connectionSignature) (t : TaskId) : Stmt connectionSignature → Prop
  | .act a => Act.Served w.state a
  | .push a c => Entry w.state (w.tasks t).stack a c
  | .pop a => Exit (w.tasks t).stack a
  | _ => False

/-- A client is there only while the connection is CONNECTED or DRAINING. -/
def Settled (s : Connection) : Prop :=
  s.outbound ≠ none → s.state = .connected ∨ s.state = .draining

section Contracts

/-- The contract of an operation run with the stack `st`. -/
def Serves {α : Type} (st : List Call) (p : ConnOp α) : Prop :=
  Op.Keeps (connection isServing) served Settled st p

variable {α : Type} {st : List Call} {t : TaskId} {w : World connectionSignature}

theorem served_push {a : Act} {c : Call} (hw : Op.AtRest Settled st t w)
    (h : Entry w.state st a c) : served w t (.push a c) := by
  show Entry _ _ _ _
  rwa [hw.stack]

theorem served_pop {a : Act} (hw : Op.AtRest Settled st t w) (h : Exit st a) :
    served w t (.pop a) := by
  show Exit _ _
  rwa [hw.stack]

theorem serves_wait (wt : Wait) : Serves st (wait wt) :=
  fun _ _ h => ⟨h.state, fun _ _ hrest ht hstack _ =>
    ⟨hrest, ht, (World.stack_resumed _ _ _).trans (hstack.trans h.stack)⟩⟩

theorem serves_ite {c : Prop} [Decidable c] {p q : ConnOp α} (hp : Serves st p)
    (hq : Serves st q) : Serves st (if c then p else q) := by
  split
  · exact hp
  · exact hq

theorem wp_outboundDisconnect (c : ℕ) (hw : Op.AtRest Settled st t w)
    (hst : .drainAndDisconnect ∈ st) (h : Releasable w.state st) :
    (OutboundClient.disconnect c).wp (connection isServing) served Settled t
      (fun _ => Op.AtRest Settled st t) w := by
  have hdrop : Serves st (act (.dropStack c)) :=
    Op.Keeps.act (fun _ _ _ => trivial) fun _ _ => id
  refine (Op.wp_bind _ _ _).mpr ((Op.wp_get _).mpr ?_)
  rw [Op.andThen]
  cases Connection.exitStacks w.state c with
  | unset => exact hw
  | emptied => exact hdrop t w hw
  | holding =>
    refine (Op.wp_bind _ _ _).mpr ((Op.wp_tryCatch _ _ _).mpr (Op.wp_mono (hw.within
      (served_push hw (.close hst h)) (fun _ hw' => served_pop hw' (.close hst c)) (fun _ => id)
      (fun _ => id) (serves_wait .close)) fun r w' hw' => ?_))
    cases r with
    | ok u => exact hdrop t w' hw'
    | error e =>
      have hcaught : Serves st (if e.isException then pure () else throw e : ConnOp Unit) :=
        serves_ite (Op.Keeps.pure ()) (Op.Keeps.throw e)
      refine Op.wp_mono (hcaught t w' hw') fun r' w'' hw'' => ?_
      cases r' with
      | ok u => exact hdrop t w'' hw''
      | error e' => exact hw''

/-- A connection may be closed down when its transport may be. -/
theorem wp_disconnect (hw : Op.AtRest Settled st t w) (hst : .drainAndDisconnect ∈ st)
    (h : Connection.outbound w.state ≠ none → Releasable w.state st) :
    disconnect.wp (connection isServing) served Settled t (fun _ => Op.AtRest Settled st t) w := by
  have hend : ∀ {w}, Op.AtRest Settled st t w → Connection.outbound w.state = none →
      (act (.transition .disconnected)).wp (connection isServing) served Settled t
        (fun _ => Op.AtRest Settled st t) w :=
    fun hw hnone => ⟨hnone, hw.exec (fun hout => absurd hnone hout) rfl⟩
  refine (Op.wp_bind _ _ _).mpr ((Op.wp_bind _ _ _).mpr ?_)
  show (closeOutbound (Connection.outbound w.state)).wp _ _ _ t _ w
  cases hout : Connection.outbound w.state with
  | none => exact hend hw hout
  | some c =>
    have hdrop : ∀ {w}, Op.AtRest Settled st t w →
        (act .dropOutbound).wp (connection isServing) served Settled t
          (Op.andThen (connection isServing) served Settled t
            (fun _ => act (.transition .disconnected)) fun _ => Op.AtRest Settled st t) w :=
      fun hw => ⟨trivial, hend (hw.exec (fun hnone => absurd rfl hnone) rfl) rfl⟩
    refine (Op.wp_bind _ _ _).mpr ((Op.wp_tryCatch _ _ _).mpr (Op.wp_mono
      (wp_outboundDisconnect c hw hst (h (by rw [hout]; exact Option.some_ne_none c)))
      fun r w' hw' => ?_))
    cases r with
    | ok u => exact hdrop hw'
    | error e =>
      have hcaught : Serves st (if e.isException then pure () else throw e : ConnOp Unit) :=
        serves_ite (Op.Keeps.pure ()) (Op.Keeps.throw e)
      refine Op.wp_mono (hcaught t w' hw') fun r' w'' hw'' => ?_
      cases r' with
      | ok u => exact hdrop hw''
      | error e' => exact hw''

/-- After the wait of a drain: its event is set, or its timeout has elapsed. -/
theorem wp_awaitDrain {e : ℕ} (hw : Op.AtRest Settled (armed e) t w) :
    (awaitDrain e).wp (connection isServing) served Settled t
      (fun _ => Op.AtRest Settled (armed e) t) w := by
  refine (Op.wp_bind _ _ _).mpr ((Op.wp_tryCatch _ _ _).mpr ((Op.wp_bind _ _ _).mpr
    ⟨hw.state, fun w' r hrest ht hstack hready => ?_⟩))
  have hw' : Op.AtRest Settled (armed e) t (w'.resumed t) :=
    ⟨hrest, ht, (World.stack_resumed _ _ _).trans (hstack.trans hw.stack)⟩
  cases r with
  | ok u =>
    have hset : Connection.events w'.state e = true := by
      have hboth : (!(w'.tasks t).requested && Connection.events w'.state e) = true := hready
      rw [Bool.and_eq_true] at hboth
      exact hboth.2
    exact wp_disconnect hw' (by simp) fun _ => Or.inr (Or.inl ⟨e, List.mem_cons_self, hset⟩)
  | error exc =>
    show Op.wp _ _ _ t (if exc = .timeout then pure true else throw exc) _ _
    split
    · show Op.wp _ _ _ t (inside .nop .expired .nop disconnect) _ _
      refine Op.wp_within.mpr ⟨served_push hw' (.expire e), ?_⟩
      have hexpired : Op.AtRest Settled (overdue e) t
          ((w'.resumed t).exec (connection isServing) t (.push .nop .expired)) :=
        ⟨hrest, ht, (Op.stack_push _ _ _ _).trans (congrArg _ hw'.stack)⟩
      refine Op.wp_mono (wp_disconnect hexpired (by simp) fun _ => Or.inr (Or.inr
        ⟨List.mem_cons_self, e, List.mem_cons_of_mem _ List.mem_cons_self⟩))
        fun r w'' hw'' => ⟨served_pop hw'' (.expire e), hw''.state, hw''.born, ?_⟩
      exact (Op.stack_pop _ _ _).trans (by rw [hw''.stack, List.tail_cons])
    · exact hw'

/-- Inside the lock: the transport is closed at once when no call is in flight. -/
theorem wp_drain (hw : Op.AtRest Settled locked t w) :
    drain.wp (connection isServing) served Settled t (fun _ => Op.AtRest Settled locked t) w := by
  refine (Op.wp_bind _ _ _).mpr ?_
  show Op.wp _ _ _ t (if Connection.state w.state ≠ .connected ∧
    Connection.state w.state ≠ .draining then disconnect else _) _ w
  split
  · next hstate =>
    refine wp_disconnect hw (by simp) fun hout => ?_
    rcases hw.state hout with h | h
    · exact absurd h hstate.1
    · exact absurd h hstate.2
  · next hstate =>
    have hserving :
        Connection.state w.state = .connected ∨ Connection.state w.state = .draining := by
      by_contra hneither
      exact hstate ⟨fun h => hneither (Or.inl h), fun h => hneither (Or.inr h)⟩
    have hdraining : Op.AtRest Settled locked t
        (w.exec (connection isServing) t (.act (.transition .draining))) :=
      hw.exec (fun _ => Or.inr rfl) rfl
    refine (Op.wp_bind _ _ _).mpr ⟨hserving, ?_⟩
    show Op.wp _ _ _ t (if Connection.inFlight w.state = 0 then disconnect else _) _ _
    split
    · next hflight =>
      exact wp_disconnect hdraining (by simp) fun _ => Or.inl ⟨hflight, nofun⟩
    · next hflight =>
      refine Op.wp_within.mpr ⟨served_push hdraining (.arm rfl hflight), ?_⟩
      have harmed : Op.AtRest Settled (armed (Connection.nextEvent w.state)) t
          ((w.exec (connection isServing) t (.act (.transition .draining))).exec
            (connection isServing) t (.push .armDrain (.waiting (Connection.nextEvent w.state)))) :=
        ⟨hdraining.state, hdraining.born, (Op.stack_push _ _ _ _).trans
          (congrArg _ hdraining.stack)⟩
      refine Op.wp_mono (wp_awaitDrain harmed) fun r w' hw' =>
        ⟨served_pop hw' (.arm _), hw'.state, hw'.born, ?_⟩
      exact (Op.stack_pop _ _ _).trans (by rw [hw'.stack, List.tail_cons])

theorem serves_drain : Serves locked drain := fun _ _ hw => wp_drain hw

/-- The lock is taken when it is free. -/
theorem serves_drainAndDisconnect : Serves [.drainAndDisconnect] drainAndDisconnect := by
  refine Op.Keeps.get_bind fun t w hw => ?_
  have hlocked : ∀ {w}, Op.AtRest Settled [Call.drainAndDisconnect] t w →
      Connection.drainLock w.state = some false →
      (inside .take .draining .release drain).wp (connection isServing) served Settled t
        (fun _ => Op.AtRest Settled [Call.drainAndDisconnect] t) w :=
    fun hw hfree => hw.within (served_push hw (.lock hfree)) (fun _ hw' => served_pop hw' .lock)
      (fun _ => id) (fun _ => id) serves_drain
  rw [Op.wp_bind]
  cases hlock : Connection.drainLock w.state with
  | none => exact ⟨hlock, hlocked (hw.exec hw.state rfl) rfl⟩
  | some held =>
    cases held with
    | false => exact hlocked hw hlock
    | true =>
      refine ⟨hw.state, fun w' r hrest ht hstack hready => ?_⟩
      have hw' : Op.AtRest Settled [Call.drainAndDisconnect] t (w'.resumed t) :=
        ⟨hrest, ht, (World.stack_resumed _ _ _).trans (hstack.trans hw.stack)⟩
      cases r with
      | ok u =>
        have hboth : (!(w'.tasks t).requested &&
          Connection.drainLock w'.state = some false) = true := hready
        rw [Bool.and_eq_true, decide_eq_true_eq] at hboth
        exact hlocked hw' hboth.2
      | error exc => exact hw'

theorem serves_request : Serves [.request] request := by
  refine Op.Keeps.get_bind fun t w hw => ?_
  split
  · exact hw
  · next hstate =>
    split
    · exact hw
    · next hout =>
      exact hw.within (served_push hw (.dispatch hstate hout))
        (fun _ hw' => served_pop hw' .dispatch) (fun _ => id) (fun _ => id) (serves_wait .answer)

end Contracts

theorem verified_serving : Verified (connection isServing) served Settled := by
  intro c r t w hrest ht hstack
  cases r with
  | error e => cases c <;> exact hrest
  | ok u =>
    cases c with
    | request => exact Op.wp_mono (serves_request t w ⟨hrest, ht, hstack⟩) fun _ _ h => h.state
    | drainAndDisconnect =>
      exact Op.wp_mono (serves_drainAndDisconnect t w ⟨hrest, ht, hstack⟩) fun _ _ h => h.state
    | _ => exact hrest

/-! ### What a drain waits for -/

/-- A drain that has armed its event waits for it. -/
def WaitsFor (st : List Call) (wt : Wait) : Prop := ∀ e, st = armed e → wt = .eventFor e

section Stacks

variable {st : List Call}

theorem follows_wait {wt : Wait} (h : WaitsFor st wt) :
    Op.Follows (S := connectionSignature) WaitsFor st (wait wt) := ⟨h, fun _ => rfl⟩

theorem follows_swallow {p : ConnOp Unit}
    (hp : Op.Follows (S := connectionSignature) WaitsFor st p) :
    Op.Follows (S := connectionSignature) WaitsFor st (swallow p) :=
  Op.Follows.tryCatch hp fun e => Op.Follows.ite (Op.Follows.pure ()) (Op.Follows.throw e)

theorem follows_outboundDisconnect (c : ℕ) :
    Op.Follows (S := connectionSignature) WaitsFor st (OutboundClient.disconnect c) := by
  refine Op.Follows.bind Op.Follows.get fun s => ?_
  cases s.exitStacks c with
  | unset => exact Op.Follows.pure ()
  | emptied => exact Op.Follows.act _
  | holding =>
    refine Op.Follows.bind (follows_swallow (Op.Follows.within (follows_wait fun e he => ?_)))
      fun _ => Op.Follows.act _
    cases he

theorem follows_disconnect : Op.Follows (S := connectionSignature) WaitsFor st disconnect := by
  refine Op.Follows.bind Op.Follows.get fun s => Op.Follows.bind ?_ fun _ => Op.Follows.act _
  cases s.outbound with
  | none => exact Op.Follows.pure ()
  | some c =>
    exact Op.Follows.bind (follows_swallow (follows_outboundDisconnect c)) fun _ =>
      Op.Follows.act _

theorem follows_awaitDrain (e : ℕ) :
    Op.Follows (S := connectionSignature) WaitsFor (armed e) (awaitDrain e) := by
  refine Op.Follows.bind (Op.Follows.tryCatch (Op.Follows.bind (follows_wait fun e' he => ?_)
    fun _ => Op.Follows.pure _) fun exc => Op.Follows.ite (Op.Follows.pure _)
      (Op.Follows.throw exc)) fun expired => ?_
  · cases he
    rfl
  · exact Op.Follows.ite (Op.Follows.within follows_disconnect) follows_disconnect

theorem follows_drainAndDisconnect : Op.Follows (S := connectionSignature) WaitsFor
    [.drainAndDisconnect] drainAndDisconnect := by
  refine Op.Follows.bind Op.Follows.get fun s => Op.Follows.bind (Op.Follows.ite (Op.Follows.act _)
    (Op.Follows.pure ())) fun _ => Op.Follows.bind (Op.Follows.ite (follows_wait fun e he => ?_)
      (Op.Follows.pure ())) fun _ => Op.Follows.within ?_
  · cases he
  · refine Op.Follows.bind Op.Follows.get fun s => Op.Follows.ite follows_disconnect
      (Op.Follows.bind (Op.Follows.act _) fun _ => Op.Follows.ite follows_disconnect
        (Op.Follows.within (follows_awaitDrain _)))

theorem follows_request :
    Op.Follows (S := connectionSignature) WaitsFor [.request] request := by
  refine Op.Follows.bind Op.Follows.get fun s => Op.Follows.ite (Op.Follows.throw _)
    (Op.Follows.ite (Op.Follows.throw _) (Op.Follows.within (follows_wait fun e he => ?_)))
  cases he

end Stacks

theorem orderly_serving : Orderly (connection isServing) WaitsFor where
  turn c e he := by
    cases he
  body c r := by
    cases r with
    | error e => cases c <;> rfl
    | ok u =>
      cases c with
      | request => exact follows_request
      | drainAndDisconnect => exact follows_drainAndDisconnect
      | _ => rfl

/-! ### Consistency -/

/-- The counter counts the dispatched calls; one drain at a time is in the lock; the event a drain
has armed is set when the counter is zero; a transport that is being closed has been released; and
no call has been dispatched since the state first became DRAINING. -/
structure Consistent (s : Connection) (f : TaskId → List Call) : Prop where
  settled : Settled s
  root : ∀ {t c}, f t = [c] → isServing c = true
  counted : ∃ l : List TaskId, l.Nodup ∧ (∀ t, t ∈ l ↔ .dispatch ∈ f t) ∧ l.length = s.inFlight
  held : ∀ {t}, .draining ∈ f t → s.drainLock = some true
  alone : ∀ {t u}, .draining ∈ f t → .draining ∈ f u → t = u
  waiting : ∀ {t e}, .waiting e ∈ f t → .draining ∈ f t ∧ s.state ≠ .connected ∧
    s.drainEvent = some e ∧ (s.events e = true ↔ s.inFlight = 0)
  closing : ∀ {t c}, .closing c ∈ f t → s.state ≠ .connected ∧
    (s.inFlight = 0 ∨ .expired ∈ f t)
  drained : ∀ {source}, .changed source .draining ∈ s.history → s.state ≠ .connected
  late : ∀ {newer older source}, s.history = newer ++ .changed source .draining :: older →
    .dispatched ∉ newer

/-- A connected connection nobody uses yet. -/
structure Idle (s : Connection) : Prop where
  state : s.state = .connected
  inFlight : s.inFlight = 0
  history : s.history = []

theorem Idle.consistent {s : Connection} (h : Idle s) : Consistent s fun _ => [] where
  settled _ := Or.inl h.state
  root hc := nomatch hc
  counted := ⟨[], List.nodup_nil, fun _ => by simp, h.inFlight.symm⟩
  held ht := nomatch ht
  alone ht := nomatch ht
  waiting ht := nomatch ht
  closing ht := nomatch ht
  drained hmem := by
    rw [h.history] at hmem
    cases hmem
  late heq := by
    rw [h.history] at heq
    exact absurd heq.symm (by simp)

section Steps

variable {s : Connection} {f : TaskId → List Call} {t : TaskId} {st : List Call}

theorem root_update (h : Consistent s f) (hst : ∀ c, st = [c] → isServing c = true) {u : TaskId}
    {c : Call} (hu : Function.update f t st u = [c]) : isServing c = true := by
  rcases eq_or_ne u t with rfl | hne
  · rw [Function.update_self] at hu
    exact hst c hu
  · rw [Function.update_of_ne hne] at hu
    exact h.root hu

/-- A change of a stack that neither begins nor ends a dispatch or a turn in the lock. -/
theorem Consistent.restack (h : Consistent s f) (hroot : ∀ c, st = [c] → isServing c = true)
    (hdispatch : Call.dispatch ∈ st ↔ .dispatch ∈ f t)
    (hdraining : Call.draining ∈ st ↔ .draining ∈ f t)
    (hwaiting : ∀ e, Call.waiting e ∈ st → .waiting e ∈ f t)
    (hclosing : ∀ c, Call.closing c ∈ st →
      s.state ≠ .connected ∧ (s.inFlight = 0 ∨ .expired ∈ st)) :
    Consistent s (Function.update f t st) where
  settled := h.settled
  root hu := root_update h hroot hu
  counted := by
    obtain ⟨l, hnodup, hmem, hlength⟩ := h.counted
    exact ⟨l, hnodup, fun u => (hmem u).trans (mem_update_of_iff hdispatch).symm, hlength⟩
  held hu := h.held ((mem_update_of_iff hdraining).mp hu)
  alone hu hv := h.alone ((mem_update_of_iff hdraining).mp hu) ((mem_update_of_iff hdraining).mp hv)
  waiting {u e} hu := by
    have hu' : Call.waiting e ∈ f u := by
      rcases mem_update_iff.mp hu with ⟨rfl, hst⟩ | ⟨-, hmem⟩
      · exact hwaiting e hst
      · exact hmem
    obtain ⟨hlocked, hrest⟩ := h.waiting hu'
    exact ⟨(mem_update_of_iff hdraining).mpr hlocked, hrest⟩
  closing {u c} hu := by
    rcases mem_update_iff.mp hu with ⟨rfl, hst⟩ | ⟨hne, hmem⟩
    · rw [Function.update_self]
      exact hclosing c hst
    · rw [Function.update_of_ne hne]
      exact h.closing hmem
  drained := h.drained
  late := h.late

/-- A change to another state than CONNECTED. -/
theorem Consistent.transition (h : Consistent s f) {target : ConnectionState}
    (hsettled : Settled (s.transition target)) (htarget : target ≠ .connected) :
    Consistent (s.transition target) f where
  settled := hsettled
  root := h.root
  counted := h.counted
  held := h.held
  alone := h.alone
  waiting ht := by
    obtain ⟨hlocked, -, hrest⟩ := h.waiting ht
    exact ⟨hlocked, htarget, hrest⟩
  closing ht := ⟨htarget, (h.closing ht).2⟩
  drained _ := htarget
  late {newer older source} heq := by
    cases newer with
    | nil => exact List.not_mem_nil
    | cons event newer =>
      have hparts := List.cons.inj heq
      intro hmem
      rcases List.mem_cons.mp hmem with hevent | hmem
      · exact absurd (hparts.1.trans hevent.symm) (by simp)
      · exact h.late hparts.2 hmem

/-- A change of the exit stacks and of the transports. -/
theorem Consistent.frame (h : Consistent s f) (exits : ℕ → ExitStack) (open_ : List ℕ) :
    Consistent { s with exitStacks := exits, transports := open_ } f :=
  ⟨h.settled, h.root, h.counted, h.held, h.alone, h.waiting, h.closing, h.drained, h.late⟩

/-- A task that is in nothing but its procedure comes, or is done. -/
theorem Consistent.serve (h : Consistent s f) (hst : ∀ c ∈ st, isServing c = true)
    (hf : ∀ c ∈ f t, isServing c = true) : Consistent s (Function.update f t st) := by
  have hnone : ∀ {c : Call}, isServing c = false → c ∉ st ∧ c ∉ f t := fun hc =>
    ⟨fun hmem => Bool.false_ne_true (hc.symm.trans (hst _ hmem)),
      fun hmem => Bool.false_ne_true (hc.symm.trans (hf _ hmem))⟩
  have hsame : ∀ {c : Call}, isServing c = false → (c ∈ st ↔ c ∈ f t) := fun hc =>
    iff_of_false (hnone hc).1 (hnone hc).2
  refine h.restack (fun c hc => hst c ?_) (hsame rfl) (hsame rfl) (fun e => (hsame rfl).mp)
    fun c hc => absurd hc (hnone rfl).1
  rw [hc]
  exact List.mem_singleton_self c

/-- A drain takes the lock: nobody was in it. -/
theorem Consistent.take (h : Consistent s f) (ht : f t = [.drainAndDisconnect])
    (hfree : s.drainLock = some false) :
    Consistent { s with drainLock := some true } (Function.update f t locked) := by
  have hnone : ∀ u, Call.draining ∉ f u := fun u hu => by
    have hheld := h.held hu
    rw [hfree] at hheld
    cases hheld
  have howner : ∀ {u}, Call.draining ∈ Function.update f t locked u → u = t := fun {u} hu => by
    rcases mem_update_iff.mp hu with ⟨hut, -⟩ | ⟨-, hmem⟩
    · exact hut
    · exact absurd hmem (hnone u)
  obtain ⟨l, hnodup, hmem, hlength⟩ := h.counted
  refine ⟨h.settled, fun hu => root_update h (by simp) hu, ⟨l, hnodup, fun u => ?_, hlength⟩,
    fun _ => rfl, fun hu hv => (howner hu).trans (howner hv).symm, fun {u e} hu => ?_,
    fun {u c} hu => ?_, h.drained, h.late⟩
  · rw [hmem u]
    exact (mem_update_of_iff (by simp [ht])).symm
  · rcases mem_update_iff.mp hu with ⟨-, hst⟩ | ⟨-, hwaiting⟩
    · simp at hst
    · exact absurd (h.waiting hwaiting).1 (hnone u)
  · rcases mem_update_iff.mp hu with ⟨-, hst⟩ | ⟨hne, hclosing⟩
    · simp at hst
    · rw [Function.update_of_ne hne]
      exact h.closing hclosing

/-- A drain leaves the lock: nobody is in it. -/
theorem Consistent.release (h : Consistent s f) (ht : f t = locked) :
    Consistent { s with drainLock := some false }
      (Function.update f t [.drainAndDisconnect]) := by
  have hnone : ∀ {u}, Call.draining ∉ Function.update f t [.drainAndDisconnect] u := by
    intro u hu
    rcases mem_update_iff.mp hu with ⟨-, hst⟩ | ⟨hne, hmem⟩
    · simp at hst
    · exact hne (h.alone hmem (by simp [ht]))
  obtain ⟨l, hnodup, hmem, hlength⟩ := h.counted
  refine ⟨h.settled, fun hu => root_update h (fun c hc => ?_) hu,
    ⟨l, hnodup, fun u => ?_, hlength⟩, fun hu => absurd hu hnone, fun hu => absurd hu hnone,
    fun {u e} hu => ?_, fun {u c} hu => ?_, h.drained, h.late⟩
  · cases hc
    rfl
  · rw [hmem u]
    exact (mem_update_of_iff (by simp [ht])).symm
  · rcases mem_update_iff.mp hu with ⟨-, hst⟩ | ⟨hne, hwaiting⟩
    · simp at hst
    · exact absurd (h.alone (h.waiting hwaiting).1 (by simp [ht])) hne
  · rcases mem_update_iff.mp hu with ⟨-, hst⟩ | ⟨hne, hclosing⟩
    · simp at hst
    · rw [Function.update_of_ne hne]
      exact h.closing hclosing

/-- A drain with calls in flight arms a fresh event. -/
theorem Consistent.arm (h : Consistent s f) (ht : f t = locked) (hstate : s.state = .draining)
    (hflight : s.inFlight ≠ 0) :
    Consistent (Act.eval s .armDrain) (Function.update f t (armed s.nextEvent)) := by
  have hlocked : ∀ {u}, Call.draining ∈ Function.update f t (armed s.nextEvent) u ↔
      .draining ∈ f u :=
    mem_update_of_iff (by simp [ht])
  obtain ⟨l, hnodup, hmem, hlength⟩ := h.counted
  refine ⟨h.settled, fun hu => root_update h (by simp) hu, ⟨l, hnodup, fun u => ?_, hlength⟩,
    fun hu => h.held (hlocked.mp hu), fun hu hv => h.alone (hlocked.mp hu) (hlocked.mp hv),
    fun {u e} hu => ?_, fun {u c} hu => ?_, h.drained, h.late⟩
  · rw [hmem u]
    exact (mem_update_of_iff (by simp [ht])).symm
  · rcases mem_update_iff.mp hu with ⟨rfl, hst⟩ | ⟨hne, hwaiting⟩
    · obtain rfl : e = s.nextEvent := by simpa using hst
      refine ⟨hlocked.mpr (by simp [ht]), fun hconnected => ?_, rfl, ?_⟩
      · cases hstate.symm.trans hconnected
      · show Function.update s.events s.nextEvent false s.nextEvent = true ↔ s.inFlight = 0
        rw [Function.update_self]
        exact iff_of_false Bool.false_ne_true hflight
    · exact absurd (h.alone (h.waiting hwaiting).1 (by simp [ht])) hne
  · rcases mem_update_iff.mp hu with ⟨-, hst⟩ | ⟨hne, hclosing⟩
    · simp at hst
    · rw [Function.update_of_ne hne]
      exact h.closing hclosing

/-- The facts a close can count on when it begins. -/
theorem Consistent.releasable (h : Consistent s f) (hreleasable : Releasable s (f t)) :
    s.state ≠ .connected ∧ (s.inFlight = 0 ∨ .expired ∈ f t) := by
  rcases hreleasable with ⟨hflight, hstate⟩ | ⟨e, hmem, hset⟩ | ⟨hexpired, e, hmem⟩
  · exact ⟨hstate, Or.inl hflight⟩
  · obtain ⟨-, hstate, -, hevent⟩ := h.waiting hmem
    exact ⟨hstate, Or.inl (hevent.mp hset)⟩
  · exact ⟨(h.waiting hmem).2.1, Or.inr hexpired⟩

/-- A dispatch begins: the connection is CONNECTED, so nobody waits for the calls to end. -/
theorem Consistent.beginRequest (h : Consistent s f) (ht : f t = [.request])
    (hstate : s.state ≠ .draining) (houtbound : s.outbound ≠ none) :
    Consistent (Act.eval s .beginRequest) (Function.update f t [.dispatch, .request]) := by
  have hconnected : s.state = .connected := (h.settled houtbound).resolve_right hstate
  have hlocked : ∀ {u}, Call.draining ∈ Function.update f t [.dispatch, .request] u ↔
      .draining ∈ f u :=
    mem_update_of_iff (by simp [ht])
  obtain ⟨l, hnodup, hmem, hlength⟩ := h.counted
  have hfresh : t ∉ l := fun htl => by
    have hdispatch := (hmem t).mp htl
    simp [ht] at hdispatch
  refine ⟨h.settled, fun hu => root_update h (by simp) hu,
    ⟨t :: l, List.nodup_cons.mpr ⟨hfresh, hnodup⟩, fun u => ?_, congrArg Nat.succ hlength⟩,
    fun hu => h.held (hlocked.mp hu), fun hu hv => h.alone (hlocked.mp hu) (hlocked.mp hv),
    fun {u e} hu => ?_, fun {u c} hu => ?_, fun {source} hsource => ?_,
    fun {newer older source} heq => ?_⟩
  · rw [List.mem_cons, hmem u, mem_update_iff]
    rcases eq_or_ne u t with rfl | hne
    · simp
    · simp [hne]
  · rcases mem_update_iff.mp hu with ⟨-, hst⟩ | ⟨-, hwaiting⟩
    · simp at hst
    · exact absurd hconnected (h.waiting hwaiting).2.1
  · rcases mem_update_iff.mp hu with ⟨-, hst⟩ | ⟨-, hclosing⟩
    · simp at hst
    · exact absurd hconnected (h.closing hclosing).1
  · rcases List.mem_cons.mp hsource with hevent | hold
    · cases hevent
    · exact h.drained hold
  · cases newer with
    | nil => cases heq
    | cons event newer =>
      have hold : s.history = newer ++ .changed source .draining :: older := (List.cons.inj heq).2
      have hdrained : .changed source .draining ∈ s.history := by
        rw [hold]
        exact List.mem_append_right _ List.mem_cons_self
      exact absurd hconnected (h.drained hdrained)

/-- A dispatch ends: the last one sets the event a drain has armed. -/
theorem Consistent.endRequest (h : Consistent s f) (ht : f t = [.dispatch, .request]) :
    Consistent (Act.eval s .endRequest) (Function.update f t [.request]) := by
  have hlocked : ∀ {u}, Call.draining ∈ Function.update f t [.request] u ↔ .draining ∈ f u :=
    mem_update_of_iff (by simp [ht])
  obtain ⟨l, hnodup, hmem, hlength⟩ := h.counted
  have htl : t ∈ l := (hmem t).mpr (by simp [ht])
  have hpositive : 0 < s.inFlight := hlength ▸ List.length_pos_of_mem htl
  refine ⟨h.settled, fun hu => root_update h (fun c hc => ?_) hu,
    ⟨l.erase t, hnodup.erase t, fun u => ?_, ?_⟩,
    fun hu => h.held (hlocked.mp hu), fun hu hv => h.alone (hlocked.mp hu) (hlocked.mp hv),
    fun {u e} hu => ?_, fun {u c} hu => ?_, h.drained, h.late⟩
  · cases hc
    rfl
  · rw [hnodup.mem_erase_iff, hmem u, mem_update_iff]
    simp
  · rw [List.length_erase_of_mem htl, hlength]
    rfl
  · rcases mem_update_iff.mp hu with ⟨-, hst⟩ | ⟨-, hwaiting⟩
    · simp at hst
    · obtain ⟨hin, hstate, hevent, hset⟩ := h.waiting hwaiting
      refine ⟨hlocked.mpr hin, hstate, hevent, ?_⟩
      show (s.events e || (s.inFlight - 1 = 0 && s.drainEvent = some e)) = true ↔
        s.inFlight - 1 = 0
      have hpending : s.events e = false := Bool.eq_false_iff.mpr fun hset' =>
        Nat.ne_of_gt hpositive (hset.mp hset')
      simp [hpending, hevent]
  · rcases mem_update_iff.mp hu with ⟨-, hst⟩ | ⟨hne, hclosing⟩
    · simp at hst
    · obtain ⟨hstate, hreleased⟩ := h.closing hclosing
      rw [Function.update_of_ne hne]
      refine ⟨hstate, hreleased.imp_left fun hzero => ?_⟩
      show s.inFlight - 1 = 0
      rw [hzero]

/-- A change of the state by itself. -/
theorem Consistent.act (h : Consistent s f) {a : Act} (ha : Act.Served s a) :
    Consistent (a.eval s) f := by
  cases a with
  | transition target =>
    cases target with
    | draining => exact h.transition (fun _ => Or.inr rfl) nofun
    | disconnected => exact h.transition (fun hout => absurd ha hout) nofun
    | _ => exact ha.elim
  | makeDrainLock =>
    refine ⟨h.settled, h.root, h.counted, fun hu => ?_, h.alone, h.waiting, h.closing, h.drained,
      h.late⟩
    cases (h.held hu).symm.trans ha
  | dropStack c => exact h.frame _ _
  | dropOutbound =>
    exact ⟨fun hnone => absurd rfl hnone, h.root, h.counted, h.held, h.alone, h.waiting,
      h.closing, h.drained, h.late⟩
  | _ => exact ha.elim

/-- The beginning of a section. -/
theorem Consistent.enter (h : Consistent s f) {a : Act} {c : Call} (hentry : Entry s (f t) a c) :
    Consistent (a.eval s) (Function.update f t (c :: f t)) := by
  generalize ht : f t = st at hentry
  cases hentry with
  | lock hfree => exact h.take ht hfree
  | arm hstate hflight => exact h.arm ht hstate hflight
  | expire e => exact h.restack (by simp) (by simp [ht]) (by simp [ht]) (by simp [ht]) (by simp)
  | dispatch hstate houtbound => exact h.beginRequest ht hstate houtbound
  | @close _ c hst hreleasable =>
    obtain ⟨hstate, hreleased⟩ := h.releasable (ht ▸ hreleasable)
    refine (h.frame _ _).restack (fun c' hc => ?_) (by simp [ht]) (by simp [ht]) (by simp [ht])
      fun c' _ => ⟨hstate, hreleased.imp_right fun hmem => List.mem_cons_of_mem _ (ht ▸ hmem)⟩
    obtain ⟨-, rfl⟩ := List.cons.inj hc
    cases hst

/-- The end of a section. -/
theorem Consistent.leave (h : Consistent s f) {a : Act} (hexit : Exit (f t) a) :
    Consistent (a.eval s) (Function.update f t (f t).tail) := by
  generalize ht : f t = st at hexit
  cases hexit with
  | lock => exact h.release ht
  | arm e => exact h.restack (by simp) (by simp [ht]) (by simp [ht]) (by simp [ht]) (by simp)
  | expire e => exact h.restack (by simp) (by simp [ht]) (by simp [ht]) (by simp [ht]) (by simp)
  | dispatch => exact h.endRequest ht
  | @close st hst c =>
    refine (h.frame _ _).restack (fun c' hc => ?_) (by simp [ht]) (by simp [ht]) (by simp [ht])
      fun c' hc => ?_
    · rw [List.tail_cons] at hc
      rw [hc, List.mem_singleton] at hst
      rw [← hst]
      rfl
    · obtain ⟨hstate, hreleased⟩ := h.closing (t := t) (c := c') (by
        rw [ht]
        exact List.mem_cons_of_mem _ hc)
      refine ⟨hstate, hreleased.imp_right fun hmem => ?_⟩
      rw [ht] at hmem
      exact (List.mem_cons.mp hmem).resolve_left nofun

end Steps

theorem invariant_serving : CountInvariant (connection isServing) served Consistent where
  stmt {w t s} h _ hs := by
    cases s with
    | act a => exact h.act hs
    | push a c =>
      rw [World.frames_push]
      exact h.enter hs
    | pop a =>
      rw [World.frames_pop]
      exact h.leave hs
    | spawn c => exact hs.elim
    | cancel u => exact hs.elim
    | jump c => exact hs.elim
  call {s f t c} hc ht h := by
    refine h.serve (fun c' hc' => ?_) fun c' hc' => ?_
    · rwa [List.mem_singleton.mp hc']
    · rw [ht] at hc'
      cases hc'
  finish {s f t c} ht h := by
    refine h.serve (fun c' hc' => by cases hc') fun c' hc' => ?_
    rw [ht] at hc'
    rw [List.mem_singleton.mp hc']
    exact h.root ht
  tick {e} := nomatch e

/-- The tasks whose calls are dispatched. -/
def dispatched (w : World connectionSignature) : List TaskId :=
  (List.range w.next).filter fun t => .dispatch ∈ (w.tasks t).stack

/-- **A drain lets the calls in flight end.** However requests and drains of a connected connection
are interleaved, and however each of them ends: the counter is the number of the dispatched calls;
no call is dispatched after the connection has become DRAINING; a transport is being closed only
when no call is in flight or the timeout of the drain that closes it has elapsed; and a drain that
waits for the calls to end can go on as soon as none is in flight. -/
theorem drain_waits {s : Connection} (hs : Idle s) {cf : Config connectionSignature}
    (h : Reach (connection isServing) anyStep s cf) :
    Connection.inFlight cf.world.state = (dispatched cf.world).length ∧
      (∀ newer older source,
        Connection.history cf.world.state = newer ++ .changed source .draining :: older →
          .dispatched ∉ newer) ∧
      (∀ t c, .closing c ∈ (cf.world.tasks t).stack →
        Connection.inFlight cf.world.state = 0 ∨ .expired ∈ (cf.world.tasks t).stack) ∧
      ∀ t e, (cf.world.tasks t).stack = armed e → Connection.inFlight cf.world.state = 0 →
        (∀ p, cf.running ≠ some (t, p)) → cf.CanResume (connection isServing) t := by
  have hserved : Reach (connection isServing) served s cf :=
    (verified_serving.reach (fun {e} => nomatch e) (fun _ => Or.inl hs.state) h).1.imp
      fun _ _ _ hC => hC.2
  have hinv := invariant_serving.reach orderly_serving hs.consistent hserved
  refine ⟨?_, fun newer older source => hinv.late, fun t c ht => (hinv.closing ht).2,
    fun t e ht hflight hrun => ?_⟩
  · obtain ⟨l, hnodup, hmem, hlength⟩ := hinv.counted
    have hsame : ∀ t, t ∈ l ↔ t ∈ dispatched cf.world := fun t => by
      rw [hmem t, dispatched, List.mem_filter, decide_eq_true_eq, List.mem_range]
      refine ⟨fun ht => ⟨?_, ht⟩, fun ht => ht.2⟩
      by_contra hnext
      have hempty := (orderly_serving.reach h).1.stack (Nat.le_of_not_lt hnext)
      rw [show cf.world.frames t = [] from hempty] at ht
      cases ht
    rw [← hlength]
    exact ((List.perm_ext_iff_of_nodup hnodup (List.nodup_range.filter _)).mpr hsame).length_eq
  · have hset : Connection.events cf.world.state e = true :=
      (hinv.waiting (t := t) (e := e) (by simp [World.frames, ht])).2.2.2.mpr hflight
    obtain ⟨k, wt, hk, hwt, hA⟩ := orderly_serving.waits h (by rw [ht]; exact List.cons_ne_nil _ _)
      hrun
    obtain rfl := hA e ht
    cases hrequested : (cf.world.tasks t).requested with
    | false =>
      refine ⟨k, _, .ok (), hk, hwt, ?_⟩
      show (!(cf.world.tasks t).requested && Connection.events cf.world.state e) = true
      rw [hrequested, hset]
      rfl
    | true =>
      refine ⟨k, _, .error .cancelled, hk, hwt, ?_⟩
      exact hrequested

/-- A call that a drain waits for and that ends. -/
def drainedCall : List (Move connectionSignature) :=
  [.call .request, .resume 0 (.ok ()), .call .drainAndDisconnect, .resume 1 (.ok ()),
    .resume 0 (.ok ())]

/-- A connected connection, with the transport of its client. -/
def connected : Connection :=
  { state := .connected, outbound := some 0, nextClient := 1, transports := [0],
    exitStacks := fun _ => .holding }

theorem drain_waits_call : ∃ cf, Reach (connection isServing) anyStep connected cf ∧
    (cf.world.tasks 1).stack = armed 0 ∧ cf.CanResume (connection isServing) 1 := by
  have hplay : (Config.play (connection isServing) (fun _ _ _ => true) 20 drainedCall
      (Config.start connected)).any (fun cf => cf.running.isNone &&
        (cf.world.tasks 1).stack = armed 0 && Connection.inFlight cf.world.state = 0) = true := by
    decide
  obtain ⟨cf, hrun, hcf⟩ := (Option.any_eq_true _ _).mp hplay
  simp only [Bool.and_eq_true, Option.isNone_iff_eq_none, decide_eq_true_eq] at hcf
  obtain ⟨⟨hidle, hstack⟩, hflight⟩ := hcf
  have hreach : Reach (connection isServing) anyStep connected cf :=
    reach_play (fun _ => trivial) .refl hrun
  refine ⟨cf, hreach, hstack, (drain_waits ⟨rfl, rfl, rfl⟩ hreach).2.2.2 1 0 hstack hflight
    fun p hp => ?_⟩
  rw [hidle] at hp
  cases hp

end ConnectionTasks

end SlmMcpHub
