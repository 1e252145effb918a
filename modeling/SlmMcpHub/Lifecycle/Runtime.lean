import SlmMcpHub.Resilience.Webhook

/-!
# The runtime

`HubRuntime` of `lifecycle/runtime.py` as `slm-hub start` and `slm-hub mcp` use it: the backends are
connected in a background task, and `stop` cancels this task, waits for it and disconnects
everything. Both can be called at any time and any number of times, and anything can happen while a
call is waiting. The callers are other tasks: the hook of the background task (`post_connect`) does
not call `stop`, which would wait for the task it runs in.

Of what `connect_all` and `disconnect_all` do, only the start and the stop of the webhook dispatcher
are followed. The rest of `connect_all` can end in any way and at any time.

## Main definitions

* `HubRuntime`, `HubRuntime.step` — the runtime with its dispatcher, and what can happen to them

## Main results

* `runtimeSafe_of_reaches` — one background task at a time, none while the backends are
  disconnected or after that, and requests in order
-/

namespace SlmMcpHub

namespace HubRuntime

/-- Where a background task is. -/
inductive BgPhase where
  /-- It has not had its first turn. -/
  | created
  /-- `await self._conn_manager.connect_all()` -/
  | connecting
  /-- `await post_connect(failed)` -/
  | hook
  | done
  deriving DecidableEq

/-- A background task; none has been started under a number that is not in use. -/
structure BgTask where
  phase : BgPhase := .done
  requested : Bool := false
  /-- `post_connect is not None` -/
  postConnect : Bool := false

/-- Where the call of `stop` is that has found the runtime running; all others return at once. -/
inductive StopPhase where
  /-- There has been none. -/
  | idle
  /-- `await self._bg_connect_task` -/
  | joining (t : TaskId)
  /-- In `disconnect_all`, before the dispatcher. -/
  | disconnecting
  /-- `await self._webhook_dispatcher.stop()`, which waits for a drainer. -/
  | stoppingDispatcher (u : TaskId)
  /-- In `disconnect_all`, after the dispatcher. -/
  | finishing
  | returned
  /-- It has raised before it came to the dispatcher. -/
  | raised
  deriving DecidableEq

/-- Past the wait for the background task. -/
def StopPhase.pastJoin : StopPhase → Bool
  | .idle => false
  | .joining _ => false
  | _ => true

/-- Past the stop of the dispatcher. -/
def StopPhase.pastDispatcher : StopPhase → Bool
  | .finishing => true
  | .returned => true
  | _ => false

end HubRuntime

open HubRuntime

/-- `HubRuntime` -/
structure HubRuntime where
  bgConnectTask : Option TaskId := none
  stopped : Bool := false
  tasks : TaskId → BgTask := fun _ => {}
  nextTask : TaskId := 0
  stopPhase : StopPhase := .idle
  /-- `self._conn_manager._webhook_dispatcher` -/
  webhookDispatcher : Option WebhookDispatcher

namespace HubRuntime

/-- What can happen. -/
inductive Action where
  | startBackgroundConnect (postConnect : Bool)
  | stop
  /-- A background task has its first turn. -/
  | begin (t : TaskId)
  /-- `connect_all` returns. -/
  | connected (t : TaskId)
  /-- A background task is over: its hook has returned or raised, or something before that has
  raised, or it was cancelled. -/
  | finish (t : TaskId)
  /-- `stop` goes on after it has waited for the background task. -/
  | joined
  /-- `disconnect_all` gets to the dispatcher. -/
  | stopDispatcher
  /-- It goes on after it has waited for a drainer. -/
  | dispatcherStopped
  /-- `stop` is over. -/
  | stopReturns
  /-- Before it has come to the dispatcher. -/
  | stopRaises
  /-- Something happens in the dispatcher. -/
  | webhook (action : WebhookDispatcher.Action)

/-- `self._bg_connect_task is not None and not self._bg_connect_task.done()` -/
def inFlight? (s : HubRuntime) : Option TaskId :=
  s.bgConnectTask.filter fun t => (s.tasks t).phase ≠ .done

def setPhase (s : HubRuntime) (t : TaskId) (phase : BgPhase) : HubRuntime :=
  { s with tasks := Function.update s.tasks t { s.tasks t with phase := phase } }

/-- `connect_all` starts the dispatcher, if there is one. -/
def startDispatcher (s : HubRuntime) : HubRuntime :=
  { s with webhookDispatcher :=
      s.webhookDispatcher.bind fun d => WebhookDispatcher.step d .start }

/-- One step. -/
def step (s : HubRuntime) : Action → Option HubRuntime
  | .startBackgroundConnect postConnect =>
    if s.stopped then some s
    else match s.inFlight? with
    | some _ => some s
    | none => some { s with
        bgConnectTask := some s.nextTask
        tasks := Function.update s.tasks s.nextTask ⟨.created, false, postConnect⟩
        nextTask := s.nextTask + 1 }
  | .stop =>
    if s.stopped then some s
    else match s.inFlight? with
    | some t => some { s with
        stopped := true
        tasks := Function.update s.tasks t { s.tasks t with requested := true }
        stopPhase := .joining t }
    | none => some { s with stopped := true, stopPhase := .disconnecting }
  | .begin t =>
    if (s.tasks t).phase = .created ∧ (s.tasks t).requested = false then
      some (s.startDispatcher.setPhase t .connecting)
    else none
  | .connected t =>
    if (s.tasks t).phase = .connecting then
      some (s.setPhase t (if (s.tasks t).postConnect then .hook else .done))
    else none
  | .finish t =>
    match (s.tasks t).phase with
    | .created => if (s.tasks t).requested then some (s.setPhase t .done) else none
    | .done => none
    | _ => some (s.setPhase t .done)
  | .joined =>
    match s.stopPhase with
    | .joining t =>
      if (s.tasks t).phase = .done then some { s with stopPhase := .disconnecting } else none
    | _ => none
  | .stopDispatcher =>
    if s.stopPhase = .disconnecting then
      match s.webhookDispatcher with
      | none => some { s with stopPhase := .finishing }
      | some d =>
        (WebhookDispatcher.step d .stop).map fun d' =>
          { s with
            webhookDispatcher := some d'
            stopPhase := d.running?.elim .finishing .stoppingDispatcher }
    else none
  | .dispatcherStopped =>
    match s.stopPhase, s.webhookDispatcher with
    | .stoppingDispatcher u, some d =>
      (WebhookDispatcher.step d (.stopped u)).map fun d' =>
        { s with webhookDispatcher := some d', stopPhase := .finishing }
    | _, _ => none
  | .stopReturns =>
    if s.stopPhase = .finishing then some { s with stopPhase := .returned } else none
  | .stopRaises =>
    if s.stopPhase = .disconnecting then some { s with stopPhase := .raised } else none
  | .webhook action =>
    match s.webhookDispatcher with
    | some d =>
      if action.inner then
        (WebhookDispatcher.step d action).map fun d' => { s with webhookDispatcher := some d' }
      else none
    | none => none

/-- The dispatcher of a manager with some `webhooks`. -/
def newDispatcher (webhooks : List String) : Option WebhookDispatcher :=
  if webhooks = [] then none else some (WebhookDispatcher.new webhooks 3 1000)

/-- A new runtime. -/
def new (webhooks : List String) : HubRuntime where
  webhookDispatcher := newDispatcher webhooks

/-- A background task that is not done. -/
def Live (s : HubRuntime) (t : TaskId) : Prop := (s.tasks t).phase ≠ .done

instance (s : HubRuntime) (t : TaskId) : Decidable (s.Live t) :=
  inferInstanceAs (Decidable ((s.tasks t).phase ≠ .done))

/-- What is safe about a runtime. -/
structure RuntimeSafe (s : HubRuntime) : Prop where
  /-- There is no background task but the one the runtime knows. -/
  current : ∀ t, s.Live t → s.bgConnectTask = some t
  /-- None is left when the backends are being disconnected, or have been. -/
  quiet : s.stopPhase.pastJoin = true → ∀ t, ¬ s.Live t
  /-- The requests of the dispatcher are made in order. -/
  ordered : ∀ d, s.webhookDispatcher = some d →
    d.requests.Pairwise WebhookDispatcher.Request.Before
  /-- It makes none when it has been stopped. -/
  silent : s.stopPhase.pastDispatcher = true → ∀ d, s.webhookDispatcher = some d → ∀ u, ¬ d.Live u

/-! ### The parts of a step -/

variable {s s' : HubRuntime} {t u : TaskId}

theorem phase_setPhase_self (s : HubRuntime) (t : TaskId) (phase : BgPhase) :
    ((s.setPhase t phase).tasks t).phase = phase := by
  simp [setPhase]

theorem live_setPhase {phase : BgPhase} (hlive : s.Live t) (hu : (s.setPhase t phase).Live u) :
    s.Live u := by
  by_cases hut : u = t
  · exact hut ▸ hlive
  · simpa [Live, setPhase, hut] using hu

theorem inFlight?_eq_none (h : s.inFlight? = none) (htask : s.bgConnectTask = some t) :
    ¬ s.Live t := by
  intro hlive
  have hflight : s.inFlight? = some t := by
    rw [inFlight?, htask]
    exact Option.filter_some_pos (decide_eq_true hlive)
  cases h.symm.trans hflight

/-! ### The invariant -/

/-- The dispatcher is used as it should be: starts and stops have been serial, and nobody waits for
a drainer but the call of `stop` that is there. -/
structure DispatcherInv (stopPhase : StopPhase) (d : WebhookDispatcher) : Prop where
  serial : WebhookDispatcher.SerialInv d
  stopping : (∀ u, stopPhase ≠ .stoppingDispatcher u) → d.stopping = []
  waiting : ∀ u, stopPhase = .stoppingDispatcher u → d.stopping = [u]
  silent : stopPhase.pastDispatcher = true → ∀ u, ¬ d.Live u

/-- What holds of a runtime. -/
structure RuntimeInv (s : HubRuntime) : Prop where
  current : ∀ t, s.Live t → s.bgConnectTask = some t
  joining : ∀ t, s.stopPhase = .joining t → s.bgConnectTask = some t
  running : s.stopped = false → s.stopPhase = .idle
  quiet : s.stopPhase.pastJoin = true → ∀ t, ¬ s.Live t
  dispatcher : ∀ d, s.webhookDispatcher = some d → DispatcherInv s.stopPhase d

namespace RuntimeInv

theorem new (webhooks : List String) : RuntimeInv (new webhooks) where
  current t h := absurd rfl h
  joining t h := by cases h
  running _ := rfl
  quiet h := by cases h
  dispatcher d hd := by
    have hd : newDispatcher webhooks = some d := hd
    unfold newDispatcher at hd
    split_ifs at hd
    obtain rfl := Option.some.inj hd
    refine ⟨.new _ _ _, fun _ => rfl, fun u h => ?_, fun h => ?_⟩
    · cases h
    · cases h

/-- A background task goes on, and the dispatcher with it. -/
theorem advance {phase : BgPhase} (h : RuntimeInv s) (hlive : s.Live t)
    (htasks : ∀ u, s'.Live u → (s.setPhase t phase).Live u)
    (hbg : s'.bgConnectTask = s.bgConnectTask) (hstopped : s'.stopped = s.stopped)
    (hstop : s'.stopPhase = s.stopPhase)
    (hdispatcher : ∀ d, s'.webhookDispatcher = some d → DispatcherInv s.stopPhase d) :
    RuntimeInv s' where
  current u hu := hbg ▸ h.current u (live_setPhase hlive (htasks u hu))
  joining u hu := hbg ▸ h.joining u (hstop ▸ hu)
  running hrunning := hstop ▸ h.running (hstopped ▸ hrunning)
  quiet hpast u hu := h.quiet (hstop ▸ hpast) u (live_setPhase hlive (htasks u hu))
  dispatcher d hd := hstop ▸ hdispatcher d hd

/-- `start_background_connect` -/
theorem startBackgroundConnect {postConnect : Bool} (h : RuntimeInv s)
    (hstep : step s (.startBackgroundConnect postConnect) = some s') : RuntimeInv s' := by
  rw [step] at hstep
  split at hstep
  · exact Option.some.inj hstep ▸ h
  rename_i hstopped
  split at hstep
  · exact Option.some.inj hstep ▸ h
  rename_i hflight
  obtain rfl := Option.some.inj hstep
  have hidle : s.stopPhase = .idle := h.running (by simpa using hstopped)
  refine ⟨fun u hu => ?_, fun u hu => ?_, h.running, fun hpast => ?_, h.dispatcher⟩
  · by_cases hut : u = s.nextTask
    · rw [hut]
    · have hlive : s.Live u := by simpa [Live, hut] using hu
      exact absurd hlive (inFlight?_eq_none hflight (h.current u hlive))
  · cases hidle.symm.trans hu
  · have hpast : s.stopPhase.pastJoin = true := hpast
    rw [hidle] at hpast
    cases hpast

/-- The first call of `stop`. -/
theorem stop (h : RuntimeInv s) (hstep : step s .stop = some s') : RuntimeInv s' := by
  rw [step] at hstep
  split at hstep
  · exact Option.some.inj hstep ▸ h
  rename_i hstopped
  have hidle : s.stopPhase = .idle := h.running (by simpa using hstopped)
  have hdispatcher : ∀ phase d, s.webhookDispatcher = some d →
      (∀ u, phase ≠ .stoppingDispatcher u) → phase.pastDispatcher = false →
      DispatcherInv phase d := by
    intro phase d hd hphase hpast
    obtain ⟨hserial, hstopping, -, -⟩ := h.dispatcher d hd
    refine ⟨hserial, fun _ => hstopping (by simp [hidle]), fun u hu => absurd hu (hphase u), ?_⟩
    rw [hpast]
    simp
  split at hstep
  · rename_i t hflight
    obtain rfl := Option.some.inj hstep
    have htask : s.bgConnectTask = some t := (Option.filter_eq_some_iff.mp hflight).1
    refine ⟨fun u hu => h.current u ?_, fun u hu => ?_, fun hr => (by cases hr),
      fun hp => (by cases hp), fun d hd => hdispatcher _ d hd (by simp) rfl⟩
    · by_cases hut : u = t
      · simpa [Live, hut] using hu
      · simpa [Live, hut] using hu
    · exact (StopPhase.joining.inj hu) ▸ htask
  · rename_i hflight
    obtain rfl := Option.some.inj hstep
    refine ⟨h.current, fun u hu => (by cases hu), fun hr => (by cases hr), fun _ u hu => ?_,
      fun d hd => hdispatcher _ d hd (by simp) rfl⟩
    exact inFlight?_eq_none hflight (h.current u hu) hu

/-- The first turn of a background task, in which it starts the dispatcher. -/
theorem begin (h : RuntimeInv s) (hstep : step s (.begin t) = some s') : RuntimeInv s' := by
  rw [step] at hstep
  split_ifs at hstep with hguard
  obtain rfl := Option.some.inj hstep
  have hlive : s.Live t := by simp [Live, hguard.1]
  refine h.advance hlive (fun u hu => hu) rfl rfl rfl fun d' hd' => ?_
  obtain ⟨d, hd, hstart⟩ := Option.bind_eq_some_iff.mp hd'
  obtain ⟨hserial, hstopping, hwaiting, hsilent⟩ := h.dispatcher d hd
  have hphase : s.stopPhase.pastJoin = false := by
    cases hpast : s.stopPhase.pastJoin with
    | false => rfl
    | true => exact absurd hlive (h.quiet hpast t)
  -- Nobody waits for a drainer as long as there is a background task.
  have hnil : d.stopping = [] := hstopping fun u hu => by
    rw [hu] at hphase
    cases hphase
  have hstarts : WebhookDispatcher.Serial d .start := hnil
  have hserial' : WebhookDispatcher.SerialInv d' := hserial.step hstarts hstart
  refine ⟨hserial', fun _ => ?_, fun u hu => ?_, fun hpast => ?_⟩
  · exact (WebhookDispatcher.stopping_start hstart).trans hnil
  · rw [hu] at hphase
    cases hphase
  · cases hstop : s.stopPhase <;> simp_all [StopPhase.pastDispatcher, StopPhase.pastJoin]

theorem connected (h : RuntimeInv s) (hstep : step s (.connected t) = some s') :
    RuntimeInv s' := by
  rw [step] at hstep
  split at hstep
  · rename_i hphase
    obtain rfl := Option.some.inj hstep
    exact h.advance (by simp [Live, hphase]) (fun u hu => hu) rfl rfl rfl h.dispatcher
  · cases hstep

theorem finish (h : RuntimeInv s) (hstep : step s (.finish t) = some s') : RuntimeInv s' := by
  rw [step] at hstep
  split at hstep
  · rename_i hphase
    split_ifs at hstep
    exact Option.some.inj hstep ▸
      h.advance (by simp [Live, hphase]) (fun u hu => hu) rfl rfl rfl h.dispatcher
  · cases hstep
  · rename_i hdone
    exact Option.some.inj hstep ▸
      h.advance (fun heq => hdone heq) (fun u hu => hu) rfl rfl rfl h.dispatcher

/-- `stop` gets to another place, with no background task left and the dispatcher as it should be
there. -/
theorem stopAt {phase : StopPhase} {dispatcher : Option WebhookDispatcher} (h : RuntimeInv s)
    (hstopped : s.stopped = true) (hlive : ∀ u, ¬ s.Live u) (hphase : phase.pastJoin = true)
    (hdispatcher : ∀ d, dispatcher = some d → DispatcherInv phase d) :
    RuntimeInv { s with stopPhase := phase, webhookDispatcher := dispatcher } where
  current := h.current
  joining u hu := by
    have hu : phase = .joining u := hu
    rw [hu] at hphase
    cases hphase
  running hr := by cases hstopped.symm.trans hr
  quiet _ := hlive
  dispatcher := hdispatcher

theorem stopped_of_ne_idle (h : RuntimeInv s) (hphase : s.stopPhase ≠ .idle) :
    s.stopped = true := by
  cases hstopped : s.stopped with
  | true => rfl
  | false => exact absurd (h.running hstopped) hphase

/-- The background task is done, and with it there is none. -/
theorem joined (h : RuntimeInv s) (hstep : step s .joined = some s') : RuntimeInv s' := by
  rw [step] at hstep
  split at hstep
  · rename_i t hphase
    split_ifs at hstep with hdone
    obtain rfl := Option.some.inj hstep
    refine h.stopAt (h.stopped_of_ne_idle (by simp [hphase])) (fun u hu => ?_) rfl fun d hd => ?_
    · have htu := Option.some.inj ((h.joining t hphase).symm.trans (h.current u hu))
      exact hu (htu ▸ hdone)
    · obtain ⟨hserial, hstopping, -, -⟩ := h.dispatcher d hd
      refine ⟨hserial, fun _ => hstopping (by simp [hphase]), fun u hu => ?_, fun hpast => ?_⟩
      · cases hu
      · cases hpast
  · cases hstep

theorem stopDispatcher (h : RuntimeInv s) (hstep : step s .stopDispatcher = some s') :
    RuntimeInv s' := by
  rw [step] at hstep
  split_ifs at hstep with hphase
  have hstopped := h.stopped_of_ne_idle (by simp [hphase])
  have hquiet := h.quiet (by rw [hphase]; rfl)
  split at hstep
  · rename_i hnone
    obtain rfl := Option.some.inj hstep
    refine h.stopAt hstopped hquiet rfl fun d hd => ?_
    cases hnone.symm.trans hd
  · rename_i d hd
    obtain ⟨d', hd', rfl⟩ := Option.map_eq_some_iff.mp hstep
    obtain ⟨hserial, hstopping, -, -⟩ := h.dispatcher d hd
    have hnil : d.stopping = [] := hstopping (by simp [hphase])
    have hstops : WebhookDispatcher.Serial d .stop := hnil
    have hserial' : WebhookDispatcher.SerialInv d' := hserial.step hstops hd'
    have hstop := WebhookDispatcher.stopping_stop hd'
    cases hrunning : d.running? with
    | none =>
      rw [hrunning] at hstop
      refine h.stopAt hstopped hquiet rfl fun d₁ hd₁ => ?_
      obtain rfl := Option.some.inj hd₁
      refine ⟨hserial', fun _ => hstop.1.trans hnil, fun u hu => (by cases hu), fun _ u hu => ?_⟩
      exact hserial.steady.not_live hrunning u (hstop.2 u hu)
    | some u =>
      rw [hrunning] at hstop
      refine h.stopAt hstopped hquiet rfl fun d₁ hd₁ => ?_
      obtain rfl := Option.some.inj hd₁
      refine ⟨hserial', fun hne => absurd rfl (hne u), fun v hv => ?_, fun hpast => ?_⟩
      · obtain rfl := StopPhase.stoppingDispatcher.inj hv
        rw [hstop.1, hnil]
        rfl
      · cases hpast

theorem dispatcherStopped (h : RuntimeInv s) (hstep : step s .dispatcherStopped = some s') :
    RuntimeInv s' := by
  rw [step] at hstep
  split at hstep
  · rename_i u d hphase hd
    obtain ⟨d', hd', rfl⟩ := Option.map_eq_some_iff.mp hstep
    have hserial := (h.dispatcher d hd).serial
    have hquiet := h.quiet (by rw [hphase]; rfl)
    refine h.stopAt (h.stopped_of_ne_idle (by simp [hphase])) hquiet rfl fun d₁ hd₁ => ?_
    obtain rfl := Option.some.inj hd₁
    obtain ⟨hstop, hdead⟩ := hserial.stopped_spec hd'
    have hstopped : WebhookDispatcher.Serial d (.stopped u) := trivial
    refine ⟨hserial.step hstopped hd', fun _ => hstop, fun v hv => ?_, fun _ => hdead⟩
    cases hv
  · cases hstep

theorem stopReturns (h : RuntimeInv s) (hstep : step s .stopReturns = some s') :
    RuntimeInv s' := by
  rw [step] at hstep
  split_ifs at hstep with hphase
  obtain rfl := Option.some.inj hstep
  have hquiet := h.quiet (by rw [hphase]; rfl)
  refine h.stopAt (h.stopped_of_ne_idle (by simp [hphase])) hquiet rfl fun d hd => ?_
  obtain ⟨hserial, hstopping, -, hsilent⟩ := h.dispatcher d hd
  refine ⟨hserial, fun _ => hstopping (by simp [hphase]), fun u hu => (by cases hu), fun _ => ?_⟩
  exact hsilent (by rw [hphase]; rfl)

theorem stopRaises (h : RuntimeInv s) (hstep : step s .stopRaises = some s') :
    RuntimeInv s' := by
  rw [step] at hstep
  split_ifs at hstep with hphase
  obtain rfl := Option.some.inj hstep
  have hquiet := h.quiet (by rw [hphase]; rfl)
  refine h.stopAt (h.stopped_of_ne_idle (by simp [hphase])) hquiet rfl fun d hd => ?_
  obtain ⟨hserial, hstopping, -, -⟩ := h.dispatcher d hd
  refine ⟨hserial, fun _ => hstopping (by simp [hphase]), fun u hu => ?_, fun hpast => ?_⟩
  · cases hu
  · cases hpast

theorem webhook {action : WebhookDispatcher.Action} (h : RuntimeInv s)
    (hstep : step s (.webhook action) = some s') : RuntimeInv s' := by
  rw [step] at hstep
  split at hstep
  · rename_i d hd
    split_ifs at hstep with hinner
    obtain ⟨d', hd', rfl⟩ := Option.map_eq_some_iff.mp hstep
    obtain ⟨hserial, hstopping, hwaiting, hsilent⟩ := h.dispatcher d hd
    obtain ⟨hstop, hlive⟩ := WebhookDispatcher.onward_of_inner hinner hd'
    refine ⟨h.current, h.joining, h.running, h.quiet, fun d₁ hd₁ => ?_⟩
    obtain rfl := Option.some.inj hd₁
    refine ⟨hserial.step (WebhookDispatcher.serial_of_inner hinner) hd',
      fun hne => hstop.trans (hstopping hne), fun u hu => hstop.trans (hwaiting u hu),
      fun hpast u hu => hsilent hpast u (hlive u hu)⟩
  · cases hstep

/-- Every step keeps the invariant. -/
theorem step {action : Action} (h : RuntimeInv s) (hstep : HubRuntime.step s action = some s') :
    RuntimeInv s' := by
  cases action with
  | startBackgroundConnect postConnect => exact h.startBackgroundConnect hstep
  | stop => exact h.stop hstep
  | begin t => exact h.begin hstep
  | connected t => exact h.connected hstep
  | finish t => exact h.finish hstep
  | joined => exact h.joined hstep
  | stopDispatcher => exact h.stopDispatcher hstep
  | dispatcherStopped => exact h.dispatcherStopped hstep
  | stopReturns => exact h.stopReturns hstep
  | stopRaises => exact h.stopRaises hstep
  | webhook action => exact h.webhook hstep

end RuntimeInv

/-! ### Runs -/

/-- **The runtime is safe.** In every run there is at most one background task that is not done, and
none from the moment on in which `stop` begins to disconnect the backends. The dispatcher, which is
started and stopped by these two, makes its requests in order, and none once `stop` has got past
it. -/
theorem runtimeSafe_of_reaches {webhooks : List String}
    (h : Reaches HubRuntime.step (fun _ _ => True) (new webhooks) s) : RuntimeSafe s := by
  have hinv : RuntimeInv s := h.invariant (RuntimeInv.new webhooks) fun hs _ hstep => hs.step hstep
  exact ⟨hinv.current, hinv.quiet, fun d hd => (hinv.dispatcher d hd).serial.steady.ordered,
    fun hpast d hd => (hinv.dispatcher d hd).silent hpast⟩

/-- The runtime is stopped while the backends are being connected and the drainer waits. -/
def stoppedWhileConnecting : List Action :=
  [.startBackgroundConnect true, .begin 0, .webhook (.begin 0), .stop, .startBackgroundConnect true,
    .stop, .finish 0, .joined, .stopDispatcher, .webhook (.unwind 0), .dispatcherStopped,
    .stopReturns]

theorem runtimeSafe_of_reaches_stoppedWhileConnecting :
    ∃ s, Reaches HubRuntime.step (fun _ _ => True) (new ["http://a.example"]) s ∧
      s.stopPhase = .returned ∧ RuntimeSafe s := by
  have hplay : (playFrom HubRuntime.step (fun _ _ => true) (new ["http://a.example"])
      stoppedWhileConnecting).map (·.stopPhase) = some .returned := by rfl
  obtain ⟨s, hs, hphase⟩ := Option.map_eq_some_iff.mp hplay
  have hreach : Reaches HubRuntime.step (fun _ _ => True) (new ["http://a.example"]) s :=
    reaches_of_playFrom (fun _ _ _ => trivial) .start hs
  exact ⟨s, hreach, hphase, runtimeSafe_of_reaches hreach⟩

end HubRuntime

end SlmMcpHub
