import SlmMcpHub.Resilience.Supervisor

/-!
# What a supervisor counts, and what it waits for

Whenever no task runs, and between the rounds of a loop, the attributes of every supervisor are true
to what has happened: the breaker to the failures counted, the cycles to the failures that found it
open, the stop event to the failures nothing can be done about.

A drop event is armed anew in every round, and set by every event that takes the connection out of
CONNECTED. That none is missed while the loop waits for it rests on the subscription, which ends
only after `stop` has set the event itself.

## Main definitions

* `Supervisor.Sound` — the breaker and the alarm are true to the counters
* `Wired` — the events are true to the history
* `LeftSinceArmed` — the connection has left CONNECTED since the last round began

## Main results

* `supervisor_sound` — the counters between the rounds of the loops
* `drop_noticed` — a loop that waits for a drop has not missed one
-/

namespace SlmMcpHub

namespace Resilience

/-! ### Counters -/

/-- The breaker is open when so many failures in a row have been counted, and the alarm is on when
it has been open for so many cycles. -/
def Supervisor.Sound (q : Supervisor) : Prop :=
  1 ≤ q.failureThreshold → (q.breakerOpen = true ↔ q.failureThreshold ≤ q.consecutiveFailures) ∧
    (q.needsAttention = true ↔ q.breakerOpen = true ∧ q.escalationAfter ≤ q.breakerOpenCycles)

/-- A failure that counts as a cycle of the breaker. -/
def Event.isCycle (p : ℕ) : Event → Bool
  | .failed p' .transient breakerOpen => p' = p && breakerOpen
  | _ => false

/-- The transient failures of a supervisor after which its breaker was open. -/
def openCycles (p : ℕ) (history : List Event) : ℕ := history.countP (Event.isCycle p)

/-- The counters of every supervisor are true to what has happened. -/
structure Counted (s : Backend) : Prop where
  sound : ∀ p, (s.supervisors p).Sound
  cycles : ∀ p, (s.supervisors p).breakerOpenCycles = openCycles p s.history

namespace Supervisor

/-- What a transient failure makes of the counters. -/
def afterTransient (q : Supervisor) : Supervisor :=
  let q := q.countFailure
  if q.failureThreshold ≤ q.consecutiveFailures ∧ q.breakerOpen = false then q.tripBreaker
  else if q.breakerOpen = true then q.probeFailed
  else q

theorem Sound.onConnectSuccess {q : Supervisor} : q.onConnectSuccess.Sound := by
  intro hthreshold
  refine ⟨iff_of_false Bool.false_ne_true ?_, iff_of_false Bool.false_ne_true ?_⟩
  · show ¬ q.failureThreshold ≤ ((0 : ℕ) : ℤ)
    have : 1 ≤ q.failureThreshold := hthreshold
    omega
  · exact fun h => Bool.false_ne_true h.1

/-- The first failure at the threshold opens the breaker, and every one after it keeps it open. -/
theorem Sound.afterTransient {q : Supervisor} (h : q.Sound) : q.afterTransient.Sound := by
  intro hthreshold
  obtain ⟨threshold, escalation, failures, attention, _, _, isOpen, cycles, _, _, _, _⟩ := q
  cases isOpen <;> cases attention <;>
    simp only [Sound, Supervisor.afterTransient, countFailure, tripBreaker, probeFailed] at * <;>
    split at hthreshold <;> grind

theorem breakerOpenCycles_afterTransient (q : Supervisor) :
    q.afterTransient.breakerOpenCycles =
      q.breakerOpenCycles + if q.afterTransient.breakerOpen = true then 1 else 0 := by
  obtain ⟨threshold, escalation, failures, attention, _, _, isOpen, cycles, _, _, _, _⟩ := q
  simp only [Supervisor.afterTransient, countFailure, tripBreaker, probeFailed]
  grind

end Supervisor

namespace Backend

@[simp] theorem supervisors_update_self (s : Backend) (p : ℕ) (g : Supervisor → Supervisor) :
    (s.update p g).supervisors p = g (s.supervisors p) := Function.update_self _ _ _

theorem supervisors_update_of_ne (s : Backend) {p q : ℕ} (g : Supervisor → Supervisor)
    (h : q ≠ p) : (s.update p g).supervisors q = s.supervisors q := Function.update_of_ne h _ _

@[simp] theorem supervisors_setEvent (s : Backend) (e : Option ℕ) :
    (s.setEvent e).supervisors = s.supervisors := by
  cases e <;> rfl

@[simp] theorem history_setEvent (s : Backend) (e : Option ℕ) :
    (s.setEvent e).history = s.history := by
  cases e <;> rfl

@[simp] theorem nextSupervisor_setEvent (s : Backend) (e : Option ℕ) :
    (s.setEvent e).nextSupervisor = s.nextSupervisor := by
  cases e <;> rfl

@[simp] theorem nextEvent_setEvent (s : Backend) (e : Option ℕ) :
    (s.setEvent e).nextEvent = s.nextEvent := by
  cases e <;> rfl

@[simp] theorem state_setEvent (s : Backend) (e : Option ℕ) : (s.setEvent e).state = s.state := by
  cases e <;> rfl

theorem events_setEvent {s : Backend} {e : Option ℕ} {d : ℕ} (h : s.events d = true ∨ e = some d) :
    (s.setEvent e).events d = true := by
  cases e with
  | none => exact h.resolve_right nofun
  | some e =>
    show Function.update s.events e true d = true
    rcases eq_or_ne d e with rfl | hne
    · exact Function.update_self _ _ _
    · rw [Function.update_of_ne hne]
      exact h.resolve_right fun hde => hne (Option.some.inj hde).symm

end Backend

namespace Counted

variable {s : Backend}

/-- The counters are kept by whatever leaves them alone and fails nothing. -/
theorem congr (h : Counted s) {s' : Backend}
    (hsound : ∀ p, (s.supervisors p).Sound → (s'.supervisors p).Sound)
    (hcycles : ∀ p, (s'.supervisors p).breakerOpenCycles = (s.supervisors p).breakerOpenCycles)
    (hhistory : ∀ p, openCycles p s'.history = openCycles p s.history) : Counted s' where
  sound p := hsound p (h.sound p)
  cycles p := by rw [hcycles, h.cycles, hhistory]

/-- A change of the attributes of one supervisor. -/
theorem update (h : Counted s) (p : ℕ) {g : Supervisor → Supervisor}
    (hsound : (s.supervisors p).Sound → (g (s.supervisors p)).Sound)
    (hcycles : (g (s.supervisors p)).breakerOpenCycles = (s.supervisors p).breakerOpenCycles) :
    Counted (s.update p g) := by
  refine h.congr (fun q hq => ?_) (fun q => ?_) fun _ => rfl <;> rcases eq_or_ne q p with rfl | hne
  · rw [Backend.supervisors_update_self]
    exact hsound hq
  · rwa [Backend.supervisors_update_of_ne _ _ hne]
  · rw [Backend.supervisors_update_self, hcycles]
  · rw [Backend.supervisors_update_of_ne _ _ hne]

theorem transition (h : Counted s) (target : ConnectionState) : Counted (s.transition target) :=
  h.congr (fun _ => id) (fun _ => rfl) fun _ => by
    simp [openCycles, Backend.transition, Event.isCycle]

theorem setEvent (h : Counted s) (e : Option ℕ) : Counted (s.setEvent e) :=
  h.congr (fun p hp => by rwa [Backend.supervisors_setEvent]) (fun p => by simp) fun p => by simp

theorem armDrop (h : Counted s) (p : ℕ) : Counted (s.armDrop p) :=
  (h.update p (g := fun q => { q with dropEvent := some s.nextEvent }) id rfl).congr
    (fun _ => id) (fun _ => rfl) fun q => by
      simp [openCycles, Backend.armDrop, Backend.update, Event.isCycle]

/-- A failure that is no transient one is no cycle. -/
theorem log (h : Counted s) (p : ℕ) {cls : FailureClass} (hcls : cls ≠ .transient) :
    Counted (s.log p cls) := by
  refine h.congr (fun _ => id) (fun _ => rfl) fun q => ?_
  cases cls with
  | transient => exact absurd rfl hcls
  | _ => simp [openCycles, Backend.log, Event.isCycle]

theorem handleTransient (h : Counted s) (p : ℕ) :
    Counted ((s.handleTransient p).log p .transient) := by
  have hsupervisors : (s.handleTransient p).supervisors =
      Function.update s.supervisors p (s.supervisors p).afterTransient := by
    simp only [Backend.handleTransient, Supervisor.afterTransient, Backend.supervisors_update_self]
    split_ifs <;> simp [Backend.update, Backend.transition]
  have hhistory : ∀ q, openCycles q (s.handleTransient p).history = openCycles q s.history := by
    intro q
    simp only [Backend.handleTransient]
    split_ifs <;> simp [openCycles, Backend.update, Backend.transition, Event.isCycle]
  have hlogged : ∀ q, openCycles q ((s.handleTransient p).log p .transient).history =
      openCycles q s.history +
        if p = q ∧ (s.supervisors p).afterTransient.breakerOpen = true then 1 else 0 := by
    intro q
    rw [← hhistory q, Backend.log, openCycles, List.countP_cons, hsupervisors, Function.update_self]
    simp [openCycles, Event.isCycle]
  refine ⟨fun q => ?_, fun q => ?_⟩
  · show ((s.handleTransient p).supervisors q).Sound
    rw [hsupervisors]
    rcases eq_or_ne q p with rfl | hne
    · rw [Function.update_self]
      exact (h.sound q).afterTransient
    · rw [Function.update_of_ne hne]
      exact h.sound q
  · show ((s.handleTransient p).supervisors q).breakerOpenCycles = _
    rw [hlogged q, hsupervisors, ← h.cycles q]
    rcases eq_or_ne q p with rfl | hne
    · rw [Function.update_self, Supervisor.breakerOpenCycles_afterTransient]
      simp
    · rw [Function.update_of_ne hne, if_neg fun h => hne h.1.symm, Nat.add_zero]

/-- What a failed attempt makes of the counters. -/
theorem handleConnectFailure (h : Counted s) (p : ℕ) (exc : Raised) :
    Counted (s.handleConnectFailure p exc) := by
  have hnoted : Counted (s.update p fun q => q.noteError exc s.state) := h.update p id rfl
  rw [Backend.handleConnectFailure]
  cases classifyFailure exc with
  | auth => exact hnoted.log p nofun
  | terminal => exact ((hnoted.transition _).setEvent _).log p nofun
  | transient => exact hnoted.handleTransient p

end Counted

/-! ### Events -/

/-- The events `stop` sets are set. -/
structure Signalled (s : Backend) (p : ℕ) : Prop where
  stop : s.stopped p = true
  drop : ∀ {d}, (s.supervisors p).dropEvent = some d → s.events d = true

/-- Every loop has one task; the events of a supervisor are its own and of its time; a supervisor
with a failure nothing can be done about is stopped, and begins no round after it; the drop event
of a supervisor is that of its last round, and set when the connection has left CONNECTED since. -/
structure Wired (s : Backend) (f : TaskId → List Call) : Prop where
  fresh : ∀ {p}, s.nextSupervisor ≤ p → s.supervisors p = {}
  born : ∀ {t p}, .supervised p ∈ f t → p < s.nextSupervisor
  alone : ∀ {t u p}, .supervised p ∈ f t → .supervised p ∈ f u → t = u
  stopEvent : ∀ {p}, p < s.nextSupervisor → ∃ e < s.nextEvent, (s.supervisors p).stopEvent = some e
  dropEvent : ∀ {p d}, (s.supervisors p).dropEvent = some d → d < s.nextEvent
  terminal : ∀ {p b}, .failed p .terminal b ∈ s.history → s.stopped p = true
  final : ∀ {newer older p b}, s.history = newer ++ .failed p .terminal b :: older →
    ∀ d, .round p d ∉ newer
  armed : ∀ {newer older p d}, s.history = newer ++ .round p d :: older →
    (∀ d', .round p d' ∉ newer) → (s.supervisors p).dropEvent = some d ∧
      ∀ target, .changed .connected target ∈ newer → target ≠ .connected → s.events d = true
  quiet : ∀ {p}, p < s.nextSupervisor → (s.supervisors p).subscribed = false → Signalled s p
  stopping : ∀ {t p}, .stopping p ∈ f t → p < s.nextSupervisor ∧ Signalled s p
  watching : ∀ {t p d}, .watching p d ∈ f t →
    .supervised p ∈ f t ∧ (s.supervisors p).dropEvent = some d

theorem wired_start (state : ConnectionState) : Wired { state } fun _ => [] where
  fresh _ := rfl
  born ht := by simp at ht
  alone ht := by simp at ht
  stopEvent hp := by simp at hp
  dropEvent hd := by simp at hd
  terminal hmem := by simp at hmem
  final heq := by simp at heq
  armed heq := by simp at heq
  quiet hp := by simp at hp
  stopping ht := by simp at ht
  watching ht := by simp at ht

section Wired

variable {s s' : Backend} {f : TaskId → List Call} {t : TaskId} {st : List Call}

/-- What the events of a supervisor are known by. -/
structure SameWiring (q q' : Supervisor) : Prop where
  stopEvent : q'.stopEvent = q.stopEvent
  dropEvent : q'.dropEvent = q.dropEvent
  subscribed : q'.subscribed = q.subscribed

theorem stopped_mono (hevents : ∀ e, s.events e = true → s'.events e = true) {p : ℕ}
    (hstop : (s'.supervisors p).stopEvent = (s.supervisors p).stopEvent)
    (h : s.stopped p = true) : s'.stopped p = true := by
  rw [Backend.stopped, Option.any_eq_true] at h ⊢
  obtain ⟨e, he, hset⟩ := h
  exact ⟨e, hstop.trans he, hevents e hset⟩

theorem Signalled.mono (hevents : ∀ e, s.events e = true → s'.events e = true) {p : ℕ}
    (hsame : SameWiring (s.supervisors p) (s'.supervisors p)) (h : Signalled s p) :
    Signalled s' p where
  stop := stopped_mono hevents hsame.stopEvent h.stop
  drop hd := hevents _ (h.drop (hsame.dropEvent ▸ hd))

/-- More events are set, and the attributes that have nothing to do with them change. -/
theorem Wired.mono (h : Wired s f) (hevents : ∀ e, s.events e = true → s'.events e = true)
    (hsame : ∀ p, SameWiring (s.supervisors p) (s'.supervisors p))
    (hfresh : ∀ {p}, s'.nextSupervisor ≤ p → s'.supervisors p = {})
    (hsupervisor : s'.nextSupervisor = s.nextSupervisor) (hevent : s'.nextEvent = s.nextEvent)
    (hhistory : s'.history = s.history) : Wired s' f where
  fresh := hfresh
  born ht := hsupervisor ▸ h.born ht
  alone := h.alone
  stopEvent {p} hp := by
    rw [hevent, (hsame p).stopEvent]
    exact h.stopEvent (hsupervisor ▸ hp)
  dropEvent {p d} hd := by
    rw [(hsame p).dropEvent] at hd
    exact hevent ▸ h.dropEvent hd
  terminal {p b} hmem := stopped_mono hevents (hsame p).stopEvent (h.terminal (hhistory ▸ hmem))
  final heq := h.final (hhistory ▸ heq)
  armed {newer older p d} heq hlast := by
    obtain ⟨hdrop, hset⟩ := h.armed (hhistory ▸ heq) hlast
    exact ⟨(hsame p).dropEvent.trans hdrop, fun target hmem hne => hevents _ (hset target hmem hne)⟩
  quiet {p} hp hsub :=
    (h.quiet (hsupervisor ▸ hp) ((hsame p).subscribed ▸ hsub)).mono hevents (hsame p)
  stopping {t p} ht := by
    obtain ⟨hp, hsignal⟩ := h.stopping ht
    exact ⟨hsupervisor ▸ hp, hsignal.mono hevents (hsame p)⟩
  watching {t p d} ht := by
    obtain ⟨hmem, hdrop⟩ := h.watching ht
    exact ⟨hmem, (hsame p).dropEvent.trans hdrop⟩

/-- Attributes change that have nothing to do with the events. -/
theorem Wired.update (h : Wired s f) {p : ℕ} (hp : p < s.nextSupervisor)
    {g : Supervisor → Supervisor} (hsame : ∀ q, SameWiring q (g q)) : Wired (s.update p g) f := by
  refine h.mono (fun _ => id) (fun q => ?_) (fun {q} hq => ?_) rfl rfl rfl
  · rcases eq_or_ne q p with rfl | hne
    · rw [Backend.supervisors_update_self]
      exact hsame _
    · rw [Backend.supervisors_update_of_ne _ _ hne]
      exact ⟨rfl, rfl, rfl⟩
  · have hq : s.nextSupervisor ≤ q := hq
    rw [Backend.supervisors_update_of_ne _ _ (by omega)]
    exact h.fresh hq

theorem Wired.setEvent (h : Wired s f) (e : Option ℕ) : Wired (s.setEvent e) f := by
  refine h.mono (fun d hd => Backend.events_setEvent (Or.inl hd)) (fun p => ?_) (fun {p} hp => ?_)
    (by simp) (by simp) (by simp)
  · rw [Backend.supervisors_setEvent]
    exact ⟨rfl, rfl, rfl⟩
  · rw [Backend.nextSupervisor_setEvent] at hp
    rw [Backend.supervisors_setEvent]
    exact h.fresh hp

/-- One thing happens that begins no round. -/
theorem Wired.happen (h : Wired s f) {event : Event} (hevent : ∀ p d, event ≠ .round p d)
    (hterminal : ∀ p b, event = .failed p .terminal b → s.stopped p = true)
    (hchanged : ∀ target p d, event = .changed .connected target → target ≠ .connected →
      (s.supervisors p).dropEvent = some d → s.events d = true) :
    Wired { s with history := event :: s.history } f where
  fresh := h.fresh
  born := h.born
  alone := h.alone
  stopEvent := h.stopEvent
  dropEvent := h.dropEvent
  terminal {p b} hmem := by
    rcases List.mem_cons.mp hmem with heq | hold
    · exact hterminal p b heq.symm
    · exact h.terminal hold
  final {newer older p b} heq d := by
    cases newer with
    | nil => exact List.not_mem_nil
    | cons first newer =>
      obtain ⟨hfirst, hold⟩ := List.cons.inj heq
      intro hmem
      rcases List.mem_cons.mp hmem with hround | hmem
      · exact hevent p d (hfirst.trans hround.symm)
      · exact h.final hold d hmem
  armed {newer older p d} heq hlast := by
    cases newer with
    | nil => exact absurd (List.cons.inj heq).1 (hevent p d)
    | cons first newer =>
      obtain ⟨hfirst, hold⟩ := List.cons.inj heq
      obtain ⟨hdrop, hset⟩ := h.armed hold fun d' hmem =>
        hlast d' (List.mem_cons_of_mem _ hmem)
      refine ⟨hdrop, fun target hmem hne => ?_⟩
      rcases List.mem_cons.mp hmem with hchange | hmem
      · exact hchanged target p d (hfirst.trans hchange.symm) hne hdrop
      · exact hset target hmem hne
  quiet hp hsub := ⟨(h.quiet hp hsub).stop, (h.quiet hp hsub).drop⟩
  stopping ht := ⟨(h.stopping ht).1, (h.stopping ht).2.stop, (h.stopping ht).2.drop⟩
  watching := h.watching

/-- A change of the state: who has subscribed is told, and nobody else waits for it. -/
theorem Wired.transition (h : Wired s f) (target : ConnectionState) :
    Wired (s.transition target) f := by
  have hgrown : Wired { s with state := target, events := fun e => s.events e || s.captured e } f :=
    h.mono (fun e he => by simp [he]) (fun p => ⟨rfl, rfl, rfl⟩) h.fresh rfl rfl rfl
  refine hgrown.happen nofun nofun fun target' p d heq hne hdrop => ?_
  have hstate : s.state = .connected := by
    injection heq
  show (s.events d || s.captured d) = true
  have hp : p < s.nextSupervisor := by
    by_contra hge
    have hnone : (s.supervisors p).dropEvent = none := by
      rw [h.fresh (Nat.le_of_not_lt hge)]
    cases hnone.symm.trans hdrop
  cases hsub : (s.supervisors p).subscribed with
  | false => rw [(h.quiet hp hsub).drop hdrop, Bool.true_or]
  | true =>
    have hcaptured : s.captured d = true := by
      rw [Backend.captured, Bool.and_eq_true, decide_eq_true_eq, List.any_eq_true]
      refine ⟨hstate, p, List.mem_range.mpr hp, ?_⟩
      have hdrop' : (s.supervisors p).dropEvent = some d := hdrop
      rw [hsub, hdrop']
      simp
    rw [hcaptured, Bool.or_true]

theorem Wired.log (h : Wired s f) {p : ℕ} {cls : FailureClass}
    (hstop : cls = .terminal → s.stopped p = true) : Wired (s.log p cls) f := by
  refine h.happen nofun (fun q b heq => ?_) nofun
  injection heq with hp hcls
  exact hp ▸ hstop hcls

/-- What a failed attempt makes of the events: a failure that is final stops the loop. -/
theorem Wired.handleConnectFailure (h : Wired s f) {p : ℕ} (hp : p < s.nextSupervisor)
    (exc : Raised) : Wired (s.handleConnectFailure p exc) f := by
  have hnoted : Wired (s.update p fun q => q.noteError exc s.state) f :=
    h.update hp fun _ => ⟨rfl, rfl, rfl⟩
  rw [Backend.handleConnectFailure]
  cases classifyFailure exc with
  | auth => exact hnoted.log nofun
  | terminal =>
    refine ((hnoted.transition .failed).setEvent _).log fun _ => ?_
    obtain ⟨e, -, he⟩ := h.stopEvent hp
    have hstop : ((s.update p fun q => q.noteError exc s.state).supervisors p).stopEvent =
        some e := by
      rw [Backend.supervisors_update_self]
      exact he
    rw [Backend.stopped, Backend.supervisors_setEvent, Option.any_eq_true]
    exact ⟨e, hstop, Backend.events_setEvent (Or.inr hstop)⟩
  | transient =>
    refine Wired.log ?_ nofun
    have hcounted := hnoted.update hp (g := Supervisor.countFailure) fun _ => ⟨rfl, rfl, rfl⟩
    simp only [Backend.handleTransient]
    split_ifs
    · refine (hcounted.transition .circuitOpen).update hp fun q => ?_
      rw [Supervisor.tripBreaker]
      split_ifs <;> exact ⟨rfl, rfl, rfl⟩
    · refine (hcounted.transition .circuitOpen).update hp fun q => ?_
      rw [Supervisor.probeFailed]
      split_ifs <;> exact ⟨rfl, rfl, rfl⟩
    · exact hcounted.transition .reconnecting

/-- A round begins: the drop event is a new one, and nothing has happened since. -/
theorem Wired.armDrop (h : Wired s f) {p : ℕ} (ht : f t = [.supervised p])
    (hrunning : s.stopped p = false) : Wired (s.armDrop p) f := by
  have hmem : Call.supervised p ∈ f t := by simp [ht]
  have hp := h.born hmem
  have hkept : ∀ {e}, e < s.nextEvent → s.events e = true → (s.armDrop p).events e = true :=
    fun {e} he hset => (Function.update_of_ne (Nat.ne_of_lt he) _ _).trans hset
  have hother : ∀ {q}, q ≠ p → (s.armDrop p).supervisors q = s.supervisors q :=
    fun hq => Function.update_of_ne hq _ _
  have hself : (s.armDrop p).supervisors p =
      { s.supervisors p with dropEvent := some s.nextEvent } :=
    Function.update_self _ _ _
  have hstop : ∀ q, ((s.armDrop p).supervisors q).stopEvent = (s.supervisors q).stopEvent := by
    intro q
    rcases eq_or_ne q p with rfl | hq
    · rw [hself]
    · rw [hother hq]
  have hstopped : ∀ {q}, q < s.nextSupervisor → s.stopped q = true →
      (s.armDrop p).stopped q = true := by
    intro q hq hset
    obtain ⟨e, he, hq⟩ := h.stopEvent hq
    rw [Backend.stopped, hq] at hset
    rw [Backend.stopped, hstop, hq]
    exact hkept he hset
  have hsignal : ∀ {q}, q < s.nextSupervisor → Signalled s q → Signalled (s.armDrop p) q := by
    intro q hq hsignal
    have hne : q ≠ p := by
      rintro rfl
      exact Bool.false_ne_true (hrunning.symm.trans hsignal.stop)
    refine ⟨hstopped hq hsignal.stop, fun {d} hd => ?_⟩
    rw [hother hne] at hd
    exact hkept (h.dropEvent hd) (hsignal.drop hd)
  refine ⟨fun {q} hq => ?_, h.born, h.alone, fun {q} hq => ?_, fun {q d} hd => ?_,
    fun {q b} hmem => ?_, fun {newer older q b} heq d => ?_,
    fun {newer older q d} heq hlast => ?_, fun {q} hq hsub => ?_, fun {u q} hu => ?_,
    fun {u q d} hu => ?_⟩
  · have hq : s.nextSupervisor ≤ q := hq
    rw [hother (by omega)]
    exact h.fresh hq
  · obtain ⟨e, he, hq⟩ := h.stopEvent hq
    exact ⟨e, Nat.lt_succ_of_lt he, (hstop q).trans hq⟩
  · show d < s.nextEvent + 1
    rcases eq_or_ne q p with rfl | hq
    · rw [hself] at hd
      cases hd
      omega
    · rw [hother hq] at hd
      have := h.dropEvent hd
      omega
  · have hfailed : Event.failed q .terminal b ∈ s.history := by
      simpa [Backend.armDrop] using hmem
    have hset := h.terminal hfailed
    rw [Backend.stopped, Option.any_eq_true] at hset
    obtain ⟨e, he, -⟩ := hset
    refine hstopped ?_ (h.terminal hfailed)
    by_contra hge
    rw [h.fresh (Nat.le_of_not_lt hge)] at he
    cases he
  · cases newer with
    | nil => exact List.not_mem_nil
    | cons first newer =>
      obtain ⟨hfirst, hold⟩ := List.cons.inj heq
      intro hmem
      rcases List.mem_cons.mp hmem with hround | hmem
      · obtain ⟨rfl, -⟩ : p = q ∧ s.nextEvent = d := by
          simpa using hfirst.trans hround.symm
        have hset := h.terminal (p := p) (b := b) (by
          rw [hold]
          exact List.mem_append_right _ List.mem_cons_self)
        exact Bool.false_ne_true (hrunning.symm.trans hset)
      · exact h.final hold d hmem
  · cases newer with
    | nil =>
      obtain ⟨rfl, rfl⟩ : p = q ∧ s.nextEvent = d := by
        simpa using (List.cons.inj heq).1
      refine ⟨by rw [hself], fun target hmem => absurd hmem List.not_mem_nil⟩
    | cons first newer =>
      obtain ⟨rfl, hold⟩ := List.cons.inj heq
      have hne : q ≠ p := by
        rintro rfl
        exact hlast _ List.mem_cons_self
      obtain ⟨hdrop, hset⟩ := h.armed hold fun d' hmem => hlast d' (List.mem_cons_of_mem _ hmem)
      refine ⟨by rw [hother hne, hdrop], fun target hmem htarget => ?_⟩
      have hmem : Event.changed .connected target ∈ newer := by
        simpa using hmem
      exact hkept (h.dropEvent hdrop) (hset target hmem htarget)
  · refine hsignal hq (h.quiet hq ?_)
    rcases eq_or_ne q p with rfl | hq
    · rwa [hself] at hsub
    · rwa [hother hq] at hsub
  · exact ⟨(h.stopping hu).1, hsignal (h.stopping hu).1 (h.stopping hu).2⟩
  · obtain ⟨hloop, hdrop⟩ := h.watching hu
    have hne : q ≠ p := by
      rintro rfl
      rw [h.alone hloop hmem, ht] at hu
      simp at hu
    exact ⟨hloop, by rw [hother hne, hdrop]⟩

/-- A change of one stack in which no loop begins. -/
theorem Wired.restack (h : Wired s f) (hloop : ∀ p, .supervised p ∈ st → .supervised p ∈ f t)
    (hstopping : ∀ p, .stopping p ∈ st → p < s.nextSupervisor ∧ Signalled s p)
    (hwatching : ∀ p d, .watching p d ∈ st →
      .supervised p ∈ st ∧ (s.supervisors p).dropEvent = some d) :
    Wired s (Function.update f t st) := by
  have hloop' : ∀ {u p}, .supervised p ∈ Function.update f t st u → .supervised p ∈ f u := by
    intro u p hu
    rcases mem_update_iff.mp hu with ⟨rfl, hst⟩ | ⟨-, hmem⟩
    · exact hloop p hst
    · exact hmem
  refine ⟨h.fresh, fun hu => h.born (hloop' hu), fun hu hv => h.alone (hloop' hu) (hloop' hv),
    h.stopEvent, h.dropEvent, h.terminal, h.final, h.armed, h.quiet, fun {u p} hu => ?_,
    fun {u p d} hu => ?_⟩
  · rcases mem_update_iff.mp hu with ⟨rfl, hst⟩ | ⟨-, hmem⟩
    · exact hstopping p hst
    · exact h.stopping hmem
  · rcases mem_update_iff.mp hu with ⟨rfl, hst⟩ | ⟨hne, hmem⟩
    · rw [Function.update_self]
      exact hwatching p d hst
    · rw [Function.update_of_ne hne]
      exact h.watching hmem

/-- `stop` sets the events of its supervisor. -/
theorem Wired.signal (h : Wired s f) {p : ℕ} (hp : p < s.nextSupervisor) :
    Signalled (Act.eval s (.signal p)) p := by
  obtain ⟨e, -, he⟩ := h.stopEvent hp
  refine ⟨?_, fun {d} hd => ?_⟩
  · show Option.any _ ((((s.setEvent _).setEvent _).supervisors p).stopEvent) = true
    rw [Backend.supervisors_setEvent, Backend.supervisors_setEvent, he]
    exact Backend.events_setEvent (Or.inl (Backend.events_setEvent (Or.inr he)))
  · replace hd : (((s.setEvent _).setEvent _).supervisors p).dropEvent = some d := hd
    rw [Backend.supervisors_setEvent, Backend.supervisors_setEvent] at hd
    exact Backend.events_setEvent (Or.inr hd)

/-- A supervisor whose events are set may leave the subscribers. -/
theorem Wired.unsubscribe (h : Wired s f) {p : ℕ} (hp : p < s.nextSupervisor)
    (hsignal : Signalled s p) :
    Wired (s.update p fun q => { q with subscribed := false }) f := by
  have hother : ∀ {q}, q ≠ p →
      (s.update p fun q => { q with subscribed := false }).supervisors q = s.supervisors q :=
    fun hq => Backend.supervisors_update_of_ne _ _ hq
  have hself : (s.update p fun q => { q with subscribed := false }).supervisors p =
      { s.supervisors p with subscribed := false } :=
    Backend.supervisors_update_self _ _ _
  have hstop : ∀ q, ((s.update p fun q => { q with subscribed := false }).supervisors q).stopEvent =
      (s.supervisors q).stopEvent := by
    intro q
    rcases eq_or_ne q p with rfl | hq
    · rw [hself]
    · rw [hother hq]
  have hdrop : ∀ q, ((s.update p fun q => { q with subscribed := false }).supervisors q).dropEvent =
      (s.supervisors q).dropEvent := by
    intro q
    rcases eq_or_ne q p with rfl | hq
    · rw [hself]
    · rw [hother hq]
  have hstopped : ∀ {q}, s.stopped q = true →
      (s.update p fun q => { q with subscribed := false }).stopped q = true := by
    intro q hset
    rwa [Backend.stopped, hstop]
  have hkept : ∀ {q}, Signalled s q →
      Signalled (s.update p fun q => { q with subscribed := false }) q :=
    fun {q} hq => ⟨hstopped hq.stop, fun hd => hq.drop (hdrop q ▸ hd)⟩
  refine ⟨fun {q} hq => ?_, h.born, h.alone, fun {q} hq => ?_, fun {q d} hd => ?_,
    fun {q b} hmem => ?_, h.final, fun heq hlast => ?_, fun {q} hq hsub => ?_, fun {u q} hu => ?_,
    fun {u q d} hu => ?_⟩
  · have hq : s.nextSupervisor ≤ q := hq
    rw [hother (by omega)]
    exact h.fresh hq
  · rw [hstop]
    exact h.stopEvent hq
  · rw [hdrop] at hd
    exact h.dropEvent hd
  · exact hstopped (h.terminal hmem)
  · obtain ⟨hlastDrop, hset⟩ := h.armed heq hlast
    exact ⟨(hdrop _).trans hlastDrop, hset⟩
  · rcases eq_or_ne q p with rfl | hne
    · exact hkept hsignal
    · rw [hother hne] at hsub
      exact hkept (h.quiet hq hsub)
  · exact ⟨(h.stopping hu).1, hkept (h.stopping hu).2⟩
  · exact ⟨(h.watching hu).1, (hdrop q).trans (h.watching hu).2⟩

/-- A supervisor has been made and started, with its loop in the task `n`. -/
def Backend.launched (s : Backend) (failureThreshold escalationAfter : ℤ) (n : TaskId) : Backend :=
  ((s.create failureThreshold escalationAfter).makeStop s.nextSupervisor).update s.nextSupervisor
    fun q => { q with task := some n }

theorem supervisors_launched_self (s : Backend) (a b : ℤ) (n : TaskId) :
    (s.launched a b n).supervisors s.nextSupervisor =
      { failureThreshold := a, escalationAfter := b, subscribed := true,
        stopEvent := some s.nextEvent, task := some n } := by
  simp [Backend.launched, Backend.makeStop, Backend.update, Backend.create]

theorem supervisors_launched_of_ne (s : Backend) (a b : ℤ) (n : TaskId) {q : ℕ}
    (hq : q ≠ s.nextSupervisor) : (s.launched a b n).supervisors q = s.supervisors q := by
  simp [Backend.launched, Backend.makeStop, Backend.update, Backend.create, hq]

theorem Wired.launched (h : Wired s f) (a b : ℤ) (n : TaskId) :
    Wired (s.launched a b n) (Function.update f n [.supervised s.nextSupervisor]) := by
  have hkept : ∀ {e}, e < s.nextEvent → s.events e = true →
      (s.launched a b n).events e = true :=
    fun {e} he hset => (Function.update_of_ne (Nat.ne_of_lt he) _ _).trans hset
  have hnew : s.supervisors s.nextSupervisor = {} := h.fresh (Nat.le_refl _)
  have hold : ∀ {q}, q < s.nextSupervisor →
      (s.launched a b n).supervisors q = s.supervisors q :=
    fun hq => supervisors_launched_of_ne s a b n (Nat.ne_of_lt hq)
  have hstopped : ∀ {q}, q < s.nextSupervisor → s.stopped q = true →
      (s.launched a b n).stopped q = true := by
    intro q hq hset
    obtain ⟨e, he, hstop⟩ := h.stopEvent hq
    rw [Backend.stopped, hstop] at hset
    rw [Backend.stopped, hold hq, hstop]
    exact hkept he hset
  have hsignal : ∀ {q}, q < s.nextSupervisor → Signalled s q →
      Signalled (s.launched a b n) q := by
    intro q hq hsignal
    refine ⟨hstopped hq hsignal.stop, fun {d} hd => ?_⟩
    rw [hold hq] at hd
    exact hkept (h.dropEvent hd) (hsignal.drop hd)
  have hdrop : ∀ {q d}, (s.supervisors q).dropEvent = some d → q < s.nextSupervisor := by
    intro q d hd
    by_contra hge
    rw [h.fresh (Nat.le_of_not_lt hge)] at hd
    cases hd
  have hstack : ∀ {u q}, .supervised q ∈ Function.update f n [.supervised s.nextSupervisor] u →
      (u = n ∧ q = s.nextSupervisor) ∨ .supervised q ∈ f u := by
    intro u q hu
    rcases mem_update_iff.mp hu with ⟨rfl, hst⟩ | ⟨-, hmem⟩
    · exact Or.inl ⟨rfl, by simpa using hst⟩
    · exact Or.inr hmem
  refine ⟨fun {q} hq => ?_, fun {u q} hu => ?_, fun {u v q} hu hv => ?_, fun {q} hq => ?_,
    fun {q d} hd => ?_, fun {q b} hmem => ?_, h.final, fun {newer older q d} heq hlast => ?_,
    fun {q} hq hsub => ?_, fun {u q} hu => ?_, fun {u q d} hu => ?_⟩
  · have hq : s.nextSupervisor + 1 ≤ q := hq
    rw [supervisors_launched_of_ne s a b n (by omega)]
    exact h.fresh (by omega)
  · show q < s.nextSupervisor + 1
    rcases hstack hu with ⟨-, rfl⟩ | hmem
    · omega
    · have := h.born hmem
      omega
  · rcases hstack hu with ⟨rfl, rfl⟩ | hmem <;> rcases hstack hv with ⟨rfl, hqv⟩ | hmem'
    · rfl
    · exact absurd (h.born hmem') (Nat.lt_irrefl _)
    · exact absurd (hqv ▸ h.born hmem) (Nat.lt_irrefl _)
    · exact h.alone hmem hmem'
  · have hq : q < s.nextSupervisor + 1 := hq
    rcases eq_or_ne q s.nextSupervisor with rfl | hne
    · exact ⟨s.nextEvent, Nat.lt_succ_self _, by rw [supervisors_launched_self]⟩
    · obtain ⟨e, he, hstop⟩ := h.stopEvent (p := q) (by omega)
      exact ⟨e, Nat.lt_succ_of_lt he, by rw [hold (by omega), hstop]⟩
  · rcases eq_or_ne q s.nextSupervisor with rfl | hne
    · rw [supervisors_launched_self] at hd
      cases hd
    · rw [supervisors_launched_of_ne s a b n hne] at hd
      exact Nat.lt_succ_of_lt (h.dropEvent hd)
  · have hset := h.terminal hmem
    refine hstopped ?_ hset
    by_contra hge
    rw [Backend.stopped, h.fresh (Nat.le_of_not_lt hge)] at hset
    cases hset
  · obtain ⟨hlastDrop, hset⟩ := h.armed heq hlast
    refine ⟨by rw [hold (hdrop hlastDrop), hlastDrop], fun target hmem hne => ?_⟩
    exact hkept (h.dropEvent hlastDrop) (hset target hmem hne)
  · have hq : q < s.nextSupervisor + 1 := hq
    rcases eq_or_ne q s.nextSupervisor with rfl | hne
    · rw [supervisors_launched_self] at hsub
      cases hsub
    · rw [supervisors_launched_of_ne s a b n hne] at hsub
      exact hsignal (by omega) (h.quiet (by omega) hsub)
  · rcases mem_update_iff.mp hu with ⟨-, hst⟩ | ⟨-, hmem⟩
    · simp at hst
    · obtain ⟨hq, hsignalled⟩ := h.stopping hmem
      exact ⟨Nat.lt_succ_of_lt hq, hsignal hq hsignalled⟩
  · rcases mem_update_iff.mp hu with ⟨-, hst⟩ | ⟨hne, hmem⟩
    · simp at hst
    · obtain ⟨hloop, hwatched⟩ := h.watching hmem
      rw [Function.update_of_ne hne, hold (h.born hloop)]
      exact ⟨hloop, hwatched⟩

theorem Counted.launched (h : Counted s) (hnew : s.supervisors s.nextSupervisor = {}) (a b : ℤ)
    (n : TaskId) : Counted (s.launched a b n) := by
  refine ⟨fun q => ?_, fun q => ?_⟩ <;> rcases eq_or_ne q s.nextSupervisor with rfl | hne
  · rw [supervisors_launched_self]
    intro hthreshold
    refine ⟨iff_of_false Bool.false_ne_true ?_, iff_of_false Bool.false_ne_true ?_⟩
    · show ¬ a ≤ ((0 : ℕ) : ℤ)
      have : 1 ≤ a := hthreshold
      omega
    · exact fun h => Bool.false_ne_true h.1
  · rw [supervisors_launched_of_ne s a b n hne]
    exact h.sound q
  · rw [supervisors_launched_self]
    have hcycles := h.cycles s.nextSupervisor
    rw [hnew] at hcycles
    exact hcycles
  · rw [supervisors_launched_of_ne s a b n hne]
    exact h.cycles q

end Wired

/-! ### What holds from wait to wait -/

/-- Counters and events are true to what has happened. -/
structure Reliable (s : Backend) (f : TaskId → List Call) : Prop where
  counted : Counted s
  wired : Wired s f

theorem reliable_start (state : ConnectionState) : Reliable { state } fun _ => [] where
  counted := ⟨fun p hthreshold => by simp at hthreshold ⊢, fun p => rfl⟩
  wired := wired_start state

section Contracts

/-- Every statement is allowed. -/
abbrev anyStatement : World supervisionSignature → TaskId → Stmt supervisionSignature → Prop :=
  fun _ _ _ => True

/-- A task is at rest with a stack. -/
abbrev Calm (st : List Call) (t : TaskId) (w : World supervisionSignature) : Prop :=
  Op.Calm Reliable st t w

/-- The contract of an operation run with the stack `st`. -/
def Steady {α : Type} (st : List Call) (p : SupervisorOp α) : Prop :=
  Op.Settles supervision anyStatement anyStatement Reliable st p

/-- What an operation needs of a world to end in a postcondition. -/
abbrev Leads {α : Type} (t : TaskId) (p : SupervisorOp α)
    (Q : Except Raised α → World supervisionSignature → Prop) (w : World supervisionSignature) :
    Prop :=
  Op.settles supervision anyStatement anyStatement Reliable t p Q w

variable {α : Type} {st : List Call} {t : TaskId} {w : World supervisionSignature} {p : ℕ}

theorem leads_act {a : Act} {Q : Except Raised Unit → World supervisionSignature → Prop}
    (h : Q (.ok ()) (w.exec supervision t (.act a))) : Leads t (act a) Q w :=
  fun _ => ⟨trivial, h⟩

theorem steady_act {a : Act}
    (h : ∀ t s f, f t = st → Reliable s f → Reliable (a.eval s) f) : Steady st (act a) :=
  fun t _ hw => leads_act (hw.act (h t _ _ hw.frames hw.inv))

theorem steady_transition (target : ConnectionState) : Steady st (act (.transition target)) :=
  steady_act fun _ _ _ _ h => ⟨h.counted.transition target, h.wired.transition target⟩

theorem steady_wait (wt : Wait) : Steady st (wait wt) :=
  Op.Settles.await fun _ _ _ hw => hw

theorem leads_caught {q : SupervisorOp Unit}
    {Q : Except Raised (Except Raised Unit) → World supervisionSignature → Prop}
    (h : Leads t q (fun r => Q (.ok r)) w) : Leads t (caught q) Q w :=
  Coro.settles_bind.mpr h

theorem steady_caught {q : SupervisorOp Unit} (hq : Steady st q) : Steady st (caught q) :=
  fun t w hw => leads_caught (hq t w hw)

theorem steady_when {c : Prop} [Decidable c] {q : SupervisorOp Unit} (hq : Steady st q) :
    Steady st (when c q) :=
  Op.Settles.ite hq (Op.Settles.pure ())

theorem steady_whenSome {o : Option ℕ} {q : ℕ → SupervisorOp Unit}
    (hq : ∀ e, o = some e → Steady st (q e)) : Steady st (whenSome o q) := by
  cases o with
  | none => exact Op.Settles.throw _
  | some e => exact hq e rfl

/-! ### The loop -/

/-- What is known of an attempt that has ended. -/
def AttemptEnd (st : List Call) (t : TaskId) :
    Except Raised Unit → World supervisionSignature → Prop
  | .ok (), w => Calm st t w ∧
    (Backend.state w.state = .connected ∨ Backend.state w.state = .authRequired)
  | .error exc, w => Calm st t w ∧
    (exc.isinstance [.connectionError] = true ∨ exc.isinstance [.exception] = false)

theorem leads_finishConnect (hw : Calm st t w) (ended : Except Raised Unit) :
    Leads t (finishConnect ended) (AttemptEnd st t) w := by
  have hchanged : ∀ target, Calm st t (w.exec supervision t (.act (.transition target))) :=
    fun target => hw.act ⟨hw.inv.counted.transition target, hw.inv.wired.transition target⟩
  cases ended with
  | ok u => exact leads_act ⟨hchanged _, Or.inl rfl⟩
  | error exc =>
    show Leads t (if exc.isinstance [.oAuthAuthRequiredError] then act (.transition .authRequired)
      else if exc.isinstance [.connectionError] then _ else if exc.isinstance [.exception] then _
      else throw exc) _ w
    split_ifs with hauth hconnection hexception
    · exact leads_act ⟨hchanged _, Or.inr rfl⟩
    · exact Op.settles_bind.mpr (leads_act ⟨hchanged _, Or.inl hconnection⟩)
    · exact Op.settles_bind.mpr (leads_act ⟨hchanged _, Or.inl rfl⟩)
    · exact ⟨hw, Or.inr (by simpa using hexception)⟩

/-- An attempt returns when the connection is there or needs a login, and raises nothing but
`ConnectionError` and what is no `Exception`. -/
theorem leads_connect (hw : Calm st t w) : Leads t connect (AttemptEnd st t) w := by
  refine Op.settles_bind.mpr ?_
  show Leads t (if Backend.state w.state = .connected then pure () else _) _ w
  split_ifs with hconnected
  · exact ⟨hw, Or.inl hconnected⟩
  · refine Op.settles_bind.mpr (leads_act ?_)
    have hconnecting : Calm st t (w.exec supervision t (.act (.transition .connecting))) :=
      hw.act ⟨hw.inv.counted.transition _, hw.inv.wired.transition _⟩
    exact Op.settles_bind.mpr (leads_caught (hconnecting.await fun r w' hw' _ =>
      leads_finishConnect hw'.resumed r))

/-- The loop goes on with the next round. -/
theorem leads_nextRound (hw : Calm [.supervised p] t w)
    {Q : Except Raised Unit → World supervisionSignature → Prop} : Leads t (nextRound p) Q w := by
  refine fun _ => ⟨trivial, ?_⟩
  rw [← hw.frames, Function.update_eq_self]
  exact hw.inv

theorem steady_nextRound : Steady [.supervised p] (nextRound p) := fun _ _ hw => leads_nextRound hw

theorem steady_waitStop : Steady st (waitStop p) :=
  Op.Settles.get_bind fun t w hw => steady_whenSome (fun _ _ => steady_wait _) t w hw

theorem steady_ofExcept (ended : Except Raised Unit) : Steady st (ofExcept ended) := by
  cases ended with
  | ok u => exact Op.Settles.pure ()
  | error exc => exact Op.Settles.throw exc

/-- The loop watches the drop event of its supervisor. -/
theorem steady_waitForDropOrStop : Steady [.supervised p] (waitForDropOrStop p) := by
  refine Op.Settles.get_bind fun t w hw => ?_
  split_ifs
  · cases hdrop : (Backend.supervisors w.state p).dropEvent with
    | none => exact Op.Settles.throw _ t w hw
    | some drop =>
      cases (Backend.supervisors w.state p).stopEvent with
      | none => exact Op.Settles.throw _ t w hw
      | some stop =>
        have hloop : Call.supervised p ∈ w.frames t := by simp [hw.frames]
        have hwatch : Reliable w.state
            (Function.update w.frames t [.watching p drop, .supervised p]) := by
          refine ⟨hw.inv.counted, hw.inv.wired.restack (fun q hq => ?_) (by simp) fun q d hq => ?_⟩
          · obtain rfl : q = p := by simpa using hq
            exact hloop
          · obtain ⟨rfl, rfl⟩ : q = p ∧ d = drop := by simpa using hq
            exact ⟨by simp, hdrop⟩
        refine Op.settles_bind.mpr (leads_caught (Op.settles_mono (hw.within
          trivial (fun _ => trivial) hwatch (fun s f hf h => ?_) (steady_wait _)) fun r w' hw' =>
            Op.Settles.bind (steady_caught (steady_wait .turn))
              (fun _ => steady_ofExcept r) t w' hw'))
        exact ⟨h.counted, h.wired.restack (by simp [hf]) (by simp) (by simp)⟩
  · exact hw

/-- A round that begins arms the drop event, and a round that ends has counted its outcome. -/
theorem leads_afterAttempt {ended : Except Raised Unit}
    (hw : AttemptEnd [.supervised p] t ended w) :
    Leads t (afterAttempt p ended) (fun _ => Calm [.supervised p] t) w := by
  cases ended with
  | ok u =>
    obtain ⟨hw, hstate⟩ := hw
    refine Op.settles_bind.mpr ?_
    show Leads t (if Backend.state w.state = .authRequired then waitStop p
      else if Backend.state w.state ≠ .connected then _ else _) _ w
    split_ifs with hauth hconnected
    · exact steady_waitStop t w hw
    · exact absurd hstate (not_or_intro hconnected hauth)
    · have hp : p < Backend.nextSupervisor w.state :=
        hw.inv.wired.born (t := t) (by simp [hw.frames])
      have hsuccess : Calm [.supervised p] t (w.exec supervision t (.act (.onConnectSuccess p))) :=
        hw.act ⟨⟨(hw.inv.counted.update p (fun _ => Supervisor.Sound.onConnectSuccess) rfl).sound,
          (hw.inv.counted.update p (fun _ => Supervisor.Sound.onConnectSuccess) rfl).cycles⟩,
          hw.inv.wired.update hp fun _ => ⟨rfl, rfl, rfl⟩⟩
      refine Op.settles_bind.mpr (leads_act ?_)
      exact Op.Settles.bind steady_waitForDropOrStop (fun _ => Op.Settles.get_bind fun t w hw =>
        Op.Settles.ite (Op.Settles.pure ()) steady_nextRound t w hw) t _ hsuccess
  | error exc =>
    obtain ⟨hw, hraised⟩ := hw
    show Leads t (if exc.isinstance [.cancelledError] then throw exc
      else if exc.isinstance [.connectionError] then _ else if exc.isinstance [.exception] then _
      else throw exc) _ w
    split_ifs with hcancelled hconnection hexception hauth
    · exact hw
    · have hp : p < Backend.nextSupervisor w.state :=
        hw.inv.wired.born (t := t) (by simp [hw.frames])
      have hfailed : Calm [.supervised p] t
          (w.exec supervision t (.act (.handleConnectFailure p exc))) :=
        hw.act ⟨hw.inv.counted.handleConnectFailure p exc, hw.inv.wired.handleConnectFailure hp exc⟩
      have hretry : Steady [.supervised p] (awaitRetry p (classifyFailure exc)) := by
        cases classifyFailure exc with
        | auth => exact steady_waitStop
        | terminal => exact Op.Settles.pure ()
        | transient => exact steady_wait _
      exact Op.settles_bind.mpr (leads_act
        (Op.Settles.bind hretry (fun _ => steady_nextRound) t _ hfailed))
    · simp_all
    · simp_all
    · exact hw

theorem steady_supervisedLoop : Steady [.supervised p] (supervisedLoop p) := by
  refine Op.Settles.get_bind fun t w hw => ?_
  split_ifs with hstopped
  · exact hw
  · have harmed : Calm [.supervised p] t (w.exec supervision t (.act (.armDrop p))) :=
      hw.act ⟨hw.inv.counted.armDrop p,
        hw.inv.wired.armDrop hw.frames (by simpa using hstopped)⟩
    refine Op.settles_bind.mpr (leads_act (Op.settles_bind.mpr (Op.settles_mono
      (steady_when (steady_transition .reconnecting) t _ harmed) fun r w' hw' => ?_)))
    cases r with
    | error exc => exact hw'
    | ok u =>
      exact Op.settles_bind.mpr (leads_caught (Op.settles_mono (leads_connect hw')
        fun r w' hw' => leads_afterAttempt hw'))

/-! ### Starting and stopping -/

/-- The world after a supervisor has been made and started. -/
def launchedWorld (w : World supervisionSignature) (a b : ℤ) : World supervisionSignature :=
  { (w.born supervision (.supervised (Backend.nextSupervisor w.state))) with
    state := Backend.launched w.state a b w.next }

theorem steady_launch (a b : ℤ) : Steady [.launch a b] (launch a b) := by
  refine Op.Settles.get_bind fun t w hw => Op.settles_bind.mpr (leads_act ?_)
  have hlaunched : Calm [.launch a b] t (launchedWorld w a b) := by
    refine ⟨?_, Nat.lt_succ_of_lt hw.born, ?_⟩
    · show Reliable (Backend.launched w.state a b w.next) (w.born supervision _).frames
      rw [World.frames_born]
      exact ⟨hw.inv.counted.launched (hw.inv.wired.fresh (Nat.le_refl _)) a b w.next,
        hw.inv.wired.launched a b w.next⟩
    · show (w.born supervision _).frames t = _
      rw [World.frames_born, Function.update_of_ne (Nat.ne_of_lt hw.born)]
      exact hw.frames
  refine Op.settles_bind.mpr ?_
  show Leads t (isRunning ((Backend.create w.state a b).supervisors
    (Backend.nextSupervisor w.state)).task >>= _) _ _
  rw [show ((Backend.create w.state a b).supervisors (Backend.nextSupervisor w.state)).task = none
    by simp [Backend.create]]
  exact fun _ => ⟨trivial, fun _ => ⟨trivial, fun _ => ⟨trivial, hlaunched⟩⟩⟩

/-- Within `stop`, the supervisor is one, and its events are set. -/
theorem steady_unsubscribe : Steady [.stopping p, .stop p] (act (.unsubscribe p)) := by
  refine steady_act fun t s f hf h => ?_
  obtain ⟨hp, hsignal⟩ := h.wired.stopping (t := t) (p := p) (by simp [hf])
  exact ⟨h.counted.update p (g := fun q => { q with subscribed := false }) id rfl,
    h.wired.unsubscribe hp hsignal⟩

theorem steady_endTask (o : Option TaskId) : Steady [.stopping p, .stop p] (endTask p o) := by
  cases o with
  | none => exact Op.Settles.pure ()
  | some u =>
    refine Op.Settles.bind (fun t w hw => hw) fun running => steady_when ?_
    have hcancel :
        Steady [.stopping p, .stop p] (Op.exec (S := supervisionSignature) (.cancel u)) := by
      refine fun t w hw _ => ⟨trivial, ?_⟩
      have hsame := World.sameButRequests_request supervision w.next u w
      have hframes : (w.exec supervision t (.cancel u)).frames = w.frames := funext hsame.stack
      refine ⟨?_, ?_, ?_⟩
      · rw [hframes, World.state_exec]
        exact hw.inv
      · exact Nat.lt_of_lt_of_le hw.born (w.next_exec supervision t _)
      · rw [hframes]
        exact hw.frames
    refine Op.Settles.bind hcancel fun _ => Op.Settles.bind (Op.Settles.tryCatch (steady_wait _)
      fun exc => Op.Settles.ite (Op.Settles.pure ()) (Op.Settles.throw exc)) fun _ => ?_
    refine steady_act fun t s f hf h => ?_
    obtain ⟨hp, -⟩ := h.wired.stopping (t := t) (p := p) (by simp [hf])
    exact ⟨h.counted.update p (g := fun q => { q with task := none }) id rfl,
      h.wired.update hp (g := fun q => { q with task := none }) fun _ => ⟨rfl, rfl, rfl⟩⟩

theorem steady_stop : Steady [.stop p] (stop p) := by
  refine Op.Settles.get_bind fun t w hw => ?_
  show Leads t (if p < Backend.nextSupervisor w.state then _ else pure ()) _ w
  split_ifs with hp
  · have hset := (hw.inv.wired.setEvent (Backend.supervisors w.state p).stopEvent).setEvent
      (Backend.supervisors w.state p).dropEvent
    refine hw.within trivial (fun _ => trivial) ⟨(hw.inv.counted.setEvent _).setEvent _,
      hset.restack (by simp) (fun q hq => ?_) (by simp)⟩ (fun s f hf h => ?_)
      (Op.Settles.bind (steady_endTask _) fun _ => steady_unsubscribe)
    · obtain rfl : q = p := by simpa using hq
      refine ⟨?_, hw.inv.wired.signal hp⟩
      rw [Backend.nextSupervisor_setEvent, Backend.nextSupervisor_setEvent]
      exact hp
    · exact ⟨h.counted, h.wired.restack (by simp) (by simp) (by simp)⟩
  · exact hw

end Contracts

theorem settled_supervision : Settled supervision anyStatement anyStatement Reliable where
  body {c r t w} hJ ht hc := by
    have hend : ∀ {p : SupervisorOp Unit}, Steady [c] p → Coro.settles supervision anyStatement
        anyStatement Reliable t p (fun _ w' => Reliable w'.state (Function.update w'.frames t []))
          w := by
      refine fun hp => Coro.settles_mono (fun r' w' hw' => ?_) (hp t w ⟨hJ, ht, hc⟩)
      exact ⟨hw'.inv.counted, hw'.inv.wired.restack (by simp) (by simp) (by simp)⟩
    cases r with
    | error exc => exact hend (Op.Settles.throw exc)
    | ok u =>
      cases c with
      | launch a b => exact hend (steady_launch a b)
      | stop p => exact hend steady_stop
      | supervised p => exact hend steady_supervisedLoop
      | stopping p => exact hend (Op.Settles.pure ())
      | watching p drop => exact hend (Op.Settles.pure ())
  call {s f t c} hc ht h := by
    refine ⟨h.counted, h.wired.restack (fun p hp => ?_) (fun p hp => ?_) fun p d hp => ?_⟩ <;>
      rw [← List.mem_singleton.mp hp] at hc <;> cases hc
  tick htick h := by
    cases htick
    exact ⟨h.counted.transition _, h.wired.transition _⟩

/-! ### What a loop waits for -/

/-- A loop waits for a drop event while it watches it. -/
def WaitsFor (st : List Call) (wt : Wait) : Prop :=
  ∀ stop drop p, wt = .dropOrStop stop drop → .supervised p ∈ st → .watching p drop ∈ st

section Stacks

variable {st : List Call}

/-- An operation leaves what it enters, and waits for drop events only when it watches them. -/
def Tidy {α : Type} (st : List Call) (q : SupervisorOp α) : Prop :=
  Op.Follows (S := supervisionSignature) WaitsFor st q

theorem tidy_wait {wt : Wait} (h : ∀ stop drop, wt ≠ .dropOrStop stop drop) :
    Tidy st (wait wt) :=
  ⟨fun stop drop _ heq => absurd heq (h stop drop), fun _ => rfl⟩

theorem tidy_caught {q : SupervisorOp Unit} (hq : Tidy st q) : Tidy st (caught q) :=
  hq.coroBind fun _ => rfl

theorem tidy_when {c : Prop} [Decidable c] {q : SupervisorOp Unit} (hq : Tidy st q) :
    Tidy st (when c q) :=
  Op.Follows.ite hq (Op.Follows.pure ())

theorem tidy_whenSome {o : Option ℕ} {q : ℕ → SupervisorOp Unit} (hq : ∀ e, Tidy st (q e)) :
    Tidy st (whenSome o q) := by
  cases o with
  | none => exact Op.Follows.throw _
  | some e => exact hq e

theorem tidy_waitStop (p : ℕ) : Tidy st (waitStop p) :=
  Op.Follows.bind Op.Follows.get fun _ => tidy_whenSome fun _ => tidy_wait nofun

theorem tidy_nextRound (p : ℕ) : Tidy st (nextRound p) := trivial

theorem tidy_connect : Tidy st connect := by
  refine Op.Follows.bind Op.Follows.get fun s => Op.Follows.ite (Op.Follows.pure ())
    (Op.Follows.bind (Op.Follows.act _) fun _ => Op.Follows.bind
      (tidy_caught (tidy_wait nofun)) fun ended => ?_)
  cases ended with
  | ok u => exact Op.Follows.act _
  | error exc =>
    refine Op.Follows.ite (Op.Follows.act _) (Op.Follows.ite ?_ (Op.Follows.ite ?_
      (Op.Follows.throw exc))) <;>
      exact Op.Follows.bind (Op.Follows.act _) fun _ => Op.Follows.throw _

theorem tidy_waitForDropOrStop (p : ℕ) : Tidy [.supervised p] (waitForDropOrStop p) := by
  have hwatch : ∀ drop stop : ℕ,
      Tidy [.watching p drop, .supervised p] (wait (.dropOrStop stop drop)) := by
    refine fun drop stop => ⟨fun stop' drop' q heq hq => ?_, fun _ => rfl⟩
    obtain ⟨-, rfl⟩ : stop = stop' ∧ drop = drop' := by simpa using heq
    obtain rfl : q = p := by simpa using hq
    exact List.mem_cons_self
  refine Op.Follows.bind Op.Follows.get fun s => Op.Follows.ite (tidy_whenSome fun drop =>
    tidy_whenSome fun stop => Op.Follows.bind (tidy_caught (Op.Follows.within (hwatch drop stop)))
      fun ended => Op.Follows.bind (tidy_caught (tidy_wait nofun)) fun _ => ?_) (Op.Follows.pure ())
  cases ended with
  | ok u => exact Op.Follows.pure ()
  | error exc => exact Op.Follows.throw exc

theorem tidy_afterAttempt (p : ℕ) (ended : Except Raised Unit) :
    Tidy [.supervised p] (afterAttempt p ended) := by
  cases ended with
  | ok u =>
    exact Op.Follows.bind Op.Follows.get fun s => Op.Follows.ite (tidy_waitStop p)
      (Op.Follows.ite (Op.Follows.bind (tidy_wait nofun) fun _ => tidy_nextRound p)
        (Op.Follows.bind (Op.Follows.act _) fun _ => Op.Follows.bind (tidy_waitForDropOrStop p)
          fun _ => Op.Follows.bind Op.Follows.get fun _ =>
            Op.Follows.ite (Op.Follows.pure ()) (tidy_nextRound p)))
  | error exc =>
    have hretry : ∀ cls, Tidy [.supervised p] (awaitRetry p cls) := by
      intro cls
      cases cls with
      | auth => exact tidy_waitStop p
      | terminal => exact Op.Follows.pure ()
      | transient => exact tidy_wait nofun
    exact Op.Follows.ite (Op.Follows.throw exc) (Op.Follows.ite
      (Op.Follows.bind (Op.Follows.act _) fun _ => Op.Follows.bind (hretry _) fun _ =>
        tidy_nextRound p)
      (Op.Follows.ite (Op.Follows.ite (tidy_waitStop p) (Op.Follows.act _))
        (Op.Follows.throw exc)))

theorem tidy_supervisedLoop (p : ℕ) : Tidy [.supervised p] (supervisedLoop p) :=
  Op.Follows.bind Op.Follows.get fun _ => Op.Follows.ite (Op.Follows.pure ())
    (Op.Follows.bind (Op.Follows.act _) fun _ => Op.Follows.bind (tidy_when (Op.Follows.act _))
      fun _ => Op.Follows.bind (tidy_caught tidy_connect) fun ended => tidy_afterAttempt p ended)

theorem tidy_launch (a b : ℤ) : Tidy st (launch a b) := by
  refine Op.Follows.bind Op.Follows.get fun s => Op.Follows.bind (Op.Follows.act _) fun _ =>
    Op.Follows.bind Op.Follows.get fun s' => Op.Follows.bind ?_ fun running =>
      tidy_when (Op.Follows.bind (Op.Follows.act _) fun _ => Op.Follows.bind (fun _ _ => rfl)
        fun u => Op.Follows.act _)
  cases (s'.supervisors s.nextSupervisor).task with
  | none => exact Op.Follows.pure _
  | some u => exact fun _ _ => rfl

theorem tidy_stop (p : ℕ) : Tidy [.stop p] (stop p) := by
  refine Op.Follows.bind Op.Follows.get fun s => tidy_when (Op.Follows.within
    (Op.Follows.bind ?_ fun _ => Op.Follows.act _))
  cases (s.supervisors p).task with
  | none => exact Op.Follows.pure ()
  | some u =>
    exact Op.Follows.bind (fun _ _ => rfl) fun running => tidy_when (Op.Follows.bind rfl fun _ =>
      Op.Follows.bind (Op.Follows.tryCatch (tidy_wait nofun) fun exc =>
        Op.Follows.ite (Op.Follows.pure ()) (Op.Follows.throw exc)) fun _ => Op.Follows.act _)

end Stacks

theorem orderly_supervision : Orderly supervision WaitsFor where
  turn c := nofun
  body c r := by
    cases r with
    | error exc => rfl
    | ok u =>
      cases c with
      | launch a b => exact tidy_launch a b
      | stop p => exact tidy_stop p
      | supervised p => exact tidy_supervisedLoop p
      | stopping p => rfl
      | watching p drop => rfl

/-! ### Results -/

/-- **What a supervisor counts.** Whatever attempts come to, and however the state of the connection
changes otherwise: whenever no task runs, and between the rounds of a loop, the breaker of a
supervisor is open exactly when its failures in a row have reached the threshold, the alarm is on
exactly when the breaker is open and the cycles have reached the limit, the cycles are the transient
failures after which the breaker was open, and no round has begun after a terminal failure. -/
theorem supervisor_sound {state : ConnectionState} {cf : Config supervisionSignature}
    (h : Reach supervision anyStatement { state } cf) (hcf : cf.Resting) (p : ℕ) :
    let q := Backend.supervisors cf.world.state p
    let history := Backend.history cf.world.state
    (1 ≤ q.failureThreshold → (q.breakerOpen = true ↔ q.failureThreshold ≤ q.consecutiveFailures) ∧
        (q.needsAttention = true ↔
          q.breakerOpen = true ∧ q.escalationAfter ≤ q.breakerOpenCycles)) ∧
      q.breakerOpenCycles = openCycles p history ∧
      ∀ newer older b d, history = newer ++ .failed p .terminal b :: older →
        .round p d ∉ newer := by
  have hinv : ∃ f, Reliable cf.world.state f := by
    rcases hcf with hidle | ⟨t, c, hrun⟩
    · exact ⟨_, (settled_supervision.reach (reliable_start state) h).2 hidle⟩
    · exact ⟨_, settled_supervision.reach_jump (reliable_start state) h hrun trivial⟩
  obtain ⟨f, hcounted, hwired⟩ := hinv
  exact ⟨hcounted.sound p, hcounted.cycles p, fun newer older b d heq => hwired.final heq d⟩

/-- A breaker that opens at the first failure. -/
def refusedAttempt : List (Move supervisionSignature) :=
  [.call (.launch 1 1), .resume 0 (.ok ()), .resume 1 (.ok ()),
    .resume 1 (.error (Raised.mk "ConnectionRefusedError"
      [.exception, .osError, .connectionError] none none false))]

theorem supervisor_sound_refused : ∃ cf, Reach supervision anyStatement {} cf ∧
    (Backend.supervisors cf.world.state 0).breakerOpen = true ∧
      (Backend.supervisors cf.world.state 0).needsAttention = true ∧
        openCycles 0 (Backend.history cf.world.state) = 1 := by
  have hplay : (Config.play supervision (fun _ _ _ => true) 20 refusedAttempt
      (Config.start {})).any (fun cf => cf.running.isNone &&
        (Backend.supervisors cf.world.state 0).failureThreshold = 1 &&
          (Backend.supervisors cf.world.state 0).escalationAfter = 1 &&
            (Backend.supervisors cf.world.state 0).consecutiveFailures = 1 &&
              (Backend.supervisors cf.world.state 0).breakerOpenCycles = 1) = true := by
    decide
  obtain ⟨cf, hrun, hcf⟩ := (Option.any_eq_true _ _).mp hplay
  simp only [Bool.and_eq_true, Option.isNone_iff_eq_none, decide_eq_true_eq] at hcf
  obtain ⟨⟨⟨⟨hidle, hthreshold⟩, hescalation⟩, hfailures⟩, hcycles⟩ := hcf
  have hreach : Reach supervision anyStatement {} cf := reach_play (fun _ => trivial) .refl hrun
  obtain ⟨hsound, hopen, -⟩ := supervisor_sound hreach (Or.inl hidle) 0
  obtain ⟨hbreaker, hattention⟩ := hsound hthreshold.ge
  have hisOpen := hbreaker.mpr (by rw [hthreshold, hfailures, Nat.cast_one])
  exact ⟨cf, hreach, hisOpen, hattention.mpr ⟨hisOpen, by rw [hescalation, hcycles, Nat.cast_one]⟩,
    hopen.symm.trans hcycles⟩

/-- The connection has left CONNECTED since the last round of a supervisor began. -/
def LeftSinceArmed (s : Backend) (p : ℕ) : Prop :=
  ∃ newer older d target, s.history = newer ++ .round p d :: older ∧ (∀ d', .round p d' ∉ newer) ∧
    .changed .connected target ∈ newer ∧ target ≠ .connected

/-- **No drop goes unnoticed.** However the state of the connection changes between the turns of a
loop that waits for a drop or for its stop: when the connection has left CONNECTED since the round
began, the drop event the loop waits for is set, and the loop can go on. -/
theorem drop_noticed {state : ConnectionState} {cf : Config supervisionSignature}
    (h : Reach supervision anyStatement { state } cf) (hidle : cf.running = none) {t : TaskId}
    {p stop drop : ℕ} (hloop : .supervised p ∈ (cf.world.tasks t).stack)
    (hwait : (cf.world.tasks t).waiting = some (.dropOrStop stop drop))
    (hleft : LeftSinceArmed cf.world.state p) :
    Backend.events cf.world.state drop = true ∧ cf.CanResume supervision t := by
  have hinv := (settled_supervision.reach (reliable_start state) h).2 hidle
  obtain ⟨k, wt, hk, hwt, hwatches⟩ := orderly_supervision.waits h (List.ne_nil_of_mem hloop)
    (by simp [hidle])
  obtain rfl : wt = .dropOrStop stop drop := Option.some.inj (hwt.symm.trans hwait)
  have hcurrent : (Backend.supervisors cf.world.state p).dropEvent = some drop :=
    (hinv.wired.watching (hwatches stop drop p rfl hloop)).2
  obtain ⟨newer, older, d, target, heq, hlast, hmem, hne⟩ := hleft
  obtain ⟨hdrop, hset⟩ := hinv.wired.armed heq hlast
  obtain rfl : d = drop := Option.some.inj (hdrop.symm.trans hcurrent)
  have hnoticed := hset target hmem hne
  refine ⟨hnoticed, ?_⟩
  cases hrequested : (cf.world.tasks t).requested with
  | false =>
    refine ⟨k, _, .ok (), hk, hwt, ?_⟩
    show (!(cf.world.tasks t).requested && (Backend.events cf.world.state stop ||
      Backend.events cf.world.state d)) = true
    rw [hrequested, hnoticed, Bool.or_true]
    rfl
  | true =>
    refine ⟨k, _, .error Raised.cancelled, hk, hwt, ?_⟩
    show ((cf.world.tasks t).requested && _) = true
    rw [hrequested]
    rfl

/-- A connection that is lost while its loop waits. -/
def lostConnection : List (Move supervisionSignature) :=
  [.call (.launch 5 3), .resume 0 (.ok ()), .resume 1 (.ok ()), .resume 1 (.ok ()),
    .tick .disconnected]

theorem drop_noticed_lost : ∃ cf, Reach supervision anyStatement {} cf ∧
    (cf.world.tasks 1).waiting = some (.dropOrStop 0 1) ∧ cf.CanResume supervision 1 := by
  have hplay : (Config.play supervision (fun _ _ _ => true) 20 lostConnection
      (Config.start {})).any (fun cf => cf.running.isNone &&
        Call.supervised 0 ∈ (cf.world.tasks 1).stack &&
          (cf.world.tasks 1).waiting = some (.dropOrStop 0 1) &&
            Backend.history cf.world.state = [.changed .connected .disconnected,
              .changed .connecting .connected, .changed .disconnected .connecting, .round 0 1]) =
        true := by
    decide
  obtain ⟨cf, hrun, hcf⟩ := (Option.any_eq_true _ _).mp hplay
  simp only [Bool.and_eq_true, Option.isNone_iff_eq_none, decide_eq_true_eq] at hcf
  obtain ⟨⟨⟨hidle, hloop⟩, hwait⟩, hhistory⟩ := hcf
  have hreach : Reach supervision anyStatement {} cf := reach_play (fun _ => trivial) .refl hrun
  have hleft : LeftSinceArmed cf.world.state 0 :=
    ⟨[.changed .connected .disconnected, .changed .connecting .connected,
      .changed .disconnected .connecting], [], 1, .disconnected, hhistory, by simp, by simp, nofun⟩
  exact ⟨cf, hreach, hwait, (drop_noticed hreach hidle hloop hwait hleft).2⟩

end Resilience

end SlmMcpHub
