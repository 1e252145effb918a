import SlmMcpHub.Federation.ConnectionTasks
import SlmMcpHub.Federation.System
import SlmMcpHub.Library.Simulation
import SlmMcpHub.Resilience.Supervision

/-!
# What a supervisor goes by

The supervisor of `resilience/supervisor.py` occurs as an object of the hub, as the tasks of one
connection, and with a backend of its own. Whatever else these states hold, the loop of a
supervisor goes by a `View` of the connection and of its own attributes, and every assignment does
the same to the view.

## Main definitions

* `View` — what the loop of a supervisor goes by
* `Resilience.Backend.view`, `Hub.view` — the view of a supervisor in the two states
* `Resilience.Backend.Turns`, `Hub.Turns` — a change that changes the view in some way

## Main results

* `Resilience.Backend.turns_handleConnectFailure` — what a failure makes of the view
* `Hub.turns_afterTransient` — a transient failure does the same in the hub
-/

namespace SlmMcpHub

/-! ### Counters -/

/-- What a transient failure makes of the counters. -/
def ConnectionTasks.Supervisor.afterTransient (p : ConnectionTasks.Supervisor) :
    ConnectionTasks.Supervisor :=
  let p := p.countFailure
  if failureThreshold ≤ p.consecutiveFailures ∨ p.breakerOpen then p.openBreaker else p

/-- The counters of a supervisor of the hub. -/
def ConnectionSupervisor.counters (r : ConnectionSupervisor) : ConnectionTasks.Supervisor where
  consecutiveFailures := r.consecutiveFailures
  breakerOpen := r.breakerOpen
  breakerOpenCycles := r.breakerOpenCycles
  needsAttention := r.needsAttention

namespace Resilience

/-- The counters of a supervisor. -/
def Supervisor.counters (q : Supervisor) : ConnectionTasks.Supervisor where
  consecutiveFailures := q.consecutiveFailures
  breakerOpen := q.breakerOpen
  breakerOpenCycles := q.breakerOpenCycles
  needsAttention := q.needsAttention

/-- The thresholds are those `ConnectionSupervisor(conn)` has. -/
structure Supervisor.Default (q : Supervisor) : Prop where
  failureThreshold : q.failureThreshold = SlmMcpHub.failureThreshold
  escalationAfter : q.escalationAfter = SlmMcpHub.escalationAfter

/-- Nothing has changed but the counters, and what is told of them. -/
structure Supervisor.Alike (q q' : Supervisor) : Prop where
  failureThreshold : q'.failureThreshold = q.failureThreshold
  escalationAfter : q'.escalationAfter = q.escalationAfter
  stopEvent : q'.stopEvent = q.stopEvent
  dropEvent : q'.dropEvent = q.dropEvent

theorem Supervisor.Default.alike {q q' : Supervisor} (h : q.Default) (halike : q.Alike q') :
    q'.Default :=
  ⟨halike.failureThreshold.trans h.failureThreshold, halike.escalationAfter.trans h.escalationAfter⟩

theorem Supervisor.alike_tripBreaker (q : Supervisor) : q.Alike q.tripBreaker := by
  simp only [tripBreaker]
  split_ifs <;> exact ⟨rfl, rfl, rfl, rfl⟩

theorem Supervisor.alike_probeFailed (q : Supervisor) : q.Alike q.probeFailed := by
  simp only [probeFailed]
  split_ifs <;> exact ⟨rfl, rfl, rfl, rfl⟩

/-- The breaker opens: one more cycle. -/
theorem Supervisor.Default.counters_tripBreaker {q : Supervisor} (h : q.Default) :
    q.tripBreaker.counters = q.counters.openBreaker := by
  have hescalation := h.escalationAfter
  cases hattention : q.needsAttention <;>
    simp only [tripBreaker, counters, ConnectionTasks.Supervisor.openBreaker] <;>
    grind

/-- A probe has failed: one more cycle. -/
theorem Supervisor.Default.counters_probeFailed {q : Supervisor} (h : q.Default)
    (hopen : q.breakerOpen = true) : q.probeFailed.counters = q.counters.openBreaker := by
  have hescalation := h.escalationAfter
  cases hattention : q.needsAttention <;>
    simp only [probeFailed, counters, ConnectionTasks.Supervisor.openBreaker] <;>
    grind

end Resilience

/-! ### Views -/

/-- What the loop of a supervisor goes by. -/
structure View where
  state : ConnectionState
  counters : ConnectionTasks.Supervisor
  /-- The stop event is set. -/
  stopped : Bool
  /-- There is a drop event. -/
  armed : Bool

namespace View

/-- A supervisor that has just been started, for a connection in some state. -/
def new (state : ConnectionState) : View :=
  { state, counters := {}, stopped := false, armed := false }

/-- `_transition` -/
def transition (v : View) (target : ConnectionState) : View := { v with state := target }

/-- `_on_connect_success` -/
def reset (v : View) : View := { v with counters := v.counters.reset }

/-- A new drop event. -/
def arm (v : View) : View := { v with armed := true }

/-- The state a transient failure leads to. -/
def stateAfterTransient (v : View) : ConnectionState :=
  let c := v.counters.countFailure
  if failureThreshold ≤ c.consecutiveFailures ∨ c.breakerOpen then .circuitOpen else .reconnecting

/-- A transient failure. -/
def afterTransient (v : View) : View :=
  { v with state := v.stateAfterTransient, counters := v.counters.afterTransient }

/-- A failure nothing can be done about. -/
def giveUp (v : View) : View := { v with state := .failed, stopped := true }

/-- A failure of some class. -/
def afterFailure (v : View) : FailureClass → View
  | .auth => v
  | .terminal => v.giveUp
  | .transient => v.afterTransient

/-- The breaker opens, or stays open. -/
theorem afterTransient_of_open {v : View}
    (h : failureThreshold ≤ v.counters.countFailure.consecutiveFailures ∨
      v.counters.countFailure.breakerOpen = true) :
    v.afterTransient =
      { v with state := .circuitOpen, counters := v.counters.countFailure.openBreaker } := by
  rw [afterTransient, stateAfterTransient, if_pos h, ConnectionTasks.Supervisor.afterTransient,
    if_pos h]

/-- The connection enters the backoff. -/
theorem afterTransient_of_closed {v : View}
    (h : ¬ (failureThreshold ≤ v.counters.countFailure.consecutiveFailures ∨
      v.counters.countFailure.breakerOpen = true)) :
    v.afterTransient = { v with state := .reconnecting, counters := v.counters.countFailure } := by
  rw [afterTransient, stateAfterTransient, if_neg h, ConnectionTasks.Supervisor.afterTransient,
    if_neg h]

theorem armed_afterFailure (v : View) (cls : FailureClass) :
    (v.afterFailure cls).armed = v.armed := by
  cases cls <;> rfl

end View

/-- An event that has been made and is no drop event. -/
def Reserved (drops : ℕ → Option ℕ) (next e : ℕ) : Prop := e < next ∧ ∀ i, drops i ≠ some e

/-- A new event is no drop event yet. -/
theorem reserved_new {drops : ℕ → Option ℕ} {next : ℕ} (h : ∀ i e, drops i = some e → e < next) :
    Reserved drops (next + 1) next :=
  ⟨Nat.lt_succ_self next, fun i hi => (h i next hi).false⟩

/-- A new drop event is another one. -/
theorem Reserved.arm {drops : ℕ → Option ℕ} {next e : ℕ} (h : Reserved drops next e) (p : ℕ) :
    Reserved (Function.update drops p (some next)) (next + 1) e := by
  refine ⟨h.1.trans (Nat.lt_succ_self next), fun i => ?_⟩
  rw [Function.update_apply]
  split
  · exact fun hi => (Nat.ne_of_lt h.1) (Option.some.inj hi).symm
  · exact h.2 i

namespace Resilience

/-! #### The backend of a supervisor -/

namespace Backend

/-- What the supervisor `q` goes by. -/
def view (b : Backend) (q : ℕ) : View where
  state := b.state
  counters := (b.supervisors q).counters
  stopped := b.stopped q
  armed := (b.supervisors q).dropEvent.isSome

/-- The supervisor `q` has been started, with the thresholds it has if nothing is said of them. -/
structure Started (b : Backend) (q : ℕ) : Prop where
  default : (b.supervisors q).Default
  stopEvent : ∃ e, (b.supervisors q).stopEvent = some e ∧
    Reserved (fun i => (b.supervisors i).dropEvent) b.nextEvent e

/-- A change that changes the view of the supervisor `q` in some way. -/
def Turns (b b' : Backend) (q : ℕ) (f : View → View) : Prop :=
  b.Started q → b'.Started q ∧ b'.view q = f (b.view q)

variable {b b' b'' : Backend} {q : ℕ} {f g : View → View}

theorem Turns.trans (h : b.Turns b' q f) (h' : b'.Turns b'' q g) : b.Turns b'' q (g ∘ f) := by
  intro hb
  obtain ⟨hb', hview⟩ := h hb
  obtain ⟨hb'', hview'⟩ := h' hb'
  exact ⟨hb'', by rw [hview', hview]; rfl⟩

theorem Turns.armed (h : b.Turns b' q f) (hb : b.Started q) (hf : ∀ v, (f v).armed = v.armed)
    (harmed : (b.view q).armed = true) : (b'.view q).armed = true := by
  rw [(h hb).2, hf, harmed]

/-- A new supervisor is started. -/
theorem started_makeStop (b : Backend) (q : ℕ) (hnew : b.supervisors q =
      { failureThreshold := SlmMcpHub.failureThreshold
        escalationAfter := SlmMcpHub.escalationAfter, subscribed := true })
    (hdrops : ∀ i e, (b.supervisors i).dropEvent = some e → e < b.nextEvent) :
    (b.makeStop q).Started q ∧ (b.makeStop q).view q = .new b.state := by
  have hself : (b.makeStop q).supervisors q =
      { b.supervisors q with stopEvent := some b.nextEvent } := Function.update_self _ _ _
  have hother : (fun i => ((b.makeStop q).supervisors i).dropEvent) =
      fun i => (b.supervisors i).dropEvent := by
    funext i
    rcases eq_or_ne i q with rfl | hne
    · rw [hself]
    · exact congrArg Supervisor.dropEvent (Function.update_of_ne hne _ _)
  have hstopped : (b.makeStop q).stopped q = false := by
    rw [stopped, hself]
    exact Function.update_self _ _ _
  refine ⟨⟨?_, b.nextEvent, ?_, ?_⟩, ?_⟩
  · rw [hself, hnew]
    exact ⟨rfl, rfl⟩
  · rw [hself]
  · rw [hother]
    exact reserved_new hdrops
  · rw [view, hstopped, hself, hnew]
    rfl

/-- A supervisor is made and started. -/
theorem started_launch (b : Backend)
    (hdrops : ∀ i e, (b.supervisors i).dropEvent = some e → e < b.nextEvent) :
    let b' := (b.create SlmMcpHub.failureThreshold SlmMcpHub.escalationAfter).makeStop
      b.nextSupervisor
    b'.Started b.nextSupervisor ∧ b'.view b.nextSupervisor = .new b.state := by
  have hself : (b.create SlmMcpHub.failureThreshold SlmMcpHub.escalationAfter).supervisors
      b.nextSupervisor = _ := Function.update_self _ _ _
  refine started_makeStop (b.create _ _) b.nextSupervisor hself fun i e hi => ?_
  rcases eq_or_ne i b.nextSupervisor with rfl | hne
  · rw [hself] at hi
    cases hi
  · exact hdrops i e ((congrArg Supervisor.dropEvent (Function.update_of_ne hne _ _)).symm.trans hi)

theorem turns_transition (b : Backend) (q : ℕ) (target : ConnectionState) :
    b.Turns (b.transition target) q (·.transition target) := by
  intro hb
  obtain ⟨e, he, hreserved⟩ := hb.stopEvent
  refine ⟨⟨hb.default, e, he, hreserved⟩, ?_⟩
  have hcaptured : b.captured e = false := by
    simp [captured, fun i => hreserved.2 i]
  have hstopped : (b.transition target).stopped q = b.stopped q := by
    show (b.supervisors q).stopEvent.any _ = (b.supervisors q).stopEvent.any _
    rw [he]
    show (b.events e || b.captured e) = b.events e
    rw [hcaptured, Bool.or_false]
  rw [view, hstopped]
  rfl

/-- A change of the counters. -/
theorem turns_update (b : Backend) (q : ℕ) {u : Supervisor → Supervisor} {f : View → View}
    (halike : (b.supervisors q).Alike (u (b.supervisors q)))
    (hview : b.Started q →
      { b.view q with counters := (u (b.supervisors q)).counters } = f (b.view q)) :
    b.Turns (b.update q u) q f := by
  intro hb
  obtain ⟨e, he, hreserved⟩ := hb.stopEvent
  have hdrops : (fun i => ((b.update q u).supervisors i).dropEvent) =
      fun i => (b.supervisors i).dropEvent := by
    funext i
    rcases eq_or_ne i q with rfl | hne
    · rw [supervisors_update_self, halike.dropEvent]
    · rw [supervisors_update_of_ne _ _ hne]
  refine ⟨⟨?_, e, ?_, ?_⟩, ?_⟩
  · rw [supervisors_update_self]
    exact hb.default.alike halike
  · rw [supervisors_update_self, halike.stopEvent, he]
  · rw [hdrops]
    exact hreserved
  · rw [← hview hb, view, stopped, supervisors_update_self, halike.stopEvent, halike.dropEvent]
    rfl

theorem turns_onConnectSuccess (b : Backend) (q : ℕ) :
    b.Turns (b.update q Supervisor.onConnectSuccess) q View.reset :=
  turns_update b q ⟨rfl, rfl, rfl, rfl⟩ fun _ => rfl

theorem turns_armDrop (b : Backend) (q : ℕ) : b.Turns (b.armDrop q) q View.arm := by
  intro hb
  obtain ⟨e, he, hreserved⟩ := hb.stopEvent
  have hself : (b.armDrop q).supervisors q =
      { b.supervisors q with dropEvent := some b.nextEvent } := Function.update_self _ _ _
  have hdrops : (fun i => ((b.armDrop q).supervisors i).dropEvent) =
      Function.update (fun i => (b.supervisors i).dropEvent) q (some b.nextEvent) := by
    funext i
    rcases eq_or_ne i q with rfl | hne
    · rw [hself, Function.update_self]
    · rw [Function.update_of_ne hne]
      exact congrArg Supervisor.dropEvent (Function.update_of_ne hne _ _)
  have hstopped : (b.armDrop q).stopped q = b.stopped q := by
    rw [stopped, stopped, hself, he]
    exact Function.update_of_ne (Nat.ne_of_lt hreserved.1) _ _
  refine ⟨⟨?_, e, ?_, ?_⟩, ?_⟩
  · rw [hself]
    exact ⟨hb.default.failureThreshold, hb.default.escalationAfter⟩
  · rw [hself]
    exact he
  · rw [hdrops]
    exact hreserved.arm q
  · rw [view, hstopped, hself]
    rfl

/-- A failure that opens the breaker, or keeps it open. -/
theorem turns_openBreaker (b : Backend) (q : ℕ) {u : Supervisor → Supervisor}
    (halike : (b.supervisors q).Alike (u (b.supervisors q)))
    (hcounters : (b.supervisors q).Default →
      (u (b.supervisors q)).counters = (b.supervisors q).counters.openBreaker) :
    b.Turns ((b.transition .circuitOpen).update q u) q fun v =>
      { v with state := .circuitOpen, counters := v.counters.openBreaker } := by
  refine (turns_transition b q .circuitOpen).trans (turns_update _ q halike
    (f := fun v => { v with counters := v.counters.openBreaker }) fun hb => ?_)
  exact congrArg (fun c => { (b.transition .circuitOpen).view q with counters := c })
    (hcounters hb.default)

theorem turns_handleTransient (b : Backend) (q : ℕ) :
    b.Turns (b.handleTransient q) q View.afterTransient := by
  intro hb
  have hcount : b.Turns (b.update q Supervisor.countFailure) q fun v =>
      { v with counters := v.counters.countFailure } :=
    turns_update b q ⟨rfl, rfl, rfl, rfl⟩ fun _ => rfl
  obtain ⟨hcounted, hview⟩ := hcount hb
  have hself : (b.update q Supervisor.countFailure).supervisors q =
      (b.supervisors q).countFailure := supervisors_update_self ..
  have hthreshold : (b.supervisors q).countFailure.failureThreshold =
      SlmMcpHub.failureThreshold := hb.default.failureThreshold
  have hfailures : (b.view q).counters.countFailure.consecutiveFailures =
      (b.supervisors q).countFailure.consecutiveFailures := rfl
  have hopen : (b.view q).counters.countFailure.breakerOpen =
      (b.supervisors q).countFailure.breakerOpen := rfl
  simp only [handleTransient, hself]
  split_ifs with htrip hprobe
  · obtain ⟨hstarted, hturned⟩ := turns_openBreaker _ q (u := Supervisor.tripBreaker)
      (Supervisor.alike_tripBreaker _)
      (fun h => h.counters_tripBreaker) hcounted
    refine ⟨hstarted, ?_⟩
    have hreached : SlmMcpHub.failureThreshold ≤
        (b.view q).counters.countFailure.consecutiveFailures := by
      rw [hfailures]
      rw [hthreshold] at htrip
      exact Int.ofNat_le.mp htrip.1
    rw [hturned, hview, View.afterTransient_of_open (.inl hreached)]
  · obtain ⟨hstarted, hturned⟩ := turns_openBreaker _ q (u := Supervisor.probeFailed)
      (Supervisor.alike_probeFailed _)
      (fun h => h.counters_probeFailed (by rw [hself]; exact hprobe)) hcounted
    refine ⟨hstarted, ?_⟩
    have hreached : (b.view q).counters.countFailure.breakerOpen = true := hopen.trans hprobe
    rw [hturned, hview, View.afterTransient_of_open (.inr hreached)]
  · obtain ⟨hstarted, hturned⟩ := turns_transition _ q .reconnecting hcounted
    refine ⟨hstarted, ?_⟩
    have hbelow : ¬ (SlmMcpHub.failureThreshold ≤
        (b.view q).counters.countFailure.consecutiveFailures ∨
          (b.view q).counters.countFailure.breakerOpen = true) := by
      rw [hfailures, hopen]
      rintro (hreached | hreached)
      · refine htrip ⟨?_, Bool.eq_false_iff.mpr hprobe⟩
        rw [hthreshold]
        exact Int.ofNat_le.mpr hreached
      · exact hprobe hreached
    rw [hturned, hview, View.afterTransient_of_closed hbelow]
    rfl

theorem turns_giveUp (b : Backend) (q : ℕ) :
    b.Turns ((b.transition .failed).setEvent (b.supervisors q).stopEvent) q View.giveUp := by
  refine (turns_transition b q .failed).trans (g := fun v => { v with stopped := true })
    fun hb => ?_
  obtain ⟨e, he, hreserved⟩ := hb.stopEvent
  have he' : (b.supervisors q).stopEvent = some e := he
  rw [he']
  refine ⟨⟨hb.default, e, he, hreserved⟩, ?_⟩
  have hstopped : ((b.transition .failed).setEvent (some e)).stopped q = true := by
    rw [stopped, supervisors_setEvent, he]
    exact Function.update_self _ _ _
  rw [view, hstopped]
  rfl

theorem turns_handleConnectFailure (b : Backend) (q : ℕ) (exc : Raised) :
    b.Turns (b.handleConnectFailure q exc) q (·.afterFailure (classifyFailure exc)) := by
  have hnote : b.Turns (b.update q fun r => r.noteError exc b.state) q id :=
    turns_update b q ⟨rfl, rfl, rfl, rfl⟩ fun _ => rfl
  have hlog : ∀ (b : Backend) cls, b.Turns (b.log q cls) q id :=
    fun _ _ h => ⟨⟨h.default, h.stopEvent⟩, rfl⟩
  rw [handleConnectFailure]
  cases classifyFailure exc with
  | auth => exact hnote.trans (hlog _ _)
  | terminal => exact (hnote.trans (turns_giveUp _ q)).trans (hlog _ _)
  | transient => exact (hnote.trans (turns_handleTransient _ q)).trans (hlog _ _)

end Backend

end Resilience

/-! #### The hub -/

namespace Hub

/-- What the supervisor `p` goes by. -/
def view (h : Hub) (p : SupRef) : View where
  state := (h.conn p.conn).state
  counters := (h.sup p).counters
  stopped := ConnectionSupervisor.stopped h p
  armed := (h.sup p).dropEvent.isSome

/-- The supervisor `p` has been started. -/
def Started (h : Hub) (p : SupRef) : Prop :=
  ∃ e, (h.sup p).stopEvent = some e ∧ Reserved (fun i => (h.sups i).dropEvent) h.nextEvent e

/-- A change that changes the view of the supervisor `p` in some way. -/
def Turns (h h' : Hub) (p : SupRef) (f : View → View) : Prop :=
  h.Started p → h'.Started p ∧ h'.view p = f (h.view p)

variable {h h' h'' : Hub} {p : SupRef} {f g : View → View}

theorem Turns.trans (hf : h.Turns h' p f) (hg : h'.Turns h'' p g) : h.Turns h'' p (g ∘ f) := by
  intro hstarted
  obtain ⟨hstarted', hview⟩ := hf hstarted
  obtain ⟨hstarted'', hview'⟩ := hg hstarted'
  exact ⟨hstarted'', by rw [hview', hview]; rfl⟩

theorem stopped_eq {e : ℕ} (he : (h.sup p).stopEvent = some e) :
    ConnectionSupervisor.stopped h p = h.events e := by
  rw [ConnectionSupervisor.stopped, he]
  rfl

theorem conn_eval (h : Hub) (a : Act) (x : ConnRef) : (a.eval h).conn x = (a.apply h).conn x := rfl

theorem sup_eval (h : Hub) (a : Act) (p : SupRef) : (a.eval h).sup p = (a.apply h).sup p := rfl

/-- A new supervisor is started. -/
theorem started_armStop (h : Hub) (p : SupRef) (hnew : h.sup p = {})
    (hdrops : ∀ i e, (h.sups i).dropEvent = some e → e < h.nextEvent) :
    ((Act.armStop p).eval h).Started p ∧
      ((Act.armStop p).eval h).view p = .new (h.conn p.conn).state := by
  have hself : ((Act.armStop p).eval h).sup p = { h.sup p with stopEvent := some h.nextEvent } :=
    Function.update_self ..
  have hother : (fun i => (((Act.armStop p).eval h).sups i).dropEvent) =
      fun i => (h.sups i).dropEvent := by
    funext i
    rcases eq_or_ne i p.id with rfl | hne
    · exact (congrArg ConnectionSupervisor.dropEvent hself).trans rfl
    · exact congrArg ConnectionSupervisor.dropEvent (Function.update_of_ne hne ..)
  have hstop : (((Act.armStop p).eval h).sup p).stopEvent = some h.nextEvent := by rw [hself]
  have hstopped : ConnectionSupervisor.stopped ((Act.armStop p).eval h) p = false :=
    (stopped_eq hstop).trans (Function.update_self ..)
  refine ⟨⟨h.nextEvent, hstop, ?_⟩, ?_⟩
  · rw [hother]
    exact reserved_new hdrops
  · rw [view, hstopped, hself, hnew]
    rfl

/-- A supervisor is made and started. -/
theorem started_startSupervisor (h : Hub) (name : String) (p : SupRef)
    (hdrops : ∀ i e, (h.sups i).dropEvent = some e → e < h.nextEvent) :
    let h' := (Act.armStop p).eval ((Act.storeSupervisor name p).eval h)
    h'.Started p ∧ h'.view p = .new (h.conn p.conn).state := by
  set made := (Act.storeSupervisor name p).eval h with hmade
  have hself : made.sup p = {} := Function.update_self ..
  have hstate : (made.conn p.conn).state = (h.conn p.conn).state := by
    rw [hmade, conn_eval]
    show (Function.update h.conns p.conn.id _ p.conn.id).state = _
    rw [Function.update_self]
    rfl
  rw [← hstate]
  refine started_armStop made p hself fun i e hi => ?_
  rcases eq_or_ne i p.id with rfl | hne
  · cases (congrArg ConnectionSupervisor.dropEvent hself).symm.trans hi
  · exact hdrops i e
      ((congrArg ConnectionSupervisor.dropEvent (Function.update_of_ne hne ..)).symm.trans hi)

/-- A change of the state of the connection, which sets drop events at most. -/
theorem turns_moved (h : Hub) {p : SupRef} {target : ConnectionState} {h' : Hub}
    (hconn : (h'.conn p.conn).state = target) (hsups : h'.sups = h.sups)
    (hnext : h'.nextEvent = h.nextEvent)
    (hevents : ∀ e, (∀ i, (h.sups i).dropEvent ≠ some e) → h'.events e = h.events e) :
    h.Turns h' p (·.transition target) := by
  rintro ⟨e, he, hreserved⟩
  have hsup : h'.sup p = h.sup p := congrFun hsups p.id
  have he' : (h'.sup p).stopEvent = some e := by rw [hsup, he]
  refine ⟨⟨e, he', ?_⟩, ?_⟩
  · rw [hnext, hsups]
    exact hreserved
  · rw [view, stopped_eq he', hevents e hreserved.2, hconn, hsup, ← stopped_eq he]
    rfl

theorem state_transition (h : Hub) (x : ConnRef) (target : ConnectionState) :
    ((h.transition x target).conn x).state = target := by
  show (Function.update h.conns x.id _ x.id).state = target
  rw [Function.update_self]

theorem events_transition (h : Hub) (x : ConnRef) (target : ConnectionState) {e : ℕ}
    (he : ∀ i, (h.sups i).dropEvent ≠ some e) : (h.transition x target).events e = h.events e := by
  show (h.events e || (h.isConnected x && (h.conn x).subscribers.any fun p =>
    decide ((h.sups p.id).dropEvent = some e))) = h.events e
  have hnone : ((h.conn x).subscribers.any fun p => decide ((h.sups p.id).dropEvent = some e)) =
      false := List.any_eq_false.mpr fun p _ => by simpa using he p.id
  rw [hnone, Bool.and_false, Bool.or_false]

/-- What is remembered of an act is not seen. -/
theorem turns_eval {a : Act} (ht : h.Turns (a.apply h) p f) : h.Turns (a.eval h) p f := ht

theorem turns_transition (h : Hub) (p : SupRef) (target : ConnectionState)
    (ne : target ≠ .connected) :
    h.Turns ((Act.transition p.conn target ne).eval h) p (·.transition target) := by
  refine turns_eval ?_
  show h.Turns (h.transition p.conn target) p _
  exact turns_moved h (state_transition h p.conn target) rfl rfl
    fun _ he => events_transition h p.conn target he

theorem turns_establish (h : Hub) (p : SupRef) (caps : Capabilities) :
    h.Turns ((Act.establish p.conn caps).eval h) p (·.transition .connected) := by
  refine turns_eval ?_
  show h.Turns ((h.modifyConn p.conn _).transition p.conn .connected) p _
  exact turns_moved h (state_transition (h.modifyConn p.conn _) p.conn .connected) rfl rfl
    fun _ he => events_transition (h.modifyConn p.conn _) p.conn .connected he

/-- A change of the counters. -/
theorem turns_modifySup (h : Hub) (p : SupRef) {u : ConnectionSupervisor → ConnectionSupervisor}
    {f : View → View} {h' : Hub} (hsups : h'.sups = (h.modifySup p u).sups)
    (hconns : h'.conns = h.conns) (hevents : h'.events = h.events)
    (hnext : h'.nextEvent = h.nextEvent) (hstop : (u (h.sup p)).stopEvent = (h.sup p).stopEvent)
    (hdrop : (u (h.sup p)).dropEvent = (h.sup p).dropEvent)
    (hview : { h.view p with counters := (u (h.sup p)).counters } = f (h.view p)) :
    h.Turns h' p f := by
  rintro ⟨e, he, hreserved⟩
  have hself : h'.sup p = u (h.sup p) := by
    rw [sup, hsups]
    exact Function.update_self ..
  have he' : (h'.sup p).stopEvent = some e := by rw [hself, hstop, he]
  have hdrops : (fun i => (h'.sups i).dropEvent) = fun i => (h.sups i).dropEvent := by
    funext i
    rw [hsups]
    rcases eq_or_ne i p.id with rfl | hne
    · exact (congrArg ConnectionSupervisor.dropEvent (Function.update_self ..)).trans hdrop
    · exact congrArg ConnectionSupervisor.dropEvent (Function.update_of_ne hne ..)
  refine ⟨⟨e, he', ?_⟩, ?_⟩
  · rw [hdrops, hnext]
    exact hreserved
  · rw [← hview, view, stopped_eq he', hself, hevents, hdrop, ← stopped_eq he, conn, hconns]
    rfl

theorem turns_resetFailures (h : Hub) (p : SupRef) :
    h.Turns ((Act.resetFailures p).eval h) p View.reset :=
  turns_modifySup h p (u := fun r =>
    { r with consecutiveFailures := 0, breakerOpen := false, needsAttention := false })
    rfl rfl rfl rfl rfl rfl rfl

theorem turns_countFailure (h : Hub) (p : SupRef) : h.Turns ((Act.countFailure p).eval h) p
    fun v => { v with counters := v.counters.countFailure } :=
  turns_modifySup h p (u := fun r => { r with consecutiveFailures := r.consecutiveFailures + 1 })
    rfl rfl rfl rfl rfl rfl rfl

theorem turns_openBreaker (h : Hub) (p : SupRef) : h.Turns ((Act.openBreaker p).eval h) p
    fun v => { v with counters := v.counters.openBreaker } :=
  turns_modifySup h p (u := fun r =>
    { r with
      breakerOpen := true
      breakerOpenCycles := r.breakerOpenCycles + 1
      needsAttention := r.needsAttention || escalationAfter ≤ r.breakerOpenCycles + 1 })
    rfl rfl rfl rfl rfl rfl rfl

theorem turns_armDrop (h : Hub) (p : SupRef) : h.Turns ((Act.armDrop p).eval h) p View.arm := by
  rintro ⟨e, he, hreserved⟩
  have hself : ((Act.armDrop p).eval h).sup p =
      { h.sup p with dropEvent := some h.nextEvent } := Function.update_self ..
  have he' : (((Act.armDrop p).eval h).sup p).stopEvent = some e := by rw [hself, he]
  have hdrops : (fun i => (((Act.armDrop p).eval h).sups i).dropEvent) =
      Function.update (fun i => (h.sups i).dropEvent) p.id (some h.nextEvent) := by
    funext i
    rcases eq_or_ne i p.id with rfl | hne
    · show (Function.update h.sups p.id _ p.id).dropEvent = _
      rw [Function.update_self, Function.update_self]
    · rw [Function.update_of_ne hne]
      exact congrArg ConnectionSupervisor.dropEvent (Function.update_of_ne hne ..)
  have hevents : ((Act.armDrop p).eval h).events e = h.events e :=
    Function.update_of_ne (Nat.ne_of_lt hreserved.1) ..
  refine ⟨⟨e, he', ?_⟩, ?_⟩
  · rw [hdrops]
    exact hreserved.arm p.id
  · rw [view, stopped_eq he', hself, hevents, ← stopped_eq he]
    rfl

/-- **A transient failure**, assignment by assignment. -/
theorem turns_afterTransient (h : Hub) (p : SupRef) :
    h.Turns
      (if failureThreshold ≤ (((Act.countFailure p).eval h).sup p).consecutiveFailures ∨
          (((Act.countFailure p).eval h).sup p).breakerOpen = true then
        (Act.openBreaker p).eval
          ((Act.transition p.conn .circuitOpen).eval ((Act.countFailure p).eval h))
      else (Act.transition p.conn .reconnecting).eval ((Act.countFailure p).eval h)) p
      View.afterTransient := by
  intro hstarted
  set counted := (Act.countFailure p).eval h
  obtain ⟨hcounted, hview⟩ := turns_countFailure h p hstarted
  have hsup : (counted.sup p).counters = (h.view p).counters.countFailure :=
    congrArg View.counters hview
  have hcondition : (failureThreshold ≤ (counted.sup p).consecutiveFailures ∨
      (counted.sup p).breakerOpen = true) ↔
        failureThreshold ≤ (h.view p).counters.countFailure.consecutiveFailures ∨
          (h.view p).counters.countFailure.breakerOpen = true := by
    rw [← hsup]
    rfl
  split_ifs with hopen
  · obtain ⟨hopened, hturned⟩ := ((turns_transition counted p .circuitOpen (by decide)).trans
      (turns_openBreaker _ p)) hcounted
    refine ⟨hopened, ?_⟩
    rw [hturned, hview, View.afterTransient_of_open (hcondition.mp hopen)]
    rfl
  · obtain ⟨hmoved, hturned⟩ := turns_transition counted p .reconnecting (by decide) hcounted
    refine ⟨hmoved, ?_⟩
    rw [hturned, hview, View.afterTransient_of_closed (hcondition.not.mp hopen)]
    rfl

/-- `stop.set()` -/
theorem turns_setEvent (h : Hub) {p : SupRef} {e : ℕ} (he : (h.sup p).stopEvent = some e) :
    h.Turns ((Act.setEvent e).eval h) p fun v => { v with stopped := true } := by
  rintro ⟨e', he', hreserved⟩
  obtain rfl : e = e' := Option.some.inj (he.symm.trans he')
  refine ⟨⟨e, he', hreserved⟩, ?_⟩
  have hset : ((Act.setEvent e).eval h).events e = true := Function.update_self ..
  rw [view, stopped_eq (h := (Act.setEvent e).eval h) he', hset]
  rfl

end Hub

/-! ### The waits of the hub -/

/-- `caught` is the one of every signature. -/
theorem HubOp.caught_eq {α : Type} (r : HubOp α) : HubOp.caught r = Op.caught r := by
  refine (Coro.bind_assoc (r : Coro hubSignature (Except Exc α)) _ _).trans ?_
  refine congrArg (Coro.bind (r : Coro hubSignature (Except Exc α))) (funext fun ended => ?_)
  cases ended <;> rfl

namespace ConnectionSupervisor

variable {p : SupRef} {t : TaskId} {w : World hubSignature}

/-- A supervisor that waits for its stop event. -/
theorem turn_park {e : ℕ} (he : (Hub.sup w.state p).stopEvent = some e) :
    Coro.turn hub t (park p) w = Coro.turn hub t (HubOp.wait' (.event e)) w := by
  show Coro.turn hub t (HubOp.whenSome (Hub.sup w.state p).stopEvent fun e =>
    HubOp.wait' (.event e)) w = _
  rw [he]
  rfl

/-- A supervisor that waits for a drop. -/
theorem turn_waitForDropOrStop {stop drop : ℕ} (g : Unit → HubOp Unit)
    (hconnected : Hub.isConnected w.state p.conn = true)
    (hstop : (Hub.sup w.state p).stopEvent = some stop)
    (hdrop : (Hub.sup w.state p).dropEvent = some drop) :
    Coro.turn hub t (waitForDropOrStop p >>= g : HubOp Unit) w =
      Coro.turn hub t (HubOp.wait' (.either stop drop) >>= g : HubOp Unit) w := by
  show Coro.turn hub t ((if Hub.isConnected w.state p.conn = true then _ else _) >>= g :
    HubOp Unit) w = _
  rw [if_pos hconnected, hstop, hdrop]

/-- What a round of the hub does after a failure of some class. -/
def retry (p : SupRef) : FailureClass → HubOp Unit
  | .auth => Op.jump (.parked p)
  | .terminal => Op.jump (.supervised p)
  | .transient => do
    HubOp.wait' .sleep
    Op.jump (.supervised p)

/-- **A failure**: the view changes, and the round comes to its last wait. -/
theorem turn_handleConnectFailure (p : SupRef) (w : World hubSignature) (e : Exc)
    (hstarted : Hub.Started w.state p) :
    ∃ v : World hubSignature, Coro.turn hub t (handleConnectFailure p e) w =
      Coro.turn hub t (retry p e.classify) v ∧
        Hub.Turns w.state v.state p (·.afterFailure e.classify) := by
  rw [handleConnectFailure]
  cases e.classify with
  | auth => exact ⟨w, rfl, fun h => ⟨h, rfl⟩⟩
  | terminal =>
    obtain ⟨stop, hstop, -⟩ := hstarted
    refine ⟨(w.exec hub t (.act (.transition p.conn .failed (by decide)))).exec hub t
      (.act (.setEvent stop)), ?_, ?_⟩
    · show Coro.turn hub t (HubOp.whenSome (Hub.sup w.state p).stopEvent
        (fun e => HubOp.act (.setEvent e)) >>= fun _ => Op.jump (.supervised p) : HubOp Unit) _ = _
      rw [hstop]
      rfl
    · exact (Hub.turns_transition w.state p .failed (by decide)).trans (Hub.turns_setEvent _ hstop)
  | transient =>
    have hturns := Hub.turns_afterTransient w.state p
    let counted := w.exec hub t (.act (.countFailure p))
    have hfirst : ∀ v : World hubSignature,
        Coro.turn hub t (afterFailure ((Act.countFailure p).eval w.state) p >>=
          fun _ => retry p .transient : HubOp Unit) counted =
            Coro.turn hub t (retry p .transient) v →
        Coro.turn hub t (do
          HubOp.act (.countFailure p)
          let s ← HubOp.get
          afterFailure s p
          HubOp.wait' .sleep
          Op.jump (.supervised p) : HubOp Unit) w = Coro.turn hub t (retry p .transient) v :=
      fun _ h => h
    by_cases hopen : failureThreshold ≤
        (Hub.sup ((Act.countFailure p).eval w.state) p).consecutiveFailures ∨
          (Hub.sup ((Act.countFailure p).eval w.state) p).breakerOpen = true
    · rw [if_pos hopen] at hturns
      refine ⟨(counted.exec hub t (.act (.transition p.conn .circuitOpen (by decide)))).exec hub t
        (.act (.openBreaker p)), hfirst _ ?_, hturns⟩
      rw [afterFailure, if_pos hopen]
      rfl
    · rw [if_neg hopen] at hturns
      refine ⟨counted.exec hub t (.act (.transition p.conn .reconnecting (by decide))), hfirst _ ?_,
        hturns⟩
      rw [afterFailure, if_neg hopen]
      rfl

end ConnectionSupervisor

end SlmMcpHub
