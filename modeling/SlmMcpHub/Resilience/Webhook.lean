import SlmMcpHub.Library.Attempts
import SlmMcpHub.Library.Coroutine
import SlmMcpHub.Observability.EventStream

/-!
# The webhook dispatcher

`WebhookDispatcher` of `resilience/events.py`: lifecycle events are put into a queue, and a drainer
task takes them out and posts each to the URLs, one URL after the other and several times if need
be. Drainers are started and stopped by anybody and at any time; a call of `stop` waits for the
drainer it has cancelled, and anything can happen before it goes on.

A drainer can be cut off in the middle of an event, by a `stop` or by an exception of `sleep_fn`.

## Main definitions

* `WebhookDispatcher`, `WebhookDispatcher.step` — the dispatcher, and what can happen to it
* `WebhookDispatcher.Serial` — nobody starts or stops it while a call of `stop` is waiting

## Main results

* `followsScript_of_reaches` — no event is lost in the queue or taken twice, and the requests for
  each are a beginning of what they should be
* `inOrder_of_reaches` — one request after the other, if starts and stops are serial
-/

namespace SlmMcpHub

/-- `_event_to_dict` -/
def eventToDict (event : LifecycleEvent) : Json :=
  Json.obj
    [("server", .str event.server), ("from_state", .str event.fromState.value),
      ("to_state", .str event.toState.value), ("reason", .str event.reason),
      ("ts", .float event.ts), ("failure_class", event.failureClass.elim .null .str),
      ("attempt", event.attempt.elim .null .int)]

namespace WebhookDispatcher

/-- A request: which of the events that have been taken off the queue, which of the URLs, and the
attempt. -/
structure Request where
  place : ℕ
  index : ℕ
  attempt : ℕ
  deriving DecidableEq

/-- Where a drainer is. -/
inductive Phase where
  /-- It has not had its first turn. -/
  | created
  /-- `await self._queue.get()` -/
  | getting
  /-- `await client.post(...)` -/
  | posting (r : Request)
  /-- `await self._sleep_fn(backoff)`, after a request that has failed. -/
  | sleeping (r : Request)
  | done
  deriving DecidableEq

/-- The request a drainer is concerned with. -/
def Phase.request? : Phase → Option Request
  | .posting r => some r
  | .sleeping r => some r
  | _ => none

/-- A drainer task; none has been started under a number that is not in use. -/
structure Drainer where
  phase : Phase := .done
  /-- It has been cancelled, and is to see it. -/
  requested : Bool := false

/-- What has become of the dispatch of an event. -/
inductive Fate where
  /-- It has not begun, or is going on. -/
  | open
  /-- `_dispatch_event` has returned. -/
  | dispatched
  /-- It has raised. -/
  | cut
  deriving DecidableEq

end WebhookDispatcher

open WebhookDispatcher

/-- `WebhookDispatcher` -/
structure WebhookDispatcher where
  urls : List String
  maxRetries : ℤ
  queue : AsyncQueue LifecycleEvent
  task : Option TaskId := none
  drainers : TaskId → Drainer := fun _ => {}
  nextTask : TaskId := 0
  /-- The drainers that calls of `stop` are waiting for. -/
  stopping : List TaskId := []
  /-- The events the queue had room for. -/
  accepted : List LifecycleEvent := []
  /-- The events drainers have got from the queue. -/
  taken : List LifecycleEvent := []
  fate : ℕ → Fate := fun _ => .open
  /-- The requests that have been made, and those among them that have succeeded. -/
  requests : List WebhookDispatcher.Request := []
  delivered : List WebhookDispatcher.Request := []

namespace WebhookDispatcher

/-- What can happen. -/
inductive Action where
  | enqueue (event : LifecycleEvent)
  | start
  /-- `stop` is called. -/
  | stop
  /-- A call of `stop` goes on after it has waited for a drainer. -/
  | stopped (t : TaskId)
  /-- A drainer has its first turn. -/
  | begin (t : TaskId)
  /-- `self._queue.get()` returns. -/
  | take (t : TaskId)
  /-- The request of a drainer succeeds, or raises an `Exception`. -/
  | answer (t : TaskId) (ok : Bool)
  /-- `self._sleep_fn(backoff)` returns, or raises an `Exception`. -/
  | wake (t : TaskId) (raises : Bool)
  /-- `CancelledError` is raised in a drainer. -/
  | unwind (t : TaskId)

/-- What happens by itself, and what enqueues: anything but a start or a stop. -/
def Action.inner : Action → Bool
  | .start => false
  | .stop => false
  | .stopped _ => false
  | _ => true

/-- A drainer goes on somewhere else. -/
def setPhase (s : WebhookDispatcher) (t : TaskId) (phase : Phase) : WebhookDispatcher :=
  { s with drainers := Function.update s.drainers t { s.drainers t with phase := phase } }

/-- A drainer makes a request. -/
def send (s : WebhookDispatcher) (t : TaskId) (r : Request) : WebhookDispatcher :=
  { s.setPhase t (.posting r) with requests := s.requests ++ [r] }

/-- `_dispatch_event` is over. -/
def settle (s : WebhookDispatcher) (t : TaskId) (phase : Phase) (place : ℕ) (fate : Fate) :
    WebhookDispatcher :=
  { s.setPhase t phase with fate := Function.update s.fate place fate }

/-- The loop of `_dispatch_event` gets to an URL. If there are to be no attempts, the drainer has
given up on this one and all others before it waits again. -/
def nextUrl (s : WebhookDispatcher) (t : TaskId) (place index : ℕ) : WebhookDispatcher :=
  if index < s.urls.length ∧ 1 ≤ s.maxRetries then s.send t ⟨place, index, 1⟩
  else s.settle t .getting place .dispatched

/-- The loop of `_post_with_retry` goes on after an attempt that has failed. -/
def nextAttempt (s : WebhookDispatcher) (t : TaskId) (r : Request) : WebhookDispatcher :=
  if r.attempt < s.maxRetries then s.send t { r with attempt := r.attempt + 1 }
  else s.nextUrl t r.place (r.index + 1)

/-- `self._task is not None and not self._task.done()` -/
def running? (s : WebhookDispatcher) : Option TaskId :=
  s.task.filter fun t => (s.drainers t).phase ≠ .done

/-- One step. -/
def step (s : WebhookDispatcher) : Action → Option WebhookDispatcher
  | .enqueue event =>
    match s.queue.putNowait event with
    | some queue => some { s with queue := queue, accepted := s.accepted ++ [event] }
    | none => some s
  | .start =>
    match s.running? with
    | some _ => some s
    | none => some { s with
        task := some s.nextTask
        drainers := Function.update s.drainers s.nextTask ⟨.created, false⟩
        nextTask := s.nextTask + 1 }
  | .stop =>
    match s.running? with
    | some t => some { s with
        drainers := Function.update s.drainers t { s.drainers t with requested := true }
        stopping := t :: s.stopping }
    | none => some { s with task := none }
  | .stopped t =>
    if t ∈ s.stopping ∧ (s.drainers t).phase = .done then
      some { s with task := none, stopping := s.stopping.erase t }
    else none
  | .begin t =>
    if (s.drainers t).requested then none
    else match (s.drainers t).phase with
    | .created => some (s.setPhase t .getting)
    | _ => none
  | .take t =>
    if (s.drainers t).requested then none
    else match (s.drainers t).phase, s.queue.getNowait with
    | .getting, some (event, queue) =>
      some ({ s with queue := queue, taken := s.taken ++ [event] }.nextUrl t s.taken.length 0)
    | _, _ => none
  | .answer t ok =>
    if (s.drainers t).requested then none
    else match (s.drainers t).phase with
    | .posting r =>
      if ok then some ({ s with delivered := r :: s.delivered }.nextUrl t r.place (r.index + 1))
      else if r.attempt < s.maxRetries then some (s.setPhase t (.sleeping r))
      else some (s.nextAttempt t r)
    | _ => none
  | .wake t raises =>
    if (s.drainers t).requested then none
    else match (s.drainers t).phase with
    | .sleeping r =>
      if raises then some (s.settle t .getting r.place .cut)
      else some (s.nextAttempt t r)
    | _ => none
  | .unwind t =>
    if (s.drainers t).requested then
      match (s.drainers t).phase with
      | .done => none
      | phase =>
        match phase.request? with
        | some r => some (s.settle t .done r.place .cut)
        | none => some (s.setPhase t .done)
    else none

/-- A new dispatcher. -/
def new (urls : List String) (maxRetries queueMaxsize : ℤ) : WebhookDispatcher where
  urls := urls
  maxRetries := maxRetries
  queue := .empty queueMaxsize

/-! ### What is said of a run -/

/-- The requests for an event: to which URLs, and the attempts. -/
def sentFor (s : WebhookDispatcher) (place : ℕ) : List (ℕ × ℕ) :=
  (s.requests.filter (·.place = place)).map fun r => (r.index, r.attempt)

/-- Whether an attempt for an event has succeeded. -/
def succeeded (s : WebhookDispatcher) (place : ℕ) : ℕ → ℕ → Bool :=
  fun index attempt => ⟨place, index, attempt⟩ ∈ s.delivered

/-- What should be requested for an event: the URLs in their order, each until it succeeds and at
most `max_retries` times. -/
def scriptFor (s : WebhookDispatcher) (place : ℕ) : List (ℕ × ℕ) :=
  Attempts.script (s.succeeded place) s.maxRetries.toNat s.urls.length

/-- A drainer is at work on a request, or waits to repeat it. -/
def Busy (s : WebhookDispatcher) (t : TaskId) (r : Request) : Prop :=
  (s.drainers t).phase.request? = some r

/-- A drainer that is not done. -/
def Live (s : WebhookDispatcher) (t : TaskId) : Prop := (s.drainers t).phase ≠ .done

instance (s : WebhookDispatcher) (t : TaskId) : Decidable (s.Live t) :=
  inferInstanceAs (Decidable ((s.drainers t).phase ≠ .done))

/-- What has been requested for the events so far is as it should be. -/
structure FollowsScript (s : WebhookDispatcher) : Prop where
  /-- Events leave the queue in the order they came, and none gets lost there. -/
  accepted : s.accepted = s.taken ++ s.queue.items
  /-- Requests are a beginning of what they should be. -/
  isPrefix : ∀ p < s.taken.length, s.sentFor p <+: s.scriptFor p
  /-- They are all that they should be when `_dispatch_event` has returned. -/
  whole : ∀ p < s.taken.length, s.fate p = .dispatched → s.sentFor p = s.scriptFor p
  /-- When it has neither returned nor raised, exactly one drainer is at it. -/
  inHand : ∀ p < s.taken.length, s.fate p = .open → ∃! t, ∃ r, s.Busy t r ∧ r.place = p
  /-- There are no other requests. -/
  only : ∀ r ∈ s.requests, r.place < s.taken.length

/-- Nobody starts or stops the dispatcher while a call of `stop` is waiting. -/
def Serial (s : WebhookDispatcher) : Action → Prop
  | .start => s.stopping = []
  | .stop => s.stopping = []
  | _ => True

/-- A request comes before another: for an earlier event, or for the same one and an URL before
its, or for the same of both an earlier attempt. -/
def Request.Before (r r' : Request) : Prop :=
  r.place < r'.place ∨ r.place = r'.place ∧
    (r.index < r'.index ∨ r.index = r'.index ∧ r.attempt < r'.attempt)

/-! ### The parts of a step -/

variable {s s' : WebhookDispatcher} {t u : TaskId} {r r' : Request} {p : ℕ}

@[simp] theorem drainers_setPhase_self (s : WebhookDispatcher) (t : TaskId) (phase : Phase) :
    ((s.setPhase t phase).drainers t).phase = phase := by
  simp [setPhase]

theorem drainers_setPhase_of_ne (s : WebhookDispatcher) (phase : Phase) (h : u ≠ t) :
    (s.setPhase t phase).drainers u = s.drainers u := Function.update_of_ne h _ _

/-- After it has gone on somewhere else, a drainer is at what it is at there. -/
theorem busy_setPhase (s : WebhookDispatcher) (t u : TaskId) (phase : Phase) (r : Request) :
    (s.setPhase t phase).Busy u r ↔
      u = t ∧ phase.request? = some r ∨ u ≠ t ∧ s.Busy u r := by
  by_cases h : u = t
  · rw [h, Busy, drainers_setPhase_self]
    simp
  · rw [Busy, drainers_setPhase_of_ne s phase h]
    simp [h, Busy]

theorem sentFor_send (s : WebhookDispatcher) (t : TaskId) (r : Request) (p : ℕ) :
    (s.send t r).sentFor p =
      s.sentFor p ++ if r.place = p then [(r.index, r.attempt)] else [] := by
  have hrequests : (s.send t r).requests = s.requests ++ [r] := rfl
  rw [sentFor, sentFor, hrequests, List.filter_append, List.map_append]
  by_cases h : r.place = p <;> simp [h]

theorem running?_eq_some (h : s.running? = some t) : s.task = some t ∧ s.Live t := by
  obtain ⟨htask, hlive⟩ := Option.filter_eq_some_iff.mp h
  exact ⟨htask, of_decide_eq_true hlive⟩

theorem running?_eq_none (h : s.running? = none) (htask : s.task = some t) : ¬ s.Live t := by
  intro hlive
  have hrunning : s.running? = some t := by
    rw [running?, htask]
    exact Option.filter_some_pos (decide_eq_true hlive)
  cases h.symm.trans hrunning

theorem Busy.live (h : s.Busy t r) : s.Live t := by
  intro hdone
  rw [Busy, hdone] at h
  cases h

theorem Busy.inj (h : s.Busy t r) (h' : s.Busy t r') : r = r' := Option.some.inj (h.symm.trans h')

/-- What happens by itself starts no drainer, and makes nobody wait for one. -/
structure Onward (s s' : WebhookDispatcher) : Prop where
  stopping : s'.stopping = s.stopping
  live : ∀ u, s'.Live u → s.Live u

theorem Onward.setPhase {phase : Phase} (hlive : s.Live t) : Onward s (s.setPhase t phase) where
  stopping := rfl
  live u hu := by
    by_cases hut : u = t
    · exact hut ▸ hlive
    · rwa [Live, drainers_setPhase_of_ne s phase hut] at hu

theorem Onward.nextUrl {i : ℕ} (hlive : s.Live t) : Onward s (s.nextUrl t p i) := by
  unfold WebhookDispatcher.nextUrl
  split
  · exact ⟨rfl, (Onward.setPhase hlive).live⟩
  · exact ⟨rfl, (Onward.setPhase hlive).live⟩

theorem Onward.nextAttempt (hlive : s.Live t) : Onward s (s.nextAttempt t r) := by
  unfold WebhookDispatcher.nextAttempt
  split
  · exact ⟨rfl, (Onward.setPhase hlive).live⟩
  · exact Onward.nextUrl hlive

theorem onward_of_inner {action : Action} (hinner : action.inner = true)
    (hstep : step s action = some s') : Onward s s' := by
  cases action with
  | start => cases hinner
  | stop => cases hinner
  | stopped t => cases hinner
  | enqueue event =>
    rw [step] at hstep
    split at hstep
    all_goals exact Option.some.inj hstep ▸ ⟨rfl, fun _ hu => hu⟩
  | begin t =>
    rw [step] at hstep
    split at hstep
    · cases hstep
    split at hstep
    · rename_i hphase
      exact Option.some.inj hstep ▸ .setPhase (by simp [Live, hphase])
    · cases hstep
  | take t =>
    rw [step] at hstep
    split at hstep
    · cases hstep
    split at hstep
    · rename_i event queue hphase _
      obtain rfl := Option.some.inj hstep
      have hlive : s.Live t := by simp [Live, hphase]
      have honward := Onward.nextUrl (s := { s with queue := queue, taken := s.taken ++ [event] })
        (p := s.taken.length) (i := 0) hlive
      exact ⟨honward.stopping, honward.live⟩
    · cases hstep
  | answer t ok =>
    rw [step] at hstep
    split at hstep
    · cases hstep
    split at hstep
    · rename_i r hphase
      have hlive : s.Live t := by simp [Live, hphase]
      split_ifs at hstep
      · obtain rfl := Option.some.inj hstep
        have honward := Onward.nextUrl (s := { s with delivered := r :: s.delivered })
          (p := r.place) (i := r.index + 1) hlive
        exact ⟨honward.stopping, honward.live⟩
      · exact Option.some.inj hstep ▸ .setPhase hlive
      · exact Option.some.inj hstep ▸ .nextAttempt hlive
    · cases hstep
  | wake t raises =>
    rw [step] at hstep
    split at hstep
    · cases hstep
    split at hstep
    · rename_i r hphase
      have hlive : s.Live t := by simp [Live, hphase]
      split_ifs at hstep
      · exact Option.some.inj hstep ▸ ⟨rfl, (Onward.setPhase hlive).live⟩
      · exact Option.some.inj hstep ▸ .nextAttempt hlive
    · cases hstep
  | unwind t =>
    rw [step] at hstep
    split_ifs at hstep
    split at hstep
    · cases hstep
    · rename_i hdone
      have hlive : s.Live t := fun heq => hdone heq
      split at hstep
      · exact Option.some.inj hstep ▸ ⟨rfl, (Onward.setPhase hlive).live⟩
      · exact Option.some.inj hstep ▸ .setPhase hlive

theorem stopping_start (hstep : step s .start = some s') : s'.stopping = s.stopping := by
  rw [step] at hstep
  split at hstep
  all_goals exact Option.some.inj hstep ▸ rfl

theorem serial_of_inner {action : Action} (hinner : action.inner = true) : Serial s action := by
  cases action with
  | start => cases hinner
  | stop => cases hinner
  | _ => trivial

/-- A drainer that is cancelled stays where it is for the moment. -/
theorem phase_requested (s : WebhookDispatcher) (t u : TaskId) :
    (Function.update s.drainers t { s.drainers t with requested := true } u).phase =
      (s.drainers u).phase := by
  by_cases hut : u = t
  · simp [hut]
  · simp [hut]

/-- A call of `stop` waits for the drainer there is. -/
theorem stopping_stop (hstep : step s .stop = some s') :
    s'.stopping = s.running?.toList ++ s.stopping ∧ ∀ u, s'.Live u → s.Live u := by
  rw [step] at hstep
  split at hstep
  · rename_i t hrunning
    obtain rfl := Option.some.inj hstep
    rw [hrunning]
    refine ⟨rfl, fun u hu => ?_⟩
    rwa [Live, phase_requested] at hu
  · rename_i hrunning
    obtain rfl := Option.some.inj hstep
    rw [hrunning]
    exact ⟨rfl, fun _ hu => hu⟩

/-! ### The invariant -/

/-- A drainer that is at a request has made this one last, and all that come before it. -/
structure AtWork (s : WebhookDispatcher) (r : Request) : Prop where
  fate : s.fate r.place = .open
  place : r.place < s.taken.length
  index : r.index < s.urls.length
  cursor : Attempts.Cursor (s.succeeded r.place) s.maxRetries.toNat (s.sentFor r.place) r.index
    r.attempt

/-- What holds of a dispatcher. -/
structure WebhookInv (s : WebhookDispatcher) : Prop where
  accepted : s.accepted = s.taken ++ s.queue.items
  unborn : ∀ t, s.nextTask ≤ t → ¬ s.Live t
  only : ∀ r ∈ s.requests, r.place < s.taken.length
  delivered : ∀ r ∈ s.delivered, r ∈ s.requests
  atWork : ∀ t r, s.Busy t r → s.AtWork r
  apart : ∀ t u r r', s.Busy t r → s.Busy u r' → r.place = r'.place → t = u
  inHand : ∀ p < s.taken.length, s.fate p = .open → ∃ t r, s.Busy t r ∧ r.place = p
  untaken : ∀ p, s.taken.length ≤ p → s.fate p = .open
  dispatched : ∀ p, s.fate p = .dispatched → s.sentFor p = s.scriptFor p
  cut : ∀ p, s.fate p = .cut → s.sentFor p <+: s.scriptFor p

theorem webhookInv_new (urls : List String) (maxRetries queueMaxsize : ℤ) :
    WebhookInv (new urls maxRetries queueMaxsize) where
  accepted := rfl
  unborn t _ h := h rfl
  only r hr := by cases hr
  delivered r hr := by cases hr
  atWork t r h := by cases h
  apart t u r r' h := by cases h
  inHand p hp := by cases hp
  untaken p _ := rfl
  dispatched p h := by cases h
  cut p h := by cases h

namespace WebhookInv

/-- Nothing has been requested for an event that has not been taken. -/
theorem sentFor_of_le (h : WebhookInv s) (hp : s.taken.length ≤ p) : s.sentFor p = [] := by
  rw [sentFor, List.map_eq_nil_iff, List.filter_eq_nil_iff]
  intro r hr hplace
  exact absurd (h.only r hr) (by simpa [of_decide_eq_true hplace] using hp)

/-- A step that concerns no request. -/
theorem frame (h : WebhookInv s) (hurls : s'.urls = s.urls) (hmax : s'.maxRetries = s.maxRetries)
    (hrequests : s'.requests = s.requests) (hdelivered : s'.delivered = s.delivered)
    (htaken : s'.taken = s.taken) (hfate : s'.fate = s.fate)
    (hbusy : ∀ t r, s'.Busy t r ↔ s.Busy t r) (haccepted : s'.accepted = s'.taken ++ s'.queue.items)
    (hunborn : ∀ t, s'.nextTask ≤ t → ¬ s'.Live t) : WebhookInv s' := by
  have hsent : ∀ p, s'.sentFor p = s.sentFor p := fun p => by rw [sentFor, sentFor, hrequests]
  have hsucceeded : ∀ p, s'.succeeded p = s.succeeded p := fun p => by
    unfold succeeded
    rw [hdelivered]
  have hscript : ∀ p, s'.scriptFor p = s.scriptFor p := fun p => by
    rw [scriptFor, scriptFor, hsucceeded, hmax, hurls]
  refine ⟨haccepted, hunborn, ?_, ?_, fun t r hr => ?_, fun t u r r' hr hr' => ?_, ?_, ?_, ?_, ?_⟩
  · rw [hrequests, htaken]
    exact h.only
  · rw [hdelivered, hrequests]
    exact h.delivered
  · obtain ⟨h₁, h₂, h₃, h₄⟩ := h.atWork t r ((hbusy t r).mp hr)
    refine ⟨hfate ▸ h₁, htaken ▸ h₂, hurls ▸ h₃, ?_⟩
    rw [hsucceeded, hsent, hmax]
    exact h₄
  · exact h.apart t u r r' ((hbusy t r).mp hr) ((hbusy u r').mp hr')
  · rw [htaken, hfate]
    intro p hp hopen
    obtain ⟨t, r, hr, hplace⟩ := h.inHand p hp hopen
    exact ⟨t, r, (hbusy t r).mpr hr, hplace⟩
  · rw [htaken, hfate]
    exact h.untaken
  · intro p
    rw [hfate, hsent, hscript]
    exact h.dispatched p
  · intro p
    rw [hfate, hsent, hscript]
    exact h.cut p

end WebhookInv

/-- What holds when a drainer is in the middle of a step, for all but the event it is at. -/
structure InvBut (s : WebhookDispatcher) (t : TaskId) (p : ℕ) : Prop where
  accepted : s.accepted = s.taken ++ s.queue.items
  unborn : ∀ t, s.nextTask ≤ t → ¬ s.Live t
  only : ∀ r ∈ s.requests, r.place < s.taken.length
  delivered : ∀ r ∈ s.delivered, r ∈ s.requests
  atWork : ∀ u r, u ≠ t → s.Busy u r → s.AtWork r
  apart : ∀ u v r r', u ≠ t → v ≠ t → s.Busy u r → s.Busy v r' → r.place = r'.place → u = v
  others : ∀ u r, u ≠ t → s.Busy u r → r.place ≠ p
  inHand : ∀ q < s.taken.length, q ≠ p → s.fate q = .open →
    ∃ u r, u ≠ t ∧ s.Busy u r ∧ r.place = q
  untaken : ∀ q, s.taken.length ≤ q → s.fate q = .open
  dispatched : ∀ q, s.fate q = .dispatched → s.sentFor q = s.scriptFor q
  cut : ∀ q, s.fate q = .cut → s.sentFor q <+: s.scriptFor q
  place : p < s.taken.length
  fate : s.fate p = .open
  live : s.Live t

namespace InvBut

/-- What the others are at when a drainer has gone on somewhere else. -/
theorem unborn_setPhase (h : InvBut s t p) (phase : Phase) (u : TaskId) (hu : s.nextTask ≤ u) :
    ¬ (s.setPhase t phase).Live u := by
  intro hlive
  by_cases hut : u = t
  · exact h.unborn t (hut ▸ hu) h.live
  · rw [Live, drainers_setPhase_of_ne s phase hut] at hlive
    exact h.unborn u hu hlive

/-- The dispatch of the event is over. -/
theorem settle {phase : Phase} {fate : Fate} (h : InvBut s t p) (hphase : phase.request? = none)
    (hfate : fate ≠ .open) (hdispatched : fate = .dispatched → s.sentFor p = s.scriptFor p)
    (hcut : fate = .cut → s.sentFor p <+: s.scriptFor p) :
    WebhookInv (s.settle t phase p fate) := by
  have hb : ∀ u r, (s.settle t phase p fate).Busy u r ↔ u ≠ t ∧ s.Busy u r := fun u r => by
    refine (busy_setPhase s t u phase r).trans ?_
    rw [hphase]
    simp
  have hother : ∀ q, q ≠ p → (s.settle t phase p fate).fate q = s.fate q := fun q hq =>
    Function.update_of_ne hq _ _
  have hself : (s.settle t phase p fate).fate p = fate := Function.update_self _ _ _
  refine ⟨h.accepted, h.unborn_setPhase phase, h.only, h.delivered, fun u r hr => ?_,
    fun u v r r' hr hr' => ?_, fun q hq hopen => ?_, fun q hq => ?_, fun q hq => ?_,
    fun q hq => ?_⟩
  · obtain ⟨hut, hr⟩ := (hb u r).mp hr
    obtain ⟨h₁, h₂, h₃, h₄⟩ := h.atWork u r hut hr
    exact ⟨(hother _ (h.others u r hut hr)).trans h₁, h₂, h₃, h₄⟩
  · obtain ⟨hut, hr⟩ := (hb u r).mp hr
    obtain ⟨hvt, hr'⟩ := (hb v r').mp hr'
    exact h.apart u v r r' hut hvt hr hr'
  · by_cases hqp : q = p
    · rw [hqp, hself] at hopen
      exact absurd hopen hfate
    · rw [hother q hqp] at hopen
      obtain ⟨u, r, hut, hr, hplace⟩ := h.inHand q hq hqp hopen
      exact ⟨u, r, (hb u r).mpr ⟨hut, hr⟩, hplace⟩
  · have hqp : q ≠ p := fun heq => absurd h.place (Nat.not_lt.mpr (heq ▸ hq))
    rw [hother q hqp]
    exact h.untaken q hq
  · by_cases hqp : q = p
    · rw [hqp, hself] at hq
      exact hqp ▸ hdispatched hq
    · rw [hother q hqp] at hq
      exact h.dispatched q hq
  · by_cases hqp : q = p
    · rw [hqp, hself] at hq
      exact hqp ▸ hcut hq
    · rw [hother q hqp] at hq
      exact h.cut q hq

/-- The drainer makes a request for the event, the next one there is to be. -/
theorem send (h : InvBut s t r.place) (hindex : r.index < s.urls.length)
    (hcursor : Attempts.Cursor (s.succeeded r.place) s.maxRetries.toNat
      (s.sentFor r.place ++ [(r.index, r.attempt)]) r.index r.attempt) :
    WebhookInv (s.send t r) := by
  have hb : ∀ u r', (s.send t r).Busy u r' ↔ u = t ∧ r = r' ∨ u ≠ t ∧ s.Busy u r' := fun u r' => by
    refine (busy_setPhase s t u (.posting r) r').trans ?_
    simp [Phase.request?]
  have hsent : ∀ q, q ≠ r.place → (s.send t r).sentFor q = s.sentFor q := fun q hq => by
    rw [sentFor_send, if_neg (Ne.symm hq), List.append_nil]
  have hne : ∀ q fate, fate ≠ .open → s.fate q = fate → q ≠ r.place := fun q fate hfate hq heq =>
    hfate (hq.symm.trans (heq ▸ h.fate))
  refine ⟨h.accepted, h.unborn_setPhase _, fun r' hr' => ?_, fun r' hr' => ?_, fun u r' hr' => ?_,
    fun u v r₁ r₂ h₁ h₂ heq => ?_, fun q hq hopen => ?_, h.untaken, fun q hq => ?_, fun q hq => ?_⟩
  · rcases List.mem_append.mp hr' with hold | hnew
    · exact h.only r' hold
    · rw [List.mem_singleton.mp hnew]
      exact h.place
  · exact List.mem_append_left _ (h.delivered r' hr')
  · rcases (hb u r').mp hr' with ⟨-, rfl⟩ | ⟨hut, hr'⟩
    · refine ⟨h.fate, h.place, hindex, ?_⟩
      rw [sentFor_send, if_pos rfl]
      exact hcursor
    · obtain ⟨h₁, h₂, h₃, h₄⟩ := h.atWork u r' hut hr'
      refine ⟨h₁, h₂, h₃, ?_⟩
      rw [hsent _ (h.others u r' hut hr')]
      exact h₄
  · rcases (hb u r₁).mp h₁ with ⟨hut, rfl⟩ | ⟨hut, h₁⟩
    · rcases (hb v r₂).mp h₂ with ⟨hvt, -⟩ | ⟨hvt, h₂⟩
      · exact hut.trans hvt.symm
      · exact absurd heq.symm (h.others v r₂ hvt h₂)
    · rcases (hb v r₂).mp h₂ with ⟨-, rfl⟩ | ⟨hvt, h₂⟩
      · exact absurd heq (h.others u r₁ hut h₁)
      · exact h.apart u v r₁ r₂ hut hvt h₁ h₂ heq
  · by_cases hqp : q = r.place
    · exact ⟨t, r, (hb t r).mpr (.inl ⟨rfl, rfl⟩), hqp.symm⟩
    · obtain ⟨u, r', hut, hr', hp⟩ := h.inHand q hq hqp hopen
      exact ⟨u, r', (hb u r').mpr (.inr ⟨hut, hr'⟩), hp⟩
  · rw [hsent q (hne q _ (by simp) hq)]
    exact h.dispatched q hq
  · rw [hsent q (hne q _ (by simp) hq)]
    exact h.cut q hq

/-- The loop over the URLs gets to one, with all that should be requested before it. -/
theorem nextUrl {index : ℕ} (h : InvBut s t p) (hindex : index ≤ s.urls.length)
    (hsent : s.sentFor p = Attempts.script (s.succeeded p) s.maxRetries.toNat index)
    (hfailed : ∀ v b, index ≤ v → s.succeeded p v b = false) :
    WebhookInv (s.nextUrl t p index) := by
  unfold WebhookDispatcher.nextUrl
  split
  · rename_i hmore
    have h1 : 1 ≤ s.maxRetries.toNat := by omega
    exact send (r := ⟨p, index, 1⟩) h hmore.1 (Attempts.Cursor.next hsent h1 hfailed)
  · rename_i hmore
    refine h.settle rfl (by simp) (fun _ => ?_) (by simp)
    rw [hsent, scriptFor]
    rcases Nat.lt_or_ge index s.urls.length with hlt | hge
    · -- There are no attempts at all, and the script is empty for any number of URLs.
      have h0 : s.maxRetries.toNat = 0 := by
        have : ¬ 1 ≤ s.maxRetries := fun h1 => hmore ⟨hlt, h1⟩
        omega
      rw [h0, Attempts.script_of_zero, Attempts.script_of_zero]
    · rw [Nat.le_antisymm hindex hge]

/-- One of the requests for the event has succeeded. -/
theorem deliver (h : InvBut s t r.place) (hr : r ∈ s.requests) :
    InvBut { s with delivered := r :: s.delivered } t r.place := by
  have hsucceeded : ∀ q, q ≠ r.place →
      succeeded { s with delivered := r :: s.delivered } q = s.succeeded q := by
    intro q hq
    funext v b
    have hne : (⟨q, v, b⟩ : Request) ≠ r := fun heq => hq (congrArg Request.place heq)
    simp [succeeded, hne]
  have hscript : ∀ q, q ≠ r.place →
      scriptFor { s with delivered := r :: s.delivered } q = s.scriptFor q := by
    intro q hq
    rw [scriptFor, scriptFor, hsucceeded q hq]
  have hne : ∀ q fate, fate ≠ .open → s.fate q = fate → q ≠ r.place := fun q fate hfate hq heq =>
    hfate (hq.symm.trans (heq ▸ h.fate))
  refine { h with
    delivered := fun r' hr' => ?_
    atWork := fun u r' hut hr' => ?_
    dispatched := fun q hq => ?_
    cut := fun q hq => ?_ }
  · rcases List.mem_cons.mp hr' with rfl | hold
    · exact hr
    · exact h.delivered r' hold
  · obtain ⟨h₁, h₂, h₃, h₄⟩ := h.atWork u r' hut hr'
    refine ⟨h₁, h₂, h₃, ?_⟩
    rw [hsucceeded _ (h.others u r' hut hr')]
    exact h₄
  · rw [hscript q (hne q _ (by simp) hq)]
    exact h.dispatched q hq
  · rw [hscript q (hne q _ (by simp) hq)]
    exact h.cut q hq

end InvBut

namespace WebhookInv

/-- A drainer that is at a request leaves the others out of account. -/
theorem invBut (h : WebhookInv s) (hr : s.Busy t r) : InvBut s t r.place where
  accepted := h.accepted
  unborn := h.unborn
  only := h.only
  delivered := h.delivered
  atWork u r' _ hr' := h.atWork u r' hr'
  apart u v r r' _ _ hr hr' := h.apart u v r r' hr hr'
  others u r' hut hr' heq := hut (h.apart u t r' r hr' hr heq)
  inHand q hq hne hopen := by
    obtain ⟨u, r', hr', hplace⟩ := h.inHand q hq hopen
    refine ⟨u, r', ?_, hr', hplace⟩
    rintro rfl
    exact hne (by rw [← hplace, hr.inj hr'])
  untaken := h.untaken
  dispatched := h.dispatched
  cut := h.cut
  place := (h.atWork t r hr).place
  fate := (h.atWork t r hr).fate
  live := hr.live

/-- A drainer gets an event from the queue. -/
theorem take {event : LifecycleEvent} {queue : AsyncQueue LifecycleEvent} (h : WebhookInv s)
    (hphase : (s.drainers t).phase = .getting) (hget : s.queue.getNowait = some (event, queue)) :
    InvBut { s with queue := queue, taken := s.taken ++ [event] } t s.taken.length := by
  have hitems := (AsyncQueue.getNowait_eq_some hget).1
  have hlt : ∀ q, q < s.taken.length → q < (s.taken ++ [event]).length := fun q hq => by
    rw [List.length_append]
    omega
  have hbusy : ∀ u r, s.Busy u r → u ≠ t := by
    rintro u r hr rfl
    rw [Busy, hphase] at hr
    cases hr
  refine ⟨?_, h.unborn, fun r hr => hlt _ (h.only r hr), h.delivered, fun u r _ hr => ?_,
    fun u v r r' _ _ hr hr' => h.apart u v r r' hr hr', fun u r _ hr => ?_,
    fun q hq hne hopen => ?_, fun q hq =>
      h.untaken q ?_, h.dispatched, h.cut, ?_, h.untaken _ le_rfl, ?_⟩
  · rw [h.accepted, hitems, List.append_assoc, List.singleton_append]
  · obtain ⟨h₁, h₂, h₃, h₄⟩ := h.atWork u r hr
    exact ⟨h₁, hlt _ h₂, h₃, h₄⟩
  · exact Nat.ne_of_lt (h.atWork u r hr).place
  · rw [List.length_append, List.length_singleton] at hq
    obtain ⟨u, r, hr, hplace⟩ := h.inHand q (by omega) hopen
    exact ⟨u, r, hbusy u r hr, hr, hplace⟩
  · rw [List.length_append] at hq
    omega
  · rw [List.length_append, List.length_singleton]
    exact Nat.lt_succ_self _
  · intro hdone
    rw [hphase] at hdone
    cases hdone

/-- The phase of a drainer that is at no request changes, and it is at none afterwards. -/
theorem setPhase {phase : Phase} (h : WebhookInv s) (hlive : s.Live t)
    (hbefore : (s.drainers t).phase.request? = none) (hafter : phase.request? = none) :
    WebhookInv (s.setPhase t phase) := by
  refine h.frame rfl rfl rfl rfl rfl rfl (fun u r => ?_) h.accepted fun u hu hlive' => ?_
  · rw [busy_setPhase, hafter]
    by_cases hut : u = t
    · rw [hut, Busy, hbefore]
      simp
    · simp [hut]
  · by_cases hut : u = t
    · exact h.unborn t (hut ▸ hu) hlive
    · rw [Live, drainers_setPhase_of_ne s phase hut] at hlive'
      exact h.unborn u hu hlive'

/-- `enqueue` -/
theorem enqueue {event : LifecycleEvent} (h : WebhookInv s)
    (hstep : step s (.enqueue event) = some s') : WebhookInv s' := by
  cases hfull : s.queue.full with
  | true =>
    rw [step, AsyncQueue.putNowait_of_full hfull] at hstep
    exact Option.some.inj hstep ▸ h
  | false =>
    obtain ⟨queue, hput, -, hitems⟩ := AsyncQueue.putNowait_of_room hfull event
    rw [step, hput] at hstep
    obtain rfl := Option.some.inj hstep
    refine h.frame rfl rfl rfl rfl rfl rfl (fun _ _ => Iff.rfl) ?_ h.unborn
    show s.accepted ++ [event] = s.taken ++ queue.items
    rw [hitems, h.accepted, List.append_assoc]

/-- `start` -/
theorem start (h : WebhookInv s) (hstep : step s .start = some s') : WebhookInv s' := by
  cases hrunning : s.running? with
  | some t =>
    rw [step, hrunning] at hstep
    exact Option.some.inj hstep ▸ h
  | none =>
    rw [step, hrunning] at hstep
    obtain rfl := Option.some.inj hstep
    have hdone : (s.drainers s.nextTask).phase = .done :=
      Decidable.of_not_not (h.unborn s.nextTask le_rfl)
    refine h.frame rfl rfl rfl rfl rfl rfl (fun u r => ?_) h.accepted fun u hu hlive => ?_
    · by_cases hut : u = s.nextTask
      · simp [hut, Busy, hdone, Phase.request?]
      · simp [Busy, hut]
    · have hlt : s.nextTask < u := hu
      have hlive : s.Live u := by simpa [Live, Nat.ne_of_gt hlt] using hlive
      exact h.unborn u (Nat.le_of_lt hlt) hlive

/-- `stop` is called, and cancels the drainer. -/
theorem stop (h : WebhookInv s) (hstep : step s .stop = some s') : WebhookInv s' := by
  cases hrunning : s.running? with
  | none =>
    rw [step, hrunning] at hstep
    obtain rfl := Option.some.inj hstep
    exact h.frame rfl rfl rfl rfl rfl rfl (fun _ _ => Iff.rfl) h.accepted h.unborn
  | some t =>
    rw [step, hrunning] at hstep
    obtain rfl := Option.some.inj hstep
    refine h.frame rfl rfl rfl rfl rfl rfl (fun u r => ?_) h.accepted fun u hu hlive => ?_
    · rw [Busy, phase_requested, Busy]
    · rw [Live, phase_requested] at hlive
      exact h.unborn u hu hlive

/-- `stop` goes on. -/
theorem stopped (h : WebhookInv s) (hstep : step s (.stopped t) = some s') : WebhookInv s' := by
  rw [step] at hstep
  split_ifs at hstep
  obtain rfl := Option.some.inj hstep
  exact h.frame rfl rfl rfl rfl rfl rfl (fun _ _ => Iff.rfl) h.accepted h.unborn

theorem begin (h : WebhookInv s) (hstep : step s (.begin t) = some s') : WebhookInv s' := by
  rw [step] at hstep
  split at hstep
  · cases hstep
  split at hstep
  · rename_i hphase
    obtain rfl := Option.some.inj hstep
    exact h.setPhase (by simp [Live, hphase]) (by rw [hphase]; rfl) rfl
  · cases hstep

/-- A drainer gets an event, and begins with the first URL. -/
theorem takeStep (h : WebhookInv s) (hstep : step s (.take t) = some s') : WebhookInv s' := by
  rw [step] at hstep
  split at hstep
  · cases hstep
  split at hstep
  · rename_i event queue hphase hget
    obtain rfl := Option.some.inj hstep
    refine (h.take hphase hget).nextUrl (Nat.zero_le _) (h.sentFor_of_le le_rfl) fun v b _ => ?_
    refine decide_eq_false fun hmem => ?_
    exact Nat.lt_irrefl _ (h.only _ (h.delivered _ hmem))
  · cases hstep

/-- A drainer that is at a request goes on with the next one, of this URL or another. -/
theorem nextAttempt (h : WebhookInv s) (hr : s.Busy t r) : WebhookInv (s.nextAttempt t r) := by
  obtain ⟨-, -, hindex, hcursor⟩ := h.atWork t r hr
  unfold WebhookDispatcher.nextAttempt
  split
  · have hmore : r.attempt < s.maxRetries.toNat := by omega
    have hbut : InvBut s t r.place := h.invBut hr
    exact InvBut.send (r := { r with attempt := r.attempt + 1 }) hbut hindex (hcursor.retry hmore)
  · have hlast : r.attempt = s.maxRetries.toNat := by
      have := hcursor.le
      omega
    refine (h.invBut hr).nextUrl hindex ?_ fun v b hv => hcursor.failed v b (by omega)
    exact (hlast ▸ hcursor).exhausted

/-- A request has succeeded, or failed. -/
theorem answer {ok : Bool} (h : WebhookInv s) (hstep : step s (.answer t ok) = some s') :
    WebhookInv s' := by
  rw [step] at hstep
  split at hstep
  · cases hstep
  split at hstep
  · rename_i r hphase
    have hr : s.Busy t r := by rw [Busy, hphase]; rfl
    obtain ⟨-, -, hindex, hcursor⟩ := h.atWork t r hr
    cases ok with
    | true =>
      simp only [if_pos] at hstep
      obtain rfl := Option.some.inj hstep
      have hmem : r ∈ s.requests := by
        have hsent : (r.index, r.attempt) ∈ s.sentFor r.place := by
          rw [hcursor.sent]
          refine List.mem_append_right _ (List.mem_map.mpr ⟨r.attempt, ?_, rfl⟩)
          rw [List.mem_range'_1]
          have := hcursor.pos
          omega
        obtain ⟨r', hr', heq⟩ := List.mem_map.mp hsent
        obtain ⟨hr', hplace⟩ := List.mem_filter.mp hr'
        obtain ⟨hi, ha⟩ := Prod.mk.inj heq
        have : r' = r := by
          cases r'
          cases r
          simp_all
        exact this ▸ hr'
      have hself : ∀ v b, succeeded { s with delivered := r :: s.delivered } r.place v b =
          (decide (v = r.index ∧ b = r.attempt) || s.succeeded r.place v b) := by
        intro v b
        cases r
        simp [succeeded]
      refine ((h.invBut hr).deliver hmem).nextUrl hindex ?_ fun v b hv => ?_
      · refine hcursor.succeeded (fun v b hv => ?_) (fun b hb => ?_) ?_
        · rw [hself, decide_eq_false (by omega), Bool.false_or]
        · rw [hself, decide_eq_false (by omega), Bool.false_or]
          exact hcursor.failed _ b le_rfl
        · rw [hself, decide_eq_true ⟨rfl, rfl⟩, Bool.true_or]
      · rw [hself, decide_eq_false (by omega), Bool.false_or]
        exact hcursor.failed v b (by omega)
    | false =>
      simp only [Bool.false_eq_true, if_false] at hstep
      split_ifs at hstep with hmore
      · obtain rfl := Option.some.inj hstep
        refine h.frame rfl rfl rfl rfl rfl rfl (fun u r' => ?_) h.accepted
          ((h.invBut hr).unborn_setPhase _)
        rw [busy_setPhase]
        by_cases hut : u = t
        · rw [hut, Busy, hphase]
          simp [Phase.request?]
        · simp [hut]
      · exact Option.some.inj hstep ▸ h.nextAttempt hr
  · cases hstep

/-- A drainer repeats a request. -/
theorem wake {raises : Bool} (h : WebhookInv s) (hstep : step s (.wake t raises) = some s') :
    WebhookInv s' := by
  rw [step] at hstep
  split at hstep
  · cases hstep
  split at hstep
  · rename_i r hphase
    have hr : s.Busy t r := by rw [Busy, hphase]; rfl
    have hwork := h.atWork t r hr
    split_ifs at hstep with hraises
    · obtain rfl := Option.some.inj hstep
      exact (h.invBut hr).settle rfl (by simp) (by simp) fun _ => hwork.cursor.isPrefix hwork.index
    · exact Option.some.inj hstep ▸ h.nextAttempt hr
  · cases hstep

/-- A drainer sees that it has been cancelled. -/
theorem unwind (h : WebhookInv s) (hstep : step s (.unwind t) = some s') : WebhookInv s' := by
  rw [step] at hstep
  split_ifs at hstep
  split at hstep
  · cases hstep
  · rename_i hdone
    have hlive : s.Live t := fun heq => hdone heq
    split at hstep
    · rename_i r hr
      obtain rfl := Option.some.inj hstep
      have hwork := h.atWork t r hr
      exact (h.invBut hr).settle rfl (by simp) (by simp) fun _ => hwork.cursor.isPrefix hwork.index
    · rename_i hr
      obtain rfl := Option.some.inj hstep
      exact h.setPhase hlive hr rfl

/-- Every step keeps the invariant. -/
theorem step {action : Action} (h : WebhookInv s)
    (hstep : WebhookDispatcher.step s action = some s') : WebhookInv s' := by
  cases action with
  | enqueue event => exact h.enqueue hstep
  | start => exact h.start hstep
  | stop => exact h.stop hstep
  | stopped t => exact h.stopped hstep
  | begin t => exact h.begin hstep
  | take t => exact h.takeStep hstep
  | answer t ok => exact h.answer hstep
  | wake t raises => exact h.wake hstep
  | unwind t => exact h.unwind hstep

/-- What has been requested is as it should be. -/
theorem followsScript (h : WebhookInv s) : FollowsScript s where
  accepted := h.accepted
  isPrefix p hp := by
    cases hfate : s.fate p with
    | «open» =>
      obtain ⟨t, r, hr, rfl⟩ := h.inHand p hp hfate
      exact (h.atWork t r hr).cursor.isPrefix (h.atWork t r hr).index
    | dispatched => exact (h.dispatched p hfate) ▸ List.prefix_rfl
    | cut => exact h.cut p hfate
  whole p _ hfate := h.dispatched p hfate
  inHand p hp hfate := by
    obtain ⟨t, r, hr, hplace⟩ := h.inHand p hp hfate
    refine ⟨t, ⟨r, hr, hplace⟩, ?_⟩
    rintro u ⟨r', hr', hplace'⟩
    exact h.apart u t r' r hr' hr (hplace'.trans hplace.symm)
  only := h.only

end WebhookInv

/-! ### Runs -/

/-- **What is requested.** In every run, with whatever starts and stops: no event is lost in the
queue or taken out twice; the requests for each are a beginning of the script that tries the URLs in
their order, each until it succeeds and at most `max_retries` times, and all of it unless the
dispatch was cut off or is still going on, in exactly one drainer. -/
theorem followsScript_of_reaches {urls : List String} {maxRetries queueMaxsize : ℤ}
    (h : Reaches WebhookDispatcher.step (fun _ _ => True) (new urls maxRetries queueMaxsize) s) :
    FollowsScript s := by
  have hinv : WebhookInv s :=
    h.invariant (webhookInv_new urls maxRetries queueMaxsize) fun hs _ hstep => hs.step hstep
  exact hinv.followsScript

/-- A change of state. -/
def backUp : LifecycleEvent :=
  ⟨"files", .reconnecting, .ready, "reconnected", .finite 0, none, none⟩

/-- An event for two URLs. The first one fails, and fails again; the drainer is stopped while it
posts to the second one. -/
def stoppedInBetween : List Action :=
  [.enqueue backUp, .start, .begin 0, .take 0, .answer 0 false, .wake 0 false, .answer 0 false,
    .stop, .unwind 0, .stopped 0]

/-- A dispatcher for two URLs. -/
def twoUrls : WebhookDispatcher := new ["http://a.example", "http://b.example"] 2 1000

theorem followsScript_of_reaches_stoppedInBetween :
    ∃ s, Reaches WebhookDispatcher.step (fun _ _ => True) twoUrls s ∧
      s.requests = [⟨0, 0, 1⟩, ⟨0, 0, 2⟩, ⟨0, 1, 1⟩] ∧ FollowsScript s := by
  have hplay : (playFrom WebhookDispatcher.step (fun _ _ => true) twoUrls stoppedInBetween).map
      (·.requests) = some [⟨0, 0, 1⟩, ⟨0, 0, 2⟩, ⟨0, 1, 1⟩] := by rfl
  obtain ⟨s, hs, hrequests⟩ := Option.map_eq_some_iff.mp hplay
  have hreach : Reaches WebhookDispatcher.step (fun _ _ => True) twoUrls s :=
    reaches_of_playFrom (fun _ _ _ => trivial) .start hs
  exact ⟨s, hreach, hrequests, followsScript_of_reaches hreach⟩

/-! ### One drainer at a time -/

/-- What starts and stops leave: the drainer that is not done is the one the dispatcher has in
mind, and so is the one a call of `stop` waits for. -/
structure Steady (s : WebhookDispatcher) : Prop where
  task : ∀ t, s.Live t → s.task = some t
  stopping : ∀ t ∈ s.stopping, s.task = some t
  length : s.stopping.length ≤ 1
  ordered : s.requests.Pairwise Request.Before

/-- The event that is being dispatched is the last one that has been taken. -/
def DispatchesLast (s : WebhookDispatcher) : Prop :=
  ∀ t r, s.Busy t r → r.place + 1 = s.taken.length

namespace Steady

/-- Two drainers that are not done are the same. -/
theorem live_unique (h : Steady s) (ht : s.Live t) (hu : s.Live u) : t = u :=
  Option.some.inj ((h.task t ht).symm.trans (h.task u hu))

theorem not_live (h : Steady s) (htask : s.running? = none) (u : TaskId) : ¬ s.Live u :=
  fun hu => running?_eq_none htask (h.task u hu) hu

/-- Drainers go on, or are done. -/
theorem frame (h : Steady s) (htask : s'.task = s.task) (hstopping : s'.stopping = s.stopping)
    (hrequests : s'.requests = s.requests) (hlive : ∀ u, s'.Live u → s.Live u) : Steady s' := by
  refine ⟨fun u hu => htask ▸ h.task u (hlive u hu), ?_, hstopping ▸ h.length, ?_⟩
  · rw [hstopping, htask]
    exact h.stopping
  · rw [hrequests]
    exact h.ordered

/-- A request is made for the last event, after all others. -/
theorem send (h : Steady s) (hlive : s.Live t) (hplace : r.place + 1 = s.taken.length)
    (hbefore : ∀ r' ∈ s.requests, r'.Before r) :
    Steady (s.send t r) ∧ DispatchesLast (s.send t r) := by
  refine ⟨⟨fun u hu => h.task u ((Onward.setPhase hlive).live u hu), h.stopping, h.length, ?_⟩,
    fun u r' hr' => ?_⟩
  · refine List.pairwise_append.mpr
      ⟨h.ordered, List.pairwise_singleton _ _, fun r' hr' r'' hr'' => ?_⟩
    rw [List.mem_singleton.mp hr'']
    exact hbefore r' hr'
  · rcases (busy_setPhase s t u (.posting r) r').mp hr' with ⟨-, heq⟩ | ⟨hut, hr'⟩
    · obtain rfl := Option.some.inj heq
      exact hplace
    · exact absurd (h.live_unique hr'.live hlive) hut

theorem settle {phase : Phase} {fate : Fate} (h : Steady s) (hlive : s.Live t)
    (hphase : phase.request? = none) :
    Steady (s.settle t phase p fate) ∧ DispatchesLast (s.settle t phase p fate) := by
  refine ⟨h.frame rfl rfl rfl (Onward.setPhase hlive).live, fun u r hr => ?_⟩
  rcases (busy_setPhase s t u phase r).mp hr with ⟨-, heq⟩ | ⟨hut, hr⟩
  · cases hphase.symm.trans heq
  · exact absurd (h.live_unique hr.live hlive) hut

theorem nextUrl {index : ℕ} (h : Steady s) (hlive : s.Live t) (hplace : p + 1 = s.taken.length)
    (hbefore : ∀ r ∈ s.requests, r.place < p ∨ r.place = p ∧ r.index < index) :
    Steady (s.nextUrl t p index) ∧ DispatchesLast (s.nextUrl t p index) := by
  unfold WebhookDispatcher.nextUrl
  split
  · refine h.send hlive hplace fun r hr => ?_
    exact (hbefore r hr).imp_right fun ⟨hp, hindex⟩ => ⟨hp, .inl hindex⟩
  · exact h.settle hlive rfl

end Steady

/-- What holds when starts and stops are serial. -/
structure SerialInv (s : WebhookDispatcher) : Prop where
  inv : WebhookInv s
  steady : Steady s
  last : DispatchesLast s

namespace SerialInv

theorem new (urls : List String) (maxRetries queueMaxsize : ℤ) :
    SerialInv (new urls maxRetries queueMaxsize) where
  inv := webhookInv_new urls maxRetries queueMaxsize
  steady := ⟨fun _ h => absurd rfl h, by simp [WebhookDispatcher.new], Nat.zero_le _, .nil⟩
  last t r h := by cases h

/-- The requests there have been when a drainer is at one. -/
theorem before (h : SerialInv s) (hr : s.Busy t r) (hr' : r' ∈ s.requests) :
    r'.place < r.place ∨ r'.place = r.place ∧
      (r'.index < r.index ∨ r'.index = r.index ∧ r'.attempt ≤ r.attempt) := by
  have hplace := h.last t r hr
  have hplace' := h.inv.only r' hr'
  rcases Nat.lt_or_ge r'.place r.place with hlt | hge
  · exact .inl hlt
  · have heq : r'.place = r.place := by omega
    have hmem : (r'.index, r'.attempt) ∈ s.sentFor r.place :=
      List.mem_map.mpr ⟨r', List.mem_filter.mpr ⟨hr', decide_eq_true heq⟩, rfl⟩
    exact .inr ⟨heq, (h.inv.atWork t r hr).cursor.lt_of_mem hmem⟩

theorem nextAttempt (h : SerialInv s) (hr : s.Busy t r) :
    Steady (s.nextAttempt t r) ∧ DispatchesLast (s.nextAttempt t r) := by
  unfold WebhookDispatcher.nextAttempt
  split
  · refine h.steady.send hr.live (h.last t r hr) fun r' hr' => ?_
    refine (h.before hr hr').imp_right fun ⟨hp, horder⟩ => ⟨hp, horder.imp_right fun ⟨hi, ha⟩ => ?_⟩
    exact ⟨hi, Nat.lt_succ_of_le ha⟩
  · refine h.steady.nextUrl hr.live (h.last t r hr) fun r' hr' => ?_
    refine (h.before hr hr').imp_right fun ⟨hp, horder⟩ => ⟨hp, ?_⟩
    omega

/-- `enqueue` -/
theorem enqueue {event : LifecycleEvent} (h : SerialInv s)
    (hstep : step s (.enqueue event) = some s') : Steady s' ∧ DispatchesLast s' := by
  rw [WebhookDispatcher.step] at hstep
  split at hstep
  all_goals
    obtain rfl := Option.some.inj hstep
    exact ⟨h.steady.frame rfl rfl rfl fun _ hu => hu, h.last⟩

/-- A drainer is started when there is none, and no call of `stop` is to forget it. -/
theorem start (h : SerialInv s) (hstopping : s.stopping = [])
    (hstep : step s .start = some s') : Steady s' ∧ DispatchesLast s' := by
  cases hrunning : s.running? with
  | some t =>
    rw [WebhookDispatcher.step, hrunning] at hstep
    exact Option.some.inj hstep ▸ ⟨h.steady, h.last⟩
  | none =>
    rw [WebhookDispatcher.step, hrunning] at hstep
    obtain rfl := Option.some.inj hstep
    have hnot := h.steady.not_live hrunning
    refine ⟨⟨fun u hu => ?_, by simp [hstopping], h.steady.length, h.steady.ordered⟩,
      fun u r hr => ?_⟩
    · by_cases hut : u = s.nextTask
      · rw [hut]
      · exact absurd (show s.Live u by simpa [Live, hut] using hu) (hnot u)
    · by_cases hut : u = s.nextTask
      · simp [hut, Busy, Phase.request?] at hr
      · exact absurd (Busy.live (show s.Busy u r by simpa [Busy, hut] using hr)) (hnot u)

/-- The drainer is cancelled. -/
theorem stop (h : SerialInv s) (hstopping : s.stopping = [])
    (hstep : step s .stop = some s') : Steady s' ∧ DispatchesLast s' := by
  cases hrunning : s.running? with
  | none =>
    rw [WebhookDispatcher.step, hrunning] at hstep
    obtain rfl := Option.some.inj hstep
    have hnot := h.steady.not_live hrunning
    exact ⟨⟨fun u hu => absurd hu (hnot u), by simp [hstopping], h.steady.length,
      h.steady.ordered⟩, h.last⟩
  | some t =>
    rw [WebhookDispatcher.step, hrunning] at hstep
    obtain rfl := Option.some.inj hstep
    refine ⟨⟨fun u hu => ?_, ?_, ?_, h.steady.ordered⟩, fun u r hr => ?_⟩
    · rw [Live, phase_requested] at hu
      exact h.steady.task u hu
    · simp [hstopping, (running?_eq_some hrunning).1]
    · simp [hstopping]
    · rw [Busy, phase_requested] at hr
      exact h.last u r hr

/-- The drainer that was waited for is done, and there is no other. -/
theorem stopped_spec (h : SerialInv s) (hstep : WebhookDispatcher.step s (.stopped t) = some s') :
    s'.stopping = [] ∧ ∀ u, ¬ s'.Live u := by
  rw [WebhookDispatcher.step] at hstep
  split_ifs at hstep with hguard
  obtain rfl := Option.some.inj hstep
  obtain ⟨hmem, hdone⟩ := hguard
  have hlength := List.length_erase_of_mem hmem
  have hle := h.steady.length
  have hnil : s.stopping.erase t = [] := List.eq_nil_of_length_eq_zero (by omega)
  refine ⟨hnil, fun u hu => ?_⟩
  have heq := Option.some.inj ((h.steady.stopping t hmem).symm.trans (h.steady.task u hu))
  exact hu (heq ▸ hdone)

theorem stopped (h : SerialInv s) (hstep : WebhookDispatcher.step s (.stopped t) = some s') :
    Steady s' ∧ DispatchesLast s' := by
  obtain ⟨hnil, hnot⟩ := h.stopped_spec hstep
  rw [WebhookDispatcher.step] at hstep
  split_ifs at hstep
  obtain rfl := Option.some.inj hstep
  have hnil : s.stopping.erase t = [] := hnil
  exact ⟨⟨fun u hu => absurd hu (hnot u), by simp [hnil], by simp [hnil], h.steady.ordered⟩, h.last⟩

theorem begin (h : SerialInv s) (hstep : step s (.begin t) = some s') :
    Steady s' ∧ DispatchesLast s' := by
  rw [WebhookDispatcher.step] at hstep
  split at hstep
  · cases hstep
  split at hstep
  · rename_i hphase
    obtain rfl := Option.some.inj hstep
    have hlive : s.Live t := by simp [Live, hphase]
    refine ⟨h.steady.frame rfl rfl rfl (Onward.setPhase hlive).live, fun u r hr => ?_⟩
    rcases (busy_setPhase s t u .getting r).mp hr with ⟨-, heq⟩ | ⟨-, hr⟩
    · cases heq
    · exact h.last u r hr
  · cases hstep

/-- The event that is taken is the last one from now on. -/
theorem take (h : SerialInv s) (hstep : step s (.take t) = some s') :
    Steady s' ∧ DispatchesLast s' := by
  rw [WebhookDispatcher.step] at hstep
  split at hstep
  · cases hstep
  split at hstep
  · rename_i event queue hphase hget
    obtain rfl := Option.some.inj hstep
    have hlive : s.Live t := by simp [Live, hphase]
    refine Steady.nextUrl (s := { s with queue := queue, taken := s.taken ++ [event] })
      (h.steady.frame rfl rfl rfl fun _ hu => hu) hlive (by simp) fun r hr => .inl ?_
    exact h.inv.only r hr
  · cases hstep

/-- An answer leads to the next URL, to a pause, or to the end of the attempts. -/
theorem answer {ok : Bool} (h : SerialInv s) (hstep : step s (.answer t ok) = some s') :
    Steady s' ∧ DispatchesLast s' := by
  rw [WebhookDispatcher.step] at hstep
  split at hstep
  · cases hstep
  split at hstep
  · rename_i r hphase
    have hr : s.Busy t r := by rw [Busy, hphase]; rfl
    split_ifs at hstep
    · obtain rfl := Option.some.inj hstep
      refine Steady.nextUrl (s := { s with delivered := r :: s.delivered })
        (h.steady.frame rfl rfl rfl fun _ hu => hu) hr.live (h.last t r hr) fun r' hr' => ?_
      refine (h.before hr hr').imp_right fun ⟨hp, horder⟩ => ⟨hp, ?_⟩
      omega
    · obtain rfl := Option.some.inj hstep
      refine ⟨h.steady.frame rfl rfl rfl (Onward.setPhase hr.live).live,
        fun u r' hr' => ?_⟩
      rcases (busy_setPhase s t u (.sleeping r) r').mp hr' with ⟨-, heq⟩ | ⟨-, hr'⟩
      · exact Option.some.inj heq ▸ h.last t r hr
      · exact h.last u r' hr'
    · exact Option.some.inj hstep ▸ h.nextAttempt hr
  · cases hstep

theorem wake {raises : Bool} (h : SerialInv s) (hstep : step s (.wake t raises) = some s') :
    Steady s' ∧ DispatchesLast s' := by
  rw [WebhookDispatcher.step] at hstep
  split at hstep
  · cases hstep
  split at hstep
  · rename_i r hphase
    have hr : s.Busy t r := by rw [Busy, hphase]; rfl
    split_ifs at hstep
    · exact Option.some.inj hstep ▸ h.steady.settle hr.live rfl
    · exact Option.some.inj hstep ▸ h.nextAttempt hr
  · cases hstep

theorem unwind (h : SerialInv s) (hstep : step s (.unwind t) = some s') :
    Steady s' ∧ DispatchesLast s' := by
  rw [WebhookDispatcher.step] at hstep
  split_ifs at hstep
  split at hstep
  · cases hstep
  · rename_i hdone
    have hlive : s.Live t := fun heq => hdone heq
    split at hstep
    · exact Option.some.inj hstep ▸ h.steady.settle hlive rfl
    · obtain rfl := Option.some.inj hstep
      refine ⟨h.steady.frame rfl rfl rfl (Onward.setPhase hlive).live,
        fun u r hr => ?_⟩
      rcases (busy_setPhase s t u .done r).mp hr with ⟨-, heq⟩ | ⟨-, hr⟩
      · cases heq
      · exact h.last u r hr

/-- Every serial step keeps it. -/
theorem step {action : Action} (h : SerialInv s) (hserial : Serial s action)
    (hstep : WebhookDispatcher.step s action = some s') : SerialInv s' := by
  have hinv : WebhookInv s' := h.inv.step hstep
  suffices hsuff : Steady s' ∧ DispatchesLast s' from ⟨hinv, hsuff.1, hsuff.2⟩
  cases action with
  | enqueue event => exact h.enqueue hstep
  | start => exact h.start hserial hstep
  | stop => exact h.stop hserial hstep
  | stopped t => exact h.stopped hstep
  | begin t => exact h.begin hstep
  | take t => exact h.take hstep
  | answer t ok => exact h.answer hstep
  | wake t raises => exact h.wake hstep
  | unwind t => exact h.unwind hstep

theorem of_reaches {urls : List String} {maxRetries queueMaxsize : ℤ}
    (h : Reaches WebhookDispatcher.step Serial
      (WebhookDispatcher.new urls maxRetries queueMaxsize) s) : SerialInv s :=
  h.invariant (SerialInv.new urls maxRetries queueMaxsize) fun hs hC hstep => hs.step hC hstep

end SerialInv

/-- **One request after the other.** When nobody starts or stops the dispatcher while a call of
`stop` is waiting, there is at most one drainer that is not done, the dispatcher has it in mind,
and the requests are made in the order of the events, the URLs and the attempts. -/
theorem inOrder_of_reaches {urls : List String} {maxRetries queueMaxsize : ℤ}
    (h : Reaches WebhookDispatcher.step Serial (new urls maxRetries queueMaxsize) s) :
    s.requests.Pairwise Request.Before ∧ ∀ t, s.Live t → s.task = some t := by
  have hinv : SerialInv s := .of_reaches h
  exact ⟨hinv.steady.ordered, hinv.steady.task⟩

instance (s : WebhookDispatcher) (action : Action) : Decidable (Serial s action) := by
  unfold Serial
  cases action <;> infer_instance

theorem inOrder_of_reaches_stoppedInBetween :
    ∃ s, Reaches WebhookDispatcher.step Serial twoUrls s ∧
      s.requests = [⟨0, 0, 1⟩, ⟨0, 0, 2⟩, ⟨0, 1, 1⟩] ∧ s.requests.Pairwise Request.Before := by
  have hplay : (playFrom WebhookDispatcher.step (fun s a => decide (Serial s a)) twoUrls
      stoppedInBetween).map (·.requests) = some [⟨0, 0, 1⟩, ⟨0, 0, 2⟩, ⟨0, 1, 1⟩] := by rfl
  obtain ⟨s, hs, hrequests⟩ := Option.map_eq_some_iff.mp hplay
  have hreach : Reaches WebhookDispatcher.step Serial twoUrls s :=
    reaches_of_playFrom (fun _ _ => of_decide_eq_true) .start hs
  exact ⟨s, hreach, hrequests, (inOrder_of_reaches hreach).1⟩

/-- A dispatcher that is started before a call of `stop` has gone on, and once more after that. -/
def startedTooSoon : List Action :=
  [.start, .begin 0, .stop, .unwind 0, .start, .stopped 0, .start]

/-- A call of `stop` forgets a drainer that was started while it was waiting: two drainers take
events off one queue from then on, and nothing stops the first. -/
theorem two_drainers_startedTooSoon :
    ∃ s, Reaches WebhookDispatcher.step (fun _ _ => True) twoUrls s ∧
      s.Live 1 ∧ s.Live 2 ∧ s.task = some 2 := by
  have hplay : (playFrom WebhookDispatcher.step (fun _ _ => true) twoUrls startedTooSoon).map
      (fun s => (decide (s.Live 1), decide (s.Live 2), s.task)) =
        some (true, true, some 2) := by rfl
  obtain ⟨s, hs, heq⟩ := Option.map_eq_some_iff.mp hplay
  obtain ⟨h1, h2⟩ := Prod.mk.inj heq
  obtain ⟨h2, h3⟩ := Prod.mk.inj h2
  exact ⟨s, reaches_of_playFrom (fun _ _ _ => trivial) .start hs, of_decide_eq_true h1,
    of_decide_eq_true h2, h3⟩

end WebhookDispatcher

end SlmMcpHub
