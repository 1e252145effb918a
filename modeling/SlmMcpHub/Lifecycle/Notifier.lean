import SlmMcpHub.Library.Dict
import SlmMcpHub.Library.Transition

/-!
# The change notifier

`lifecycle/notifier.py`: calls of `notify_tools_changed` are coalesced while the task of an earlier
call is not done. The task sleeps, takes the subscribers there are, and calls them one after the
other; whatever a callback awaits, and whatever it does, may come between two calls.

A call that comes while the task is calling the subscribers is coalesced as well, with a broadcast
that has passed some of them already.

## Main definitions

* `ChangeNotifier`, `ChangeNotifier.step` — the notifier, and what can happen to it
* `Informed` — a subscription has heard of the last change
* `Covered` — what is asked of a step

## Main results

* `informed_of_reaches` — no change is lost in a run of such steps
-/

namespace SlmMcpHub

/-- What has happened. A subscription is known by its number: to subscribe under the same id again
is another subscription. -/
inductive Notice where
  | subscribed (n : ℕ)
  | notified
  | invoked (n : ℕ)
  deriving DecidableEq

/-- The pending task. -/
inductive Broadcast where
  /-- There is none, or it is done. -/
  | idle
  | debouncing
  /-- The callback that is running, if one is, and the subscriptions that are still to be called. -/
  | delivering (current : Option ℕ) (rest : List (String × ℕ))

/-- `ChangeNotifier` -/
structure ChangeNotifier where
  subscribers : Dict String ℕ := .empty
  task : Broadcast := .idle
  nextSubscription : ℕ := 0
  /-- What has happened, newest first. -/
  history : List Notice := []

namespace ChangeNotifier

/-- What can happen. -/
inductive Action where
  | subscribe (subscriberId : String)
  | unsubscribe (subscriberId : String)
  | notifyToolsChanged
  /-- The sleep of the task is over: it takes the subscribers there are. -/
  | wake
  /-- The task calls the next subscriber. What the one before has raised is logged. -/
  | invoke
  /-- The task has called them all. -/
  | finish
  /-- A callback ends the task, with something that is no `Exception`. -/
  | abandon

/-- One step. -/
def step (s : ChangeNotifier) : Action → Option ChangeNotifier
  | .subscribe subscriberId => some { s with
      subscribers := s.subscribers.set subscriberId s.nextSubscription
      nextSubscription := s.nextSubscription + 1
      history := .subscribed s.nextSubscription :: s.history }
  | .unsubscribe subscriberId => some { s with subscribers := s.subscribers.erase subscriberId }
  | .notifyToolsChanged => some { s with
      task := match s.task with
        | .idle => .debouncing
        | task => task
      history := .notified :: s.history }
  | .wake => match s.task with
    | .debouncing => some { s with task := .delivering none s.subscribers.entries }
    | _ => none
  | .invoke => match s.task with
    | .delivering _ ((_, n) :: rest) => some { s with
        task := .delivering (some n) rest
        history := .invoked n :: s.history }
    | _ => none
  | .finish => match s.task with
    | .delivering _ [] => some { s with task := .idle }
    | _ => none
  | .abandon => match s.task with
    | .delivering (some _) _ => some { s with task := .idle }
    | _ => none

end ChangeNotifier

open ChangeNotifier

/-- A subscription that is older than the last change has been called after it. -/
def Informed (history : List Notice) (n : ℕ) : Prop :=
  ∀ recent older, history = recent ++ .notified :: older → .notified ∉ recent →
    .subscribed n ∈ older → .invoked n ∈ recent

/-- The broadcast of a step covers the changes it may be coalesced with: a call that comes during a
delivery finds all subscribers still to be called, and a callback that ends the task leaves none
of them uncalled. -/
def Covered (s : ChangeNotifier) : Action → Prop
  | .notifyToolsChanged => match s.task with
    | .delivering _ rest => ∀ n ∈ s.subscribers.values, n ∈ rest.map Prod.snd
    | _ => True
  | .abandon => match s.task with
    | .delivering _ rest => ∀ n ∈ s.subscribers.values, n ∉ rest.map Prod.snd
    | _ => True
  | _ => True

/-! ### Being informed -/

/-- What else happens changes nothing. -/
theorem Informed.cons {history : List Notice} {n : ℕ} {e : Notice} (h : Informed history n)
    (he : e ≠ .notified) : Informed (e :: history) n := by
  intro recent older heq hrecent hold
  cases recent with
  | nil => exact absurd (List.cons.inj heq).1 he
  | cons e' recent =>
    obtain ⟨-, heq⟩ := List.cons.inj heq
    exact List.mem_cons_of_mem e'
      (h recent older heq (fun hmem => hrecent (List.mem_cons_of_mem e' hmem)) hold)

/-- A subscription that is called is informed. -/
theorem informed_invoked (history : List Notice) (n : ℕ) :
    Informed (.invoked n :: history) n := by
  intro recent older heq hrecent hold
  cases recent with
  | nil => cases (List.cons.inj heq).1
  | cons e recent =>
    rw [← (List.cons.inj heq).1]
    exact List.mem_cons_self

/-- A subscription that is not in the history yet is informed. -/
theorem informed_of_not_mem {history : List Notice} {n : ℕ} (h : .subscribed n ∉ history) :
    Informed history n := by
  intro recent older heq _ hold
  refine absurd ?_ h
  rw [heq]
  exact List.mem_append_right _ (List.mem_cons_of_mem _ hold)

/-! ### The invariant -/

/-- The subscriptions that have not heard of the last change are still to be called. -/
def Reached (s : ChangeNotifier) : Prop :=
  match s.task with
  | .idle => ∀ n ∈ s.subscribers.values, Informed s.history n
  | .debouncing => True
  | .delivering _ rest => ∀ n ∈ s.subscribers.values, Informed s.history n ∨ n ∈ rest.map Prod.snd

/-- What holds of the notifier. -/
structure NotifierInv (s : ChangeNotifier) : Prop where
  lt : ∀ {n}, .subscribed n ∈ s.history → n < s.nextSubscription
  reached : Reached s

theorem notifierInv_init : NotifierInv {} where
  lt := by simp
  reached := by
    intro n hn
    cases hn

/-- Of the values of an updated dictionary all but one have been there. -/
theorem values_set {d : Dict String ℕ} {subscriberId : String} {m n : ℕ}
    (h : n ∈ (d.set subscriberId m).values) : n = m ∨ n ∈ d.values := by
  obtain ⟨k, hk⟩ := Dict.mem_values_iff.mp h
  by_cases hkey : subscriberId = k
  · rw [hkey, Dict.get?_set_self] at hk
    exact .inl (Option.some.inj hk).symm
  · rw [Dict.get?_set_of_ne hkey] at hk
    exact .inr (Dict.mem_values_iff.mpr ⟨k, hk⟩)

theorem values_erase {d : Dict String ℕ} {subscriberId : String} {n : ℕ}
    (h : n ∈ (d.erase subscriberId).values) : n ∈ d.values := by
  obtain ⟨⟨k, v⟩, hp, rfl⟩ := List.mem_map.mp h
  exact List.mem_map.mpr ⟨(k, v), (Dict.mem_entries_erase.mp hp).1, rfl⟩

variable {s s' : ChangeNotifier}

/-- To have other subscribers is fine as long as each new one is informed. -/
theorem Reached.mono (h : Reached s) (htask : s'.task = s.task)
    (hsub : ∀ n ∈ s'.subscribers.values, n ∈ s.subscribers.values ∨ Informed s'.history n)
    (hinf : ∀ n, Informed s.history n → Informed s'.history n) : Reached s' := by
  unfold Reached at h ⊢
  rw [htask]
  cases htask' : s.task with
  | idle =>
    simp only [htask'] at h
    intro n hn
    rcases hsub n hn with hold | hnew
    · exact hinf n (h n hold)
    · exact hnew
  | debouncing => trivial
  | delivering current rest =>
    simp only [htask'] at h
    intro n hn
    rcases hsub n hn with hold | hnew
    · exact (h n hold).imp_left (hinf n)
    · exact .inl hnew

theorem subscribe_keeps {subscriberId : String} (h : NotifierInv s)
    (hstep : step s (.subscribe subscriberId) = some s') : NotifierInv s' := by
  obtain rfl := Option.some.inj hstep
  constructor
  · intro n hn
    rcases List.mem_cons.mp hn with heq | hold
    · obtain rfl := Notice.subscribed.inj heq
      exact Nat.lt_succ_self _
    · exact Nat.lt_succ_of_lt (h.lt hold)
  · have hfresh : .subscribed s.nextSubscription ∉ s.history := fun hn =>
      absurd (h.lt hn) (Nat.lt_irrefl _)
    refine h.reached.mono rfl (fun n hn => ?_) (fun n hn => hn.cons (by simp))
    rcases values_set hn with rfl | hold
    · exact .inr ((informed_of_not_mem hfresh).cons (by simp))
    · exact .inl hold

theorem unsubscribe_keeps {subscriberId : String} (h : NotifierInv s)
    (hstep : step s (.unsubscribe subscriberId) = some s') : NotifierInv s' := by
  obtain rfl := Option.some.inj hstep
  exact ⟨h.lt, h.reached.mono rfl (fun n hn => .inl (values_erase hn)) (fun n hn => hn)⟩

/-- A call is for the broadcast to come, or for one that has all subscribers still to call. -/
theorem notifyToolsChanged_keeps (h : NotifierInv s) (hC : Covered s .notifyToolsChanged)
    (hstep : step s .notifyToolsChanged = some s') : NotifierInv s' := by
  obtain rfl := Option.some.inj hstep
  constructor
  · intro n hn
    rcases List.mem_cons.mp hn with heq | hold
    · cases heq
    · exact h.lt hold
  · unfold Reached
    unfold Covered at hC
    cases htask : s.task with
    | idle => trivial
    | debouncing => trivial
    | delivering current rest =>
      simp only [htask] at hC
      exact fun n hn => .inr (hC n hn)

/-- The task calls all subscribers there are. -/
theorem wake_keeps (h : NotifierInv s) (hstep : step s .wake = some s') : NotifierInv s' := by
  cases htask : s.task with
  | debouncing =>
    simp only [step, htask] at hstep
    obtain rfl := Option.some.inj hstep
    exact ⟨h.lt, fun n hn => .inr hn⟩
  | idle => simp [step, htask] at hstep
  | delivering current rest => simp [step, htask] at hstep

theorem invoke_keeps (h : NotifierInv s) (hstep : step s .invoke = some s') : NotifierInv s' := by
  match htask : s.task with
  | .delivering current ((id, m) :: rest) =>
    simp only [step, htask] at hstep
    obtain rfl := Option.some.inj hstep
    have hreached := h.reached
    simp only [Reached, htask] at hreached
    constructor
    · intro n hn
      rcases List.mem_cons.mp hn with heq | hold
      · cases heq
      · exact h.lt hold
    · intro n hn
      rcases hreached n hn with hinf | hmem
      · exact .inl (hinf.cons (by simp))
      · rcases List.mem_cons.mp hmem with rfl | hrest
        · exact .inl (informed_invoked _ _)
        · exact .inr hrest
  | .delivering current [] => simp [step, htask] at hstep
  | .idle => simp [step, htask] at hstep
  | .debouncing => simp [step, htask] at hstep

theorem finish_keeps (h : NotifierInv s) (hstep : step s .finish = some s') : NotifierInv s' := by
  match htask : s.task with
  | .delivering current [] =>
    simp only [step, htask] at hstep
    obtain rfl := Option.some.inj hstep
    have hreached := h.reached
    simp only [Reached, htask] at hreached
    refine ⟨h.lt, fun n hn => ?_⟩
    rcases hreached n hn with hinf | hmem
    · exact hinf
    · cases hmem
  | .delivering current (p :: rest) => simp [step, htask] at hstep
  | .idle => simp [step, htask] at hstep
  | .debouncing => simp [step, htask] at hstep

theorem abandon_keeps (h : NotifierInv s) (hC : Covered s .abandon)
    (hstep : step s .abandon = some s') : NotifierInv s' := by
  match htask : s.task with
  | .delivering (some m) rest =>
    simp only [step, htask] at hstep
    obtain rfl := Option.some.inj hstep
    have hreached := h.reached
    simp only [Reached, htask] at hreached
    simp only [Covered, htask] at hC
    exact ⟨h.lt, fun n hn => (hreached n hn).resolve_right (hC n hn)⟩
  | .delivering none rest => simp [step, htask] at hstep
  | .idle => simp [step, htask] at hstep
  | .debouncing => simp [step, htask] at hstep

/-- Every step that covers its changes keeps the invariant. -/
theorem NotifierInv.step {action : Action} (h : NotifierInv s) (hC : Covered s action)
    (hstep : ChangeNotifier.step s action = some s') : NotifierInv s' := by
  cases action with
  | subscribe subscriberId => exact subscribe_keeps h hstep
  | unsubscribe subscriberId => exact unsubscribe_keeps h hstep
  | notifyToolsChanged => exact notifyToolsChanged_keeps h hC hstep
  | wake => exact wake_keeps h hstep
  | invoke => exact invoke_keeps h hstep
  | finish => exact finish_keeps h hstep
  | abandon => exact abandon_keeps h hC hstep

/-! ### Runs -/

/-- **No change is lost by coalescing.** In a run whose steps cover their changes, whenever no
broadcast is pending every subscriber has heard of the last change. -/
theorem informed_of_reaches (h : Reaches ChangeNotifier.step Covered {} s)
    (hidle : s.task = .idle) : ∀ n ∈ s.subscribers.values, Informed s.history n := by
  have hinv : NotifierInv s := h.invariant notifierInv_init NotifierInv.step
  have hreached := hinv.reached
  simp only [Reached, hidle] at hreached
  exact hreached

instance (s : ChangeNotifier) (action : Action) : Decidable (Covered s action) := by
  unfold Covered
  cases action <;> cases s.task <;> infer_instance

/-- Three changes, two of them coalesced: one with the sleep of the task, and one with its delivery
before anyone is called. -/
def coalesced : List Action :=
  [.subscribe "client", .subscribe "other", .notifyToolsChanged, .notifyToolsChanged, .wake,
    .notifyToolsChanged, .invoke, .invoke, .finish]

theorem informed_of_reaches_coalesced :
    ∃ s, Reaches ChangeNotifier.step Covered {} s ∧ s.task = .idle ∧
      s.subscribers.values = [0, 1] ∧ s.history = [.invoked 1, .invoked 0, .notified, .notified,
        .notified, .subscribed 1, .subscribed 0] ∧ Informed s.history 0 ∧ Informed s.history 1 := by
  have hcheck : ∀ s a, decide (Covered s a) = true → Covered s a := fun _ _ => of_decide_eq_true
  have hplay : playFrom ChangeNotifier.step (fun s a => decide (Covered s a)) {} coalesced =
      some ⟨(Dict.empty.set "client" 0).set "other" 1, .idle, 2,
        [.invoked 1, .invoked 0, .notified, .notified, .notified, .subscribed 1,
          .subscribed 0]⟩ := rfl
  have hreach := reaches_of_playFrom hcheck .start hplay
  have hinformed := informed_of_reaches hreach rfl
  exact ⟨_, hreach, rfl, rfl, rfl, hinformed 0 (by decide), hinformed 1 (by decide)⟩

/-- The second change comes while the task is calling the one subscriber. -/
def changeDuringDelivery : List Action :=
  [.subscribe "client", .notifyToolsChanged, .wake, .invoke, .notifyToolsChanged, .finish]

theorem not_informed_changeDuringDelivery :
    ∃ s, Reaches ChangeNotifier.step (fun _ _ => True) {} s ∧ s.task = .idle ∧
      0 ∈ s.subscribers.values ∧ ¬ Informed s.history 0 := by
  have hplay : playFrom ChangeNotifier.step (fun _ _ => true) {} changeDuringDelivery =
      some ⟨Dict.empty.set "client" 0, .idle, 1,
        [.notified, .invoked 0, .notified, .subscribed 0]⟩ := rfl
  have hreach : Reaches ChangeNotifier.step (fun _ _ => True) {} _ :=
    reaches_of_playFrom (fun _ _ _ => trivial) .start hplay
  refine ⟨_, hreach, rfl, by decide, fun hinf => ?_⟩
  have hcalled := hinf [] _ rfl (by simp) (by simp)
  cases hcalled

end SlmMcpHub
