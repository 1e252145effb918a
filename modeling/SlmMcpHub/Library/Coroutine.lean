import Mathlib.Logic.Function.Basic
import Mathlib.Logic.Relation
import Mathlib.Tactic.Common

/-!
# Cooperative tasks

Programs of one event loop. A task runs alone until it waits for something; between two waits
nothing else happens, and at a wait anything may. Tasks are started by other tasks or by the
world outside, and a task can be asked to stop, which it notices at its next wait.

The programs are a free monad `Coro` over a signature: the state they share, the atomic changes
they make to it, the names of their procedures and what they wait for are parameters. A `System`
gives these their meaning.

Every task carries the stack of the procedures it is in. It decides nothing: programs read the
shared state and whether a task is done. It is what statements about a run talk about when they
say that something is in progress.

## Main definitions

* `Coro` — programs, a monad
* `World`, `Config` — the shared state with the tasks, and the same with what each task has left
  to do
* `Step`, `Reach` — one step of a system, and the configurations its runs lead to
* `World.doing` — a procedure is in progress in some task

## Main results

* `FrameInvariant.reach` — a property of the state and of what is in progress holds in every run
  when each statement keeps it
* `FrameInvariant.reach_and` — what holds in every run can be relied on by later invariants
* `StackInvariant.reach` — the same for a property of the stacks, task by task
-/

namespace SlmMcpHub

/-- Tasks are numbered in the order they were started. -/
abbrev TaskId := ℕ

/-- What programs are made of. -/
structure Signature where
  /-- The state all tasks share. -/
  State : Type
  /-- The atomic changes of the shared state. -/
  Act : Type
  /-- The procedures a task can be in. -/
  Call : Type
  /-- What a task can wait for. -/
  Wait : Type
  /-- What a wait, or a task, can result in. -/
  Res : Type
  /-- What can happen to the state from outside. -/
  Tick : Type

variable {S : Signature} {α β : Type}

/-- The statements of a program. -/
inductive Stmt (S : Signature) where
  /-- Change the shared state. -/
  | act (a : S.Act)
  /-- Change the shared state and enter a procedure. -/
  | push (a : S.Act) (c : S.Call)
  /-- Change the shared state and leave the procedure entered last. -/
  | pop (a : S.Act)
  /-- Start a task. -/
  | spawn (c : S.Call)
  /-- Ask a task to stop. -/
  | cancel (t : TaskId)
  /-- Leave everything and go on with a procedure. -/
  | jump (c : S.Call)

/-- The procedure a statement enters. -/
def Stmt.enters : Stmt S → Option S.Call
  | .push _ c => some c
  | .spawn c => some c
  | .jump c => some c
  | _ => none

/-- What is known of a task from outside. -/
structure Task (S : Signature) where
  /-- The procedures it is in, innermost first. -/
  stack : List S.Call
  /-- What it waits for. -/
  waiting : Option S.Wait
  /-- It has been asked to stop. -/
  requested : Bool
  /-- What it has resulted in. -/
  result : Option S.Res

/-- A number no task bears yet. -/
def Task.unborn : Task S := ⟨[], none, false, none⟩

/-- The shared state and the tasks. -/
structure World (S : Signature) where
  /-- The shared state. -/
  state : S.State
  /-- The tasks. -/
  tasks : TaskId → Task S
  /-- The number of the next task. -/
  next : TaskId

/-- Programs. -/
inductive Coro (S : Signature) (α : Type) where
  /-- Be done. -/
  | ret (a : α)
  /-- Look at the world, and at one's own number. -/
  | read (k : World S → TaskId → Coro S α)
  /-- Execute a statement. -/
  | stmt (s : Stmt S) (k : Coro S α)
  /-- Wait. -/
  | await (w : S.Wait) (k : S.Res → Coro S α)
  /-- Leave everything and go on with a procedure. -/
  | jump (c : S.Call)

namespace Coro

/-- Sequencing. -/
def bind : Coro S α → (α → Coro S β) → Coro S β
  | ret a, f => f a
  | read k, f => read fun w t => (k w t).bind f
  | stmt s k, f => stmt s (k.bind f)
  | await w k, f => await w fun r => (k r).bind f
  | jump c, _ => jump c

instance : Monad (Coro S) where
  pure := ret
  bind := bind

end Coro

/-- The meaning of a signature. -/
structure System (S : Signature) where
  /-- What an act of a task does. -/
  eval : TaskId → S.Act → S.State → S.State
  /-- What a new task waits for. -/
  turn : S.Wait
  /-- Whether a wait of a task can end, and with what. -/
  ready : World S → TaskId → S.Wait → S.Res → Bool
  /-- The tasks a wait is for; a request to stop is passed on to them. -/
  joins : S.Wait → List TaskId
  /-- The program of a procedure, given how the wait before it ended. -/
  body : S.Call → S.Res → Coro S S.Res
  /-- What a procedure that is jumped to is given. -/
  again : S.Res
  /-- The procedures the outside may call. -/
  client : S.Call → Bool
  /-- What happens to the state from outside, if it can. -/
  tick : S.Tick → S.State → Option S.State

namespace World

/-- Change one task. -/
def setTask (w : World S) (t : TaskId) (f : Task S → Task S) : World S :=
  { w with tasks := Function.update w.tasks t (f (w.tasks t)) }

/-- A new task, which waits for its turn. -/
def born (w : World S) (M : System S) (c : S.Call) : World S :=
  { w with
    tasks := Function.update w.tasks w.next ⟨[c], some M.turn, false, none⟩
    next := w.next + 1 }

/-- Ask a task to stop, and with it the tasks it waits for. -/
def request (M : System S) : ℕ → TaskId → World S → World S
  | 0, _, w => w
  | fuel + 1, t, w =>
    if (w.tasks t).result.isSome then w
    else
      ((w.tasks t).waiting.elim [] M.joins).foldl (fun w u => request M fuel u w)
        (w.setTask t fun k => { k with requested := true })

/-- The state a statement leaves. -/
def effect (w : World S) (M : System S) (t : TaskId) : Stmt S → S.State
  | .act a => M.eval t a w.state
  | .push a _ => M.eval t a w.state
  | .pop a => M.eval t a w.state
  | _ => w.state

/-- Execute a statement. -/
def exec (w : World S) (M : System S) (t : TaskId) (s : Stmt S) : World S :=
  let w := { w with state := w.effect M t s }
  match s with
  | .act _ => w
  | .push _ c => w.setTask t fun k => { k with stack := c :: k.stack }
  | .pop _ => w.setTask t fun k => { k with stack := k.stack.tail }
  | .spawn c => w.born M c
  | .cancel u => w.request M w.next u
  | .jump c => w.setTask t fun k => { k with stack := [c] }

/-- A task starts to wait. -/
def suspended (w : World S) (t : TaskId) (wt : S.Wait) : World S :=
  w.setTask t fun k => { k with waiting := some wt }

/-- The wait of a task ends; what it was asked is settled by how. -/
def resumed (w : World S) (t : TaskId) : World S :=
  w.setTask t fun k => { k with waiting := none, requested := false }

/-- A task is done. -/
def finished (w : World S) (t : TaskId) (r : S.Res) : World S :=
  w.setTask t fun k => { k with stack := [], result := some r }

/-- A task is done. -/
def done (w : World S) (t : TaskId) : Bool := (w.tasks t).result.isSome

/-- A procedure is in progress. -/
def doing (w : World S) (c : S.Call) : Prop := ∃ t, c ∈ (w.tasks t).stack

end World

/-- The world with what each task has left to do. -/
structure Config (S : Signature) where
  /-- The world. -/
  world : World S
  /-- What the tasks that wait go on with. -/
  conts : TaskId → Option (S.Res → Coro S S.Res)
  /-- The task that runs, with the rest of its program. -/
  running : Option (TaskId × Coro S S.Res)

/-- A statement starts a task with the program of its procedure. -/
def Stmt.adopt (M : System S) (w : World S) (conts : TaskId → Option (S.Res → Coro S S.Res)) :
    Stmt S → TaskId → Option (S.Res → Coro S S.Res)
  | .spawn c => Function.update conts w.next (some (M.body c))
  | _ => conts

/-- The task that runs is none of those that wait. -/
theorem ne_of_conts {conts : TaskId → Option (S.Res → Coro S S.Res)} {t u : TaskId}
    {k : S.Res → Coro S S.Res} (ht : conts t = none) (hu : conts u = some k) : u ≠ t := by
  rintro rfl
  cases ht.symm.trans hu

/-- One step of a system all whose statements meet a condition on the world they find. -/
inductive Step (M : System S) (C : World S → TaskId → Stmt S → Prop) : Config S → Config S → Prop
  /-- The outside calls a procedure. -/
  | call {w conts c} (hc : M.client c = true) :
      Step M C ⟨w, conts, none⟩
        ⟨w.born M c, Function.update conts w.next (some (M.body c)), none⟩
  /-- The outside gives up on a call. -/
  | giveUp {w conts t c} (hc : (w.tasks t).stack.getLast? = some c) (hclient : M.client c = true) :
      Step M C ⟨w, conts, none⟩ ⟨w.request M w.next t, conts, none⟩
  /-- Something happens to the state. -/
  | tick {w conts e s} (hs : M.tick e w.state = some s) :
      Step M C ⟨w, conts, none⟩ ⟨{ w with state := s }, conts, none⟩
  /-- A wait ends. -/
  | resume {w conts t k wt r} (hk : conts t = some k) (hw : (w.tasks t).waiting = some wt)
      (hr : M.ready w t wt r = true) :
      Step M C ⟨w, conts, none⟩ ⟨w.resumed t, Function.update conts t none, some (t, k r)⟩
  /-- The running task looks at the world. -/
  | read {w conts t k} : Step M C ⟨w, conts, some (t, .read k)⟩ ⟨w, conts, some (t, k w t)⟩
  /-- The running task executes a statement. -/
  | stmt {w conts t s p} (hs : C w t s) :
      Step M C ⟨w, conts, some (t, .stmt s p)⟩ ⟨w.exec M t s, s.adopt M w conts, some (t, p)⟩
  /-- The running task starts to wait. -/
  | await {w conts t wt k} :
      Step M C ⟨w, conts, some (t, .await wt k)⟩
        ⟨w.suspended t wt, Function.update conts t (some k), none⟩
  /-- The running task goes on with a procedure. -/
  | jump {w conts t c} (hc : C w t (.jump c)) :
      Step M C ⟨w, conts, some (t, .jump c)⟩
        ⟨w.exec M t (.jump c), conts, some (t, M.body c M.again)⟩
  /-- The running task is done. -/
  | finish {w conts t r} : Step M C ⟨w, conts, some (t, .ret r)⟩ ⟨w.finished t r, conts, none⟩

/-- A state before any task has been started. -/
def Config.start (s : S.State) : Config S := ⟨⟨s, fun _ => .unborn, 0⟩, fun _ => none, none⟩

/-- The configurations of the runs all whose statements meet a condition. -/
def Reach (M : System S) (C : World S → TaskId → Stmt S → Prop) (s : S.State) :
    Config S → Prop :=
  Relation.ReflTransGen (Step M C) (Config.start s)

/-! ### What the parts of a step leave alone -/

namespace World

@[simp] theorem state_setTask (w : World S) (t : TaskId) (f : Task S → Task S) :
    (w.setTask t f).state = w.state := rfl

@[simp] theorem next_setTask (w : World S) (t : TaskId) (f : Task S → Task S) :
    (w.setTask t f).next = w.next := rfl

@[simp] theorem tasks_setTask_self (w : World S) (t : TaskId) (f : Task S → Task S) :
    (w.setTask t f).tasks t = f (w.tasks t) := Function.update_self _ _ _

theorem tasks_setTask_of_ne (w : World S) {t u : TaskId} (f : Task S → Task S) (h : u ≠ t) :
    (w.setTask t f).tasks u = w.tasks u := Function.update_of_ne h _ _

/-- A change that keeps the stack of its task keeps every stack. -/
theorem stack_setTask (w : World S) (t : TaskId) (f : Task S → Task S)
    (hf : ∀ k, (f k).stack = k.stack) (u : TaskId) :
    ((w.setTask t f).tasks u).stack = (w.tasks u).stack := by
  rcases eq_or_ne u t with rfl | h
  · rw [tasks_setTask_self, hf]
  · rw [tasks_setTask_of_ne w f h]

@[simp] theorem stack_suspended (w : World S) (t u : TaskId) (wt : S.Wait) :
    ((w.suspended t wt).tasks u).stack = (w.tasks u).stack :=
  stack_setTask w t (fun k => { k with waiting := some wt }) (fun _ => rfl) u

@[simp] theorem stack_resumed (w : World S) (t u : TaskId) :
    ((w.resumed t).tasks u).stack = (w.tasks u).stack :=
  stack_setTask w t (fun k => { k with waiting := none, requested := false }) (fun _ => rfl) u

@[simp] theorem state_suspended (w : World S) (t : TaskId) (wt : S.Wait) :
    (w.suspended t wt).state = w.state := rfl

@[simp] theorem state_resumed (w : World S) (t : TaskId) : (w.resumed t).state = w.state := rfl

@[simp] theorem state_finished (w : World S) (t : TaskId) (r : S.Res) :
    (w.finished t r).state = w.state := rfl

@[simp] theorem tasks_born_next (w : World S) (M : System S) (c : S.Call) :
    (w.born M c).tasks w.next = ⟨[c], some M.turn, false, none⟩ := Function.update_self _ _ _

theorem tasks_born_of_ne (w : World S) (M : System S) (c : S.Call) {u : TaskId}
    (h : u ≠ w.next) : (w.born M c).tasks u = w.tasks u := Function.update_of_ne h _ _

/-- A request to stop changes nothing but who has been asked. -/
structure SameButRequests (w w' : World S) : Prop where
  state : w'.state = w.state
  next : w'.next = w.next
  stack : ∀ u, (w'.tasks u).stack = (w.tasks u).stack
  waiting : ∀ u, (w'.tasks u).waiting = (w.tasks u).waiting
  result : ∀ u, (w'.tasks u).result = (w.tasks u).result

theorem SameButRequests.refl (w : World S) : SameButRequests w w :=
  ⟨rfl, rfl, fun _ => rfl, fun _ => rfl, fun _ => rfl⟩

theorem SameButRequests.trans {w w' w'' : World S} (h : SameButRequests w w')
    (h' : SameButRequests w' w'') : SameButRequests w w'' :=
  ⟨h'.state.trans h.state, h'.next.trans h.next, fun u => (h'.stack u).trans (h.stack u),
    fun u => (h'.waiting u).trans (h.waiting u), fun u => (h'.result u).trans (h.result u)⟩

theorem sameButRequests_request (M : System S) : ∀ (fuel : ℕ) (t : TaskId) (w : World S),
    SameButRequests w (request M fuel t w)
  | 0, _, w => SameButRequests.refl w
  | fuel + 1, t, w => by
    have hfold : ∀ (us : List TaskId) (w : World S),
        SameButRequests w (us.foldl (fun w u => request M fuel u w) w) := by
      intro us
      induction us with
      | nil => exact SameButRequests.refl
      | cons u us ih =>
        exact fun w => (sameButRequests_request M fuel u w).trans (ih _)
    rw [request]
    split
    · exact SameButRequests.refl w
    · have hmark : SameButRequests w (w.setTask t fun k => { k with requested := true }) := by
        refine ⟨rfl, rfl, fun u => ?_, fun u => ?_, fun u => ?_⟩ <;>
        · rcases eq_or_ne u t with rfl | h
          · rw [tasks_setTask_self]
          · rw [tasks_setTask_of_ne _ _ h]
      exact hmark.trans (hfold _ _)

/-! ### What is in progress -/

theorem doing_of_stack {w w' : World S}
    (h : ∀ u, (w'.tasks u).stack = (w.tasks u).stack) {c : S.Call} (hc : w'.doing c) :
    w.doing c := by
  obtain ⟨u, hu⟩ := hc
  exact ⟨u, h u ▸ hu⟩

/-- A new task is in the procedure it was started for. -/
theorem doing_born {w : World S} {M : System S} {c c' : S.Call} (h : (w.born M c).doing c') :
    w.doing c' ∨ c' = c := by
  obtain ⟨u, hu⟩ := h
  rcases eq_or_ne u w.next with rfl | hne
  · rw [tasks_born_next] at hu
    exact Or.inr (List.mem_singleton.mp hu)
  · rw [tasks_born_of_ne _ _ _ hne] at hu
    exact Or.inl ⟨u, hu⟩

/-- A change of one task's stack brings in what is new on it. -/
theorem doing_setTask {w : World S} {t : TaskId} {f : Task S → Task S} {c : S.Call}
    (h : (w.setTask t f).doing c) : w.doing c ∨ c ∈ (f (w.tasks t)).stack := by
  obtain ⟨u, hu⟩ := h
  rcases eq_or_ne u t with rfl | hne
  · rw [tasks_setTask_self] at hu
    exact Or.inr hu
  · rw [tasks_setTask_of_ne _ _ hne] at hu
    exact Or.inl ⟨u, hu⟩

theorem doing_finished {w : World S} {t : TaskId} {r : S.Res} {c : S.Call}
    (h : (w.finished t r).doing c) : w.doing c :=
  (doing_setTask h).resolve_right List.not_mem_nil

theorem exec_push (w : World S) (M : System S) (t : TaskId) (a : S.Act) (c : S.Call) :
    w.exec M t (.push a c) = setTask { w with state := M.eval t a w.state } t
      fun k => { k with stack := c :: k.stack } := rfl

theorem exec_pop (w : World S) (M : System S) (t : TaskId) (a : S.Act) :
    w.exec M t (.pop a) = setTask { w with state := M.eval t a w.state } t
      fun k => { k with stack := k.stack.tail } := rfl

theorem exec_jump (w : World S) (M : System S) (t : TaskId) (c : S.Call) :
    w.exec M t (.jump c) = w.setTask t fun k => { k with stack := [c] } := rfl

/-- A statement brings in at most the procedure it enters. -/
theorem doing_exec {w : World S} {M : System S} {t : TaskId} {s : Stmt S} {c : S.Call}
    (h : (w.exec M t s).doing c) : w.doing c ∨ s.enters = some c := by
  cases s with
  | act a => exact Or.inl h
  | push a c' =>
    rw [exec_push] at h
    rcases doing_setTask h with h | h
    · exact Or.inl h
    · rcases List.mem_cons.mp h with rfl | h
      · exact Or.inr rfl
      · exact Or.inl ⟨t, h⟩
  | pop a =>
    rw [exec_pop] at h
    exact Or.inl ((doing_setTask h).elim id fun h => ⟨t, List.mem_of_mem_tail h⟩)
  | spawn c' => exact (doing_born h).imp id fun h => congrArg some h.symm
  | cancel u => exact Or.inl (doing_of_stack (sameButRequests_request M _ _ _).stack h)
  | jump c' =>
    rw [exec_jump] at h
    exact (doing_setTask h).imp id fun h => congrArg some (List.mem_singleton.mp h).symm

@[simp] theorem state_exec (w : World S) (M : System S) (t : TaskId) (s : Stmt S) :
    (w.exec M t s).state = w.effect M t s := by
  cases s with
  | cancel u => exact (sameButRequests_request M _ _ _).state
  | _ => rfl

theorem next_exec (w : World S) (M : System S) (t : TaskId) (s : Stmt S) :
    w.next ≤ (w.exec M t s).next := by
  cases s with
  | spawn c => exact Nat.le_succ _
  | cancel v => exact Nat.le_of_eq (sameButRequests_request M w.next v w).next.symm
  | _ => exact Nat.le_refl _

end World

/-! ### Invariants -/

/-- A property of the shared state and of what is in progress that every step keeps. It asks
less when less is in progress, so leaving a procedure never breaks it. -/
structure FrameInvariant (M : System S) (C : World S → TaskId → Stmt S → Prop)
    (J : S.State → (S.Call → Prop) → Prop) : Prop where
  mono : ∀ {s D D'}, J s D → (∀ c, D' c → D c) → J s D'
  stmt : ∀ {w t s}, J w.state w.doing → C w t s →
    J (w.effect M t s) fun c => w.doing c ∨ s.enters = some c
  call : ∀ {s D c}, M.client c = true → J s D → J s fun c' => D c' ∨ c' = c
  tick : ∀ {e s s' D}, M.tick e s = some s' → J s D → J s' D

/-- **What every statement keeps holds in every run.** -/
theorem FrameInvariant.reach {M : System S} {C : World S → TaskId → Stmt S → Prop}
    {J : S.State → (S.Call → Prop) → Prop} (hJ : FrameInvariant M C J) {s : S.State}
    (hs : J s fun _ => False) {cf : Config S} (h : Reach M C s cf) :
    J cf.world.state cf.world.doing := by
  induction h with
  | refl => exact hJ.mono hs fun c ⟨_, hc⟩ => absurd hc List.not_mem_nil
  | tail _ hstep ih =>
    cases hstep with
    | call hc => exact hJ.mono (hJ.call hc ih) fun _ => World.doing_born
    | @giveUp w _ t =>
      have hsame := World.sameButRequests_request M w.next t w
      show J (w.request M w.next t).state _
      rw [hsame.state]
      exact hJ.mono ih fun _ => World.doing_of_stack hsame.stack
    | tick hs => exact hJ.tick hs ih
    | resume => exact hJ.mono ih fun _ => World.doing_of_stack (World.stack_resumed _ _)
    | read => exact ih
    | @stmt w _ t s _ hs =>
      show J (w.exec M t s).state _
      rw [World.state_exec]
      exact hJ.mono (hJ.stmt ih hs) fun _ => World.doing_exec
    | await => exact hJ.mono ih fun _ => World.doing_of_stack fun u => World.stack_suspended _ _ u _
    | @jump w _ t c hc =>
      show J (w.exec M t (.jump c)).state _
      rw [World.state_exec]
      exact hJ.mono (hJ.stmt ih hc) fun _ h => World.doing_exec (s := .jump c) h
    | finish => exact hJ.mono ih fun _ => World.doing_finished

/-- Of the condition only the statement of the step matters, in the world it finds. -/
theorem Step.imp {M : System S} {C C' : World S → TaskId → Stmt S → Prop} {cf cf' : Config S}
    (h : Step M C cf cf') (hC : ∀ t st, C cf.world t st → C' cf.world t st) :
    Step M C' cf cf' := by
  cases h with
  | call hc => exact .call hc
  | giveUp hc hclient => exact .giveUp hc hclient
  | tick hs => exact .tick hs
  | resume hk hw hr => exact .resume hk hw hr
  | read => exact .read
  | stmt hs => exact .stmt (hC _ _ hs)
  | await => exact .await
  | jump hc => exact .jump (hC _ _ hc)
  | finish => exact .finish

/-- The same, with what the step has made of the state. -/
theorem Step.imp_effect {M : System S} {C C' : World S → TaskId → Stmt S → Prop}
    {cf cf' : Config S} (h : Step M C cf cf') (hC : ∀ t st, C cf.world t st →
      cf'.world.state = cf.world.effect M t st → C' cf.world t st) : Step M C' cf cf' := by
  cases h with
  | call hc => exact .call hc
  | giveUp hc hclient => exact .giveUp hc hclient
  | tick hs => exact .tick hs
  | resume hk hw hr => exact .resume hk hw hr
  | read => exact .read
  | stmt hs => exact .stmt (hC _ _ hs (World.state_exec _ _ _ _))
  | await => exact .await
  | jump hc => exact .jump (hC _ _ hc (World.state_exec _ _ _ _))
  | finish => exact .finish

theorem Reach.imp {M : System S} {C C' : World S → TaskId → Stmt S → Prop}
    (hC : ∀ w t st, C w t st → C' w t st) {s : S.State} {cf : Config S} (h : Reach M C s cf) :
    Reach M C' s cf := by
  induction h with
  | refl => exact .refl
  | tail _ hstep ih => exact ih.tail (hstep.imp (hC _))

/-- **Later invariants may rely on earlier ones**: every statement of a run finds what every
statement keeps. -/
theorem FrameInvariant.reach_and {M : System S} {C : World S → TaskId → Stmt S → Prop}
    {J : S.State → (S.Call → Prop) → Prop} (hJ : FrameInvariant M C J) {s : S.State}
    (hs : J s fun _ => False) {cf : Config S} (h : Reach M C s cf) :
    Reach M (fun w t st => C w t st ∧ J w.state w.doing) s cf := by
  induction h with
  | refl => exact .refl
  | tail hprev hstep ih => exact ih.tail (hstep.imp fun _ _ hC => ⟨hC, hJ.reach hs hprev⟩)

/-! ### Invariants of the stacks -/

/-- The stacks of the tasks. -/
def World.frames (w : World S) (t : TaskId) : List S.Call := (w.tasks t).stack

/-- A property of the shared state and of the stacks, task by task, that every step keeps. -/
structure StackInvariant (M : System S) (C : World S → TaskId → Stmt S → Prop)
    (J : S.State → (TaskId → List S.Call) → Prop) : Prop where
  stmt : ∀ {w t s}, J w.state w.frames → C w t s →
    J (w.effect M t s) (w.exec M t s).frames
  call : ∀ {s f t c}, M.client c = true → J s f → J s (Function.update f t [c])
  finish : ∀ {s f t}, J s f → J s (Function.update f t [])
  tick : ∀ {e s s' f}, M.tick e s = some s' → J s f → J s' f

theorem World.frames_setTask (w : World S) (t : TaskId) (f : Task S → Task S) :
    (w.setTask t f).frames = Function.update w.frames t (f (w.tasks t)).stack := by
  funext u
  rw [Function.update_apply, frames]
  split
  · next h => rw [h, tasks_setTask_self]
  · next h => exact congrArg Task.stack (tasks_setTask_of_ne w f h)

theorem World.frames_born (w : World S) (M : System S) (c : S.Call) :
    (w.born M c).frames = Function.update w.frames w.next [c] := by
  funext u
  rw [Function.update_apply, frames]
  split
  · next h => rw [h, tasks_born_next]
  · next h => exact congrArg Task.stack (tasks_born_of_ne w M c h)

theorem World.frames_push (w : World S) (M : System S) (t : TaskId) (a : S.Act) (c : S.Call) :
    (w.exec M t (.push a c)).frames = Function.update w.frames t (c :: w.frames t) := by
  rw [exec_push, frames_setTask]
  rfl

theorem World.frames_pop (w : World S) (M : System S) (t : TaskId) (a : S.Act) :
    (w.exec M t (.pop a)).frames = Function.update w.frames t (w.frames t).tail := by
  rw [exec_pop, frames_setTask]
  rfl

/-- **What every statement keeps of the stacks holds in every run.** -/
theorem StackInvariant.reach {M : System S} {C : World S → TaskId → Stmt S → Prop}
    {J : S.State → (TaskId → List S.Call) → Prop} (hJ : StackInvariant M C J) {s : S.State}
    (hs : J s fun _ => []) {cf : Config S} (h : Reach M C s cf) :
    J cf.world.state cf.world.frames := by
  induction h with
  | refl => exact hs
  | tail _ hstep ih =>
    cases hstep with
    | @call w _ c hc =>
      show J w.state (w.born M c).frames
      rw [World.frames_born]
      exact hJ.call hc ih
    | @giveUp w _ t =>
      have hsame := World.sameButRequests_request M w.next t w
      show J (w.request M w.next t).state (w.request M w.next t).frames
      rw [hsame.state, show (w.request M w.next t).frames = w.frames from funext hsame.stack]
      exact ih
    | tick hs => exact hJ.tick hs ih
    | @resume w _ t =>
      show J w.state (w.resumed t).frames
      rw [show (w.resumed t).frames = w.frames from funext fun u => World.stack_resumed w t u]
      exact ih
    | read => exact ih
    | @stmt w _ t s _ hs =>
      show J (w.exec M t s).state _
      rw [World.state_exec]
      exact hJ.stmt ih hs
    | @await w _ t wt =>
      show J w.state (w.suspended t wt).frames
      rw [show (w.suspended t wt).frames = w.frames from
        funext fun u => World.stack_suspended w t u wt]
      exact ih
    | @jump w _ t c hc =>
      show J (w.exec M t (.jump c)).state _
      rw [World.state_exec]
      exact hJ.stmt ih hc
    | @finish w _ t r =>
      show J w.state (w.finished t r).frames
      rw [World.finished, World.frames_setTask]
      exact hJ.finish ih

end SlmMcpHub
