import SlmMcpHub.Library.CoroutineRun
import SlmMcpHub.Library.Operation

/-!
# Tasks that leave what they enter

A program that leaves every procedure it enters is, when it is done, in nothing but the procedure
it was started for. For tasks of such programs the stacks say exactly what is going on: a section
on a stack is one whose end is still to come, and a property that counts sections survives the end
of a task.

The stack also tells what a task waits for, when each program waits for a certain thing only while
it is in a certain section. Neither depends on the state, so both are read off the programs alone.

## Main definitions

* `Coro.Follows` — what a program waits for with which stack, and what stack it is done with
* `Orderly` — every program of a system is done with the stack it was started with
* `CountInvariant` — a property of the state and of the stacks that every step of orderly tasks
  keeps
* `Config.CanResume` — the wait of a task is over

## Main results

* `Op.Follows.bind`, `Op.Follows.tryCatch`, `Op.Follows.ensure`, `Op.Follows.within` — the rules of
  composition
* `CountInvariant.reach` — what every statement keeps of the stacks holds in every run
* `Orderly.waits` — a task that is in something and does not run waits for what its stack says
-/

namespace SlmMcpHub

variable {S : Signature} {ε α β : Type}

/-! ### Programs -/

/-- What a statement makes of the stack of the task that executes it. -/
def Stmt.onStack (st : List S.Call) : Stmt S → List S.Call
  | .push _ c => c :: st
  | .pop _ => st.tail
  | .jump c => [c]
  | _ => st

/-- Started with a stack, a program waits only for what `A` allows with the stack it has then, and
is done in `Q`. -/
def Coro.Follows (A : List S.Call → S.Wait → Prop) :
    Coro S α → (α → List S.Call → Prop) → List S.Call → Prop
  | .ret a, Q, st => Q a st
  | .read k, Q, st => ∀ w t, (k w t).Follows A Q st
  | .stmt s k, Q, st => k.Follows A Q (s.onStack st)
  | .await wt k, Q, st => A st wt ∧ ∀ r, (k r).Follows A Q st
  | .jump _, _, _ => True

theorem Coro.Follows.mono {A : List S.Call → S.Wait → Prop} {p : Coro S α}
    {Q Q' : α → List S.Call → Prop} (hQ : ∀ a st, Q a st → Q' a st) :
    ∀ {st}, p.Follows A Q st → p.Follows A Q' st := by
  induction p with
  | ret a => exact fun h => hQ a _ h
  | read k ih => exact fun h w t => ih w t (h w t)
  | stmt s k ih => exact fun h => ih h
  | await wt k ih => exact fun h => ⟨h.1, fun r => ih r (h.2 r)⟩
  | jump c => exact id

theorem Coro.Follows.bind {A : List S.Call → S.Wait → Prop} {p : Coro S α} {f : α → Coro S β}
    {Q : β → List S.Call → Prop} :
    ∀ {st}, p.Follows A (fun a st' => (f a).Follows A Q st') st → (p.bind f).Follows A Q st := by
  induction p with
  | ret a => exact id
  | read k ih => exact fun h w t => ih w t (h w t)
  | stmt s k ih => exact fun h => ih h
  | await wt k ih => exact fun h => ⟨h.1, fun r => ih r (h.2 r)⟩
  | jump c => exact id

namespace Op

/-- An operation leaves what it enters, and waits only for what `A` allows. -/
def Follows (A : List S.Call → S.Wait → Prop) (st : List S.Call) (p : Op S ε α) : Prop :=
  Coro.Follows A p (fun _ st' => st' = st) st

namespace Follows

variable {A : List S.Call → S.Wait → Prop} {st : List S.Call}

theorem pure (a : α) : Follows A st (Pure.pure a : Op S ε α) := rfl

theorem throw (e : ε) : Follows A st (MonadExcept.throw e : Op S ε α) := rfl

theorem get : Follows A st (Op.get : Op S ε S.State) := fun _ _ => rfl

theorem act (a : S.Act) : Follows A st (Op.act a : Op S ε Unit) := rfl

/-- What follows an operation that leaves what it enters finds the stack it found. -/
theorem coroBind {p : Op S ε α} {f : Except ε α → Coro S β} {Q : β → List S.Call → Prop}
    (hp : Follows A st p) (hf : ∀ r, (f r).Follows A Q st) : (Coro.bind p f).Follows A Q st :=
  Coro.Follows.bind (Coro.Follows.mono (fun r _ h => h ▸ hf r) hp)

theorem bind {p : Op S ε α} {f : α → Op S ε β} (hp : Follows A st p)
    (hf : ∀ a, Follows A st (f a)) : Follows A st (p >>= f) :=
  hp.coroBind fun r => by
    cases r with
    | ok a => exact hf a
    | error e => rfl

theorem tryCatch {p : Op S ε α} {h : ε → Op S ε α} (hp : Follows A st p)
    (hh : ∀ e, Follows A st (h e)) : Follows A st (MonadExcept.tryCatch p h) :=
  hp.coroBind fun r => by
    cases r with
    | ok a => rfl
    | error e => exact hh e

theorem ite {c : Prop} [Decidable c] {p q : Op S ε α} (hp : Follows A st p)
    (hq : Follows A st q) : Follows A st (if c then p else q) := by
  split
  · exact hp
  · exact hq

/-- A section is entered and left, whatever happens in between. -/
theorem within {enter leave : S.Act} {c : S.Call} {p : Op S ε α} (hp : Follows A (c :: st) p) :
    Follows A st (Op.within enter c leave p) :=
  hp.coroBind fun _ => rfl

end Follows

end Op

/-! ### Systems -/

/-- Every program of a system is done with the stack it was started with, and waits only for what
`A` allows. -/
structure Orderly (M : System S) (A : List S.Call → S.Wait → Prop) : Prop where
  turn : ∀ c, A [c] M.turn
  body : ∀ c r, (M.body c r).Follows A (fun _ st => st = [c]) [c]

/-- What a task has left to do follows its stack. -/
def Coro.Remains (A : List S.Call → S.Wait → Prop) (p : Coro S S.Res) (st : List S.Call) : Prop :=
  ∃ c, p.Follows A (fun _ st => st = [c]) st

/-- The tasks of a configuration follow their stacks. -/
structure FollowsStacks (A : List S.Call → S.Wait → Prop) (cf : Config S) : Prop where
  waits : ∀ {t k}, cf.conts t = some k → ∃ wt, (cf.world.tasks t).waiting = some wt ∧
    A (cf.world.tasks t).stack wt ∧ ∀ r, (k r).Remains A (cf.world.tasks t).stack
  alone : ∀ {t p}, cf.running = some (t, p) → cf.conts t = none ∧
    p.Remains A (cf.world.tasks t).stack
  alive : ∀ {t}, (cf.world.tasks t).stack ≠ [] →
    (∃ p, cf.running = some (t, p)) ∨ ∃ k, cf.conts t = some k

section Soundness

variable {M : System S} {A : List S.Call → S.Wait → Prop} {cf cf' : Config S}

/-- What a waiting task has left to do, in a world with the same stack and the same wait. -/
theorem FollowsStacks.waits_of_same (h : FollowsStacks A cf) {w : World S} {t : TaskId}
    {k : S.Res → Coro S S.Res} (hk : cf.conts t = some k)
    (hstack : (w.tasks t).stack = (cf.world.tasks t).stack)
    (hwaiting : (w.tasks t).waiting = (cf.world.tasks t).waiting) :
    ∃ wt, (w.tasks t).waiting = some wt ∧ A (w.tasks t).stack wt ∧
      ∀ r, (k r).Remains A (w.tasks t).stack := by
  rw [hstack, hwaiting]
  exact h.waits hk

/-- The tasks after one more has been started, by the outside or by the running task. -/
theorem FollowsStacks.waits_born (hM : Orderly M A) (h : FollowsStacks A cf) {c : S.Call}
    {t : TaskId} {k : S.Res → Coro S S.Res}
    (hk : Function.update cf.conts cf.world.next (some (M.body c)) t = some k) :
    ∃ wt, ((cf.world.born M c).tasks t).waiting = some wt ∧
      A ((cf.world.born M c).tasks t).stack wt ∧
      ∀ r, (k r).Remains A ((cf.world.born M c).tasks t).stack := by
  rcases eq_or_ne t cf.world.next with rfl | hne
  · rw [Function.update_self, Option.some.injEq] at hk
    rw [World.tasks_born_next]
    exact ⟨M.turn, rfl, hM.turn c, fun r => ⟨c, hk ▸ hM.body c r⟩⟩
  · rw [Function.update_of_ne hne] at hk
    rw [World.tasks_born_of_ne _ _ _ hne]
    exact h.waits hk

theorem FollowsStacks.alive_born (h : FollowsStacks A cf) (c : S.Call) {t : TaskId}
    (ht : ((cf.world.born M c).tasks t).stack ≠ []) :
    (∃ p, cf.running = some (t, p)) ∨
      ∃ k, Function.update cf.conts cf.world.next (some (M.body c)) t = some k := by
  rcases eq_or_ne t cf.world.next with rfl | hne
  · exact Or.inr ⟨_, Function.update_self _ _ _⟩
  · rw [World.tasks_born_of_ne _ _ _ hne] at ht
    rw [Function.update_of_ne hne]
    exact h.alive ht

/-- A statement makes of the stack of its task what it says. -/
theorem World.stack_exec_self (w : World S) (M : System S) {t : TaskId} (s : Stmt S)
    (ht : t < w.next) : ((w.exec M t s).tasks t).stack = s.onStack (w.tasks t).stack := by
  cases s with
  | act a => rfl
  | push a c => exact Op.stack_push w t a c
  | pop a => exact Op.stack_pop w t a
  | spawn c => exact Op.stack_spawn w c ht
  | cancel u => exact (sameButRequests_request M w.next u w).stack t
  | jump c => rw [exec_jump, tasks_setTask_self]; rfl

/-- A statement that starts no task leaves the stacks of all others alone. -/
theorem World.stack_exec_of_ne (w : World S) (M : System S) {t u : TaskId} {s : Stmt S}
    (hs : ∀ c, s ≠ .spawn c) (h : u ≠ t) :
    ((w.exec M t s).tasks u).stack = (w.tasks u).stack := by
  cases s with
  | act a => rfl
  | push a c => rw [exec_push, tasks_setTask_of_ne _ _ h]
  | pop a => rw [exec_pop, tasks_setTask_of_ne _ _ h]
  | spawn c => exact absurd rfl (hs c)
  | cancel v => exact (sameButRequests_request M w.next v w).stack u
  | jump c => rw [exec_jump, tasks_setTask_of_ne _ _ h]

/-- Of the tasks other than the running one, those that are in something wait. -/
theorem FollowsStacks.waiting_of_ne (h : FollowsStacks A cf) {t u : TaskId} {p : Coro S S.Res}
    (hrun : cf.running = some (t, p)) (hne : u ≠ t) (hu : (cf.world.tasks u).stack ≠ []) :
    ∃ k, cf.conts u = some k := by
  rcases h.alive hu with ⟨p', hp'⟩ | hk
  · rw [hrun] at hp'
    cases hp'
    exact absurd rfl hne
  · exact hk

/-- After a statement that starts no task, in the world it leaves. -/
theorem FollowsStacks.exec (hstarted : cf.Started) (h : FollowsStacks A cf) {t : TaskId}
    {s : Stmt S} {p p' : Coro S S.Res} (hrun : cf.running = some (t, p))
    (hs : ∀ c, s ≠ .spawn c) (hp' : p'.Remains A (s.onStack (cf.world.tasks t).stack)) :
    FollowsStacks A ⟨cf.world.exec M t s, cf.conts, some (t, p')⟩ := by
  obtain ⟨hnone, -⟩ := h.alone hrun
  refine ⟨fun {u k} hk => ?_, fun {u q} hq => ?_, fun {u} hu => ?_⟩
  · have hne := ne_of_conts hnone hk
    obtain ⟨hstack, hwaiting⟩ := cf.world.others_exec M s hne (hstarted.conts hk)
    exact h.waits_of_same hk hstack hwaiting
  · cases hq
    refine ⟨hnone, ?_⟩
    show p'.Remains A ((cf.world.exec M t s).tasks t).stack
    rwa [World.stack_exec_self _ M s (hstarted.running hrun)]
  · rcases eq_or_ne u t with rfl | hut
    · exact Or.inl ⟨p', rfl⟩
    · refine Or.inr (h.waiting_of_ne hrun hut ?_)
      rwa [← World.stack_exec_of_ne cf.world M hs hut]

/-- **Tasks of orderly programs follow their stacks**, one step. -/
theorem FollowsStacks.step {C : World S → TaskId → Stmt S → Prop} (hM : Orderly M A)
    (hstarted : cf.Started) (h : FollowsStacks A cf) (hstep : Step M C cf cf') :
    FollowsStacks A cf' := by
  cases hstep with
  | @call w conts c hc =>
    exact ⟨h.waits_born hM, nofun, h.alive_born c⟩
  | @giveUp w conts t c hc hclient =>
    have hsame := World.sameButRequests_request M w.next t w
    exact ⟨fun hk => h.waits_of_same hk (hsame.stack _) (hsame.waiting _), nofun,
      fun {u} hu => h.alive (hsame.stack u ▸ hu)⟩
  | tick hs => exact ⟨h.waits, nofun, h.alive⟩
  | @resume w conts t k wt r hk hw hr =>
    refine ⟨fun {u k'} hu => ?_, fun {u p} hp => ?_, fun {u} hu => ?_⟩
    · change Function.update conts t none u = some k' at hu
      rcases eq_or_ne u t with rfl | hne
      · rw [Function.update_self] at hu
        cases hu
      · rw [Function.update_of_ne hne] at hu
        have hsame := w.tasks_resumed_of_ne hne
        exact h.waits_of_same hu (congrArg Task.stack hsame) (congrArg Task.waiting hsame)
    · cases hp
      obtain ⟨-, -, -, hrest⟩ := h.waits hk
      refine ⟨Function.update_self _ _ _, ?_⟩
      show (k r).Remains A ((w.resumed t).tasks t).stack
      rw [World.stack_resumed]
      exact hrest r
    · change ((w.resumed t).tasks u).stack ≠ [] at hu
      rw [World.stack_resumed] at hu
      rcases eq_or_ne u t with rfl | hne
      · exact Or.inl ⟨_, rfl⟩
      · obtain ⟨p, hp⟩ | ⟨k', hk'⟩ := h.alive hu
        · cases hp
        · exact Or.inr ⟨k', (Function.update_of_ne hne _ _).trans hk'⟩
  | @read w conts t k =>
    obtain ⟨hnone, c, hrest⟩ := h.alone rfl
    refine ⟨h.waits, fun hp => ?_, fun {u} hu => ?_⟩
    · cases hp
      exact ⟨hnone, c, hrest w t⟩
    · rcases eq_or_ne u t with rfl | hne
      · exact Or.inl ⟨_, rfl⟩
      · exact Or.inr (h.waiting_of_ne rfl hne hu)
  | @stmt w conts t s p hs =>
    obtain ⟨hnone, c, hrest⟩ := h.alone rfl
    have ht : t < w.next := hstarted.running rfl
    cases s with
    | spawn c' =>
      refine ⟨h.waits_born hM, fun {u q} hq => ?_, fun {u} hu => ?_⟩
      · cases hq
        refine ⟨(Function.update_of_ne (Nat.ne_of_lt ht) _ _).trans hnone, c, ?_⟩
        show p.Follows A _ ((w.exec M t (.spawn c')).tasks t).stack
        rw [World.stack_exec_self w M _ ht]
        exact hrest
      · obtain ⟨p', hp'⟩ | hk := h.alive_born c' hu
        · cases hp'
          exact Or.inl ⟨p, rfl⟩
        · exact Or.inr hk
    | act a => exact h.exec hstarted rfl nofun ⟨c, hrest⟩
    | push a c' => exact h.exec hstarted rfl nofun ⟨c, hrest⟩
    | pop a => exact h.exec hstarted rfl nofun ⟨c, hrest⟩
    | cancel u => exact h.exec hstarted rfl nofun ⟨c, hrest⟩
    | jump c' => exact h.exec hstarted rfl nofun ⟨c, hrest⟩
  | @await w conts t wt k =>
    obtain ⟨hnone, c, hA, hrest⟩ := h.alone rfl
    refine ⟨fun {u k'} hu => ?_, nofun, fun {u} hu => ?_⟩
    · change Function.update conts t (some k) u = some k' at hu
      rcases eq_or_ne u t with rfl | hne
      · rw [Function.update_self, Option.some.injEq] at hu
        subst hu
        refine ⟨wt, congrArg Task.waiting
          (w.tasks_setTask_self u fun k => { k with waiting := some wt }), ?_, fun r => ⟨c, ?_⟩⟩
        · show A ((w.suspended u wt).tasks u).stack wt
          rwa [World.stack_suspended]
        · show (k r).Follows A _ ((w.suspended u wt).tasks u).stack
          rw [World.stack_suspended]
          exact hrest r
      · rw [Function.update_of_ne hne] at hu
        have hsame := w.tasks_setTask_of_ne (fun k => { k with waiting := some wt }) hne
        exact h.waits_of_same hu (congrArg Task.stack hsame) (congrArg Task.waiting hsame)
    · change ((w.suspended t wt).tasks u).stack ≠ [] at hu
      rw [World.stack_suspended] at hu
      rcases eq_or_ne u t with rfl | hne
      · exact Or.inr ⟨k, Function.update_self _ _ _⟩
      · obtain ⟨k', hk'⟩ := h.waiting_of_ne rfl hne hu
        exact Or.inr ⟨k', (Function.update_of_ne hne _ _).trans hk'⟩
  | @jump w conts t c hc =>
    exact h.exec (s := .jump c) hstarted rfl nofun ⟨c, hM.body c M.again⟩
  | @finish w conts t r =>
    obtain ⟨hnone, -⟩ := h.alone rfl
    have hsame : ∀ {u}, u ≠ t → (w.finished t r).tasks u = w.tasks u := fun hne =>
      w.tasks_setTask_of_ne _ hne
    refine ⟨fun {u k} hk => ?_, nofun, fun {u} hu => ?_⟩
    · have hne := ne_of_conts hnone hk
      exact h.waits_of_same hk (congrArg Task.stack (hsame hne))
        (congrArg Task.waiting (hsame hne))
    · have hne : u ≠ t := by
        rintro rfl
        exact hu (congrArg Task.stack
          (w.tasks_setTask_self u fun k => { k with stack := [], result := some r }))
      refine Or.inr (h.waiting_of_ne rfl hne ?_)
      rwa [← hsame hne]

theorem followsStacks_start (s : S.State) : FollowsStacks A (Config.start s) :=
  ⟨nofun, nofun, fun h => absurd rfl h⟩

theorem Orderly.reach {C : World S → TaskId → Stmt S → Prop} (hM : Orderly M A) {s : S.State}
    (h : Reach M C s cf) : cf.Started ∧ FollowsStacks A cf := by
  induction h with
  | refl => exact ⟨started_start s, followsStacks_start s⟩
  | tail _ hstep ih => exact ⟨ih.1.step hstep, ih.2.step hM ih.1 hstep⟩

end Soundness

/-! ### Counting sections -/

/-- What is on the stacks after one of them has changed. -/
theorem mem_update_iff {γ : Type} {f : TaskId → List γ} {t u : TaskId} {st : List γ} {c : γ} :
    c ∈ Function.update f t st u ↔ (u = t ∧ c ∈ st) ∨ (u ≠ t ∧ c ∈ f u) := by
  rcases eq_or_ne u t with rfl | hne
  · simp
  · simp [hne]

/-- A change of one stack that keeps what is asked for. -/
theorem mem_update_of_iff {γ : Type} {f : TaskId → List γ} {t u : TaskId} {st : List γ} {c : γ}
    (h : c ∈ st ↔ c ∈ f t) : c ∈ Function.update f t st u ↔ c ∈ f u := by
  rcases eq_or_ne u t with rfl | hne
  · rw [Function.update_self, h]
  · rw [Function.update_of_ne hne]

/-- A property of the shared state and of the stacks that every step of orderly tasks keeps. A
task starts with an empty stack, and is done when it is in nothing but its procedure. -/
structure CountInvariant (M : System S) (C : World S → TaskId → Stmt S → Prop)
    (J : S.State → (TaskId → List S.Call) → Prop) : Prop where
  stmt : ∀ {w t s}, J w.state w.frames → w.frames w.next = [] → C w t s →
    J (w.effect M t s) (w.exec M t s).frames
  call : ∀ {s f t c}, M.client c = true → f t = [] → J s f → J s (Function.update f t [c])
  finish : ∀ {s f t c}, f t = [c] → J s f → J s (Function.update f t [])
  tick : ∀ {e s s' f}, M.tick e s = some s' → J s f → J s' f

/-- **What every statement keeps of the stacks holds in every run of orderly tasks.** -/
theorem CountInvariant.reach {M : System S} {A : List S.Call → S.Wait → Prop}
    {C : World S → TaskId → Stmt S → Prop} {J : S.State → (TaskId → List S.Call) → Prop}
    (hM : Orderly M A) (hJ : CountInvariant M C J) {s : S.State} (hs : J s fun _ => [])
    {cf : Config S} (h : Reach M C s cf) : J cf.world.state cf.world.frames := by
  induction h with
  | refl => exact hs
  | tail hprev hstep ih =>
    obtain ⟨hstarted, hfollows⟩ := hM.reach hprev
    cases hstep with
    | @call w _ c hc =>
      show J w.state (w.born M c).frames
      rw [World.frames_born]
      exact hJ.call hc (hstarted.stack (Nat.le_refl _)) ih
    | @giveUp w _ t =>
      have hsame := World.sameButRequests_request M w.next t w
      show J (w.request M w.next t).state (w.request M w.next t).frames
      rw [hsame.state, show (w.request M w.next t).frames = w.frames from funext hsame.stack]
      exact ih
    | tick hs => exact hJ.tick hs ih
    | @resume w _ t =>
      show J w.state (w.resumed t).frames
      rw [show (w.resumed t).frames = w.frames from funext fun u => World.stack_resumed w t u]
      exact ih
    | read => exact ih
    | @stmt w _ t s _ hs =>
      show J (w.exec M t s).state _
      rw [World.state_exec]
      exact hJ.stmt ih (hstarted.stack (Nat.le_refl _)) hs
    | @await w _ t wt =>
      show J w.state (w.suspended t wt).frames
      rw [show (w.suspended t wt).frames = w.frames from
        funext fun u => World.stack_suspended w t u wt]
      exact ih
    | @jump w _ t c hc =>
      show J (w.exec M t (.jump c)).state _
      rw [World.state_exec]
      exact hJ.stmt ih (hstarted.stack (Nat.le_refl _)) hc
    | @finish w _ t r =>
      show J w.state (w.finished t r).frames
      rw [World.finished, World.frames_setTask]
      obtain ⟨-, c, hdone⟩ := hfollows.alone rfl
      exact hJ.finish hdone ih

/-! ### Waiting -/

/-- What a task waits for is over. -/
def Config.CanResume (M : System S) (cf : Config S) (t : TaskId) : Prop :=
  ∃ k wt r, cf.conts t = some k ∧ (cf.world.tasks t).waiting = some wt ∧
    M.ready cf.world t wt r = true

/-- A task whose wait is over goes on when no other runs. -/
theorem Config.CanResume.step {M : System S} {C : World S → TaskId → Stmt S → Prop}
    {cf : Config S} {t : TaskId} (h : cf.CanResume M t) (hidle : cf.running = none) :
    ∃ cf' p, Step M C cf cf' ∧ cf'.running = some (t, p) := by
  obtain ⟨w, conts, running⟩ := cf
  obtain ⟨k, wt, r, hk, hw, hr⟩ := h
  obtain rfl : running = none := hidle
  exact ⟨_, k r, .resume hk hw hr, rfl⟩

/-- **A task that is in something and does not run waits for what its stack says.** -/
theorem Orderly.waits {M : System S} {A : List S.Call → S.Wait → Prop}
    {C : World S → TaskId → Stmt S → Prop} (hM : Orderly M A) {s : S.State} {cf : Config S}
    (h : Reach M C s cf) {t : TaskId} (ht : (cf.world.tasks t).stack ≠ [])
    (hrun : ∀ p, cf.running ≠ some (t, p)) :
    ∃ k wt, cf.conts t = some k ∧ (cf.world.tasks t).waiting = some wt ∧
      A (cf.world.tasks t).stack wt := by
  obtain ⟨-, hfollows⟩ := hM.reach h
  obtain ⟨p, hp⟩ | ⟨k, hk⟩ := hfollows.alive ht
  · exact absurd hp (hrun p)
  · obtain ⟨wt, hwt, hA, -⟩ := hfollows.waits hk
    exact ⟨k, wt, hk, hwt, hA⟩

end SlmMcpHub
