import SlmMcpHub.Library.Coroutine

/-!
# Reasoning about cooperative tasks

A program is verified once, against what its statements may count on: `guard w t s` is what must
be known whenever task `t` executes `s` in the world `w`. Inside a stretch without a wait it is
computed forward, statement by statement; at a wait everything is forgotten but the task's own
stack, which nobody else changes, and the property `rest` that holds of the state whenever no task
runs.

A system whose programs are all verified executes no statement outside its guard, in any run. An
invariant of the runs then needs no program at all: it is kept by every statement within its
guard.

## Main definitions

* `Coro.wp` — what has to hold for a program to stay within the guard and end in a postcondition
* `Verified` — every procedure of a system stays within the guard

## Main results

* `Coro.wp_bind`, `Coro.wp_mono` — the rules of sequencing and of consequence
* `Verified.reach` — a run of a verified system stays within the guard, and `rest` holds whenever
  no task runs
-/

namespace SlmMcpHub

variable {S : Signature} {α β : Type}

section Logic

variable (M : System S) (guard : World S → TaskId → Stmt S → Prop) (rest : S.State → Prop)

/-- The weakest precondition of a program run by the task `t`. -/
def Coro.wp (t : TaskId) : Coro S α → (α → World S → Prop) → World S → Prop
  | .ret a, Q, w => Q a w
  | .read k, Q, w => (k w t).wp t Q w
  | .stmt s k, Q, w => guard w t s ∧ k.wp t Q (w.exec M t s)
  | .await wt k, Q, w => rest w.state ∧ ∀ w' r, rest w'.state → t < w'.next →
      (w'.tasks t).stack = (w.tasks t).stack → M.ready w' t wt r = true →
        (k r).wp t Q (w'.resumed t)
  | .jump c, _, w => guard w t (.jump c) ∧ rest w.state

/-- Every procedure, from a state at rest, stays within the guard and ends in a state at rest. -/
def Verified : Prop :=
  ∀ c r t w, rest w.state → t < w.next → (w.tasks t).stack = [c] →
    (M.body c r).wp M guard rest t (fun _ w' => rest w'.state) w

end Logic

section Rules

variable {M : System S} {guard : World S → TaskId → Stmt S → Prop} {rest : S.State → Prop}
  {t : TaskId}

/-- **Consequence.** -/
theorem Coro.wp_mono {p : Coro S α} {Q Q' : α → World S → Prop} (hQ : ∀ a w, Q a w → Q' a w) :
    ∀ {w}, p.wp M guard rest t Q w → p.wp M guard rest t Q' w := by
  induction p with
  | ret a => exact fun h => hQ a _ h
  | read k ih => exact fun {w} h => ih w t h
  | stmt s k ih => exact fun h => ⟨h.1, ih h.2⟩
  | await wt k ih =>
    exact fun h => ⟨h.1, fun w' r hrest ht hstack hready =>
      ih r (h.2 w' r hrest ht hstack hready)⟩
  | jump c => exact id

/-- **Sequencing.** -/
theorem Coro.wp_bind {p : Coro S α} {f : α → Coro S β} {Q : β → World S → Prop} :
    ∀ {w}, (p.bind f).wp M guard rest t Q w ↔
      p.wp M guard rest t (fun a w' => (f a).wp M guard rest t Q w') w := by
  induction p with
  | ret a => exact Iff.rfl
  | read k ih => exact fun {w} => ih w t
  | stmt s k ih => exact and_congr_right fun _ => ih
  | await wt k ih =>
    exact and_congr_right fun _ => forall_congr' fun _ => forall_congr' fun r =>
      imp_congr_right fun _ => imp_congr_right fun _ => imp_congr_right fun _ =>
        imp_congr_right fun _ => ih r
  | jump c => exact Iff.rfl

end Rules

/-! ### Soundness -/

section Soundness

variable {M : System S} {guard : World S → TaskId → Stmt S → Prop} {rest : S.State → Prop}

/-- What each task has left to do stays within the guard. -/
structure WithinGuard (M : System S) (guard : World S → TaskId → Stmt S → Prop)
    (rest : S.State → Prop) (cf : Config S) : Prop where
  resting : cf.running = none → rest cf.world.state
  born : ∀ {t k}, cf.conts t = some k → t < cf.world.next
  waits : ∀ {t k wt}, cf.conts t = some k → (cf.world.tasks t).waiting = some wt → ∀ w' r,
    rest w'.state → t < w'.next → (w'.tasks t).stack = (cf.world.tasks t).stack →
      M.ready w' t wt r = true → (k r).wp M guard rest t (fun _ w => rest w.state) (w'.resumed t)
  alone : ∀ {t p}, cf.running = some (t, p) → t < cf.world.next ∧ cf.conts t = none ∧
    p.wp M guard rest t (fun _ w => rest w.state) cf.world

namespace World

theorem tasks_resumed_of_ne (w : World S) {t u : TaskId} (h : u ≠ t) :
    (w.resumed t).tasks u = w.tasks u := tasks_setTask_of_ne _ _ h

/-- A statement leaves the other tasks' stacks and waits alone, but for the task it starts. -/
theorem others_exec (w : World S) (M : System S) {t u : TaskId} (s : Stmt S) (h : u ≠ t)
    (hu : u < w.next) :
    ((w.exec M t s).tasks u).stack = (w.tasks u).stack ∧
      ((w.exec M t s).tasks u).waiting = (w.tasks u).waiting := by
  cases s with
  | act a => exact ⟨rfl, rfl⟩
  | push a c =>
    rw [exec_push, tasks_setTask_of_ne _ _ h]
    exact ⟨rfl, rfl⟩
  | pop a =>
    rw [exec_pop, tasks_setTask_of_ne _ _ h]
    exact ⟨rfl, rfl⟩
  | spawn c =>
    show ((w.born M c).tasks u).stack = _ ∧ ((w.born M c).tasks u).waiting = _
    rw [tasks_born_of_ne _ _ _ (Nat.ne_of_lt hu)]
    exact ⟨rfl, rfl⟩
  | cancel v =>
    have hsame := sameButRequests_request M w.next v w
    exact ⟨hsame.stack u, hsame.waiting u⟩
  | jump c =>
    rw [exec_jump, tasks_setTask_of_ne _ _ h]
    exact ⟨rfl, rfl⟩

end World

/-- What is left to do does not change when the stacks and the waits do not. -/
theorem WithinGuard.waits_of_same {cf : Config S} (h : WithinGuard M guard rest cf) {t : TaskId}
    {k : S.Res → Coro S S.Res} {w : World S} (hk : cf.conts t = some k)
    (hsame : (w.tasks t).stack = (cf.world.tasks t).stack ∧
      (w.tasks t).waiting = (cf.world.tasks t).waiting) {wt} (hw : (w.tasks t).waiting = some wt) :
    ∀ w' r, rest w'.state → t < w'.next → (w'.tasks t).stack = (w.tasks t).stack →
      M.ready w' t wt r = true →
        (k r).wp M guard rest t (fun _ w => rest w.state) (w'.resumed t) :=
  fun w' r hrest ht hstack => h.waits hk (hsame.2 ▸ hw) w' r hrest ht (hstack.trans hsame.1)

/-- A new task has its procedure to do, and this one is verified. -/
theorem Verified.born (hV : Verified M guard rest) (w : World S) (c : S.Call) (r : S.Res)
    {w' : World S} (hrest : rest w'.state) (ht : w.next < w'.next)
    (hstack : (w'.tasks w.next).stack = ((w.born M c).tasks w.next).stack) :
    (M.body c r).wp M guard rest w.next (fun _ w => rest w.state) (w'.resumed w.next) := by
  refine hV c r w.next _ hrest ht ?_
  rw [World.stack_resumed, hstack, World.tasks_born_next]

/-- With one more task to start, what is left to do stays within the guard. -/
theorem WithinGuard.waits_born (hV : Verified M guard rest) {cf : Config S}
    (h : WithinGuard M guard rest cf) {c : S.Call} {t : TaskId} {k : S.Res → Coro S S.Res} {wt}
    (hk : Function.update cf.conts cf.world.next (some (M.body c)) t = some k)
    (hw : ((cf.world.born M c).tasks t).waiting = some wt) :
    ∀ w' r, rest w'.state → t < w'.next →
      (w'.tasks t).stack = ((cf.world.born M c).tasks t).stack → M.ready w' t wt r = true →
        (k r).wp M guard rest t (fun _ w => rest w.state) (w'.resumed t) := by
  rcases eq_or_ne t cf.world.next with rfl | hne
  · rw [Function.update_self, Option.some.injEq] at hk
    subst hk
    exact fun w' r hrest ht hstack _ => hV.born cf.world c r hrest ht hstack
  · rw [Function.update_of_ne hne] at hk
    have hsame := World.tasks_born_of_ne cf.world M c hne
    exact h.waits_of_same hk ⟨congrArg Task.stack hsame, congrArg Task.waiting hsame⟩ hw

theorem WithinGuard.born_born {cf : Config S} (h : WithinGuard M guard rest cf) {c : S.Call}
    {t : TaskId} {k : S.Res → Coro S S.Res}
    (hk : Function.update cf.conts cf.world.next (some (M.body c)) t = some k) :
    t < cf.world.next + 1 := by
  rcases eq_or_ne t cf.world.next with rfl | hne
  · exact Nat.lt_succ_self _
  · rw [Function.update_of_ne hne] at hk
    exact Nat.lt_succ_of_lt (h.born hk)

theorem Stmt.spawn_or_adopt (s : Stmt S) (M : System S) (w : World S)
    (conts : TaskId → Option (S.Res → Coro S S.Res)) :
    (∃ c, s = .spawn c) ∨ s.adopt M w conts = conts := by
  cases s with
  | spawn c => exact Or.inl ⟨c, rfl⟩
  | _ => exact Or.inr rfl

/-- **Verified programs stay within their guard**, one step. -/
theorem WithinGuard.step (hV : Verified M guard rest)
    (htick : ∀ {e s s'}, M.tick e s = some s' → rest s → rest s')
    {C : World S → TaskId → Stmt S → Prop} {cf cf' : Config S}
    (h : WithinGuard M guard rest cf) (hstep : Step M C cf cf') :
    Step M (fun w t s => C w t s ∧ guard w t s) cf cf' ∧ WithinGuard M guard rest cf' := by
  cases hstep with
  | call hc =>
    exact ⟨.call hc, fun _ => h.resting rfl, h.born_born, h.waits_born hV, nofun⟩
  | @giveUp w conts t c hc hclient =>
    have hsame := World.sameButRequests_request M w.next t w
    refine ⟨.giveUp hc hclient, fun _ => ?_, fun hk => ?_, fun hk hw => ?_, nofun⟩
    · exact hsame.state.symm ▸ h.resting rfl
    · exact hsame.next.symm ▸ h.born hk
    · exact h.waits_of_same hk ⟨hsame.stack _, hsame.waiting _⟩ hw
  | tick hs =>
    exact ⟨.tick hs, fun _ => htick hs (h.resting rfl), h.born, h.waits, nofun⟩
  | @resume w conts t k wt r hk hw hr =>
    refine ⟨.resume hk hw hr, nofun, fun {u k'} hk' => ?_,
      fun {u k' wt'} hk' hw' => ?_, fun {u p} hrun => ?_⟩
    · change Function.update conts t none u = some k' at hk'
      rcases eq_or_ne u t with rfl | hne
      · exact h.born hk
      · rw [Function.update_of_ne hne] at hk'
        exact h.born hk'
    · change Function.update conts t none u = some k' at hk'
      rcases eq_or_ne u t with rfl | hne
      · rw [Function.update_self] at hk'
        cases hk'
      · rw [Function.update_of_ne hne] at hk'
        have hsame := w.tasks_resumed_of_ne hne
        exact h.waits_of_same hk' ⟨congrArg Task.stack hsame, congrArg Task.waiting hsame⟩ hw'
    · cases hrun
      exact ⟨h.born hk, Function.update_self _ _ _,
        h.waits hk hw w r (h.resting rfl) (h.born hk) rfl hr⟩
  | read =>
    obtain ⟨ht, hnone, hwp⟩ := h.alone rfl
    refine ⟨.read, nofun, h.born, h.waits, fun {u p} hrun => ?_⟩
    cases hrun
    exact ⟨ht, hnone, hwp⟩
  | @stmt w conts t s p hs =>
    obtain ⟨ht, hnone, hguard, hwp⟩ := h.alone rfl
    refine ⟨.stmt ⟨hs, hguard⟩, ?_⟩
    obtain ⟨c, rfl⟩ | hadopt := s.spawn_or_adopt M w conts
    · refine ⟨nofun, h.born_born, h.waits_born hV, fun {u p'} hrun => ?_⟩
      cases hrun
      exact ⟨Nat.lt_succ_of_lt ht, (Function.update_of_ne (Nat.ne_of_lt ht) _ _).trans hnone, hwp⟩
    · rw [hadopt]
      refine ⟨nofun, fun {u k} hk => Nat.lt_of_lt_of_le (h.born hk) (w.next_exec M t s),
        fun {u k wt} hk hw => ?_, fun {u p'} hrun => ?_⟩
      · have hne := ne_of_conts hnone hk
        exact h.waits_of_same hk (w.others_exec M s hne (h.born hk)) hw
      · cases hrun
        exact ⟨Nat.lt_of_lt_of_le ht (w.next_exec M t s), hnone, hwp⟩
  | @await w conts t wt k =>
    obtain ⟨ht, hnone, hrest, hwp⟩ := h.alone rfl
    refine ⟨.await, fun _ => hrest, fun {u k'} hk' => ?_, fun {u k' wt'} hk' hw' => ?_,
      nofun⟩
    · change Function.update conts t (some k) u = some k' at hk'
      rcases eq_or_ne u t with rfl | hne
      · exact ht
      · rw [Function.update_of_ne hne] at hk'
        exact h.born hk'
    · change Function.update conts t (some k) u = some k' at hk'
      rcases eq_or_ne u t with rfl | hne
      · rw [Function.update_self, Option.some.injEq] at hk'
        subst hk'
        have hwait : ((w.suspended u wt).tasks u).waiting = some wt := by
          rw [World.suspended, World.tasks_setTask_self]
        obtain rfl := Option.some.inj (hwait.symm.trans hw')
        intro w' r hrest' ht' hstack hready
        exact hwp w' r hrest' ht' (by rw [hstack, World.stack_suspended]) hready
      · rw [Function.update_of_ne hne] at hk'
        have hsame := w.tasks_setTask_of_ne (fun k => { k with waiting := some wt }) hne
        exact h.waits_of_same hk' ⟨congrArg Task.stack hsame, congrArg Task.waiting hsame⟩ hw'
  | @jump w conts t c hc =>
    obtain ⟨ht, hnone, hguard, hrest⟩ := h.alone rfl
    refine ⟨.jump ⟨hc, hguard⟩, nofun, h.born, fun {u k wt} hk hw => ?_,
      fun {u p} hrun => ?_⟩
    · have hne := ne_of_conts hnone hk
      exact h.waits_of_same hk (w.others_exec M (.jump c) hne (h.born hk)) hw
    · cases hrun
      refine ⟨ht, hnone, hV c M.again t _ hrest ht ?_⟩
      rw [World.exec_jump, World.tasks_setTask_self]
  | @finish w conts t r =>
    obtain ⟨ht, hnone, hrest⟩ := h.alone rfl
    refine ⟨.finish, fun _ => hrest, h.born, fun {u k wt} hk hw => ?_, nofun⟩
    have hne := ne_of_conts hnone hk
    have hsame := w.tasks_setTask_of_ne (fun k => { k with stack := [], result := some r }) hne
    exact h.waits_of_same hk ⟨congrArg Task.stack hsame, congrArg Task.waiting hsame⟩ hw

theorem withinGuard_start {s : S.State} (hs : rest s) :
    WithinGuard M guard rest (Config.start s) where
  resting _ := hs
  born hk := by cases hk
  waits hk := by cases hk
  alone hrun := by cases hrun

/-- **A run of a verified system stays within the guard.** -/
theorem Verified.reach (hV : Verified M guard rest)
    (htick : ∀ {e s s'}, M.tick e s = some s' → rest s → rest s') {s : S.State} (hs : rest s)
    {C : World S → TaskId → Stmt S → Prop} {cf : Config S} (h : Reach M C s cf) :
    Reach M (fun w t s => C w t s ∧ guard w t s) s cf ∧ WithinGuard M guard rest cf := by
  induction h with
  | refl => exact ⟨.refl, withinGuard_start hs⟩
  | tail _ hstep ih =>
    obtain ⟨hreach, hwithin⟩ := ih
    obtain ⟨hstep', hwithin'⟩ := hwithin.step hV htick hstep
    exact ⟨hreach.tail hstep', hwithin'⟩

end Soundness

end SlmMcpHub
