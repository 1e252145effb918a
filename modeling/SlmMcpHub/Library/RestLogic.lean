import SlmMcpHub.Library.CoroutineRun
import SlmMcpHub.Library.Operation

/-!
# Reasoning from wait to wait

Between two waits a task is alone. An invariant need not hold there: it may speak of the state and
of all stacks as they are when no task runs, and a task may break it as long as it restores it
before it waits or is done. At a wait a program forgets everything but its own stack and the
invariant.

Runs are those whose statements meet a condition; a program may rely on it. What it owes in return,
beside the invariant, is a guard on its statements.

## Main definitions

* `Coro.settles` — what has to hold for a program to keep the invariant from wait to wait
* `Settled` — every procedure of a system does
* `Op.Settles` — the contract of an operation that can be started and left at rest
* `Config.Resting` — no task is in the middle of anything

## Main results

* `Settled.reach` — the invariant holds whenever no task runs, and every statement is within the
  guard
* `Settled.reach_jump` — and between the rounds of a loop
-/

namespace SlmMcpHub

variable {S : Signature} {ε α β : Type}

section Logic

variable (M : System S) (C guard : World S → TaskId → Stmt S → Prop)
  (J : S.State → (TaskId → List S.Call) → Prop)

/-- A program of the task `t`, in a world, keeps the invariant from wait to wait and ends in a
postcondition. -/
def Coro.settles (t : TaskId) : Coro S α → (α → World S → Prop) → World S → Prop
  | .ret a, Q, w => Q a w
  | .read k, Q, w => (k w t).settles t Q w
  | .stmt s k, Q, w => C w t s → guard w t s ∧ k.settles t Q (w.exec M t s)
  | .await wt k, Q, w => J w.state w.frames ∧ ∀ w' r, J w'.state w'.frames → t < w'.next →
      w'.frames t = w.frames t → M.ready w' t wt r = true → (k r).settles t Q (w'.resumed t)
  | .jump c, _, w => C w t (.jump c) → guard w t (.jump c) ∧
      J w.state (Function.update w.frames t [c])

/-- Every procedure of a system keeps the invariant from wait to wait, and what happens from outside
keeps it. -/
structure Settled : Prop where
  body : ∀ {c r t w}, J w.state w.frames → t < w.next → w.frames t = [c] →
    (M.body c r).settles M C guard J t (fun _ w' => J w'.state (Function.update w'.frames t [])) w
  call : ∀ {s f t c}, M.client c = true → f t = [] → J s f → J s (Function.update f t [c])
  tick : ∀ {e s s' f}, M.tick e s = some s' → J s f → J s' f

end Logic

section Rules

variable {M : System S} {C guard : World S → TaskId → Stmt S → Prop}
  {J : S.State → (TaskId → List S.Call) → Prop} {t : TaskId}

/-- **Consequence.** -/
theorem Coro.settles_mono {p : Coro S α} {Q Q' : α → World S → Prop}
    (hQ : ∀ a w, Q a w → Q' a w) :
    ∀ {w}, p.settles M C guard J t Q w → p.settles M C guard J t Q' w := by
  induction p with
  | ret a => exact fun h => hQ a _ h
  | read k ih => exact fun {w} h => ih w t h
  | stmt s k ih => exact fun h hC => ⟨(h hC).1, ih (h hC).2⟩
  | await wt k ih =>
    exact fun h => ⟨h.1, fun w' r hJ ht hframes hready => ih r (h.2 w' r hJ ht hframes hready)⟩
  | jump c => exact id

/-- **Sequencing.** -/
theorem Coro.settles_bind {p : Coro S α} {f : α → Coro S β} {Q : β → World S → Prop} :
    ∀ {w}, (p.bind f).settles M C guard J t Q w ↔
      p.settles M C guard J t (fun a w' => (f a).settles M C guard J t Q w') w := by
  induction p with
  | ret a => exact Iff.rfl
  | read k ih => exact fun {w} => ih w t
  | stmt s k ih => exact forall_congr' fun _ => and_congr_right fun _ => ih
  | await wt k ih =>
    exact and_congr_right fun _ => forall_congr' fun _ => forall_congr' fun r =>
      imp_congr_right fun _ => imp_congr_right fun _ => imp_congr_right fun _ =>
        imp_congr_right fun _ => ih r
  | jump c => exact Iff.rfl

end Rules

/-! ### Operations -/

namespace Op

section Settles

variable (M : System S) (C guard : World S → TaskId → Stmt S → Prop)
  (J : S.State → (TaskId → List S.Call) → Prop)

/-- The same for an operation. -/
def settles (t : TaskId) (p : Op S ε α) (Q : Except ε α → World S → Prop) (w : World S) : Prop :=
  Coro.settles M C guard J t p Q w

/-- A task is at rest with a stack. -/
structure Calm (st : List S.Call) (t : TaskId) (w : World S) : Prop where
  inv : J w.state w.frames
  born : t < w.next
  frames : w.frames t = st

/-- From rest with the stack `st`, an operation keeps the invariant from wait to wait and comes back
to rest with that stack, whether it returns or raises. -/
def Settles (st : List S.Call) (p : Op S ε α) : Prop :=
  ∀ t w, Calm J st t w → p.settles M C guard J t (fun _ => Calm J st t) w

end Settles

variable {M : System S} {C guard : World S → TaskId → Stmt S → Prop}
  {J : S.State → (TaskId → List S.Call) → Prop} {st : List S.Call} {t : TaskId} {w : World S}

theorem settles_mono {p : Op S ε α} {Q Q' : Except ε α → World S → Prop}
    (h : p.settles M C guard J t Q w) (hQ : ∀ r w, Q r w → Q' r w) :
    p.settles M C guard J t Q' w := Coro.settles_mono hQ h

/-- What an operation followed by another needs after the first. -/
def settlesThen (M : System S) (C guard : World S → TaskId → Stmt S → Prop)
    (J : S.State → (TaskId → List S.Call) → Prop) (t : TaskId) (f : α → Op S ε β)
    (Q : Except ε β → World S → Prop) : Except ε α → World S → Prop
  | .ok a, w => (f a).settles M C guard J t Q w
  | .error e, w => Q (.error e) w

theorem settles_bind {p : Op S ε α} {f : α → Op S ε β} {Q : Except ε β → World S → Prop} :
    (p >>= f).settles M C guard J t Q w ↔
      p.settles M C guard J t (settlesThen M C guard J t f Q) w := by
  refine (Coro.settles_bind (p := p)).trans ?_
  refine iff_of_eq (congrArg (fun Q => Coro.settles M C guard J t p Q w) ?_)
  funext r w'
  cases r <;> rfl

theorem settles_get_bind {f : S.State → Op S ε α} {Q : Except ε α → World S → Prop} :
    (get >>= f).settles M C guard J t Q w ↔ (f w.state).settles M C guard J t Q w := settles_bind

/-- What an operation with a handler needs after the operation. -/
def settlesElse (M : System S) (C guard : World S → TaskId → Stmt S → Prop)
    (J : S.State → (TaskId → List S.Call) → Prop) (t : TaskId) (h : ε → Op S ε α)
    (Q : Except ε α → World S → Prop) : Except ε α → World S → Prop
  | .ok a, w => Q (.ok a) w
  | .error e, w => (h e).settles M C guard J t Q w

theorem settles_tryCatch {p : Op S ε α} {h : ε → Op S ε α} {Q : Except ε α → World S → Prop} :
    (tryCatch p h).settles M C guard J t Q w ↔
      p.settles M C guard J t (settlesElse M C guard J t h Q) w := by
  refine (Coro.settles_bind (p := p)).trans ?_
  refine iff_of_eq (congrArg (fun Q => Coro.settles M C guard J t p Q w) ?_)
  funext r w'
  cases r <;> rfl

/-- A section: what has to hold when it is entered, and after it has been left. -/
theorem settles_within {enter leave : S.Act} {c : S.Call} {p : Op S ε α}
    {Q : Except ε α → World S → Prop}
    (h : C w t (.push enter c) → guard w t (.push enter c) ∧ p.settles M C guard J t
      (fun r w' => C w' t (.pop leave) → guard w' t (.pop leave) ∧
        Q r (w'.exec M t (.pop leave))) (w.exec M t (.push enter c))) :
    (within enter c leave p).settles M C guard J t Q w := by
  refine settles_bind.mpr fun hC => ⟨(h hC).1, ?_⟩
  refine (Coro.settles_bind (p := p)).mpr (Coro.settles_mono (fun r w' hw' => ?_) (h hC).2)
  exact fun hC' => hw' hC'

theorem Settles.pure (a : α) : Settles M C guard J st (Pure.pure a : Op S ε α) := fun _ _ h => h

theorem Settles.throw (e : ε) : Settles M C guard J st (MonadExcept.throw e : Op S ε α) :=
  fun _ _ h => h

theorem Settles.bind {p : Op S ε α} {f : α → Op S ε β} (hp : Settles M C guard J st p)
    (hf : ∀ a, Settles M C guard J st (f a)) : Settles M C guard J st (p >>= f) := by
  intro t w h
  refine settles_bind.mpr (settles_mono (hp t w h) fun r w' h' => ?_)
  cases r with
  | ok a => exact hf a t w' h'
  | error e => exact h'

theorem Settles.tryCatch {p : Op S ε α} {h : ε → Op S ε α} (hp : Settles M C guard J st p)
    (hh : ∀ e, Settles M C guard J st (h e)) :
    Settles M C guard J st (MonadExcept.tryCatch p h) := by
  intro t w hw
  refine settles_tryCatch.mpr (settles_mono (hp t w hw) fun r w' hw' => ?_)
  cases r with
  | ok a => exact hw'
  | error e => exact hh e t w' hw'

theorem Settles.ite {c : Prop} [Decidable c] {p q : Op S ε α} (hp : Settles M C guard J st p)
    (hq : Settles M C guard J st q) : Settles M C guard J st (if c then p else q) := by
  split
  · exact hp
  · exact hq

/-- To look at the state is to know what it was, as long as nothing else happens. -/
theorem Settles.get_bind {f : S.State → Op S ε α} (hf : ∀ t w, Calm J st t w →
    (f w.state).settles M C guard J t (fun _ => Calm J st t) w) :
    Settles M C guard J st (Op.get >>= f) := fun t w h => settles_get_bind.mpr (hf t w h)

theorem frames_resumed (w : World S) (t : TaskId) : (w.resumed t).frames = w.frames :=
  funext fun u => World.stack_resumed w t u

/-- After a wait the task is at rest with the stack it waited with. -/
theorem Calm.resumed (h : Calm J st t w) : Calm J st t (w.resumed t) :=
  ⟨by rw [frames_resumed]; exact h.inv, h.born, by rw [frames_resumed]; exact h.frames⟩

/-- An act that keeps the invariant leaves the task at rest. -/
theorem Calm.act (h : Calm J st t w) {a : S.Act} (hJ : J (M.eval t a w.state) w.frames) :
    Calm J st t (w.exec M t (.act a)) := ⟨hJ, h.born, h.frames⟩

/-- A section has been entered. -/
theorem Calm.push (h : Calm J st t w) {enter : S.Act} {c : S.Call}
    (hJ : J (M.eval t enter w.state) (Function.update w.frames t (c :: st))) :
    Calm J (c :: st) t (w.exec M t (.push enter c)) := by
  refine ⟨?_, h.born, ?_⟩
  · rw [World.state_exec, World.frames_push, h.frames]
    exact hJ
  · rw [World.frames_push, Function.update_self, h.frames]

/-- A section has been left. -/
theorem Calm.pop {c : S.Call} (h : Calm J (c :: st) t w) {leave : S.Act}
    (hJ : J (M.eval t leave w.state) (Function.update w.frames t st)) :
    Calm J st t (w.exec M t (.pop leave)) := by
  refine ⟨?_, h.born, ?_⟩
  · rw [World.state_exec, World.frames_pop, h.frames]
    exact hJ
  · rw [World.frames_pop, Function.update_self, h.frames, List.tail_cons]

/-- A wait, whatever comes back. -/
theorem Calm.await (h : Calm J st t w) {wt : S.Wait} {Q : Except ε α → World S → Prop}
    {k : S.Res → Op S ε α}
    (hk : ∀ r w', Calm J st t w' → M.ready w' t wt r = true →
      (k r).settles M C guard J t Q (w'.resumed t)) :
    Coro.settles M C guard J t (Coro.await wt k) Q w :=
  ⟨h.inv, fun w' r hJ ht hframes hready => hk r w' ⟨hJ, ht, hframes.trans h.frames⟩ hready⟩

theorem Settles.await {wt : S.Wait} {k : S.Res → Op S ε α}
    (hk : ∀ r, Settles M C guard J st (k r)) :
    Settles M C guard J st (Coro.await wt k : Op S ε α) :=
  fun _ _ h => h.await fun r _ h' _ => hk r _ _ h'.resumed

/-- A section is entered and left within the guard, whatever happens in between. -/
theorem Calm.within {enter leave : S.Act} {c : S.Call} {p : Op S ε α} (h : Calm J st t w)
    (hpush : guard w t (.push enter c)) (hpop : ∀ w', guard w' t (.pop leave))
    (henter : J (M.eval t enter w.state) (Function.update w.frames t (c :: st)))
    (hleave : ∀ s f, f t = c :: st → J s f → J (M.eval t leave s) (Function.update f t st))
    (hp : Settles M C guard J (c :: st) p) :
    (Op.within enter c leave p).settles M C guard J t (fun _ => Calm J st t) w := by
  refine settles_within fun _ => ⟨hpush, ?_⟩
  refine settles_mono (hp t _ (h.push henter)) fun r w' h' _ => ⟨hpop w', ?_⟩
  exact h'.pop (hleave _ _ h'.frames h'.inv)

end Op

/-! ### Soundness -/

section Soundness

variable {M : System S} {C guard : World S → TaskId → Stmt S → Prop}
  {J : S.State → (TaskId → List S.Call) → Prop} {cf cf' : Config S}

/-- The invariant holds when no task runs, and every task will keep it. -/
structure KeepsRest (M : System S) (C guard : World S → TaskId → Stmt S → Prop)
    (J : S.State → (TaskId → List S.Call) → Prop) (cf : Config S) : Prop where
  resting : cf.running = none → J cf.world.state cf.world.frames
  waits : ∀ {t k wt}, cf.conts t = some k → (cf.world.tasks t).waiting = some wt → ∀ w' r,
    J w'.state w'.frames → t < w'.next → w'.frames t = cf.world.frames t →
      M.ready w' t wt r = true →
        (k r).settles M C guard J t (fun _ w => J w.state (Function.update w.frames t []))
          (w'.resumed t)
  alone : ∀ {t p}, cf.running = some (t, p) → cf.conts t = none ∧
    p.settles M C guard J t (fun _ w => J w.state (Function.update w.frames t [])) cf.world

theorem KeepsRest.waits_of_same (h : KeepsRest M C guard J cf) {t : TaskId}
    {k : S.Res → Coro S S.Res} {w : World S} (hk : cf.conts t = some k)
    (hstack : (w.tasks t).stack = (cf.world.tasks t).stack)
    (hwaiting : (w.tasks t).waiting = (cf.world.tasks t).waiting) {wt}
    (hw : (w.tasks t).waiting = some wt) : ∀ w' r,
    J w'.state w'.frames → t < w'.next → w'.frames t = w.frames t → M.ready w' t wt r = true →
      (k r).settles M C guard J t (fun _ w => J w.state (Function.update w.frames t []))
        (w'.resumed t) :=
  fun w' r hJ ht hframes => h.waits hk (hwaiting ▸ hw) w' r hJ ht (hframes.trans hstack)

/-- With one more task to start. -/
theorem KeepsRest.waits_born (hM : Settled M C guard J) (h : KeepsRest M C guard J cf)
    {c : S.Call} {t : TaskId} {k : S.Res → Coro S S.Res} {wt}
    (hk : Function.update cf.conts cf.world.next (some (M.body c)) t = some k)
    (hw : ((cf.world.born M c).tasks t).waiting = some wt) : ∀ w' r,
    J w'.state w'.frames → t < w'.next → w'.frames t = (cf.world.born M c).frames t →
      M.ready w' t wt r = true →
        (k r).settles M C guard J t (fun _ w => J w.state (Function.update w.frames t []))
          (w'.resumed t) := by
  rcases eq_or_ne t cf.world.next with rfl | hne
  · rw [Function.update_self, Option.some.injEq] at hk
    subst hk
    intro w' r hJ ht hframes _
    refine hM.body ?_ ht ?_
    · rw [Op.frames_resumed]
      exact hJ
    · rw [Op.frames_resumed, hframes, World.frames_born, Function.update_self]
  · rw [Function.update_of_ne hne] at hk
    have hsame := World.tasks_born_of_ne cf.world M c hne
    exact h.waits_of_same hk (congrArg Task.stack hsame) (congrArg Task.waiting hsame) hw

/-- **Settled programs keep the invariant from wait to wait**, one step. -/
theorem KeepsRest.step (hM : Settled M C guard J) (hstarted : cf.Started)
    (h : KeepsRest M C guard J cf) (hstep : Step M C cf cf') :
    Step M (fun w t s => C w t s ∧ guard w t s) cf cf' ∧ KeepsRest M C guard J cf' := by
  cases hstep with
  | @call w conts c hc =>
    refine ⟨.call hc, fun _ => ?_, h.waits_born hM, fun hrun => by cases hrun⟩
    show J w.state (w.born M c).frames
    rw [World.frames_born]
    exact hM.call hc (hstarted.stack (Nat.le_refl _)) (h.resting rfl)
  | @giveUp w conts t c hc hclient =>
    have hsame := World.sameButRequests_request M w.next t w
    refine ⟨.giveUp hc hclient, fun _ => ?_, fun hk hw => ?_, fun hrun => by cases hrun⟩
    · show J (w.request M w.next t).state (w.request M w.next t).frames
      rw [hsame.state, show (w.request M w.next t).frames = w.frames from funext hsame.stack]
      exact h.resting rfl
    · exact h.waits_of_same hk (hsame.stack _) (hsame.waiting _) hw
  | tick hs => exact ⟨.tick hs, fun _ => hM.tick hs (h.resting rfl), h.waits,
      fun hrun => by cases hrun⟩
  | @resume w conts t k wt r hk hw hr =>
    refine ⟨.resume hk hw hr, (fun hrest => by cases hrest), fun {u k' wt'} hk' hw' => ?_,
      fun {u p} hrun => ?_⟩
    · change Function.update conts t none u = some k' at hk'
      rcases eq_or_ne u t with rfl | hne
      · rw [Function.update_self] at hk'
        cases hk'
      · rw [Function.update_of_ne hne] at hk'
        have hsame := w.tasks_resumed_of_ne hne
        exact h.waits_of_same hk' (congrArg Task.stack hsame) (congrArg Task.waiting hsame) hw'
    · cases hrun
      exact ⟨Function.update_self _ _ _,
        h.waits hk hw w r (h.resting rfl) (hstarted.conts hk) rfl hr⟩
  | read =>
    obtain ⟨hnone, hp⟩ := h.alone rfl
    refine ⟨.read, (fun hrest => by cases hrest), h.waits, fun {u p} hrun => ?_⟩
    cases hrun
    exact ⟨hnone, hp⟩
  | @stmt w conts t s p hs =>
    obtain ⟨hnone, hp⟩ := h.alone rfl
    obtain ⟨hguard, hp⟩ := hp hs
    have ht : t < w.next := hstarted.running rfl
    refine ⟨.stmt ⟨hs, hguard⟩, ?_⟩
    obtain ⟨c, rfl⟩ | hadopt := s.spawn_or_adopt M w conts
    · refine ⟨(fun hrest => by cases hrest), h.waits_born hM, fun {u p'} hrun => ?_⟩
      cases hrun
      exact ⟨(Function.update_of_ne (Nat.ne_of_lt ht) _ _).trans hnone, hp⟩
    · rw [hadopt]
      refine ⟨(fun hrest => by cases hrest), fun {u k wt} hk hw => ?_, fun {u p'} hrun => ?_⟩
      · have hne := ne_of_conts hnone hk
        obtain ⟨hstack, hwaiting⟩ := w.others_exec M s hne (hstarted.conts hk)
        exact h.waits_of_same hk hstack hwaiting hw
      · cases hrun
        exact ⟨hnone, hp⟩
  | @await w conts t wt k =>
    obtain ⟨hnone, hrest, hp⟩ := h.alone rfl
    have hframes : (w.suspended t wt).frames = w.frames :=
      funext fun u => World.stack_suspended w t u wt
    refine ⟨.await, fun _ => ?_, fun {u k' wt'} hk' hw' => ?_,
      fun hrun => by cases hrun⟩
    · show J w.state (w.suspended t wt).frames
      rw [hframes]
      exact hrest
    · change Function.update conts t (some k) u = some k' at hk'
      rcases eq_or_ne u t with rfl | hne
      · rw [Function.update_self, Option.some.injEq] at hk'
        subst hk'
        have hwait : ((w.suspended u wt).tasks u).waiting = some wt := by
          rw [World.suspended, World.tasks_setTask_self]
        obtain rfl := Option.some.inj (hwait.symm.trans hw')
        exact fun w' r hJ ht hstack => hp w' r hJ ht (hstack.trans (congrFun hframes u))
      · rw [Function.update_of_ne hne] at hk'
        have hsame := w.tasks_setTask_of_ne (fun k => { k with waiting := some wt }) hne
        exact h.waits_of_same hk' (congrArg Task.stack hsame) (congrArg Task.waiting hsame) hw'
  | @jump w conts t c hc =>
    obtain ⟨hnone, hp⟩ := h.alone rfl
    obtain ⟨hguard, hrest⟩ := hp hc
    have hframes : (w.exec M t (.jump c)).frames = Function.update w.frames t [c] := by
      rw [World.exec_jump, World.frames_setTask]
    refine ⟨.jump ⟨hc, hguard⟩, (fun hrest => by cases hrest), fun {u k wt} hk hw => ?_,
      fun {u p} hrun => ?_⟩
    · have hne := ne_of_conts hnone hk
      obtain ⟨hstack, hwaiting⟩ := w.others_exec M (.jump c) hne (hstarted.conts hk)
      exact h.waits_of_same hk hstack hwaiting hw
    · cases hrun
      refine ⟨hnone, hM.body ?_ (hstarted.running rfl) ?_⟩
      · rw [hframes]
        exact hrest
      · rw [hframes, Function.update_self]
  | @finish w conts t r =>
    obtain ⟨hnone, hrest⟩ := h.alone rfl
    refine ⟨.finish, fun _ => ?_, fun {u k wt} hk hw => ?_,
      fun hrun => by cases hrun⟩
    · show J w.state (w.finished t r).frames
      rw [World.finished, World.frames_setTask]
      exact hrest
    · have hne := ne_of_conts hnone hk
      have hsame := w.tasks_setTask_of_ne (fun k => { k with stack := [], result := some r }) hne
      exact h.waits_of_same hk (congrArg Task.stack hsame) (congrArg Task.waiting hsame) hw

theorem keepsRest_start {s : S.State} (hs : J s fun _ => []) :
    KeepsRest M C guard J (Config.start s) :=
  ⟨fun _ => hs, nofun, nofun⟩

theorem Settled.keepsRest (hM : Settled M C guard J) {s : S.State} (hs : J s fun _ => [])
    (h : Reach M C s cf) : Reach M (fun w t st => C w t st ∧ guard w t st) s cf ∧ cf.Started ∧
      KeepsRest M C guard J cf := by
  induction h with
  | refl => exact ⟨.refl, started_start s, keepsRest_start hs⟩
  | tail _ hstep ih =>
    obtain ⟨hreach, hstarted, hkeeps⟩ := ih
    obtain ⟨hstep', hkeeps'⟩ := hkeeps.step hM hstarted hstep
    exact ⟨hreach.tail hstep', hstarted.step hstep, hkeeps'⟩

/-- **The invariant holds whenever no task runs, and every statement is within the guard.** -/
theorem Settled.reach (hM : Settled M C guard J) {s : S.State} (hs : J s fun _ => [])
    (h : Reach M C s cf) : Reach M (fun w t st => C w t st ∧ guard w t st) s cf ∧
      (cf.running = none → J cf.world.state cf.world.frames) := by
  obtain ⟨hreach, -, hkeeps⟩ := hM.keepsRest hs h
  exact ⟨hreach, hkeeps.resting⟩

/-- No task runs, or the one that does is about to leave everything and go on with a procedure. -/
def Config.Resting (cf : Config S) : Prop :=
  cf.running = none ∨ ∃ t c, cf.running = some (t, .jump c)

/-- **The invariant holds when a task goes on with a procedure**, in which it is alone then. -/
theorem Settled.reach_jump (hM : Settled M C guard J) {s : S.State} (hs : J s fun _ => [])
    (h : Reach M C s cf) {t : TaskId} {c : S.Call} (hrun : cf.running = some (t, .jump c))
    (hC : C cf.world t (.jump c)) :
    J cf.world.state (Function.update cf.world.frames t [c]) := by
  obtain ⟨-, -, hkeeps⟩ := hM.keepsRest hs h
  exact ((hkeeps.alone hrun).2 hC).2

end Soundness

end SlmMcpHub
