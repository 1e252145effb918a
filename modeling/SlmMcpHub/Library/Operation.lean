import SlmMcpHub.Library.CoroutineLogic

/-!
# Operations that can raise

Programs of tasks with exceptions: `Op S ε α` returns a value or raises an `ε`. `throw` and
`try … catch` are those of the language; `Op.ensure` is `try … finally`.

`Op.Keeps st p` is the contract most operations have: run with the stack `st` from a state at rest,
`p` stays within the guard, comes back to rest whether it returns or raises, and leaves the stack
as it was. Contracts of this form compose without a word about states.

## Main definitions

* `Op`, `Op.ensure`, `Op.forEach` — the monad and its control structures
* `Op.wp`, `Op.Keeps` — the weakest precondition of an operation, and its contract

## Main results

* `Op.Keeps.bind`, `Op.Keeps.tryCatch`, `Op.Keeps.ensure`, `Op.Keeps.forEach`, `Op.Keeps.within` —
  the rules of composition
-/

namespace SlmMcpHub

variable {S : Signature} {ε α β : Type}

/-- A program that returns or raises. -/
def Op (S : Signature) (ε α : Type) : Type := Coro S (Except ε α)

namespace Op

instance : Monad (Op S ε) where
  pure a := Coro.ret (.ok a)
  bind p f := Coro.bind p fun
    | .ok a => f a
    | .error e => Coro.ret (.error e)

instance : MonadExceptOf ε (Op S ε) where
  throw e := Coro.ret (.error e)
  tryCatch p h := Coro.bind p fun
    | .ok a => Coro.ret (.ok a)
    | .error e => h e

/-- `try … finally`: whatever the first operation does, the second follows it, and what it raises
takes precedence. -/
def ensure (p : Op S ε α) (after : Op S ε Unit) : Op S ε α :=
  Coro.bind p fun r => Coro.bind after fun
    | .ok () => Coro.ret r
    | .error e => Coro.ret (.error e)

/-- The shared state. -/
def get : Op S ε S.State := Coro.read fun w _ => Coro.ret (.ok w.state)

/-- One's own number. -/
def self : Op S ε TaskId := Coro.read fun _ t => Coro.ret (.ok t)

/-- Whether a task is done. -/
def isDone (u : TaskId) : Op S ε Bool := Coro.read fun w _ => Coro.ret (.ok (w.done u))

/-- Execute a statement. -/
def exec (s : Stmt S) : Op S ε Unit := Coro.stmt s (Coro.ret (.ok ()))

/-- Change the shared state. -/
def act (a : S.Act) : Op S ε Unit := exec (.act a)

/-- Start a task, and learn its number. -/
def spawn (c : S.Call) : Op S ε TaskId :=
  Coro.read fun w _ => Coro.stmt (.spawn c) (Coro.ret (.ok w.next))

/-- Wait. -/
def await (wt : S.Wait) : Op S ε S.Res := Coro.await wt fun r => Coro.ret (.ok r)

/-- Leave everything and go on with a procedure. -/
def jump (c : S.Call) : Op S ε α := Coro.jump c

/-- Run an operation inside a procedure. -/
def within (enter : S.Act) (c : S.Call) (leave : S.Act) (p : Op S ε α) : Op S ε α := do
  exec (.push enter c)
  ensure p (exec (.pop leave))

/-- A `for` loop. -/
def forEach : List β → (β → Op S ε Unit) → Op S ε Unit
  | [], _ => pure ()
  | b :: bs, f => do
    f b
    forEach bs f

/-! ### Weakest preconditions -/

section Wp

variable (M : System S) (guard : World S → TaskId → Stmt S → Prop) (rest : S.State → Prop)

/-- The weakest precondition of an operation run by the task `t`. -/
def wp (t : TaskId) (p : Op S ε α) (Q : Except ε α → World S → Prop) (w : World S) : Prop :=
  Coro.wp M guard rest t p Q w

end Wp

variable {M : System S} {guard : World S → TaskId → Stmt S → Prop} {rest : S.State → Prop}
  {t : TaskId} {w : World S}

theorem wp_mono {p : Op S ε α} {Q Q' : Except ε α → World S → Prop}
    (h : p.wp M guard rest t Q w) (hQ : ∀ r w, Q r w → Q' r w) : p.wp M guard rest t Q' w :=
  Coro.wp_mono hQ h

@[simp] theorem wp_pure (a : α) (Q : Except ε α → World S → Prop) :
    (pure a : Op S ε α).wp M guard rest t Q w ↔ Q (.ok a) w := Iff.rfl

@[simp] theorem wp_throw (e : ε) (Q : Except ε α → World S → Prop) :
    (throw e : Op S ε α).wp M guard rest t Q w ↔ Q (.error e) w := Iff.rfl

/-- What an operation followed by another needs after the first. -/
def andThen (M : System S) (guard : World S → TaskId → Stmt S → Prop) (rest : S.State → Prop)
    (t : TaskId) (f : α → Op S ε β) (Q : Except ε β → World S → Prop) :
    Except ε α → World S → Prop
  | .ok a, w => (f a).wp M guard rest t Q w
  | .error e, w => Q (.error e) w

@[simp] theorem andThen_ok (f : α → Op S ε β) (Q : Except ε β → World S → Prop) (a : α) :
    andThen M guard rest t f Q (.ok a) w ↔ (f a).wp M guard rest t Q w := Iff.rfl

@[simp] theorem andThen_error (f : α → Op S ε β) (Q : Except ε β → World S → Prop) (e : ε) :
    andThen M guard rest t f Q (.error e) w ↔ Q (.error e) w := Iff.rfl

@[simp] theorem wp_bind (p : Op S ε α) (f : α → Op S ε β) (Q : Except ε β → World S → Prop) :
    (p >>= f).wp M guard rest t Q w ↔ p.wp M guard rest t (andThen M guard rest t f Q) w := by
  refine (Coro.wp_bind (p := p)).trans ?_
  refine iff_of_eq (congrArg (fun Q => Coro.wp M guard rest t p Q w) ?_)
  funext r w'
  cases r <;> rfl

/-- What an operation with a handler needs after the operation. -/
def orElse (M : System S) (guard : World S → TaskId → Stmt S → Prop) (rest : S.State → Prop)
    (t : TaskId) (h : ε → Op S ε α) (Q : Except ε α → World S → Prop) :
    Except ε α → World S → Prop
  | .ok a, w => Q (.ok a) w
  | .error e, w => (h e).wp M guard rest t Q w

@[simp] theorem orElse_ok (h : ε → Op S ε α) (Q : Except ε α → World S → Prop) (a : α) :
    orElse M guard rest t h Q (.ok a) w ↔ Q (.ok a) w := Iff.rfl

@[simp] theorem orElse_error (h : ε → Op S ε α) (Q : Except ε α → World S → Prop) (e : ε) :
    orElse M guard rest t h Q (.error e) w ↔ (h e).wp M guard rest t Q w := Iff.rfl

@[simp] theorem wp_tryCatch (p : Op S ε α) (h : ε → Op S ε α)
    (Q : Except ε α → World S → Prop) :
    (tryCatch p h).wp M guard rest t Q w ↔
      p.wp M guard rest t (orElse M guard rest t h Q) w := by
  refine (Coro.wp_bind (p := p)).trans ?_
  refine iff_of_eq (congrArg (fun Q => Coro.wp M guard rest t p Q w) ?_)
  funext r w'
  cases r <;> rfl

/-- What has to hold after a final operation for what came before it. -/
def restoring (Q : Except ε α → World S → Prop) (r : Except ε α) :
    Except ε Unit → World S → Prop
  | .ok (), w => Q r w
  | .error e, w => Q (.error e) w

@[simp] theorem restoring_ok (Q : Except ε α → World S → Prop) (r : Except ε α) (u : Unit) :
    restoring Q r (.ok u) w ↔ Q r w := Iff.rfl

@[simp] theorem restoring_error (Q : Except ε α → World S → Prop) (r : Except ε α) (e : ε) :
    restoring Q r (.error e) w ↔ Q (.error e) w := Iff.rfl

@[simp] theorem wp_ensure (p : Op S ε α) (after : Op S ε Unit)
    (Q : Except ε α → World S → Prop) :
    (ensure p after).wp M guard rest t Q w ↔
      p.wp M guard rest t (fun r w' => after.wp M guard rest t (restoring Q r) w') w := by
  refine (Coro.wp_bind (p := p)).trans ?_
  refine iff_of_eq (congrArg (fun Q => Coro.wp M guard rest t p Q w) ?_)
  funext r w'
  refine propext ((Coro.wp_bind (p := after)).trans (iff_of_eq ?_))
  refine congrArg (fun Q => Coro.wp M guard rest t after Q w') ?_
  funext r' w''
  cases r' <;> rfl

@[simp] theorem wp_get (Q : Except ε S.State → World S → Prop) :
    (get : Op S ε S.State).wp M guard rest t Q w ↔ Q (.ok w.state) w := Iff.rfl

@[simp] theorem wp_self (Q : Except ε TaskId → World S → Prop) :
    (self : Op S ε TaskId).wp M guard rest t Q w ↔ Q (.ok t) w := Iff.rfl

@[simp] theorem wp_isDone (u : TaskId) (Q : Except ε Bool → World S → Prop) :
    (isDone u : Op S ε Bool).wp M guard rest t Q w ↔ Q (.ok (w.done u)) w := Iff.rfl

@[simp] theorem wp_exec (s : Stmt S) (Q : Except ε Unit → World S → Prop) :
    (exec s : Op S ε Unit).wp M guard rest t Q w ↔
      guard w t s ∧ Q (.ok ()) (w.exec M t s) := Iff.rfl

@[simp] theorem wp_act (a : S.Act) (Q : Except ε Unit → World S → Prop) :
    (act a : Op S ε Unit).wp M guard rest t Q w ↔
      guard w t (.act a) ∧ Q (.ok ()) (w.exec M t (.act a)) := Iff.rfl

@[simp] theorem wp_spawn (c : S.Call) (Q : Except ε TaskId → World S → Prop) :
    (spawn c : Op S ε TaskId).wp M guard rest t Q w ↔
      guard w t (.spawn c) ∧ Q (.ok w.next) (w.exec M t (.spawn c)) := Iff.rfl

/-! ### Contracts -/

/-- A task is at rest with a stack. -/
structure AtRest (rest : S.State → Prop) (st : List S.Call) (t : TaskId) (w : World S) : Prop where
  state : rest w.state
  born : t < w.next
  stack : (w.tasks t).stack = st

section Keeps

variable (M guard rest)

/-- From a state at rest, with the stack `st`, an operation stays within the guard, comes back to
rest and leaves the stack as it was. -/
def Keeps (st : List S.Call) (p : Op S ε α) : Prop :=
  ∀ t w, AtRest rest st t w → p.wp M guard rest t (fun _ => AtRest rest st t) w

end Keeps

variable {st : List S.Call}

/-- A statement that neither enters nor leaves a procedure, from a state at rest to one. -/
theorem AtRest.exec {s : Stmt S} (h : AtRest rest st t w) (hstate : rest (w.effect M t s))
    (hstack : ((w.exec M t s).tasks t).stack = (w.tasks t).stack) :
    AtRest rest st t (w.exec M t s) where
  state := by rw [World.state_exec]; exact hstate
  born := Nat.lt_of_lt_of_le h.born (w.next_exec M t s)
  stack := hstack.trans h.stack

theorem Keeps.pure (a : α) : Keeps M guard rest st (Pure.pure a : Op S ε α) := fun _ _ h => h

theorem Keeps.throw (e : ε) : Keeps M guard rest st (MonadExcept.throw e : Op S ε α) :=
  fun _ _ h => h

/-- An operation whose first part relies on the state it starts in. -/
theorem Keeps.bind_of_wp {p : Op S ε α} {f : α → Op S ε β}
    (hp : p.wp M guard rest t (fun _ => AtRest rest st t) w)
    (hf : ∀ a, Keeps M guard rest st (f a)) :
    (p >>= f).wp M guard rest t (fun _ => AtRest rest st t) w := by
  rw [wp_bind]
  refine wp_mono hp fun r w' h' => ?_
  cases r with
  | ok a => exact hf a t w' h'
  | error e => exact h'

theorem Keeps.bind {p : Op S ε α} {f : α → Op S ε β} (hp : Keeps M guard rest st p)
    (hf : ∀ a, Keeps M guard rest st (f a)) : Keeps M guard rest st (p >>= f) :=
  fun t w h => Keeps.bind_of_wp (hp t w h) hf

theorem Keeps.tryCatch {p : Op S ε α} {h : ε → Op S ε α} (hp : Keeps M guard rest st p)
    (hh : ∀ e, Keeps M guard rest st (h e)) :
    Keeps M guard rest st (MonadExcept.tryCatch p h) := by
  intro t w hw
  refine (wp_tryCatch p h _).mpr (wp_mono (hp t w hw) fun r w' hw' => ?_)
  cases r with
  | ok a => exact hw'
  | error e => exact hh e t w' hw'

theorem Keeps.ensure {p : Op S ε α} {after : Op S ε Unit} (hp : Keeps M guard rest st p)
    (hafter : Keeps M guard rest st after) : Keeps M guard rest st (p.ensure after) := by
  intro t w h
  rw [wp_ensure]
  refine wp_mono (hp t w h) fun r w' h' => ?_
  refine wp_mono (hafter t w' h') fun r' w'' h'' => ?_
  cases r' <;> exact h''

/-- To look at the state is to know what it was, as long as nothing else happens. -/
theorem Keeps.get_bind {f : S.State → Op S ε α}
    (hf : ∀ t w, AtRest rest st t w →
      (f w.state).wp M guard rest t (fun _ => AtRest rest st t) w) :
    Keeps M guard rest st (Op.get >>= f) := by
  intro t w h
  rw [wp_bind]
  exact hf t w h

/-- To look at the state is to know nothing of it afterwards. -/
theorem Keeps.get : Keeps M guard rest st (Op.get : Op S ε S.State) := fun _ _ h => h

theorem Keeps.isDone (u : TaskId) : Keeps M guard rest st (Op.isDone u : Op S ε Bool) :=
  fun _ _ h => h

theorem Keeps.act {a : S.Act} (hguard : ∀ t w, AtRest rest st t w → guard w t (.act a))
    (hrest : ∀ t s, rest s → rest (M.eval t a s)) :
    Keeps M guard rest st (Op.act a : Op S ε Unit) :=
  fun t w h => ⟨hguard t w h, h.exec (hrest t _ h.state) rfl⟩

theorem Keeps.cancel {u : TaskId} (hguard : ∀ t w, AtRest rest st t w → guard w t (.cancel u)) :
    Keeps M guard rest st (Op.exec (.cancel u) : Op S ε Unit) :=
  fun t w h => ⟨hguard t w h,
    h.exec h.state ((World.sameButRequests_request M w.next u w).stack t)⟩

theorem stack_spawn (w : World S) {t : TaskId} (c : S.Call) (ht : t < w.next) :
    ((w.exec M t (.spawn c)).tasks t).stack = (w.tasks t).stack :=
  congrArg Task.stack (World.tasks_born_of_ne w M c (Nat.ne_of_lt ht))

theorem Keeps.spawn {c : S.Call} (hguard : ∀ t w, AtRest rest st t w → guard w t (.spawn c)) :
    Keeps M guard rest st (Op.spawn c : Op S ε TaskId) :=
  fun t w h => ⟨hguard t w h, h.exec h.state (stack_spawn w c h.born)⟩

theorem Keeps.jump {c : S.Call} (hguard : ∀ t w, AtRest rest st t w → guard w t (.jump c)) :
    Keeps M guard rest st (Op.jump c : Op S ε α) :=
  fun t w h => ⟨hguard t w h, h.state⟩

theorem Keeps.await {wt : S.Wait} : Keeps M guard rest st (Op.await wt : Op S ε S.Res) :=
  fun _ _ h => ⟨h.state, fun _ _ hrest ht hstack _ =>
    ⟨hrest, ht, (World.stack_resumed _ _ _).trans (hstack.trans h.stack)⟩⟩

theorem Keeps.forEach {f : β → Op S ε Unit} : ∀ {bs : List β},
    (∀ b ∈ bs, Keeps M guard rest st (f b)) → Keeps M guard rest st (Op.forEach bs f)
  | [], _ => Keeps.pure ()
  | b :: _, h => Keeps.bind (h b List.mem_cons_self) fun _ =>
      Keeps.forEach fun b' hb' => h b' (List.mem_cons_of_mem b hb')

theorem stack_push (w : World S) (t : TaskId) (a : S.Act) (c : S.Call) :
    ((w.exec M t (.push a c)).tasks t).stack = c :: (w.tasks t).stack := by
  rw [World.exec_push, World.tasks_setTask_self]

theorem stack_pop (w : World S) (t : TaskId) (a : S.Act) :
    ((w.exec M t (.pop a)).tasks t).stack = (w.tasks t).stack.tail := by
  rw [World.exec_pop, World.tasks_setTask_self]

/-- A procedure is entered, and left when what runs in it is over. -/
theorem wp_within {enter leave : S.Act} {c : S.Call} {p : Op S ε α}
    {Q : Except ε α → World S → Prop} :
    (within enter c leave p).wp M guard rest t Q w ↔ guard w t (.push enter c) ∧
      p.wp M guard rest t (fun r w' => guard w' t (.pop leave) ∧ Q r (w'.exec M t (.pop leave)))
        (w.exec M t (.push enter c)) := by
  rw [within, wp_bind, wp_exec, andThen_ok, wp_ensure]
  exact Iff.rfl

/-- A procedure is entered and left within the guard; what happens in between may rely on the state
it was entered in. -/
theorem AtRest.within_of_wp {enter leave : S.Act} {c : S.Call} {p : Op S ε α}
    (h : AtRest rest st t w) (hpush : guard w t (.push enter c))
    (hpop : ∀ w', AtRest rest (c :: st) t w' → guard w' t (.pop leave))
    (henter : ∀ s, rest s → rest (M.eval t enter s))
    (hleave : ∀ s, rest s → rest (M.eval t leave s))
    (hp : AtRest rest (c :: st) t (w.exec M t (.push enter c)) →
      p.wp M guard rest t (fun _ => AtRest rest (c :: st) t) (w.exec M t (.push enter c))) :
    (Op.within enter c leave p).wp M guard rest t (fun _ => AtRest rest st t) w := by
  refine wp_within.mpr ⟨hpush, ?_⟩
  have hentered : AtRest rest (c :: st) t (w.exec M t (.push enter c)) := by
    refine ⟨?_, Nat.lt_of_lt_of_le h.born (w.next_exec M t _), ?_⟩
    · rw [World.state_exec]
      exact henter _ h.state
    · rw [stack_push, h.stack]
  refine wp_mono (hp hentered) fun r w' h' => ?_
  refine ⟨hpop w' h', ?_, Nat.lt_of_lt_of_le h'.born (w'.next_exec M t _), ?_⟩
  · rw [World.state_exec]
    exact hleave _ h'.state
  · rw [stack_pop, h'.stack, List.tail_cons]

/-- A procedure is entered and left within the guard, whatever happens in between. -/
theorem AtRest.within {enter leave : S.Act} {c : S.Call} {p : Op S ε α} (h : AtRest rest st t w)
    (hpush : guard w t (.push enter c))
    (hpop : ∀ w', AtRest rest (c :: st) t w' → guard w' t (.pop leave))
    (henter : ∀ s, rest s → rest (M.eval t enter s))
    (hleave : ∀ s, rest s → rest (M.eval t leave s))
    (hp : Keeps M guard rest (c :: st) p) :
    (Op.within enter c leave p).wp M guard rest t (fun _ => AtRest rest st t) w :=
  h.within_of_wp hpush hpop henter hleave fun hentered => hp t _ hentered

theorem Keeps.within {enter leave : S.Act} {c : S.Call} {p : Op S ε α}
    (hpush : ∀ t w, AtRest rest st t w → guard w t (.push enter c))
    (hpop : ∀ t w, AtRest rest (c :: st) t w → guard w t (.pop leave))
    (henter : ∀ t s, rest s → rest (M.eval t enter s))
    (hleave : ∀ t s, rest s → rest (M.eval t leave s))
    (hp : Keeps M guard rest (c :: st) p) :
    Keeps M guard rest st (Op.within enter c leave p) :=
  fun t w h => h.within (hpush t w h) (hpop t) (henter t) (hleave t) hp

end Op

end SlmMcpHub
