import SlmMcpHub.Library.Operation

/-!
# Executions of one operation

What an operation does from its start to its end, when the tasks beside it are known only by a
relation `rely`: whenever the operation waits, the state may become any state that `rely` relates
to the one it was left in.

An execution of a sequence is one of each part, so that an operation can be taken apart where its
phases differ. Within a phase the weakest precondition says what every execution ends in, provided
that `rely` keeps what the phase has at rest.

## Main definitions

* `Coro.Exec` — the executions of a program
* `Op.Ends` — the contract of an operation by what it results in

## Main results

* `Coro.exec_bind` — sequencing
* `Coro.Exec.of_wp` — the weakest precondition is sound
-/

namespace SlmMcpHub

variable {S : Signature} {ε α β : Type}

section Exec

variable (M : System S) (rely : S.State → S.State → Prop) (t : TaskId)

/-- A program of the task `t` leads from a world to a result and a world. -/
def Coro.Exec : Coro S α → World S → α → World S → Prop
  | .ret a, w, b, w' => a = b ∧ w = w'
  | .read k, w, b, w' => (k w t).Exec w b w'
  | .stmt s k, w, b, w' => k.Exec (w.exec M t s) b w'
  | .await wt k, w, b, w' => ∃ v r, (rely w.state v.state ∧ t < v.next ∧
      (v.tasks t).stack = (w.tasks t).stack ∧ M.ready v t wt r = true) ∧
        (k r).Exec (v.resumed t) b w'
  | .jump _, _, _, _ => False

end Exec

variable {M : System S} {rely : S.State → S.State → Prop} {t : TaskId}

/-- **Sequencing.** -/
theorem Coro.exec_bind {p : Coro S α} {f : α → Coro S β} {b : β} {w' : World S} :
    ∀ {w}, (p.bind f).Exec M rely t w b w' ↔
      ∃ a v, p.Exec M rely t w a v ∧ (f a).Exec M rely t v b w' := by
  induction p with
  | ret a =>
    intro w
    constructor
    · exact fun h => ⟨a, w, ⟨rfl, rfl⟩, h⟩
    · rintro ⟨_, _, ⟨rfl, rfl⟩, h⟩
      exact h
  | read k ih => exact fun {w} => ih w t
  | stmt s k ih => exact ih
  | await wt k ih =>
    intro w
    constructor
    · rintro ⟨v, r, hwait, h⟩
      obtain ⟨a, u, hp, hf⟩ := (ih r).mp h
      exact ⟨a, u, ⟨v, r, hwait, hp⟩, hf⟩
    · rintro ⟨a, u, ⟨v, r, hwait, hp⟩, hf⟩
      exact ⟨v, r, hwait, (ih r).mpr ⟨a, u, hp, hf⟩⟩
  | jump c => exact fun {w} => ⟨False.elim, fun ⟨_, _, h, _⟩ => h⟩

/-- **The weakest precondition is sound** for executions beside tasks that keep what is at rest. -/
theorem Coro.Exec.of_wp {guard : World S → TaskId → Stmt S → Prop} {rest : S.State → Prop}
    (hrely : ∀ s s', rely s s' → rest s → rest s') {p : Coro S α} {Q : α → World S → Prop}
    {a : α} {w' : World S} : ∀ {w}, p.wp M guard rest t Q w → p.Exec M rely t w a w' → Q a w' := by
  induction p with
  | ret b =>
    rintro w hwp ⟨rfl, rfl⟩
    exact hwp
  | read k ih => exact fun {w} => ih w t
  | stmt s k ih => exact fun hwp => ih hwp.2
  | await wt k ih =>
    rintro w ⟨hrest, hwp⟩ ⟨v, r, ⟨hv, hborn, hstack, hready⟩, h⟩
    exact ih r (hwp v r (hrely _ _ hv hrest) hborn hstack hready) h
  | jump c => exact fun _ h => h.elim

/-- Run a program with given answers to its waits, and nothing beside it. -/
def Coro.play (M : System S) (t : TaskId) : Coro S α → List S.Res → World S → Option (α × World S)
  | .ret a, _, w => some (a, w)
  | .read k, rs, w => (k w t).play M t rs w
  | .stmt s k, rs, w => k.play M t rs (w.exec M t s)
  | .await wt k, r :: rs, w =>
    if M.ready w t wt r then (k r).play M t rs (w.resumed t) else none
  | .await _ _, [], _ => none
  | .jump _, _, _ => none

/-- What is played is an execution. -/
theorem Coro.exec_of_play (hrely : ∀ s, rely s s) {p : Coro S α} {a : α} {w' : World S} :
    ∀ {rs w}, t < w.next → p.play M t rs w = some (a, w') → p.Exec M rely t w a w' := by
  induction p with
  | ret b =>
    intro rs w _ h
    simpa [Coro.play, Coro.Exec] using h
  | read k ih => exact fun {_ w} hborn => ih w t hborn
  | stmt s k ih => exact fun {_ w} hborn => ih (Nat.lt_of_lt_of_le hborn (w.next_exec M t s))
  | await wt k ih =>
    intro rs w hborn h
    cases rs with
    | nil => cases h
    | cons r rs =>
      rw [Coro.play] at h
      split_ifs at h with hready
      exact ⟨w, r, ⟨hrely _, hborn, rfl, hready⟩, ih r hborn h⟩
  | jump c => exact fun _ h => by cases h

namespace Op

/-- An operation leads from a world to a result and a world. -/
def Exec (M : System S) (rely : S.State → S.State → Prop) (t : TaskId) (p : Op S ε α)
    (w : World S) (r : Except ε α) (w' : World S) : Prop :=
  Coro.Exec M rely t p w r w'

section Rules

variable {w w' : World S} {r : Except ε α}

variable (rely) in
/-- Playing an operation shows that it has an execution of some kind. -/
theorem exists_exec_of_play (hrely : ∀ s, rely s s) {p : Op S ε α} (hborn : t < w.next)
    (rs : List S.Res) (P : Except ε α → World S → Bool)
    (h : ((Coro.play M t p rs w).any fun a => P a.1 a.2) = true) :
    ∃ r w', p.Exec M rely t w r w' ∧ P r w' = true := by
  cases hplay : Coro.play M t p rs w with
  | none => simp [hplay] at h
  | some a =>
    rw [hplay] at h
    exact ⟨a.1, a.2, Coro.exec_of_play hrely hborn hplay, h⟩

theorem exec_pure {a : α} : (pure a : Op S ε α).Exec M rely t w r w' ↔ .ok a = r ∧ w = w' := Iff.rfl

theorem exec_get_bind {f : S.State → Op S ε α} :
    (get >>= f).Exec M rely t w r w' ↔ (f w.state).Exec M rely t w r w' := Iff.rfl

theorem exec_bind {p : Op S ε β} {f : β → Op S ε α} :
    (p >>= f).Exec M rely t w r w' ↔
      (∃ b v, p.Exec M rely t w (.ok b) v ∧ (f b).Exec M rely t v r w') ∨
        ∃ e, p.Exec M rely t w (.error e) w' ∧ r = .error e := by
  refine Coro.exec_bind.trans ⟨?_, ?_⟩
  · rintro ⟨a, v, hp, h⟩
    cases a with
    | ok b => exact Or.inl ⟨b, v, hp, h⟩
    | error e =>
      obtain ⟨rfl, rfl⟩ := h
      exact Or.inr ⟨e, hp, rfl⟩
  · rintro (⟨b, v, hp, h⟩ | ⟨e, hp, rfl⟩)
    · exact ⟨.ok b, v, hp, h⟩
    · exact ⟨.error e, w', hp, rfl, rfl⟩

/-- A sequence that returns, each part of which does. -/
theorem exec_bind_ok {p : Op S ε β} {f : β → Op S ε α} {a : α} :
    (p >>= f).Exec M rely t w (.ok a) w' ↔
      ∃ b v, p.Exec M rely t w (.ok b) v ∧ (f b).Exec M rely t v (.ok a) w' := by
  rw [exec_bind]
  refine or_iff_left ?_
  rintro ⟨_, -, h⟩
  cases h

theorem exec_tryCatch {p : Op S ε α} {h : ε → Op S ε α} :
    (tryCatch p h).Exec M rely t w r w' ↔
      (∃ a, p.Exec M rely t w (.ok a) w' ∧ r = .ok a) ∨
        ∃ e v, p.Exec M rely t w (.error e) v ∧ (h e).Exec M rely t v r w' := by
  refine Coro.exec_bind.trans ⟨?_, ?_⟩
  · rintro ⟨a, v, hp, h⟩
    cases a with
    | ok a =>
      obtain ⟨rfl, rfl⟩ := h
      exact Or.inl ⟨a, hp, rfl⟩
    | error e => exact Or.inr ⟨e, v, hp, h⟩
  · rintro (⟨a, hp, rfl⟩ | ⟨e, v, hp, h⟩)
    · exact ⟨.ok a, w', hp, rfl, rfl⟩
    · exact ⟨.error e, v, hp, h⟩

/-- A statement that follows an operation whatever it does. -/
theorem exec_ensure {p : Op S ε α} {s : Stmt S} :
    (p.ensure (exec s)).Exec M rely t w r w' ↔
      ∃ v, p.Exec M rely t w r v ∧ v.exec M t s = w' := by
  refine Coro.exec_bind.trans ⟨?_, ?_⟩
  · rintro ⟨b, v, hp, h⟩
    obtain ⟨rfl, rfl⟩ := h
    exact ⟨v, hp, rfl⟩
  · rintro ⟨v, hp, rfl⟩
    exact ⟨r, v, hp, rfl, rfl⟩

theorem exec_within {enter leave : S.Act} {c : S.Call} {p : Op S ε α} :
    (within enter c leave p).Exec M rely t w r w' ↔
      ∃ v, p.Exec M rely t (w.exec M t (.push enter c)) r v ∧ v.exec M t (.pop leave) = w' :=
  exec_ensure

end Rules

/-! ### Contracts by results -/

section Ends

variable (M) (rest : S.State → Prop)

/-- From a state at rest an operation comes back to rest with the stack it had, and its result is
one of those in `E`. -/
def Ends (E : Except ε α → Prop) (p : Op S ε α) : Prop :=
  ∀ st t w, AtRest rest st t w →
    p.wp M (fun _ _ _ => True) rest t (fun r w' => E r ∧ AtRest rest st t w') w

end Ends

variable {rest : S.State → Prop} {E : Except ε α → Prop} {F : Except ε β → Prop}

theorem Ends.exec (hrely : ∀ s s', rely s s' → rest s → rest s') {p : Op S ε α}
    (hp : Ends M rest E p) {st : List S.Call} {w w' : World S} {r : Except ε α}
    (hw : AtRest rest st t w) (h : p.Exec M rely t w r w') : E r ∧ AtRest rest st t w' :=
  Coro.Exec.of_wp hrely (hp st t w hw) h

theorem Ends.mono {E' : Except ε α → Prop} {p : Op S ε α} (hp : Ends M rest E p)
    (h : ∀ r, E r → E' r) : Ends M rest E' p :=
  fun st t w hw => wp_mono (hp st t w hw) fun r _ hr => ⟨h r hr.1, hr.2⟩

theorem Ends.pure {a : α} (h : E (.ok a)) : Ends M rest E (Pure.pure a : Op S ε α) :=
  fun _ _ _ hw => ⟨h, hw⟩

theorem Ends.throw {e : ε} (h : E (.error e)) : Ends M rest E (MonadExcept.throw e : Op S ε α) :=
  fun _ _ _ hw => ⟨h, hw⟩

theorem Ends.bind {p : Op S ε α} {f : α → Op S ε β} (hp : Ends M rest E p)
    (hf : ∀ a, E (.ok a) → Ends M rest F (f a)) (he : ∀ e, E (.error e) → F (.error e)) :
    Ends M rest F (p >>= f) := by
  intro st t w hw
  rw [wp_bind]
  refine wp_mono (hp st t w hw) fun r w' hr => ?_
  cases r with
  | ok a => exact hf a hr.1 st t w' hr.2
  | error e => exact ⟨he e hr.1, hr.2⟩

theorem Ends.tryCatch {E' : Except ε α → Prop} {p : Op S ε α} {h : ε → Op S ε α}
    (hp : Ends M rest E p) (hok : ∀ a, E (.ok a) → E' (.ok a))
    (hh : ∀ e, E (.error e) → Ends M rest E' (h e)) :
    Ends M rest E' (MonadExcept.tryCatch p h) := by
  intro st t w hw
  refine (wp_tryCatch p h _).mpr (wp_mono (hp st t w hw) fun r w' hr => ?_)
  cases r with
  | ok a => exact ⟨hok a hr.1, hr.2⟩
  | error e => exact hh e hr.1 st t w' hr.2

theorem Ends.ensure {p : Op S ε α} {after : Op S ε Unit} (hp : Ends M rest E p)
    (hafter : Ends M rest (fun r => r = .ok ()) after) : Ends M rest E (p.ensure after) := by
  intro st t w hw
  rw [wp_ensure]
  refine wp_mono (hp st t w hw) fun r w' hr => ?_
  refine wp_mono (hafter st t w' hr.2) ?_
  rintro r' w'' ⟨rfl, hw''⟩
  exact ⟨hr.1, hw''⟩

/-- To look at the state is to know that it is one at rest. -/
theorem Ends.get_bind {f : S.State → Op S ε α} (hf : ∀ s, rest s → Ends M rest E (f s)) :
    Ends M rest E (Op.get >>= f) := by
  intro st t w hw
  rw [wp_bind]
  exact hf w.state hw.state st t w hw

theorem Ends.act {a : S.Act} {E : Except ε Unit → Prop} (hE : E (.ok ()))
    (hrest : ∀ t s, rest s → rest (M.eval t a s)) : Ends M rest E (Op.act a : Op S ε Unit) :=
  fun _ t _ hw => ⟨trivial, hE, hw.exec (hrest t _ hw.state) rfl⟩

theorem Ends.await {wt : S.Wait} {E : Except ε S.Res → Prop}
    (h : ∀ w t r, M.ready w t wt r = true → E (.ok r)) :
    Ends M rest E (Op.await wt : Op S ε S.Res) :=
  fun _ _ _ hw => ⟨hw.state, fun _ _ hrest ht hstack hready =>
    ⟨h _ _ _ hready, hrest, ht, (World.stack_resumed _ _ _).trans (hstack.trans hw.stack)⟩⟩

/-- A procedure that is entered at a state at rest. -/
theorem AtRest.ends_within {enter leave : S.Act} {c : S.Call} {p : Op S ε α} {st : List S.Call}
    {w : World S} (hw : AtRest rest st t w) (henter : rest (M.eval t enter w.state))
    (hleave : ∀ s, rest s → rest (M.eval t leave s)) (hp : Ends M rest E p) :
    (Op.within enter c leave p).wp M (fun _ _ _ => True) rest t
      (fun r w' => E r ∧ AtRest rest st t w') w := by
  rw [Op.within, wp_bind, wp_exec]
  refine ⟨trivial, ?_⟩
  rw [andThen_ok, wp_ensure]
  have hentered : AtRest rest (c :: st) t (w.exec M t (.push enter c)) := by
    refine ⟨?_, Nat.lt_of_lt_of_le hw.born (w.next_exec M t _), ?_⟩
    · rw [World.state_exec]
      exact henter
    · rw [stack_push, hw.stack]
  refine wp_mono (hp (c :: st) t _ hentered) fun r w' hr => ?_
  refine ⟨trivial, hr.1, ?_, Nat.lt_of_lt_of_le hr.2.born (w'.next_exec M t _), ?_⟩
  · rw [World.state_exec]
    exact hleave _ hr.2.state
  · rw [stack_pop, hr.2.stack, List.tail_cons]

theorem Ends.within {enter leave : S.Act} {c : S.Call} {p : Op S ε α}
    (henter : ∀ t s, rest s → rest (M.eval t enter s))
    (hleave : ∀ t s, rest s → rest (M.eval t leave s)) (hp : Ends M rest E p) :
    Ends M rest E (Op.within enter c leave p) :=
  fun _ t _ hw => hw.ends_within (henter t _ hw.state) (hleave t) hp

end Op

end SlmMcpHub
