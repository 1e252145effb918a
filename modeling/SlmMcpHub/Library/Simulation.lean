import SlmMcpHub.Library.Operation

/-!
# A program in place of another

Two programs over two signatures, the fine and the coarse one, side by side. Between two waits
nothing but the program itself changes the state, so they are compared where they wait: in states
that belong together they come to waits that belong together, and whatever the fine one is given
then, in whatever states the other tasks have left, the coarse one can be given something that lets
it go on in step. The coarse one may also be left waiting while the fine one goes on to another
wait.

## Main definitions

* `Coro.turn`, `Coro.Comes` — what a program does before it waits
* `Comparison`, `Coro.Sim` — what belongs together, and a program in step with another
* `Coro.SimFor` — the same for some rounds, with the procedures the two jump to

## Main results

* `Coro.Sim.bind` — sequencing
* `Coro.sim_congr_right` — the coarse program may be replaced by what it comes to
* `Coro.Sim.rounds` — loops
-/

namespace SlmMcpHub

variable {S S' : Signature} {α α' β β' : Type}

/-- Where a program comes to by itself. -/
inductive Halt (S : Signature) (α : Type) where
  | ended (a : α)
  | waits (w : S.Wait) (k : S.Res → Coro S α)
  | jumps (c : S.Call)

namespace Coro

section Turn

variable (M : System S) (t : TaskId)

/-- One turn of the event loop. -/
def turn : Coro S α → World S → Halt S α × World S
  | ret a, w => (.ended a, w)
  | read k, w => (k w t).turn w
  | stmt s k, w => k.turn (w.exec M t s)
  | await wt k, w => (.waits wt k, w)
  | jump c, w => (.jumps c, w)

/-- Where a program comes to in one turn, when it may go on with some of the procedures it jumps
to. -/
inductive Comes (body : S.Call → Option (Coro S α)) :
    Coro S α → World S → Halt S α → World S → Prop
  | halt {p w h v} (hp : p.turn M t w = (h, v)) : Comes body p w h v
  | through {p q w v c h u} (hp : p.turn M t w = (.jumps c, v)) (hc : body c = some q)
      (hq : Comes body q (v.exec M t (.jump c)) h u) : Comes body p w h u

end Turn

variable {M : System S} {t : TaskId}

/-- What comes after a halt. -/
def andThen (f : α → Coro S β) : Halt S α × World S → Coro S β × World S
  | (.ended a, w) => (f a, w)
  | (.waits wt k, w) => (await wt fun r => (k r).bind f, w)
  | (.jumps c, w) => (jump c, w)

/-- A turn of a sequence is a turn of its first part, and of what comes after it. -/
theorem turn_bind (p : Coro S α) (f : α → Coro S β) (w : World S) :
    (p.bind f).turn M t w =
      (andThen f (p.turn M t w)).1.turn M t (andThen f (p.turn M t w)).2 := by
  induction p generalizing w with
  | ret a => rfl
  | read k ih => exact ih w t w
  | stmt s k ih => exact ih (w.exec M t s)
  | await wt k => rfl
  | jump c => rfl

theorem bind_assoc {γ : Type} (p : Coro S α) (f : α → Coro S β) (g : β → Coro S γ) :
    (p.bind f).bind g = p.bind fun a => (f a).bind g := by
  induction p with
  | ret a => rfl
  | read k ih => exact congrArg read (funext fun w => funext fun t => ih w t)
  | stmt s k ih => exact congrArg (stmt s) ih
  | await wt k ih => exact congrArg (await wt) (funext ih)
  | jump c => rfl

theorem bind_ret (p : Coro S α) : p.bind ret = p := by
  induction p with
  | ret a => rfl
  | read k ih => exact congrArg read (funext fun w => funext fun t => ih w t)
  | stmt s k ih => exact congrArg (stmt s) ih
  | await wt k ih => exact congrArg (await wt) (funext ih)
  | jump c => rfl

theorem comes_congr {body : S.Call → Option (Coro S α)} {p q : Coro S α} {w v : World S}
    (h : p.turn M t w = q.turn M t v) {e : Halt S α} {u : World S} :
    Comes M t body p w e u ↔ Comes M t body q v e u := by
  constructor
  · intro hp
    cases hp with
    | halt hp => exact .halt (h ▸ hp)
    | through hp hc hq => exact .through (h ▸ hp) hc hq
  · intro hq
    cases hq with
    | halt hq => exact .halt (h ▸ hq)
    | through hq hc hp => exact .through (h ▸ hq) hc hp

end Coro

/-- What belongs together in two systems, one task of each. -/
structure Comparison (S S' : Signature) where
  fine : System S
  coarse : System S'
  fineTask : TaskId
  coarseTask : TaskId
  /-- The states where the tasks wait. -/
  state : S.State → S'.State → Prop
  /-- What the other tasks keep, of the two states where the tasks wait. -/
  keeps : S.State → S'.State → S.State → S'.State → Prop
  wait : S.State → S'.State → S.Wait → S'.Wait → Prop
  /-- What the fine task may be given for a wait. -/
  possible : S'.State → S.Wait → S.Res → Prop
  /-- What a wait of the fine task is given, and what the coarse one is given in its place. -/
  answer : S.Wait → S.Res → S'.Res → Prop
  call : S.State → S'.State → S.Call → S'.Call → Prop

/-- The procedures two programs may go through: the fine one when they are over at once. -/
structure Bodies (S S' : Signature) (α β : Type) where
  fine : S.Call → Option (Coro S α)
  coarse : S'.Call → Option (Coro S' β)

/-- The programs go through no procedure. -/
def Bodies.none : Bodies S S' α β := ⟨fun _ => .none, fun _ => .none⟩

namespace Coro

section Sim

variable (C : Comparison S S') (B : Bodies S S' α β) (Q : α → World S → β → World S' → Prop)

/-- **One program is in step with another.** -/
def Sim : Coro S α → World S → Coro S' β → World S' → Prop
  | ret a, w, q, w' =>
    ∃ b v', Comes C.coarse C.coarseTask B.coarse q w' (.ended b) v' ∧ Q a w b v'
  | read k, w, q, w' => (k w C.fineTask).Sim w q w'
  | stmt s k, w, q, w' => k.Sim (w.exec C.fine C.fineTask s) q w'
  | await wt k, w, q, w' =>
    ∃ wt' k' v', Comes C.coarse C.coarseTask B.coarse q w' (.waits wt' k') v' ∧
      C.state w.state v'.state ∧ C.wait w.state v'.state wt wt' ∧
        ∀ r (u : World S) (u' : World S'), C.fine.ready u C.fineTask wt r = true →
          C.possible u'.state wt r → C.state u.state u'.state →
          C.keeps w.state v'.state u.state u'.state →
            (k r).Sim (u.resumed C.fineTask) (await wt' k') u' ∨
              ∃ r', C.answer wt r r' ∧
                (k r).Sim (u.resumed C.fineTask) (k' r') (u'.resumed C.coarseTask)
  | jump c, w, q, w' =>
    (∃ c' v', Comes C.coarse C.coarseTask B.coarse q w' (.jumps c') v' ∧
      C.state w.state v'.state ∧ C.call w.state v'.state c c') ∨
    ∃ p a v b v', B.fine c = some p ∧
      p.turn C.fine C.fineTask (w.exec C.fine C.fineTask (.jump c)) = (.ended a, v) ∧
        Comes C.coarse C.coarseTask B.coarse q w' (.ended b) v' ∧ Q a v b v'

end Sim

variable {C : Comparison S S'}

/-- The coarse program may be replaced by what it comes to. -/
theorem sim_congr_right {B : Bodies S S' α β} {Q : α → World S → β → World S' → Prop}
    {p : Coro S α} {q q' : Coro S' β} {w : World S} {w' v' : World S'}
    (h : q.turn C.coarse C.coarseTask w' = q'.turn C.coarse C.coarseTask v') :
    p.Sim C B Q w q w' ↔ p.Sim C B Q w q' v' := by
  induction p generalizing w with
  | ret a => simp only [Sim, comes_congr h]
  | read k ih => exact ih w C.fineTask
  | stmt s k ih => exact ih
  | await wt k => simp only [Sim, comes_congr h]
  | jump c => simp only [Sim, comes_congr h]

/-- **Sequencing**: the first part goes through no procedure. -/
theorem Sim.bind {B : Bodies S S' α' β'} {P : α → World S → β → World S' → Prop}
    {Q : α' → World S → β' → World S' → Prop} {p : Coro S α} {q : Coro S' β}
    {f : α → Coro S α'} {g : β → Coro S' β'} {w : World S} {w' : World S'}
    (hp : p.Sim C .none P w q w')
    (hf : ∀ a v b v', P a v b v' → (f a).Sim C B Q v (g b) v') :
    (p.bind f).Sim C B Q w (q.bind g) w' := by
  have hcomes : ∀ {q : Coro S' β} {w' h v'},
      Comes C.coarse C.coarseTask (fun _ => none) q w' h v' →
        q.turn C.coarse C.coarseTask w' = (h, v') := by
    intro q w' h v' hq
    cases hq with
    | halt hq => exact hq
    | through _ hc => cases hc
  induction p generalizing w q w' with
  | ret a =>
    obtain ⟨b, v', hq, hab⟩ := hp
    have hturn := turn_bind (M := C.coarse) (t := C.coarseTask) q g w'
    rw [hcomes hq] at hturn
    exact (sim_congr_right hturn).mpr (hf a w b v' hab)
  | read k ih => exact ih w C.fineTask hp
  | stmt s k ih => exact ih hp
  | await wt k ih =>
    obtain ⟨wt', k', v', hq, hstate, hwait, hnext⟩ := hp
    have hturn := turn_bind (M := C.coarse) (t := C.coarseTask) q g w'
    rw [hcomes hq] at hturn
    refine ⟨wt', fun r => (k' r).bind g, v', .halt hturn, hstate, hwait, ?_⟩
    intro r u u' hready hr hu hkeeps
    rcases hnext r u u' hready hr hu hkeeps with hstays | ⟨r', hanswer, hgoes⟩
    · exact .inl (ih r hstays)
    · exact .inr ⟨r', hanswer, ih r hgoes⟩
  | jump c =>
    rcases hp with ⟨c', v', hq, hstate, hcall⟩ | ⟨_, _, _, _, _, hc, _⟩
    · have hturn := turn_bind (M := C.coarse) (t := C.coarseTask) q g w'
      rw [hcomes hq] at hturn
      exact .inl ⟨c', v', .halt hturn, hstate, hcall⟩
    · cases hc

/-! ### Rounds -/

section Rounds

variable {B : Bodies S S' α β} {Q : α → World S → β → World S' → Prop} {p : Coro S α}
  {q : Coro S' β} {w : World S} {w' : World S'}

/-- Less need belong together where two programs jump. -/
theorem Sim.imp_call {call : S.State → S'.State → S.Call → S'.Call → Prop}
    (hcall : ∀ s s' c c', C.state s s' → C.call s s' c c' → call s s' c c')
    (h : p.Sim C B Q w q w') : p.Sim { C with call := call } B Q w q w' := by
  induction p generalizing w q w' with
  | ret a => exact h
  | read k ih => exact ih w C.fineTask h
  | stmt s k ih => exact ih h
  | await wt k ih =>
    obtain ⟨wt', k', v', hq, hstate, hwait, hnext⟩ := h
    refine ⟨wt', k', v', hq, hstate, hwait, fun r u u' hready hr hu hkeeps => ?_⟩
    rcases hnext r u u' hready hr hu hkeeps with hstays | ⟨r', hanswer, hgoes⟩
    · exact .inl (ih r hstays)
    · exact .inr ⟨r', hanswer, ih r hgoes⟩
  | jump c =>
    refine h.imp_left ?_
    rintro ⟨c', v', hq, hstate, hc⟩
    exact ⟨c', v', hq, hstate, hcall _ _ _ _ hstate hc⟩

/-- **In step for some more rounds**: where the two jump, they go on with two procedures. -/
def SimFor (C : Comparison S S') (B N : Bodies S S' α β)
    (Q : α → World S → β → World S' → Prop) :
    ℕ → Coro S α → World S → Coro S' β → World S' → Prop
  | 0 => Sim C B Q
  | n + 1 => Sim { C with
      call := fun s s' c c' => ∃ p q, N.fine c = some p ∧ N.coarse c' = some q ∧
        ∀ w w', w.state = s → w'.state = s' → SimFor C B N Q n p w q w' } B Q

/-- When every round is in step, so is a loop, **for any number of rounds**. -/
theorem Sim.rounds {N : Bodies S S' α β}
    (hround : ∀ s s' c c', C.state s s' → C.call s s' c c' →
      ∃ p q, N.fine c = some p ∧ N.coarse c' = some q ∧
        ∀ w w', w.state = s → w'.state = s' → p.Sim C B Q w q w')
    (n : ℕ) (h : p.Sim C B Q w q w') : SimFor C B N Q n p w q w' := by
  induction n generalizing p q w w' with
  | zero => exact h
  | succ n ih =>
    refine h.imp_call fun s s' c c' hstate hcall => ?_
    obtain ⟨p, q, hp, hq, hsim⟩ := hround s s' c c' hstate hcall
    exact ⟨p, q, hp, hq, fun w w' hw hw' => ih (hsim w w' hw hw')⟩

end Rounds

end Coro

/-! ### Operations -/

namespace Op

variable {ε ε' : Type} {C : Comparison S S'} {w : World S} {w' : World S'}

theorem bind_pure (p : Op S ε α) : (p >>= pure : Op S ε α) = p := by
  refine Eq.trans (congrArg (Coro.bind (p : Coro S (Except ε α))) (funext fun r => ?_))
    (Coro.bind_ret (p : Coro S (Except ε α)))
  cases r <;> rfl

theorem bind_assoc {γ : Type} (p : Op S ε α) (f : α → Op S ε β) (g : β → Op S ε γ) :
    (p >>= f >>= g : Op S ε γ) = p >>= fun a => f a >>= g := by
  refine (Coro.bind_assoc (p : Coro S (Except ε α)) _ _).trans ?_
  refine congrArg (Coro.bind (p : Coro S (Except ε α))) (funext fun r => ?_)
  cases r <;> rfl

section Rules

variable {B : Bodies S S' (Except ε α) (Except ε' β)}
  {Q : Except ε α → World S → Except ε' β → World S' → Prop} {p : Op S ε α}

/-- The coarse operation looks at the state. -/
theorem sim_get_right {g : S'.State → Op S' ε' β} :
    Coro.Sim C B Q p w (get >>= g : Op S' ε' β) w' ↔ Coro.Sim C B Q p w (g w'.state) w' :=
  Coro.sim_congr_right rfl

/-- The coarse operation changes the state. -/
theorem sim_act_right {a : S'.Act} {g : Unit → Op S' ε' β} :
    Coro.Sim C B Q p w (act a >>= g : Op S' ε' β) w' ↔
      Coro.Sim C B Q p w (g ()) (w'.exec C.coarse C.coarseTask (.act a)) :=
  Coro.sim_congr_right rfl

end Rules

/-- The last statement of a procedure, and how the procedure has ended. -/
theorem sim_pop {B : Bodies S S' (Except ε α) (Except ε' β)}
    {Q : Except ε α → World S → Except ε' β → World S' → Prop} {leave : S.Act} {leave' : S'.Act}
    {r : Except ε α} {r' : Except ε' β}
    (hQ : Q r (w.exec C.fine C.fineTask (.pop leave)) r'
      (w'.exec C.coarse C.coarseTask (.pop leave'))) :
    Coro.Sim C B Q (Coro.stmt (.pop leave) (.ret r)) w (Coro.stmt (.pop leave') (.ret r')) w' :=
  ⟨r', _, .halt rfl, hQ⟩

/-- **Procedures**: both are entered, and left when what runs in them is over. -/
theorem sim_within {P Q : Except ε α → World S → Except ε' β → World S' → Prop}
    {B : Bodies S S' (Except ε α) (Except ε' β)} {enter leave : S.Act} {enter' leave' : S'.Act}
    {c : S.Call} {c' : S'.Call} {p : Op S ε α} {q : Op S' ε' β}
    (hp : Coro.Sim C .none P p (w.exec C.fine C.fineTask (.push enter c)) q
      (w'.exec C.coarse C.coarseTask (.push enter' c')))
    (hQ : ∀ r v r' v', P r v r' v' → Q r (v.exec C.fine C.fineTask (.pop leave)) r'
      (v'.exec C.coarse C.coarseTask (.pop leave'))) :
    Coro.Sim C B Q (within enter c leave p) w (within enter' c' leave' q) w' := by
  have hturn : Coro.turn C.coarse C.coarseTask (within enter' c' leave' q) w' =
      Coro.turn C.coarse C.coarseTask (ensure q (exec (.pop leave')))
        (w'.exec C.coarse C.coarseTask (.push enter' c')) := rfl
  have hensure : Coro.Sim C B Q (ensure p (exec (.pop leave)))
      (w.exec C.fine C.fineTask (.push enter c)) (ensure q (exec (.pop leave')))
        (w'.exec C.coarse C.coarseTask (.push enter' c')) :=
    Coro.Sim.bind hp fun r v r' v' h => sim_pop (hQ r v r' v' h)
  exact (Coro.sim_congr_right hturn).mpr hensure

/-- How an operation has ended, as a value. -/
def caught (p : Op S ε α) : Op S ε (Except ε α) := Coro.bind p fun r => .ret (.ok r)

theorem caught_bind (p : Op S ε α) (f : Except ε α → Op S ε β) :
    (caught p >>= f : Op S ε β) = Coro.bind p f := by
  exact Coro.bind_assoc (p : Coro S (Except ε α))
    (fun r => (.ret (.ok r) : Coro S (Except ε (Except ε α)))) _

/-- Two operations, and what is made of how they have ended. -/
theorem sim_caught_bind {P : Except ε α → World S → Except ε' β → World S' → Prop}
    {Q : Except ε α' → World S → Except ε' β' → World S' → Prop}
    {B : Bodies S S' (Except ε α') (Except ε' β')} {p : Op S ε α} {q : Op S' ε' β}
    {f : Except ε α → Op S ε α'} {g : Except ε' β → Op S' ε' β'}
    (hp : Coro.Sim C .none P p w q w')
    (hf : ∀ r v r' v', P r v r' v' → Coro.Sim C B Q (f r) v (g r') v') :
    Coro.Sim C B Q (caught p >>= f : Op S ε α') w (caught q >>= g : Op S' ε' β') w' := by
  rw [caught_bind, caught_bind]
  exact Coro.Sim.bind hp hf

end Op

end SlmMcpHub
