import Mathlib.Tactic.Common

/-!
# Code that may raise

Sequential code with a state: it returns or raises, and the state has changed either way. What it
does on every path, `finally` included, is read off by its weakest precondition.

## Main definitions

* `Fallible` — the monad, with `Fallible.ensure` for `try … finally`
* `Fallible.sat` — a postcondition of the outcome and of the state it is left in

## Main results

* `Fallible.sat_bind`, `Fallible.sat_tryCatch`, `Fallible.sat_ensure` — the rules of composition
-/

namespace SlmMcpHub

/-- Code that may raise and changes a state either way. -/
def Fallible (σ ε α : Type) : Type := σ → Except ε α × σ

namespace Fallible

variable {σ ε α β : Type}

instance : Monad (Fallible σ ε) where
  pure a := fun s => (.ok a, s)
  bind p f := fun s =>
    match p s with
    | (.ok a, s') => f a s'
    | (.error e, s') => (.error e, s')

instance : MonadExceptOf ε (Fallible σ ε) where
  throw e := fun s => (.error e, s)
  tryCatch p h := fun s =>
    match p s with
    | (.ok a, s') => (.ok a, s')
    | (.error e, s') => h e s'

/-- The state. -/
def get : Fallible σ ε σ := fun s => (.ok s, s)

/-- Change the state. -/
def modify (f : σ → σ) : Fallible σ ε Unit := fun s => (.ok (), f s)

/-- What comes from outside: a result or an exception. -/
def ofExcept (r : Except ε α) : Fallible σ ε α := fun s => (r, s)

/-- `try … finally`: whatever the first part does, the second follows it and knows of it, and what
the second raises takes precedence. -/
def ensure (p : Fallible σ ε α) (after : Except ε α → Fallible σ ε Unit) :
    Fallible σ ε α := fun s =>
  match p s with
  | (r, s') =>
    match after r s' with
    | (.ok (), s'') => (r, s'')
    | (.error e, s'') => (.error e, s'')

/-- The same code, what it raises said in other words. -/
def mapError {ε' : Type} (f : ε → ε') (p : Fallible σ ε α) : Fallible σ ε' α := fun s =>
  ((p s).1.mapError f, (p s).2)

@[simp] theorem ofExcept_ok_bind (a : α) (f : α → Fallible σ ε β) :
    (ofExcept (.ok a) >>= f) = f a := rfl

@[simp] theorem ofExcept_error_bind (e : ε) (f : α → Fallible σ ε β) :
    (ofExcept (.error e) >>= f) = throw e := rfl

@[simp] theorem get_bind_apply (f : σ → Fallible σ ε β) (s : σ) : (get >>= f) s = f s s := rfl

@[simp] theorem modify_bind_apply (g : σ → σ) (f : Unit → Fallible σ ε β) (s : σ) :
    (modify g >>= f) s = f () (g s) := rfl

theorem bind_apply_of_ok {p : Fallible σ ε α} {s s' : σ} {a : α} (h : p s = (.ok a, s'))
    (f : α → Fallible σ ε β) : (p >>= f) s = f a s' := by
  show (match p s with
    | (.ok a, s') => f a s'
    | (.error e, s') => (.error e, s')) = f a s'
  rw [h]

theorem bind_apply_of_error {p : Fallible σ ε α} {s s' : σ} {e : ε} (h : p s = (.error e, s'))
    (f : α → Fallible σ ε β) : (p >>= f) s = (.error e, s') := by
  show (match p s with
    | (.ok a, s') => f a s'
    | (.error e, s') => (.error e, s')) = (.error e, s')
  rw [h]

@[simp] theorem ensure_pure (p : Fallible σ ε α) : (p.ensure fun _ => pure ()) = p := rfl

/-- The outcome, and the state it is left in, meet a postcondition. -/
def sat (p : Fallible σ ε α) (Q : Except ε α → σ → Prop) (s : σ) : Prop := Q (p s).1 (p s).2

variable {Q : Except ε α → σ → Prop} {s : σ}

theorem sat_mono {p : Fallible σ ε α} {Q' : Except ε α → σ → Prop} (h : p.sat Q s)
    (hQ : ∀ r s', Q r s' → Q' r s') : p.sat Q' s := hQ _ _ h

@[simp] theorem sat_pure (a : α) : (pure a : Fallible σ ε α).sat Q s ↔ Q (.ok a) s := Iff.rfl

@[simp] theorem sat_throw (e : ε) : (throw e : Fallible σ ε α).sat Q s ↔ Q (.error e) s := Iff.rfl

@[simp] theorem sat_get {Q : Except ε σ → σ → Prop} :
    (get : Fallible σ ε σ).sat Q s ↔ Q (.ok s) s := Iff.rfl

@[simp] theorem sat_modify (f : σ → σ) {Q : Except ε Unit → σ → Prop} :
    (modify f : Fallible σ ε Unit).sat Q s ↔ Q (.ok ()) (f s) := Iff.rfl

@[simp] theorem sat_ofExcept (r : Except ε α) :
    (ofExcept r : Fallible σ ε α).sat Q s ↔ Q r s := Iff.rfl

@[simp] theorem sat_mapError {ε' : Type} (f : ε → ε') (p : Fallible σ ε α)
    {Q : Except ε' α → σ → Prop} :
    (p.mapError f).sat Q s ↔ p.sat (fun r s' => Q (r.mapError f) s') s := Iff.rfl

/-- What code followed by more needs after the first part. -/
def andThen (f : α → Fallible σ ε β) (Q : Except ε β → σ → Prop) : Except ε α → σ → Prop
  | .ok a, s => (f a).sat Q s
  | .error e, s => Q (.error e) s

@[simp] theorem andThen_ok (f : α → Fallible σ ε β) (Q : Except ε β → σ → Prop) (a : α) :
    andThen f Q (.ok a) s ↔ (f a).sat Q s := Iff.rfl

@[simp] theorem andThen_error (f : α → Fallible σ ε β) (Q : Except ε β → σ → Prop) (e : ε) :
    andThen f Q (.error e) s ↔ Q (.error e) s := Iff.rfl

/-- **Sequencing.** -/
@[simp] theorem sat_bind {p : Fallible σ ε α} {f : α → Fallible σ ε β} {Q : Except ε β → σ → Prop} :
    (p >>= f).sat Q s ↔ p.sat (andThen f Q) s := by
  show Q _ _ ↔ andThen f Q (p s).1 (p s).2
  simp only [bind]
  rcases p s with ⟨_ | a, s'⟩ <;> rfl

/-- What code with a handler needs after it. -/
def orElse (h : ε → Fallible σ ε α) (Q : Except ε α → σ → Prop) : Except ε α → σ → Prop
  | .ok a, s => Q (.ok a) s
  | .error e, s => (h e).sat Q s

@[simp] theorem orElse_ok (h : ε → Fallible σ ε α) (Q : Except ε α → σ → Prop) (a : α) :
    orElse h Q (.ok a) s ↔ Q (.ok a) s := Iff.rfl

@[simp] theorem orElse_error (h : ε → Fallible σ ε α) (Q : Except ε α → σ → Prop) (e : ε) :
    orElse h Q (.error e) s ↔ (h e).sat Q s := Iff.rfl

/-- **Handlers.** -/
@[simp] theorem sat_tryCatch {p : Fallible σ ε α} {h : ε → Fallible σ ε α} :
    (tryCatch p h).sat Q s ↔ p.sat (orElse h Q) s := by
  show Q _ _ ↔ orElse h Q (p s).1 (p s).2
  simp only [tryCatch, tryCatchThe, MonadExceptOf.tryCatch]
  rcases p s with ⟨_ | a, s'⟩ <;> rfl

/-- What has to hold after a final part for what came before it. -/
def restoring (Q : Except ε α → σ → Prop) (r : Except ε α) : Except ε Unit → σ → Prop
  | .ok (), s => Q r s
  | .error e, s => Q (.error e) s

@[simp] theorem restoring_ok (r : Except ε α) (u : Unit) :
    restoring Q r (.ok u) s ↔ Q r s := Iff.rfl

@[simp] theorem restoring_error (r : Except ε α) (e : ε) :
    restoring Q r (.error e) s ↔ Q (.error e) s := Iff.rfl

/-- **Final parts.** -/
@[simp] theorem sat_ensure {p : Fallible σ ε α} {after : Except ε α → Fallible σ ε Unit} :
    (p.ensure after).sat Q s ↔ p.sat (fun r s' => (after r).sat (restoring Q r) s') s := by
  show Q _ _ ↔ restoring Q (p s).1 (after (p s).1 (p s).2).1 (after (p s).1 (p s).2).2
  simp only [ensure]
  rcases p s with ⟨r, s'⟩
  rcases after r s' with ⟨_ | u, s''⟩ <;> rfl

/-- The outcome of code with a final part. -/
theorem fst_ensure (p : Fallible σ ε α) (after : Except ε α → Fallible σ ε Unit) (s : σ) :
    (p.ensure after s).1 =
      match (after (p s).1 (p s).2).1 with
      | .ok _ => (p s).1
      | .error e => .error e := by
  rw [ensure]
  rcases p s with ⟨r, s'⟩
  show (match after r s' with
    | (.ok (), s'') => (r, s'')
    | (.error e, s'') => (.error e, s'')).1 = _
  rcases after r s' with ⟨_ | u, s''⟩ <;> rfl

/-- Code that stays within a relation: wherever it starts, it ends in a related state. -/
def Within (R : σ → σ → Prop) (p : Fallible σ ε α) : Prop := ∀ s, R s (p s).2

section Within

variable {R : σ → σ → Prop}

theorem within_modify {f : σ → σ} (h : ∀ s, R s (f s)) :
    Within R (modify f : Fallible σ ε Unit) := h

section Refl

variable [Std.Refl R]

theorem within_pure (a : α) : Within R (pure a : Fallible σ ε α) := fun s => refl_of R s

theorem within_throw (e : ε) : Within R (throw e : Fallible σ ε α) := fun s => refl_of R s

theorem within_get : Within R (get : Fallible σ ε σ) := fun s => refl_of R s

theorem within_ofExcept (r : Except ε α) : Within R (ofExcept r : Fallible σ ε α) :=
  fun s => refl_of R s

end Refl

variable [IsTrans σ R]

theorem within_bind {p : Fallible σ ε α} {f : α → Fallible σ ε β} (hp : Within R p)
    (hf : ∀ a, Within R (f a)) : Within R (p >>= f) := by
  intro s
  show (p >>= f).sat (fun _ s' => R s s') s
  rw [sat_bind]
  refine sat_mono (show p.sat (fun _ s' => R s s') s from hp s) fun r s' h => ?_
  cases r with
  | error e => exact h
  | ok a => exact trans_of R h (hf a s')

theorem within_tryCatch {p : Fallible σ ε α} {h : ε → Fallible σ ε α} (hp : Within R p)
    (hh : ∀ e, Within R (h e)) : Within R (tryCatch p h) := by
  intro s
  show (tryCatch p h).sat (fun _ s' => R s s') s
  rw [sat_tryCatch]
  refine sat_mono (show p.sat (fun _ s' => R s s') s from hp s) fun r s' hr => ?_
  cases r with
  | error e => exact trans_of R hr (hh e s')
  | ok a => exact hr

theorem within_ensure {p : Fallible σ ε α} {after : Except ε α → Fallible σ ε Unit}
    (hp : Within R p) (hafter : ∀ r, Within R (after r)) : Within R (p.ensure after) := by
  intro s
  show (p.ensure after).sat (fun _ s' => R s s') s
  rw [sat_ensure]
  refine sat_mono (show p.sat (fun _ s' => R s s') s from hp s) fun r s' hr => ?_
  have h : R s (after r s').2 := trans_of R hr (hafter r s')
  rw [sat]
  cases (after r s').1 with
  | error e => exact h
  | ok u => exact h

end Within

end Fallible

end SlmMcpHub
