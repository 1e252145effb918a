import Mathlib.Data.Nat.Init
import Mathlib.Tactic.Common

/-!
# Loops without a bound

A `while` loop is a step on states that has no result where the loop is over, be it that its
condition fails there or that its body breaks off. A loop need not end; it is run for so many
rounds, and there is no result if these are used up.

## Main definitions

* `WhileLoop.run` — the loop, for so many rounds

## Main results

* `WhileLoop.exists_run` — a loop ends on a state that has its invariant, when a measure decreases
* `WhileLoop.run_eq_none` — a loop that can always go on never ends
-/

namespace SlmMcpHub

namespace WhileLoop

variable {S : Type} (step : S → Option S)

/-- The loop, for so many rounds. -/
def run : ℕ → S → Option S
  | 0, _ => none
  | rounds + 1, s =>
    match step s with
    | none => some s
    | some s' => run rounds s'

variable {step} {s s' t : S} {rounds rounds' : ℕ}

theorem run_succ_of_none (h : step s = none) (rounds : ℕ) :
    run step (rounds + 1) s = some s := by
  rw [run, h]

theorem run_succ_of_some (h : step s = some s') (rounds : ℕ) :
    run step (rounds + 1) s = run step rounds s' := by
  rw [run, h]

/-- More rounds change nothing. -/
theorem run_of_le (h : run step rounds s = some t) (hle : rounds ≤ rounds') :
    run step rounds' s = some t := by
  induction rounds generalizing s rounds' with
  | zero => cases h
  | succ rounds ih =>
    cases rounds' with
    | zero => cases hle
    | succ rounds' =>
      cases hstep : step s with
      | none =>
        rw [run_succ_of_none hstep] at h ⊢
        exact h
      | some s' =>
        rw [run_succ_of_some hstep] at h ⊢
        exact ih h (Nat.le_of_succ_le_succ hle)

/-- **The rule for loops that end**: what holds at first, and is kept by a step that decreases the
measure, holds where the loop ends. -/
theorem exists_run (I : S → Prop) (measure : S → ℕ)
    (hstep : ∀ s s', I s → step s = some s' → I s' ∧ measure s' < measure s) (hs : I s) :
    ∃ t, I t ∧ step t = none ∧ ∀ rounds, measure s < rounds → run step rounds s = some t := by
  induction hmeasure : measure s using Nat.strong_induction_on generalizing s with
  | _ n ih =>
    cases hnext : step s with
    | none =>
      refine ⟨s, hs, hnext, fun rounds hrounds => ?_⟩
      obtain ⟨rounds, rfl⟩ := Nat.exists_eq_add_of_lt (Nat.zero_lt_of_lt hrounds)
      exact run_succ_of_none hnext _
    | some s' =>
      obtain ⟨hs', hless⟩ := hstep s s' hs hnext
      obtain ⟨t, ht, hend, hrun⟩ := ih _ (hmeasure ▸ hless) hs' rfl
      refine ⟨t, ht, hend, fun rounds hrounds => ?_⟩
      cases rounds with
      | zero => cases hrounds
      | succ rounds =>
        rw [run_succ_of_some hnext]
        exact hrun rounds (by omega)

/-- **The rule for loops that do not**: a step can always be made. -/
theorem run_eq_none (I : S → Prop) (hstep : ∀ s, I s → ∃ s', step s = some s' ∧ I s') (hs : I s)
    (rounds : ℕ) : run step rounds s = none := by
  induction rounds generalizing s with
  | zero => rfl
  | succ rounds ih =>
    obtain ⟨s', hnext, hs'⟩ := hstep s hs
    rw [run_succ_of_some hnext]
    exact ih hs'

end WhileLoop

end SlmMcpHub
