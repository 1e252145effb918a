import Mathlib.Logic.Basic

/-!
# Transition systems

A system is a partial function from a state and an action to the next state. Which actions are
considered in which states is a separate condition, so that one system has its runs under any
number of them.

## Main definitions

* `Reaches` — the states runs lead to
* `playFrom` — a run of given actions

## Main results

* `Reaches.invariant` — what every step keeps holds of every state
* `reaches_of_playFrom` — a run that has been played leads to a state
-/

namespace SlmMcpHub

variable {σ α : Type} (step : σ → α → Option σ)

/-- A state is reached from another by actions that meet a condition. -/
inductive Reaches (C : σ → α → Prop) (s₀ : σ) : σ → Prop
  | start : Reaches C s₀ s₀
  | step {s s' : σ} {a : α} (h : Reaches C s₀ s) (hC : C s a) (hstep : step s a = some s') :
      Reaches C s₀ s'

variable {step} {C : σ → α → Prop} {s₀ s : σ}

/-- **Invariants.** What holds at the start and is kept by every step holds of every state. -/
theorem Reaches.invariant {I : σ → Prop} (hstart : I s₀)
    (hkeep : ∀ {s a s'}, I s → C s a → step s a = some s' → I s') (h : Reaches step C s₀ s) :
    I s := by
  induction h with
  | start => exact hstart
  | step _ hC hstep ih => exact hkeep ih hC hstep

/-- A run after a run is a run. -/
theorem Reaches.trans {s' : σ} (h : Reaches step C s₀ s) (h' : Reaches step C s s') :
    Reaches step C s₀ s' := by
  induction h' with
  | start => exact h
  | step _ hC hstep ih => exact ih.step hC hstep

variable (step)

/-- Play some actions, each of which is checked. -/
def playFrom (check : σ → α → Bool) (s : σ) : List α → Option σ
  | [] => some s
  | a :: as =>
    if check s a then
      match step s a with
      | some s' => playFrom check s' as
      | none => none
    else none

variable {step}

theorem reaches_of_playFrom {check : σ → α → Bool} (hcheck : ∀ s a, check s a = true → C s a) :
    ∀ {as : List α} {s' : σ}, Reaches step C s₀ s → playFrom step check s as = some s' →
      Reaches step C s₀ s' := by
  intro as
  induction as generalizing s with
  | nil =>
    intro s' h hplay
    exact Option.some.inj hplay ▸ h
  | cons a as ih =>
    intro s' h hplay
    rw [playFrom] at hplay
    by_cases hc : check s a = true
    · rw [if_pos hc] at hplay
      cases hnext : step s a with
      | none => simp [hnext] at hplay
      | some s₁ =>
        simp only [hnext] at hplay
        exact ih (h.step (hcheck s a hc) hnext) hplay
    · rw [if_neg hc] at hplay
      cases hplay

end SlmMcpHub
