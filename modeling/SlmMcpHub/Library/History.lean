import Mathlib.Data.List.Basic
import Mathlib.Tactic.Common

/-!
# Histories

A history is a list of entries, oldest first. It is made from the outside: an observer sees each
operation of a component with the state it starts in, and writes down what there is to say. Some
entries put an end to others that were made before them.

## Main definitions

* `trace` — what is observed of a sequence of operations
* `Standing` — an entry nothing has put an end to

## Main results

* `trace_induction` — what every operation keeps, of the state and of the history
* `concat_eq_append_cons`, `standing_concat` — what one more entry changes
-/

namespace SlmMcpHub

namespace History

/-! ### What is observed -/

section Trace

variable {σ ω ε : Type} (step : σ → ω → σ) (observe : σ → ω → List ε)

/-- **What is observed** of a sequence of operations from a state on. -/
def trace : σ → List ω → List ε
  | _, [] => []
  | s, op :: ops => observe s op ++ trace (step s op) ops

/-- **What every operation keeps**, of the state and of what was observed until then, holds after
every sequence of operations. -/
theorem trace_induction {P : List ε → σ → Prop}
    (next : ∀ log s op, P log s → P (log ++ observe s op) (step s op)) {log : List ε} {s : σ}
    (start : P log s) (ops : List ω) :
    P (log ++ trace step observe s ops) (ops.foldl step s) := by
  induction ops generalizing log s with
  | nil => rwa [trace, List.append_nil]
  | cons op ops ih =>
    rw [trace, ← List.append_assoc]
    exact ih (next log s op start)

end Trace

/-! ### What stands -/

variable {ε : Type} {ends : ε → ε → Prop} {log after : List ε} {e x : ε}

/-- **An entry stands**: after some mention of it there is nothing that puts an end to it. -/
def Standing (ends : ε → ε → Prop) (log : List ε) (e : ε) : Prop :=
  ∃ before after, log = before ++ e :: after ∧ ∀ x ∈ after, ¬ ends e x

theorem Standing.mem (h : Standing ends log e) : e ∈ log := by
  obtain ⟨before, after, rfl, -⟩ := h
  exact List.mem_append_right _ List.mem_cons_self

theorem not_standing_nil : ¬ Standing ends [] e := fun h => List.not_mem_nil h.mem

/-- Where an entry can be in a history: it is the last one, or it was there before. -/
theorem concat_eq_append_cons {before : List ε} : log ++ [x] = before ++ e :: after ↔
    log = before ∧ x = e ∧ after = [] ∨
      ∃ init, after = init ++ [x] ∧ log = before ++ e :: init := by
  constructor
  · intro hlog
    rcases List.eq_nil_or_concat' after with rfl | ⟨init, y, rfl⟩
    · obtain ⟨hbefore, hx⟩ := List.append_inj' hlog rfl
      exact .inl ⟨hbefore, List.singleton_inj.mp hx, rfl⟩
    · rw [← List.cons_append, ← List.append_assoc] at hlog
      obtain ⟨hinit, hx⟩ := List.append_inj' hlog rfl
      obtain rfl := List.singleton_inj.mp hx
      exact .inr ⟨init, rfl, hinit⟩
  · rintro (⟨rfl, rfl, rfl⟩ | ⟨init, rfl, rfl⟩)
    · rfl
    · rw [List.append_assoc, List.cons_append]

/-- What stood before an entry stands after it, unless the entry puts an end to it. -/
theorem standing_concat :
    Standing ends (log ++ [x]) e ↔ e = x ∨ Standing ends log e ∧ ¬ ends e x := by
  constructor
  · rintro ⟨before, after, hlog, hafter⟩
    obtain ⟨-, rfl, -⟩ | ⟨init, rfl, rfl⟩ := concat_eq_append_cons.mp hlog
    · exact .inl rfl
    · refine .inr ⟨⟨before, init, rfl, fun z hz => ?_⟩, ?_⟩
      · exact hafter z (List.mem_append_left _ hz)
      · exact hafter x (List.mem_append_right _ (List.mem_singleton_self _))
  · rintro (rfl | ⟨⟨before, after, rfl, hafter⟩, hx⟩)
    · exact ⟨log, [], rfl, fun _ hz => absurd hz List.not_mem_nil⟩
    · refine ⟨before, after ++ [x], by simp, fun z hz => ?_⟩
      rcases List.mem_append.mp hz with hz | hz
      · exact hafter z hz
      · exact List.mem_singleton.mp hz ▸ hx

end History

end SlmMcpHub
