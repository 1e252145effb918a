import Mathlib.Data.List.Sort

/-!
# Ranks

The place of an element in the order of a list: how many others are before it. What sorting and
cutting a list does to an element is read off its rank.

## Main results

* `mem_take_mergeSort_iff` — the elements that come first
-/

namespace SlmMcpHub

variable {α : Type} [LinearOrder α] {l l' : List α} {x : α}

/-- How many elements of a list are below one. -/
def rank (l : List α) (x : α) : ℕ := l.countP (· < x)

theorem rank_cons (a : α) (l : List α) (x : α) :
    rank (a :: l) x = rank l x + if a < x then 1 else 0 := by
  rw [rank, List.countP_cons, rank]
  simp

theorem rank_perm (h : l.Perm l') (x : α) : rank l x = rank l' x := h.countP_eq _

theorem rank_eq_zero_iff : rank l x = 0 ↔ ∀ y ∈ l, ¬ y < x := by
  rw [rank, List.countP_eq_zero]
  simp

theorem mem_take_iff (h : l.Pairwise (· < ·)) (k : ℕ) :
    x ∈ l.take k ↔ x ∈ l ∧ rank l x < k := by
  induction l generalizing k with
  | nil => simp
  | cons a l ih =>
    obtain ⟨hfirst, hrest⟩ := List.pairwise_cons.mp h
    have hself : rank (a :: l) a = 0 := by
      refine rank_eq_zero_iff.mpr fun y hy => ?_
      rcases List.mem_cons.mp hy with rfl | hy
      · exact lt_irrefl _
      · exact not_lt_of_gt (hfirst y hy)
    cases k with
    | zero => simp
    | succ k =>
      rw [List.take_succ_cons, List.mem_cons, List.mem_cons, ih hrest]
      constructor
      · rintro (rfl | ⟨hx, hrank⟩)
        · exact ⟨.inl rfl, by omega⟩
        · rw [rank_cons, if_pos (hfirst x hx)]
          exact ⟨.inr hx, by omega⟩
      · rintro ⟨rfl | hx, hrank⟩
        · exact .inl rfl
        · rw [rank_cons, if_pos (hfirst x hx)] at hrank
          exact .inr ⟨hx, by omega⟩

/-- **The first elements.** Of a list without repetition, sorted and cut after some elements, those
of a smaller rank are left. -/
theorem mem_take_mergeSort_iff (h : l.Nodup) (k : ℕ) :
    x ∈ (l.mergeSort (· ≤ ·)).take k ↔ x ∈ l ∧ rank l x < k := by
  have hperm : (l.mergeSort (· ≤ ·)).Perm l := List.mergeSort_perm l _
  have hle : (l.mergeSort (· ≤ ·)).Pairwise (· ≤ ·) := List.pairwise_mergeSort' (· ≤ ·) l
  have hlt : (l.mergeSort (· ≤ ·)).Pairwise (· < ·) :=
    (hle.and (hperm.nodup_iff.mpr h)).imp fun hab => lt_of_le_of_ne hab.1 hab.2
  rw [mem_take_iff hlt, hperm.mem_iff, rank_perm hperm]

end SlmMcpHub
