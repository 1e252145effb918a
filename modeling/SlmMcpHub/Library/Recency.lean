import Mathlib.Data.List.Induction
import Mathlib.Data.List.Pairwise

/-!
# Orders of last use

Things are used one after the other, and a list of some of them is kept in the order of their last
uses: a thing that is used moves to the end. Its head is the one that has not been used for the
longest time.

## Main definitions

* `UsedSince` — one thing has been used since another last was
* `ByRecency` — a list in the order of last use

## Main results

* `ByRecency.touch` — moving to the end keeps the order
* `ByRecency.head` — the head is the least recently used
-/

namespace SlmMcpHub

variable {κ : Type}

/-- The second thing has been used since the first was last used. -/
def UsedSince (uses : List κ) (k k' : κ) : Prop :=
  ∃ before after, uses = before ++ k :: after ∧ k ∉ after ∧ k' ∈ after

theorem UsedSince.concat {uses : List κ} {k k' x : κ} (h : UsedSince uses k k') (hx : k ≠ x) :
    UsedSince (uses ++ [x]) k k' := by
  obtain ⟨before, after, rfl, hnot, hmem⟩ := h
  refine ⟨before, after ++ [x], by simp, ?_, List.mem_append_left _ hmem⟩
  rw [List.mem_append, List.mem_singleton, not_or]
  exact ⟨hnot, hx⟩

theorem usedSince_concat_self {uses : List κ} {k x : κ} (h : k ∈ uses) (hx : k ≠ x) :
    UsedSince (uses ++ [x]) k x := by
  obtain ⟨before, after, rfl, hnot⟩ : ∃ before after, uses = before ++ k :: after ∧ k ∉ after := by
    induction uses using List.reverseRecOn with
    | nil => cases h
    | append_singleton uses y ih =>
      by_cases hy : y = k
      · exact ⟨uses, [], by rw [hy], List.not_mem_nil⟩
      · obtain ⟨before, after, rfl, hnot⟩ := ih <| (List.mem_append.mp h).resolve_right fun hk =>
          hy (List.mem_singleton.mp hk).symm
        refine ⟨before, after ++ [y], by simp, ?_⟩
        rw [List.mem_append, List.mem_singleton, not_or]
        exact ⟨hnot, Ne.symm hy⟩
  refine ⟨before, after ++ [x], by simp, ?_, List.mem_append_right _ (List.mem_singleton_self x)⟩
  rw [List.mem_append, List.mem_singleton, not_or]
  exact ⟨hnot, hx⟩

/-- It cannot be the other way round as well. -/
theorem UsedSince.asymm {uses : List κ} {k k' : κ} (h : UsedSince uses k k') :
    ¬ UsedSince uses k' k := by
  obtain ⟨before, after, rfl, hnot, hmem⟩ := h
  rintro ⟨before', after', huses, hnot', hmem'⟩
  rcases List.append_eq_append_iff.mp huses with ⟨between, -, hrest⟩ | ⟨between, -, hrest⟩
  · cases between with
    | nil =>
      obtain ⟨-, rfl⟩ := List.cons.inj hrest
      exact hnot' hmem
    | cons x between =>
      obtain ⟨-, rfl⟩ := List.cons.inj hrest
      exact hnot (List.mem_append_right _ (List.mem_cons_of_mem _ hmem'))
  · cases between with
    | nil =>
      obtain ⟨-, rfl⟩ := List.cons.inj hrest
      exact hnot hmem'
    | cons x between =>
      obtain ⟨-, rfl⟩ := List.cons.inj hrest
      exact hnot' (List.mem_append_right _ (List.mem_cons_of_mem _ hmem))

/-- Things in the order of their last use. -/
structure ByRecency (uses order : List κ) : Prop where
  pairwise : order.Pairwise (UsedSince uses)
  used : ∀ k ∈ order, k ∈ uses

namespace ByRecency

variable {uses order : List κ}

theorem nil (uses : List κ) : ByRecency uses [] := ⟨.nil, nofun⟩

/-- Things may be left out. -/
theorem sublist (h : ByRecency uses order) {order' : List κ} (hsub : order'.Sublist order) :
    ByRecency uses order' :=
  ⟨h.pairwise.sublist hsub, fun k hk => h.used k (hsub.subset hk)⟩

/-- **A thing that is used** moves to the end. -/
theorem touch (h : ByRecency uses order) {x : κ} (hx : x ∉ order) :
    ByRecency (uses ++ [x]) (order ++ [x]) := by
  have hne : ∀ k ∈ order, k ≠ x := fun k hk hkx => hx (hkx ▸ hk)
  refine ⟨List.pairwise_append.mpr ⟨?_, List.pairwise_singleton _ _, fun k hk y hy => ?_⟩, ?_⟩
  · exact h.pairwise.imp_of_mem fun hk _ hsince => hsince.concat (hne _ hk)
  · rw [List.mem_singleton.mp hy]
    exact usedSince_concat_self (h.used k hk) (hne k hk)
  · intro k hk
    exact (List.mem_append.mp hk).elim (fun hk => List.mem_append_left _ (h.used k hk))
      fun hk => List.mem_append_right _ hk

/-- **The head** is the one that all others have been used since. -/
theorem head {k : κ} {rest : List κ} (h : ByRecency uses (k :: rest)) {k' : κ} (hk' : k' ∈ rest) :
    UsedSince uses k k' :=
  List.rel_of_pairwise_cons h.pairwise hk'

end ByRecency

end SlmMcpHub
