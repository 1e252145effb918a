import Mathlib.Algebra.BigOperators.Group.Finset.Basic
import Mathlib.Logic.Relation

/-!
# Searching a graph from a stack

The nodes of a graph are taken off a stack, one after the other; a node that was not seen before is
looked at, and what follows it is put on the stack. The graph may have cycles. The search is over
when a node is found, or the stack is empty.

A search is a loop without a bound of its own. Here it is given a number of rounds; with a graph
that is finite as far as it is reached, one round more than it has edges and nodes to start from is
enough.

## Main definitions

* `Worklist.search` — the loop, for so many rounds
* `Worklist.Follows` — what follows a node

## Main results

* `Worklist.search_eq_true_iff` — what is found is reached
* `Worklist.exists_search_eq` — the search ends
-/

namespace SlmMcpHub

namespace Worklist

variable {V : Type} (succ : V → List V) (found : V → Bool)

/-- The search, for so many rounds. The top of the stack is its head. -/
def search [DecidableEq V] : ℕ → List V → List V → Option Bool
  | 0, _, _ => none
  | _ + 1, [], _ => some false
  | fuel + 1, v :: stack, seen =>
    if v ∈ seen then search fuel stack seen
    else if found v then some true
    else search fuel ((succ v).reverse ++ stack) (v :: seen)

/-- One node follows another. -/
def Follows (v w : V) : Prop := w ∈ succ v

/-- A node is reached from one of the stack. -/
def Reached (stack : List V) (w : V) : Prop :=
  ∃ v ∈ stack, Relation.ReflTransGen (Follows succ) v w

variable {succ found} {stack seen : List V} {fuel : ℕ} {b : Bool} {v : V}

/-! ### What is found -/

/-- A node on the stack is reached, and so is what follows it. -/
theorem reached_of_follows {w : V} (hmem : w ∈ (succ v).reverse ++ stack) {u : V}
    (h : Relation.ReflTransGen (Follows succ) w u) : Reached succ (v :: stack) u := by
  rcases List.mem_append.mp hmem with hsucc | hstack
  · exact ⟨v, List.mem_cons_self, h.head (List.mem_reverse.mp hsucc)⟩
  · exact ⟨w, List.mem_cons_of_mem _ hstack, h⟩

/-- The nodes that were seen are none that is found, and what follows them has been seen or is on
the stack. -/
def Explored (succ : V → List V) (found : V → Bool) (stack seen : List V) : Prop :=
  ∀ v ∈ seen, found v = false ∧ ∀ w ∈ succ v, w ∈ seen ∨ w ∈ stack

theorem Explored.pop (h : Explored succ found (v :: stack) seen) (hv : v ∈ seen) :
    Explored succ found stack seen := by
  intro u hu
  refine ⟨(h u hu).1, fun w hw => ?_⟩
  rcases (h u hu).2 w hw with hseen | hmem
  · exact Or.inl hseen
  · rcases List.mem_cons.mp hmem with rfl | hstack
    · exact Or.inl hv
    · exact Or.inr hstack

theorem Explored.push (h : Explored succ found (v :: stack) seen) (hv : found v = false) :
    Explored succ found ((succ v).reverse ++ stack) (v :: seen) := by
  intro u hu
  rcases List.mem_cons.mp hu with rfl | hu
  · refine ⟨hv, fun w hw => Or.inr ?_⟩
    exact List.mem_append_left _ (List.mem_reverse.mpr hw)
  · refine ⟨(h u hu).1, fun w hw => ?_⟩
    rcases (h u hu).2 w hw with hseen | hmem
    · exact Or.inl (List.mem_cons_of_mem _ hseen)
    · rcases List.mem_cons.mp hmem with rfl | hstack
      · exact Or.inl List.mem_cons_self
      · exact Or.inr (List.mem_append_right _ hstack)

/-- With an empty stack, what was seen is closed. -/
theorem Explored.closed (h : Explored succ found [] seen) {w : V} (hv : v ∈ seen)
    (hreach : Relation.ReflTransGen (Follows succ) v w) : w ∈ seen := by
  induction hreach with
  | refl => exact hv
  | tail _ hfollows ih => exact ((h _ ih).2 _ hfollows).resolve_right nofun

variable [DecidableEq V]

/-- More rounds change nothing. -/
theorem search_succ (h : search succ found fuel stack seen = some b) :
    search succ found (fuel + 1) stack seen = some b := by
  induction fuel generalizing stack seen with
  | zero => cases h
  | succ fuel ih =>
    cases stack with
    | nil => exact h
    | cons v stack =>
      rw [search] at h ⊢
      split_ifs at h ⊢
      · exact ih h
      · exact h
      · exact ih h

theorem search_of_le {n : ℕ} (h : search succ found fuel stack seen = some b) (hle : fuel ≤ n) :
    search succ found n stack seen = some b := by
  induction n, hle using Nat.le_induction with
  | base => exact h
  | succ n _ ih => exact search_succ ih

/-- **What is found is reached.** -/
theorem reached_of_search (h : search succ found fuel stack seen = some true) :
    ∃ w, Reached succ stack w ∧ found w = true := by
  induction fuel generalizing stack seen with
  | zero => cases h
  | succ fuel ih =>
    cases stack with
    | nil => cases h
    | cons v stack =>
      rw [search] at h
      split_ifs at h with hseen hfound
      · obtain ⟨w, ⟨u, hu, hreach⟩, hw⟩ := ih h
        exact ⟨w, ⟨u, List.mem_cons_of_mem _ hu, hreach⟩, hw⟩
      · exact ⟨v, ⟨v, List.mem_cons_self, .refl⟩, hfound⟩
      · obtain ⟨w, ⟨u, hu, hreach⟩, hw⟩ := ih h
        exact ⟨w, reached_of_follows hu hreach, hw⟩

/-- **A search that finds nothing has seen everything.** -/
theorem not_found_of_search (hexplored : Explored succ found stack seen)
    (h : search succ found fuel stack seen = some false) {w : V}
    (hw : Reached succ (stack ++ seen) w) : found w = false := by
  induction fuel generalizing stack seen with
  | zero => cases h
  | succ fuel ih =>
    obtain ⟨u, hu, hreach⟩ := hw
    cases stack with
    | nil => exact (hexplored w (hexplored.closed hu hreach)).1
    | cons v stack =>
      rw [search] at h
      split_ifs at h with hseen hfound
      · refine ih (hexplored.pop hseen) h ⟨u, ?_, hreach⟩
        rcases List.mem_cons.mp hu with rfl | hu
        · exact List.mem_append_right _ hseen
        · exact hu
      · cases h
      · refine ih (hexplored.push (Bool.eq_false_iff.mpr hfound)) h ⟨u, ?_, hreach⟩
        rcases List.mem_cons.mp hu with rfl | hu
        · exact List.mem_append_right _ List.mem_cons_self
        · rcases List.mem_append.mp hu with hstack | hseen'
          · exact List.mem_append_left _ (List.mem_append_right _ hstack)
          · exact List.mem_append_right _ (List.mem_cons_of_mem _ hseen')

/-- **The search finds what it is for** just when that is reached. -/
theorem search_eq_true_iff (h : search succ found fuel stack [] = some b) :
    b = true ↔ ∃ w, Reached succ stack w ∧ found w = true := by
  constructor
  · rintro rfl
    exact reached_of_search h
  · rintro ⟨w, hreach, hw⟩
    cases b with
    | true => rfl
    | false =>
      have hnot := not_found_of_search (fun v hv => absurd hv List.not_mem_nil) h
        (by rwa [List.append_nil])
      exact hnot.symm.trans hw

/-! ### Its end -/

/-- **The search ends.** A round takes a node off the stack; a node that is looked at puts on the
stack what follows it, and is not looked at again. -/
theorem exists_search_eq {F : Finset V} (hF : ∀ v ∈ F, ∀ w ∈ succ v, w ∈ F)
    (hstack : ∀ v ∈ stack, v ∈ F)
    (hfuel : stack.length + ∑ v ∈ F.filter (· ∉ seen), (succ v).length < fuel) :
    ∃ b, search succ found fuel stack seen = some b := by
  induction fuel generalizing stack seen with
  | zero => exact absurd hfuel (Nat.not_lt_zero _)
  | succ fuel ih =>
    cases stack with
    | nil => exact ⟨false, rfl⟩
    | cons v stack =>
      have hrest : ∀ u ∈ stack, u ∈ F := fun u hu => hstack u (List.mem_cons_of_mem _ hu)
      rw [List.length_cons] at hfuel
      rw [search]
      split_ifs with hseen hfound
      · exact ih hrest (by omega)
      · exact ⟨true, rfl⟩
      · have hv : v ∈ F := hstack v List.mem_cons_self
        refine ih (fun u hu => ?_) ?_
        · rcases List.mem_append.mp hu with hu | hu
          · exact hF v hv u (List.mem_reverse.mp hu)
          · exact hrest u hu
        · have hunseen : F.filter (· ∉ seen) = insert v (F.filter (· ∉ v :: seen)) := by
            ext u
            by_cases hu : u = v
            · simp [hu, hv, hseen]
            · simp [hu]
          have hnot : v ∉ F.filter (· ∉ v :: seen) := by simp
          rw [hunseen, Finset.sum_insert hnot] at hfuel
          rw [List.length_append, List.length_reverse]
          omega

end Worklist

end SlmMcpHub
