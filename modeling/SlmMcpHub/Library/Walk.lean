import Mathlib.Data.List.Chain
import Mathlib.Data.List.Nodup
import Mathlib.Data.List.TakeDrop
import SlmMcpHub.Library.WhileLoop

/-!
# Following links

Every node of a graph has a link to at most one other, its next one. A walk follows the links from a
root, until there is none to follow, it comes back to a node it has been at, or it is as long as it
may be.

A walk that comes back has nothing left to find: what it has been at is closed under the links. So
the nodes of a walk are those that are less than so many links away from its root, with a circle or
without one.

## Main definitions

* `Walk.step` — what a loop does that collects a walk
* `Walk.IsWalk` — walks
* `Walk.nth` — the node that is so many links away

## Main results

* `Walk.exists_run_eq` — the loop ends with a walk
* `Walk.IsWalk.mem_take_iff` — the nodes that a walk starts with
-/

namespace SlmMcpHub

namespace Walk

variable {E : Type} (next : E → Option E) (bound : ℕ)

/-- One round: where the walk is at, and what it has been at. -/
def step [DecidableEq E] : Option E × List E → Option (Option E × List E)
  | (none, _) => none
  | (some e, seen) =>
    if seen.length < bound then
      if e ∈ seen then none else some (next e, seen ++ [e])
    else none

/-- A walk from a root. -/
structure IsWalk (root : E) (l : List E) : Prop where
  head : l.head? = some root
  linked : l.IsChain fun e e' => next e = some e'
  nodup : l.Nodup
  length_le : l.length ≤ bound
  /-- It stops early only where there is no link, or one to a node of its own. -/
  stops : l.length < bound → ∀ last, l.getLast? = some last → ∀ e, next last = some e → e ∈ l

/-- The node that is so many links away. -/
def nth (root : E) : ℕ → Option E
  | 0 => some root
  | n + 1 => (nth root n).bind next

variable {next bound} {root e : E} {l : List E} {k n : ℕ}

theorem nth_add (h : nth next root k = some e) (n : ℕ) : nth next root (k + n) = nth next e n := by
  induction n with
  | zero => exact h
  | succ n ih => rw [← Nat.add_assoc, nth, nth, ih]

theorem nth_succ (h : next root = some e) (n : ℕ) : nth next root (n + 1) = nth next e n := by
  rw [Nat.add_comm]
  exact nth_add (k := 1) h n

theorem nth_succ_of_none (h : next root = none) : ∀ n, nth next root (n + 1) = none
  | 0 => h
  | n + 1 => by rw [nth, nth_succ_of_none h n, Option.bind_none]

/-- What is less than so many links away is the root, or less one link away from its next node. -/
theorem exists_nth_succ_iff {P : E → Prop} :
    (∃ n < k + 1, ∃ e, nth next root n = some e ∧ P e) ↔
      P root ∨ ∃ e', next root = some e' ∧ ∃ n < k, ∃ e, nth next e' n = some e ∧ P e := by
  constructor
  · rintro ⟨n, hn, e, he, hP⟩
    cases n with
    | zero => exact .inl (Option.some.inj he ▸ hP)
    | succ n =>
      cases hlink : next root with
      | none =>
        rw [nth_succ_of_none hlink] at he
        cases he
      | some e' =>
        rw [nth_succ hlink] at he
        exact .inr ⟨e', rfl, n, Nat.lt_of_succ_lt_succ hn, e, he, hP⟩
  · rintro (hP | ⟨e', hlink, n, hn, e, he, hP⟩)
    · exact ⟨0, Nat.succ_pos k, root, rfl, hP⟩
    · exact ⟨n + 1, Nat.succ_lt_succ hn, e, (nth_succ hlink n).trans he, hP⟩

/-- Links that another function has as well lead it to the same node. -/
theorem nth_mono {next' : E → Option E} (hnext : ∀ e e', next e = some e' → next' e = some e')
    (h : nth next root n = some e) : nth next' root n = some e := by
  induction n generalizing e with
  | zero => exact h
  | succ n ih =>
    obtain ⟨before, hbefore, hlink⟩ := Option.bind_eq_some_iff.mp h
    rw [nth, ih hbefore]
    exact hnext before e hlink

/-! ### The nodes of a walk -/

theorem IsWalk.getElem? (h : IsWalk next bound root l) (hn : n < l.length) :
    l[n]? = nth next root n := by
  induction n with
  | zero => rw [← List.head?_eq_getElem?, h.head, nth]
  | succ n ih =>
    have hbefore := ih (Nat.lt_of_succ_lt hn)
    rw [List.getElem?_eq_getElem (Nat.lt_of_succ_lt hn)] at hbefore
    rw [nth, ← hbefore, List.getElem?_eq_getElem hn]
    exact (h.linked.getElem n hn).symm

/-- **A walk that stops early** is closed under the links. -/
theorem IsWalk.closed (h : IsWalk next bound root l) (hlt : l.length < bound) {e' : E}
    (he : e ∈ l) (hlink : next e = some e') : e' ∈ l := by
  obtain ⟨n, hn, rfl⟩ := List.getElem_of_mem he
  by_cases hlast : n + 1 < l.length
  · have hnext := h.linked.getElem n hlast
    rw [hlink, Option.some.injEq] at hnext
    exact hnext ▸ List.getElem_mem hlast
  · refine h.stops hlt l[n] ?_ e' hlink
    rw [List.getLast?_eq_getElem?, ← List.getElem?_eq_getElem hn]
    congr 1
    omega

/-- **The nodes of a walk** are less than so many links away from its root. -/
theorem IsWalk.mem_iff (h : IsWalk next bound root l) :
    e ∈ l ↔ ∃ n < bound, nth next root n = some e := by
  constructor
  · intro he
    obtain ⟨n, hn, rfl⟩ := List.getElem_of_mem he
    refine ⟨n, lt_of_lt_of_le hn h.length_le, ?_⟩
    rw [← h.getElem? hn, List.getElem?_eq_getElem hn]
  · rintro ⟨n, hn, he⟩
    by_cases hlt : l.length < bound
    · clear hn
      induction n generalizing e with
      | zero => exact Option.some.inj he ▸ List.mem_of_head? h.head
      | succ n ih =>
        obtain ⟨before, hbefore, hlink⟩ := Option.bind_eq_some_iff.mp he
        exact h.closed hlt (ih hbefore) hlink
    · rw [← h.getElem? (lt_of_lt_of_le hn (Nat.le_of_not_lt hlt))] at he
      exact List.mem_of_getElem? he

theorem IsWalk.take (h : IsWalk next bound root l) (hpos : 0 < k) (hk : k ≤ bound) :
    IsWalk next k root (l.take k) where
  head := by
    rw [List.head?_take, if_neg hpos.ne']
    exact h.head
  linked := h.linked.take k
  nodup := h.nodup.sublist (List.take_sublist k l)
  length_le := List.length_take_le k l
  stops hlt := by
    rw [List.length_take] at hlt
    rw [List.take_of_length_le (by omega)]
    exact h.stops (by omega)

/-- The nodes that a walk starts with. -/
theorem IsWalk.mem_take_iff (h : IsWalk next bound root l) (hk : k ≤ bound) :
    e ∈ l.take k ↔ ∃ n < k, nth next root n = some e := by
  rcases Nat.eq_zero_or_pos k with rfl | hpos
  · simp
  · exact (h.take hpos hk).mem_iff

/-! ### The loop -/

/-- What the loop keeps: the walk so far, and where it goes on. -/
structure Walked (next : E → Option E) (bound : ℕ) (root : E) (current : Option E)
    (seen : List E) : Prop where
  linked : seen.IsChain fun e e' => next e = some e'
  nodup : seen.Nodup
  length_le : seen.length ≤ bound
  current : seen = [] ∧ current = some root ∨
    seen.head? = some root ∧ ∃ last, seen.getLast? = some last ∧ current = next last

theorem walked_nil (next : E → Option E) (bound : ℕ) (root : E) :
    Walked next bound root (some root) [] where
  linked := .nil
  nodup := List.nodup_nil
  length_le := Nat.zero_le _
  current := .inl ⟨rfl, rfl⟩

theorem Walked.concat {seen : List E} (h : Walked next bound root (some e) seen)
    (hlt : seen.length < bound) (hnew : e ∉ seen) :
    Walked next bound root (next e) (seen ++ [e]) where
  linked := by
    refine List.isChain_append.mpr ⟨h.linked, .singleton e, fun last hlast e' he' => ?_⟩
    obtain rfl : e = e' := Option.some.inj he'
    rcases h.current with ⟨rfl, -⟩ | ⟨-, last', hlast', hlink⟩
    · cases hlast
    · obtain rfl : last' = last := Option.some.inj (hlast'.symm.trans hlast)
      exact hlink.symm
  nodup := List.nodup_append.mpr
    ⟨h.nodup, List.nodup_singleton e, fun e' he' e'' he'' heq => by
      rw [List.mem_singleton] at he''
      exact hnew (he'' ▸ heq ▸ he')⟩
  length_le := by
    rw [List.length_append, List.length_singleton]
    exact hlt
  current := by
    refine .inr ⟨?_, e, List.getLast?_concat, rfl⟩
    rcases h.current with ⟨rfl, he⟩ | ⟨hhead, -⟩
    · exact he
    · rw [List.head?_append, hhead, Option.some_or]

/-- **One round** keeps it, and adds a node. -/
theorem Walked.step [DecidableEq E] {s s' : Option E × List E} (h : Walked next bound root s.1 s.2)
    (hs' : Walk.step next bound s = some s') :
    Walked next bound root s'.1 s'.2 ∧ bound - s'.2.length < bound - s.2.length := by
  obtain ⟨current, seen⟩ := s
  cases current with
  | none => cases hs'
  | some e =>
    rw [Walk.step] at hs'
    split at hs'
    · rename_i hlt
      split at hs'
      · cases hs'
      · rename_i hnew
        obtain rfl := Option.some.inj hs'
        refine ⟨h.concat hlt hnew, ?_⟩
        rw [List.length_append, List.length_singleton]
        exact Nat.sub_succ_lt_self _ _ hlt
    · cases hs'

/-- **Where no round follows** there is a walk. -/
theorem Walked.isWalk [DecidableEq E] {current : Option E} {seen : List E}
    (h : Walked next bound root current seen) (hpos : 0 < bound)
    (hend : Walk.step next bound (current, seen) = none) : IsWalk next bound root seen := by
  have hcame : seen.length < bound → ∀ e, current = some e → e ∈ seen := by
    rintro hlt e rfl
    by_contra hnew
    rw [Walk.step, if_pos hlt, if_neg hnew] at hend
    cases hend
  rcases h.current with ⟨rfl, hroot⟩ | ⟨hhead, last, hlast, hlink⟩
  · exact absurd (hcame hpos root hroot) List.not_mem_nil
  · refine ⟨hhead, h.linked, h.nodup, h.length_le, fun hlt last' hlast' e he => ?_⟩
    obtain rfl : last = last' := Option.some.inj (hlast.symm.trans hlast')
    exact hcame hlt e (hlink.trans he)

/-- **The loop ends with a walk**, in no more rounds than it may have nodes and one. -/
theorem exists_run_eq [DecidableEq E] (next : E → Option E) (hpos : 0 < bound) (root : E) :
    ∃ l, IsWalk next bound root l ∧ ∀ rounds, bound < rounds →
      (WhileLoop.run (step next bound) rounds (some root, [])).map Prod.snd = some l := by
  obtain ⟨⟨current, seen⟩, hwalked, hend, hrun⟩ :=
    WhileLoop.exists_run (s := (some root, [])) (fun s => Walked next bound root s.1 s.2)
      (fun s => bound - s.2.length) (fun _ _ h => h.step) (walked_nil next bound root)
  refine ⟨seen, hwalked.isWalk hpos hend, fun rounds hrounds => ?_⟩
  rw [hrun rounds hrounds, Option.map_some]

end Walk

end SlmMcpHub
