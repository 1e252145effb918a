import Mathlib.Data.List.Dedup
import Mathlib.Data.List.Induction
import Mathlib.Data.List.Sort
import SlmMcpHub.Library.Dict

/-!
# Grouping under keys

`m.setdefault(key, []).append(value)` for each pair of a list: the dictionary of the groups, and how
the groups make up the list.

## Main results

* `Dict.get?_collect` — a group holds the values under its key, in order
* `flatMap_filter_perm` — groups under distinct keys make up the list
-/

namespace SlmMcpHub

variable {α κ ν : Type} [DecidableEq κ]

/-- The parts of a list under distinct keys make up the list, if every key is among them. -/
theorem flatMap_filter_perm (key : α → κ) {ks : List κ} : ∀ {l : List α}, ks.Nodup →
    (∀ a ∈ l, key a ∈ ks) → (ks.flatMap fun k => l.filter fun a => key a = k).Perm l := by
  induction ks with
  | nil =>
    intro l _ hall
    rw [List.eq_nil_iff_forall_not_mem.mpr fun a ha => List.not_mem_nil (hall a ha)]
    exact .refl _
  | cons k ks ih =>
    intro l hnodup hall
    obtain ⟨hk, hnodup⟩ := List.nodup_cons.mp hnodup
    have hrest : (ks.flatMap fun k' => l.filter fun a => key a = k') =
        ks.flatMap fun k' => (l.filter fun a => key a ≠ k).filter fun a => key a = k' := by
      refine List.flatMap_congr fun k' hk' => ?_
      rw [List.filter_filter]
      refine List.filter_congr fun a _ => ?_
      by_cases ha : key a = k'
      · have hne : key a ≠ k := fun h => hk (h ▸ ha ▸ hk')
        simp [ha, ha ▸ hne]
      · simp [ha]
    have hothers := ih (l := l.filter fun a => key a ≠ k) hnodup fun a ha => by
      obtain ⟨hmem, hne⟩ := List.mem_filter.mp ha
      exact (List.mem_cons.mp (hall a hmem)).resolve_left (of_decide_eq_true hne)
    rw [List.flatMap_cons, hrest]
    refine (hothers.append_left _).trans ?_
    simpa using List.filter_append_perm (fun a => decide (key a = k)) l

namespace Dict

/-- `m.setdefault(key, []).append(value)` for each pair. -/
def collect (l : List (κ × ν)) : Dict κ (List ν) :=
  l.foldl (fun m p => m.set p.1 ((m.get? p.1).getD [] ++ [p.2])) .empty

/-- The values under a key, in order. -/
def groupOf (l : List (κ × ν)) (k : κ) : List ν := (l.filter fun p => p.1 = k).map Prod.snd

theorem collect_append (l : List (κ × ν)) (p : κ × ν) :
    collect (l ++ [p]) = (collect l).set p.1 (((collect l).get? p.1).getD [] ++ [p.2]) := by
  rw [collect, List.foldl_append]
  rfl

theorem groupOf_append (l : List (κ × ν)) (p : κ × ν) (k : κ) :
    groupOf (l ++ [p]) k = groupOf l k ++ if p.1 = k then [p.2] else [] := by
  rw [groupOf, List.filter_append, List.map_append, groupOf]
  by_cases h : p.1 = k <;> simp [h]

/-- A group holds the values under its key. -/
theorem get?_collect (l : List (κ × ν)) (k : κ) :
    (collect l).get? k = if k ∈ l.map Prod.fst then some (groupOf l k) else none := by
  induction l using List.reverseRecOn with
  | nil => rfl
  | append_singleton l p ih =>
    rw [collect_append, get?_set, groupOf_append, List.map_append]
    by_cases h : p.1 = k
    · subst h
      rw [ih]
      by_cases hmem : p.1 ∈ l.map Prod.fst
      · simp [hmem]
      · have hnone : groupOf l p.1 = [] := by
          rw [groupOf, List.map_eq_nil_iff, List.filter_eq_nil_iff]
          intro q hq hkey
          exact hmem (List.mem_map.mpr ⟨q, hq, of_decide_eq_true hkey⟩)
        simp [hmem, hnone]
    · rw [if_neg h, if_neg h, ih, List.append_nil]
      have hmem : k ∈ l.map Prod.fst ++ [p].map Prod.fst ↔ k ∈ l.map Prod.fst := by
        simp [Ne.symm h]
      exact if_congr hmem.symm rfl rfl

theorem mem_keys_collect {l : List (κ × ν)} {k : κ} :
    k ∈ (collect l).keys ↔ k ∈ l.map Prod.fst := by
  rw [mem_keys_iff, get?_collect]
  by_cases h : k ∈ l.map Prod.fst <;> simp [h]

theorem entries_collect (l : List (κ × ν)) :
    (collect l).entries = (collect l).keys.map fun k => (k, groupOf l k) := by
  rw [keys, List.map_map]
  refine (List.map_congr_left fun e he => ?_).trans (List.map_id _) |>.symm
  have hget := mem_entries_iff.mp (show (e.1, e.2) ∈ (collect l).entries from he)
  rw [get?_collect] at hget
  split_ifs at hget
  exact Prod.ext rfl (Option.some.inj hget)

/-- The groups make up the list. -/
theorem flatMap_collect_perm (l : List (κ × ν)) :
    ((collect l).entries.flatMap Prod.snd).Perm (l.map Prod.snd) := by
  rw [entries_collect, List.flatMap_map]
  have h := flatMap_filter_perm Prod.fst (l := l) (collect l).keys_nodup fun p hp =>
    mem_keys_collect.mpr (List.mem_map_of_mem hp)
  have hmap := h.map Prod.snd
  rw [List.map_flatMap] at hmap
  exact hmap

end Dict

end SlmMcpHub
