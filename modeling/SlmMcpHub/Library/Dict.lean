import Mathlib.Data.List.Nodup
import Mathlib.Data.List.Basic
import Mathlib.Logic.Embedding.Basic
import Mathlib.Tactic.Common

/-!
# Insertion-ordered dictionaries

A dictionary that remembers the order in which its keys were first written: overwriting a key
keeps its place, deleting it and writing it again moves it to the end. Iteration runs in that
order, so two dictionaries with the same lookups can still be iterated differently.

The keys of a `Dict` are distinct by construction: `nodup` is a field, and every operation below
carries it.

## Main definitions

* `Dict.get?`, `Dict.set`, `Dict.erase`, `Dict.modify` — the four primitive operations
* `Dict.setAll` — writing a list of pairs one after the other
* `Dict.mapEntries` — the same dictionary with other names for the keys
* `Dict.lastOf` — the value a list of pairs leaves under a key, before any dictionary is built

## Main results

* `Dict.get?_set`, `Dict.get?_erase`, `Dict.get?_modify` — lookups after each operation
* `Dict.keys_set_of_mem`, `Dict.keys_set_of_not_mem` — the order an overwrite keeps and an
  insertion extends
* `Dict.get?_setAll` — the last pair written under a key is the one found
-/

namespace SlmMcpHub

/-- An insertion-ordered dictionary with distinct keys. -/
structure Dict (κ ν : Type) where
  /-- The entries, oldest key first. -/
  entries : List (κ × ν)
  /-- No key occurs twice. -/
  nodup : (entries.map Prod.fst).Nodup
  deriving DecidableEq

namespace Dict

variable {κ ν : Type}

@[ext] theorem ext {d d' : Dict κ ν} (h : d.entries = d'.entries) : d = d' := by
  cases d; cases d'; simp_all

/-- The dictionary with no entry. -/
def empty : Dict κ ν := ⟨[], by simp⟩

/-- The keys, in insertion order. -/
def keys (d : Dict κ ν) : List κ := d.entries.map Prod.fst

/-- The values, in insertion order of their keys. -/
def values (d : Dict κ ν) : List ν := d.entries.map Prod.snd

/-- The number of entries. -/
def size (d : Dict κ ν) : ℕ := d.entries.length

@[simp] theorem entries_empty : (empty : Dict κ ν).entries = [] := rfl

@[simp] theorem keys_empty : (empty : Dict κ ν).keys = [] := rfl

@[simp] theorem size_empty : (empty : Dict κ ν).size = 0 := rfl

theorem eq_empty_of_size {d : Dict κ ν} (h : d.size = 0) : d = empty :=
  ext (List.eq_nil_of_length_eq_zero h)

theorem keys_nodup (d : Dict κ ν) : d.keys.Nodup := d.nodup

@[simp] theorem length_keys (d : Dict κ ν) : d.keys.length = d.size := List.length_map _

variable [DecidableEq κ]

/-! ### Lookup -/

/-- The value stored under `k`. -/
def get? (d : Dict κ ν) (k : κ) : Option ν :=
  (d.entries.find? fun p => decide (p.1 = k)).map Prod.snd

/-- Whether `k` is a key. -/
def contains (d : Dict κ ν) (k : κ) : Bool := (d.get? k).isSome

@[simp] theorem get?_empty (k : κ) : (empty : Dict κ ν).get? k = none := rfl

/-- Lookup in a list of entries whose keys are distinct. -/
private theorem find?_eq_some_iff {l : List (κ × ν)} (hl : (l.map Prod.fst).Nodup) {k : κ}
    {v : ν} : (l.find? fun p => decide (p.1 = k)).map Prod.snd = some v ↔ (k, v) ∈ l := by
  induction l with
  | nil => simp
  | cons p l ih =>
    rw [List.map_cons, List.nodup_cons] at hl
    by_cases hp : p.1 = k
    · simp only [List.find?_cons, hp, decide_true, Option.map_some, List.mem_cons]
      constructor
      · intro h
        left
        rw [← Option.some.inj h, ← hp]
      · rintro (h | h)
        · rw [← h]
        · exact absurd (List.mem_map.mpr ⟨_, h, rfl⟩) (hp ▸ hl.1)
    · simp only [List.find?_cons, hp, decide_false, ih hl.2, List.mem_cons]
      constructor
      · exact Or.inr
      · rintro (h | h)
        · exact absurd (by rw [← h]) hp
        · exact h

theorem mem_entries_iff {d : Dict κ ν} {k : κ} {v : ν} :
    (k, v) ∈ d.entries ↔ d.get? k = some v :=
  (find?_eq_some_iff d.nodup).symm

theorem mem_keys_iff {d : Dict κ ν} {k : κ} : k ∈ d.keys ↔ ∃ v, d.get? k = some v := by
  simp only [keys, List.mem_map, Prod.exists, exists_and_right, exists_eq_right, mem_entries_iff]

theorem mem_values_iff {d : Dict κ ν} {v : ν} : v ∈ d.values ↔ ∃ k, d.get? k = some v := by
  simp only [values, List.mem_map, Prod.exists, exists_eq_right, mem_entries_iff]

theorem get?_eq_none_iff {d : Dict κ ν} {k : κ} : d.get? k = none ↔ k ∉ d.keys := by
  rw [mem_keys_iff, Option.eq_none_iff_forall_ne_some]
  simp

theorem contains_iff {d : Dict κ ν} {k : κ} : d.contains k = true ↔ k ∈ d.keys := by
  rw [contains, mem_keys_iff, Option.isSome_iff_exists]

/-! ### Writing -/

/-- Write `v` under `k`: in place when `k` is present, at the end otherwise. -/
def setEntry (k : κ) (v : ν) : List (κ × ν) → List (κ × ν)
  | [] => [(k, v)]
  | p :: l => if p.1 = k then (k, v) :: l else p :: setEntry k v l

theorem map_fst_setEntry_of_mem {k : κ} {v : ν} : ∀ {l : List (κ × ν)}, k ∈ l.map Prod.fst →
    (setEntry k v l).map Prod.fst = l.map Prod.fst
  | [], h => by simp at h
  | p :: l, h => by
    by_cases hp : p.1 = k
    · simp [setEntry, hp]
    · have hl : k ∈ l.map Prod.fst := by
        rcases List.mem_cons.mp h with h | h
        · exact absurd h.symm hp
        · exact h
      simp [setEntry, hp, map_fst_setEntry_of_mem hl]

theorem setEntry_of_not_mem {k : κ} {v : ν} : ∀ {l : List (κ × ν)}, k ∉ l.map Prod.fst →
    setEntry k v l = l ++ [(k, v)]
  | [], _ => rfl
  | p :: l, h => by
    rw [List.map_cons, List.mem_cons, not_or] at h
    simp [setEntry, Ne.symm h.1, setEntry_of_not_mem h.2]

private theorem nodup_setEntry {k : κ} {v : ν} {l : List (κ × ν)}
    (h : (l.map Prod.fst).Nodup) : ((setEntry k v l).map Prod.fst).Nodup := by
  by_cases hk : k ∈ l.map Prod.fst
  · rwa [map_fst_setEntry_of_mem hk]
  · rw [setEntry_of_not_mem hk, List.map_append, List.nodup_append]
    refine ⟨h, by simp, ?_⟩
    intro a ha b hb hab
    obtain rfl : b = k := by simpa using hb
    exact hk (hab ▸ ha)

/-- `d[k] = v`. -/
def set (d : Dict κ ν) (k : κ) (v : ν) : Dict κ ν :=
  ⟨setEntry k v d.entries, nodup_setEntry d.nodup⟩

private theorem find?_setEntry (k k' : κ) (v : ν) : ∀ l : List (κ × ν),
    ((setEntry k v l).find? fun p => decide (p.1 = k')).map Prod.snd =
      if k = k' then some v else (l.find? fun p => decide (p.1 = k')).map Prod.snd
  | [] => by by_cases h : k = k' <;> simp [setEntry, h]
  | p :: l => by
    by_cases hp : p.1 = k
    · by_cases h : k = k'
      · simp [setEntry, hp, h]
      · simp [setEntry, hp, h]
    · by_cases h : p.1 = k'
      · have hk : k ≠ k' := fun hc => hp (h.trans hc.symm)
        simp [setEntry, h, hk, Ne.symm hk]
      · simp only [setEntry, if_neg hp, List.find?_cons, h, decide_false]
        exact find?_setEntry k k' v l

theorem get?_set (d : Dict κ ν) (k k' : κ) (v : ν) :
    (d.set k v).get? k' = if k = k' then some v else d.get? k' :=
  find?_setEntry k k' v d.entries

@[simp] theorem get?_set_self (d : Dict κ ν) (k : κ) (v : ν) : (d.set k v).get? k = some v := by
  simp [get?_set]

theorem get?_set_of_ne {d : Dict κ ν} {k k' : κ} {v : ν} (h : k ≠ k') :
    (d.set k v).get? k' = d.get? k' := by
  simp [get?_set, h]

theorem keys_set_of_mem {d : Dict κ ν} {k : κ} {v : ν} (h : k ∈ d.keys) :
    (d.set k v).keys = d.keys :=
  map_fst_setEntry_of_mem h

theorem entries_set_of_not_mem {d : Dict κ ν} {k : κ} {v : ν} (h : k ∉ d.keys) :
    (d.set k v).entries = d.entries ++ [(k, v)] :=
  setEntry_of_not_mem h

theorem keys_set_of_not_mem {d : Dict κ ν} {k : κ} {v : ν} (h : k ∉ d.keys) :
    (d.set k v).keys = d.keys ++ [k] := by
  rw [keys, entries_set_of_not_mem h, List.map_append]
  rfl

@[simp] theorem mem_keys_set {d : Dict κ ν} {k k' : κ} {v : ν} :
    k' ∈ (d.set k v).keys ↔ k' = k ∨ k' ∈ d.keys := by
  by_cases h : k ∈ d.keys
  · rw [keys_set_of_mem h]
    constructor
    · exact Or.inr
    · rintro (rfl | h')
      · exact h
      · exact h'
  · rw [keys_set_of_not_mem h, List.mem_append, List.mem_singleton, or_comm]

theorem size_set (d : Dict κ ν) (k : κ) (v : ν) :
    (d.set k v).size = if k ∈ d.keys then d.size else d.size + 1 := by
  rw [← length_keys, ← length_keys]
  by_cases h : k ∈ d.keys
  · rw [if_pos h, keys_set_of_mem h]
  · rw [if_neg h, keys_set_of_not_mem h, List.length_append, List.length_singleton]

/-! ### Deleting -/

/-- `d.pop(k, None)`. -/
def erase (d : Dict κ ν) (k : κ) : Dict κ ν :=
  ⟨d.entries.filter fun p => decide (p.1 ≠ k), (List.filter_sublist.map Prod.fst).nodup d.nodup⟩

theorem mem_entries_erase {d : Dict κ ν} {k : κ} {p : κ × ν} :
    p ∈ (d.erase k).entries ↔ p ∈ d.entries ∧ p.1 ≠ k := by
  simp [erase]

theorem get?_erase (d : Dict κ ν) (k k' : κ) :
    (d.erase k).get? k' = if k = k' then none else d.get? k' := by
  refine Option.ext fun v => ?_
  rw [← mem_entries_iff, mem_entries_erase, mem_entries_iff]
  by_cases h : k = k'
  · simp [h]
  · simp [h, Ne.symm h]

@[simp] theorem get?_erase_self (d : Dict κ ν) (k : κ) : (d.erase k).get? k = none := by
  simp [get?_erase]

theorem get?_erase_of_ne {d : Dict κ ν} {k k' : κ} (h : k ≠ k') :
    (d.erase k).get? k' = d.get? k' := by
  simp [get?_erase, h]

theorem get?_of_erase {d : Dict κ ν} {k k' : κ} {v : ν} (h : (d.erase k).get? k' = some v) :
    d.get? k' = some v := by
  rw [get?_erase] at h
  split at h
  · cases h
  · exact h

theorem keys_erase (d : Dict κ ν) (k : κ) :
    (d.erase k).keys = d.keys.filter fun k' => decide (k' ≠ k) := by
  rw [keys, keys, erase, List.filter_map]
  rfl

@[simp] theorem mem_keys_erase {d : Dict κ ν} {k k' : κ} :
    k' ∈ (d.erase k).keys ↔ k' ∈ d.keys ∧ k' ≠ k := by
  simp [keys_erase]

theorem size_erase_le (d : Dict κ ν) (k : κ) : (d.erase k).size ≤ d.size :=
  List.length_filter_le _ _

theorem size_erase_of_mem {d : Dict κ ν} {k : κ} (h : k ∈ d.keys) :
    (d.erase k).size + 1 = d.size := by
  have hkeys : (d.erase k).keys = d.keys.erase k := by
    rw [keys_erase, d.keys_nodup.erase_eq_filter]
    refine List.filter_congr fun k' _ => ?_
    by_cases hk : k' = k <;> simp [hk]
  have hpos := List.length_pos_of_mem h
  rw [← length_keys, ← length_keys, hkeys, List.length_erase_of_mem h]
  omega

/-! ### Updating a value in place -/

/-- Replace the value under `k` by its image under `f`; nothing happens when `k` is absent. -/
def modify (d : Dict κ ν) (k : κ) (f : ν → ν) : Dict κ ν :=
  ⟨d.entries.map fun p => if p.1 = k then (p.1, f p.2) else p, by
    have : (Prod.fst ∘ fun p : κ × ν => if p.1 = k then (p.1, f p.2) else p) = Prod.fst := by
      funext p
      by_cases h : p.1 = k <;> simp [h]
    rw [List.map_map, this]
    exact d.nodup⟩

@[simp] theorem keys_modify (d : Dict κ ν) (k : κ) (f : ν → ν) : (d.modify k f).keys = d.keys := by
  rw [keys, keys, modify, List.map_map]
  refine List.map_congr_left fun p _ => ?_
  by_cases h : p.1 = k <;> simp [h]

@[simp] theorem size_modify (d : Dict κ ν) (k : κ) (f : ν → ν) : (d.modify k f).size = d.size :=
  List.length_map _

theorem get?_modify (d : Dict κ ν) (k k' : κ) (f : ν → ν) :
    (d.modify k f).get? k' = if k = k' then (d.get? k').map f else d.get? k' := by
  unfold get? modify
  simp only
  induction d.entries with
  | nil => by_cases h : k = k' <;> simp [h]
  | cons p l ih =>
    by_cases hp : p.1 = k
    · by_cases hk : k = k'
      · simp [hp, hk]
      · simp only [List.map_cons, hp, if_true, List.find?_cons, hk, decide_false]
        simpa [hk] using ih
    · by_cases hk : p.1 = k'
      · have : k ≠ k' := fun hc => hp (hk.trans hc.symm)
        simp [hk, this, Ne.symm this]
      · simp only [List.map_cons, if_neg hp, List.find?_cons, hk, decide_false]
        exact ih

/-! ### Writing a list of pairs -/

/-- Write the pairs of `l` one after the other. -/
def setAll (d : Dict κ ν) (l : List (κ × ν)) : Dict κ ν := l.foldl (fun d p => d.set p.1 p.2) d

/-- The value the last pair of `l` under `k` carries. -/
def lastOf (l : List (κ × ν)) (k : κ) : Option ν :=
  l.foldl (fun o p => if p.1 = k then some p.2 else o) none

@[simp] theorem setAll_nil (d : Dict κ ν) : d.setAll [] = d := rfl

@[simp] theorem setAll_cons (d : Dict κ ν) (p : κ × ν) (l : List (κ × ν)) :
    d.setAll (p :: l) = (d.set p.1 p.2).setAll l := rfl

theorem setAll_append (d : Dict κ ν) (l l' : List (κ × ν)) :
    d.setAll (l ++ l') = (d.setAll l).setAll l' := by
  simp [setAll]

@[simp] theorem lastOf_nil (k : κ) : lastOf ([] : List (κ × ν)) k = none := rfl

private theorem foldl_or (k : κ) : ∀ (l : List (κ × ν)) (o : Option ν),
    l.foldl (fun o p => if p.1 = k then some p.2 else o) o = (lastOf l k).or o
  | [], o => by simp [lastOf]
  | p :: l, o => by
    rw [lastOf, List.foldl_cons, List.foldl_cons, foldl_or k l, foldl_or k l]
    cases h : lastOf l k with
    | some v => simp
    | none => by_cases hp : p.1 = k <;> simp [hp]

theorem lastOf_cons (p : κ × ν) (l : List (κ × ν)) (k : κ) :
    lastOf (p :: l) k = (lastOf l k).or (if p.1 = k then some p.2 else none) := by
  rw [lastOf, List.foldl_cons, foldl_or]

theorem lastOf_append (l l' : List (κ × ν)) (k : κ) :
    lastOf (l ++ l') k = (lastOf l' k).or (lastOf l k) := by
  rw [lastOf, List.foldl_append, foldl_or]
  rfl

/-- **The last write wins.** -/
theorem get?_setAll (d : Dict κ ν) (l : List (κ × ν)) (k : κ) :
    (d.setAll l).get? k = (lastOf l k).or (d.get? k) := by
  induction l generalizing d with
  | nil => simp [lastOf]
  | cons p l ih =>
    rw [setAll_cons, ih, lastOf_cons, get?_set]
    cases lastOf l k with
    | some v => simp
    | none => by_cases hp : p.1 = k <;> simp [hp]

theorem lastOf_mem {l : List (κ × ν)} {k : κ} {v : ν} (h : lastOf l k = some v) :
    (k, v) ∈ l := by
  induction l with
  | nil => simp [lastOf] at h
  | cons p l ih =>
    rw [lastOf_cons] at h
    cases hl : lastOf l k with
    | some w =>
      rw [hl] at h
      have hw : w = v := by simpa using h
      exact List.mem_cons_of_mem _ (ih (hl.trans (by rw [hw])))
    | none =>
      rw [hl] at h
      by_cases hp : p.1 = k
      · have hv : p.2 = v := by simpa [hp] using h
        rw [← hp, ← hv]
        exact List.mem_cons_self
      · simp [hp] at h

theorem lastOf_eq_none_iff {l : List (κ × ν)} {k : κ} :
    lastOf l k = none ↔ k ∉ l.map Prod.fst := by
  induction l with
  | nil => simp [lastOf]
  | cons p l ih =>
    rw [lastOf_cons]
    by_cases hp : p.1 = k
    · simp [hp]
    · cases hl : lastOf l k <;> simp_all [Ne.symm]

/-- With distinct keys the last write is the only one. -/
theorem lastOf_eq_some_iff {l : List (κ × ν)} (hl : (l.map Prod.fst).Nodup) {k : κ} {v : ν} :
    lastOf l k = some v ↔ (k, v) ∈ l := by
  refine ⟨lastOf_mem, fun hm => ?_⟩
  cases h : lastOf l k with
  | none => exact absurd (List.mem_map.mpr ⟨_, hm, rfl⟩) (lastOf_eq_none_iff.mp h)
  | some w =>
    have hw : (k, w) = (k, v) := List.inj_on_of_nodup_map hl (lastOf_mem h) hm rfl
    rw [(Prod.mk.inj hw).2]

theorem mem_keys_setAll {d : Dict κ ν} {l : List (κ × ν)} {k : κ} :
    k ∈ (d.setAll l).keys ↔ k ∈ l.map Prod.fst ∨ k ∈ d.keys := by
  rw [mem_keys_iff, get?_setAll, mem_keys_iff]
  cases h : lastOf l k with
  | some v => simpa using Or.inl ⟨v, lastOf_mem h⟩
  | none =>
    have := lastOf_eq_none_iff.mp h
    simp [this]

/-- Pairs with distinct fresh keys are appended as they stand. -/
theorem entries_setAll {d : Dict κ ν} : ∀ {l : List (κ × ν)}, (l.map Prod.fst).Nodup →
    (∀ k ∈ l.map Prod.fst, k ∉ d.keys) → (d.setAll l).entries = d.entries ++ l := by
  intro l
  induction l generalizing d with
  | nil => simp
  | cons p l ih =>
    intro hl hd
    rw [List.map_cons, List.nodup_cons] at hl
    have hp : p.1 ∉ d.keys := hd _ (by simp)
    rw [setAll_cons, ih hl.2, entries_set_of_not_mem hp, List.append_assoc]
    · rfl
    · intro k hk hmem
      rcases mem_keys_set.mp hmem with rfl | hmem
      · exact hl.1 hk
      · exact hd k (List.mem_cons_of_mem _ hk) hmem

/-- A dictionary is what writing its entries makes of the empty one. -/
@[simp] theorem setAll_empty_entries (d : Dict κ ν) : empty.setAll d.entries = d := by
  apply ext
  rw [entries_setAll d.nodup (by simp)]
  rfl

/-! ### Deleting and replacing under several keys -/

theorem get?_foldl_erase (d : Dict κ ν) (l : List κ) (k : κ) :
    (l.foldl erase d).get? k = if k ∈ l then none else d.get? k := by
  induction l generalizing d with
  | nil => simp
  | cons k' l ih =>
    rw [List.foldl_cons, ih, get?_erase]
    by_cases hk : k' = k
    · simp [hk]
    · simp [hk, Ne.symm hk]

/-- What is there under a key is replaced by what the last pair under it carries. -/
theorem get?_foldl_modify (d : Dict κ ν) (l : List (κ × ν)) (k : κ) :
    (l.foldl (fun d p => d.modify p.1 fun _ => p.2) d).get? k =
      (d.get? k).map fun v => (lastOf l k).getD v := by
  induction l generalizing d with
  | nil => simp
  | cons p l ih =>
    rw [List.foldl_cons, ih, get?_modify, lastOf_cons]
    by_cases hp : p.1 = k
    · cases d.get? k with
      | none => simp [hp]
      | some v => cases lastOf l k <;> simp [hp]
    · cases lastOf l k <;> simp [hp]

/-! ### Other names for the keys -/

section MapEntries

variable {κ' ν' : Type} (f : κ ↪ κ') (g : ν → ν') (d : Dict κ ν)

omit [DecidableEq κ] in
private theorem nodup_mapEntries :
    ((d.entries.map fun p => (f p.1, g p.2)).map Prod.fst).Nodup := by
  have hkeys : (d.entries.map fun p => (f p.1, g p.2)).map Prod.fst = d.keys.map f := by
    rw [keys, List.map_map, List.map_map]
    rfl
  rw [hkeys]
  exact d.keys_nodup.map f.injective

/-- Every key gets another name and every value another form, in the same order. -/
def mapEntries : Dict κ' ν' := ⟨d.entries.map fun p => (f p.1, g p.2), nodup_mapEntries f g d⟩

omit [DecidableEq κ] in
@[simp] theorem size_mapEntries : (d.mapEntries f g).size = d.size := List.length_map _

variable [DecidableEq κ']

theorem get?_mapEntries (k : κ) : (d.mapEntries f g).get? (f k) = (d.get? k).map g := by
  have hkey : (fun p : κ' × ν' => decide (p.1 = f k)) ∘ (fun p : κ × ν => (f p.1, g p.2)) =
      fun p => decide (p.1 = k) := by
    funext p
    exact decide_eq_decide.mpr f.injective.eq_iff
  rw [get?, get?, mapEntries, List.find?_map, hkey, Option.map_map, Option.map_map]
  rfl

theorem mapEntries_set (k : κ) (v : ν) :
    (d.set k v).mapEntries f g = (d.mapEntries f g).set (f k) (g v) := by
  refine ext ?_
  show (setEntry k v d.entries).map _ = setEntry (f k) (g v) (d.entries.map _)
  induction d.entries with
  | nil => rfl
  | cons p l ih =>
    by_cases hp : p.1 = k
    · simp [setEntry, hp]
    · rw [setEntry, if_neg hp, List.map_cons, List.map_cons, setEntry,
        if_neg (fun h => hp (f.injective h)), ih]

theorem mapEntries_erase (k : κ) : (d.erase k).mapEntries f g = (d.mapEntries f g).erase (f k) := by
  refine ext ?_
  show (d.entries.filter _).map _ = (d.entries.map _).filter _
  rw [List.filter_map]
  refine congrArg _ (List.filter_congr fun p _ => ?_)
  exact decide_eq_decide.mpr f.injective.ne_iff.symm

theorem mapEntries_foldl_erase (l : List κ) :
    (l.foldl erase d).mapEntries f g = (l.map f).foldl erase (d.mapEntries f g) := by
  induction l generalizing d with
  | nil => rfl
  | cons k l ih => rw [List.foldl_cons, ih, mapEntries_erase, List.map_cons, List.foldl_cons]

end MapEntries

end Dict

end SlmMcpHub
