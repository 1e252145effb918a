import Mathlib.Data.List.Basic
import Mathlib.Data.List.Nodup
import Mathlib.Data.List.Perm.Subperm
import Mathlib.Data.List.Range
import Mathlib.Tactic.Common
import SlmMcpHub.Library.IntLiteral
import SlmMcpHub.Library.WhileLoop

/-!
# The namespace of federated names

`federation/namespace.py`: every server gets an id made of its name, and every tool, resource,
resource template and prompt of the server is published as `id ++ "__" ++ name`.

Two steps lose information. `safeServerId` maps every character outside `a-zA-Z0-9` to `'_'`, so
different servers can ask for one id, and `makeUniqueId` then appends `_2`, `_3`, … The delimiter
itself may occur in an id and in a name, so a published name need not determine the pair it was
made of.

## Main definitions

* `safeServerId`, `makeUniqueId`, `namespaceName` — as in the source
* `Overlaps` — how two different pairs of an id and a name can be published under one name

## Main results

* `makeUniqueId_not_mem`, `makeUniqueIdLoop_eq` — the suffix search always ends, and on a free id
* `namespaceName_eq_iff` — two pairs with different ids share a published name exactly when
  they overlap
-/

namespace SlmMcpHub

/-- `NAMESPACE_DELIMITER` -/
def namespaceDelimiter : String := "__"

/-- The characters the pattern `[^a-zA-Z0-9]` leaves alone. -/
def isSafeChar (c : Char) : Bool :=
  ('a' ≤ c && c ≤ 'z') || ('A' ≤ c && c ≤ 'Z') || ('0' ≤ c && c ≤ '9')

/-- Replace every character that is not alphanumeric by an underscore. -/
def safeServerId (serverName : String) : String :=
  String.ofList (serverName.toList.map fun c => if isSafeChar c then c else '_')

/-- `f"{base_id}_{counter}"` -/
def suffixedId (baseId : String) (counter : ℕ) : String := baseId ++ "_" ++ toString counter

/-- The `while` loop of `make_unique_id`. The source gives it no bound: `fuel` is one, and
`makeUniqueId_not_mem` says that the loop never reaches it with a taken id in hand. -/
def searchSuffix (baseId : String) (existingIds : List String) : ℕ → ℕ → String
  | 0, counter => suffixedId baseId counter
  | fuel + 1, counter =>
    if suffixedId baseId counter ∈ existingIds then
      searchSuffix baseId existingIds fuel (counter + 1)
    else suffixedId baseId counter

/-- `base_id` itself when it is free, else the first free one of `base_id_2`, `base_id_3`, … -/
def makeUniqueId (baseId : String) (existingIds : List String) : String :=
  if baseId ∉ existingIds then baseId
  else searchSuffix baseId existingIds existingIds.length 2

/-- `while f"{base_id}_{counter}" in existing_ids: counter += 1`, one round. -/
def nextCounter (baseId : String) (existingIds : List String) (counter : ℕ) : Option ℕ :=
  if suffixedId baseId counter ∈ existingIds then some (counter + 1) else none

/-- `make_unique_id`, for so many rounds of its loop. -/
def makeUniqueIdLoop (rounds : ℕ) (baseId : String) (existingIds : List String) : Option String :=
  if baseId ∉ existingIds then some baseId
  else (WhileLoop.run (nextCounter baseId existingIds) rounds 2).map (suffixedId baseId)

/-- `f"{server_id}{NAMESPACE_DELIMITER}{original_name}"` -/
def namespaceName (serverId originalName : String) : String :=
  serverId ++ namespaceDelimiter ++ originalName

/-! ### Unique ids -/

theorem suffixedId_injective (baseId : String) : Function.Injective (suffixedId baseId) := by
  intro m n h
  have h' := congrArg String.toList h
  simp only [suffixedId, String.toList_append, List.append_cancel_left_eq] at h'
  exact IntLiteral.toString_injective (String.toList_inj.mp h')

/-- The search returns a suffixed id, and a free one if it stops before its fuel runs out. -/
theorem searchSuffix_spec (baseId : String) (existingIds : List String) :
    ∀ fuel counter, ∃ n, counter ≤ n ∧ n ≤ counter + fuel ∧
      searchSuffix baseId existingIds fuel counter = suffixedId baseId n ∧
      (∀ m, counter ≤ m → m < n → suffixedId baseId m ∈ existingIds) ∧
      (n < counter + fuel → suffixedId baseId n ∉ existingIds) := by
  intro fuel
  induction fuel with
  | zero => exact fun counter => ⟨counter, le_refl _, le_refl _, rfl, by omega, by omega⟩
  | succ fuel ih =>
    intro counter
    by_cases hc : suffixedId baseId counter ∈ existingIds
    · obtain ⟨n, hle, hub, heq, hbelow, hfree⟩ := ih (counter + 1)
      refine ⟨n, by omega, by omega, by simpa [searchSuffix, hc] using heq, fun m hm hmn => ?_,
        fun hlt => hfree (by omega)⟩
      rcases Nat.eq_or_lt_of_le hm with rfl | hm
      · exact hc
      · exact hbelow m hm hmn
    · exact ⟨counter, le_refl _, by omega, by simp [searchSuffix, hc], by omega, fun _ => hc⟩

/-- There are no more taken ids of the suffixed form, one after the other, than taken ids. -/
theorem le_of_suffixedId_mem {baseId : String} {existingIds : List String} {n : ℕ}
    (hall : ∀ m, 2 ≤ m → m < n → suffixedId baseId m ∈ existingIds) :
    n ≤ existingIds.length + 2 := by
  have hsub : ((List.range' 2 (n - 2)).map (suffixedId baseId)) ⊆ existingIds := by
    intro s hs
    obtain ⟨m, hm, rfl⟩ := List.mem_map.mp hs
    rw [List.mem_range'_1] at hm
    exact hall m hm.1 (by omega)
  have hnodup : ((List.range' 2 (n - 2)).map (suffixedId baseId)).Nodup :=
    List.Nodup.map (suffixedId_injective baseId) List.nodup_range'
  have hlen := (List.subperm_of_subset hnodup hsub).length_le
  rw [List.length_map, List.length_range'] at hlen
  omega

/-- **The suffix search ends on a free id**, the first one it comes to. If every id it tried were
taken, the taken ids would hold one more distinct suffixed id than there are taken ids. -/
theorem searchSuffix_first (baseId : String) (existingIds : List String) :
    ∃ n, searchSuffix baseId existingIds existingIds.length 2 = suffixedId baseId n ∧ 2 ≤ n ∧
      (∀ m, 2 ≤ m → m < n → suffixedId baseId m ∈ existingIds) ∧
      suffixedId baseId n ∉ existingIds := by
  obtain ⟨n, hle, hub, heq, hbelow, hfree⟩ :=
    searchSuffix_spec baseId existingIds existingIds.length 2
  refine ⟨n, heq, hle, hbelow, fun hmem => ?_⟩
  have hn : n = 2 + existingIds.length := by
    by_contra hne
    exact hfree (by omega) hmem
  have hnext : n + 1 ≤ existingIds.length + 2 := by
    refine le_of_suffixedId_mem fun m hm hlt => (?_ : suffixedId baseId m ∈ existingIds)
    rcases Nat.lt_or_ge m n with h | h
    · exact hbelow m hm h
    · obtain rfl : m = n := by omega
      exact hmem
  omega

theorem searchSuffix_not_mem (baseId : String) (existingIds : List String) :
    searchSuffix baseId existingIds existingIds.length 2 ∉ existingIds := by
  obtain ⟨n, heq, -, -, hfree⟩ := searchSuffix_first baseId existingIds
  rwa [heq]

theorem makeUniqueId_not_mem (baseId : String) (existingIds : List String) :
    makeUniqueId baseId existingIds ∉ existingIds := by
  unfold makeUniqueId
  split
  · assumption
  · exact searchSuffix_not_mem baseId existingIds

/-- What the loop keeps: all the ids it has tried are taken. -/
def Tried (baseId : String) (existingIds : List String) (counter : ℕ) : Prop :=
  2 ≤ counter ∧ ∀ m, 2 ≤ m → m < counter → suffixedId baseId m ∈ existingIds

theorem Tried.next {baseId : String} {existingIds : List String} {counter counter' : ℕ}
    (h : Tried baseId existingIds counter)
    (hnext : nextCounter baseId existingIds counter = some counter') :
    Tried baseId existingIds counter' ∧
      existingIds.length + 2 - counter' < existingIds.length + 2 - counter := by
  rw [nextCounter] at hnext
  split at hnext
  · rename_i hmem
    obtain rfl := Option.some.inj hnext
    have htried : Tried baseId existingIds (counter + 1) := by
      refine ⟨Nat.le_succ_of_le h.1, fun m hm hlt => ?_⟩
      rcases Nat.lt_succ_iff_lt_or_eq.mp hlt with hlt | rfl
      · exact h.2 m hm hlt
      · exact hmem
    have hle := le_of_suffixedId_mem htried.2
    exact ⟨htried, by omega⟩
  · cases hnext

/-- **The loop ends**, in no more rounds than there are taken ids and one. -/
theorem makeUniqueIdLoop_eq (baseId : String) (existingIds : List String) {rounds : ℕ}
    (hrounds : existingIds.length < rounds) :
    makeUniqueIdLoop rounds baseId existingIds = some (makeUniqueId baseId existingIds) := by
  rw [makeUniqueIdLoop, makeUniqueId]
  split
  · rfl
  · obtain ⟨t, htried, hend, hrun⟩ := WhileLoop.exists_run (s := 2) (Tried baseId existingIds)
      (fun counter => existingIds.length + 2 - counter) (fun _ _ h => h.next)
      ⟨le_refl 2, fun m hm hlt => absurd hm (Nat.not_le_of_lt hlt)⟩
    obtain ⟨n, heq, hle, hbelow, hfree⟩ := searchSuffix_first baseId existingIds
    have hend : suffixedId baseId t ∉ existingIds := by
      intro hmem
      rw [nextCounter, if_pos hmem] at hend
      cases hend
    have ht : t = n := by
      rcases Nat.lt_trichotomy t n with h | h | h
      · exact absurd (hbelow t htried.1 h) hend
      · exact h
      · exact absurd (htried.2 n hle h) hfree
    rw [hrun rounds (by omega), heq, ht, Option.map_some]

/-! ### Shared published names -/

/-- The id `j` extends the id `i` into the name `t`: cutting the delimiter off `i ++ "__" ++ t`
can also be done further right, with `j` before it and `u` after it. -/
def Overlaps (i t j u : String) : Prop :=
  (j = i ++ "_" ∧ t = "_" ++ u) ∨ ∃ r, j = i ++ "__" ++ r ∧ t = r ++ "__" ++ u

theorem Overlaps.namespaceName_eq {i t j u : String} (h : Overlaps i t j u) :
    namespaceName i t = namespaceName j u := by
  rcases h with ⟨rfl, rfl⟩ | ⟨r, rfl, rfl⟩ <;>
    apply String.toList_inj.mp <;> simp [namespaceName, namespaceDelimiter]

/-- Two decompositions `i __ t = j __ u` of one list of characters, the first one cut strictly
further left. -/
private theorem overlaps_of_toList {i t j u r : String} (hj : j.toList = i.toList ++ r.toList)
    (hr : r.toList ≠ []) (h : namespaceName i t = namespaceName j u) : Overlaps i t j u := by
  have h' := congrArg String.toList h
  simp only [namespaceName, namespaceDelimiter, String.toList_append, hj, List.append_assoc,
    List.append_cancel_left_eq] at h'
  match hc : r.toList with
  | [] => exact absurd hc hr
  | [a] =>
    simp only [hc, String.reduceToList, List.cons_append, List.nil_append, List.cons.injEq] at h'
    refine Or.inl ⟨String.toList_inj.mp ?_, String.toList_inj.mp ?_⟩
    · simp [hj, hc, ← h'.1]
    · simpa using h'.2.2
  | a :: b :: c =>
    simp only [hc, String.reduceToList, List.cons_append, List.nil_append, List.cons.injEq] at h'
    refine Or.inr ⟨String.ofList c, String.toList_inj.mp ?_, String.toList_inj.mp ?_⟩
    · simp [hj, hc, ← h'.1, ← h'.2.1]
    · simpa using h'.2.2

/-- **Shared published names.** Pairs with different ids are published under one name exactly
when one id extends the other into the name that follows it. -/
theorem namespaceName_eq_iff {i t j u : String} (hij : i ≠ j) :
    namespaceName i t = namespaceName j u ↔ Overlaps i t j u ∨ Overlaps j u i t := by
  refine ⟨fun h => ?_, fun h => ?_⟩
  · have h' := congrArg String.toList h
    simp only [namespaceName, String.toList_append, List.append_assoc] at h'
    rcases List.append_eq_append_iff.mp h' with ⟨r, hj, -⟩ | ⟨r, hi, -⟩
    · refine Or.inl (overlaps_of_toList (r := String.ofList r) (by simpa using hj) ?_ h)
      rintro hr
      exact hij (String.toList_inj.mp (by simp_all))
    · refine Or.inr (overlaps_of_toList (r := String.ofList r) (by simpa using hi) ?_ h.symm)
      rintro hr
      exact hij (String.toList_inj.mp (by simp_all))
  · rcases h with h | h
    · exact h.namespaceName_eq
    · exact h.namespaceName_eq.symm

theorem namespaceName_left_injective (serverId : String) :
    Function.Injective (namespaceName serverId) := by
  intro t u h
  have h' := congrArg String.toList h
  simp only [namespaceName, String.toList_append, List.append_cancel_left_eq] at h'
  exact String.toList_inj.mp h'

end SlmMcpHub
