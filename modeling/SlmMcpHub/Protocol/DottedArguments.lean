import Mathlib.Data.List.Sort
import Mathlib.Data.String.Basic
import SlmMcpHub.Library.Nested
import SlmMcpHub.Protocol.ProductOperations

/-!
# The repair of dotted arguments

What `_reconstruct_dotted_arguments` makes of a payload, read by the paths of the arguments: the
keys that are repaired grow the arguments, and nothing that is there is lost.
-/

namespace SlmMcpHub

namespace Protocol

open Json

/-! ### Placing a value -/

theorem look_ofDict_cons (key : String) (path : List String) (d : Dict String Json) :
    look (key :: path) (ofDict d) = (d.get? key).bind (look path) := look_cons_entries key path d

/-- What placing a value in the object at the end of a path does to the nodes. -/
def placed (path : List String) (value : Json) (at? : List String → Option Node)
    (q : List String) : Option Node :=
  if path <+: q then look (q.drop path.length) value
  else (at? q).or (if q <+: path then some .object else none)

/-- Placing a value below a key. -/
theorem look_set {root d : Dict String Json} {segment : String} {segments : List String}
    {value : Json} {below : List String → Option Node}
    (hd : ∀ q, look q (ofDict d) = placed segments value below q)
    (hbelow : ∀ q, placed segments value below q =
      placed segments value (fun q => (root.get? segment).bind (look q)) q) (q : List String) :
    look q (ofDict (root.set segment (ofDict d))) =
      placed (segment :: segments) value (fun q => look q (ofDict root)) q := by
  cases q with
  | nil => simp [ofDict, node, placed]
  | cons key q =>
    rw [look_ofDict_cons, Dict.get?_set, placed, look_ofDict_cons]
    by_cases hkey : segment = key
    · subst hkey
      rw [if_pos rfl, Option.bind_some, hd q, hbelow, placed]
      simp only [List.prefix_cons_inj, List.length_cons, List.drop_succ_cons]
    · have hnot : ¬ segment :: segments <+: key :: q := fun h => hkey (List.cons_prefix_cons.mp h).1
      have hnot' : ¬ key :: q <+: segment :: segments :=
        fun h => hkey (List.cons_prefix_cons.mp h).1.symm
      rw [if_neg hkey, if_neg hnot, if_neg hnot', Option.or_none]

/-- Below and at its path a placed value is what there is; the way to it consists of objects; and
everything else stays. -/
theorem look_place {root root' : Dict String Json} {path : List String} {value : Json}
    (h : place root path value = some root') (q : List String) :
    look q (ofDict root') = placed path value (fun q => look q (ofDict root)) q := by
  induction root, path, value using place.induct generalizing root' q with
  | case1 root value => cases h
  | case2 root leaf value hleaf =>
    rw [place, if_pos hleaf] at h
    cases h
  | case3 root leaf value hleaf =>
    rw [place, if_neg hleaf] at h
    obtain rfl := Option.some.inj h
    cases q with
    | nil => simp [ofDict, node, placed]
    | cons key q =>
      rw [look_ofDict_cons, Dict.get?_set, placed, look_ofDict_cons]
      by_cases hkey : leaf = key
      · subst hkey
        simp
      · simp [hkey, Ne.symm hkey]
  | case4 root segment segments value hne hget ih =>
    rw [place, hget] at h
    · obtain ⟨d, hd, rfl⟩ := Option.map_eq_some_iff.mp h
      refine look_set (fun q => ih hd q) (fun q => ?_) q
      cases q with
      | nil => simp [placed, ofDict, node, hget]
      | cons key q => simp [placed, look_ofDict_cons, hget]
    · exact hne
  | case5 root segment segments value hne entries hget ih =>
    rw [place, hget] at h
    · obtain ⟨d, hd, rfl⟩ := Option.map_eq_some_iff.mp h
      refine look_set (fun q => ih hd q) (fun q => ?_) q
      simp [placed, ofDict, hget]
    · exact hne
  | case6 root segment segments value hne v hobj hget =>
    rw [place, hget] at h
    · cases v with
      | obj entries => exact absurd rfl (hobj entries)
      | _ => cases h
    · exact hne

/-- A value can be placed where there is nothing, if nothing but objects is on the way. -/
theorem exists_place {root : Dict String Json} {path : List String} (value : Json)
    (hne : path ≠ []) (hfree : look path (ofDict root) = none)
    (hway : ∀ q v, q <+: path → look q (ofDict root) ≠ some (.leaf v)) :
    ∃ root', place root path value = some root' := by
  induction root, path, value using place.induct with
  | case1 root value => exact absurd rfl hne
  | case2 root leaf value hleaf =>
    rw [look_ofDict_cons] at hfree
    obtain ⟨v, hv⟩ := Option.isSome_iff_exists.mp hleaf
    simp [hv] at hfree
  | case3 root leaf value hleaf => exact ⟨root.set leaf value, by rw [place, if_neg hleaf]⟩
  | case4 root segment segments value hsegments hget ih =>
    obtain ⟨d, hd⟩ := ih hsegments (by
      obtain ⟨key, rest, rfl⟩ := List.exists_cons_of_ne_nil hsegments
      rfl) (by
      intro q v _ hleaf
      cases q <;> cases hleaf)
    refine ⟨root.set segment (ofDict d), ?_⟩
    rw [place, hget, hd]
    · rfl
    · exact hsegments
  | case5 root segment segments value hsegments entries hget ih =>
    have hbelow : ∀ q, look (segment :: q) (ofDict root) =
        look q (ofDict (Json.toDict entries)) := by
      intro q
      rw [look_ofDict_cons, hget, Option.bind_some, ofDict, look_toDict]
    obtain ⟨d, hd⟩ := ih hsegments (by rw [← hbelow, hfree]) (by
      intro q v hq
      rw [← hbelow]
      exact hway _ v (List.cons_prefix_cons.mpr ⟨rfl, hq⟩))
    refine ⟨root.set segment (ofDict d), ?_⟩
    rw [place, hget]
    · simp only [hd, Option.map_some]
    · exact hsegments
  | case6 root segment segments value hsegments v hobj hget =>
    refine absurd ?_ (hway [segment] v (List.cons_prefix_cons.mpr ⟨rfl, List.nil_prefix⟩))
    rw [look_ofDict_cons, hget, Option.bind_some, look_nil]
    exact congrArg some (node_eq_leaf_iff.mpr ⟨rfl, hobj⟩)

/-- Where a value has been placed there was nothing. -/
theorem look_eq_none_of_place {root root' : Dict String Json} {path : List String} {value : Json}
    (h : place root path value = some root') : look path (ofDict root) = none := by
  induction root, path, value using place.induct generalizing root' with
  | case1 root value => cases h
  | case2 root leaf value hleaf =>
    rw [place, if_pos hleaf] at h
    cases h
  | case3 root leaf value hleaf =>
    rw [look_ofDict_cons, Option.not_isSome_iff_eq_none.mp hleaf, Option.bind_none]
  | case4 root segment segments value hne hget ih =>
    rw [look_ofDict_cons, hget, Option.bind_none]
  | case5 root segment segments value hne entries hget ih =>
    rw [place, hget] at h
    · obtain ⟨d, hd, rfl⟩ := Option.map_eq_some_iff.mp h
      rw [look_ofDict_cons, hget, Option.bind_some, ← look_toDict]
      exact ih hd
    · exact hne
  | case6 root segment segments value hne v hobj hget =>
    rw [look_ofDict_cons, hget, Option.bind_some]
    obtain ⟨key, rest, rfl⟩ := List.exists_cons_of_ne_nil hne
    exact look_cons_of_node_leaf (node_eq_leaf_iff.mpr ⟨rfl, hobj⟩)

theorem grown_place {root root' : Dict String Json} {path : List String} {value : Json}
    (h : place root path value = some root') : Grown [path] (ofDict root) (ofDict root') := by
  have hfree := look_eq_none_of_place h
  refine ⟨fun {q n} hq => ?_, fun {q n} hnone hsome => ⟨path, List.mem_singleton_self _, hfree, ?_⟩⟩
  · rw [look_place h, placed, if_neg, hq, Option.some_or]
    intro hle
    rw [look_eq_none_of_isPrefixOf hfree hle] at hq
    cases hq
  · rw [look_place h, placed, hnone, Option.none_or] at hsome
    split_ifs at hsome with hbelow habove
    · exact Or.inl hbelow
    · exact Or.inr habove

/-- The placed value is there. -/
theorem look_append_place {root root' : Dict String Json} {path : List String} {value : Json}
    (h : place root path value = some root') (q : List String) :
    look (path ++ q) (ofDict root') = look q value := by
  rw [look_place h, placed, if_pos (List.prefix_append path q), List.drop_left]

/-! ### Some keys of a dictionary -/

theorem entries_without (d : Dict String Json) (drop : String → Bool) :
    (without d drop).entries = d.entries.filter fun e => !drop e.1 := by
  rw [without, Dict.entries_setAll]
  · rfl
  · exact d.nodup.sublist (List.filter_sublist.map _)
  · exact fun _ _ => List.not_mem_nil

theorem keys_without (d : Dict String Json) (drop : String → Bool) :
    (without d drop).keys = d.keys.filter fun k => !drop k := by
  rw [Dict.keys, entries_without, Dict.keys, List.filter_map]
  rfl

theorem get?_without (d : Dict String Json) (drop : String → Bool) (k : String) :
    (without d drop).get? k = if drop k then none else d.get? k := by
  refine Option.ext fun v => ?_
  rw [← Dict.mem_entries_iff, entries_without, List.mem_filter, Dict.mem_entries_iff]
  cases drop k <;> simp

theorem without_without (d : Dict String Json) {drop drop' : String → Bool}
    (h : ∀ k, drop k = true → drop' k = true) :
    without (without d drop) drop' = without d drop' := by
  apply Dict.ext
  rw [entries_without, entries_without, entries_without, List.filter_filter]
  refine List.filter_congr fun e _ => ?_
  cases hdrop : drop e.1 with
  | false => simp
  | true => simp [h _ hdrop]

theorem without_congr {d : Dict String Json} {drop drop' : String → Bool}
    (h : ∀ k ∈ d.keys, drop k = drop' k) : without d drop = without d drop' := by
  apply Dict.ext
  rw [entries_without, entries_without]
  exact List.filter_congr fun e he => by rw [h e.1 (List.mem_map_of_mem he)]

theorem without_eq_self {d : Dict String Json} {drop : String → Bool}
    (h : ∀ k ∈ d.keys, drop k = false) : without d drop = d := by
  apply Dict.ext
  rw [entries_without]
  exact List.filter_eq_self.mpr fun e he => by rw [h e.1 (List.mem_map_of_mem he)]; rfl

/-! ### The keys that are reported -/

/-- `key.startswith(_FLAT_ARG_PREFIX)` -/
def isDotted (key : String) : Bool := flatArgPrefix.toList.isPrefixOf key.toList

/-- The path a dotted key stands for. -/
def segmentsOf (key : String) : List String :=
  ((key.drop flatArgPrefix.length).toString).splitOn "."

/-- The keys `_reconstruct_dotted_arguments` returns with the payload: those repaired, and those
skipped. -/
def reportedKeys (payload : Dict String Json) : List String × List String :=
  let dotted := dottedKeys payload
  if dotted = [] then
    ([], [])
  else
    match payload.get? "arguments" with
    | none | some .null =>
      let st := dotted.foldl (repairKey payload) { rebuilt := .empty }
      (st.repaired, st.skipped)
    | some (.obj entries) =>
      let st := dotted.foldl (repairKey payload) { rebuilt := Json.toDict entries }
      (st.repaired, st.skipped)
    | some _ => ([], dotted)

theorem dottedKeys_perm (payload : Dict String Json) :
    (dottedKeys payload).Perm (payload.keys.filter isDotted) := List.mergeSort_perm _ _

theorem dottedKeys_nodup (payload : Dict String Json) : (dottedKeys payload).Nodup :=
  (dottedKeys_perm payload).nodup_iff.mpr (payload.keys_nodup.filter _)

theorem mem_dottedKeys {payload : Dict String Json} {k : String} :
    k ∈ dottedKeys payload ↔ k ∈ payload.keys ∧ isDotted k = true := by
  rw [(dottedKeys_perm payload).mem_iff, List.mem_filter]

theorem pairwise_dottedKeys (payload : Dict String Json) :
    (dottedKeys payload).Pairwise (· ≤ ·) := List.pairwise_mergeSort' _ _

/-- What is left of the dotted keys is dotted in the same order. -/
theorem dottedKeys_without (payload : Dict String Json) (drop : String → Bool) :
    dottedKeys (without payload drop) = (dottedKeys payload).filter fun k => !drop k := by
  refine List.Perm.eq_of_pairwise' (r := (· ≤ ·)) (pairwise_dottedKeys _)
    ((pairwise_dottedKeys payload).filter _) ?_
  refine (dottedKeys_perm _).trans ?_
  rw [keys_without, List.filter_filter]
  refine List.Perm.trans ?_ ((dottedKeys_perm payload).filter _).symm
  rw [List.filter_filter]
  simp only [Bool.and_comm]
  rfl

/-! ### The loop -/

/-- A value is at its path, and all of it; what else is below that path comes from a path that goes
on from it. -/
structure Holds (paths : List (List String)) (path : List String) (value a : Json) : Prop where
  kept : ∀ {q n}, look q value = some n → look (path ++ q) a = some n
  merged : ∀ {q n}, look q value = none → look (path ++ q) a = some n →
    ∃ p ∈ paths, path <+: p ∧ path ≠ p ∧ (p <+: path ++ q ∨ path ++ q <+: p)

theorem Holds.look_path {paths : List (List String)} {path : List String} {value a : Json}
    (h : Holds paths path value a) : look path a = some value.node := by
  rw [← List.append_nil path]
  exact h.kept (look_nil value)

theorem holds_place {root root' : Dict String Json} {path : List String} {value : Json}
    (h : place root path value = some root') : Holds [] path value (ofDict root') := by
  refine ⟨fun hq => (look_append_place h _).trans hq, fun hnone hsome => ?_⟩
  rw [look_append_place h, hnone] at hsome
  cases hsome

/-- A value stays at its path when something is added. -/
theorem Holds.grown {paths paths' : List (List String)} {path : List String} {value a b : Json}
    (h : Holds paths path value a) (hab : Grown paths' a b) :
    Holds (paths ++ paths') path value b := by
  refine ⟨fun hq => hab.kept (h.kept hq), fun {q n} hnone hsome => ?_⟩
  rcases ha : look (path ++ q) a with _ | m
  · obtain ⟨p, hp, hfree, hcomparable⟩ := hab.new ha hsome
    refine ⟨p, List.mem_append_right _ hp, ?_, ?_, hcomparable⟩
    · rcases hcomparable with hle | hle
      · refine (List.prefix_or_prefix_of_prefix hle (List.prefix_append path q)).resolve_left ?_
        intro hle
        -- Something is at the path already, and nothing was where the addition begins.
        have hnothing := look_eq_none_of_isPrefixOf hfree hle
        rw [h.look_path] at hnothing
        cases hnothing
      · exact (List.prefix_append path q).trans hle
    · rintro rfl
      rw [h.look_path] at hfree
      cases hfree
  · obtain ⟨p, hp, hrest⟩ := h.merged hnone ha
    exact ⟨p, List.mem_append_left _ hp, hrest⟩

theorem Holds.mono {paths paths' : List (List String)} {path : List String} {value a : Json}
    (h : Holds paths path value a) (hsub : paths ⊆ paths') : Holds paths' path value a := by
  refine ⟨h.kept, fun hnone hsome => ?_⟩
  obtain ⟨p, hp, hrest⟩ := h.merged hnone hsome
  exact ⟨p, hsub hp, hrest⟩

/-- The value of a key of a payload. -/
def valueOf (payload : Dict String Json) (key : String) : Json := (payload.get? key).getD .null

/-- One turn of the loop: the key is skipped, or its value placed. -/
theorem repairKey_cases (payload : Dict String Json) (st : Rebuilding) (key : String) :
    repairKey payload st key = { st with skipped := st.skipped ++ [key] } ∨
      ∃ rebuilt, place st.rebuilt (segmentsOf key) (valueOf payload key) = some rebuilt ∧
        (segmentsOf key).contains "" = false ∧
        repairKey payload st key =
          { st with rebuilt := rebuilt, repaired := st.repaired ++ [key] } := by
  unfold repairKey
  simp only
  cases hempty : (segmentsOf key).contains "" with
  | true =>
    rw [segmentsOf] at hempty
    exact Or.inl (by rw [hempty, if_pos rfl])
  | false =>
    cases hplace : place st.rebuilt (segmentsOf key) (valueOf payload key) with
    | none =>
      rw [segmentsOf] at hempty hplace
      rw [valueOf] at hplace
      exact Or.inl (by rw [hempty, if_neg Bool.false_ne_true, hplace])
    | some rebuilt =>
      refine Or.inr ⟨rebuilt, rfl, rfl, ?_⟩
      rw [segmentsOf] at hempty hplace
      rw [valueOf] at hplace
      rw [hempty, if_neg Bool.false_ne_true, hplace]

theorem repairKey_of_place {payload : Dict String Json} {st : Rebuilding} {key : String}
    {rebuilt : Dict String Json} (hempty : (segmentsOf key).contains "" = false)
    (hplace : place st.rebuilt (segmentsOf key) (valueOf payload key) = some rebuilt) :
    repairKey payload st key =
      { st with rebuilt := rebuilt, repaired := st.repaired ++ [key] } := by
  rw [segmentsOf] at hempty hplace
  rw [valueOf] at hplace
  unfold repairKey
  simp only
  rw [hempty, if_neg Bool.false_ne_true, hplace]

/-- What the loop does with some keys: `rs` are repaired and `ss` are skipped, and with `rs` alone
it does the same. -/
structure Looped (payload : Dict String Json) (keys : List String) (st st' : Rebuilding)
    (rs ss : List String) : Prop where
  repaired : st'.repaired = st.repaired ++ rs
  skipped : st'.skipped = st.skipped ++ ss
  perm : (rs ++ ss).Perm keys
  sublist : rs.Sublist keys
  grown : Grown (rs.map segmentsOf) (ofDict st.rebuilt) (ofDict st'.rebuilt)
  holds : ∀ {k}, k ∈ rs →
    Holds (rs.map segmentsOf) (segmentsOf k) (valueOf payload k) (ofDict st'.rebuilt)
  again : ∀ {payload'}, (∀ k ∈ rs, valueOf payload' k = valueOf payload k) →
    ∀ repaired skipped, rs.foldl (repairKey payload') ⟨st.rebuilt, repaired, skipped⟩ =
      ⟨st'.rebuilt, repaired ++ rs, skipped⟩

theorem exists_looped (payload : Dict String Json) (keys : List String) :
    ∀ st, ∃ rs ss, Looped payload keys st (keys.foldl (repairKey payload) st) rs ss := by
  induction keys with
  | nil =>
    intro st
    exact ⟨[], [], (List.append_nil _).symm, (List.append_nil _).symm, .refl _, .refl _,
      Grown.refl _, nofun, fun _ repaired _ => by rw [List.append_nil]; rfl⟩
  | cons key keys ih =>
    intro st
    rw [List.foldl_cons]
    obtain ⟨rs, ss, hrest⟩ := ih (repairKey payload st key)
    rcases repairKey_cases payload st key with hskip | ⟨rebuilt, hplace, hempty, hrepair⟩
    · rw [hskip] at hrest ⊢
      refine ⟨rs, key :: ss, hrest.repaired, ?_, ?_, hrest.sublist.cons _, hrest.grown, hrest.holds,
        hrest.again⟩
      · rw [hrest.skipped, List.append_assoc]
        rfl
      · exact List.perm_middle.trans (hrest.perm.cons key)
    · rw [hrepair] at hrest ⊢
      refine ⟨key :: rs, ss, ?_, hrest.skipped, hrest.perm.cons key, hrest.sublist.cons_cons key,
        (grown_place hplace).trans hrest.grown, fun {k} hk => ?_,
        fun hvalues repaired skipped => ?_⟩
      · rw [hrest.repaired, List.append_assoc]
        rfl
      · rcases List.mem_cons.mp hk with rfl | hk
        · refine ((holds_place hplace).grown hrest.grown).mono ?_
          exact List.subset_cons_self _ _
        · exact (hrest.holds hk).mono (List.subset_cons_self _ _)
      · rw [List.foldl_cons,
          repairKey_of_place hempty (by rw [hvalues key List.mem_cons_self, hplace]),
          hrest.again (fun k hk => hvalues k (List.mem_cons_of_mem _ hk)), List.append_assoc]
        rfl

/-! ### The payload that is returned -/

/-- The arguments a payload has, as the repair takes them, unless they are no object. -/
def explicitArguments (payload : Dict String Json) : Option (Dict String Json) :=
  match payload.get? "arguments" with
  | none | some .null => some .empty
  | some (.obj entries) => some (Json.toDict entries)
  | some _ => none

/-- A payload without its dotted keys. -/
def strippedOf (payload : Dict String Json) : Dict String Json := without payload isDotted

/-- What the loop over the dotted keys of a payload ends with. -/
def rebuildingOf (payload existing : Dict String Json) : Rebuilding :=
  (dottedKeys payload).foldl (repairKey payload) { rebuilt := existing }

/-- The arguments with the other keys of a payload, where they are not taken. -/
def hoisted (stripped rebuilt : Dict String Json) : Dict String Json :=
  (without stripped (reservedMetaKeys.contains ·)).entries.foldl
    (fun d e => if d.contains e.1 then d else d.set e.1 e.2) rebuilt

theorem reconstruct_of_nil {payload : Dict String Json} (h : dottedKeys payload = []) :
    reconstructDottedArguments payload = payload ∧ reportedKeys payload = ([], []) := by
  simp only [reconstructDottedArguments, reportedKeys, h, if_true, and_self]

theorem reconstruct_of_some {payload existing : Dict String Json}
    (h : explicitArguments payload = some existing) (hne : dottedKeys payload ≠ []) :
    reconstructDottedArguments payload =
        rebuildArguments payload (strippedOf payload) existing (dottedKeys payload) ∧
      reportedKeys payload =
        ((rebuildingOf payload existing).repaired, (rebuildingOf payload existing).skipped) := by
  rw [explicitArguments] at h
  simp only [reconstructDottedArguments, reportedKeys, if_neg hne]
  cases hget : payload.get? "arguments" with
  | none =>
    rw [hget] at h
    obtain rfl := Option.some.inj h
    exact ⟨rfl, rfl⟩
  | some value =>
    rw [hget] at h
    cases value with
    | null | obj =>
      obtain rfl := Option.some.inj h
      exact ⟨rfl, rfl⟩
    | _ => cases h

theorem reconstruct_of_none {payload : Dict String Json} (h : explicitArguments payload = none)
    (hne : dottedKeys payload ≠ []) :
    reconstructDottedArguments payload = strippedOf payload ∧
      reportedKeys payload = ([], dottedKeys payload) := by
  rw [explicitArguments] at h
  simp only [reconstructDottedArguments, reportedKeys, if_neg hne]
  cases hget : payload.get? "arguments" with
  | none =>
    rw [hget] at h
    cases h
  | some value =>
    rw [hget] at h
    cases value with
    | null | obj => cases h
    | _ => exact ⟨rfl, rfl⟩

theorem rebuildArguments_eq (payload existing : Dict String Json) :
    rebuildArguments payload (strippedOf payload) existing (dottedKeys payload) =
      if payload.contains "arguments" then
        (strippedOf payload).set "arguments" (ofDict (rebuildingOf payload existing).rebuilt)
      else if (rebuildingOf payload existing).repaired = [] then strippedOf payload
      else
        (without (strippedOf payload) fun k => !reservedMetaKeys.contains k).set "arguments"
          (ofDict (hoisted (strippedOf payload) (rebuildingOf payload existing).rebuilt)) := rfl

/-- What a key has in the arguments it keeps when others are added. -/
theorem get?_hoisted {stripped rebuilt : Dict String Json} {k : String} {v : Json}
    (h : rebuilt.get? k = some v) : (hoisted stripped rebuilt).get? k = some v := by
  rw [hoisted]
  induction (without stripped (reservedMetaKeys.contains ·)).entries generalizing rebuilt with
  | nil => exact h
  | cons e entries ih =>
    rw [List.foldl_cons]
    refine ih ?_
    split_ifs with hcontains
    · exact h
    · refine (Dict.get?_set_of_ne fun hk => hcontains ?_).trans h
      rw [hk, Dict.contains, h]
      rfl

theorem segmentsOf_ne_nil (k : String) : segmentsOf k ≠ [] := by
  rw [segmentsOf, show "." = String.ofList ['.'] from rfl, Text.splitOn_singleton]
  exact fun h => List.splitOn_ne_nil _ _ (List.map_eq_nil_iff.mp h)

/-- What is at the path of a key is there when others are added. -/
theorem look_hoisted {stripped rebuilt : Dict String Json} {path : List String} {n : Node}
    (hne : path ≠ []) (h : look path (ofDict rebuilt) = some n) (q : List String) :
    look (path ++ q) (ofDict (hoisted stripped rebuilt)) = look (path ++ q) (ofDict rebuilt) := by
  obtain ⟨key, rest, rfl⟩ := List.exists_cons_of_ne_nil hne
  rw [look_ofDict_cons] at h
  obtain ⟨v, hv, -⟩ := Option.bind_eq_some_iff.mp h
  rw [List.cons_append, look_ofDict_cons, look_ofDict_cons, get?_hoisted hv, hv]

theorem Holds.hoisted {paths : List (List String)} {path : List String} {value : Json}
    {stripped rebuilt : Dict String Json} (h : Holds paths path value (ofDict rebuilt))
    (hne : path ≠ []) : Holds paths path value (ofDict (hoisted stripped rebuilt)) := by
  refine ⟨fun hq => ?_, fun hnone hsome => ?_⟩
  · rw [look_hoisted hne h.look_path]
    exact h.kept hq
  · rw [look_hoisted hne h.look_path] at hsome
    exact h.merged hnone hsome

theorem mem_keys_strippedOf {payload : Dict String Json} {k : String} :
    k ∈ (strippedOf payload).keys ↔ k ∈ payload.keys ∧ isDotted k = false := by
  rw [strippedOf, keys_without, List.mem_filter, Bool.not_eq_true']

/-- No dotted key is returned at the top level. -/
theorem isDotted_of_mem_keys {payload : Dict String Json} {k : String}
    (hk : k ∈ (reconstructDottedArguments payload).keys) : isDotted k = false := by
  by_cases hnil : dottedKeys payload = []
  · rw [(reconstruct_of_nil hnil).1] at hk
    by_contra hdotted
    have hmem := mem_dottedKeys.mpr ⟨hk, Bool.not_eq_false _ ▸ hdotted⟩
    rw [hnil] at hmem
    cases hmem
  · cases hexisting : explicitArguments payload with
    | none =>
      rw [(reconstruct_of_none hexisting hnil).1] at hk
      exact (mem_keys_strippedOf.mp hk).2
    | some existing =>
      rw [(reconstruct_of_some hexisting hnil).1, rebuildArguments_eq] at hk
      split_ifs at hk
      · rcases Dict.mem_keys_set.mp hk with rfl | hk
        · decide
        · exact (mem_keys_strippedOf.mp hk).2
      · exact (mem_keys_strippedOf.mp hk).2
      · rcases Dict.mem_keys_set.mp hk with rfl | hk
        · decide
        · rw [keys_without] at hk
          exact (mem_keys_strippedOf.mp (List.mem_of_mem_filter hk)).2

/-- The keys that are reported are the dotted ones. -/
theorem reportedKeys_perm (payload : Dict String Json) :
    ((reportedKeys payload).1 ++ (reportedKeys payload).2).Perm (dottedKeys payload) := by
  by_cases hnil : dottedKeys payload = []
  · rw [(reconstruct_of_nil hnil).2, hnil]
    exact .refl _
  · cases hexisting : explicitArguments payload with
    | none =>
      rw [(reconstruct_of_none hexisting hnil).2]
      exact .refl _
    | some existing =>
      obtain ⟨rs, ss, hloop⟩ := exists_looped payload (dottedKeys payload) { rebuilt := existing }
      rw [(reconstruct_of_some hexisting hnil).2, rebuildingOf, hloop.repaired, hloop.skipped]
      exact hloop.perm

/-- The arguments that are returned when there are any explicit ones, or any key is repaired. -/
theorem get?_arguments {payload existing : Dict String Json} {rs ss : List String}
    (hexisting : explicitArguments payload = some existing) (hne : dottedKeys payload ≠ [])
    (hloop : Looped payload (dottedKeys payload) { rebuilt := existing }
      (rebuildingOf payload existing) rs ss)
    (h : payload.contains "arguments" = true ∨ rs ≠ []) :
    ∃ args, (reconstructDottedArguments payload).get? "arguments" = some (ofDict args) ∧
      (payload.contains "arguments" = true → args = (rebuildingOf payload existing).rebuilt) ∧
        ∀ {k}, k ∈ rs →
          Holds (rs.map segmentsOf) (segmentsOf k) (valueOf payload k) (ofDict args) := by
  rw [(reconstruct_of_some hexisting hne).1, rebuildArguments_eq]
  split_ifs with hcontains hrepaired
  · exact ⟨_, Dict.get?_set_self _ _ _, fun _ => rfl, hloop.holds⟩
  · rw [hloop.repaired] at hrepaired
    exact absurd hrepaired (h.resolve_left hcontains)
  · exact ⟨_, Dict.get?_set_self _ _ _, fun h => absurd h hcontains,
      fun hk => (hloop.holds hk).hoisted (segmentsOf_ne_nil _)⟩

/-- The same arguments for a tool: one value, or two that are taken for one object. -/
def SameArguments (a b : Option Json) : Prop :=
  a = b ∨ ∃ v w d, a = some v ∧ b = some w ∧ asObject v = .ok d ∧ asObject w = .ok d

/-- Nothing is lost, and nothing else is made, when dotted arguments are repaired. -/
structure Conserves (payload : Dict String Json) : Prop where
  /-- Every dotted key is reported once. -/
  reported : ((reportedKeys payload).1 ++ (reportedKeys payload).2).Nodup ∧
    ∀ k, k ∈ (reportedKeys payload).1 ++ (reportedKeys payload).2 ↔
      k ∈ payload.keys ∧ isDotted k = true
  /-- The value of a key that is repaired is at its path, but for what is merged into it. -/
  repaired : ∀ k ∈ (reportedKeys payload).1, ∃ args value,
    (reconstructDottedArguments payload).get? "arguments" = some (ofDict args) ∧
      payload.get? k = some value ∧
        Holds ((reportedKeys payload).1.map segmentsOf) (segmentsOf k) value (ofDict args)
  /-- Every leaf of explicit arguments keeps its value. -/
  explicit : ∀ entries, payload.get? "arguments" = some (.obj entries) → ∀ path value,
    look path (.obj entries) = some (.leaf value) →
      ∃ args, (reconstructDottedArguments payload).get? "arguments" = some args ∧
        look path args = some (.leaf value)
  /-- The keys that are skipped might as well not be there. -/
  skipped : let others := without payload ((reportedKeys payload).2.contains ·)
    (∀ k, k ≠ "arguments" → (reconstructDottedArguments payload).get? k =
      (reconstructDottedArguments others).get? k) ∧
    SameArguments ((reconstructDottedArguments payload).get? "arguments")
      ((reconstructDottedArguments others).get? "arguments")
  /-- No dotted key is left at the top level. -/
  stripped : ∀ k ∈ (reconstructDottedArguments payload).keys, isDotted k = false

theorem exists_get?_of_mem_repaired {payload : Dict String Json} {k : String}
    (hk : k ∈ (reportedKeys payload).1) : payload.get? k = some (valueOf payload k) := by
  have hmem : k ∈ dottedKeys payload :=
    (reportedKeys_perm payload).mem_iff.mp (List.mem_append_left _ hk)
  obtain ⟨v, hv⟩ := Dict.mem_keys_iff.mp (mem_dottedKeys.mp hmem).1
  rw [valueOf, hv]
  rfl

theorem conserves_repaired (payload : Dict String Json) : ∀ k ∈ (reportedKeys payload).1,
    ∃ args value, (reconstructDottedArguments payload).get? "arguments" = some (ofDict args) ∧
      payload.get? k = some value ∧
        Holds ((reportedKeys payload).1.map segmentsOf) (segmentsOf k) value (ofDict args) := by
  intro k hk
  have hvalue := exists_get?_of_mem_repaired hk
  by_cases hnil : dottedKeys payload = []
  · rw [(reconstruct_of_nil hnil).2] at hk
    cases hk
  · cases hexisting : explicitArguments payload with
    | none =>
      rw [(reconstruct_of_none hexisting hnil).2] at hk
      cases hk
    | some existing =>
      obtain ⟨rs, ss, hloop⟩ := exists_looped payload (dottedKeys payload) { rebuilt := existing }
      have hreported : (reportedKeys payload).1 = rs := by
        rw [(reconstruct_of_some hexisting hnil).2]
        exact hloop.repaired
      rw [hreported] at hk ⊢
      obtain ⟨args, hargs, -, hholds⟩ :=
        get?_arguments hexisting hnil hloop (Or.inr (List.ne_nil_of_mem hk))
      exact ⟨args, _, hargs, hvalue, hholds hk⟩

theorem conserves_explicit {payload : Dict String Json} {entries : List (String × Json)}
    (hget : payload.get? "arguments" = some (.obj entries)) {path : List String} {n : Node}
    (hlook : look path (.obj entries) = some n) :
    ∃ args, (reconstructDottedArguments payload).get? "arguments" = some args ∧
      look path args = some n := by
  by_cases hnil : dottedKeys payload = []
  · exact ⟨.obj entries, by rw [(reconstruct_of_nil hnil).1, hget], hlook⟩
  · have hexisting : explicitArguments payload = some (Json.toDict entries) := by
      rw [explicitArguments, hget]
    obtain ⟨rs, ss, hloop⟩ :=
      exists_looped payload (dottedKeys payload) { rebuilt := Json.toDict entries }
    have hcontains : payload.contains "arguments" = true := by rw [Dict.contains, hget]; rfl
    obtain ⟨args, hargs, hrebuilt, -⟩ :=
      get?_arguments hexisting hnil hloop (Or.inl hcontains)
    refine ⟨ofDict args, hargs, ?_⟩
    rw [hrebuilt hcontains]
    exact hloop.grown.kept ((look_toDict path entries).trans hlook)

/-- Without the keys that are skipped, the dotted keys are those that are repaired. -/
theorem Looped.dottedKeys_without {payload : Dict String Json} {st st' : Rebuilding}
    {rs ss : List String} (h : Looped payload (dottedKeys payload) st st' rs ss) :
    dottedKeys (without payload (ss.contains ·)) = rs := by
  have hnodup : (rs ++ ss).Nodup := h.perm.nodup_iff.mpr (dottedKeys_nodup payload)
  have hkept : rs.filter (fun k => !ss.contains k) = rs := by
    refine List.filter_eq_self.mpr fun k hk => ?_
    have hnot : k ∉ ss := fun hss => (List.nodup_append.mp hnodup).2.2 k hk k hss rfl
    simpa using hnot
  have hgone : ss.filter (fun k => !ss.contains k) = [] := by
    refine List.filter_eq_nil_iff.mpr fun k hk => ?_
    simpa using hk
  rw [Protocol.dottedKeys_without]
  refine List.Perm.eq_of_pairwise' (r := (· ≤ ·)) ((pairwise_dottedKeys payload).filter _)
    ((pairwise_dottedKeys payload).sublist h.sublist) ?_
  refine (h.perm.symm.filter _).trans ?_
  rw [List.filter_append, hkept, hgone, List.append_nil]

theorem explicitArguments_congr {payload payload' : Dict String Json}
    (h : payload'.get? "arguments" = payload.get? "arguments") :
    explicitArguments payload' = explicitArguments payload := by
  rw [explicitArguments, explicitArguments, h]

/-- Explicit arguments are what the tool would get. -/
theorem asObject_of_explicitArguments {payload existing : Dict String Json} {value : Json}
    (h : explicitArguments payload = some existing) (hget : payload.get? "arguments" = some value) :
    asObject value = .ok existing := by
  rw [explicitArguments, hget] at h
  cases value with
  | null | obj => exact congrArg Except.ok (Option.some.inj h)
  | _ => cases h

/-- When every dotted key is skipped, what is left without them is the payload without its dotted
keys. -/
theorem strippedOf_eq_without {payload : Dict String Json} {ss : List String}
    (h : ss.Perm (dottedKeys payload)) : strippedOf payload = without payload (ss.contains ·) := by
  refine without_congr fun k hk => ?_
  rw [Bool.eq_iff_iff, List.contains_iff_mem, h.mem_iff, mem_dottedKeys]
  exact (and_iff_right hk).symm

theorem get?_others {payload : Dict String Json} {ss : List String}
    (h : ss ⊆ dottedKeys payload) {k : String} (hk : isDotted k = false) :
    (without payload (ss.contains ·)).get? k = payload.get? k := by
  rw [get?_without, if_neg]
  intro hmem
  rw [(mem_dottedKeys.mp (h (List.contains_iff_mem.mp hmem))).2] at hk
  cases hk

section Skipped

variable {payload existing : Dict String Json} {rs ss : List String}

/-- When some key is repaired, the others leave no trace. -/
theorem reconstruct_others_of_repaired (hexisting : explicitArguments payload = some existing)
    (hne : dottedKeys payload ≠ [])
    (hloop : Looped payload (dottedKeys payload) { rebuilt := existing }
      (rebuildingOf payload existing) rs ss) (hrs : rs ≠ []) :
    reconstructDottedArguments payload =
      reconstructDottedArguments (without payload (ss.contains ·)) := by
  have hsub : ss ⊆ dottedKeys payload :=
    fun k hk => hloop.perm.mem_iff.mp (List.mem_append_right _ hk)
  have hget := get?_others hsub (k := "arguments") (by decide)
  have hdotted := hloop.dottedKeys_without
  have hothers : explicitArguments (without payload (ss.contains ·)) = some existing :=
    (explicitArguments_congr hget).trans hexisting
  have hvalues : ∀ k ∈ rs, valueOf (without payload (ss.contains ·)) k = valueOf payload k := by
    intro k hk
    have hnodup : (rs ++ ss).Nodup := hloop.perm.nodup_iff.mpr (dottedKeys_nodup payload)
    have hnot : k ∉ ss := fun hss => (List.nodup_append.mp hnodup).2.2 k hk k hss rfl
    rw [valueOf, valueOf, get?_without, if_neg (by simpa using hnot)]
  have hrebuilding : rebuildingOf (without payload (ss.contains ·)) existing =
      ⟨(rebuildingOf payload existing).rebuilt, rs, []⟩ := by
    rw [rebuildingOf, hdotted]
    exact hloop.again hvalues [] []
  have hstripped : strippedOf (without payload (ss.contains ·)) = strippedOf payload :=
    without_without payload fun k hk =>
      (mem_dottedKeys.mp (hsub (List.contains_iff_mem.mp hk))).2
  have hrepaired : (rebuildingOf payload existing).repaired = rs := hloop.repaired
  rw [(reconstruct_of_some hexisting hne).1,
    (reconstruct_of_some hothers (by rw [hdotted]; exact hrs)).1, rebuildArguments_eq,
    rebuildArguments_eq, hstripped, hrebuilding, hrepaired, Dict.contains, Dict.contains, hget]

/-- When no key is repaired, the arguments are taken for what they were. -/
theorem reconstruct_others_of_not_repaired
    (hexisting : explicitArguments payload = some existing) (hne : dottedKeys payload ≠ [])
    (hloop : Looped payload (dottedKeys payload) { rebuilt := existing }
      (rebuildingOf payload existing) [] ss) :
    (∀ k, k ≠ "arguments" → (reconstructDottedArguments payload).get? k =
      (reconstructDottedArguments (without payload (ss.contains ·))).get? k) ∧
    SameArguments ((reconstructDottedArguments payload).get? "arguments")
      ((reconstructDottedArguments (without payload (ss.contains ·))).get? "arguments") := by
  have hstripped : strippedOf payload = without payload (ss.contains ·) :=
    strippedOf_eq_without hloop.perm
  have hrebuilt : (rebuildingOf payload existing).rebuilt = existing :=
    (congrArg Rebuilding.rebuilt (@Looped.again _ _ _ _ _ _ hloop payload nofun [] [])).symm
  have hrepaired : (rebuildingOf payload existing).repaired = [] := hloop.repaired
  rw [(reconstruct_of_some hexisting hne).1, rebuildArguments_eq,
    (reconstruct_of_nil hloop.dottedKeys_without).1, hrebuilt, hrepaired, if_pos rfl, ← hstripped]
  split_ifs with hcontains
  · refine ⟨fun k hk => Dict.get?_set_of_ne (Ne.symm hk), Or.inr ?_⟩
    obtain ⟨value, hvalue⟩ := Option.isSome_iff_exists.mp hcontains
    refine ⟨_, value, existing, Dict.get?_set_self _ _ _, ?_, ?_,
      asObject_of_explicitArguments hexisting hvalue⟩
    · rw [strippedOf, get?_without, if_neg (by decide), hvalue]
    · exact congrArg Except.ok (toDict_ofDict existing)
  · exact ⟨fun _ _ => rfl, Or.inl rfl⟩

end Skipped

theorem conserves_skipped (payload : Dict String Json) :
    let others := without payload ((reportedKeys payload).2.contains ·)
    (∀ k, k ≠ "arguments" → (reconstructDottedArguments payload).get? k =
      (reconstructDottedArguments others).get? k) ∧
    SameArguments ((reconstructDottedArguments payload).get? "arguments")
      ((reconstructDottedArguments others).get? "arguments") := by
  intro others
  have hsame : reconstructDottedArguments payload = reconstructDottedArguments others →
      (∀ k, k ≠ "arguments" → (reconstructDottedArguments payload).get? k =
        (reconstructDottedArguments others).get? k) ∧
      SameArguments ((reconstructDottedArguments payload).get? "arguments")
        ((reconstructDottedArguments others).get? "arguments") :=
    fun h => by rw [h]; exact ⟨fun _ _ => rfl, Or.inl rfl⟩
  by_cases hnil : dottedKeys payload = []
  · have hothers : others = payload := without_eq_self fun k _ => by
      rw [(reconstruct_of_nil hnil).2]
      rfl
    exact hsame (by rw [hothers])
  · cases hexisting : explicitArguments payload with
    | none =>
      have hothers : strippedOf payload = others := by
        refine strippedOf_eq_without ?_
        rw [(reconstruct_of_none hexisting hnil).2]
      have hdotted : dottedKeys others = [] := by
        rw [← hothers, strippedOf, dottedKeys_without]
        refine List.filter_eq_nil_iff.mpr fun k hk => ?_
        rw [(mem_dottedKeys.mp hk).2]
        exact Bool.false_ne_true
      exact hsame (by rw [(reconstruct_of_none hexisting hnil).1, (reconstruct_of_nil hdotted).1,
        hothers])
    | some existing =>
      obtain ⟨rs, ss, hloop⟩ := exists_looped payload (dottedKeys payload) { rebuilt := existing }
      have hreported : (reportedKeys payload).2 = ss := by
        rw [(reconstruct_of_some hexisting hnil).2]
        exact hloop.skipped
      have hothers : others = without payload (ss.contains ·) := by rw [← hreported]
      by_cases hrs : rs = []
      · subst hrs
        rw [hothers]
        exact reconstruct_others_of_not_repaired hexisting hnil hloop
      · exact hsame (by rw [hothers, reconstruct_others_of_repaired hexisting hnil hloop hrs])

/-- **The repair of dotted arguments conserves.** Every dotted key is reported once, as repaired or
as skipped; what is repaired is at its path, what was explicit is where it was, what is skipped
leaves no trace, and no dotted key is left. -/
theorem reconstructDottedArguments_conserves (payload : Dict String Json) : Conserves payload where
  reported := by
    refine ⟨(reportedKeys_perm payload).nodup_iff.mpr (dottedKeys_nodup payload), fun k => ?_⟩
    rw [(reportedKeys_perm payload).mem_iff, mem_dottedKeys]
  repaired := conserves_repaired payload
  explicit _ hget _ _ hlook := conserves_explicit hget hlook
  skipped := conserves_skipped payload
  stripped _ := isDotted_of_mem_keys

/-! ### The round trip -/

/-- The dotted key of a path: `"arguments.k1.k2...kn"` -/
def dottedKey (path : List String) : String := flatArgPrefix ++ ".".intercalate path

/-- An arguments object that can be flattened: its keys at every level are not empty and have no
dot, and none of its objects is empty. -/
structure Flattenable (arguments : Dict String Json) : Prop where
  keys : ∀ {path n}, look path (ofDict arguments) = some n → ∀ k ∈ path, k ≠ "" ∧ '.' ∉ k.toList
  inhabited : Json.Inhabited (ofDict arguments)

/-- A payload with one dotted key for each leaf of an arguments object, in any order, and nothing
else but the tool. -/
def Flattens (payload arguments : Dict String Json) : Prop :=
  ∀ k v, k ≠ "tool" → (payload.get? k = some v ↔
    ∃ path, look path (ofDict arguments) = some (.leaf v) ∧ k = dottedKey path)

theorem toList_dottedKey (path : List String) :
    (dottedKey path).toList = flatArgPrefix.toList ++ (".".intercalate path).toList := by
  rw [dottedKey, String.toList_append]

theorem isDotted_dottedKey (path : List String) : isDotted (dottedKey path) = true := by
  rw [isDotted, toList_dottedKey]
  exact List.isPrefixOf_iff_prefix.mpr (List.prefix_append _ _)

/-- The path of a dotted key is read back. -/
theorem segmentsOf_dottedKey {path : List String} (hne : path ≠ [])
    (h : ∀ k ∈ path, '.' ∉ k.toList) : segmentsOf (dottedKey path) = path := by
  have hdrop : ((dottedKey path).drop flatArgPrefix.length).toString = ".".intercalate path := by
    refine String.toList_injective ?_
    rw [show ((dottedKey path).drop flatArgPrefix.length).toString.toList =
      (dottedKey path).toList.drop flatArgPrefix.length from String.toList_copy_drop,
      toList_dottedKey, ← String.length_toList, List.drop_left]
  rw [segmentsOf, hdrop]
  exact Text.splitOn_intercalate '.' hne h

/-- An object as far as it has been rebuilt from its leaves at some paths. -/
structure Rebuilt (whole : Json) (done : List (List String)) (a : Json) : Prop where
  sound : ∀ {q n}, look q a = some n → look q whole = some n
  leaves : ∀ {q v}, look q a = some (.leaf v) → q ∈ done
  present : ∀ {q}, q ∈ done → ∃ n, look q a = some n

theorem rebuilt_empty (arguments : Dict String Json) :
    Rebuilt (ofDict arguments) [] (ofDict .empty) := by
  refine ⟨fun {q n} h => ?_, fun {q v} h => ?_, nofun⟩
  · cases q with
    | nil => exact h
    | cons key q => cases h
  · cases q with
    | nil => cases h
    | cons key q => cases h

/-- What a leaf that is placed makes where there was nothing. -/
theorem look_place_leaf {root root' : Dict String Json} {path : List String} {v : Json}
    (h : place root path v = some root') (hleaf : v.node = .leaf v) {q : List String} {n : Node}
    (hnone : look q (ofDict root) = none) (hsome : look q (ofDict root') = some n) :
    q = path ∧ n = .leaf v ∨ q <+: path ∧ q ≠ path ∧ n = .object := by
  rw [look_place h, placed, hnone, Option.none_or] at hsome
  split_ifs at hsome with hbelow habove
  · obtain ⟨rest, rfl⟩ := hbelow
    rw [List.drop_left] at hsome
    cases rest with
    | nil => exact Or.inl ⟨List.append_nil path, (Option.some.inj hsome).symm.trans hleaf⟩
    | cons key rest =>
      rw [look_cons_of_node_leaf hleaf] at hsome
      cases hsome
  · exact Or.inr ⟨habove, fun heq => hbelow (heq ▸ List.prefix_rfl), (Option.some.inj hsome).symm⟩

/-- One more leaf is placed. -/
theorem Rebuilt.place {whole : Json} {done : List (List String)} {root : Dict String Json}
    (h : Rebuilt whole done (ofDict root)) {path : List String} {v : Json} (hne : path ≠ [])
    (hleaf : look path whole = some (.leaf v)) (hnew : path ∉ done) :
    ∃ root', Protocol.place root path v = some root' ∧
      Rebuilt whole (done ++ [path]) (ofDict root') := by
  have hfree : look path (ofDict root) = none := by
    by_contra hsome
    obtain ⟨n, hn⟩ := Option.ne_none_iff_exists'.mp hsome
    rw [h.sound hn, Option.some_inj] at hleaf
    exact hnew (h.leaves (hleaf ▸ hn))
  have hway : ∀ q w, q <+: path → look q (ofDict root) ≠ some (.leaf w) := by
    intro q w hle hw
    by_cases hq : q = path
    · rw [hq, hfree] at hw
      cases hw
    · have hobject := look_of_isPrefixOf hleaf hle hq
      rw [h.sound hw] at hobject
      cases hobject
  obtain ⟨root', hplace⟩ := exists_place v hne hfree hway
  have hgrown := grown_place hplace
  have hnew := @look_place_leaf _ _ _ _ hplace (node_of_look_eq_leaf hleaf)
  refine ⟨root', hplace, fun {q n} hq => ?_, fun {q w} hq => ?_, fun {q} hq => ?_⟩
  · rcases hold : look q (ofDict root) with _ | m
    · rcases hnew hold hq with ⟨rfl, rfl⟩ | ⟨hle, hne, rfl⟩
      · exact hleaf
      · exact look_of_isPrefixOf hleaf hle hne
    · rw [hgrown.kept hold] at hq
      rw [← hq]
      exact h.sound hold
  · rcases hold : look q (ofDict root) with _ | m
    · rcases hnew hold hq with ⟨rfl, -⟩ | ⟨-, -, hobject⟩
      · exact List.mem_append_right _ (List.mem_singleton_self _)
      · cases hobject
    · rw [hgrown.kept hold] at hq
      exact List.mem_append_left _ (h.leaves (hold.trans hq))
  · rcases List.mem_append.mp hq with hq | hq
    · obtain ⟨n, hn⟩ := h.present hq
      exact ⟨n, hgrown.kept hn⟩
    · refine ⟨v.node, ?_⟩
      rw [List.mem_singleton.mp hq, ← List.append_nil path, look_append_place hplace, look_nil]

/-- The loop over keys that stand for leaves of one object, each for another. -/
theorem foldl_repairKey {payload : Dict String Json} {whole : Json} (keys : List String) :
    ∀ {done : List (List String)} {st : Rebuilding}, Rebuilt whole done (ofDict st.rebuilt) →
      (∀ k ∈ keys, (segmentsOf k).contains "" = false ∧
        look (segmentsOf k) whole = some (.leaf (valueOf payload k))) →
      (keys.map segmentsOf).Nodup → (∀ k ∈ keys, segmentsOf k ∉ done) →
      ∃ rebuilt, keys.foldl (repairKey payload) st = ⟨rebuilt, st.repaired ++ keys, st.skipped⟩ ∧
        Rebuilt whole (done ++ keys.map segmentsOf) (ofDict rebuilt) := by
  induction keys with
  | nil =>
    intro done st hst _ _ _
    refine ⟨st.rebuilt, by rw [List.append_nil]; rfl, ?_⟩
    rwa [List.map_nil, List.append_nil]
  | cons key keys ih =>
    intro done st hst hkeys hnodup hdone
    obtain ⟨hempty, hleaf⟩ := hkeys key List.mem_cons_self
    obtain ⟨rebuilt, hplace, hrebuilt⟩ :=
      hst.place (segmentsOf_ne_nil key) hleaf (hdone key List.mem_cons_self)
    rw [List.map_cons, List.nodup_cons] at hnodup
    rw [List.foldl_cons, repairKey_of_place hempty hplace]
    let next : Rebuilding := { st with rebuilt := rebuilt, repaired := st.repaired ++ [key] }
    have hnext : Rebuilt whole (done ++ [segmentsOf key]) (ofDict next.rebuilt) :=
      hrebuilt
    obtain ⟨rebuilt', hfold, hrebuilt'⟩ := ih hnext
      (fun k hk => hkeys k (List.mem_cons_of_mem _ hk)) hnodup.2 (by
        intro k hk hmem
        rcases List.mem_append.mp hmem with hmem | hmem
        · exact hdone k (List.mem_cons_of_mem _ hk) hmem
        · exact hnodup.1 (List.mem_map.mpr ⟨k, hk, List.mem_singleton.mp hmem⟩))
    refine ⟨rebuilt', ?_, ?_⟩
    · rw [hfold]
      simp only [next, List.append_assoc, List.singleton_append]
    · rwa [List.map_cons, List.append_cons]

/-- Rebuilt from all its leaves, an object is the same. -/
theorem Rebuilt.sameNodes {arguments rebuilt : Dict String Json} {done : List (List String)}
    (h : Rebuilt (ofDict arguments) done (ofDict rebuilt)) (hflat : Flattenable arguments)
    (hall : ∀ path v, look path (ofDict arguments) = some (.leaf v) → path ∈ done) :
    SameNodes (ofDict rebuilt) (ofDict arguments) := by
  intro path
  rcases hpath : look path (ofDict arguments) with _ | n
  · by_contra hsome
    obtain ⟨m, hm⟩ := Option.ne_none_iff_exists'.mp hsome
    rw [h.sound hm] at hpath
    cases hpath
  · cases n with
    | leaf v =>
      obtain ⟨m, hm⟩ := h.present (hall path v hpath)
      rw [hm, ← hpath, h.sound hm]
    | object =>
      obtain ⟨rest, v, hv⟩ := exists_leaf_append hflat.inhabited hpath
      obtain ⟨m, hm⟩ := h.present (hall _ v hv)
      refine look_append hm fun hrest => ?_
      rw [hrest, List.append_nil, hpath] at hv
      cases hv

section RoundTrip

variable {payload arguments : Dict String Json}

/-- The dotted keys of a flattened payload stand for the leaves. -/
theorem Flattens.look_of_mem (h : Flattens payload arguments) (hflat : Flattenable arguments)
    {k : String} (hk : k ∈ dottedKeys payload) :
    (segmentsOf k).contains "" = false ∧ dottedKey (segmentsOf k) = k ∧
      look (segmentsOf k) (ofDict arguments) = some (.leaf (valueOf payload k)) := by
  obtain ⟨hmem, hdotted⟩ := mem_dottedKeys.mp hk
  obtain ⟨v, hv⟩ := Dict.mem_keys_iff.mp hmem
  have htool : k ≠ "tool" := by
    rintro rfl
    revert hdotted
    decide
  obtain ⟨path, hpath, rfl⟩ := (h k v htool).mp hv
  have hne : path ≠ [] := by
    rintro rfl
    cases hpath
  have hsegments : segmentsOf (dottedKey path) = path :=
    segmentsOf_dottedKey hne fun k hk => (hflat.keys hpath k hk).2
  rw [hsegments, valueOf, hv]
  refine ⟨?_, rfl, hpath⟩
  rw [Bool.eq_false_iff]
  exact fun hempty => (hflat.keys hpath _ (List.contains_iff_mem.mp hempty)).1 rfl

theorem Flattens.isDotted (h : Flattens payload arguments) {k : String} (hk : k ∈ payload.keys)
    (htool : k ≠ "tool") : isDotted k = true := by
  obtain ⟨v, hv⟩ := Dict.mem_keys_iff.mp hk
  obtain ⟨path, -, rfl⟩ := (h k v htool).mp hv
  exact isDotted_dottedKey path

/-- Each leaf has its key. -/
theorem Flattens.mem_of_look (h : Flattens payload arguments) (hflat : Flattenable arguments)
    {path : List String} {v : Json} (hpath : look path (ofDict arguments) = some (.leaf v)) :
    dottedKey path ∈ dottedKeys payload ∧ segmentsOf (dottedKey path) = path := by
  have hdotted := isDotted_dottedKey path
  have htool : dottedKey path ≠ "tool" := by
    intro htool
    rw [htool] at hdotted
    revert hdotted
    decide
  have hne : path ≠ [] := by
    rintro rfl
    cases hpath
  exact ⟨mem_dottedKeys.mpr ⟨Dict.mem_keys_iff.mpr ⟨v, (h _ v htool).mpr ⟨path, hpath, rfl⟩⟩,
    hdotted⟩, segmentsOf_dottedKey hne fun k hk => (hflat.keys hpath k hk).2⟩

/-- **Flattened arguments are repaired.** A payload that has a dotted key for each leaf of an
arguments object, in any order, and nothing else but the tool, is repaired to that object: every
key is repaired, none is skipped, and the tool gets what was flattened. -/
theorem normaliseToolArguments_reconstruct (R : Formats) (hflat : Flattenable arguments)
    (h : Flattens payload arguments) :
    (∃ rebuilt, normaliseToolArguments R (reconstructDottedArguments payload) = .ok rebuilt ∧
      SameNodes (ofDict rebuilt) (ofDict arguments)) ∧
    (∀ k, k ∈ (reportedKeys payload).1 ↔ k ∈ payload.keys ∧ k ≠ "tool") ∧
      (reportedKeys payload).2 = [] := by
  have hinjective : ((dottedKeys payload).map segmentsOf).Nodup := by
    refine List.Nodup.map_on (fun k hk k' hk' heq => ?_) (dottedKeys_nodup payload)
    rw [← (h.look_of_mem hflat hk).2.1, heq, (h.look_of_mem hflat hk').2.1]
  let start : Rebuilding := { rebuilt := .empty }
  have hstart : Rebuilt (ofDict arguments) [] (ofDict start.rebuilt) := rebuilt_empty arguments
  obtain ⟨rebuilt, hfold, hrebuilt⟩ := foldl_repairKey (dottedKeys payload) hstart
    (fun k hk => ⟨(h.look_of_mem hflat hk).1, (h.look_of_mem hflat hk).2.2⟩) hinjective
    fun _ _ => List.not_mem_nil
  have hnone : payload.get? "arguments" = none := by
    by_contra hsome
    obtain ⟨v, hv⟩ := Option.ne_none_iff_exists'.mp hsome
    have hdotted := h.isDotted (Dict.mem_keys_iff.mpr ⟨v, hv⟩) (by decide)
    revert hdotted
    decide
  have hexisting : explicitArguments payload = some .empty := by rw [explicitArguments, hnone]
  have hne : dottedKeys payload ≠ [] := by
    obtain ⟨path, v, hpath⟩ := exists_leaf hflat.inhabited
    exact List.ne_nil_of_mem (h.mem_of_look hflat hpath).1
  have hrebuilding : rebuildingOf payload .empty = ⟨rebuilt, dottedKeys payload, []⟩ := hfold
  obtain ⟨hresult, hreported⟩ := reconstruct_of_some hexisting hne
  have hothers : hoisted (strippedOf payload) rebuilt = rebuilt := by
    have hnothing : (without (strippedOf payload) (reservedMetaKeys.contains ·)).entries = [] := by
      rw [entries_without]
      refine List.filter_eq_nil_iff.mpr fun e he => ?_
      obtain ⟨hmem, hdotted⟩ := mem_keys_strippedOf.mp (List.mem_map_of_mem he)
      have htool : e.1 = "tool" := by
        by_contra htool
        rw [h.isDotted hmem htool] at hdotted
        cases hdotted
      rw [htool]
      decide
    rw [hoisted, hnothing]
    rfl
  refine ⟨⟨rebuilt, ?_, hrebuilt.sameNodes hflat ?_⟩, ?_, ?_⟩
  · rw [hresult, rebuildArguments_eq, hrebuilding, Dict.contains, hnone, Option.isSome_none,
      if_neg Bool.false_ne_true, if_neg hne, hothers, normaliseToolArguments, Dict.get?_set_self]
    simp only [ofDict, coerceObject, asObject, toDict_ofDict]
  · intro path v hpath
    obtain ⟨hmem, hsegments⟩ := h.mem_of_look hflat hpath
    exact List.mem_append_right _ (List.mem_map.mpr ⟨_, hmem, hsegments⟩)
  · intro k
    rw [hreported, hrebuilding, mem_dottedKeys]
    refine and_congr_right fun hmem => ⟨?_, fun htool => h.isDotted hmem htool⟩
    rintro hdotted rfl
    revert hdotted
    decide
  · rw [hreported, hrebuilding]

/-- A nested object, flattened with its keys in another order than they have in it. -/
theorem normaliseToolArguments_reconstruct_nested :
    let payload := ((Dict.empty.set "arguments.limit" (.int 5)).set "tool"
      (.str "jira__search")).set "arguments.filter.status" (.str "open")
    let arguments := (Dict.empty.set "filter" (.obj [("status", .str "open")])).set "limit" (.int 5)
    ∃ rebuilt, normaliseToolArguments plainFormats (reconstructDottedArguments payload) =
        .ok rebuilt ∧
      SameNodes (ofDict rebuilt) (ofDict arguments) := by
  intro payload arguments
  have hlook : ∀ path n, look path (ofDict arguments) = some n ↔
      path = [] ∧ n = .object ∨ path = ["filter"] ∧ n = .object ∨
        path = ["filter", "status"] ∧ n = .leaf (.str "open") ∨
          path = ["limit"] ∧ n = .leaf (.int 5) := by
    intro path n
    rcases path with _ | ⟨k, path⟩
    · simp [ofDict, node, @eq_comm _ n]
    · rw [look_ofDict_cons, Dict.get?_set, Dict.get?_set, Dict.get?_empty]
      by_cases hlimit : "limit" = k
      · subst hlimit
        cases path <;> simp [node, look, @eq_comm _ n]
      · by_cases hfilter : "filter" = k
        · subst hfilter
          rcases path with _ | ⟨k', path⟩
          · simp [node, @eq_comm _ n]
          · by_cases hstatus : "status" = k'
            · subst hstatus
              cases path <;> simp [node, look, toDict, @eq_comm _ n]
            · simp [look, toDict, Dict.get?_set, hstatus, Ne.symm hstatus]
        · simp [hlimit, hfilter, Ne.symm hlimit, Ne.symm hfilter]
  have hflat : Flattenable arguments := by
    refine ⟨fun {path n} hpath => ?_, fun path hpath => ?_⟩
    · rcases (hlook path n).mp hpath with ⟨rfl, -⟩ | ⟨rfl, -⟩ | ⟨rfl, -⟩ | ⟨rfl, -⟩ <;> decide
    · rcases (hlook path _).mp hpath with ⟨rfl, -⟩ | ⟨rfl, -⟩ | ⟨rfl, h⟩ | ⟨rfl, h⟩
      · exact ⟨"limit", _, rfl⟩
      · exact ⟨"status", _, rfl⟩
      · cases h
      · cases h
  have hflattens : Flattens payload arguments := by
    intro k v htool
    have hget : payload.get? k = some v ↔ k = "arguments.limit" ∧ v = .int 5 ∨
        k = "arguments.filter.status" ∧ v = .str "open" := by
      rw [Dict.get?_set, Dict.get?_set, Dict.get?_set, Dict.get?_empty, if_neg (Ne.symm htool)]
      by_cases hstatus : "arguments.filter.status" = k
      · subst hstatus
        simp [@eq_comm _ v]
      · by_cases hlimit : "arguments.limit" = k
        · subst hlimit
          simp [@eq_comm _ v]
        · simp [hstatus, hlimit, Ne.symm hstatus, Ne.symm hlimit]
    rw [hget]
    constructor
    · rintro (⟨rfl, rfl⟩ | ⟨rfl, rfl⟩)
      · exact ⟨["limit"], rfl, by decide⟩
      · exact ⟨["filter", "status"], rfl, by decide⟩
    · rintro ⟨path, hpath, rfl⟩
      rcases (hlook path _).mp hpath with ⟨-, h⟩ | ⟨-, h⟩ | ⟨rfl, h⟩ | ⟨rfl, h⟩
      · cases h
      · cases h
      · exact Or.inr ⟨by decide, Node.leaf.inj h⟩
      · exact Or.inl ⟨by decide, Node.leaf.inj h⟩
  exact (normaliseToolArguments_reconstruct plainFormats hflat hflattens).1

end RoundTrip

end Protocol

end SlmMcpHub
