import SlmMcpHub.Library.Json

/-!
# Nested objects by their paths

A nested object is read along paths of keys: at the end of a path there is an object, or a value
that is none, or nothing. Two objects with the same nodes at all paths are the same but for the
order of their entries.

## Main definitions

* `Json.look`, `Json.at?` — the node and the value at the end of a path
* `Json.SameNodes` — the same value, up to the order of entries
* `Json.Grown` — an object to which something has been added along some paths
* `Json.updateAt` — change what is at the end of a path

## Main results

* `Json.look_append` — a path that goes on from another
* `Json.Grown.trans` — additions compose
* `Json.at?_updateAt`, `Json.at?_updateAt_of_not_prefix` — what a change at a path changes
-/

namespace SlmMcpHub

namespace Json

/-- What is at the end of a path: an object, or a value that is none. -/
inductive Node where
  | object
  | leaf (value : Json)

/-- The node a value is. -/
def node : Json → Node
  | .obj _ => .object
  | value => .leaf value

/-- The node at the end of a path of keys. -/
def look : List String → Json → Option Node
  | [], value => some value.node
  | key :: path, .obj entries => ((toDict entries).get? key).bind (look path)
  | _ :: _, _ => none

/-- The same nodes at all paths. -/
def SameNodes (a b : Json) : Prop := ∀ path, look path a = look path b

@[simp] theorem look_nil (value : Json) : look [] value = some value.node := rfl

@[simp] theorem look_cons_obj (key : String) (path : List String)
    (entries : List (String × Json)) :
    look (key :: path) (.obj entries) = ((toDict entries).get? key).bind (look path) := rfl

theorem node_eq_leaf_iff {value v : Json} :
    value.node = .leaf v ↔ value = v ∧ ∀ entries, v ≠ .obj entries := by
  cases value with
  | obj entries =>
    refine ⟨nofun, ?_⟩
    rintro ⟨rfl, hne⟩
    exact absurd rfl (hne entries)
  | _ =>
    refine ⟨fun h => ?_, fun h => congrArg Node.leaf h.1⟩
    obtain rfl := Node.leaf.inj h
    exact ⟨rfl, nofun⟩

/-- Below a value that is no object there is nothing. -/
theorem look_cons_of_node_leaf {key : String} {path : List String} {value v : Json}
    (h : value.node = .leaf v) : look (key :: path) value = none := by
  cases value with
  | obj entries => cases h
  | _ => rfl

/-- What a path ends in when it ends in no object. -/
theorem node_of_look_eq_leaf {path : List String} {value v : Json}
    (h : look path value = some (.leaf v)) : v.node = .leaf v := by
  induction path generalizing value with
  | nil =>
    obtain ⟨rfl, -⟩ := node_eq_leaf_iff.mp (Option.some.inj h)
    exact Option.some.inj h
  | cons key path ih =>
    cases value with
    | obj entries =>
      obtain ⟨w, -, hw⟩ := Option.bind_eq_some_iff.mp h
      exact ih hw
    | _ => cases h

/-- The entries of an object as a dictionary make the same object. -/
@[simp] theorem look_toDict (path : List String) (entries : List (String × Json)) :
    look path (.obj (toDict entries).entries) = look path (.obj entries) := by
  cases path with
  | nil => rfl
  | cons key path => rw [look_cons_obj, look_cons_obj, toDict, toDict, Dict.setAll_empty_entries]

/-- The node under a key of a dictionary. -/
theorem look_cons_entries (key : String) (path : List String) (d : Dict String Json) :
    look (key :: path) (.obj d.entries) = (d.get? key).bind (look path) := by
  rw [look_cons_obj, toDict, Dict.setAll_empty_entries]

/-- What is at a path that goes on from another, when there is a value at that. -/
theorem look_append {path : List String} : ∀ {value : Json} {rest : List String} {n : Node},
    look (path ++ rest) value = some n → rest ≠ [] → look path value = some .object := by
  induction path with
  | nil =>
    intro value rest n h hrest
    obtain ⟨key, rest, rfl⟩ := List.exists_cons_of_ne_nil hrest
    cases value with
    | obj entries => rfl
    | _ => cases h
  | cons key path ih =>
    intro value rest n h hrest
    cases value with
    | obj entries =>
      rw [List.cons_append, look_cons_obj] at h
      obtain ⟨v, hv, hrest'⟩ := Option.bind_eq_some_iff.mp h
      rw [look_cons_obj, hv]
      exact ih hrest' hrest
    | _ => cases h

/-- On the way to a node there are objects. -/
theorem look_of_isPrefixOf {path path' : List String} {value : Json} {n : Node}
    (h : look path' value = some n) (hle : path <+: path') (hne : path ≠ path') :
    look path value = some .object := by
  obtain ⟨rest, rfl⟩ := hle
  refine look_append h fun hrest => hne ?_
  rw [hrest, List.append_nil]

/-- Where there is nothing, there is nothing further on. -/
theorem look_eq_none_of_isPrefixOf {path path' : List String} {value : Json}
    (h : look path value = none) (hle : path <+: path') : look path' value = none := by
  by_contra hsome
  obtain ⟨n, hn⟩ := Option.ne_none_iff_exists'.mp hsome
  by_cases heq : path = path'
  · exact hsome (heq ▸ h)
  · rw [look_of_isPrefixOf hn hle heq] at h
    cases h

/-- No object in a value is empty. -/
def Inhabited (value : Json) : Prop :=
  ∀ path, look path value = some .object → ∃ key n, look (path ++ [key]) value = some n

theorem Inhabited.get? {entries : List (String × Json)} {key : String} {value : Json}
    (h : Inhabited (.obj entries)) (hvalue : (toDict entries).get? key = some value) :
    Inhabited value := by
  have hbelow : ∀ path, look (key :: path) (.obj entries) = look path value := by
    intro path
    rw [look_cons_obj, hvalue, Option.bind_some]
  intro path hpath
  obtain ⟨key', n, hn⟩ := h (key :: path) (by rw [hbelow, hpath])
  exact ⟨key', n, by rw [← hbelow, ← List.cons_append, hn]⟩

/-- A value without an empty object has something in it that is no object. -/
theorem exists_leaf : ∀ {value : Json}, Inhabited value →
    ∃ path v, look path value = some (.leaf v)
  | .obj entries, h => by
    obtain ⟨key, n, hn⟩ := h [] rfl
    rw [List.nil_append, look_cons_obj] at hn
    obtain ⟨value, hvalue, -⟩ := Option.bind_eq_some_iff.mp hn
    have hmem : (key, value) ∈ entries := by
      rw [toDict, Dict.get?_setAll, Dict.get?_empty, Option.or_none] at hvalue
      exact Dict.lastOf_mem hvalue
    have hsize : sizeOf value < sizeOf (Json.obj entries) := by
      have := List.sizeOf_lt_of_mem hmem
      simp only [Prod.mk.sizeOf_spec, obj.sizeOf_spec] at this ⊢
      omega
    obtain ⟨path, v, hv⟩ := exists_leaf (h.get? hvalue)
    exact ⟨key :: path, v, by rw [look_cons_obj, hvalue, Option.bind_some, hv]⟩
  | .null, _ | .bool _, _ | .int _, _ | .float _, _ | .str _, _ | .arr _, _ => ⟨[], _, rfl⟩
termination_by value => sizeOf value
decreasing_by exact hsize

theorem exists_leaf_append {path : List String} : ∀ {value : Json} {n : Node}, Inhabited value →
    look path value = some n → ∃ rest v, look (path ++ rest) value = some (.leaf v) := by
  induction path with
  | nil =>
    intro value n h _
    exact exists_leaf h
  | cons key path ih =>
    intro value n h hpath
    cases value with
    | obj entries =>
      obtain ⟨w, hw, hrest⟩ := Option.bind_eq_some_iff.mp hpath
      obtain ⟨rest, v, hv⟩ := ih (h.get? hw) hrest
      exact ⟨rest, v, by rw [List.cons_append, look_cons_obj, hw, Option.bind_some, hv]⟩
    | _ => cases hpath

/-! ### Additions -/

/-- All that was in an object is there, and what is new is along one of the paths, where there was
nothing. -/
structure Grown (paths : List (List String)) (a b : Json) : Prop where
  kept : ∀ {path n}, look path a = some n → look path b = some n
  new : ∀ {path n}, look path a = none → look path b = some n →
    ∃ p ∈ paths, look p a = none ∧ (p <+: path ∨ path <+: p)

namespace Grown

variable {paths paths' : List (List String)} {a b c : Json}

theorem refl (a : Json) : Grown [] a a := by
  refine ⟨id, fun hnone hsome => ?_⟩
  rw [hnone] at hsome
  cases hsome

theorem eq_none (h : Grown paths a b) {path : List String} (hnone : look path b = none) :
    look path a = none := by
  by_contra hsome
  obtain ⟨n, hn⟩ := Option.ne_none_iff_exists'.mp hsome
  rw [h.kept hn] at hnone
  cases hnone

theorem trans (h : Grown paths a b) (h' : Grown paths' b c) : Grown (paths ++ paths') a c := by
  refine ⟨fun ha => h'.kept (h.kept ha), fun {path n} hnone hsome => ?_⟩
  rcases hb : look path b with _ | m
  · obtain ⟨p, hp, hpb, hrest⟩ := h'.new hb hsome
    exact ⟨p, List.mem_append_right _ hp, h.eq_none hpb, hrest⟩
  · obtain ⟨p, hp, hpa, hrest⟩ := h.new hnone hb
    exact ⟨p, List.mem_append_left _ hp, hpa, hrest⟩

end Grown

/-! ### Changing what is at a path -/

/-- The value at the end of a path. -/
def at? : List String → Json → Option Json
  | [], value => some value
  | key :: path, .obj entries => ((toDict entries).get? key).bind (at? path)
  | _ :: _, _ => none

theorem at?_cons_obj (key : String) (path : List String) (entries : List (String × Json)) :
    at? (key :: path) (.obj entries) = ((toDict entries).get? key).bind (at? path) := rfl

theorem at?_cons_entries (key : String) (path : List String) (d : Dict String Json) :
    at? (key :: path) (.obj d.entries) = (d.get? key).bind (at? path) := by
  rw [at?_cons_obj, toDict, Dict.setAll_empty_entries]

section UpdateAt

variable {ε : Type} {e : ε} {f : Json → Except ε Json}

/-- Change what is at the end of a path. Where there is nothing on the way, there is an empty object
from then on; a value that is no object is in the way. -/
def updateAt (e : ε) (f : Json → Except ε Json) : List String → Json → Except ε Json
  | [], value => f value
  | key :: path, .obj entries =>
    (updateAt e f path (((toDict entries).get? key).getD (.obj []))).map fun value =>
      .obj ((toDict entries).set key value).entries
  | _ :: _, _ => .error e

theorem updateAt_cons_eq_ok_iff {key : String} {path : List String}
    {entries : List (String × Json)} {r : Json} :
    updateAt e f (key :: path) (.obj entries) = .ok r ↔
      ∃ value, updateAt e f path (((toDict entries).get? key).getD (.obj [])) = .ok value ∧
        r = .obj ((toDict entries).set key value).entries := by
  rw [updateAt]
  cases updateAt e f path (((toDict entries).get? key).getD (.obj [])) with
  | error e' => simp [Except.map]
  | ok value => simp [Except.map, @eq_comm _ r]

/-- Nothing is in the way to the end of a path. -/
def Navigable (path : List String) (value : Json) : Prop :=
  ∀ p, p <+: path → p ≠ path → ∀ n, look p value = some n → n = .object

theorem navigable_nil (value : Json) : Navigable [] value :=
  fun _ hp hne => absurd (List.prefix_nil.mp hp) hne

theorem navigable_cons_obj {key : String} {path : List String} {entries : List (String × Json)} :
    Navigable (key :: path) (.obj entries) ↔
      Navigable path (((toDict entries).get? key).getD (.obj [])) := by
  constructor
  · intro h p hp hne n hn
    cases hget : (toDict entries).get? key with
    | none =>
      rw [hget] at hn
      cases p with
      | nil => exact (Option.some.inj hn).symm
      | cons key' p => cases hn
    | some value =>
      rw [hget] at hn
      refine h (key :: p) (List.cons_prefix_cons.mpr ⟨rfl, hp⟩) (by simpa using hne) n ?_
      rw [look_cons_obj, hget]
      exact hn
  · intro h p hp hne n hn
    cases p with
    | nil => exact (Option.some.inj hn).symm
    | cons key' p =>
      obtain ⟨rfl, hle⟩ := List.cons_prefix_cons.mp hp
      obtain ⟨value, hget, hvalue⟩ := Option.bind_eq_some_iff.mp hn
      rw [hget] at h
      exact h p hle (by simpa using hne) n hvalue

/-- What is put at the end of a path gets there just when nothing is in the way. -/
theorem exists_updateAt_iff {path : List String} (w : Json) : ∀ {value : Json},
    (∃ r, updateAt e (fun _ => .ok w) path value = .ok r) ↔ Navigable path value := by
  induction path with
  | nil => exact ⟨fun _ => navigable_nil _, fun _ => ⟨w, rfl⟩⟩
  | cons key path ih =>
    intro value
    cases value with
    | obj entries =>
      rw [navigable_cons_obj, ← ih, updateAt]
      cases updateAt e (fun _ => .ok w) path (((toDict entries).get? key).getD (.obj [])) with
      | error e' => exact ⟨nofun, nofun⟩
      | ok r => exact ⟨fun _ => ⟨r, rfl⟩, fun _ => ⟨_, rfl⟩⟩
    | _ =>
      refine ⟨nofun, fun h => ?_⟩
      have := h [] List.nil_prefix nofun _ rfl
      cases this

/-- At the end of the path there is what has been put there. -/
theorem at?_updateAt {path : List String} {w : Json} : ∀ {value r : Json},
    updateAt e (fun _ => .ok w) path value = .ok r → at? path r = some w := by
  induction path with
  | nil =>
    intro value r h
    rw [← Except.ok.inj h]
    rfl
  | cons key path ih =>
    intro value r h
    cases value with
    | obj entries =>
      obtain ⟨v, hv, rfl⟩ := updateAt_cons_eq_ok_iff.mp h
      rw [at?_cons_entries, Dict.get?_set_self, Option.bind_some]
      exact ih hv
    | _ => cases h

/-- Away from the path, all is as it was. -/
theorem at?_updateAt_of_not_prefix {path : List String} {w : Json} : ∀ {value r : Json}
    {q : List String}, updateAt e (fun _ => .ok w) path value = .ok r → ¬ path <+: q →
      ¬ q <+: path → at? q r = at? q value := by
  induction path with
  | nil => exact fun _ h => absurd List.nil_prefix h
  | cons key path ih =>
    intro value r q h hpath hq
    cases value with
    | obj entries =>
      obtain ⟨v, hv, rfl⟩ := updateAt_cons_eq_ok_iff.mp h
      cases q with
      | nil => exact absurd List.nil_prefix hq
      | cons key' q =>
        rw [at?_cons_entries, at?_cons_obj]
        by_cases hkey : key = key'
        · subst hkey
          have hpath' : ¬ path <+: q := fun hle => hpath (List.cons_prefix_cons.mpr ⟨rfl, hle⟩)
          have hq' : ¬ q <+: path := fun hle => hq (List.cons_prefix_cons.mpr ⟨rfl, hle⟩)
          have hsame := ih hv hpath' hq'
          rw [Dict.get?_set_self, Option.bind_some, hsame]
          cases hget : (toDict entries).get? key with
          | some u => rfl
          | none =>
            -- Nothing was below the key, and nothing is below an empty object.
            cases q with
            | nil => exact absurd List.nil_prefix hq'
            | cons key' q => rfl
        · rw [Dict.get?_set_of_ne hkey]
    | _ => cases h

end UpdateAt

end Json

end SlmMcpHub
