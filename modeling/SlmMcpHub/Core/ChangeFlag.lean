import SlmMcpHub.Core.Registry

/-!
# The change flag of a sync

`sync` promises "True if any capability changed, False if identical to before", and compares the
key sets of three dictionaries to find out. What it can miss is fixed by what it does not read:
the entries under the keys, and the resource templates altogether.

A registry holds what the last map of servers published, so a call is described by two maps, the
one synced before it and its own. `SilentUpgrade` names the pairs of maps whose difference the
flag does not see.

## Main results

* `sync_snd_eq_false_iff` — what the flag decides
* `Publishes.unchanged_of_flag_iff` — a call that returns `False` leaves everything registered as
  it was exactly when it is not a silent upgrade
-/

namespace SlmMcpHub

namespace Registry

/-- The kinds whose keys the flag compares. -/
def comparedKinds : List Kind := [.tool, .resource, .prompt]

/-- The same entry, or none, under every name of every kind. -/
def SameRegistered (r r' : Registry) : Prop :=
  ∀ k name, (r.table k).get? name = (r'.table k).get? name

/-- The registry holds what a map of servers publishes. -/
def Publishes (r : Registry) (servers : Dict String Capabilities) : Prop :=
  ∀ k name, (r.table k).get? name = Dict.lastOf (published k servers) name

/-- A sequence of syncs, starting from a fresh registry. -/
def syncAll (maps : List (Dict String Capabilities)) : Registry :=
  maps.foldl (fun r servers => (r.sync servers).1) .empty

/-- The map the last sync of a sequence was given; a fresh registry is as after an empty one. -/
def lastMap (maps : List (Dict String Capabilities)) : Dict String Capabilities :=
  maps.getLast?.getD .empty

/-- The entry a map of servers publishes under a name, if any. -/
def publishedUnder (k : Kind) (servers : Dict String Capabilities) (name : String) :
    Option RegisteredCapability :=
  Dict.lastOf (published k servers) name

/-- **The upgrades the flag does not see.** Tools, resources and prompts are published under the
same names as before, and under one of these names stands another definition, owner or original
name, or some resource template is new, gone or different. -/
def SilentUpgrade (prev next : Dict String Capabilities) : Prop :=
  (∀ k ∈ comparedKinds, ∀ name,
      (publishedUnder k prev name).isSome = (publishedUnder k next name).isSome) ∧
    ((∃ k ∈ comparedKinds, ∃ name cap cap', publishedUnder k prev name = some cap ∧
        publishedUnder k next name = some cap' ∧ cap ≠ cap') ∨
      ∃ name, publishedUnder .resourceTemplate prev name ≠
        publishedUnder .resourceTemplate next name)

theorem publishes_empty : Registry.empty.Publishes .empty := by
  intro k name
  rw [table_empty]
  rfl

theorem publishes_sync (r : Registry) (servers : Dict String Capabilities) :
    (r.sync servers).1.Publishes servers :=
  fun k name => get?_table_sync r servers k name

theorem publishes_syncAll (maps : List (Dict String Capabilities)) :
    (syncAll maps).Publishes (lastMap maps) := by
  rcases List.eq_nil_or_concat maps with rfl | ⟨init, servers, rfl⟩
  · exact publishes_empty
  · rw [List.concat_eq_append, syncAll, List.foldl_concat, lastMap, List.getLast?_concat]
    exact publishes_sync _ servers

theorem keysDiffer_eq_false_iff {a b : Dict String RegisteredCapability} :
    keysDiffer a b = false ↔ ∀ name, (a.get? name).isSome = (b.get? name).isSome := by
  have hkeys : ∀ (d : Dict String RegisteredCapability) name,
      name ∈ d.keys ↔ (d.get? name).isSome = true := by
    intro d name
    rw [Dict.mem_keys_iff, Option.isSome_iff_exists]
  simp only [keysDiffer, Bool.not_eq_eq_eq_not, Bool.not_false, Bool.and_eq_true, List.all_eq_true,
    List.contains_iff_mem, hkeys]
  constructor
  · rintro ⟨hab, hba⟩ name
    exact Bool.eq_iff_iff.mpr ⟨hab name, hba name⟩
  · exact fun h => ⟨fun name hn => h name ▸ hn, fun name hn => (h name).symm ▸ hn⟩

/-- **What the flag decides**: whether the names of tools, resources and prompts are the same. -/
theorem sync_snd_eq_false_iff (r : Registry) (servers : Dict String Capabilities) :
    (r.sync servers).2 = false ↔ ∀ k ∈ comparedKinds, ∀ name,
      (publishedUnder k servers name).isSome = ((r.table k).get? name).isSome := by
  have hflag : (r.sync servers).2 = false ↔ ∀ k ∈ comparedKinds,
      keysDiffer ((r.sync servers).1.table k) (r.table k) = false := by
    simp only [comparedKinds, List.forall_mem_cons, List.not_mem_nil, false_implies,
      implies_true, and_true]
    simp only [sync, Bool.or_eq_false_iff, and_assoc]
    rfl
  rw [hflag]
  refine forall_congr' fun k => imp_congr_right fun _ => ?_
  rw [keysDiffer_eq_false_iff]
  refine forall_congr' fun name => ?_
  rw [get?_table_sync]
  rfl

/-- When the names are the same, two maps publish different things only as a silent upgrade. -/
theorem silentUpgrade_iff {prev next : Dict String Capabilities}
    (hnames : ∀ k ∈ comparedKinds, ∀ name,
      (publishedUnder k prev name).isSome = (publishedUnder k next name).isSome) :
    SilentUpgrade prev next ↔
      ¬ ∀ k name, publishedUnder k prev name = publishedUnder k next name := by
  constructor
  · rintro ⟨-, ⟨k, -, name, cap, cap', hcap, hcap', hne⟩ | ⟨name, hne⟩⟩ hall
    · rw [hall k name, hcap', Option.some.injEq] at hcap
      exact hne hcap.symm
    · exact hne (hall .resourceTemplate name)
  · intro hall
    refine ⟨hnames, ?_⟩
    push Not at hall
    obtain ⟨k, name, hne⟩ := hall
    by_cases hk : k ∈ comparedKinds
    · left
      cases hcap : publishedUnder k prev name with
      | none =>
        have := hnames k hk name
        rw [hcap] at this hne
        exact absurd (Option.isNone_iff_eq_none.mp (by simpa using this.symm)) hne.symm
      | some cap =>
        obtain ⟨cap', hcap'⟩ := Option.isSome_iff_exists.mp
          ((hnames k hk name).symm.trans (by rw [hcap]; rfl))
        refine ⟨k, hk, name, cap, cap', hcap, hcap', fun h => hne ?_⟩
        rw [hcap, hcap', h]
    · obtain rfl : k = .resourceTemplate := by cases k <;> simp_all [comparedKinds]
      exact Or.inr ⟨name, hne⟩

/-- **When the flag keeps its promise.** A sync of a registry that holds what a map published either
returns `True`, or leaves everything registered as it was, exactly when it is not a silent upgrade
of that map. -/
theorem Publishes.unchanged_of_flag_iff {r : Registry} {prev next : Dict String Capabilities}
    (h : r.Publishes prev) :
    ((r.sync next).2 = false → SameRegistered r (r.sync next).1) ↔ ¬ SilentUpgrade prev next := by
  have hget : ∀ k name, (r.table k).get? name = publishedUnder k prev name := h
  have hsame : SameRegistered r (r.sync next).1 ↔
      ∀ k name, publishedUnder k prev name = publishedUnder k next name := by
    simp only [SameRegistered, hget, get?_table_sync]
    rfl
  simp only [sync_snd_eq_false_iff, hget, hsame]
  by_cases hnames : ∀ k ∈ comparedKinds, ∀ name,
      (publishedUnder k prev name).isSome = (publishedUnder k next name).isSome
  · rw [silentUpgrade_iff hnames, not_not]
    exact ⟨fun h => h fun k hk name => (hnames k hk name).symm, fun h _ => h⟩
  · constructor
    · exact fun _ h => hnames h.1
    · exact fun _ h => absurd (fun k hk name => (h k hk name).symm) hnames

end Registry

end SlmMcpHub
