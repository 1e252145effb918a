import Mathlib.Data.String.Basic
import SlmMcpHub.Core.ConfigIO
import SlmMcpHub.Library.Fallible
import SlmMcpHub.Library.Rank

/-!
# Snapshots of the configuration

`_snapshot_existing` and `restore_snapshot` of `core/config_io.py`: before the configuration is
replaced it is copied to the directory of the snapshots, of which only the newest by name are kept.
A file is its content; `copy2` copies times and permissions as well, which nothing reads.

## Main definitions

* `ConfigDir` — the directory of the configuration, with the snapshots
* `snapshotExisting`, `restoreSnapshot`
* `Restored` — the target is what the snapshot was, and a snapshot is what the target was

## Main results

* `snapshotExisting_eq` — a snapshot, and which ones are left
* `restored_iff` — when a snapshot can be restored, and the restore undone
-/

namespace SlmMcpHub

/-- What `json.load` makes of a file. -/
inductive Loaded where
  | json (value : Json)
  /-- `JSONDecodeError` -/
  | invalid
  /-- `UnicodeDecodeError` -/
  | undecodable

/-- What the functions on files raise. -/
inductive FileError where
  /-- `FileNotFoundError`, raised by `restore_snapshot` -/
  | snapshotNotFound (message : String)
  /-- `FileNotFoundError`, raised by `copy2` -/
  | noSuchFile (path : String)
  /-- `UnicodeDecodeError` -/
  | undecodable
  /-- What looking for the servers of a file raises. -/
  | config (e : ConfigError)

/-- The directory of the configuration: its path, its files, and those of `snapshots` in it. -/
structure ConfigDir (Content : Type) where
  path : String
  files : Dict String Content
  snapshots : Dict String Content

/-- `MAX_SNAPSHOTS` -/
def maxSnapshots : ℕ := 50

/-- What `config-*.json` matches; the two ends cannot overlap. -/
def isSnapshot (name : String) : Bool :=
  "config-".toList.isPrefixOf name.toList && ".json".toList.isSuffixOf name.toList

/-- The name of the snapshot of a configuration with some servers, at a time as
`%Y%m%d-%H%M%S` writes it. -/
def snapshotName (ts : String) (existingCount : ℕ) : String :=
  s!"config-{ts}-{existingCount}mcps.json"

/-- `len(existing.get("mcpServers", existing.get("servers", {})))` -/
def countServers : Json → Checked ℕ
  | .obj entries => (serversRaw (Json.toDict entries)).len
  | _ => .error .attribute

/-- The names `glob` finds in the snapshots. -/
def snapshotNames {Content : Type} (snapshots : Dict String Content) : List String :=
  snapshots.keys.filter isSnapshot

/-- The loop that removes the snapshots that come first. -/
def pruneLoop {Content : Type} (snapshots : Dict String Content) :
    List String → Dict String Content
  | [] => snapshots
  | snap :: snaps =>
    if maxSnapshots < (snap :: snaps).length then pruneLoop (snapshots.erase snap) snaps
    else snapshots

/-- `sorted(glob)`, and the loop. -/
def prune {Content : Type} (snapshots : Dict String Content) : Dict String Content :=
  pruneLoop snapshots ((snapshotNames snapshots).mergeSort (· ≤ ·))

section Restore

variable {Content : Type} (load : Content → Loaded)

/-- `_snapshot_existing` -/
def snapshotExisting (ts path : String) :
    Fallible (ConfigDir Content) FileError (Option String) := do
  let dir ← Fallible.get
  match dir.files.get? path with
  | none => pure none
  | some content =>
    match load content with
    | .invalid => pure none
    | .undecodable => throw .undecodable
    | .json existing =>
      let existingCount ← Fallible.ofExcept ((countServers existing).mapError .config)
      if existingCount < 3 then pure none
      else
        let snapPath := snapshotName ts existingCount
        Fallible.modify fun dir => { dir with snapshots := dir.snapshots.set snapPath content }
        Fallible.modify fun dir => { dir with snapshots := prune dir.snapshots }
        pure (some snapPath)

/-- `target or get_config_file()` -/
def targetFile (target : Option String) : String := target.getD "config.json"

/-- The path of a snapshot. -/
def ConfigDir.snapshotPath (dir : ConfigDir Content) (name : String) : String :=
  s!"{dir.path}/snapshots/{name}"

/-- `restore_snapshot` -/
def restoreSnapshot (ts name : String) (target : Option String) :
    Fallible (ConfigDir Content) FileError String := do
  let dir ← Fallible.get
  if dir.snapshots.contains name then
    let path := targetFile target
    let _ ← snapshotExisting load ts path
    let dir ← Fallible.get
    match dir.snapshots.get? name with
    | none => throw (.noSuchFile (dir.snapshotPath name))
    | some content =>
      Fallible.modify fun dir => { dir with files := dir.files.set path content }
      pure path
  else throw (.snapshotNotFound s!"Snapshot not found: {dir.snapshotPath name}")

end Restore

/-! ### What is pruned -/

variable {Content : Type}

theorem pruneLoop_eq (snaps : List String) (snapshots : Dict String Content) :
    pruneLoop snapshots snaps =
      (snaps.take (snaps.length - maxSnapshots)).foldl Dict.erase snapshots := by
  induction snaps generalizing snapshots with
  | nil => rfl
  | cons snap snaps ih =>
    rw [pruneLoop]
    split_ifs with h
    · rw [ih, List.length_cons, Nat.sub_add_comm (Nat.lt_succ_iff.mp h), List.take_succ_cons,
        List.foldl_cons]
    · rw [Nat.sub_eq_zero_of_le (Nat.le_of_not_lt h)]
      rfl

theorem snapshotNames_nodup (snapshots : Dict String Content) : (snapshotNames snapshots).Nodup :=
  (Dict.keys_nodup snapshots).filter _

theorem mem_snapshotNames {snapshots : Dict String Content} {name : String} :
    name ∈ snapshotNames snapshots ↔ name ∈ snapshots.keys ∧ isSnapshot name = true :=
  List.mem_filter

/-- **What is pruned.** As many snapshots as there are too many, by name. -/
theorem get?_prune (snapshots : Dict String Content) (name : String) :
    (prune snapshots).get? name =
      if name ∈ snapshotNames snapshots ∧ rank (snapshotNames snapshots) name <
        (snapshotNames snapshots).length - maxSnapshots then none
      else snapshots.get? name := by
  rw [prune, pruneLoop_eq, Dict.get?_foldl_erase, List.length_mergeSort]
  exact if_congr (mem_take_mergeSort_iff (snapshotNames_nodup snapshots) _) rfl rfl

theorem isSnapshot_snapshotName (ts : String) (existingCount : ℕ) :
    isSnapshot (snapshotName ts existingCount) = true := by
  have htoList : (snapshotName ts existingCount).toList =
      "config-".toList ++ (ts.toList ++ '-' :: (toString existingCount).toList ++ "mcps".toList) ++
        ".json".toList := by
    rw [show snapshotName ts existingCount =
      "config-" ++ ts ++ "-" ++ toString existingCount ++ "mcps.json" from rfl]
    simp [String.toList_append]
  rw [isSnapshot, htoList, Bool.and_eq_true]
  constructor
  · rw [List.append_assoc]
    exact List.isPrefixOf_iff_prefix.mpr (List.prefix_append _ _)
  · exact List.isSuffixOf_iff_suffix.mpr (List.suffix_append _ _)

/-! ### One snapshot more -/

/-- The snapshots after one more. -/
def leftOver (snapshots : Dict String Content) (new : String) (content : Content) :
    Dict String Content :=
  prune (snapshots.set new content)

section Snapshot

variable {load : Content → Loaded} {dir : ConfigDir Content} {content : Content} {existing : Json}
  {existingCount : ℕ}

/-- A configuration with a few servers: it is copied, and the snapshots are pruned. -/
theorem snapshotExisting_eq (ts path : String) (hfile : dir.files.get? path = some content)
    (hload : load content = .json existing) (hcount : countServers existing = .ok existingCount)
    (hmany : 3 ≤ existingCount) :
    snapshotExisting load ts path dir = (.ok (some (snapshotName ts existingCount)),
      { dir with
        snapshots := leftOver dir.snapshots (snapshotName ts existingCount) content }) := by
  have hfew : ¬ existingCount < 3 := Nat.not_lt.mpr hmany
  rw [snapshotExisting, Fallible.get_bind_apply]
  simp only [hfile, hload, hcount]
  rw [Except.mapError, Fallible.ofExcept_ok_bind, if_neg hfew, Fallible.modify_bind_apply,
    Fallible.modify_bind_apply]
  rfl

/-- The restore copies what is left under the name. -/
theorem restoreSnapshot_eq (ts name : String) (target : Option String)
    (hname : dir.snapshots.contains name = true)
    (hfile : dir.files.get? (targetFile target) = some content)
    (hload : load content = .json existing) (hcount : countServers existing = .ok existingCount)
    (hmany : 3 ≤ existingCount) :
    restoreSnapshot load ts name target dir =
      match (leftOver dir.snapshots (snapshotName ts existingCount) content).get? name with
      | none => (.error (.noSuchFile (dir.snapshotPath name)),
          { dir with
            snapshots := leftOver dir.snapshots (snapshotName ts existingCount) content })
      | some restored => (.ok (targetFile target),
          { dir with
            snapshots := leftOver dir.snapshots (snapshotName ts existingCount) content
            files := dir.files.set (targetFile target) restored }) := by
  rw [restoreSnapshot, Fallible.get_bind_apply, if_pos hname, Fallible.bind_apply_of_ok
    (snapshotExisting_eq ts (targetFile target) hfile hload hcount hmany), Fallible.get_bind_apply]
  cases (leftOver dir.snapshots (snapshotName ts existingCount) content).get? name <;> rfl

end Snapshot

/-- `_snapshot_existing` leaves the configuration alone. -/
theorem files_snapshotExisting (load : Content → Loaded) (ts path : String)
    (dir : ConfigDir Content) :
    (snapshotExisting load ts path).sat (fun _ dir' => dir'.files = dir.files) dir := by
  rw [snapshotExisting, Fallible.sat_bind, Fallible.sat_get, Fallible.andThen_ok]
  split
  · rfl
  · split
    · rfl
    · rfl
    · rw [Fallible.sat_bind, Fallible.sat_ofExcept]
      cases (countServers _).mapError FileError.config with
      | error e => rfl
      | ok existingCount =>
        rw [Fallible.andThen_ok]
        split <;> rfl

/-- A restore that fails leaves the configuration as it was. -/
theorem files_restoreSnapshot (load : Content → Loaded) (ts name : String) (target : Option String)
    (dir : ConfigDir Content) : (restoreSnapshot load ts name target).sat (fun r dir' =>
      ∀ e, r = .error e → dir'.files = dir.files) dir := by
  rw [restoreSnapshot, Fallible.sat_bind, Fallible.sat_get, Fallible.andThen_ok]
  split
  · rw [Fallible.sat_bind]
    refine Fallible.sat_mono (files_snapshotExisting load ts (targetFile target) dir) ?_
    intro r dir' hfiles
    cases r with
    | error e => exact fun _ _ => hfiles
    | ok _ =>
      rw [Fallible.andThen_ok, Fallible.sat_bind, Fallible.sat_get, Fallible.andThen_ok]
      split
      · exact fun _ _ => hfiles
      · rintro e ⟨⟩
  · exact fun _ _ => rfl

/-! ### Which snapshots are left -/

section Kept

variable {snapshots : Dict String Content} {new : String}

theorem snapshotNames_set_of_mem (h : new ∈ snapshots.keys) (content : Content) :
    snapshotNames (snapshots.set new content) = snapshotNames snapshots := by
  rw [snapshotNames, Dict.keys_set_of_mem h, snapshotNames]

theorem snapshotNames_set_of_not_mem (hnew : isSnapshot new = true) (h : new ∉ snapshots.keys)
    (content : Content) :
    snapshotNames (snapshots.set new content) = snapshotNames snapshots ++ [new] := by
  rw [snapshotNames, Dict.keys_set_of_not_mem h, List.filter_append, snapshotNames]
  simp [hnew]

/-- The snapshots are as many as are kept, and one with a new name is one too many. -/
def Overfull (snapshots : Dict String Content) (new : String) : Prop :=
  (snapshotNames snapshots).length = maxSnapshots ∧ new ∉ snapshots.keys

instance (snapshots : Dict String Content) (new : String) : Decidable (Overfull snapshots new) :=
  inferInstanceAs (Decidable (_ ∧ _))

/-- Nothing is removed while there is room. -/
theorem get?_leftOver_of_not_overfull (hsize : (snapshotNames snapshots).length ≤ maxSnapshots)
    (hnew : isSnapshot new = true) (h : ¬ Overfull snapshots new) (content : Content)
    (name : String) :
    (leftOver snapshots new content).get? name = (snapshots.set new content).get? name := by
  have hroom : (snapshotNames (snapshots.set new content)).length ≤ maxSnapshots := by
    by_cases hmem : new ∈ snapshots.keys
    · rwa [snapshotNames_set_of_mem hmem]
    · have hne : (snapshotNames snapshots).length ≠ maxSnapshots := fun heq => h ⟨heq, hmem⟩
      rw [snapshotNames_set_of_not_mem hnew hmem, List.length_append, List.length_singleton]
      omega
  rw [leftOver, get?_prune, Nat.sub_eq_zero_of_le hroom]
  exact if_neg fun h => absurd h.2 (Nat.not_lt_zero _)

/-- Of one too many, the first goes. -/
theorem get?_leftOver_of_overfull (hnew : isSnapshot new = true) (h : Overfull snapshots new)
    (content : Content) (name : String) :
    (leftOver snapshots new content).get? name =
      if name ∈ snapshotNames snapshots ++ [new] ∧
        ∀ other ∈ snapshotNames snapshots ++ [new], ¬ other < name then none
      else (snapshots.set new content).get? name := by
  rw [leftOver, get?_prune, snapshotNames_set_of_not_mem hnew h.2, List.length_append, h.1,
    List.length_singleton, Nat.add_sub_cancel_left]
  refine if_congr (and_congr_right fun _ => ?_) rfl rfl
  rw [Nat.lt_one_iff, rank_eq_zero_iff]

/-- A snapshot is left as it was: the new one has not taken its name, unless with the same content,
and it is not the one that goes. -/
theorem get?_leftOver_eq_iff (hsize : (snapshotNames snapshots).length ≤ maxSnapshots)
    (hnew : isSnapshot new = true) {content found : Content} {name : String}
    (hname : snapshots.get? name = some found) :
    (leftOver snapshots new content).get? name = some found ↔
      (name = new → found = content) ∧ (Overfull snapshots new → isSnapshot name = true →
        ∃ other ∈ snapshotNames snapshots ++ [new], other < name) := by
  have hmem : name ∈ snapshots.keys := Dict.mem_keys_iff.mpr ⟨found, hname⟩
  by_cases hfull : Overfull snapshots new
  · have hne : name ≠ new := fun heq => hfull.2 (heq ▸ hmem)
    have hlisted : name ∈ snapshotNames snapshots ++ [new] ↔ isSnapshot name = true := by
      rw [List.mem_append, mem_snapshotNames, List.mem_singleton]
      exact ⟨fun h => (h.resolve_right hne).2, fun h => .inl ⟨hmem, h⟩⟩
    rw [get?_leftOver_of_overfull hnew hfull, Dict.get?_set_of_ne hne.symm, hname]
    refine ⟨fun h => ⟨fun heq => absurd heq hne, fun _ hsnapshot => ?_⟩, fun h => ?_⟩
    · by_contra hfirst
      push Not at hfirst
      rw [if_pos ⟨hlisted.mpr hsnapshot,
        fun other hother => not_lt_of_ge (hfirst other hother)⟩] at h
      cases h
    · refine if_neg fun hgone => ?_
      obtain ⟨other, hother, hlt⟩ := h.2 hfull (hlisted.mp hgone.1)
      exact hgone.2 other hother hlt
  · rw [get?_leftOver_of_not_overfull hsize hnew hfull]
    by_cases heq : name = new
    · rw [heq, Dict.get?_set_self, Option.some.injEq]
      exact ⟨fun h => ⟨fun _ => h.symm, fun h => absurd h hfull⟩, fun h => (h.1 rfl).symm⟩
    · rw [Dict.get?_set_of_ne (Ne.symm heq), hname]
      exact ⟨fun _ => ⟨fun h => absurd h heq, fun h => absurd h hfull⟩, fun _ => rfl⟩

/-- What was copied is still there: it is not the one that goes, or was there before. -/
theorem exists_leftOver_iff (hsize : (snapshotNames snapshots).length ≤ maxSnapshots)
    (hnew : isSnapshot new = true) (content : Content) :
    (∃ kept, (leftOver snapshots new content).get? kept = some content) ↔
      (Overfull snapshots new → (∃ other ∈ snapshotNames snapshots, other < new) ∨
        content ∈ snapshots.values) := by
  by_cases hfull : Overfull snapshots new
  · have hlast : (∃ other ∈ snapshotNames snapshots, other < new) →
        (leftOver snapshots new content).get? new = some content := by
      rintro ⟨other, hother, hlt⟩
      rw [get?_leftOver_of_overfull hnew hfull, Dict.get?_set_self]
      exact if_neg fun hgone => hgone.2 other (List.mem_append_left _ hother) hlt
    refine ⟨fun ⟨kept, hkept⟩ _ => ?_, fun h => ?_⟩
    · rw [get?_leftOver_of_overfull hnew hfull] at hkept
      split_ifs at hkept with hgone
      by_cases heq : kept = new
      · subst heq
        left
        by_contra hfirst
        push Not at hfirst
        refine hgone ⟨List.mem_append_right _ (List.mem_singleton_self kept), ?_⟩
        intro other hother
        rcases List.mem_append.mp hother with hother | hother
        · exact not_lt_of_ge (hfirst other hother)
        · rw [List.mem_singleton.mp hother]
          exact lt_irrefl _
      · rw [Dict.get?_set_of_ne (Ne.symm heq)] at hkept
        exact .inr (Dict.mem_values_iff.mpr ⟨kept, hkept⟩)
    · by_cases hfirst : ∃ other ∈ snapshotNames snapshots, other < new
      · exact ⟨new, hlast hfirst⟩
      · obtain ⟨kept, hkept⟩ := Dict.mem_values_iff.mp ((h hfull).resolve_left hfirst)
        have hmem : kept ∈ snapshots.keys := Dict.mem_keys_iff.mpr ⟨content, hkept⟩
        have hne : kept ≠ new := fun heq => hfull.2 (heq ▸ hmem)
        refine ⟨kept, (get?_leftOver_eq_iff hsize hnew hkept).mpr ⟨fun heq => absurd heq hne, ?_⟩⟩
        intro _ hsnapshot
        push Not at hfirst
        exact ⟨new, List.mem_append_right _ (List.mem_singleton_self new),
          lt_of_le_of_ne (hfirst kept (mem_snapshotNames.mpr ⟨hmem, hsnapshot⟩)) hne.symm⟩
  · refine ⟨fun _ h => absurd h hfull, fun _ => ⟨new, ?_⟩⟩
    rw [get?_leftOver_of_not_overfull hsize hnew hfull, Dict.get?_set_self]

end Kept

/-! ### Restoring -/

/-- The restore succeeds, the target is what the snapshot was, and what the target was is in the
directory of the snapshots. -/
structure Restored (load : Content → Loaded) (dir : ConfigDir Content) (ts name : String)
    (target : Option String) : Prop where
  returns : (restoreSnapshot load ts name target dir).1 = .ok (targetFile target)
  restores : (restoreSnapshot load ts name target dir).2.files.get? (targetFile target) =
    dir.snapshots.get? name
  reversible : ∃ kept, (restoreSnapshot load ts name target dir).2.snapshots.get? kept =
    dir.files.get? (targetFile target)

/-- The snapshot of the current content costs neither the requested one nor itself. -/
structure Spared (snapshots : Dict String Content) (new name : String) (content : Content) :
    Prop where
  /-- It does not replace the requested one by something else. -/
  apart : name = new → snapshots.get? name = some content
  /-- If one has to go, another one comes before the requested one. -/
  outlives : Overfull snapshots new → isSnapshot name = true →
    ∃ other ∈ snapshotNames snapshots ++ [new], other < name
  /-- If one has to go, another one comes before it, or the content has been there. -/
  lasts : Overfull snapshots new →
    (∃ other ∈ snapshotNames snapshots, other < new) ∨ content ∈ snapshots.values

section Restoring

variable {load : Content → Loaded} {dir : ConfigDir Content} {content : Content} {existing : Json}
  {existingCount : ℕ} {ts name : String} {target : Option String}

/-- **When a snapshot can be restored.** In a directory with no more snapshots than are kept, a
restore over a configuration with a few servers succeeds, gives the target what the snapshot was
and leaves a copy of what the target was, just when the copy spares the snapshot and is spared. -/
theorem restored_iff (hsize : (snapshotNames dir.snapshots).length ≤ maxSnapshots)
    (hname : dir.snapshots.contains name = true)
    (hfile : dir.files.get? (targetFile target) = some content)
    (hload : load content = .json existing) (hcount : countServers existing = .ok existingCount)
    (hmany : 3 ≤ existingCount) :
    Restored load dir ts name target ↔
      Spared dir.snapshots (snapshotName ts existingCount) name content := by
  have hnew := isSnapshot_snapshotName ts existingCount
  obtain ⟨found, hfound⟩ := Option.isSome_iff_exists.mp hname
  have hrestore := restoreSnapshot_eq ts name target hname hfile hload hcount hmany
  have hspared : (leftOver dir.snapshots (snapshotName ts existingCount) content).get? name =
      some found ↔ _ := get?_leftOver_eq_iff hsize hnew hfound
  have hlasts := exists_leftOver_iff hsize hnew content
  constructor
  · rintro ⟨hreturns, hrestores, hreversible⟩
    rw [hrestore] at hreturns hrestores hreversible
    cases hget : (leftOver dir.snapshots (snapshotName ts existingCount) content).get? name with
    | none =>
      rw [hget] at hreturns
      cases hreturns
    | some restored =>
      rw [hget] at hrestores hreversible
      rw [Dict.get?_set_self, hfound] at hrestores
      rw [hfile] at hreversible
      obtain ⟨hapart, houtlives⟩ := hspared.mp (hget.trans hrestores)
      exact ⟨fun heq => by rw [hfound, hapart heq], houtlives, hlasts.mp hreversible⟩
  · rintro ⟨hapart, houtlives, hlast⟩
    have hget := hspared.mpr
      ⟨fun heq => Option.some.inj (hfound.symm.trans (hapart heq)), houtlives⟩
    rw [hget] at hrestore
    refine ⟨by rw [hrestore], ?_, ?_⟩
    · rw [hrestore, hfound]
      exact Dict.get?_set_self _ _ _
    · rw [hrestore, hfile]
      exact hlasts.mpr hlast

end Restoring

/-- A configuration of some servers. -/
def configOf (names : List String) : Json :=
  .obj [("mcpServers", .obj (names.map fun name => (name, .obj [])))]

/-- A configuration of three servers, and one snapshot of three others. -/
def oneSnapshot (name : String) : ConfigDir Json where
  path := "/root/.slm-mcp-hub"
  files := Dict.empty.set "config.json" (configOf ["a", "b", "c"])
  snapshots := Dict.empty.set name (configOf ["d", "e", "f"])

theorem snapshotNames_oneSnapshot_lt (name : String) :
    (snapshotNames (oneSnapshot name).snapshots).length < maxSnapshots :=
  (List.length_filter_le isSnapshot _).trans_lt (show 1 < 50 by decide)

theorem restored_iff_oneSnapshot :
    Restored Loaded.json (oneSnapshot "config-good.json") "20260101-000000" "config-good.json"
      none ↔
      Spared (oneSnapshot "config-good.json").snapshots (snapshotName "20260101-000000" 3)
        "config-good.json" (configOf ["a", "b", "c"]) :=
  restored_iff (snapshotNames_oneSnapshot_lt _).le rfl rfl rfl rfl le_rfl

/-- A snapshot that has been made in this very second is replaced before it is restored. -/
theorem not_restored :
    ¬ ∀ (dir : ConfigDir Json) (ts name : String) (target : Option String) (content : Json)
      (existingCount : ℕ), (snapshotNames dir.snapshots).length ≤ maxSnapshots →
      dir.snapshots.contains name = true → dir.files.get? (targetFile target) = some content →
      countServers content = .ok existingCount → 3 ≤ existingCount →
      Restored Loaded.json dir ts name target := by
  intro h
  let name := snapshotName "20260101-000000" 3
  let current := configOf ["a", "b", "c"]
  have hsize := snapshotNames_oneSnapshot_lt name
  have hname : (oneSnapshot name).snapshots.contains name = true := by
    rw [Dict.contains, oneSnapshot, Dict.get?_set_self]
    rfl
  have hfile : (oneSnapshot name).files.get? (targetFile none) = some current := rfl
  have hcount : countServers current = .ok 3 := rfl
  have hrestores := (h (oneSnapshot name) "20260101-000000" name none current 3 hsize.le hname hfile
    hcount le_rfl).restores
  have hget : (leftOver (oneSnapshot name).snapshots name current).get? name = some current := by
    rw [get?_leftOver_of_not_overfull hsize.le (isSnapshot_snapshotName _ _)
      (fun hfull => hsize.ne hfull.1), Dict.get?_set_self]
  rw [restoreSnapshot_eq "20260101-000000" name none hname hfile rfl hcount le_rfl, hget,
    Dict.get?_set_self, oneSnapshot, Dict.get?_set_self] at hrestores
  have hne : configOf ["a", "b", "c"] ≠ configOf ["d", "e", "f"] := by decide
  exact hne (Option.some.inj hrestores)

end SlmMcpHub
