import Mathlib.Data.List.Dedup
import SlmMcpHub.Core.SettingsFrame
import SlmMcpHub.Core.Snapshots

/-!
# Saving over a configuration

`save_config` and `_atomic_write` of `core/config_io.py` with every place where they can fail. The
guard refuses to drop too many servers at once; the new content is written beside the old file and
then put in its place. A file is what `json.load` makes of it.

## Main definitions

* `OsCall` — the places where the operating system may raise
* `saveConfigFile`, with `guardStep`, `snapshotStep` and `atomicWrite`
* `Protects` — a save keeps most of the servers or leaves the file alone
* `Replaces` — a save gets as far as the new file

## Main results

* `saveConfigFile_undisturbed` — what a save comes to when the operating system never fails
* `protects_iff` — when a save protects the servers
-/

namespace SlmMcpHub

/-- Where `save_config` needs the operating system. -/
inductive OsCall where
  /-- `_secure_config_permissions(path)`, at the beginning -/
  | secureBefore
  /-- `open(path)`, in the guard -/
  | openForGuard
  /-- `open(path)`, in `_snapshot_existing` -/
  | openForSnapshot
  /-- The rest of `_snapshot_existing` -/
  | snapshot
  /-- `path.parent.mkdir`, in `save_config` -/
  | mkdirBefore
  /-- `path.parent.mkdir`, in `_atomic_write` -/
  | mkdir
  /-- `tempfile.mkstemp` -/
  | mkstemp
  /-- `json.dump` to the new file -/
  | dump
  /-- The new file is read again, and compared. -/
  | verify
  /-- `os.replace` -/
  | replace
  /-- `path.chmod`, after it -/
  | chmod
  /-- `tmp_path.unlink` -/
  | unlink
  /-- `_secure_config_permissions(path)`, at the end -/
  | secureAfter
  deriving DecidableEq

/-- What `save_config` raises. -/
inductive SaveError where
  | os (call : OsCall)
  | file (e : FileError)
  | config (e : ConfigError)

/-- `save_config` in a directory. -/
abbrev Saving (α : Type) : Type := Fallible (ConfigDir Loaded) SaveError α

/-- A call that may fail. -/
def OsCall.run (call : OsCall) (fails : OsCall → Bool) : Saving Unit :=
  if fails call then throw (.os call) else pure ()

/-- What a function on configurations raises. -/
def Saving.ofChecked {α : Type} (r : Checked α) : Saving α :=
  Fallible.ofExcept (r.mapError .config)

/-- The guard, as it finds the file. -/
def guardStep (fails : OsCall → Bool) (path : String) (force : Bool) (newCount : ℕ) :
    Saving Unit := do
  let dir ← Fallible.get
  match dir.files.get? path with
  | none => pure ()
  | some content =>
    if force || fails .openForGuard then pure ()
    else
      match content with
      | .json (.obj entries) =>
        Saving.ofChecked (countDropGuard dir.path (some (Json.toDict entries)) force newCount)
      | .json _ => throw (.config .attribute)
      -- A file that is no JSON is no reason not to save.
      | .invalid => pure ()
      | .undecodable => throw (.file .undecodable)

/-- `_snapshot_existing` -/
def snapshotStep (fails : OsCall → Bool) (ts path : String) : Saving Unit := do
  if fails .openForSnapshot then pure ()
  else
    let _ ← (snapshotExisting id ts path).mapError .file
    OsCall.snapshot.run fails

/-- What `save_config` writes, once the guard has let it pass. -/
def savedData (R : Runtime) (config : HubConfig) : Checked (Dict String Json) := do
  let servers ← config.mcpServers.mapM (savedServer R)
  let servers := Json.obj (Dict.empty.setAll servers).entries
  pure (Dict.empty.setAll
    (config.settings.take 2 ++ [("mcpServers", servers)] ++ config.settings.drop 2))

/-- The content `saveConfig` comes to. -/
theorem saveConfig_eq (R : Runtime) (existing : Option (Dict String Json)) (config : HubConfig)
    (force : Bool) : saveConfig R existing config force = (do
      countDropGuard config.configDir existing force config.mcpServers.length
      savedData R config) := rfl

/-- A file of the directory gets a content. -/
def ConfigDir.write (dir : ConfigDir Loaded) (name : String) (content : Loaded) :
    ConfigDir Loaded :=
  { dir with files := dir.files.set name content }

/-- `os.replace`, of a file by the temporary one with some content. -/
def ConfigDir.replace (dir : ConfigDir Loaded) (tmp path : String) (content : Loaded) :
    ConfigDir Loaded :=
  { dir with files := (dir.files.erase tmp).set path content }

/-- The temporary file is removed where it exists. -/
def removeTmp (fails : OsCall → Bool) (tmp : String) : Saving Unit := do
  let dir ← Fallible.get
  if dir.files.contains tmp then do
    OsCall.unlink.run fails
    Fallible.modify fun dir => { dir with files := dir.files.erase tmp }
  else pure ()

/-- `_atomic_write`, with the name of its temporary file. -/
def atomicWrite (fails : OsCall → Bool) (tmp path : String) (data : Dict String Json) :
    Saving Unit := do
  OsCall.mkdir.run fails
  OsCall.mkstemp.run fails
  Fallible.modify fun dir => dir.write tmp .invalid
  tryCatch (do
      OsCall.dump.run fails
      Fallible.modify fun dir => dir.write tmp (.json (.obj data.entries))
      OsCall.verify.run fails
      OsCall.replace.run fails
      Fallible.modify fun dir => dir.replace tmp path (.json (.obj data.entries))
      OsCall.chmod.run fails)
    fun e => do
      removeTmp fails tmp
      throw e

/-- During a test, the real configuration is not written. -/
def testGuard (underTest : Bool) (path : String) : Saving Unit :=
  if underTest then
    throw (.config (.runtime (s!"REFUSING to overwrite real user config {path} during pytest. " ++
      "Tests must pass an explicit config_path. " ++
      "This guard prevents the April 26 incident where tests nuked 39 MCP server configurations.")))
  else pure ()

/-- `save_config` -/
def saveConfigFile (R : Runtime) (fails : OsCall → Bool) (underTest : Bool) (ts tmp path : String)
    (config : HubConfig) (force : Bool) : Saving Unit := do
  OsCall.secureBefore.run fails
  testGuard underTest path
  guardStep fails path force config.mcpServers.length
  snapshotStep fails ts path
  OsCall.mkdirBefore.run fails
  let data ← Saving.ofChecked (savedData R config)
  atomicWrite fails tmp path data
  OsCall.secureAfter.run fails

/-! ### The steps -/

section Steps

variable {fails : OsCall → Bool} {dir : ConfigDir Loaded}
  {Q : Except SaveError Unit → ConfigDir Loaded → Prop}

/-- A call, and what follows it. -/
theorem sat_run_bind {call : OsCall} {f : Unit → Saving Unit} :
    (call.run fails >>= f).sat Q dir ↔ (fails call = true → Q (.error (.os call)) dir) ∧
      (fails call = false → (f ()).sat Q dir) := by
  rw [OsCall.run, Fallible.sat_bind]
  cases hcall : fails call with
  | true => exact ⟨fun h => ⟨fun _ => h, nofun⟩, fun h => h.1 rfl⟩
  | false => exact ⟨fun h => ⟨nofun, fun _ => h⟩, fun h => h.2 rfl⟩

theorem sat_run {call : OsCall} : (call.run fails).sat Q dir ↔
    (fails call = true → Q (.error (.os call)) dir) ∧ (fails call = false → Q (.ok ()) dir) := by
  rw [OsCall.run]
  cases hcall : fails call with
  | true => exact ⟨fun h => ⟨fun _ => h, nofun⟩, fun h => h.1 rfl⟩
  | false => exact ⟨fun h => ⟨nofun, fun _ => h⟩, fun h => h.2 rfl⟩

/-- A save raises, and the file is as it was. -/
def Harmless (path : String) (dir : ConfigDir Loaded) (r : Except SaveError Unit)
    (dir' : ConfigDir Loaded) : Prop :=
  (∃ e, r = .error e) ∧ dir'.files.get? path = dir.files.get? path

/-- The new file is there, and only what comes after it may raise. -/
structure Replaced (fails : OsCall → Bool) (path : String) (data : Dict String Json)
    (r : Except SaveError Unit) (dir' : ConfigDir Loaded) : Prop where
  content : dir'.files.get? path = some (.json (.obj data.entries))
  returns : r = .ok () ↔ fails .chmod = false

theorem sat_removeTmp {tmp path : String} (hne : tmp ≠ path) :
    (removeTmp fails tmp).sat (fun _ dir' => dir'.files.get? path = dir.files.get? path) dir := by
  rw [removeTmp, Fallible.sat_bind, Fallible.sat_get, Fallible.andThen_ok]
  split
  · exact sat_run_bind.mpr ⟨fun _ => rfl, fun _ => Dict.get?_erase_of_ne hne⟩
  · rfl

/-- What is raised is raised again, whether or not the temporary file could be removed. -/
theorem sat_reraise {tmp path : String} (hne : tmp ≠ path) (e : SaveError) :
    (do removeTmp fails tmp; throw e : Saving Unit).sat (Harmless path dir) dir := by
  rw [Fallible.sat_bind]
  refine Fallible.sat_mono (sat_removeTmp hne) fun r dir' h => ?_
  cases r with
  | error e' => exact ⟨⟨e', rfl⟩, h⟩
  | ok u => exact ⟨⟨e, rfl⟩, h⟩

/-- The calls up to the one that puts the new file in its place. -/
def untilReplace : List OsCall := [.mkdir, .mkstemp, .dump, .verify, .replace]

/-- **The write is atomic** up to the call that replaces the file: it raises and the file is as it
was, or the new file is there. -/
theorem sat_atomicWrite {tmp path : String} (hne : tmp ≠ path) (data : Dict String Json) :
    (atomicWrite fails tmp path data).sat (fun r dir' =>
      if ∃ call ∈ untilReplace, fails call = true then Harmless path dir r dir'
      else Replaced fails path data r dir') dir := by
  have hfail : ∀ {call : OsCall}, call ∈ untilReplace → fails call = true → ∀ {r dir'},
      Harmless path dir r dir' → if ∃ call ∈ untilReplace, fails call = true then
        Harmless path dir r dir' else Replaced fails path data r dir' := by
    intro call hcall h r dir' hr
    rwa [if_pos ⟨call, hcall, h⟩]
  -- An exception that is raised again, of a call before the new file is in its place.
  have hraise : ∀ {call : OsCall}, call ∈ untilReplace → fails call = true →
      ∀ {dir₁ : ConfigDir Loaded}, dir₁.files.get? path = dir.files.get? path →
      (do removeTmp fails tmp; throw (.os call) : Saving Unit).sat (fun r dir' =>
        if ∃ call ∈ untilReplace, fails call = true then Harmless path dir r dir'
        else Replaced fails path data r dir') dir₁ := by
    intro call hcall h dir₁ hsame
    exact Fallible.sat_mono (sat_reraise hne _) fun r dir' hr =>
      hfail hcall h ⟨hr.1, hr.2.trans hsame⟩
  have hwrite : ∀ (dir₁ : ConfigDir Loaded) content,
      (dir₁.write tmp content).files.get? path = dir₁.files.get? path :=
    fun dir₁ content => Dict.get?_set_of_ne hne
  refine sat_run_bind.mpr ⟨fun h => hfail (by decide) h ⟨⟨_, rfl⟩, rfl⟩, fun hmkdir => ?_⟩
  refine sat_run_bind.mpr ⟨fun h => hfail (by decide) h ⟨⟨_, rfl⟩, rfl⟩, fun hmkstemp => ?_⟩
  rw [Fallible.sat_bind, Fallible.sat_modify, Fallible.andThen_ok, Fallible.sat_tryCatch]
  refine sat_run_bind.mpr ⟨fun h => hraise (by decide) h (hwrite _ _), fun hdump => ?_⟩
  have hwritten := (hwrite (dir.write tmp .invalid) (.json (.obj data.entries))).trans
    (hwrite dir .invalid)
  rw [Fallible.sat_bind, Fallible.sat_modify, Fallible.andThen_ok]
  refine sat_run_bind.mpr ⟨fun h => hraise (by decide) h hwritten, fun hverify => ?_⟩
  refine sat_run_bind.mpr ⟨fun h => hraise (by decide) h hwritten, fun hreplace => ?_⟩
  have hthrough : ¬ ∃ call ∈ untilReplace, fails call = true := by
    simp [untilReplace, hmkdir, hmkstemp, hdump, hverify, hreplace]
  simp only [if_neg hthrough]
  rw [Fallible.sat_bind, Fallible.sat_modify, Fallible.andThen_ok, sat_run]
  refine ⟨fun hchmod => ?_, fun hchmod => ⟨Dict.get?_set_self _ _ _, fun _ => hchmod, fun _ => rfl⟩⟩
  -- The file has been replaced already when the permissions cannot be set.
  rw [Fallible.orElse_error, Fallible.sat_bind]
  refine Fallible.sat_mono (sat_removeTmp hne) fun r dir' h => ?_
  have hcontent := h.trans (Dict.get?_set_self _ _ _)
  cases r with
  | error e => exact ⟨hcontent, nofun, fun hok => by rw [hok] at hchmod; cases hchmod⟩
  | ok u => exact ⟨hcontent, nofun, fun hok => by rw [hok] at hchmod; cases hchmod⟩

/-- A step that leaves the files alone, and raises unless a condition holds. -/
def Passes (condition : Prop) (p : Saving Unit) (dir : ConfigDir Loaded) : Prop :=
  p.sat (fun r dir' => dir'.files = dir.files ∧ (r = .ok () ↔ condition)) dir

theorem Passes.bind {condition : Prop} {p : Saving Unit} {f : Unit → Saving Unit}
    (hp : Passes condition p dir)
    (hstop : ¬ condition → ∀ e dir', dir'.files = dir.files → Q (.error e) dir')
    (hgo : condition → ∀ dir', dir'.files = dir.files → (f ()).sat Q dir') :
    (p >>= f).sat Q dir := by
  rw [Fallible.sat_bind]
  refine Fallible.sat_mono hp fun r dir' ⟨hfiles, hcondition⟩ => ?_
  cases r with
  | ok u => exact hgo (hcondition.mp rfl) dir' hfiles
  | error e => exact hstop (fun h => nomatch hcondition.mpr h) e dir' hfiles

theorem passes_run (call : OsCall) : Passes (fails call = false) (call.run fails) dir := by
  refine sat_run.mpr ⟨fun h => ⟨rfl, nofun, fun hok => ?_⟩,
    fun h => ⟨rfl, fun _ => h, fun _ => rfl⟩⟩
  rw [h] at hok
  cases hok

theorem passes_testGuard (underTest : Bool) (path : String) :
    Passes (underTest = false) (testGuard underTest path) dir := by
  cases underTest with
  | true => exact ⟨rfl, nofun, nofun⟩
  | false => exact ⟨rfl, fun _ => rfl, fun _ => rfl⟩

/-- The guard, of a file with some servers. -/
theorem passes_guardStep {path : String} {existing : Json} {n newCount : ℕ}
    (hfile : dir.files.get? path = some (.json existing)) (hcount : countServers existing = .ok n)
    (hmany : 5 < n) : Passes (fails .openForGuard = true ∨ dropGuardMinimum n ≤ newCount)
      (guardStep fails path false newCount) dir := by
  rw [Passes, guardStep, Fallible.sat_bind, Fallible.sat_get, Fallible.andThen_ok, hfile]
  cases existing with
  | obj entries =>
    cases hopen : fails .openForGuard with
    | true => exact ⟨rfl, fun _ => .inl rfl, fun _ => rfl⟩
    | false =>
      have hlen : (serversRaw (Json.toDict entries)).len = .ok n := hcount
      have hguard : countDropGuard dir.path (some (Json.toDict entries)) false newCount = .ok () ↔
          dropGuardMinimum n ≤ newCount := by
        simp only [countDropGuard, Bool.false_eq_true, if_false, Checked.bind_eq_ok_iff, hlen,
          Except.ok.injEq, exists_eq_left']
        split_ifs with hdrop
        · exact iff_of_false (fun h => by cases h) (not_le_of_gt hdrop.2)
        · exact ⟨fun _ => le_of_not_gt fun h => hdrop ⟨hmany, h⟩, fun _ => rfl⟩
      show (Saving.ofChecked
        (countDropGuard dir.path (some (Json.toDict entries)) false newCount)).sat _ dir
      rw [Saving.ofChecked, Fallible.sat_ofExcept]
      refine ⟨rfl, ?_⟩
      rw [← hguard]
      cases countDropGuard dir.path (some (Json.toDict entries)) false newCount with
      | ok u => simp [Except.mapError]
      | error e => simp [Except.mapError]
  | _ => cases hcount

/-- The snapshot, of a file with some servers. -/
theorem passes_snapshotStep {ts path : String} {existing : Json} {n : ℕ}
    (hfile : dir.files.get? path = some (.json existing)) (hcount : countServers existing = .ok n)
    (hmany : 3 ≤ n) : Passes (fails .openForSnapshot = true ∨ fails .snapshot = false)
      (snapshotStep fails ts path) dir := by
  rw [Passes, snapshotStep]
  split
  · rename_i hopen
    exact ⟨rfl, fun _ => .inl hopen, fun _ => rfl⟩
  · rename_i hopen
    have hsnapshot : snapshotExisting id ts path dir = (.ok (some (snapshotName ts n)),
        { dir with
          snapshots := leftOver dir.snapshots (snapshotName ts n) (.json existing) }) :=
      snapshotExisting_eq ts path hfile rfl hcount hmany
    rw [Fallible.sat_bind, Fallible.sat_mapError, Fallible.sat, hsnapshot, Except.mapError,
      Fallible.andThen_ok, sat_run]
    refine ⟨fun h => ⟨rfl, by simp, fun hor => ?_⟩, fun h => ⟨rfl, fun _ => .inr h, fun _ => rfl⟩⟩
    rcases hor with hor | hor
    · exact absurd hor hopen
    · rw [h] at hor
      cases hor

end Steps

/-! ### A save that nothing disturbs -/

section Undisturbed

variable {R : Runtime} {ts tmp path : String} {config : HubConfig} {force : Bool}
  {dir : ConfigDir Loaded} {existing : Option (Dict String Json)}

theorem guardStep_undisturbed (force : Bool)
    (hfile : dir.files.get? path = existing.map fun d => .json (.obj d.entries)) (newCount : ℕ) :
    guardStep (fun _ => false) path force newCount dir =
      ((countDropGuard dir.path existing force newCount).mapError .config, dir) := by
  rw [guardStep, Fallible.get_bind_apply, hfile]
  cases existing with
  | none => rfl
  | some d =>
    cases force with
    | true => rfl
    | false =>
      show Saving.ofChecked
        (countDropGuard dir.path (some (Json.toDict d.entries)) false newCount) dir = _
      rw [Json.toDict, Dict.setAll_empty_entries]
      rfl

/-- A snapshot leaves the files alone. -/
theorem snapshotStep_undisturbed (ts : String)
    (hfile : dir.files.get? path = existing.map fun d => .json (.obj d.entries))
    (hcount : ∀ d ∈ existing, ∃ n, (serversRaw d).len = .ok n) :
    ∃ snapshots, snapshotStep (fun _ => false) ts path dir = (.ok (), { dir with snapshots }) := by
  have hstep : ∀ {o : Option String} {dir' : ConfigDir Loaded},
      snapshotExisting id ts path dir = (.ok o, dir') →
        snapshotStep (fun _ => false) ts path dir = (.ok (), dir') := by
    intro o dir' h
    have herror : (snapshotExisting id ts path).mapError SaveError.file dir = (.ok o, dir') := by
      rw [Fallible.mapError, h]
      rfl
    exact Fallible.bind_apply_of_ok herror _
  cases existing with
  | none =>
    refine ⟨dir.snapshots, hstep (o := none) ?_⟩
    rw [snapshotExisting, Fallible.get_bind_apply, hfile]
    rfl
  | some d =>
    obtain ⟨n, hn⟩ := hcount d rfl
    have hservers : countServers (.obj d.entries) = .ok n := by
      rw [countServers, Json.toDict, Dict.setAll_empty_entries, hn]
    by_cases hmany : 3 ≤ n
    · exact ⟨_, hstep (snapshotExisting_eq ts path hfile rfl hservers hmany)⟩
    · refine ⟨dir.snapshots, hstep (o := none) ?_⟩
      rw [snapshotExisting, Fallible.get_bind_apply, hfile]
      simp only [Option.map_some, id, hservers]
      rw [Except.mapError, Fallible.ofExcept_ok_bind, if_pos (not_le.mp hmany)]
      rfl

/-- **A save that nothing disturbs** leaves in the file what `saveConfig` makes of it, or raises
what `saveConfig` raises and leaves the files alone. -/
theorem saveConfigFile_undisturbed
    (hfile : dir.files.get? path = existing.map fun d => .json (.obj d.entries))
    (hcount : ∀ d ∈ existing, ∃ n, (serversRaw d).len = .ok n) (hdir : config.configDir = dir.path)
    (htmp : tmp ≠ path) :
    (saveConfigFile R (fun _ => false) false ts tmp path config force).sat (fun r dir' =>
      match saveConfig R existing config force with
      | .ok saved => r = .ok () ∧ dir'.files.get? path = some (.json (.obj saved.entries))
      | .error e => r = .error (.config e) ∧ dir'.files = dir.files) dir := by
  have hguard := guardStep_undisturbed force hfile config.mcpServers.length
  obtain ⟨snapshots, hsnapshot⟩ := snapshotStep_undisturbed ts hfile hcount
  rw [saveConfigFile]
  refine sat_run_bind.mpr ⟨nofun, fun _ => ?_⟩
  rw [testGuard, if_neg Bool.false_ne_true, Fallible.sat_bind, Fallible.sat_pure,
    Fallible.andThen_ok, Fallible.sat_bind, Fallible.sat, hguard, saveConfig_eq, hdir]
  cases countDropGuard dir.path existing force config.mcpServers.length with
  | error e => exact ⟨rfl, rfl⟩
  | ok u =>
    rw [Except.mapError, Fallible.andThen_ok, Fallible.sat_bind, Fallible.sat, hsnapshot,
      Fallible.andThen_ok]
    refine sat_run_bind.mpr ⟨nofun, fun _ => ?_⟩
    rw [Fallible.sat_bind, Saving.ofChecked, Fallible.sat_ofExcept]
    show Fallible.andThen _ _ _ _
    cases hdata : savedData R config with
    | error e => exact ⟨rfl, rfl⟩
    | ok data =>
      rw [Except.mapError, Fallible.andThen_ok, Fallible.sat_bind]
      refine Fallible.sat_mono (sat_atomicWrite htmp data) fun r dir' h => ?_
      rw [if_neg (by simp)] at h
      obtain rfl := h.returns.mpr rfl
      rw [Fallible.andThen_ok]
      exact sat_run.mpr ⟨nofun, fun _ => ⟨rfl, h.content⟩⟩

end Undisturbed

/-! ### What is written -/

/-- The names of the servers of a configuration, each of them once. -/
def distinctNames (config : HubConfig) : List String := (config.mcpServers.map (·.name)).dedup

theorem size_setAll {ν : Type} (l : List (String × ν)) :
    (Dict.empty.setAll l).size = (l.map Prod.fst).dedup.length := by
  rw [← Dict.length_keys]
  refine List.Perm.length_eq ?_
  refine (List.perm_ext_iff_of_nodup (Dict.keys_nodup _) (List.nodup_dedup _)).mpr fun k => ?_
  rw [Dict.mem_keys_setAll, List.mem_dedup, Dict.keys_empty]
  simp

/-- The servers are written under their names. -/
theorem map_fst_savedServers {R : Runtime} {l : List MCPServerConfig} {l' : List (String × Json)}
    (h : l.mapM (savedServer R) = .ok l') : l'.map Prod.fst = l.map (·.name) := by
  induction Checked.mapM_eq_ok_iff.mp h with
  | nil => rfl
  | @cons srv e l l' hsrv hrest ih =>
    obtain ⟨s, hvalid, rfl⟩ := savedServer_eq_ok_iff.mp hsrv
    have hname : srv.name = s.name := (validateServerConfig_eq_ok_iff.mp hvalid).name
    rw [List.map_cons, List.map_cons, ih (Checked.mapM_eq_ok_iff.mpr hrest), hname]

/-- **What is counted in the file.** Of servers with one name, one is written. -/
theorem countServers_savedData {R : Runtime} {config : HubConfig} {data : Dict String Json}
    (h : savedData R config = .ok data) :
    countServers (.obj data.entries) = .ok (distinctNames config).length := by
  rw [savedData, Checked.bind_eq_ok_iff] at h
  obtain ⟨servers, hservers, hdata⟩ := h
  have hget : data.get? "mcpServers" = some (.obj (Dict.empty.setAll servers).entries) := by
    rw [← Except.ok.inj hdata, get?_saved, if_pos rfl]
  rw [countServers, Json.toDict, Dict.setAll_empty_entries, serversRaw, hget, Option.getD_some,
    Json.len, Json.toDict, Dict.setAll_empty_entries, size_setAll, map_fst_savedServers hservers,
    distinctNames]

/-! ### A save -/

section Save

variable {R : Runtime} {fails : OsCall → Bool} {underTest : Bool} {ts tmp path : String}
  {config : HubConfig} {dir : ConfigDir Loaded} {existing : Json} {n : ℕ}

/-- A save keeps most of the servers, or leaves the file alone. -/
structure Protects (R : Runtime) (fails : OsCall → Bool) (underTest : Bool) (ts tmp path : String)
    (config : HubConfig) (dir : ConfigDir Loaded) (n : ℕ) : Prop where
  /-- What is written has at least 70% of the servers there were. -/
  keeps : (saveConfigFile R fails underTest ts tmp path config false dir).1 = .ok () →
    ∃ value count, (saveConfigFile R fails underTest ts tmp path config false dir).2.files.get? path
      = some (.json value) ∧ countServers value = .ok count ∧ 7 * n ≤ 10 * count
  /-- Wherever it raises, the file is as it was. -/
  unchanged : ∀ e, (saveConfigFile R fails underTest ts tmp path config false dir).1 = .error e →
    (saveConfigFile R fails underTest ts tmp path config false dir).2.files.get? path =
      dir.files.get? path

/-- A save gets as far as putting the new file in the place of one with `n` servers: nothing fails
up to there, every server is valid, and the guard lets it pass. -/
structure Replaces (R : Runtime) (fails : OsCall → Bool) (underTest : Bool) (config : HubConfig)
    (n : ℕ) (data : Dict String Json) : Prop where
  secure : fails .secureBefore = false
  real : underTest = false
  guard : fails .openForGuard = true ∨ dropGuardMinimum n ≤ config.mcpServers.length
  snapshot : fails .openForSnapshot = true ∨ fails .snapshot = false
  mkdir : fails .mkdirBefore = false
  data : savedData R config = .ok data
  through : ¬ ∃ call ∈ untilReplace, fails call = true

/-- **Where a save ends.** -/
theorem sat_saveConfigFile (hfile : dir.files.get? path = some (.json existing))
    (hcount : countServers existing = .ok n) (hmany : 5 < n)
    (htmp : dir.files.contains tmp = false) :
    (saveConfigFile R fails underTest ts tmp path config false).sat (fun r dir' =>
      (Harmless path dir r dir' ∧ ¬ ∃ data, Replaces R fails underTest config n data) ∨
      ∃ data, Replaces R fails underTest config n data ∧
        dir'.files.get? path = some (.json (.obj data.entries)) ∧
        (r = .ok () ↔ fails .chmod = false ∧ fails .secureAfter = false)) dir := by
  have hne : tmp ≠ path := by
    rintro rfl
    rw [Dict.contains, hfile] at htmp
    cases htmp
  -- A step that does not pass ends the save before the file is touched.
  have hstop : ∀ {condition : Prop} {dir₁ : ConfigDir Loaded}, dir₁.files = dir.files →
      (∀ data, Replaces R fails underTest config n data → condition) → ¬ condition →
      ∀ (e : SaveError) (dir' : ConfigDir Loaded), dir'.files = dir₁.files →
      (Harmless path dir (.error e) dir' ∧ ¬ ∃ data, Replaces R fails underTest config n data) ∨
      ∃ data, Replaces R fails underTest config n data ∧
        dir'.files.get? path = some (.json (.obj data.entries)) ∧
        ((.error e : Except SaveError Unit) = .ok () ↔
          fails .chmod = false ∧ fails .secureAfter = false) := by
    intro condition dir₁ h₁ himplied hcondition e dir' hfiles
    refine .inl ⟨⟨⟨e, rfl⟩, by rw [hfiles, h₁]⟩, ?_⟩
    rintro ⟨data, h⟩
    exact hcondition (himplied data h)
  refine (passes_run .secureBefore).bind (hstop rfl fun _ h => h.secure) fun hsecure dir₁ h₁ => ?_
  refine (passes_testGuard underTest path).bind (hstop h₁ fun _ h => h.real) fun hreal dir₂ h₂ => ?_
  replace h₂ := h₂.trans h₁
  have hfile₂ : dir₂.files.get? path = some (.json existing) := by rw [h₂, hfile]
  refine (passes_guardStep hfile₂ hcount hmany).bind (hstop h₂ fun _ h => h.guard)
    fun hguard dir₃ h₃ => ?_
  replace h₃ := h₃.trans h₂
  have hfile₃ : dir₃.files.get? path = some (.json existing) := by rw [h₃, hfile]
  refine (passes_snapshotStep hfile₃ hcount (by omega)).bind (hstop h₃ fun _ h => h.snapshot)
    fun hsnapshot dir₄ h₄ => ?_
  replace h₄ := h₄.trans h₃
  refine (passes_run .mkdirBefore).bind (hstop h₄ fun _ h => h.mkdir) fun hmkdir dir₅ h₅ => ?_
  replace h₅ := h₅.trans h₄
  rw [Fallible.sat_bind, Saving.ofChecked, Fallible.sat_ofExcept]
  cases hdata : savedData R config with
  | error e =>
    have hinvalid : ¬ ∃ data, savedData R config = .ok data := by
      rintro ⟨data, h⟩
      rw [hdata] at h
      cases h
    exact hstop h₅ (fun data h => ⟨data, h.data⟩) hinvalid (.config e) dir₅ rfl
  | ok data =>
    rw [Except.mapError, Fallible.andThen_ok, Fallible.sat_bind]
    refine Fallible.sat_mono (sat_atomicWrite hne data) fun r dir₆ h₆ => ?_
    by_cases hthrough : ∃ call ∈ untilReplace, fails call = true
    · rw [if_pos hthrough] at h₆
      obtain ⟨⟨e, rfl⟩, hsame⟩ := h₆
      refine .inl ⟨⟨⟨e, rfl⟩, by rw [hsame, h₅]⟩, ?_⟩
      rintro ⟨data, h⟩
      exact h.through hthrough
    · rw [if_neg hthrough] at h₆
      have hreplaces : Replaces R fails underTest config n data :=
        ⟨hsecure, hreal, hguard, hsnapshot, hmkdir, hdata, hthrough⟩
      cases r with
      | error e =>
        refine .inr ⟨data, hreplaces, h₆.content, by simp, fun h => ?_⟩
        cases h₆.returns.mpr h.1
      | ok u =>
        have hchmod := h₆.returns.mp rfl
        rw [Fallible.andThen_ok, sat_run]
        refine ⟨fun h => .inr ⟨data, hreplaces, h₆.content, by simp, fun hok => ?_⟩,
          fun h => .inr ⟨data, hreplaces, h₆.content, fun _ => ⟨hchmod, h⟩, fun _ => rfl⟩⟩
        rw [h] at hok
        cases hok.2

/-- **When a save protects the servers.** Without force, over a file with more than five servers:
the file keeps at least 70% of them and is left alone by a save that raises, just when the save
ends before the new file is in its place; or goes through with at least 70% as many names of
servers; or fails after that and has written what was there. -/
theorem protects_iff (hfile : dir.files.get? path = some (.json existing))
    (hcount : countServers existing = .ok n) (hmany : 5 < n)
    (htmp : dir.files.contains tmp = false) :
    Protects R fails underTest ts tmp path config dir n ↔
      ∀ data, Replaces R fails underTest config n data →
        if fails .chmod = false ∧ fails .secureAfter = false then
          7 * n ≤ 10 * (distinctNames config).length
        else .obj data.entries = existing := by
  have hend : (saveConfigFile R fails underTest ts tmp path config false).sat _ dir :=
    sat_saveConfigFile hfile hcount hmany htmp
  rw [Fallible.sat] at hend
  constructor
  · rintro ⟨hkeeps, hunchanged⟩ data hdata
    rcases hend with ⟨-, hnot⟩ | ⟨data', hdata', hcontent, hreturns⟩
    · exact absurd ⟨data, hdata⟩ hnot
    · obtain rfl : data = data' := Except.ok.inj (hdata.data.symm.trans hdata'.data)
      split_ifs with hok
      · obtain ⟨value, count, hvalue, hcount', hmost⟩ := hkeeps (hreturns.mpr hok)
        rw [hcontent] at hvalue
        obtain rfl : .obj data.entries = value := by cases hvalue; rfl
        rw [countServers_savedData hdata.data] at hcount'
        rwa [← Except.ok.inj hcount'] at hmost
      · cases hr : (saveConfigFile R fails underTest ts tmp path config false dir).1 with
        | ok u => exact absurd (hreturns.mp hr) hok
        | error e =>
          have := hunchanged e hr
          rw [hcontent, hfile] at this
          cases this
          rfl
  · intro h
    rcases hend with ⟨⟨⟨e, he⟩, hsame⟩, -⟩ | ⟨data, hdata, hcontent, hreturns⟩
    · refine ⟨fun hok => ?_, fun _ _ => hsame⟩
      rw [he] at hok
      cases hok
    · have hcondition := h data hdata
      refine ⟨fun hok => ?_, fun e he => ?_⟩
      · rw [if_pos (hreturns.mp hok)] at hcondition
        exact ⟨_, _, hcontent, countServers_savedData hdata.data, hcondition⟩
      · rw [if_neg fun hok => by rw [hreturns.mpr hok] at he; cases he] at hcondition
        rw [hcontent, hfile, hcondition]

end Save

/-- A configuration of servers with some names. -/
def serversNamed (names : List String) : HubConfig where
  mcpServers := names.map fun name => { name := name, command := "run" }

/-- A directory with a configuration of six servers. -/
def sixServers : ConfigDir Loaded where
  path := "/root/.slm-mcp-hub"
  files := Dict.empty.set "config.json" (.json (configOf ["a", "b", "c", "d", "e", "f"]))
  snapshots := .empty

/-- Five servers are enough to take the place of six. -/
theorem protects_iff_sixServers :
    Protects plainRuntime (fun _ => false) false "20260101-000000" ".config.json.1.tmp"
      "config.json" (serversNamed ["a", "b", "c", "d", "e"]) sixServers 6 := by
  refine (protects_iff rfl rfl (by decide) rfl).mpr fun data _ => ?_
  rw [if_pos ⟨rfl, rfl⟩]
  decide

theorem savedData_serversNamed :
    ∃ data, savedData plainRuntime (serversNamed ["a", "b", "c", "d"]) = .ok data :=
  ⟨_, rfl⟩

/-- Two of six servers are dropped, and the guard does not mind. -/
theorem not_protects :
    ¬ ∀ (R : Runtime) (fails : OsCall → Bool) (underTest : Bool) (ts tmp path : String)
      (config : HubConfig) (dir : ConfigDir Loaded) (existing : Json) (n : ℕ),
      dir.files.get? path = some (.json existing) → countServers existing = .ok n → 5 < n →
      dir.files.contains tmp = false → Protects R fails underTest ts tmp path config dir n := by
  intro h
  obtain ⟨data, hdata⟩ := savedData_serversNamed
  have hprotects := h plainRuntime (fun _ => false) false "20260101-000000" ".config.json.1.tmp"
    "config.json" (serversNamed ["a", "b", "c", "d"]) sixServers _ 6 rfl rfl (by decide) rfl
  have hguard : dropGuardMinimum 6 ≤ 4 := by decide +kernel
  have hreplaces : Replaces plainRuntime (fun _ => false) false (serversNamed ["a", "b", "c", "d"])
      6 data := ⟨rfl, rfl, .inr hguard, .inr rfl, rfl, hdata, by simp⟩
  have hend : (saveConfigFile plainRuntime (fun _ => false) false "20260101-000000"
      ".config.json.1.tmp" "config.json" (serversNamed ["a", "b", "c", "d"]) false).sat _
        sixServers := sat_saveConfigFile rfl rfl (by decide) rfl
  rcases hend with ⟨-, hnot⟩ | ⟨data', hdata', hcontent, hreturns⟩
  · exact hnot ⟨data, hreplaces⟩
  · obtain ⟨value, count, hvalue, hcount, hmost⟩ := hprotects.keeps (hreturns.mpr ⟨rfl, rfl⟩)
    rw [hcontent] at hvalue
    obtain rfl : .obj data'.entries = value := by cases hvalue; rfl
    rw [countServers_savedData hdata'.data] at hcount
    obtain rfl : (distinctNames (serversNamed ["a", "b", "c", "d"])).length = count :=
      Except.ok.inj hcount
    revert hmost
    decide

end SlmMcpHub
