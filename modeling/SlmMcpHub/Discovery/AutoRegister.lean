import Mathlib.Data.List.Infix
import SlmMcpHub.Library.Fallible
import SlmMcpHub.Library.Nested
import SlmMcpHub.Library.Text

/-!
# Registration with a client

`discovery/auto_register.py`: the hub enters itself in the configuration of an AI client, or takes
the place of the client's servers, and keeps a copy of the file it found. What the disk does is
given with each operation.

## Main definitions

* `ClientFiles`, `Disk` — the file of a client, its copy, and what becomes of each access
* `AutoRegister.register`, `AutoRegister.unregister`, `AutoRegister.registerTransparent`
* `ReadsAs` — the configuration can be read

## Main results

* `readJson_cases`, `copyToBackup_apply` — what reading and copying come to
-/

namespace SlmMcpHub

/-! ### Files -/

/-- `DetectedClient`, as far as the registration reads it. -/
structure DetectedClient where
  name : String
  configPath : String
  hubRegistered : Bool

/-- What `_read_json` makes of a text. -/
inductive ReadText where
  | json (value : Json)
  /-- `JSONDecodeError` -/
  | decodeError (message : String)
  /-- `UnicodeDecodeError` -/
  | undecodable

/-- A kind of text, read and written as JSON. -/
structure TextFormat (Content : Type) where
  read : Content → ReadText
  /-- `json.dumps(data, indent=2) + "\n"` -/
  write : Json → Content
  write_injective : Function.Injective write

/-- Files that hold JSON. -/
def jsonText : TextFormat Json where
  read := .json
  write := id
  write_injective := Function.injective_id

/-- The configuration of a client and its `.pre-hub-backup`, where they exist. -/
structure ClientFiles (Content : Type) where
  config : Option Content
  backup : Option Content

/-- What becomes of writing a file: an `OSError` may leave something else in it. -/
inductive Io (Content : Type) where
  | succeeds
  | fails (message : String) (left : Option Content)

/-- What the disk does during an operation. -/
structure Disk (Content : Type) where
  /-- The `OSError` of reading the configuration. -/
  read : Option String := none
  backup : Io Content := .succeeds
  write : Io Content := .succeeds
  restore : Io Content := .succeeds

/-- A file after something is written to it, and what is raised. -/
def Io.store {Content : Type} (file : Option Content) (new : Content) :
    Io Content → Option Content × Option String
  | .succeeds => (some new, none)
  | .fails message left => (left.or file, some message)

/-- What is not caught. -/
inductive RegisterError where
  /-- `TypeError` -/
  | type
  /-- `AttributeError` -/
  | attribute
  /-- `UnicodeDecodeError` -/
  | undecodable

/-- An operation on the files of a client. -/
abbrev Registering (Content α : Type) : Type :=
  Fallible (ClientFiles Content) RegisterError α

section Files

variable {Content : Type} (T : TextFormat Content) (disk : Disk Content)

/-- `_read_json`, with the text of what `register` and the others catch. -/
def readJson (path : String) : Registering Content (Except String Json) := do
  let files ← Fallible.get
  match disk.read, files.config with
  | some message, _ => pure (.error message)
  | none, none => pure (.error s!"[Errno 2] No such file or directory: '{path}'")
  | none, some content =>
    match T.read content with
    | .json value => pure (.ok value)
    | .decodeError message => pure (.error message)
    | .undecodable => throw .undecodable

/-- `shutil.copy2(config_path, backup_path)` -/
def copyToBackup : Registering Content (Option String) := do
  let files ← Fallible.get
  match files.config with
  | none => pure (some "[Errno 2] No such file or directory")
  | some content =>
    let (backup, raised) := disk.backup.store files.backup content
    Fallible.modify fun files => { files with backup }
    pure raised

/-- `_write_json(config_path, data)` -/
def writeJson (data : Json) : Registering Content (Option String) := do
  let files ← Fallible.get
  let (config, raised) := disk.write.store files.config (T.write data)
  Fallible.modify fun files => { files with config }
  pure raised

/-- `shutil.copy2(backup_path, config_path)`, whatever it raises -/
def restoreBackup : Registering Content Unit :=
  Fallible.modify fun files =>
    match files.backup with
    | none => files
    | some content => { files with config := (disk.restore.store files.config content).1 }

end Files

/-! ### Sections -/

/-- `HUB_ENTRY_NAME` -/
def hubEntryName : String := "hub"

/-- The keys that lead to a section: `mcp_key.split(".")` -/
def sectionPath (mcpKey : String) : List String := (mcpKey.toList.splitOn '.').map String.ofList

/-- `_inject_hub_entry` -/
def injectHubEntry (data : Json) (mcpKey entryName : String) (entryValue : Json) :
    Except RegisterError Json :=
  Json.updateAt .type (fun servers =>
    match servers with
    | .obj entries => .ok (.obj ((Json.toDict entries).set entryName entryValue).entries)
    | _ => .error .type) (sectionPath mcpKey) data

/-- `_remove_from_section` -/
def removeFromSection (data : Json) (mcpKey entryName : String) : Except RegisterError Json :=
  Json.updateAt .type (fun servers =>
    match servers with
    | .obj entries => .ok (.obj ((Json.toDict entries).erase entryName).entries)
    | .arr _ => .error .type
    | _ => .error .attribute) (sectionPath mcpKey) data

/-- `_get_section_readonly`, of a key with a dot. -/
def getNestedSection : List String → Json → Json
  | [], .obj entries => .obj entries
  | key :: path, .obj entries =>
    getNestedSection path (((Json.toDict entries).get? key).getD (.obj []))
  | _, _ => .obj []

/-- `_get_section_readonly` -/
def getSectionReadonly (data : Json) (mcpKey : String) : Except RegisterError Json :=
  if mcpKey.toList.contains '.' then .ok (getNestedSection (sectionPath mcpKey) data)
  else
    match data with
    | .obj entries => .ok (((Json.toDict entries).get? mcpKey).getD (.obj []))
    | _ => .error .attribute

/-- `entry_name in servers` -/
def hasEntry (entryName : String) : Json → Except RegisterError Bool
  | .obj entries => .ok ((Json.toDict entries).contains entryName)
  | .arr elements => .ok (elements.contains (.str entryName))
  | .str s => .ok (entryName.toList <:+: s.toList)
  | _ => .error .type

/-! ### Operations -/

/-- `AutoRegister` -/
structure AutoRegister where
  hubUrl : String
  transport : String := "http"
  stdioCommand : String := "slm-hub"
  stdioArgs : List String := ["mcp"]
  stdioEnv : List (String × Json) := []

/-- `RegistrationPlan` -/
structure RegistrationPlan where
  clientName : String
  configPath : String
  hubEntry : Json
  backupPath : String
  alreadyRegistered : Bool

/-- `RegistrationResult` -/
structure RegistrationResult where
  success : Bool
  clientName : String
  configPath : String
  backupPath : Option String := none
  error : Option String := none

/-- The path of the copy. -/
def DetectedClient.backupPath (client : DetectedClient) : String :=
  client.configPath ++ ".pre-hub-backup"

/-- An operation ends without success. -/
def DetectedClient.failed (client : DetectedClient) (error : String)
    (backupPath : Option String) : RegistrationResult :=
  { success := false, clientName := client.name, configPath := client.configPath, backupPath,
    error := some error }

/-- An operation ends with success. -/
def DetectedClient.succeeded (client : DetectedClient) (backupPath : Option String)
    (error : Option String) : RegistrationResult :=
  { success := true, clientName := client.name, configPath := client.configPath, backupPath, error }

/-- `DEFAULT_PORT` -/
def defaultHubPort : ℕ := 52414

namespace AutoRegister

/-- `AutoRegister(hub_url)`, over HTTP -/
def init (hubUrl : Option String) : AutoRegister where
  hubUrl := match hubUrl with
    | some url => if url = "" then s!"http://127.0.0.1:{defaultHubPort}/mcp" else url
    | none => s!"http://127.0.0.1:{defaultHubPort}/mcp"

/-- `_entry`, by `_build_hub_entry` -/
def entry (r : AutoRegister) : Json :=
  if r.transport = "stdio" then
    .obj ([("command", .str r.stdioCommand), ("args", .arr (r.stdioArgs.map .str))] ++
      if r.stdioEnv = [] then [] else [("env", .obj r.stdioEnv)])
  else .obj [("type", .str "http"), ("url", .str r.hubUrl)]

/-- `plan` -/
def plan (r : AutoRegister) (client : DetectedClient) : RegistrationPlan where
  clientName := client.name
  configPath := client.configPath
  hubEntry := r.entry
  backupPath := client.backupPath
  alreadyRegistered := client.hubRegistered

variable {Content : Type} (T : TextFormat Content) (disk : Disk Content)

/-- The new content is written; if that fails, the copy is put back. -/
def writeOrRestore (client : DetectedClient) (updated : Json) :
    Registering Content RegistrationResult := do
  match ← writeJson T disk updated with
  | some message =>
    restoreBackup disk
    pure (client.failed s!"Failed to write config: {message}" (some client.backupPath))
  | none => pure (client.succeeded (some client.backupPath) none)

/-- `register`: a result, or the plan of a dry run -/
def register (r : AutoRegister) (client : DetectedClient) (mcpKey : String)
    (dryRun : Bool) : Registering Content (RegistrationPlan ⊕ RegistrationResult) := do
  if dryRun then pure (.inl (r.plan client))
  else if client.hubRegistered then
    pure (.inr (client.succeeded none (some "already_registered")))
  else
    match ← readJson T disk client.configPath with
    | .error message => pure (.inr (client.failed s!"Failed to read config: {message}" none))
    | .ok data =>
      match ← copyToBackup disk with
      | some message => pure (.inr (client.failed s!"Failed to create backup: {message}" none))
      | none =>
        let updated ← Fallible.ofExcept (injectHubEntry data mcpKey hubEntryName r.entry)
        .inr <$> writeOrRestore T disk client updated

/-- `unregister` -/
def unregister (client : DetectedClient) (mcpKey : String) :
    Registering Content RegistrationResult := do
  match ← readJson T disk client.configPath with
  | .error message => pure (client.failed s!"Failed to read config: {message}" none)
  | .ok data =>
    let servers ← Fallible.ofExcept (getSectionReadonly data mcpKey)
    if ← Fallible.ofExcept (hasEntry hubEntryName servers) then
      let updated ← Fallible.ofExcept (removeFromSection data mcpKey hubEntryName)
      match ← writeJson T disk updated with
      | some message => pure (client.failed s!"Failed to write config: {message}" none)
      | none => pure (client.succeeded none none)
    else pure (client.succeeded none (some "not_registered"))

/-- The base of the addresses of the servers. -/
def baseUrl (r : AutoRegister) : String := Text.rstrip "/" (Text.rstrip "/mcp" r.hubUrl)

/-- The entries that take the place of a client's servers. -/
def newServers (r : AutoRegister) (serverNames : List String) : Dict String Json :=
  Dict.empty.setAll (serverNames.map fun name =>
    (name, .obj [("type", .str "http"), ("url", .str s!"{r.baseUrl}/mcp/{name}")]))

/-- `register_transparent` -/
def registerTransparent (r : AutoRegister) (client : DetectedClient) (serverNames : List String)
    (mcpKey : String) (dryRun : Bool) :
    Registering Content RegistrationResult := do
  match ← readJson T disk client.configPath with
  | .error message => pure (client.failed s!"Failed to read config: {message}" none)
  | .ok data =>
    let newServers := r.newServers serverNames
    if dryRun then
      pure (client.succeeded (some client.backupPath)
        (some s!"dry_run:would_replace_{newServers.size}_servers"))
    else
      match ← copyToBackup disk with
      | some message => pure (client.failed s!"Failed to create backup: {message}" none)
      | none =>
        let updated ← Fallible.ofExcept
          (Json.updateAt .type (fun _ => .ok (.obj newServers.entries)) (sectionPath mcpKey) data)
        writeOrRestore T disk client updated

end AutoRegister

/-! ### Reading and copying -/

section ReadAndCopy

variable {Content : Type} (T : TextFormat Content)

/-- The configuration is read, and is this JSON. -/
def ReadsAs (disk : Disk Content) (files : ClientFiles Content) (content : Content)
    (data : Json) : Prop :=
  disk.read = none ∧ files.config = some content ∧ T.read content = .json data

variable {T} {disk : Disk Content} {files : ClientFiles Content} {content : Content} {data : Json}

theorem ReadsAs.content_eq {content' : Content} {data' : Json}
    (h : ReadsAs T disk files content data) (h' : ReadsAs T disk files content' data') :
    content' = content :=
  Option.some.inj (h'.2.1.symm.trans h.2.1)

theorem ReadsAs.data_eq {content' : Content} {data' : Json}
    (h : ReadsAs T disk files content data) (h' : ReadsAs T disk files content' data') :
    data' = data := by
  obtain rfl := h.content_eq h'
  exact ReadText.json.inj (h'.2.2.symm.trans h.2.2)

/-- Reading leaves the files as they are, and either there is a value or the operation ends. -/
theorem readJson_cases (T : TextFormat Content) (disk : Disk Content) (files : ClientFiles Content)
    (path : String) :
    (∃ content data, ReadsAs T disk files content data ∧
      readJson T disk path files = (.ok (.ok data), files)) ∨
    ((∀ content data, ¬ ReadsAs T disk files content data) ∧
      ((∃ message, readJson T disk path files = (.ok (.error message), files)) ∨
        readJson T disk path files = (.error .undecodable, files))) := by
  rw [readJson, Fallible.get_bind_apply]
  cases hread : disk.read with
  | some message =>
    refine .inr ⟨fun content data h => ?_, .inl ⟨_, rfl⟩⟩
    rw [h.1] at hread
    cases hread
  | none =>
    cases hconfig : files.config with
    | none =>
      refine .inr ⟨fun content data h => ?_, .inl ⟨_, rfl⟩⟩
      rw [h.2.1] at hconfig
      cases hconfig
    | some content =>
      have hother : (∀ data, T.read content ≠ .json data) →
          ∀ content' data, ¬ ReadsAs T disk files content' data := by
        intro hne content' data h
        obtain rfl := Option.some.inj (hconfig.symm.trans h.2.1)
        exact hne data h.2.2
      cases htext : T.read content with
      | json data => exact .inl ⟨content, data, ⟨hread, hconfig, htext⟩, by simp only [htext]; rfl⟩
      | decodeError message =>
        refine .inr ⟨hother fun data h => ?_, .inl ⟨message, by simp only [htext]; rfl⟩⟩
        rw [htext] at h
        cases h
      | undecodable =>
        refine .inr ⟨hother fun data h => ?_, .inr (by simp only [htext]; rfl)⟩
        rw [htext] at h
        cases h

theorem ReadsAs.readJson_apply (h : ReadsAs T disk files content data) (path : String) :
    readJson T disk path files = (.ok (.ok data), files) := by
  obtain ⟨content', data', h', hread⟩ | ⟨hnot, -⟩ :=
    readJson_cases T disk files path
  · rw [hread, h.data_eq h']
  · exact absurd h (hnot content data)

theorem copyToBackup_apply (hconfig : files.config = some content) :
    copyToBackup disk files = (.ok (disk.backup.store files.backup content).2,
      { files with backup := (disk.backup.store files.backup content).1 }) := by
  obtain ⟨config, backup⟩ := files
  obtain rfl : config = some content := hconfig
  rfl

end ReadAndCopy

end SlmMcpHub
