import Mathlib.Data.List.Infix
import SlmMcpHub.Core.SettingsFrame

/-!
# The commands that edit the servers

`cli/server_commands.py`, and the two commands that import servers: `config import` of
`cli/main.py`, and `setup import` of `cli/setup_commands.py`, which is `import_mcps` of
`discovery/auto_register.py`. Each of them loads the configuration, makes another list of its
servers, and saves it. What it loads is in the hub's directory; what it saves goes to the directory
the configuration names.

The hub is told to reload after some of the commands. What reading the file of an import comes to
is given with the command.

## Main definitions

* `ConfigFiles` — the configuration files, by their directories
* `editConfig` — load, edit, save
* `serverAdd`, `serverRemove`, `serverModify`
* `SourceFile`, `chooseFormat` — the file of an import, and the format it is taken to have
* `configImport`, `setupImport`
* `Command`, `Command.run`, `runAll`
-/

namespace SlmMcpHub

namespace Cli

/-- The exception that reading a file ends with. -/
inductive ReadError where
  /-- `OSError` -/
  | os (message : String)
  /-- `JSONDecodeError` -/
  | decode (message : String)
  /-- Another one: `UnicodeDecodeError`, `RecursionError`, or the `ValueError` of an integer with
  too many digits. -/
  | other (message : String)

/-- How a command ends. -/
inductive Ends where
  /-- The configuration is saved; the hub is told to reload, or not. -/
  | done (message : String) (reload : Bool)
  /-- There is nothing to save. -/
  | idle (message : String)
  /-- `sys.exit(1)` -/
  | exited (message : String)
  /-- `click.BadParameter` -/
  | badParameter (message : String)
  | raised (e : ConfigError)
  /-- The file of an import could not be read. -/
  | unread (e : ReadError)

/-- Whether something was saved. -/
def Ends.isDone : Ends → Bool
  | .done .. => true
  | _ => false

/-- The configuration files, by the directories they are in. -/
abbrev ConfigFiles : Type := Dict String (Dict String Json)

/-- An edited list of servers, with what is said in the end. -/
structure Edited where
  servers : List MCPServerConfig
  message : String
  reload : Bool

/-- What a command makes of the servers there are. -/
abbrev Edit : Type := List MCPServerConfig → Except Ends Edited

/-- `load_config`, an edit of its servers, and `save_config`. -/
def editConfig (R : Runtime) (env : HubEnv) (edit : Edit) (files : ConfigFiles) :
    Ends × ConfigFiles :=
  match loadConfig R env (files.get? (getConfigDir env)) with
  | .error e => (.raised e, files)
  | .ok config =>
    match edit config.mcpServers with
    | .error ends => (ends, files)
    | .ok edited =>
      match saveConfig R (files.get? config.configDir)
          { config with mcpServers := edited.servers } false with
      | .error e => (.raised e, files)
      | .ok saved => (.done edited.message edited.reload, files.set config.configDir saved)

/-! ### `slm-hub server` -/

/-- `pair.split("=", 1)`, of a text with an `=`. -/
def splitPair (pair : String) : Option (String × String) :=
  match pair.toList.dropWhile (· ≠ '=') with
  | [] => none
  | _ :: value => some (String.ofList (pair.toList.takeWhile (· ≠ '=')), String.ofList value)

/-- `_parse_env_args` -/
def parseEnvArgs : Dict String String → List String → Except Ends (Dict String String)
  | out, [] => .ok out
  | out, pair :: pairs =>
    match splitPair pair with
    | none => .error (.badParameter s!"--env expects KEY=VALUE, got '{pair}'")
    | some (k, v) => parseEnvArgs (out.set (Text.strip k) (Text.strip v)) pairs

/-- The options of `server add`. -/
structure AddOptions where
  command : Option String := none
  args : List String := []
  envs : List String := []
  transport : Transport := .stdio
  url : String := ""
  headers : List String := []
  disabled : Bool := false
  noReload : Bool := false

/-- The server that is added. -/
def AddOptions.server (options : AddOptions) (name : String)
    (env headers : Dict String String) : MCPServerConfig where
  name := name
  transport := options.transport
  command := options.command.getD ""
  args := options.args
  env := env
  url := options.url
  headers := headers
  enabled := !options.disabled

/-- What a transport needs. -/
def AddOptions.checkTransport (options : AddOptions) : Except Ends Unit :=
  if options.transport = .stdio then
    if options.command.getD "" = "" then
      .error (.exited "Error: stdio transport requires --command")
    else .ok ()
  else if options.url = "" then
    .error (.exited s!"Error: {options.transport.value} transport requires --url")
  else .ok ()

/-- What `server_add` does with the servers. -/
def addServer (name : String) (options : AddOptions) : Edit := fun servers =>
  if servers.any (fun s => s.name = name) then
    .error (.exited
      s!"Error: server '{name}' already exists. Use 'server modify' to change it.")
  else
    match options.checkTransport with
    | .error ends => .error ends
    | .ok () =>
      match parseEnvArgs .empty options.envs with
      | .error ends => .error ends
      | .ok env =>
        match parseEnvArgs .empty options.headers with
        | .error ends => .error ends
        | .ok headers =>
          .ok ⟨servers ++ [options.server name env headers], s!"Added '{name}' to config.",
            !(options.noReload || options.disabled)⟩

/-- `server_add` -/
def serverAdd (R : Runtime) (env : HubEnv) (name : String) (options : AddOptions) :
    ConfigFiles → Ends × ConfigFiles :=
  editConfig R env (addServer name options)

/-- What `server_remove` does with the servers. -/
def removeServer (name : String) (noReload : Bool) : Edit := fun servers =>
  if servers.any (fun s => s.name = name) then
    .ok ⟨servers.filter fun s => s.name ≠ name, s!"Removed '{name}' from config.", !noReload⟩
  else .error (.exited s!"Error: server '{name}' not found.")

/-- `server_remove` -/
def serverRemove (R : Runtime) (env : HubEnv) (name : String) (noReload : Bool) :
    ConfigFiles → Ends × ConfigFiles :=
  editConfig R env (removeServer name noReload)

/-- The options of `server modify`. -/
structure ModifyOptions where
  enabled : Option Bool := none
  envs : List String := []
  args : List String := []
  command : Option String := none
  url : Option String := none
  noReload : Bool := false

/-- Nothing is to be changed. -/
def ModifyOptions.isEmpty (options : ModifyOptions) : Bool :=
  options.enabled.isNone && options.envs.isEmpty && options.args.isEmpty &&
    options.command.isNone && options.url.isNone

/-- `dc_replace(target, **updates)`, the environment being what the pairs say. -/
def ModifyOptions.apply (options : ModifyOptions) (env : Dict String String)
    (target : MCPServerConfig) : MCPServerConfig :=
  { target with
    enabled := options.enabled.getD target.enabled
    env := if options.envs.isEmpty then target.env else env
    args := if options.args.isEmpty then target.args else options.args
    command := options.command.getD target.command
    url := options.url.getD target.url }

/-- What `server_modify` does with the servers. -/
def modifyServer (name : String) (options : ModifyOptions) : Edit := fun servers =>
  match servers.find? (fun s => s.name = name) with
  | none => .error (.exited s!"Error: server '{name}' not found.")
  | some target =>
    match parseEnvArgs .empty options.envs with
    | .error ends => .error ends
    | .ok env =>
      if options.isEmpty then
        .error (.exited ("No changes specified. Use --enabled/--disabled, --env, --arg, " ++
          "--command, or --url."))
      else
        .ok ⟨servers.map fun s => if s.name = name then options.apply env target else s,
          s!"Modified '{name}' in config.", !options.noReload⟩

/-- `server_modify` -/
def serverModify (R : Runtime) (env : HubEnv) (name : String) (options : ModifyOptions) :
    ConfigFiles → Ends × ConfigFiles :=
  editConfig R env (modifyServer name options)

/-! ### Imports -/

/-- The format of a file with servers. -/
inductive Format where
  | claude
  | vscode
deriving DecidableEq

/-- `--format` -/
inductive FormatOption where
  | auto
  | given (format : Format)

/-- A file that exists, as an import reads it: the text by which its format is guessed, and what is
read of it as JSON after that. -/
structure SourceFile where
  name : String
  text : Except ReadError String
  json : Except ReadError Json

/-- `part in text` -/
def occursIn (part text : String) : Bool := part.toList <:+: text.toList

/-- The format a text seems to have. -/
def guessFormat (vscodeKeys : List String) (text : String) : Option Format :=
  if occursIn "mcpServers" text then some .claude
  else if vscodeKeys.any (occursIn · text) then some .vscode
  else none

/-- The format a file is read in. -/
def chooseFormat (vscodeKeys : List String) (file : SourceFile) :
    FormatOption → Except Ends Format
  | .given format => .ok format
  | .auto =>
    match file.text with
    | .error e => .error (.unread e)
    | .ok text =>
      match guessFormat vscodeKeys text with
      | some format => .ok format
      | none => .error (.exited
          "Could not auto-detect format. Use --format claude or --format vscode")

/-- The servers `config import` finds: `import_claude_config`, `import_vscode_config`. -/
def importedServers (raw : Dict String Json) : Format → Json
  | .claude => (raw.get? "mcpServers").getD (.obj [])
  | .vscode => (raw.get? "servers").getD
      ((raw.get? "mcp.servers").getD ((raw.get? "mcpServers").getD (.obj [])))

/-- The servers `import_mcps` finds. -/
def clientServers (raw : Dict String Json) : Format → Checked Json
  | .claude => .ok ((raw.get? "mcpServers").getD (.obj []))
  | .vscode =>
    match (raw.get? "mcp").getD (.obj []) with
    | .obj entries =>
      .ok ((raw.get? "servers").getD (((Json.toDict entries).get? "servers").getD (.obj [])))
    | _ => .error .attribute

/-- The servers that are not there yet. -/
def newServers (servers source : List MCPServerConfig) : List MCPServerConfig :=
  source.filter fun s => !servers.any (fun t => t.name = s.name)

/-- `existing + new`, unless there is nothing new. -/
def mergeServers (source : List MCPServerConfig) (nothing : String) (message : ℕ → ℕ → String) :
    Edit := fun servers =>
  if (newServers servers source).isEmpty then .error (.idle nothing)
  else
    .ok ⟨servers ++ newServers servers source,
      message (newServers servers source).length (servers ++ newServers servers source).length,
      false⟩

/-- An `ImportResult`, as `setup import` shows it. -/
def importResult (sourceName : String) (found imported : ℕ) : String :=
  s!"Source: {sourceName} ({found} servers)\nImported: {imported}\n" ++
    s!"Skipped (duplicates): {found - imported}"

/-- What `config import` takes from a file. -/
def importSource (R : Runtime) (option : FormatOption) (file : SourceFile) :
    Except Ends (List MCPServerConfig) := do
  let format ← chooseFormat ["servers", "mcp.servers"] file option
  match file.json with
  | .error e => .error (.unread e)
  | .ok (.obj entries) =>
    (loadServers R (importedServers (Json.toDict entries) format)).mapError .raised
  | .ok _ => .error (.raised .attribute)

/-- What `import_mcps` makes of an exception of `_read_json`. -/
def unreadSource (sourceName : String) : ReadError → Ends
  | .os _ | .decode _ => .idle (importResult sourceName 0 0)
  | .other message => .unread (.other message)

/-- What `setup import` takes from a file, by `import_mcps`. -/
def clientSource (R : Runtime) (option : FormatOption) (file : SourceFile) :
    Except Ends (List MCPServerConfig) := do
  let format ← chooseFormat ["servers"] file option
  match file.json with
  | .error e => .error (unreadSource file.name e)
  | .ok (.obj entries) =>
    (do
      let servers ← clientServers (Json.toDict entries) format
      let _ ← servers.len
      loadServers R servers).mapError .raised
  | .ok _ => .error (.raised .attribute)

/-- Servers are read, and merged with those there are. -/
def importServers (R : Runtime) (env : HubEnv) (source : Except Ends (List MCPServerConfig))
    (nothing : ℕ → String) (message : ℕ → ℕ → ℕ → String) (files : ConfigFiles) :
    Ends × ConfigFiles :=
  match source with
  | .error ends => (ends, files)
  | .ok source =>
    editConfig R env (mergeServers source (nothing source.length) (message source.length)) files

/-- `config_import` -/
def configImport (R : Runtime) (env : HubEnv) (option : FormatOption) (file : SourceFile) :
    ConfigFiles → Ends × ConfigFiles :=
  importServers R env (importSource R option file)
    (fun _ => "All servers already in config. Nothing to import.")
    fun _ new total => s!"Imported {new} new servers. Total: {total}"

/-- `setup_import` -/
def setupImport (R : Runtime) (env : HubEnv) (option : FormatOption) (file : SourceFile) :
    ConfigFiles → Ends × ConfigFiles :=
  importServers R env (clientSource R option file) (fun found => importResult file.name found 0)
    fun found new _ => importResult file.name found new

/-! ### Commands -/

inductive Command where
  | add (name : String) (options : AddOptions)
  | remove (name : String) (noReload : Bool)
  | modify (name : String) (options : ModifyOptions)
  | configImport (option : FormatOption) (file : SourceFile)
  | setupImport (option : FormatOption) (file : SourceFile)

/-- A command, run on its own. -/
def Command.run (R : Runtime) (env : HubEnv) : Command → ConfigFiles → Ends × ConfigFiles
  | .add name options => serverAdd R env name options
  | .remove name noReload => serverRemove R env name noReload
  | .modify name options => serverModify R env name options
  | .configImport option file => Cli.configImport R env option file
  | .setupImport option file => Cli.setupImport R env option file

/-- The files after some commands. -/
def runAll (R : Runtime) (env : HubEnv) (commands : List Command) (files : ConfigFiles) :
    ConfigFiles :=
  commands.foldl (fun files command => (command.run R env files).2) files

end Cli

end SlmMcpHub
