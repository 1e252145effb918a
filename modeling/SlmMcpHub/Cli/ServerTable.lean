import SlmMcpHub.Cli.ServerCommands
import SlmMcpHub.Library.Rounding
import Mathlib.Logic.Function.Basic

/-!
# The table of the servers

What the commands are for: a table of servers under their names, that one command after the other
changes in one place. The files refine it. A server of the table is as a file keeps it, that is with
what a save leaves out and a load puts back.

## Main definitions

* `ServerTable`, `tableOf`
* `Command.Acceptable`, `Command.effect` — what a command is for
* `Holds` — a table is what the hub loads

## Main results

* `loadConfig_saveConfig` — what is saved is loaded again
* `dropGuardMinimum_le` — no command is turned down because of the number of servers
* `holds_runAll`
-/

namespace SlmMcpHub

namespace Cli

/-! ### What is loaded -/

section Loaded

variable {R : Runtime} {env : HubEnv} {config : HubConfig}

/-- A server is read under its name. -/
theorem name_of_parse {name : String} {raw : Dict String Json} {srv : MCPServerConfig}
    (h : parseMcpServer R name raw = .ok srv) : srv.name = name := by
  obtain ⟨auth, -, h⟩ := Checked.bind_eq_ok_iff.mp h
  obtain ⟨maxConcurrency, -, h⟩ := Checked.bind_eq_ok_iff.mp h
  cases hurl : raw.get? "url" with
  | some u =>
    simp only [hurl] at h
    exact (validateServerConfig_eq_ok_iff.mp h).name.symm
  | none =>
    simp only [hurl] at h
    obtain ⟨args, -, h⟩ := Checked.bind_eq_ok_iff.mp h
    exact (validateServerConfig_eq_ok_iff.mp h).name.symm

/-- Servers that are loaded have passed the validation, and their names are different. -/
structure Sound (R : Runtime) (servers : List MCPServerConfig) : Prop where
  valid : ∀ srv ∈ servers, Validates R srv.unchecked srv
  nodup : (servers.map (·.name)).Nodup

theorem sound_nil : Sound R [] := ⟨fun _ h => absurd h List.not_mem_nil, List.nodup_nil⟩

theorem parseServerEntry_eq_ok {e : String × Json} {srv : MCPServerConfig}
    (h : parseServerEntry R e = .ok srv) : srv.name = e.1 ∧ Validates R srv.unchecked srv := by
  obtain ⟨name, v⟩ := e
  cases v with
  | obj entries => exact ⟨name_of_parse h, (readFrom_of_parse h).2⟩
  | _ => cases h

theorem map_name_of_parse {entries : List (String × Json)} {servers : List MCPServerConfig}
    (h : List.Forall₂ (fun e srv => parseServerEntry R e = .ok srv) entries servers) :
    servers.map (·.name) = entries.map Prod.fst := by
  induction h with
  | nil => rfl
  | cons he _ ih => rw [List.map_cons, List.map_cons, ih, (parseServerEntry_eq_ok he).1]

theorem sound_loadServers {v : Json} {servers : List MCPServerConfig}
    (h : loadServers R v = .ok servers) : Sound R servers ∧ v.len = .ok servers.length := by
  cases v with
  | obj entries =>
    have hforall := Checked.mapM_eq_ok_iff.mp h
    have hnames : servers.map (·.name) = (Json.toDict entries).keys := map_name_of_parse hforall
    refine ⟨⟨fun srv hsrv => ?_, hnames ▸ Dict.keys_nodup _⟩, ?_⟩
    · obtain ⟨e, -, he⟩ := Checked.mem_of_mapM h hsrv
      exact (parseServerEntry_eq_ok he).2
    · rw [Json.len, Dict.size, hforall.length_eq]
  | _ => cases h

theorem mcpServers_readConfig {raw : Dict String Json} (h : readConfig R env raw = .ok config) :
    loadServers R (serversRaw raw) = .ok config.mcpServers := by
  simp only [readConfig, Checked.bind_eq_ok_iff] at h
  obtain ⟨servers, hservers, _, -, _, -, _, -, _, -, _, -, _, -, _, -, _, -, _, -, _, -, _, -, _, -,
    _, -, _, -, _, -, _, -, h⟩ := h
  obtain rfl := Except.ok.inj h
  exact hservers

/-- What is loaded comes from somewhere, before the overrides. -/
theorem exists_base {file : Option (Dict String Json)} (h : loadConfig R env file = .ok config) :
    ∃ base, applyEnvOverrides env base = .ok config ∧
      (file = none → base.mcpServers = []) ∧
      ∀ raw, file = some raw → loadServers R (serversRaw raw) = .ok base.mcpServers := by
  cases file with
  | none => exact ⟨_, h, fun _ => rfl, fun _ hraw => by cases hraw⟩
  | some raw =>
    obtain ⟨base, hread, happly⟩ := Checked.bind_eq_ok_iff.mp h
    have hservers := mcpServers_readConfig hread
    exact ⟨base, happly, by simp, by simpa using hservers⟩

/-- Overrides that were applied are usable. -/
theorem usable_of_applyEnvOverrides {base : HubConfig}
    (h : applyEnvOverrides env base = .ok config) : env.Usable := by
  obtain ⟨port, startup, idle, live, hpos, ⟨n, hn, -⟩, hstartup, hidle, hlive, -⟩ :=
    applyEnvOverrides_eq_ok h
  exact
    { port := fun s hs => ⟨n, parse_of_intOverride hn s hs⟩
      startup := fun s hs => ⟨startup, parse_of_intOverride hstartup s hs, by omega⟩
      idle := fun s hs => ⟨idle, parse_of_intOverride hidle s hs, by omega⟩
      live := fun s hs => ⟨live, parse_of_intOverride hlive s hs, by omega⟩ }

theorem mcpServers_applyEnvOverrides {base : HubConfig}
    (h : applyEnvOverrides env base = .ok config) : config.mcpServers = base.mcpServers := by
  obtain ⟨_, _, _, _, _, -, -, -, -, rfl⟩ := applyEnvOverrides_eq_ok h
  rfl

theorem sound_loadConfig {file : Option (Dict String Json)}
    (h : loadConfig R env file = .ok config) : Sound R config.mcpServers ∧
      ∀ raw, file = some raw → (serversRaw raw).len = .ok config.mcpServers.length := by
  obtain ⟨base, happly, hnone, hsome⟩ := exists_base h
  rw [mcpServers_applyEnvOverrides happly]
  cases file with
  | none => exact ⟨hnone rfl ▸ sound_nil, fun raw hraw => by cases hraw⟩
  | some raw =>
    obtain ⟨hsound, hlen⟩ := sound_loadServers (hsome raw rfl)
    exact ⟨hsound, fun raw' hraw => Option.some.inj hraw ▸ hlen⟩

end Loaded

/-! ### Saving -/

section Saved

variable {R : Runtime} {env : HubEnv} {config : HubConfig} {servers : List MCPServerConfig}

/-- The guard never asks for more than all servers but one. -/
theorem dropGuardMinimum_le {n : ℕ} (h : 5 < n) : dropGuardMinimum n ≤ n - 1 := by
  have hlow : (1 / 2 : ℚ) ≤ dropGuardThreshold := by decide +kernel
  have hhigh : dropGuardThreshold ≤ 3 / 4 := by decide +kernel
  have hn : (6 : ℚ) ≤ n := by exact_mod_cast h
  have hone : (1 : ℚ) ≤ n * dropGuardThreshold := by nlinarith
  rw [dropGuardMinimum]
  cases hq : Double.ofRat (n * dropGuardThreshold) with
  | finite m =>
    have hm := Double.le_of_ofRat_eq_finite hone hq
    have htrunc := Double.truncate_le m
    have hle : max 0 m ≤ n - 1 := max_le (by linarith) (by nlinarith)
    have hcast : ((((Double.finite m).truncate.getD 0 : ℤ)) : ℚ) ≤ ((n - 1 : ℤ) : ℚ) := by
      push_cast
      linarith
    exact_mod_cast hcast
  | _ => simp [Double.truncate]; omega

/-- The guard lets a number of servers pass that is smaller by one at most. -/
theorem countDropGuard_eq_ok (dir : String) {file : Option (Dict String Json)} {n newCount : ℕ}
    (hlen : ∀ raw, file = some raw → (serversRaw raw).len = .ok n) (hcount : n ≤ newCount + 1) :
    countDropGuard dir file false newCount = .ok () := by
  cases file with
  | none => rfl
  | some raw =>
    rw [countDropGuard, if_neg Bool.false_ne_true, hlen raw rfl, Checked.ok_bind]
    refine if_neg ?_
    rintro ⟨hmany, hdrop⟩
    have hmin := dropGuardMinimum_le hmany
    omega

/-- The servers are saved under their names. -/
theorem mapM_savedServer (h : ∀ srv ∈ servers, Validates R srv.unchecked srv) :
    servers.mapM (savedServer R) =
      .ok (servers.map fun srv => (srv.name, .obj (serverEntry srv).entries)) := by
  rw [Checked.mapM_eq_ok_iff]
  induction servers with
  | nil => exact .nil
  | cons srv servers ih =>
    obtain ⟨hsrv, hservers⟩ := List.forall_mem_cons.mp h
    refine .cons ?_ (ih hservers)
    exact savedServer_eq_ok_iff.mpr ⟨srv, validateServerConfig_eq_ok_iff.mpr hsrv, rfl⟩

theorem loadServers_saved (h : Sound R servers) :
    loadServers R (.obj (Dict.empty.setAll
        (servers.map fun srv => (srv.name, Json.obj (serverEntry srv).entries))).entries) =
      .ok (servers.map (·.reloaded)) := by
  have hentries : (Dict.empty.setAll
      (servers.map fun srv => (srv.name, Json.obj (serverEntry srv).entries))).entries =
        servers.map fun srv => (srv.name, Json.obj (serverEntry srv).entries) := by
    rw [Dict.entries_setAll]
    · rfl
    · rw [List.map_map]
      exact h.nodup
    · exact fun _ _ => List.not_mem_nil
  rw [loadServers, Json.toDict, Dict.setAll_empty_entries, hentries, Checked.mapM_eq_ok_iff]
  have hvalid := h.valid
  clear h hentries
  induction servers with
  | nil => exact .nil
  | cons srv servers ih =>
    obtain ⟨hsrv, hservers⟩ := List.forall_mem_cons.mp hvalid
    refine .cons ?_ (ih hservers)
    show parseMcpServer R srv.name (Json.toDict (serverEntry srv).entries) = _
    rw [Json.toDict, Dict.setAll_empty_entries]
    exact parseMcpServer_serverEntry hsrv

/-- **What is saved is loaded again**, by the same hub, with the servers that come back. -/
theorem loadConfig_saveConfig {file : Option (Dict String Json)}
    (hload : loadConfig R env file = .ok config) (hservers : Sound R servers)
    (hcount : config.mcpServers.length ≤ servers.length + 1) :
    ∃ saved config', saveConfig R file { config with mcpServers := servers } false = .ok saved ∧
      loadConfig R env (some saved) = .ok config' ∧ config'.configDir = getConfigDir env ∧
        config'.mcpServers = servers.map (·.reloaded) := by
  obtain ⟨base, happly, -, -⟩ := exists_base hload
  have hguard := countDropGuard_eq_ok config.configDir (sound_loadConfig hload).2 hcount
  have hl := mapM_savedServer hservers.valid
  obtain ⟨hget, hnodir, hraw⟩ := @get?_of_saved _ config
    (servers.map fun srv => (srv.name, Json.obj (serverEntry srv).entries)) rfl
  have hread := readConfig_of_settings env hget hnodir (hraw ▸ loadServers_saved hservers)
  obtain ⟨n, hport⟩ := exists_port happly
  have husable := usable_of_applyEnvOverrides happly
  obtain ⟨config', hagain⟩ := (applyEnvOverrides_usable_iff env
    { config with
      mcpServers := servers.map (·.reloaded), configDir := getConfigDir env }
    ⟨n, hport.toInt_eq⟩).mpr husable
  refine ⟨_, config', saveConfig_eq_ok_iff.mpr ⟨hguard, _, hl, rfl⟩,
    Checked.bind_eq_ok_iff.mpr ⟨_, hread, hagain⟩, ?_, ?_⟩
  · obtain ⟨_, _, _, _, _, -, -, -, -, rfl⟩ := applyEnvOverrides_eq_ok hagain
    rw [getConfigDir]
    cases env.configDir <;> rfl
  · exact mcpServers_applyEnvOverrides hagain

end Saved

/-! ### The table -/

/-- The servers under their names, as a file keeps them. -/
abbrev ServerTable : Type := String → Option MCPServerConfig

/-- The table of some servers. -/
def tableOf (servers : List MCPServerConfig) : ServerTable := fun name =>
  (servers.find? fun s => s.name = name).map (·.reloaded)

/-- The pairs an option gives, each `KEY=VALUE`. -/
def Pairs (pairs : List String) : Prop := ∀ pair ∈ pairs, '=' ∈ pair.toList

/-- What the pairs say. -/
def dictOf (pairs : List String) : Dict String String :=
  Dict.empty.setAll (pairs.filterMap fun pair =>
    (splitPair pair).map fun p => (Text.strip p.1, Text.strip p.2))

/-- The servers an import offers. -/
def Command.source (R : Runtime) : Command → Except Ends (List MCPServerConfig)
  | .configImport option file => importSource R option file
  | .setupImport option file => clientSource R option file
  | _ => .ok []

/-- **When a command is carried out.** -/
def Command.Acceptable (R : Runtime) (table : ServerTable) : Command → Prop
  | .add name options => Text.isBlank name = false ∧ table name = none ∧
      (if options.transport = .stdio then options.command.getD "" ≠ "" else options.url ≠ "") ∧
        Pairs options.envs ∧ Pairs options.headers
  | .remove name _ => (table name).isSome
  | .modify name options => (table name).isSome ∧ Pairs options.envs ∧ options.isEmpty = false
  | command => ∃ source, command.source R = .ok source ∧ ∃ s ∈ source, table s.name = none

/-- **What a command is for.** -/
def Command.effect (R : Runtime) (table : ServerTable) : Command → ServerTable
  | .add name options => Function.update table name
      (some (options.server name (dictOf options.envs) (dictOf options.headers)).reloaded)
  | .remove name _ => Function.update table name none
  | .modify name options => Function.update table name
      ((table name).map fun s => (options.apply (dictOf options.envs) s).reloaded)
  | command => fun name => (table name).or (tableOf ((command.source R).toOption.getD []) name)

open Classical in
/-- The table after a command. -/
noncomputable def ServerTable.after (R : Runtime) (table : ServerTable) (command : Command) :
    ServerTable :=
  if command.Acceptable R table then command.effect R table else table

/-- The table after some commands. -/
noncomputable def ServerTable.afterAll (R : Runtime) (table : ServerTable)
    (commands : List Command) : ServerTable :=
  commands.foldl (ServerTable.after R) table

/-- **A table is what the hub loads**, and what it saves goes to the same place. -/
def Holds (R : Runtime) (env : HubEnv) (files : ConfigFiles) (table : ServerTable) : Prop :=
  ∃ config, loadConfig R env (files.get? (getConfigDir env)) = .ok config ∧
    config.configDir = getConfigDir env ∧ tableOf config.mcpServers = table

/-! ### Tables of servers -/

section Tables

variable {servers source : List MCPServerConfig} {name : String} {s : MCPServerConfig}

theorem tableOf_map_reloaded (servers : List MCPServerConfig) :
    tableOf (servers.map (·.reloaded)) = tableOf servers := by
  funext name
  rw [tableOf, List.find?_map, Option.map_map, tableOf]
  refine congrFun (congrArg Option.map (funext fun s => ?_)) _
  exact s.reloaded_reloaded

theorem tableOf_eq_none_iff : tableOf servers name = none ↔ ∀ s ∈ servers, s.name ≠ name := by
  simp [tableOf, List.find?_eq_none]

theorem isSome_tableOf_iff :
    (tableOf servers name).isSome = true ↔ servers.any (fun s => s.name = name) = true := by
  simp [tableOf, List.find?_isSome]

theorem tableOf_append (servers source : List MCPServerConfig) :
    tableOf (servers ++ source) = fun name => (tableOf servers name).or (tableOf source name) := by
  funext name
  simp only [tableOf, List.find?_append]
  cases servers.find? (fun s => s.name = name) <;> rfl

theorem tableOf_singleton (s : MCPServerConfig) :
    tableOf [s] = fun name => if s.name = name then some s.reloaded else none := by
  funext name
  by_cases h : s.name = name <;> simp [tableOf, h]

theorem tableOf_filter_ne (servers : List MCPServerConfig) (name : String) :
    tableOf (servers.filter fun s => s.name ≠ name) =
      Function.update (tableOf servers) name none := by
  funext n
  rw [tableOf, List.find?_filter, Function.update_apply]
  by_cases h : n = name
  · rw [if_pos h]
    simp [h]
  · rw [if_neg h, tableOf]
    congr 2
    funext s
    by_cases hs : s.name = n <;> simp [hs, h]

/-- What is new does not hide what is there. -/
theorem tableOf_newServers (servers source : List MCPServerConfig) :
    tableOf (servers ++ newServers servers source) =
      fun name => (tableOf servers name).or (tableOf source name) := by
  rw [tableOf_append]
  funext name
  cases hname : tableOf servers name with
  | some s => rfl
  | none =>
    rw [Option.none_or, Option.none_or, tableOf, newServers, List.find?_filter, tableOf]
    congr 2
    funext s
    by_cases hs : s.name = name
    · have hnew : servers.any (fun t => t.name = name) = false := by
        rw [List.any_eq_false]
        intro t ht
        simpa using tableOf_eq_none_iff.mp hname t ht
      simp [hs, hnew]
    · simp [hs]

theorem name_modified {t : MCPServerConfig} (ht : t.name = name) (s : MCPServerConfig) :
    (if s.name = name then t else s).name = s.name := by
  split_ifs with hs
  · rw [ht, hs]
  · rfl

theorem tableOf_modified {t target : MCPServerConfig}
    (hfind : servers.find? (fun s => s.name = name) = some target) (ht : t.name = name) :
    tableOf (servers.map fun s => if s.name = name then t else s) =
      Function.update (tableOf servers) name (some t.reloaded) := by
  have htarget : target.name = name := by simpa using List.find?_some hfind
  funext n
  have hsame : ((fun s : MCPServerConfig => decide (s.name = n)) ∘
      fun s => if s.name = name then t else s) = fun s => decide (s.name = n) := by
    funext s
    exact congrArg (fun m => decide (m = n)) (name_modified ht s)
  rw [tableOf, List.find?_map, hsame, Function.update_apply]
  by_cases hn : n = name
  · rw [if_pos hn, hn, hfind, Option.map_some, if_pos htarget, Option.map_some]
  · rw [if_neg hn, tableOf]
    cases hother : servers.find? (fun s => s.name = n) with
    | none => rfl
    | some s =>
      have hs : s.name = n := by simpa using List.find?_some hother
      rw [Option.map_some, if_neg (hs ▸ hn)]

theorem mem_newServers : s ∈ newServers servers source ↔
    s ∈ source ∧ tableOf servers s.name = none := by
  rw [newServers, List.mem_filter, tableOf_eq_none_iff]
  simp

theorem Sound.filter {R : Runtime} (h : Sound R servers) (p : MCPServerConfig → Bool) :
    Sound R (servers.filter p) :=
  ⟨fun srv hsrv => h.valid srv (List.mem_of_mem_filter hsrv),
    h.nodup.sublist (List.filter_sublist.map _)⟩

/-- Servers that are new can be added. -/
theorem Sound.append {R : Runtime} (h : Sound R servers) (hsource : Sound R source)
    (hnew : ∀ s ∈ source, tableOf servers s.name = none) : Sound R (servers ++ source) := by
  refine ⟨fun srv hsrv => ?_, ?_⟩
  · rcases List.mem_append.mp hsrv with hsrv | hsrv
    · exact h.valid srv hsrv
    · exact hsource.valid srv hsrv
  · rw [List.map_append, List.nodup_append]
    refine ⟨h.nodup, hsource.nodup, fun a ha b hb => ?_⟩
    obtain ⟨s, hs, rfl⟩ := List.mem_map.mp ha
    obtain ⟨t, ht, rfl⟩ := List.mem_map.mp hb
    exact tableOf_eq_none_iff.mp (hnew t ht) s hs

end Tables

/-! ### What the commands check -/

theorem splitPair_eq_none_iff {pair : String} : splitPair pair = none ↔ '=' ∉ pair.toList := by
  have hnil : pair.toList.dropWhile (· ≠ '=') = [] ↔ '=' ∉ pair.toList := by
    rw [List.dropWhile_eq_nil_iff]
    exact ⟨fun h hmem => by simpa using h _ hmem,
      fun h c hc => by simpa using ne_of_mem_of_not_mem hc h⟩
  rw [← hnil, splitPair]
  cases pair.toList.dropWhile (· ≠ '=') <;> simp

theorem parseEnvArgs_of_pairs {pairs : List String} (h : Pairs pairs) (out : Dict String String) :
    parseEnvArgs out pairs = .ok (out.setAll (pairs.filterMap fun pair =>
      (splitPair pair).map fun p => (Text.strip p.1, Text.strip p.2))) := by
  induction pairs generalizing out with
  | nil => rfl
  | cons pair pairs ih =>
    obtain ⟨hpair, hpairs⟩ := List.forall_mem_cons.mp h
    cases hsplit : splitPair pair with
    | none => exact absurd hpair (splitPair_eq_none_iff.mp hsplit)
    | some p =>
      rw [parseEnvArgs, hsplit, List.filterMap_cons, hsplit]
      exact ih hpairs _

theorem parseEnvArgs_of_not_pairs {pairs : List String} (h : ¬ Pairs pairs)
    (out : Dict String String) : ∃ ends, parseEnvArgs out pairs = .error ends ∧
      ends.isDone = false := by
  induction pairs generalizing out with
  | nil => exact absurd (fun _ h => absurd h List.not_mem_nil) h
  | cons pair pairs ih =>
    rw [parseEnvArgs]
    cases hsplit : splitPair pair with
    | none => exact ⟨_, rfl, rfl⟩
    | some p =>
      refine ih (fun hpairs => h (List.forall_mem_cons.mpr ⟨?_, hpairs⟩)) _
      by_contra hpair
      rw [splitPair_eq_none_iff.mpr hpair] at hsplit
      cases hsplit

/-! ### What an import offers -/

section Offers

variable {R : Runtime}

/-- What is read from a file: sound servers, or an end at which nothing was saved. -/
structure Offers (R : Runtime) (source : Except Ends (List MCPServerConfig)) : Prop where
  sound : ∀ servers, source = .ok servers → Sound R servers
  refused : ∀ ends, source = .error ends → ends.isDone = false

theorem offers_error {ends : Ends} (h : ends.isDone = false) : Offers R (.error ends) where
  sound := by
    intro servers heq
    cases heq
  refused := by
    intro ends' heq
    rwa [← Except.error.inj heq]

theorem offers_ok {servers : List MCPServerConfig} (h : Sound R servers) :
    Offers R (.ok servers) where
  sound := by
    intro servers' heq
    rwa [← Except.ok.inj heq]
  refused := by
    intro ends heq
    cases heq

/-- Servers that were loaded can be offered, and so can an exception. -/
theorem offers_mapError {source : Checked (List MCPServerConfig)}
    (h : ∀ servers, source = .ok servers → Sound R servers) :
    Offers R (source.mapError .raised) := by
  cases source with
  | error e => exact offers_error rfl
  | ok servers => exact offers_ok (h servers rfl)

/-- A format is chosen, or nothing was saved. -/
theorem offers_bind_chooseFormat {vscodeKeys : List String} {file : SourceFile}
    {option : FormatOption} {read : Format → Except Ends (List MCPServerConfig)}
    (h : ∀ format, Offers R (read format)) :
    Offers R (chooseFormat vscodeKeys file option >>= read) := by
  cases option with
  | given format => exact h format
  | auto =>
    rw [chooseFormat]
    cases file.text with
    | error e => exact offers_error rfl
    | ok text =>
      dsimp only
      cases guessFormat vscodeKeys text with
      | some format => exact h format
      | none => exact offers_error rfl

theorem offers_importSource (option : FormatOption) (file : SourceFile) :
    Offers R (importSource R option file) := by
  refine offers_bind_chooseFormat fun format => ?_
  cases file.json with
  | error e => exact offers_error rfl
  | ok v =>
    cases v with
    | obj entries => exact offers_mapError fun _ h => (sound_loadServers h).1
    | _ => exact offers_error rfl

theorem offers_clientSource (option : FormatOption) (file : SourceFile) :
    Offers R (clientSource R option file) := by
  refine offers_bind_chooseFormat fun format => ?_
  cases file.json with
  | error e => cases e <;> exact offers_error rfl
  | ok v =>
    cases v with
    | obj entries =>
      refine offers_mapError fun servers h => ?_
      obtain ⟨raw, -, h⟩ := Checked.bind_eq_ok_iff.mp h
      obtain ⟨n, -, h⟩ := Checked.bind_eq_ok_iff.mp h
      exact (sound_loadServers h).1
    | _ => exact offers_error rfl

end Offers

/-! ### One command -/

section Step

variable {R : Runtime} {env : HubEnv} {files : ConfigFiles} {table : ServerTable}
  {config : HubConfig} {edit : Edit} {ends : Ends} {edited : Edited}

/-- **A command refines a change of the table**: it is carried out when it is acceptable, and
otherwise nothing happens. -/
structure Refined (R : Runtime) (env : HubEnv) (files : ConfigFiles) (result : Ends × ConfigFiles)
    (acceptable : Prop) (table : ServerTable) : Prop where
  accepted : acceptable → result.1.isDone = true ∧ Holds R env result.2 table
  refused : ¬ acceptable → result.1.isDone = false ∧ result.2 = files
  others : ∀ dir, dir ≠ getConfigDir env → result.2.get? dir = files.get? dir

theorem editConfig_of_error
    (hload : loadConfig R env (files.get? (getConfigDir env)) = .ok config)
    (hedit : edit config.mcpServers = .error ends) :
    editConfig R env edit files = (ends, files) := by
  simp only [editConfig, hload, hedit]

/-- An edit that is saved. -/
theorem editConfig_of_sound
    (hload : loadConfig R env (files.get? (getConfigDir env)) = .ok config)
    (hdir : config.configDir = getConfigDir env) (hedit : edit config.mcpServers = .ok edited)
    (hsound : Sound R edited.servers)
    (hcount : config.mcpServers.length ≤ edited.servers.length + 1) :
    ∃ saved, editConfig R env edit files =
        (.done edited.message edited.reload, files.set (getConfigDir env) saved) ∧
      Holds R env (files.set (getConfigDir env) saved) (tableOf edited.servers) := by
  have hload' : loadConfig R env (files.get? config.configDir) = .ok config := by
    rw [hdir]
    exact hload
  obtain ⟨saved, config', hsave, hagain, hdir', hservers⟩ :=
    loadConfig_saveConfig hload' hsound hcount
  refine ⟨saved, ?_, config', ?_, hdir', ?_⟩
  · rw [← hdir]
    simp only [editConfig, hload, hedit, hsave]
  · rw [Dict.get?_set_self]
    exact hagain
  · rw [hservers, tableOf_map_reloaded]

/-- An edit that the validation turns down. -/
theorem editConfig_of_invalid
    (hload : loadConfig R env (files.get? (getConfigDir env)) = .ok config)
    (hedit : edit config.mcpServers = .ok edited) {srv : MCPServerConfig}
    (hmem : srv ∈ edited.servers) (hinvalid : Text.isBlank srv.name = true) :
    ∃ e, editConfig R env edit files = (.raised e, files) := by
  cases hsave : saveConfig R (files.get? config.configDir)
      { config with mcpServers := edited.servers } false with
  | error e => exact ⟨e, by simp only [editConfig, hload, hedit, hsave]⟩
  | ok saved =>
    obtain ⟨-, l, hl, -⟩ := saveConfig_eq_ok_iff.mp hsave
    obtain ⟨e, he⟩ := (Checked.exists_mapM_iff.mp ⟨l, hl⟩) srv hmem
    obtain ⟨s, hs, -⟩ := savedServer_eq_ok_iff.mp he
    have hblank := (validateServerConfig_eq_ok_iff.mp hs).nonblank
    rw [show srv.unchecked.name = srv.name from rfl, hinvalid] at hblank
    cases hblank

theorem refined_of_error {acceptable : Prop} (h : ¬ acceptable) (hends : ends.isDone = false)
    {result : Ends × ConfigFiles} (hresult : result = (ends, files)) :
    Refined R env files result acceptable table := by
  subst hresult
  exact ⟨fun ha => absurd ha h, fun _ => ⟨hends, rfl⟩, fun _ _ => rfl⟩

theorem refined_of_sound
    (hload : loadConfig R env (files.get? (getConfigDir env)) = .ok config)
    (hdir : config.configDir = getConfigDir env) (hedit : edit config.mcpServers = .ok edited)
    (hsound : Sound R edited.servers)
    (hcount : config.mcpServers.length ≤ edited.servers.length + 1) {acceptable : Prop}
    (h : acceptable) (htable : tableOf edited.servers = table) :
    Refined R env files (editConfig R env edit files) acceptable table := by
  obtain ⟨saved, hresult, hholds⟩ := editConfig_of_sound hload hdir hedit hsound hcount
  rw [hresult]
  refine ⟨fun _ => ⟨rfl, htable ▸ hholds⟩, fun hn => absurd h hn, fun dir hne => ?_⟩
  exact Dict.get?_set_of_ne hne.symm

/-! ### The commands, one by one -/

theorem reloaded_apply (options : ModifyOptions) (env : Dict String String)
    (s : MCPServerConfig) : (options.apply env s.reloaded).reloaded =
      (options.apply env s).reloaded := by
  have hspawn := Spawn.reloaded_reloaded s.alwaysOn s.spawn
  have hcost := Number.reloaded_reloaded s.costPerCallCents
  by_cases ht : s.transport = .stdio <;>
    simp [ModifyOptions.apply, MCPServerConfig.reloaded, hspawn, hcost, ht]

theorem validates_server (R : Runtime) (options : AddOptions) {name : String}
    (env headers : Dict String String) (hname : Text.isBlank name = false) :
    Validates R (options.server name env headers).unchecked (options.server name env headers) where
  name := rfl
  nonblank := hname
  transport := rfl
  command := rfl
  args := Json.mapM_str?_map_str _
  env := Json.stringMap?_ofStringMap _
  url := rfl
  headers := Json.stringMap?_ofStringMap _
  enabled := rfl
  alwaysOn := rfl
  noCache := rfl
  costPerCallCents := rfl
  nonneg := rfl
  auth := rfl
  spawn := rfl
  timeoutClass := rfl
  maxConcurrency := rfl
  positive := show 1 ≤ defaultMaxConcurrency by decide
  companions := fun h => absurd h Bool.false_ne_true
  streamable := fun _ => rfl

theorem validates_apply (options : ModifyOptions) (env : Dict String String)
    {s : MCPServerConfig} (h : Validates R s.unchecked s) :
    Validates R (options.apply env s).unchecked (options.apply env s) where
  name := rfl
  nonblank := h.nonblank
  transport := rfl
  command := rfl
  args := Json.mapM_str?_map_str _
  env := Json.stringMap?_ofStringMap _
  url := rfl
  headers := Json.stringMap?_ofStringMap _
  enabled := rfl
  alwaysOn := rfl
  noCache := rfl
  costPerCallCents := rfl
  nonneg := h.nonneg
  auth := rfl
  spawn := rfl
  timeoutClass := rfl
  maxConcurrency := rfl
  positive := h.positive
  companions := h.companions
  streamable := h.streamable

theorem checkTransport_of {options : AddOptions} (h : if options.transport = .stdio then
    options.command.getD "" ≠ "" else options.url ≠ "") : options.checkTransport = .ok () := by
  rw [AddOptions.checkTransport]
  by_cases ht : options.transport = .stdio
  · rw [if_pos ht] at h ⊢
    exact if_neg h
  · rw [if_neg ht] at h ⊢
    exact if_neg h

theorem checkTransport_of_not {options : AddOptions} (h : ¬ if options.transport = .stdio then
    options.command.getD "" ≠ "" else options.url ≠ "") :
    ∃ ends, options.checkTransport = .error ends ∧ ends.isDone = false := by
  rw [AddOptions.checkTransport]
  by_cases ht : options.transport = .stdio
  · rw [if_pos ht] at h ⊢
    exact ⟨_, if_pos (not_ne_iff.mp h), rfl⟩
  · rw [if_neg ht] at h ⊢
    exact ⟨_, if_pos (not_ne_iff.mp h), rfl⟩

/-- At most one server has a name. -/
theorem length_le_filter_ne {servers : List MCPServerConfig}
    (h : (servers.map (·.name)).Nodup) (name : String) :
    servers.length ≤ (servers.filter fun s => s.name ≠ name).length + 1 := by
  have herase : (servers.filter fun s => s.name ≠ name).map (·.name) =
      (servers.map (·.name)).erase name := by
    rw [h.erase_eq_filter, List.filter_map]
    congr 2
    funext s
    by_cases hs : s.name = name <;> simp [hs]
  have hlength := congrArg List.length herase
  rw [List.length_map, List.length_erase] at hlength
  split_ifs at hlength <;> simp only [List.length_map] at hlength <;> omega

section Commands

variable (hload : loadConfig R env (files.get? (getConfigDir env)) = .ok config)
  (hdir : config.configDir = getConfigDir env)

include hload hdir

theorem refined_add (name : String) (options : AddOptions) :
    Refined R env files (serverAdd R env name options files)
      (Command.Acceptable R (tableOf config.mcpServers) (.add name options))
      (Command.effect R (tableOf config.mcpServers) (.add name options)) := by
  obtain ⟨hsound, -⟩ := sound_loadConfig hload
  by_cases hnew : tableOf config.mcpServers name = none
  swap
  · have hthere : config.mcpServers.any (fun s => s.name = name) = true :=
      isSome_tableOf_iff.mp (Option.isSome_iff_ne_none.mpr hnew)
    exact refined_of_error (fun h => hnew h.2.1) rfl (editConfig_of_error hload (if_pos hthere))
  have hany : ¬ config.mcpServers.any (fun s => s.name = name) = true := by
    rw [← isSome_tableOf_iff, hnew]
    exact Bool.false_ne_true
  have hedit : addServer name options config.mcpServers = _ := if_neg hany
  by_cases htransport : (if options.transport = .stdio then options.command.getD "" ≠ ""
      else options.url ≠ "")
  swap
  · obtain ⟨ends, hends, hdone⟩ := checkTransport_of_not htransport
    rw [hends] at hedit
    exact refined_of_error (fun h => htransport h.2.2.1) hdone (editConfig_of_error hload hedit)
  rw [checkTransport_of htransport] at hedit
  by_cases henvs : Pairs options.envs
  swap
  · obtain ⟨ends, hends, hdone⟩ := parseEnvArgs_of_not_pairs henvs .empty
    simp only [hends] at hedit
    exact refined_of_error (fun h => henvs h.2.2.2.1) hdone (editConfig_of_error hload hedit)
  simp only [parseEnvArgs_of_pairs henvs] at hedit
  by_cases hheaders : Pairs options.headers
  swap
  · obtain ⟨ends, hends, hdone⟩ := parseEnvArgs_of_not_pairs hheaders .empty
    simp only [hends] at hedit
    exact refined_of_error (fun h => hheaders h.2.2.2.2) hdone (editConfig_of_error hload hedit)
  simp only [parseEnvArgs_of_pairs hheaders] at hedit
  cases hblank : Text.isBlank name with
  | true =>
    obtain ⟨e, hraised⟩ := editConfig_of_invalid hload hedit
      (List.mem_append_right _ (List.mem_singleton_self _)) hblank
    refine refined_of_error (fun h => ?_) rfl hraised
    rw [h.1] at hblank
    cases hblank
  | false =>
    have hadded (env headers : Dict String String) : Sound R [options.server name env headers] := by
      refine ⟨fun srv hsrv => ?_, List.nodup_singleton _⟩
      rw [List.mem_singleton.mp hsrv]
      exact validates_server R options env headers hblank
    refine refined_of_sound hload hdir hedit (hsound.append (hadded _ _) fun srv hsrv => ?_) ?_
      ⟨hblank, hnew, htransport, henvs, hheaders⟩ ?_
    · rw [List.mem_singleton.mp hsrv]
      exact hnew
    · rw [List.length_append]
      omega
    · rw [tableOf_append, tableOf_singleton]
      funext n
      rw [Command.effect, Function.update_apply]
      by_cases hn : n = name
      · simp [hn, hnew, AddOptions.server, dictOf]
      · have hne : ¬ name = n := fun h => hn h.symm
        simp [hn, AddOptions.server, hne]

theorem refined_remove (name : String) (noReload : Bool) :
    Refined R env files (serverRemove R env name noReload files)
      (Command.Acceptable R (tableOf config.mcpServers) (.remove name noReload))
      (Command.effect R (tableOf config.mcpServers) (.remove name noReload)) := by
  obtain ⟨hsound, -⟩ := sound_loadConfig hload
  by_cases hthere : config.mcpServers.any (fun s => s.name = name) = true
  · exact refined_of_sound hload hdir (if_pos hthere) (hsound.filter _)
      (length_le_filter_ne hsound.nodup name) (isSome_tableOf_iff.mpr hthere)
      (tableOf_filter_ne _ _)
  · exact refined_of_error (mt isSome_tableOf_iff.mp hthere) rfl
      (editConfig_of_error hload (if_neg hthere))

theorem refined_modify (name : String) (options : ModifyOptions) :
    Refined R env files (serverModify R env name options files)
      (Command.Acceptable R (tableOf config.mcpServers) (.modify name options))
      (Command.effect R (tableOf config.mcpServers) (.modify name options)) := by
  obtain ⟨hsound, -⟩ := sound_loadConfig hload
  cases hfind : config.mcpServers.find? (fun s => s.name = name) with
  | none =>
    have hnone : tableOf config.mcpServers name = none := by rw [tableOf, hfind, Option.map_none]
    have hedit : modifyServer name options config.mcpServers =
        .error (.exited s!"Error: server '{name}' not found.") := by
      simp only [modifyServer, hfind]
    refine refined_of_error (fun h => ?_) rfl (editConfig_of_error hload hedit)
    have hsome := h.1
    rw [hnone] at hsome
    cases hsome
  | some target =>
    have hthere : (tableOf config.mcpServers name).isSome = true := by
      rw [tableOf, hfind, Option.map_some, Option.isSome_some]
    have hname : target.name = name := by simpa using List.find?_some hfind
    by_cases henvs : Pairs options.envs
    swap
    · obtain ⟨ends, hends, hdone⟩ := parseEnvArgs_of_not_pairs henvs .empty
      have hedit : modifyServer name options config.mcpServers = .error ends := by
        simp only [modifyServer, hfind, hends]
      exact refined_of_error (fun h => henvs h.2.1) hdone (editConfig_of_error hload hedit)
    have hparse : parseEnvArgs .empty options.envs = .ok (dictOf options.envs) :=
      parseEnvArgs_of_pairs henvs .empty
    cases hempty : options.isEmpty with
    | true =>
      obtain ⟨message, hedit⟩ : ∃ message,
          modifyServer name options config.mcpServers = .error (.exited message) :=
        ⟨_, by simp only [modifyServer, hfind, hparse, hempty, if_true]; rfl⟩
      refine refined_of_error (fun h => ?_) rfl (editConfig_of_error hload hedit)
      exact Bool.false_ne_true (h.2.2.symm.trans hempty)
    | false =>
      have hedit : modifyServer name options config.mcpServers =
          .ok ⟨config.mcpServers.map fun s =>
              if s.name = name then options.apply (dictOf options.envs) target else s,
            s!"Modified '{name}' in config.", !options.noReload⟩ := by
        simp only [modifyServer, hfind, hparse, hempty, Bool.false_eq_true, if_false]
      refine refined_of_sound hload hdir hedit ⟨fun srv hsrv => ?_, ?_⟩ ?_
        ⟨hthere, henvs, hempty⟩ ?_
      · obtain ⟨s, hs, rfl⟩ := List.mem_map.mp hsrv
        split_ifs
        · exact validates_apply options _ (hsound.valid target (List.mem_of_find?_eq_some hfind))
        · exact hsound.valid s hs
      · have hnames : (config.mcpServers.map fun s =>
            if s.name = name then options.apply (dictOf options.envs) target else s).map (·.name) =
              config.mcpServers.map (·.name) := by
          rw [List.map_map]
          exact List.map_congr_left fun s _ =>
            name_modified (t := options.apply (dictOf options.envs) target) hname s
        rw [hnames]
        exact hsound.nodup
      · rw [List.length_map]
        omega
      · rw [tableOf_modified hfind (t := options.apply (dictOf options.envs) target) hname,
          Command.effect, tableOf, hfind, Option.map_some, Option.map_some, reloaded_apply]

theorem refined_merge {source : List MCPServerConfig} (hsource : Sound R source)
    (nothing : String) (message : ℕ → ℕ → String) :
    Refined R env files (editConfig R env (mergeServers source nothing message) files)
      (∃ s ∈ source, tableOf config.mcpServers s.name = none)
      (fun name => (tableOf config.mcpServers name).or (tableOf source name)) := by
  obtain ⟨hsound, -⟩ := sound_loadConfig hload
  cases hnew : (newServers config.mcpServers source).isEmpty with
  | true =>
    have hedit : mergeServers source nothing message config.mcpServers =
        .error (.idle nothing) := by
      rw [mergeServers, hnew, if_pos rfl]
    refine refined_of_error ?_ rfl (editConfig_of_error hload hedit)
    rintro ⟨s, hs, hnone⟩
    have hmem := mem_newServers.mpr ⟨hs, hnone⟩
    rw [List.isEmpty_iff.mp hnew] at hmem
    cases hmem
  | false =>
    have hedit : mergeServers source nothing message config.mcpServers = _ :=
      if_neg (by simp [hnew])
    have hmerged : Sound R (config.mcpServers ++ newServers config.mcpServers source) :=
      hsound.append (hsource.filter _) fun s hs => (mem_newServers.mp hs).2
    refine refined_of_sound hload hdir hedit hmerged ?_ ?_ (tableOf_newServers _ _)
    · rw [List.length_append]
      omega
    · obtain ⟨s, hs⟩ := List.exists_mem_of_ne_nil _ (by simpa using hnew)
      exact ⟨s, mem_newServers.mp hs⟩

theorem refined_import {source : Except Ends (List MCPServerConfig)} (hsource : Offers R source)
    (nothing : ℕ → String) (message : ℕ → ℕ → ℕ → String) :
    Refined R env files (importServers R env source nothing message files)
      (∃ servers, source = .ok servers ∧
        ∃ s ∈ servers, tableOf config.mcpServers s.name = none)
      (fun name => (tableOf config.mcpServers name).or
        (tableOf (source.toOption.getD []) name)) := by
  cases source with
  | error ends =>
    have hends : importServers R env (.error ends) nothing message files = (ends, files) := rfl
    refine refined_of_error ?_ (hsource.refused ends rfl) hends
    rintro ⟨servers, hservers, -⟩
    cases hservers
  | ok servers =>
    have hmerge := refined_merge hload hdir (hsource.sound servers rfl) (nothing servers.length)
      (message servers.length)
    refine ⟨?_, fun hn => hmerge.refused fun hnew => hn ⟨servers, rfl, hnew⟩, hmerge.others⟩
    rintro ⟨servers', hservers, hnew⟩
    obtain rfl := Except.ok.inj hservers
    exact hmerge.accepted hnew

end Commands

/-- **Every command refines what it is for.** -/
theorem refined_run (hload : loadConfig R env (files.get? (getConfigDir env)) = .ok config)
    (hdir : config.configDir = getConfigDir env) (command : Command) :
    Refined R env files (command.run R env files)
      (command.Acceptable R (tableOf config.mcpServers))
      (command.effect R (tableOf config.mcpServers)) := by
  cases command with
  | add name options => exact refined_add hload hdir name options
  | remove name noReload => exact refined_remove hload hdir name noReload
  | modify name options => exact refined_modify hload hdir name options
  | configImport option file =>
    rw [Command.run, Cli.configImport]
    exact refined_import hload hdir (offers_importSource option file) _ _
  | setupImport option file =>
    rw [Command.run, Cli.setupImport]
    exact refined_import hload hdir (offers_clientSource option file) _ _

end Step

/-! ### Runs -/

section Runs

variable {R : Runtime} {env : HubEnv} {files : ConfigFiles} {table : ServerTable}

/-- One more command. -/
theorem holds_run (h : Holds R env files table) (command : Command) :
    Holds R env (command.run R env files).2 (table.after R command) := by
  obtain ⟨config, hload, hdir, rfl⟩ := h
  have hrefined := refined_run hload hdir command
  rw [ServerTable.after]
  split_ifs with hacceptable
  · exact (hrefined.accepted hacceptable).2
  · rw [(hrefined.refused hacceptable).2]
    exact ⟨config, hload, hdir, rfl⟩

/-- **The commands keep a table**: whatever was run before, what the hub loads is the table that was
changed by every command it takes; the next command is carried out exactly when the table takes it,
and otherwise leaves all files as they were; the files of other directories are never touched. -/
theorem holds_runAll (h : Holds R env files table) (commands : List Command) :
    Holds R env (runAll R env commands files) (table.afterAll R commands) ∧
      (∀ command : Command, (command.run R env (runAll R env commands files)).1.isDone = true ↔
        command.Acceptable R (table.afterAll R commands)) ∧
      (∀ command : Command, ¬ command.Acceptable R (table.afterAll R commands) →
        (command.run R env (runAll R env commands files)).2 = runAll R env commands files) ∧
      ∀ dir, dir ≠ getConfigDir env →
        (runAll R env commands files).get? dir = files.get? dir := by
  induction commands generalizing files table with
  | nil =>
    obtain ⟨config, hload, hdir, rfl⟩ := h
    refine ⟨⟨config, hload, hdir, rfl⟩, fun command => ?_, fun command hnot => ?_, fun _ _ => rfl⟩
    · have hrefined := refined_run hload hdir command
      refine ⟨fun hdone => ?_, fun hacceptable => (hrefined.accepted hacceptable).1⟩
      by_contra hnot
      exact Bool.false_ne_true ((hrefined.refused hnot).1.symm.trans hdone)
    · exact ((refined_run hload hdir command).refused hnot).2
  | cons command commands ih =>
    obtain ⟨hholds, hnext, hrefused, hothers⟩ := ih (holds_run h command)
    refine ⟨hholds, hnext, hrefused, fun dir hne => (hothers dir hne).trans ?_⟩
    obtain ⟨config, hload, hdir, rfl⟩ := h
    exact (refined_run hload hdir command).others dir hne

/-- The files of a hub without servers. -/
def bareFiles : ConfigFiles := Dict.empty.set "/root/.slm-mcp-hub" bareFile

/-- A command that adds a server. -/
def addRun : Command := .add "a" { command := some "run" }

/-- What a file with the servers `a` and `b` says. -/
def guessedText : String :=
  "\x7b\"servers\": \x7b\"a\": \x7b\"command\": \"x\"\x7d, \"b\": \x7b\"command\": \"y\"\x7d\x7d\x7d"

/-- The file, whose format is guessed. -/
def guessedFile : SourceFile where
  name := "mcp.json"
  text := .ok guessedText
  json := .ok (.obj [("servers", .obj
    [("a", .obj [("command", .str "x")]), ("b", .obj [("command", .str "y")])])])

/-- Two commands that change the table. -/
def addedAndImported : List Command := [addRun, .configImport .auto guessedFile]

theorem holds_bareFiles : Holds plainRuntime portEnv.cleared bareFiles fun _ => none :=
  ⟨bareConfig, loadConfig_bareFile, rfl, rfl⟩

/-- The table after `addRun`. -/
theorem after_addRun : ServerTable.after plainRuntime (fun _ => none) addRun =
    addRun.effect plainRuntime fun _ => none := by
  refine if_pos ⟨rfl, rfl, ?_, fun _ h => absurd h List.not_mem_nil,
    fun _ h => absurd h List.not_mem_nil⟩
  decide

/-- What is offered by a file whose format is guessed. -/
theorem importSource_guessedFile : ∃ x y, importSource plainRuntime .auto guessedFile = .ok [x, y] ∧
    x.name = "a" ∧ y.name = "b" := by
  have hguess : guessFormat ["servers", "mcp.servers"] guessedText = some .vscode := by
    decide +kernel
  have hchoose : chooseFormat ["servers", "mcp.servers"] guessedFile .auto = .ok .vscode := by
    simp only [chooseFormat, guessedFile, hguess]
  rw [importSource, hchoose]
  exact ⟨_, _, rfl, rfl, rfl⟩

/-- Of the two servers that are offered, the one that is new comes into the table. -/
theorem after_guessedFile {s : MCPServerConfig} (ha : table "a" = some s) (hb : table "b" = none) :
    ((table.after plainRuntime (.configImport .auto guessedFile)) "a") = some s ∧
      ((table.after plainRuntime (.configImport .auto guessedFile)) "b").isSome = true := by
  obtain ⟨x, y, hsource, hx, hy⟩ := importSource_guessedFile
  have hacceptable : Command.Acceptable plainRuntime table (.configImport .auto guessedFile) := by
    refine ⟨_, hsource, y, List.mem_cons_of_mem _ (List.mem_singleton_self _), ?_⟩
    rw [hy, hb]
  have heffect (name : String) : Command.effect plainRuntime table
      (.configImport .auto guessedFile) name = (table name).or (tableOf [x, y] name) := by
    show (table name).or
        (tableOf ((importSource plainRuntime .auto guessedFile).toOption.getD []) name) = _
    rw [hsource]
    rfl
  rw [ServerTable.after, if_pos hacceptable, heffect, heffect, ha, hb]
  refine ⟨rfl, isSome_tableOf_iff.mpr ?_⟩
  simp [hy]
/-- A server that was added is loaded, and so is the new one of a file that was imported; it can be
removed, and the first cannot be added once more. -/
theorem holds_runAll_bareFiles :
    (∃ table, Holds plainRuntime portEnv.cleared
        (runAll plainRuntime portEnv.cleared addedAndImported bareFiles) table ∧
          (table "a").map (·.command) = some "run" ∧ (table "b").isSome = true) ∧
      ((Command.remove "b" false).run plainRuntime portEnv.cleared
        (runAll plainRuntime portEnv.cleared addedAndImported bareFiles)).1.isDone = true ∧
      (addRun.run plainRuntime portEnv.cleared
        (runAll plainRuntime portEnv.cleared addedAndImported bareFiles)).2 =
          runAll plainRuntime portEnv.cleared addedAndImported bareFiles := by
  obtain ⟨hholds, hnext, hrefused, -⟩ := holds_runAll holds_bareFiles addedAndImported
  have htable : ServerTable.afterAll plainRuntime (fun _ => none) addedAndImported =
      ServerTable.after plainRuntime (addRun.effect plainRuntime fun _ => none)
        (.configImport .auto guessedFile) := by
    rw [← after_addRun]
    rfl
  rw [htable] at hholds hnext hrefused
  obtain ⟨ha, hb⟩ := @after_guessedFile (addRun.effect plainRuntime fun _ => none) _ rfl rfl
  refine ⟨⟨_, hholds, ?_, hb⟩, (hnext _).mpr hb, hrefused _ fun h => ?_⟩
  · rw [ha]
    rfl
  · have hnone := h.2.1
    rw [ha] at hnone
    cases hnone

end Runs

end Cli

end SlmMcpHub
