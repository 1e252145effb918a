import SlmMcpHub.Core.ServerRoundTrip

/-!
# What an edit of the servers does to the other settings

The commands that edit the servers load the configuration, replace the servers and save it. Loading
merges the file with the defaults and with the environment, and saving writes what was merged: an
override ends up in the file, and a value the loader converts ends up converted.

## Main definitions

* `editServers` — the file after such an edit
* `KeepsSettings` — every other setting of the file is as it was
* `Undisturbed` — what file and environment have to be like

## Main results

* `keepsSettings_iff` — when an edit changes nothing else
-/

namespace SlmMcpHub

/-- The file after its servers were replaced; it stays as it is when loading or saving raises. -/
def editServers (R : Runtime) (env : HubEnv) (raw : Dict String Json)
    (servers : List MCPServerConfig) (force : Bool) : Dict String Json :=
  match loadConfig R env (some raw) with
  | .error _ => raw
  | .ok config =>
    match saveConfig R (some raw) { config with mcpServers := servers } force with
    | .error _ => raw
    | .ok saved => saved

/-- The settings a file can have besides its servers. -/
def settingNames : List String :=
  "config_dir" :: (HubConfig.settings {}).map Prod.fst

/-- A setting of a configuration. -/
def HubConfig.setting? (config : HubConfig) (name : String) : Option Json :=
  Dict.lastOf (("config_dir", .str config.configDir) :: config.settings) name

/-- Every setting is as it was: one that is there keeps its value, and one that is not is loaded as
its default once the overrides are gone. -/
structure KeepsSettings (R : Runtime) (env : HubEnv) (raw saved : Dict String Json) : Prop where
  present : ∀ name ∈ settingNames, ∀ v, raw.get? name = some v →
    ∃ v', saved.get? name = some v' ∧ v'.SameValue v
  absent : ∀ name ∈ settingNames, raw.get? name = none →
    ∃ config, loadConfig R env.cleared (some saved) = .ok config ∧ ∃ v v',
      config.setting? name = some v ∧ (defaultConfig env.cleared).setting? name = some v' ∧
        v.SameValue v'

/-! ### What a file and an environment say -/

/-- The value an override gives a setting that is saved. -/
def HubEnv.override (env : HubEnv) : String → Option Json
  | "host" => env.host.map .str
  | "log_level" => env.logLevel.map .str
  | "port" => (env.port.bind IntLiteral.parse).map .int
  | "startup_max_concurrency" => (env.startupMaxConcurrency.bind IntLiteral.parse).map .int
  | "idle_ttl_seconds" => (env.idleTtlSeconds.bind IntLiteral.parse).map .int
  | "max_live_backends" => (env.maxLiveBackends.bind IntLiteral.parse).map .int
  | _ => none

/-- What the loader makes of a value a setting has in the file. -/
def convertSetting (R : Runtime) : String → Json → Checked Json
  | "port", v => Json.int <$> v.toInt
  | "startup_max_concurrency", v => Json.int <$> v.toInt
  | "idle_ttl_seconds", v => Json.int <$> v.toInt
  | "max_live_backends", v => Json.int <$> v.toInt
  | "event_store_max_events_per_stream", v => Json.int <$> v.toInt
  | "event_store_max_streams", v => Json.int <$> v.toInt
  | "event_queue_maxsize", v => Json.int <$> v.toInt
  | "event_store_stream_ttl_s", v => Json.float <$> v.toFloat
  | "cors_origins", v => Json.arr <$> v.toTuple
  | "plugins_enabled", v => Json.arr <$> v.toTuple
  | "webhooks", v => Json.arr <$> v.toTuple
  | "event_store_enabled", v => .ok (.bool (asBool R true v))
  | "transport_stateful", v => .ok (.bool (asBool R false v))
  | "dashboard_enabled", v => .ok (.bool (asBool R true v))
  | "dashboard_bind", v => .ok (.str (R.str v))
  | _, v => .ok v

/-- The default of a setting. -/
def defaultSetting (name : String) : Json := ((HubConfig.settings {}).lookup name).getD .null

/-- File and environment leave nothing for an edit to change: the file does not set `config_dir`,
its values are what the loader would convert them to, and the overrides say what the file says, or
what is the default. -/
structure Undisturbed (R : Runtime) (env : HubEnv) (raw : Dict String Json) : Prop where
  noConfigDir : raw.get? "config_dir" = none
  converted : ∀ name ∈ settingNames, ∀ v w, raw.get? name = some v →
    convertSetting R name v = .ok w → w.SameValue v
  overridden : ∀ name v, env.override name = some v →
    v.SameValue ((raw.get? name).getD (defaultSetting name))

/-! ### The same value -/

namespace Json.SameValue

variable {a b c : Json}

theorem symm (h : a.SameValue b) : b.SameValue a := by
  rcases h with rfl | ⟨x, ha, hb⟩
  · exact .refl a
  · exact Or.inr ⟨x, hb, ha⟩

theorem trans (h : a.SameValue b) (h' : b.SameValue c) : a.SameValue c := by
  rcases h with rfl | ⟨x, ha, hb⟩
  · exact h'
  · rcases h' with rfl | ⟨y, hb', hc⟩
    · exact Or.inr ⟨x, ha, hb⟩
    · obtain rfl := Option.some.inj (hb.symm.trans hb')
      exact Or.inr ⟨x, ha, hc⟩

theorem int_iff {n m : ℤ} : (Json.int n).SameValue (.int m) ↔ n = m := by
  constructor
  · rintro (h | ⟨x, hn, hm⟩)
    · exact Json.int.inj h
    · have := (Option.some.inj hn).trans (Option.some.inj hm).symm
      exact Int.cast_injective (Double.finite.inj this)
  · rintro rfl
    exact .refl _

theorem str_iff {s : String} : (Json.str s).SameValue a ↔ a = .str s := by
  constructor
  · rintro (rfl | ⟨x, hs, -⟩)
    · rfl
    · cases hs
  · rintro rfl
    exact .refl _

/-- A value that is as good as an integer is converted to it. -/
theorem toInt_eq {n : ℤ} (h : (Json.int n).SameValue a) : a.toInt = .ok n := by
  rcases h with rfl | ⟨x, hn, ha⟩
  · rfl
  · obtain rfl := Option.some.inj hn
    cases a with
    | bool b =>
      have hb : ((if b then 1 else 0 : ℤ) : ℚ) = n := by
        cases b <;> simpa [number?] using ha
      rw [toInt, Int.cast_injective hb]
    | int m =>
      have hm : (m : ℚ) = n := by simpa [number?] using ha
      rw [toInt, Int.cast_injective hm]
    | float x =>
      obtain rfl : x = .finite n := by simpa [number?] using ha
      rw [toInt, Double.truncate_finite_intCast]
    | _ => cases ha

end Json.SameValue

/-! ### What loading makes of file and environment -/

theorem atLeast_eq_ok {lo : ℕ} {message : String} {n : ℤ} {k : {k : ℕ // lo ≤ k}}
    (h : atLeast lo message n = .ok k) : (k.1 : ℤ) = n := by
  rw [atLeast] at h
  split at h
  · cases h
    simp only
    omega
  · cases h

theorem atLeast_natCast {lo k : ℕ} (message : String) (h : lo ≤ k) :
    atLeast lo message (k : ℤ) = .ok ⟨k, h⟩ := by
  rw [atLeast, dif_pos (by omega)]
  simp

theorem exists_atLeast {lo : ℕ} (message : String) {n : ℤ} (h : lo ≤ n) :
    ∃ k, atLeast lo message n = .ok k :=
  ⟨_, dif_pos h⟩

/-- An integer that may be overridden. -/
theorem exists_intOverride {o : Option String} {v : Json} {p : ℤ → Prop}
    (hv : ∃ n, v.toInt = .ok n ∧ p n)
    (ho : ∀ s, o = some s → ∃ n, IntLiteral.parse s = some n ∧ p n) :
    ∃ n, intOverride o v = .ok n ∧ p n := by
  cases o with
  | none => exact hv
  | some s =>
    obtain ⟨n, hn, hp⟩ := ho s rfl
    refine ⟨n, ?_, hp⟩
    simp only [intOverride, Option.map_some, Option.getD_some, Json.toInt, hn]

theorem parse_of_intOverride {o : Option String} {v : Json} {n : ℤ}
    (h : intOverride o v = .ok n) : ∀ s, o = some s → IntLiteral.parse s = some n := by
  rintro s rfl
  simp only [intOverride, Option.map_some, Option.getD_some, Json.toInt] at h
  split at h
  · cases h
    assumption
  · cases h

/-- What is read of a setting, `port` apart: nothing converts it before the overrides. -/
theorem convertSetting_readConfig {R : Runtime} {env : HubEnv} {raw : Dict String Json}
    {config : HubConfig} (h : readConfig R env raw = .ok config) :
    (∀ p ∈ config.settings, p.1 ≠ "port" →
      convertSetting R p.1 ((raw.get? p.1).getD (defaultSetting p.1)) = .ok p.2) ∧
      config.port = (raw.get? "port").getD (.int 52414) ∧
      (raw.get? "config_dir" = none → config.configDir = getConfigDir env) := by
  simp only [readConfig, Checked.bind_eq_ok_iff] at h
  obtain ⟨servers, -, dir, hdir, cors, hcors, plugins, hplugins, hooks, hhooks, startup, hstartup,
    idle, hidle, live, hlive, maxEvents, hevents, maxStreams, hstreams, ttl, httl, queue, hqueue,
    startup', hstartup', idle', hidle', live', hlive', bind, hbind, queue', hqueue', h⟩ := h
  cases h
  -- What is checked afterwards is the integer that was converted.
  have hqueue_eq : queue'.1 = queue := by
    rw [checkEventQueue] at hqueue'
    split at hqueue'
    · cases hqueue'
      rfl
    · cases hqueue'
  have hbind_eq : bind.1 = R.str ((raw.get? "dashboard_bind").getD (.str "127.0.0.1")) := by
    rw [checkDashboardBind] at hbind
    split at hbind
    · cases hbind
      rfl
    · cases hbind
  rw [← atLeast_eq_ok hstartup'] at hstartup
  rw [← atLeast_eq_ok hidle'] at hidle
  rw [← atLeast_eq_ok hlive'] at hlive
  rw [← hqueue_eq] at hqueue
  refine ⟨?_, rfl, fun hnone => ?_⟩
  swap
  · rw [hnone] at hdir
    exact (Except.ok.inj hdir).symm
  simp only [HubConfig.settings, List.forall_mem_cons]
  refine ⟨fun _ => rfl, fun h => absurd rfl h, fun _ => rfl, fun _ => rfl, fun _ => rfl,
    fun _ => rfl, fun _ => rfl, fun _ => rfl, fun _ => congrArg (Functor.map Json.arr) hcors,
    fun _ => congrArg (Functor.map Json.arr) hplugins,
    fun _ => congrArg (Functor.map Json.arr) hhooks,
    fun _ => congrArg (Functor.map Json.int) hstartup,
    fun _ => congrArg (Functor.map Json.int) hidle,
    fun _ => congrArg (Functor.map Json.int) hlive, fun _ => ?_,
    fun _ => congrArg (Functor.map Json.int) hevents,
    fun _ => congrArg (Functor.map Json.int) hstreams,
    fun _ => congrArg (Functor.map Json.float) httl, fun _ => ?_, fun _ => ?_,
    fun _ => congrArg (fun s => Except.ok (Json.str s)) hbind_eq.symm,
    fun _ => congrArg (Functor.map Json.int) hqueue, by simp⟩
  · cases raw.get? "event_store_enabled" <;> rfl
  · cases raw.get? "transport_stateful" <;> rfl
  · cases raw.get? "dashboard_enabled" <;> rfl

/-- What the overrides make of a configuration. -/
theorem applyEnvOverrides_eq_ok {env : HubEnv} {config config' : HubConfig}
    (h : applyEnvOverrides env config = .ok config') :
    ∃ (port : Json) (startup idle live : ℕ) (hpos : 1 ≤ startup),
      (∃ n, intOverride env.port config.port = .ok n ∧ (Json.int n).SameValue port) ∧
      intOverride env.startupMaxConcurrency (.int config.startupMaxConcurrency) = .ok startup ∧
      intOverride env.idleTtlSeconds (.int config.idleTtlSeconds) = .ok idle ∧
      intOverride env.maxLiveBackends (.int config.maxLiveBackends) = .ok live ∧
      config' = { config with
        host := (env.host.map Json.str).getD config.host, port
        configDir := env.configDir.getD config.configDir
        logLevel := (env.logLevel.map Json.str).getD config.logLevel
        startupMaxConcurrency := startup, idleTtlSeconds := idle, maxLiveBackends := live
        startup_pos := hpos } := by
  simp only [applyEnvOverrides, Checked.bind_eq_ok_iff] at h
  obtain ⟨port, hport, startup, hstartup, idle, hidle, live, hlive, h⟩ := h
  split at h
  case isTrue hsame =>
    obtain ⟨hp, hh, hl, hd, rfl, rfl, rfl⟩ := hsame
    cases h
    have hkept : ∀ {o : Option String} {v : Json}, ((o.map Json.str).getD v).eqv v = true →
        (o.map Json.str).getD v = v := by
      intro o v hv
      cases o with
      | none => rfl
      | some s =>
        rw [Json.eqv, Bool.and_eq_true, decide_eq_true_eq] at hv
        exact (Json.SameValue.str_iff.mp hv.1).symm
    rw [Json.eqv, Bool.and_eq_true, decide_eq_true_eq] at hp
    refine ⟨config.port, _, _, _, config.startup_pos, ⟨port, hport, hp.1⟩, hstartup, hidle, hlive,
      ?_⟩
    rw [hkept hh, hkept hl, hd]
  case isFalse =>
    obtain ⟨startup', hstartup', idle', hidle', live', hlive', h⟩ :=
      show ∃ _, _ by simpa only [Checked.bind_eq_ok_iff] using h
    cases h
    rw [← atLeast_eq_ok hstartup'] at hstartup
    rw [← atLeast_eq_ok hidle'] at hidle
    rw [← atLeast_eq_ok hlive'] at hlive
    exact ⟨_, _, _, _, startup'.2, ⟨port, hport, .refl _⟩, hstartup, hidle, hlive, rfl⟩

/-- The port of a loaded configuration is as good as an integer. -/
theorem exists_port {env : HubEnv} {config config' : HubConfig}
    (h : applyEnvOverrides env config = .ok config') :
    ∃ n, (Json.int n).SameValue config'.port := by
  obtain ⟨_, _, _, _, _, ⟨n, -, hport⟩, -, -, -, rfl⟩ := applyEnvOverrides_eq_ok h
  exact ⟨n, hport⟩

/-- The integers the environment overrides settings with are within their bounds. -/
structure HubEnv.Usable (env : HubEnv) : Prop where
  port : ∀ s, env.port = some s → ∃ n, IntLiteral.parse s = some n
  startup : ∀ s, env.startupMaxConcurrency = some s → ∃ n, IntLiteral.parse s = some n ∧ 1 ≤ n
  idle : ∀ s, env.idleTtlSeconds = some s → ∃ n, IntLiteral.parse s = some n ∧ 0 ≤ n
  live : ∀ s, env.maxLiveBackends = some s → ∃ n, IntLiteral.parse s = some n ∧ 0 ≤ n

/-- The overrides are applied when they are usable, if there is a port without them. -/
theorem applyEnvOverrides_usable_iff (env : HubEnv) (config : HubConfig)
    (hport : ∃ n, config.port.toInt = .ok n) :
    (∃ config', applyEnvOverrides env config = .ok config') ↔ env.Usable := by
  constructor
  · rintro ⟨config', h⟩
    obtain ⟨port, startup, idle, live, hpos, ⟨n, hn, -⟩, hstartup, hidle, hlive, -⟩ :=
      applyEnvOverrides_eq_ok h
    exact
      { port := fun s hs => ⟨n, parse_of_intOverride hn s hs⟩
        startup := fun s hs => ⟨startup, parse_of_intOverride hstartup s hs, by omega⟩
        idle := fun s hs => ⟨idle, parse_of_intOverride hidle s hs, by omega⟩
        live := fun s hs => ⟨live, parse_of_intOverride hlive s hs, by omega⟩ }
  · intro h
    have hpos := config.startup_pos
    obtain ⟨n, hn⟩ := hport
    obtain ⟨port, hport, -⟩ := exists_intOverride (p := fun _ => True) (v := config.port)
      ⟨n, hn, trivial⟩ fun s hs => (h.port s hs).imp fun _ h => ⟨h, trivial⟩
    obtain ⟨startup, hstartup, hs⟩ := exists_intOverride
      (v := .int config.startupMaxConcurrency) ⟨_, rfl, by omega⟩ h.startup
    obtain ⟨idle, hidle, hi⟩ := exists_intOverride
      (v := .int config.idleTtlSeconds) ⟨_, rfl, by omega⟩ h.idle
    obtain ⟨live, hlive, hl⟩ := exists_intOverride
      (v := .int config.maxLiveBackends) ⟨_, rfl, by omega⟩ h.live
    simp only [applyEnvOverrides, hport, hstartup, hidle, hlive, bind, Except.bind]
    split
    · exact ⟨config, rfl⟩
    · obtain ⟨_, hs⟩ : ∃ k, checkStartup startup = .ok k := exists_atLeast _ hs
      obtain ⟨_, hi⟩ : ∃ k, checkIdleTtl idle = .ok k := exists_atLeast _ hi
      obtain ⟨_, hl⟩ : ∃ k, checkMaxLive live = .ok k := exists_atLeast _ hl
      rw [hs, hi, hl]
      exact ⟨_, rfl⟩

/-- What loading leaves in a setting: the value of the override, else what the loader makes of the
file. -/
theorem setting_loadConfig {R : Runtime} {env : HubEnv} {raw : Dict String Json}
    {config : HubConfig} (h : loadConfig R env (some raw) = .ok config) :
    ∀ p ∈ config.settings, ∀ w,
      convertSetting R p.1 ((raw.get? p.1).getD (defaultSetting p.1)) = .ok w →
        ((env.override p.1).getD w).SameValue p.2 := by
  obtain ⟨base, hread, h⟩ := Checked.bind_eq_ok_iff.mp h
  obtain ⟨hconv, hport, -⟩ := convertSetting_readConfig hread
  obtain ⟨port, startup, idle, live, hpos, ⟨n, hn, hsame⟩, hstartup, hidle, hlive, rfl⟩ :=
    applyEnvOverrides_eq_ok h
  have hkeep : ∀ {x : Checked Json} {v : Json} (o : Option Json), x = .ok v →
      ∀ w, x = .ok w → (o.getD w).SameValue (o.getD v) := by
    rintro x v o hx w hw
    obtain rfl := Except.ok.inj (hw.symm.trans hx)
    exact .refl _
  have hint : ∀ {o : Option String} {k : ℕ} {n : ℕ}, intOverride o (.int k) = .ok (n : ℤ) →
      ((o.bind IntLiteral.parse).map Json.int).getD (.int k) = .int n := by
    intro o k n hn
    cases o with
    | none => exact congrArg Json.int (Except.ok.inj hn)
    | some s => rw [Option.bind_some, parse_of_intOverride hn s rfl]; rfl
  simp only [HubConfig.settings, List.forall_mem_cons] at hconv ⊢
  obtain ⟨h1, -, h3, h4, h5, h6, h7, h8, h9, h10, h11, h12, h13, h14, h15, h16, h17, h18, h19, h20,
    h21, h22, -⟩ := hconv
  refine ⟨hkeep (env.host.map .str) (h1 (by simp)), ?_, hkeep none (h3 (by simp)),
    hkeep none (h4 (by simp)), hkeep none (h5 (by simp)), hkeep none (h6 (by simp)),
    hkeep none (h7 (by simp)), hkeep (env.logLevel.map .str) (h8 (by simp)),
    hkeep none (h9 (by simp)), hkeep none (h10 (by simp)), hkeep none (h11 (by simp)), ?_, ?_, ?_,
    hkeep none (h15 (by simp)), hkeep none (h16 (by simp)), hkeep none (h17 (by simp)),
    hkeep none (h18 (by simp)), hkeep none (h19 (by simp)), hkeep none (h20 (by simp)),
    hkeep none (h21 (by simp)), hkeep none (h22 (by simp)), by simp⟩
  · intro w hw
    refine .trans ?_ hsame
    cases hs : env.port with
    | none =>
      rw [hs, intOverride, hport] at hn
      have hw' : Json.int <$> (Except.ok n : Checked ℤ) = .ok w :=
        (congrArg (Functor.map Json.int) hn).symm.trans hw
      obtain rfl := Except.ok.inj hw'
      simp only [HubEnv.override, hs]
      exact .refl _
    | some s =>
      simp only [HubEnv.override, hs, Option.bind_some, parse_of_intOverride hn s hs]
      exact .refl _
  · rw [← hint hstartup]
    exact hkeep _ (h12 (by simp))
  · rw [← hint hidle]
    exact hkeep _ (h13 (by simp))
  · rw [← hint hlive]
    exact hkeep _ (h14 (by simp))

/-! ### What saving writes -/

/-- The names of the settings are the same in every configuration. -/
theorem map_fst_settings (config : HubConfig) :
    config.settings.map Prod.fst = (HubConfig.settings {}).map Prod.fst :=
  rfl

theorem nodup_settings (config : HubConfig) : (config.settings.map Prod.fst).Nodup := by
  rw [map_fst_settings]
  decide

/-- An edit is saved: the overrides are usable, the guard lets the new number of servers pass, and
the validation accepts every server. -/
structure Saves (R : Runtime) (env : HubEnv) (raw : Dict String Json)
    (servers : List MCPServerConfig) (force : Bool) : Prop where
  usable : env.Usable
  guard : countDropGuard (getConfigDir env) (some raw) force servers.length = .ok ()
  valid : ∀ srv ∈ servers, ∃ s, validateServerConfig R srv.unchecked = .ok s

theorem savedServer_eq_ok_iff {R : Runtime} {srv : MCPServerConfig} {e : String × Json} :
    savedServer R srv = .ok e ↔ ∃ s, validateServerConfig R srv.unchecked = .ok s ∧
      e = (s.name, .obj (serverEntry s).entries) := by
  rw [savedServer, Checked.bind_eq_ok_iff]
  exact exists_congr fun s => and_congr_right fun _ => ⟨fun h => (Except.ok.inj h).symm,
    fun h => congrArg _ h.symm⟩

/-- The directory is in the message of the guard only. -/
theorem countDropGuard_eq_ok_congr (dir dir' : String) {existing : Option (Dict String Json)}
    {force : Bool} {newCount : ℕ} : countDropGuard dir existing force newCount = .ok () ↔
      countDropGuard dir' existing force newCount = .ok () := by
  cases existing with
  | none => rfl
  | some raw =>
    cases force with
    | true => rfl
    | false =>
      simp only [countDropGuard, Bool.false_eq_true, if_false, Checked.bind_eq_ok_iff]
      refine exists_congr fun n => and_congr_right fun _ => ?_
      split_ifs
      · exact ⟨nofun, nofun⟩
      · rfl

theorem saveConfig_eq_ok_iff {R : Runtime} {existing : Option (Dict String Json)}
    {config : HubConfig} {force : Bool} {saved : Dict String Json} :
    saveConfig R existing config force = .ok saved ↔
      countDropGuard config.configDir existing force config.mcpServers.length = .ok () ∧
        ∃ l, config.mcpServers.mapM (savedServer R) = .ok l ∧
          saved = Dict.empty.setAll (config.settings.take 2 ++
            [("mcpServers", .obj (Dict.empty.setAll l).entries)] ++ config.settings.drop 2) := by
  simp only [saveConfig, Checked.bind_eq_ok_iff]
  constructor
  · rintro ⟨_, hguard, l, hl, h⟩
    exact ⟨hguard, l, hl, (Except.ok.inj h).symm⟩
  · rintro ⟨hguard, l, hl, rfl⟩
    exact ⟨(), hguard, l, hl, rfl⟩

/-- What a saved file has under a name. -/
theorem get?_saved (config : HubConfig) (servers : Json) (name : String) :
    (Dict.empty.setAll (config.settings.take 2 ++ [("mcpServers", servers)] ++
      config.settings.drop 2)).get? name =
        if name = "mcpServers" then some servers else Dict.lastOf config.settings name := by
  rw [Dict.get?_setAll, Dict.get?_empty, Option.or_none, Dict.lastOf_append, Dict.lastOf_append,
    Dict.lastOf_cons, Dict.lastOf_nil]
  by_cases hname : name = "mcpServers"
  · subst hname
    have htake : Dict.lastOf (config.settings.take 2) "mcpServers" = none := rfl
    have hdrop : Dict.lastOf (config.settings.drop 2) "mcpServers" = none := rfl
    simp [htake, hdrop]
  · rw [← List.take_append_drop 2 config.settings, Dict.lastOf_append]
    simp [hname, Ne.symm hname]

theorem lastOf_settings_iff {config : HubConfig} {name : String} {v : Json} :
    Dict.lastOf config.settings name = some v ↔ (name, v) ∈ config.settings :=
  Dict.lastOf_eq_some_iff (nodup_settings config)

theorem setting?_eq {config : HubConfig} {name : String} (h : name ≠ "config_dir") :
    config.setting? name = Dict.lastOf config.settings name := by
  rw [HubConfig.setting?, Dict.lastOf_cons, if_neg h.symm, Option.or_none]

/-- A setting of the file is one of every configuration, `config_dir` apart. -/
theorem exists_mem_settings (config : HubConfig) {name : String} (h : name ∈ settingNames)
    (hdir : name ≠ "config_dir") : ∃ v, (name, v) ∈ config.settings := by
  rcases List.mem_cons.mp h with h | h
  · exact absurd h hdir
  · rw [← map_fst_settings config] at h
    obtain ⟨p, hp, rfl⟩ := List.mem_map.mp h
    exact ⟨p.2, hp⟩

/-- **A configuration that was saved is read back.** -/
theorem readConfig_of_settings {R : Runtime} (env : HubEnv) {config : HubConfig}
    {raw : Dict String Json} {servers : List MCPServerConfig}
    (hget : ∀ p ∈ config.settings, raw.get? p.1 = some p.2)
    (hdir : raw.get? "config_dir" = none)
    (hservers : loadServers R (serversRaw raw) = .ok servers) :
    readConfig R env raw =
      .ok { config with mcpServers := servers, configDir := getConfigDir env } := by
  simp only [HubConfig.settings, List.forall_mem_cons] at hget
  obtain ⟨h1, h2, h3, h4, h5, h6, h7, h8, h9, h10, h11, h12, h13, h14, h15, h16, h17, h18, h19, h20,
    h21, h22, -⟩ := hget
  have hstartup : checkStartup config.startupMaxConcurrency =
      .ok ⟨config.startupMaxConcurrency, config.startup_pos⟩ :=
    atLeast_natCast _ config.startup_pos
  have hidle : checkIdleTtl config.idleTtlSeconds = .ok ⟨config.idleTtlSeconds, Nat.zero_le _⟩ :=
    atLeast_natCast _ (Nat.zero_le _)
  have hlive : checkMaxLive config.maxLiveBackends =
      .ok ⟨config.maxLiveBackends, Nat.zero_le _⟩ :=
    atLeast_natCast _ (Nat.zero_le _)
  have hbind : checkDashboardBind R config.dashboardBind =
      .ok ⟨config.dashboardBind, config.dashboardBind_nonblank⟩ :=
    dif_pos config.dashboardBind_nonblank
  have hqueue : checkEventQueue config.eventQueueMaxsize =
      .ok ⟨config.eventQueueMaxsize, config.eventQueue_pos⟩ :=
    dif_pos config.eventQueue_pos
  simp only [readConfig, h1, h2, h3, h4, h5, h6, h7, h8, h9, h10, h11, h12, h13, h14, h15, h16, h17,
    h18, h19, h20, h21, h22, hdir, hservers, Option.getD_some, Option.getD_none, Json.toPath,
    Json.toTuple, Json.toInt, Json.toFloat, asBool, Runtime.str, bind, Except.bind, hstartup, hidle,
    hlive, hbind, hqueue]
  rfl

/-- The servers of a file that was saved are accepted again. -/
theorem exists_loadServers {R : Runtime} {servers : List MCPServerConfig}
    {l : List (String × Json)} (h : servers.mapM (savedServer R) = .ok l) :
    ∃ servers', loadServers R (.obj (Dict.empty.setAll l).entries) = .ok servers' := by
  rw [loadServers, Json.toDict, Dict.setAll_empty_entries]
  refine Checked.exists_mapM_iff.mpr fun e he => ?_
  have hmem : e ∈ l := by
    have hget := Dict.mem_entries_iff.mp he
    rw [Dict.get?_setAll, Dict.get?_empty, Option.or_none] at hget
    exact Dict.lastOf_mem hget
  obtain ⟨srv, -, hsrv⟩ := Checked.mem_of_mapM h hmem
  obtain ⟨s, hs, rfl⟩ := savedServer_eq_ok_iff.mp hsrv
  refine ⟨s.reloaded, ?_⟩
  show parseMcpServer R s.name (Json.toDict (serverEntry s).entries) = _
  rw [Json.toDict, Dict.setAll_empty_entries]
  exact parseMcpServer_serverEntry (validateServerConfig_eq_ok_iff.mp hs).unchecked

/-- Without a `config_dir` in the file, the environment decides that one only. -/
theorem readConfig_env {R : Runtime} (env env' : HubEnv) {raw : Dict String Json}
    (hdir : raw.get? "config_dir" = none) :
    readConfig R env' raw =
      (fun config : HubConfig => { config with configDir := getConfigDir env' }) <$>
        readConfig R env raw := by
  simp only [readConfig, hdir, Option.getD_none, Json.toPath, Checked.ok_bind, map_bind, map_pure]

/-- What is read does not depend on the overrides, `config_dir` apart. -/
theorem exists_readConfig {R : Runtime} {env : HubEnv} (env' : HubEnv) {raw : Dict String Json}
    {config : HubConfig} (h : readConfig R env raw = .ok config) :
    ∃ config', readConfig R env' raw = .ok config' ∧ config'.port = config.port := by
  cases hdir : raw.get? "config_dir" with
  | some v =>
    refine ⟨config, ?_, rfl⟩
    simpa only [readConfig, hdir, Option.getD_some] using h
  | none =>
    rw [readConfig_env env env' hdir, h]
    exact ⟨_, rfl, rfl⟩

/-- The port of a file that is loaded without overrides is one that can be converted. -/
theorem exists_toInt_port {R : Runtime} {env : HubEnv} {raw : Dict String Json} {base : HubConfig}
    (h : loadConfig R env.cleared (some raw) = .ok base) :
    ∃ config n, readConfig R env.cleared raw = .ok config ∧ config.port.toInt = .ok n := by
  obtain ⟨config, hread, h⟩ := Checked.bind_eq_ok_iff.mp h
  obtain ⟨-, -, -, -, -, ⟨n, hn, -⟩, -⟩ := applyEnvOverrides_eq_ok h
  exact ⟨config, n, hread, hn⟩

/-- A file was saved: its settings are those of a configuration that was loaded under the overrides,
and loading it without them gives its settings. -/
structure Written (R : Runtime) (env : HubEnv) (raw saved : Dict String Json)
    (config config' : HubConfig) : Prop where
  loaded : ∀ p ∈ config.settings, ∀ w,
    convertSetting R p.1 ((raw.get? p.1).getD (defaultSetting p.1)) = .ok w →
      ((env.override p.1).getD w).SameValue p.2
  get : ∀ p ∈ config.settings, saved.get? p.1 = some p.2
  noConfigDir : saved.get? "config_dir" = none
  reload : loadConfig R env.cleared (some saved) = .ok config'
  configDir : config'.configDir = getConfigDir env.cleared
  reloaded : ∀ p ∈ config.settings, ∃ v, (p.1, v) ∈ config'.settings ∧ v.SameValue p.2

/-- What an edit does to a file that can be loaded. -/
theorem editServers_eq {R : Runtime} {env : HubEnv} {raw : Dict String Json} {base : HubConfig}
    (hvalid : loadConfig R env.cleared (some raw) = .ok base) (servers : List MCPServerConfig)
    (force : Bool) :
    (¬ Saves R env raw servers force ∧ editServers R env raw servers force = raw) ∨
      ∃ config l, loadConfig R env (some raw) = .ok config ∧
        servers.mapM (savedServer R) = .ok l ∧
        Saves R env raw servers force ∧
        editServers R env raw servers force = Dict.empty.setAll (config.settings.take 2 ++
          [("mcpServers", .obj (Dict.empty.setAll l).entries)] ++ config.settings.drop 2) := by
  obtain ⟨read, n, hread, hn⟩ := exists_toInt_port hvalid
  obtain ⟨read', hread', hport⟩ := exists_readConfig env hread
  have husable : (∃ config', applyEnvOverrides env read' = .ok config') ↔ env.Usable :=
    applyEnvOverrides_usable_iff env read' ⟨n, hport ▸ hn⟩
  have hload : loadConfig R env (some raw) = applyEnvOverrides env read' := by
    show (readConfig R env raw >>= _) = _
    rw [hread']
    rfl
  have hvalidated : (∃ l, servers.mapM (savedServer R) = .ok l) ↔
      ∀ srv ∈ servers, ∃ s, validateServerConfig R srv.unchecked = .ok s := by
    rw [Checked.exists_mapM_iff]
    refine forall₂_congr fun srv _ => ?_
    simp only [savedServer_eq_ok_iff]
    exact ⟨fun ⟨_, s, hs, _⟩ => ⟨s, hs⟩, fun ⟨s, hs⟩ => ⟨_, s, hs, rfl⟩⟩
  rw [editServers, hload]
  cases happly : applyEnvOverrides env read' with
  | error _ =>
    refine Or.inl ⟨fun h => ?_, rfl⟩
    obtain ⟨config, hconfig⟩ := husable.mpr h.usable
    cases happly.symm.trans hconfig
  | ok config =>
    cases hsave : saveConfig R (some raw) { config with mcpServers := servers } force with
    | error _ =>
      refine Or.inl ⟨fun h => ?_, by simp only [hsave]⟩
      obtain ⟨l, hl⟩ := hvalidated.mpr h.valid
      cases hsave.symm.trans (saveConfig_eq_ok_iff.mpr
        ⟨(countDropGuard_eq_ok_congr _ _).mp h.guard, l, hl, rfl⟩)
    | ok saved =>
      obtain ⟨hguard, l, hl, rfl⟩ := saveConfig_eq_ok_iff.mp hsave
      exact Or.inr ⟨config, l, rfl, hl, ⟨husable.mp ⟨config, happly⟩,
        (countDropGuard_eq_ok_congr _ _).mp hguard, hvalidated.mp ⟨l, hl⟩⟩,
        by simp only [hsave]; rfl⟩

/-! ### Loading what was saved -/

section Saved

variable {R : Runtime} {env : HubEnv} {raw saved : Dict String Json} {config : HubConfig}
  {servers : List MCPServerConfig} {l : List (String × Json)}

/-- What a saved file has under the name of a setting. -/
theorem get?_of_saved (hsaved : saved = Dict.empty.setAll (config.settings.take 2 ++
      [("mcpServers", .obj (Dict.empty.setAll l).entries)] ++ config.settings.drop 2)) :
    (∀ p ∈ config.settings, saved.get? p.1 = some p.2) ∧ saved.get? "config_dir" = none ∧
      serversRaw saved = .obj (Dict.empty.setAll l).entries := by
  subst hsaved
  refine ⟨fun p hp => ?_, ?_, ?_⟩
  · have hname : p.1 ≠ "mcpServers" := by
      intro h
      have hmem := List.mem_map_of_mem (f := Prod.fst) hp
      rw [map_fst_settings, h] at hmem
      revert hmem
      decide
    rw [get?_saved, if_neg hname]
    exact lastOf_settings_iff.mpr hp
  · rw [get?_saved, if_neg (by decide), Dict.lastOf_eq_none_iff, map_fst_settings]
    decide
  · rw [serversRaw, get?_saved, if_pos rfl, Option.getD_some]

/-- **Loading what was saved**, without overrides, gives the settings that were saved. -/
theorem loadConfig_saved (hload : loadConfig R env (some raw) = .ok config)
    (hservers : servers.mapM (savedServer R) = .ok l)
    (hsaved : saved = Dict.empty.setAll (config.settings.take 2 ++
      [("mcpServers", .obj (Dict.empty.setAll l).entries)] ++ config.settings.drop 2)) :
    ∃ config', loadConfig R env.cleared (some saved) = .ok config' ∧
      config'.configDir = getConfigDir env.cleared ∧
      ∀ p ∈ config.settings, ∃ v, (p.1, v) ∈ config'.settings ∧ v.SameValue p.2 := by
  obtain ⟨_, -, happly⟩ := Checked.bind_eq_ok_iff.mp hload
  obtain ⟨n, hport⟩ := exists_port happly
  obtain ⟨hget, hdir, hraw⟩ := get?_of_saved hsaved
  obtain ⟨servers', hservers'⟩ := exists_loadServers hservers
  have hread := readConfig_of_settings env.cleared hget hdir (hraw ▸ hservers')
  have husable : env.cleared.Usable := ⟨nofun, nofun, nofun, nofun⟩
  obtain ⟨config', hagain⟩ : ∃ config', applyEnvOverrides env.cleared
      { config with mcpServers := servers', configDir := getConfigDir env.cleared } =
        .ok config' := by
    refine (applyEnvOverrides_usable_iff env.cleared _ ?_).mpr husable
    exact ⟨n, hport.toInt_eq⟩
  refine ⟨config', Checked.bind_eq_ok_iff.mpr ⟨_, hread, hagain⟩, ?_⟩
  obtain ⟨port, startup, idle, live, hpos, ⟨m, hm, hsame⟩, hstartup, hidle, hlive, rfl⟩ :=
    applyEnvOverrides_eq_ok hagain
  obtain rfl : n = m := Except.ok.inj (hport.toInt_eq.symm.trans hm)
  obtain rfl : config.startupMaxConcurrency = startup :=
    Int.ofNat.inj (Except.ok.inj hstartup)
  obtain rfl : config.idleTtlSeconds = idle :=
    Int.ofNat.inj (Except.ok.inj hidle)
  obtain rfl : config.maxLiveBackends = live :=
    Int.ofNat.inj (Except.ok.inj hlive)
  refine ⟨rfl, fun p hp => ?_⟩
  rcases List.mem_cons.mp hp with rfl | hp
  · exact ⟨_, List.mem_cons_self, .refl _⟩
  rcases List.mem_cons.mp hp with rfl | hp
  · exact ⟨port, List.mem_cons_of_mem _ List.mem_cons_self, hsame.symm.trans hport⟩
  · exact ⟨p.2, List.mem_cons_of_mem _ (List.mem_cons_of_mem _ hp), .refl _⟩

/-- What an edit leaves when it is saved. -/
theorem written_of_saved (hload : loadConfig R env (some raw) = .ok config)
    (hservers : servers.mapM (savedServer R) = .ok l)
    (hsaved : saved = Dict.empty.setAll (config.settings.take 2 ++
      [("mcpServers", .obj (Dict.empty.setAll l).entries)] ++ config.settings.drop 2)) :
    ∃ config', Written R env raw saved config config' := by
  obtain ⟨hget, hdir, -⟩ := get?_of_saved hsaved
  obtain ⟨config', hreload, hconfigDir, hreloaded⟩ := loadConfig_saved hload hservers hsaved
  exact ⟨config', setting_loadConfig hload, hget, hdir, hreload, hconfigDir, hreloaded⟩

end Saved

/-! ### When an edit changes nothing else -/

theorem convertSetting_defaultSetting (R : Runtime) :
    ∀ name ∈ settingNames, convertSetting R name (defaultSetting name) =
      .ok (defaultSetting name) := by
  simp only [settingNames, HubConfig.settings, List.map_cons, List.map_nil, List.forall_mem_cons]
  exact ⟨rfl, rfl, rfl, rfl, rfl, rfl, rfl, rfl, rfl, rfl, rfl, rfl, rfl, rfl, rfl, rfl, rfl, rfl,
    rfl, rfl, rfl, rfl, rfl, by simp⟩

/-- An override is of a setting that is converted to what the override amounts to. -/
theorem override_spec {env : HubEnv} {name : String} {o : Json} (h : env.override name = some o) :
    name ∈ settingNames ∧ name ≠ "config_dir" ∧
      ∀ R v w, o.SameValue v → convertSetting R name v = .ok w → w.SameValue v := by
  have hint : ∀ {x : Option ℤ}, x.map Json.int = some o → ∀ {v w : Json}, o.SameValue v →
      Json.int <$> v.toInt = .ok w → w.SameValue v := by
    intro x hx v w hsame hw
    obtain ⟨n, -, rfl⟩ := Option.map_eq_some_iff.mp hx
    rw [hsame.toInt_eq] at hw
    obtain rfl := Except.ok.inj hw
    exact hsame
  unfold HubEnv.override at h
  split at h
  case h_7 => cases h
  all_goals refine ⟨by decide, by decide, fun R v w hsame hw => ?_⟩
  · obtain rfl := Except.ok.inj hw
    exact .refl _
  · obtain rfl := Except.ok.inj hw
    exact .refl _
  all_goals exact hint h hsame hw

section Frame

variable {R : Runtime} {env : HubEnv} {raw saved : Dict String Json}
  {base config config' : HubConfig}

/-- In a file that can be loaded every setting can be converted. -/
theorem exists_convertSetting (hvalid : loadConfig R env.cleared (some raw) = .ok base)
    {name : String} (hname : name ∈ settingNames) (hdir : name ≠ "config_dir") :
    ∃ w, convertSetting R name ((raw.get? name).getD (defaultSetting name)) = .ok w := by
  obtain ⟨config, n, hread, hn⟩ := exists_toInt_port hvalid
  obtain ⟨hconv, hport, -⟩ := convertSetting_readConfig hread
  obtain ⟨v, hv⟩ := exists_mem_settings config hname hdir
  by_cases h : name = "port"
  · subst h
    refine ⟨.int n, ?_⟩
    rw [hport] at hn
    exact congrArg (Functor.map Json.int) hn
  · exact ⟨v, hconv _ hv h⟩

theorem setting?_default {name : String} (hname : name ∈ settingNames)
    (hdir : name ≠ "config_dir") :
    (defaultConfig env).setting? name = some (defaultSetting name) := by
  rw [setting?_eq hdir, lastOf_settings_iff]
  rcases List.mem_cons.mp hname with h | h
  · exact absurd h hdir
  · have hall : ∀ p ∈ (defaultConfig env).settings, p.2 = defaultSetting p.1 := by
      simp only [HubConfig.settings, List.forall_mem_cons]
      exact ⟨rfl, rfl, rfl, rfl, rfl, rfl, rfl, rfl, rfl, rfl, rfl, rfl, rfl, rfl, rfl, rfl, rfl,
        rfl, rfl, rfl, rfl, rfl, by simp⟩
    rw [← map_fst_settings (defaultConfig env)] at h
    obtain ⟨p, hp, rfl⟩ := List.mem_map.mp h
    rw [← hall p hp]
    exact hp

theorem override_cleared (name : String) : env.cleared.override name = none := by
  unfold HubEnv.override
  split <;> rfl

/-- A file that is not written keeps its settings. -/
theorem keepsSettings_self (hvalid : loadConfig R env.cleared (some raw) = .ok base) :
    KeepsSettings R env raw raw := by
  refine ⟨fun name _ v hv => ⟨v, hv, .refl v⟩, fun name hname hnone => ⟨base, hvalid, ?_⟩⟩
  by_cases hdir : name = "config_dir"
  · subst hdir
    obtain ⟨config, hread, happly⟩ := Checked.bind_eq_ok_iff.mp hvalid
    obtain ⟨_, _, _, _, _, -, -, -, -, rfl⟩ := applyEnvOverrides_eq_ok happly
    refine ⟨_, _, rfl, rfl, Or.inl (congrArg Json.str ?_)⟩
    exact (convertSetting_readConfig hread).2.2 hnone
  · obtain ⟨v, hv⟩ := exists_mem_settings base hname hdir
    refine ⟨v, _, (setting?_eq hdir).trans (lastOf_settings_iff.mpr hv),
      setting?_default hname hdir, ?_⟩
    have hconv := convertSetting_defaultSetting R name hname
    have hload := setting_loadConfig hvalid _ hv (defaultSetting name)
      (by simpa [hnone] using hconv)
    rw [override_cleared] at hload
    exact hload.symm

/-- An edit that keeps the settings has an undisturbed file. -/
theorem Written.undisturbed (hvalid : loadConfig R env.cleared (some raw) = .ok base)
    (hw : Written R env raw saved config config') (h : KeepsSettings R env raw saved) :
    Undisturbed R env raw := by
  have hnone : raw.get? "config_dir" = none := by
    by_contra hsome
    obtain ⟨v, hv⟩ := Option.ne_none_iff_exists'.mp hsome
    obtain ⟨v', hv', -⟩ := h.present _ List.mem_cons_self v hv
    cases hw.noConfigDir.symm.trans hv'
  have hname : ∀ {name}, name ≠ "config_dir" → name ∈ settingNames → ∃ s,
      (name, s) ∈ config.settings ∧ (∀ v, raw.get? name = some v → s.SameValue v) := by
    intro name hne hmem
    obtain ⟨s, hs⟩ := exists_mem_settings config hmem hne
    refine ⟨s, hs, fun v hv => ?_⟩
    obtain ⟨v', hv', hsame⟩ := h.present name hmem v hv
    obtain rfl := Option.some.inj ((hw.get _ hs).symm.trans hv')
    exact hsame
  refine ⟨hnone, fun name hmem v w hv hconv => ?_, fun name o ho => ?_⟩
  · have hne : name ≠ "config_dir" := by
      rintro rfl
      cases hnone.symm.trans hv
    obtain ⟨s, hs, hsv⟩ := hname hne hmem
    have hload := hw.loaded _ hs w (by rw [hv]; exact hconv)
    cases ho : env.override name with
    | none =>
      rw [ho] at hload
      exact hload.trans (hsv v hv)
    | some o =>
      rw [ho] at hload
      exact (override_spec ho).2.2 R v w (hload.trans (hsv v hv)) hconv
  · obtain ⟨hmem, hne, -⟩ := override_spec ho
    obtain ⟨s, hs, hsv⟩ := hname hne hmem
    obtain ⟨w, hconv⟩ := exists_convertSetting hvalid hmem hne
    have hload := hw.loaded _ hs w hconv
    rw [ho] at hload
    cases hv : raw.get? name with
    | some v => exact hload.trans (hsv v hv)
    | none =>
      obtain ⟨c, hc, v, v', hcv, hcv', hsame⟩ := h.absent name hmem hv
      obtain rfl := Except.ok.inj (hw.reload.symm.trans hc)
      obtain ⟨s', hs', hss⟩ := hw.reloaded _ hs
      have h1 := hcv.symm.trans ((setting?_eq hne).trans (lastOf_settings_iff.mpr hs'))
      have h2 := hcv'.symm.trans (setting?_default hmem hne)
      obtain rfl := Option.some.inj h1
      obtain rfl := Option.some.inj h2
      exact hload.trans (hss.symm.trans hsame)

/-- An edit of an undisturbed file keeps the settings. -/
theorem Written.keepsSettings (hvalid : loadConfig R env.cleared (some raw) = .ok base)
    (hw : Written R env raw saved config config') (h : Undisturbed R env raw) :
    KeepsSettings R env raw saved := by
  -- The saved value is that of the override or what the file converts to; either way it is the one
  -- the file has, or the default.
  have hsame : ∀ {name s}, name ∈ settingNames → name ≠ "config_dir" →
      (name, s) ∈ config.settings → s.SameValue ((raw.get? name).getD (defaultSetting name)) := by
    intro name s hmem hne hs
    obtain ⟨w, hconv⟩ := exists_convertSetting hvalid hmem hne
    refine (hw.loaded _ hs w hconv).symm.trans ?_
    cases ho : env.override name with
    | some o => exact h.overridden name o ho
    | none =>
      cases hv : raw.get? name with
      | some v =>
        rw [hv] at hconv
        exact h.converted name hmem v w hv hconv
      | none =>
        rw [hv] at hconv
        obtain rfl := Except.ok.inj ((convertSetting_defaultSetting R name hmem).symm.trans hconv)
        exact .refl _
  refine ⟨fun name hmem v hv => ?_, fun name hmem hv => ⟨config', hw.reload, ?_⟩⟩
  · have hne : name ≠ "config_dir" := by
      rintro rfl
      cases h.noConfigDir.symm.trans hv
    obtain ⟨s, hs⟩ := exists_mem_settings config hmem hne
    refine ⟨s, hw.get _ hs, ?_⟩
    simpa [hv] using hsame hmem hne hs
  · by_cases hne : name = "config_dir"
    · subst hne
      exact ⟨_, _, rfl, rfl, Or.inl (congrArg Json.str hw.configDir)⟩
    · obtain ⟨s, hs⟩ := exists_mem_settings config hmem hne
      obtain ⟨s', hs', hss⟩ := hw.reloaded _ hs
      refine ⟨s', _, (setting?_eq hne).trans (lastOf_settings_iff.mpr hs'),
        setting?_default hmem hne, hss.trans ?_⟩
      simpa [hv] using hsame hmem hne hs

/-- **When an edit of the servers changes nothing else**: when nothing is saved, or file and
environment leave nothing to change. -/
theorem keepsSettings_iff (hvalid : loadConfig R env.cleared (some raw) = .ok base)
    (servers : List MCPServerConfig) (force : Bool) :
    KeepsSettings R env raw (editServers R env raw servers force) ↔
      (Saves R env raw servers force → Undisturbed R env raw) := by
  rcases editServers_eq hvalid servers force with
    ⟨hnot, hsame⟩ | ⟨config, l, hload, hl, hsaves, hsaved⟩
  · rw [hsame]
    exact iff_of_true (keepsSettings_self hvalid) fun h => absurd h hnot
  · obtain ⟨config', hw⟩ := written_of_saved hload hl hsaved
    exact ⟨fun h _ => hw.undisturbed hvalid h, fun h => hw.keepsSettings hvalid (h hsaves)⟩

/-- An environment that overrides the port. -/
def portEnv : HubEnv := { port := some "8080", home := "/root" }

/-- A file without servers. -/
def bareFile : Dict String Json := Dict.empty.setAll [("mcpServers", .obj [])]

/-- What it is loaded as, without the override. -/
def bareConfig : HubConfig := { configDir := "/root/.slm-mcp-hub" }

theorem loadConfig_bareFile :
    loadConfig plainRuntime portEnv.cleared (some bareFile) = .ok bareConfig := by
  rfl

theorem keepsSettings_iff_bareFile :
    KeepsSettings plainRuntime portEnv bareFile
        (editServers plainRuntime portEnv bareFile [{ name := "a" }] false) ↔
      (Saves plainRuntime portEnv bareFile [{ name := "a" }] false →
        Undisturbed plainRuntime portEnv bareFile) :=
  keepsSettings_iff loadConfig_bareFile _ _

/-- Adding a server writes the overridden port into the file. -/
theorem not_keepsSettings_portEnv :
    loadConfig plainRuntime portEnv.cleared (some bareFile) = .ok bareConfig ∧
      ¬ KeepsSettings plainRuntime portEnv bareFile
        (editServers plainRuntime portEnv bareFile [{ name := "a" }] false) := by
  refine ⟨loadConfig_bareFile, fun h => ?_⟩
  rcases editServers_eq loadConfig_bareFile [{ name := "a" }] false with
    ⟨hnot, -⟩ | ⟨config, l, hload, hl, -, hsaved⟩
  · refine hnot ⟨⟨?_, nofun, nofun, nofun⟩, rfl, ?_⟩
    · rintro s ⟨⟩
      exact ⟨8080, rfl⟩
    · rintro srv (_ | ⟨_, ⟨⟩⟩)
      exact ⟨_, rfl⟩
  · obtain ⟨config', hw⟩ := written_of_saved hload hl hsaved
    have hover := (hw.undisturbed loadConfig_bareFile h).overridden "port" (.int 8080) rfl
    cases Json.SameValue.int_iff.mp hover

end Frame

end SlmMcpHub
