import SlmMcpHub.Core.ConfigIO

/-!
# Saving a server and loading it again

`save_config` leaves out what it takes for a default, and `parse_mcp_server` puts a default where
nothing stands; some of these are computed from other fields. `MCPServerConfig.reloaded` is what
comes back of a server, and where it differs from the server says which entries do not survive.

## Main definitions

* `reloadServer`, `reloads` — one save and load, and any number of them

## Main results

* `reloadServer_eq` — what comes back
* `survives_iff` — which accepted entries survive any number of cycles
-/

namespace SlmMcpHub

/-- The spawn policy that comes back: one that is left out is computed from `always_on`. -/
def Spawn.reloaded (alwaysOn : Bool) (p : Spawn) : Spawn :=
  if alwaysOn && p = .eager then .pinned else p

/-- The cost that comes back: one that is not positive is left out. -/
def Number.reloaded (x : Number) : Number := if x.value.isPos then x else .float (.finite 0)

namespace MCPServerConfig

/-- What comes back of a server that is saved and loaded. -/
def reloaded (srv : MCPServerConfig) : MCPServerConfig where
  name := srv.name
  transport := srv.transport
  command := if srv.transport = .stdio then srv.command else ""
  args := if srv.transport = .stdio then srv.args else []
  env := if srv.transport = .stdio then srv.env else .empty
  url := if srv.transport = .stdio then "" else srv.url
  headers := if srv.transport = .stdio then .empty else srv.headers
  enabled := srv.enabled
  alwaysOn := srv.alwaysOn
  noCache := srv.noCache
  costPerCallCents := srv.costPerCallCents.reloaded
  auth := srv.auth
  spawn := srv.spawn.reloaded srv.alwaysOn
  timeoutClass := srv.timeoutClass
  maxConcurrency := srv.maxConcurrency

end MCPServerConfig

theorem Spawn.reloaded_reloaded (alwaysOn : Bool) (p : Spawn) :
    (p.reloaded alwaysOn).reloaded alwaysOn = p.reloaded alwaysOn := by
  cases alwaysOn <;> cases p <;> rfl

theorem Number.reloaded_reloaded (x : Number) : x.reloaded.reloaded = x.reloaded := by
  rw [reloaded]
  by_cases hpos : x.value.isPos = true <;> simp [reloaded, hpos]

/-- A cost comes back unless it is no number. -/
theorem Number.value_reloaded {x : Number} (hneg : x.value.isNeg = false) :
    x.value = x.reloaded.value ↔ x.value ≠ .nan := by
  rw [reloaded]
  cases hpos : x.value.isPos with
  | true =>
    refine iff_of_true rfl fun hnan => ?_
    rw [hnan] at hpos
    cases hpos
  | false =>
    constructor
    · intro hzero hnan
      cases hnan.symm.trans hzero
    · exact fun hnan => Double.eq_zero_of_not_isPos hneg hpos hnan

/-! ### Reading an entry back -/

theorem lastOf_entryIf (condition : Bool) (key k : String) (value : Json) :
    Dict.lastOf (entryIf condition key value) k =
      if condition = true ∧ key = k then some value else none := by
  cases condition <;> simp [entryIf, Dict.lastOf]

/-- What an entry of a server has under a name. -/
theorem get?_serverEntry (srv : MCPServerConfig) (k : String) :
    (serverEntry srv).get? k = Dict.lastOf
      ([("enabled", .bool srv.enabled)] ++ transportEntry srv ++ policyEntry srv) k := by
  rw [serverEntry, Dict.get?_setAll]
  simp

theorem get?_toDict (entries : List (String × Json)) (k : String) :
    (Json.toDict entries).get? k = Dict.lastOf entries k := by
  rw [Json.toDict, Dict.get?_setAll]
  simp

theorem AuthOAuthConfig.make_eq (R : Runtime) (config : AuthOAuthConfig) :
    AuthOAuthConfig.make R (config.scopes.map .str) config.clientMetadataUrl
      (.str config.callbackHost) (.int config.callbackPort) = .ok config := by
  have hscopes := Json.mapM_str?_map_str config.scopes
  rw [make, hscopes, show (Json.str config.callbackHost).str? = some config.callbackHost from rfl]
  show (if h : config.callbackHost ∈ loopbackHosts then _ else _) = _
  rw [dif_pos config.loopback]
  rfl

theorem parseAuthConfig_serializeAuth (R : Runtime) (auth : AuthConfig) :
    parseAuthConfig R ((serializeAuth auth).getD .null) = .ok auth := by
  cases auth with
  | none => rfl
  | staticHeaders => rfl
  | oauth config =>
    have hurl : (if config.clientMetadataUrl = .null then none
        else some config.clientMetadataUrl).getD .null = config.clientMetadataUrl := by
      by_cases h : config.clientMetadataUrl = .null <;> simp [h]
    simp only [serializeAuth, Option.getD_some, parseAuthConfig]
    simp [Json.truthy, get?_toDict, Dict.lastOf_cons, lastOf_entryIf, hurl,
      AuthOAuthConfig.make_eq]

/-- What comes back of the authorization policy of an entry. -/
theorem lastOf_auth (auth : AuthConfig) (k : String) :
    Dict.lastOf ((serializeAuth auth).toList.map fun v => ("auth", v)) k =
      if k = "auth" then serializeAuth auth else none := by
  cases serializeAuth auth with
  | none => simp
  | some v => simp [Dict.lastOf_cons, eq_comm]

/-- The validation accepts again what it has made. -/
theorem Validates.unchecked {R : Runtime} {c : UncheckedServerConfig} {s : MCPServerConfig}
    (h : Validates R c s) : Validates R s.unchecked s where
  name := rfl
  nonblank := (congrArg Text.isBlank h.name).symm.trans h.nonblank
  transport := rfl
  command := rfl
  args := Json.mapM_str?_map_str s.args
  env := Json.stringMap?_ofStringMap s.env
  url := rfl
  headers := Json.stringMap?_ofStringMap s.headers
  enabled := rfl
  alwaysOn := rfl
  noCache := rfl
  costPerCallCents := rfl
  nonneg := h.nonneg
  auth := rfl
  spawn := rfl
  timeoutClass := rfl
  maxConcurrency := rfl
  positive := h.positive
  companions := h.companions
  streamable := h.streamable

theorem stringMap?_getD_entryIf (d : Dict String String) :
    ((if d.size = 0 then none else some (Json.ofStringMap d)).getD (.obj [])).stringMap? =
      some d := by
  by_cases h : d.size = 0
  · rw [if_pos h, Dict.eq_empty_of_size h]
    rfl
  · rw [if_neg h, Option.getD_some, Json.stringMap?_ofStringMap]

/-! A field that is left out is read as its default. -/

theorem getD_flag (b : Bool) :
    (if b = true then some (Json.bool true) else none).getD (.bool false) = .bool b := by
  cases b <;> rfl

theorem getD_maxConcurrency (n : ℤ) :
    ((if n = defaultMaxConcurrency then none else some (Json.int n)).getD
      (.int defaultMaxConcurrency)).toInt = .ok n := by
  by_cases h : n = defaultMaxConcurrency
  · rw [if_pos h, h]
    rfl
  · rw [if_neg h]
    rfl

theorem getD_timeoutClass (c : TimeoutClass) :
    (if c = .default then none else some (Json.str c.value)).getD (.str "default") =
      .str c.value := by
  cases c <;> rfl

theorem getD_spawn (alwaysOn : Bool) (p : Spawn) :
    (if p = .eager then none else some (Json.str p.value)).getD
      (.str (if (Json.bool alwaysOn).truthy = true then "pinned" else "eager")) =
        .str (p.reloaded alwaysOn).value := by
  cases p <;> cases alwaysOn <;> rfl

theorem getD_cost (x : Number) :
    (if x.value.isPos = true then some x.toJson else none).getD (.float (.finite 0)) =
      x.reloaded.toJson := by
  rw [Number.reloaded]
  by_cases h : x.value.isPos = true <;> simp [h, Number.toJson]

theorem Number.isNeg_reloaded {x : Number} (h : x.value.isNeg = false) :
    x.reloaded.value.isNeg = false := by
  rw [reloaded]
  by_cases hpos : x.value.isPos = true
  · rw [if_pos hpos]
    exact h
  · rw [if_neg hpos]
    rfl

/-- **What comes back.** The entry of a server that passes the validation is accepted, as
`reloaded` says. -/
theorem parseMcpServer_serverEntry {R : Runtime} {srv : MCPServerConfig}
    (h : Validates R srv.unchecked srv) :
    parseMcpServer R srv.name (serverEntry srv) = .ok srv.reloaded := by
  have hauth : (serverEntry srv).get? "auth" = serializeAuth srv.auth := by
    rw [get?_serverEntry]
    by_cases ht : srv.transport = .stdio <;>
      simp [transportEntry, policyEntry, ht, Dict.lastOf_append, Dict.lastOf_cons,
        lastOf_entryIf, lastOf_auth]
  rw [parseMcpServer, hauth, parseAuthConfig_serializeAuth]
  by_cases ht : srv.transport = .stdio
  · simp [get?_serverEntry, transportEntry, policyEntry, ht, Dict.lastOf_append, Dict.lastOf_cons,
      lastOf_entryIf, lastOf_auth, getD_flag, getD_timeoutClass, getD_spawn, getD_cost]
    refine Checked.bind_eq_ok_iff.mpr ⟨_, rfl, Checked.bind_eq_ok_iff.mpr
      ⟨_, getD_maxConcurrency _, Checked.bind_eq_ok_iff.mpr ⟨_, rfl, ?_⟩⟩⟩
    exact validateServerConfig_eq_ok_iff.mpr
      { name := rfl
        nonblank := h.nonblank
        transport := by simp [MCPServerConfig.reloaded, ht, Transport.value]
        command := by simp [MCPServerConfig.reloaded, ht]
        args := by
          simpa only [MCPServerConfig.reloaded, ht, if_true] using
            Json.mapM_str?_map_str srv.args
        env := by simpa [MCPServerConfig.reloaded, ht] using stringMap?_getD_entryIf srv.env
        url := by simp [MCPServerConfig.reloaded, ht]
        headers := by simp [MCPServerConfig.reloaded, ht]; rfl
        enabled := rfl
        alwaysOn := rfl
        noCache := rfl
        costPerCallCents := rfl
        nonneg := Number.isNeg_reloaded h.nonneg
        auth := rfl
        spawn := rfl
        timeoutClass := rfl
        maxConcurrency := rfl
        positive := h.positive
        companions := fun _ => by simp [MCPServerConfig.reloaded, ht]; rfl
        streamable := h.streamable }
  · simp [get?_serverEntry, transportEntry, policyEntry, ht, Dict.lastOf_append, Dict.lastOf_cons,
      lastOf_entryIf, lastOf_auth, getD_flag, getD_timeoutClass, getD_spawn, getD_cost]
    refine Checked.bind_eq_ok_iff.mpr ⟨_, rfl, Checked.bind_eq_ok_iff.mpr
      ⟨_, getD_maxConcurrency _, ?_⟩⟩
    exact validateServerConfig_eq_ok_iff.mpr
      { name := rfl
        nonblank := h.nonblank
        transport := rfl
        command := by simp [MCPServerConfig.reloaded, ht]
        args := by simp [MCPServerConfig.reloaded, ht]
        env := by simp [MCPServerConfig.reloaded, ht]; rfl
        url := by simp [MCPServerConfig.reloaded, ht]
        headers := by
          simpa [MCPServerConfig.reloaded, ht] using stringMap?_getD_entryIf srv.headers
        enabled := rfl
        alwaysOn := rfl
        noCache := rfl
        costPerCallCents := rfl
        nonneg := Number.isNeg_reloaded h.nonneg
        auth := rfl
        spawn := rfl
        timeoutClass := rfl
        maxConcurrency := rfl
        positive := h.positive
        companions := by simpa [MCPServerConfig.reloaded, ht] using h.companions
        streamable := h.streamable }

/-! ### Cycles -/

/-- One save and load of a server. -/
def reloadServer (R : Runtime) (srv : MCPServerConfig) : Checked MCPServerConfig := do
  let entry ← savedServer R srv
  parseServerEntry R entry

/-- Saves and loads of a server, one after the other. -/
def reloads (R : Runtime) : ℕ → MCPServerConfig → Checked MCPServerConfig
  | 0, srv => .ok srv
  | n + 1, srv => do
    let srv ← reloadServer R srv
    reloads R n srv

/-- A server survives any number of saves and loads. -/
def Survives (R : Runtime) (srv : MCPServerConfig) : Prop :=
  ∀ n, ∃ srv', reloads R n srv = .ok srv' ∧ srv.Same srv'

/-- **One cycle.** -/
theorem reloadServer_eq {R : Runtime} {srv : MCPServerConfig} (h : Validates R srv.unchecked srv) :
    reloadServer R srv = .ok srv.reloaded := by
  have hsaved : savedServer R srv = .ok (srv.name, .obj (serverEntry srv).entries) :=
    Checked.bind_eq_ok_iff.mpr ⟨srv, validateServerConfig_eq_ok_iff.mpr h, rfl⟩
  rw [reloadServer, hsaved]
  show parseMcpServer R srv.name (Json.toDict (serverEntry srv).entries) = _
  rw [Json.toDict, Dict.setAll_empty_entries]
  exact parseMcpServer_serverEntry h

namespace MCPServerConfig

/-- Nothing of a configuration is lost by what its entry leaves out. -/
structure Settled (srv : MCPServerConfig) : Prop where
  spawn : srv.alwaysOn = true → srv.spawn ≠ .eager
  url : srv.transport = .stdio → srv.url = "" ∧ srv.headers = .empty
  cost : srv.costPerCallCents.value ≠ .nan

end MCPServerConfig

/-- What an accepted entry says of the server it is read as. -/
structure ReadFrom (raw : Dict String Json) (srv : MCPServerConfig) : Prop where
  alwaysOn : (raw.get? "always_on").getD (.bool false) = .bool srv.alwaysOn
  spawn : (raw.get? "spawn").getD (.str (if srv.alwaysOn = true then "pinned" else "eager")) =
    .str srv.spawn.value
  cost : (raw.get? "cost_per_call_cents").getD (.float (.finite 0)) = srv.costPerCallCents.toJson
  remote : ∀ u, raw.get? "url" = some u → u = .str srv.url ∧
    (raw.get? "type").getD (.str "http") = .str srv.transport.value ∧
    ((raw.get? "headers").getD (.obj [])).stringMap? = some srv.headers ∧
    srv.command = "" ∧ srv.args = [] ∧ srv.env = .empty
  spawned : raw.get? "url" = none → srv.transport = .stdio ∧ srv.url = "" ∧ srv.headers = .empty

theorem readFrom_of_parse {R : Runtime} {name : String} {raw : Dict String Json}
    {srv : MCPServerConfig} (h : parseMcpServer R name raw = .ok srv) :
    ReadFrom raw srv ∧ Validates R srv.unchecked srv := by
  obtain ⟨auth, -, h⟩ := Checked.bind_eq_ok_iff.mp h
  obtain ⟨maxConcurrency, -, h⟩ := Checked.bind_eq_ok_iff.mp h
  have hspawn : ∀ c : UncheckedServerConfig, Validates R c srv →
      c.spawn = (raw.get? "spawn").getD
        (.str (if c.alwaysOn.truthy then "pinned" else "eager")) →
      (raw.get? "spawn").getD (.str (if srv.alwaysOn = true then "pinned" else "eager")) =
        .str srv.spawn.value := by
    intro c hc hsp
    rw [hc.alwaysOn] at hsp
    exact hsp.symm.trans hc.spawn
  cases hurl : raw.get? "url" with
  | some u =>
    simp only [hurl] at h
    have hv := validateServerConfig_eq_ok_iff.mp h
    refine ⟨⟨hv.alwaysOn, hspawn _ hv rfl, hv.costPerCallCents, fun u' hu => ?_, fun hnone => ?_⟩,
      hv.unchecked⟩
    swap
    · cases hurl.symm.trans hnone
    obtain rfl := Option.some.inj (hurl.symm.trans hu)
    exact ⟨hv.url, hv.transport, hv.headers, (Json.str.inj hv.command).symm,
      (Option.some.inj hv.args).symm, (Option.some.inj hv.env).symm⟩
  | none =>
    simp only [hurl] at h
    obtain ⟨args, -, h⟩ := Checked.bind_eq_ok_iff.mp h
    have hv := validateServerConfig_eq_ok_iff.mp h
    refine ⟨⟨hv.alwaysOn, hspawn _ hv rfl, hv.costPerCallCents, fun u hu => ?_, fun _ => ?_⟩,
      hv.unchecked⟩
    · cases hurl.symm.trans hu
    · have hstdio : Transport.ofValue? "stdio" = some srv.transport :=
        Transport.ofValue?_eq_some_iff.mpr (Json.str.inj hv.transport)
      exact ⟨(Option.some.inj hstdio).symm, (Json.str.inj hv.url).symm,
        (Option.some.inj hv.headers).symm⟩

/-! ### Which entries survive -/

section Survival

variable {R : Runtime} {name : String} {raw : Dict String Json} {srv : MCPServerConfig}

namespace MCPServerConfig

/-- A configuration whose entry loses nothing comes back with its cost as it is read. -/
theorem Settled.reloaded_eq (h : srv.Settled) (hread : ReadFrom raw srv) :
    srv.reloaded = { srv with costPerCallCents := srv.reloaded.costPerCallCents } := by
  have hspawn : srv.spawn.reloaded srv.alwaysOn = srv.spawn := by
    refine if_neg fun hboth => ?_
    rw [Bool.and_eq_true, decide_eq_true_eq] at hboth
    exact h.spawn hboth.1 hboth.2
  by_cases ht : srv.transport = .stdio
  · simp [reloaded, ht, hspawn, (h.url ht).1, (h.url ht).2]
  · cases hurl : raw.get? "url" with
    | none => exact absurd (hread.spawned hurl).1 ht
    | some u =>
      obtain ⟨-, -, -, hcommand, hargs, henv⟩ := hread.remote u hurl
      simp [reloaded, ht, hspawn, hcommand, hargs, henv]

theorem Settled.same (h : srv.Settled) (hread : ReadFrom raw srv)
    (hvalid : Validates R srv.unchecked srv) : srv.Same srv.reloaded := by
  rw [h.reloaded_eq hread]
  exact ⟨rfl, fun _ => rfl, fun _ => rfl, (Number.value_reloaded hvalid.nonneg).mpr h.cost⟩

/-- What comes back twice is what comes back once. -/
theorem reloaded_reloaded (srv : MCPServerConfig) : srv.reloaded.reloaded = srv.reloaded := by
  by_cases ht : srv.transport = .stdio <;>
    simp [reloaded, ht, Spawn.reloaded_reloaded, Number.reloaded_reloaded]

end MCPServerConfig

theorem reloads_of_fixed (h : reloadServer R srv = .ok srv) : ∀ n, reloads R n srv = .ok srv
  | 0 => rfl
  | n + 1 => Checked.bind_eq_ok_iff.mpr ⟨srv, h, reloads_of_fixed h n⟩

/-- A server that was read survives exactly when its entry loses nothing. -/
theorem survives_iff_settled (hread : ReadFrom raw srv) (hvalid : Validates R srv.unchecked srv) :
    Survives R srv ↔ srv.Settled := by
  constructor
  · intro h
    obtain ⟨srv', hreload, hsame⟩ := h 1
    obtain ⟨_, hone, hreload⟩ := Checked.bind_eq_ok_iff.mp hreload
    rw [reloadServer_eq hvalid] at hone
    cases hone
    cases hreload
    refine ⟨fun halways heager => ?_, fun ht => ⟨?_, ?_⟩, ?_⟩
    · have hspawn := congrArg MCPServerConfig.spawn hsame.fields
      simp [MCPServerConfig.reloaded, Spawn.reloaded, halways, heager] at hspawn
    · have hurl := congrArg MCPServerConfig.url hsame.fields
      simpa [MCPServerConfig.reloaded, ht] using hurl
    · have hheaders := hsame.headers
      simp only [MCPServerConfig.reloaded, ht, if_true, Dict.get?_empty] at hheaders
      refine Dict.eq_empty_of_size (Nat.eq_zero_of_not_pos fun hpos => ?_)
      obtain ⟨e, he⟩ := List.exists_mem_of_length_pos hpos
      cases (hheaders e.1).symm.trans (Dict.mem_entries_iff.mp he)
    · exact (Number.value_reloaded hvalid.nonneg).mp hsame.cost
  · intro h n
    have hparsed := parseMcpServer_serverEntry hvalid
    have hagain : reloadServer R srv.reloaded = .ok srv.reloaded := by
      rw [reloadServer_eq (readFrom_of_parse hparsed).2, MCPServerConfig.reloaded_reloaded]
    cases n with
    | zero => exact ⟨srv, rfl, .refl srv⟩
    | succ n =>
      refine ⟨srv.reloaded, ?_, h.same hread hvalid⟩
      exact Checked.bind_eq_ok_iff.mpr ⟨_, reloadServer_eq hvalid, reloads_of_fixed hagain n⟩

end Survival

/-- An entry keeps clear of what its reading and its writing do not agree on: it is not always on
with the spawn policy `eager`; a server with a url is not of the type `stdio`, unless the url and
the headers are empty; and the cost is a number. -/
structure RoundTrips (raw : Dict String Json) : Prop where
  spawn : raw.get? "always_on" = some (.bool true) → raw.get? "spawn" ≠ some (.str "eager")
  url : ∀ u, raw.get? "url" = some u → raw.get? "type" = some (.str "stdio") →
    u = .str "" ∧ (raw.get? "headers").getD (.obj []) = .obj []
  cost : raw.get? "cost_per_call_cents" ≠ some (.float .nan)

theorem getD_eq_iff_of_ne {α : Type} {o : Option α} {a b : α} (h : a ≠ b) :
    o.getD a = b ↔ o = some b := by
  cases o with
  | none => exact iff_of_false h nofun
  | some c => simp

/-- Only the empty object is read as the empty mapping. -/
theorem Json.stringMap?_eq_empty_iff {v : Json} :
    v.stringMap? = some .empty ↔ v = .obj [] := by
  constructor
  · intro h
    cases v with
    | obj entries =>
      obtain ⟨l, hl, hempty⟩ := Option.map_eq_some_iff.mp h
      obtain rfl : l = [] := by
        refine List.eq_nil_iff_forall_not_mem.mpr fun e he => ?_
        have hkey : e.1 ∈ (Dict.empty.setAll l).keys :=
          Dict.mem_keys_setAll.mpr (Or.inl (List.mem_map.mpr ⟨e, he, rfl⟩))
        rw [hempty] at hkey
        exact List.not_mem_nil hkey
      have hnone : (toDict entries).entries = [] := by
        cases hentries : (toDict entries).entries with
        | nil => rfl
        | cons e es =>
          rw [hentries, List.mapM_cons] at hl
          obtain ⟨_, -, hl⟩ := Option.bind_eq_some_iff.mp hl
          obtain ⟨_, -, hl⟩ := Option.bind_eq_some_iff.mp hl
          cases hl
      have hkeys : ∀ e ∈ entries, False := by
        intro e he
        have hkey : e.1 ∈ (toDict entries).keys :=
          Dict.mem_keys_setAll.mpr (Or.inl (List.mem_map.mpr ⟨e, he, rfl⟩))
        rw [Dict.keys, hnone] at hkey
        exact List.not_mem_nil hkey
      rw [List.eq_nil_iff_forall_not_mem.mpr hkeys]
    | _ => cases h
  · rintro rfl
    rfl

theorem settled_iff {raw : Dict String Json} {srv : MCPServerConfig} (hread : ReadFrom raw srv) :
    srv.Settled ↔ RoundTrips raw := by
  have halways : srv.alwaysOn = true ↔ raw.get? "always_on" = some (.bool true) := by
    rw [← getD_eq_iff_of_ne (a := .bool false) (by simp), hread.alwaysOn, Json.bool.injEq]
  have hspawn : srv.alwaysOn = true →
      (srv.spawn = .eager ↔ raw.get? "spawn" = some (.str "eager")) := by
    intro hon
    have h := hread.spawn
    rw [if_pos hon] at h
    rw [← getD_eq_iff_of_ne (a := .str "pinned") (by simp), h, Json.str.injEq,
      show "eager" = Spawn.eager.value from rfl, ← Spawn.ofValue?_eq_some_iff,
      Spawn.ofValue?_value, Option.some.injEq]
  have hcost : srv.costPerCallCents.value = .nan ↔
      raw.get? "cost_per_call_cents" = some (.float .nan) := by
    rw [← getD_eq_iff_of_ne (a := .float (.finite 0)) (by simp), hread.cost]
    cases srv.costPerCallCents <;> simp [Number.value, Number.toJson]
  have htype : ∀ u, raw.get? "url" = some u →
      (srv.transport = .stdio ↔ raw.get? "type" = some (.str "stdio")) := by
    intro u hu
    rw [← getD_eq_iff_of_ne (a := .str "http") (by simp), (hread.remote u hu).2.1,
      Json.str.injEq, show "stdio" = Transport.stdio.value from rfl,
      ← Transport.ofValue?_eq_some_iff, Transport.ofValue?_value, Option.some.injEq]
  have hfields : ∀ u, raw.get? "url" = some u →
      (srv.url = "" ∧ srv.headers = .empty ↔
        u = .str "" ∧ (raw.get? "headers").getD (.obj []) = .obj []) := by
    intro u hu
    obtain ⟨hurl, -, hheaders, -⟩ := hread.remote u hu
    rw [hurl, ← Json.stringMap?_eq_empty_iff, hheaders, Json.str.injEq, Option.some.injEq]
  constructor
  · intro h
    refine ⟨fun hon heager => ?_, fun u hu hstdio => ?_, fun hnan => h.cost (hcost.mpr hnan)⟩
    · exact h.spawn (halways.mpr hon) ((hspawn (halways.mpr hon)).mpr heager)
    · exact (hfields u hu).mp (h.url ((htype u hu).mpr hstdio))
  · intro h
    refine ⟨fun hon heager => ?_, fun ht => ?_, fun hnan => h.cost (hcost.mp hnan)⟩
    · exact h.spawn (halways.mp hon) ((hspawn hon).mp heager)
    · cases hurl : raw.get? "url" with
      | none => exact (hread.spawned hurl).2
      | some u => exact (hfields u hurl).mpr (h.url u hurl ((htype u hurl).mp ht))

/-- **Which accepted entries survive.** A server that was read from an entry survives any number of
saves and loads exactly when the entry keeps clear of what the two do not agree on. -/
theorem survives_iff_roundTrips {R : Runtime} {name : String} {raw : Dict String Json}
    {srv : MCPServerConfig} (h : parseMcpServer R name raw = .ok srv) :
    Survives R srv ↔ RoundTrips raw := by
  obtain ⟨hread, hvalid⟩ := readFrom_of_parse h
  rw [survives_iff_settled hread hvalid, settled_iff hread]

/-- A runtime for examples: text is what it is. -/
def plainRuntime : Runtime where
  lower s := s
  repr _ := ""
  loads _ := .error ""
  digest _ := ""

/-- An entry that is always on and started eagerly. -/
def eagerEntry : Dict String Json :=
  Dict.empty.setAll [("command", .str "run"), ("always_on", .bool true), ("spawn", .str "eager")]

/-- The server it is read as. -/
def eagerServer : MCPServerConfig := { name := "a", command := "run", alwaysOn := true }

theorem parseMcpServer_eagerEntry :
    parseMcpServer plainRuntime "a" eagerEntry = .ok eagerServer := by rfl

/-- The spawn policy of an entry that is always on and started eagerly does not survive. -/
theorem not_survives_eagerEntry :
    parseMcpServer plainRuntime "a" eagerEntry = .ok eagerServer ∧
      ¬ Survives plainRuntime eagerServer := by
  obtain ⟨hread, hvalid⟩ := readFrom_of_parse parseMcpServer_eagerEntry
  refine ⟨parseMcpServer_eagerEntry, fun h => ?_⟩
  exact ((survives_iff_settled hread hvalid).mp h).spawn rfl rfl

theorem survives_iff_roundTrips_eagerEntry :
    Survives plainRuntime eagerServer ↔ RoundTrips eagerEntry :=
  survives_iff_roundTrips parseMcpServer_eagerEntry

end SlmMcpHub
