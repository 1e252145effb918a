import SlmMcpHub.Discovery.AutoRegister

/-!
# The transparent mode

In place of a client's servers the hub enters one address for each, below its own. The base of
these addresses is what is left of the hub's address when every `/`, `m`, `c` and `p` at its end
has been taken off.

## Main definitions

* `proxyEntry` — the entry of a server below a base
* `Rewired` — a section of such entries, and all else as it was
* `Rewires` — the operation succeeds and leaves a configuration like that

## Main results

* `AutoRegister.baseUrl_eq_iff` — which bases are found again
* `rewires_iff` — when a client is rewired
-/

namespace SlmMcpHub

/-- The entry of a server below a base. -/
def proxyEntry (base name : String) : Json :=
  .obj [("type", .str "http"), ("url", .str s!"{base}/mcp/{name}")]

/-- Every server has its one entry, and away from the section all is as it was. -/
structure Rewired (base : String) (serverNames path : List String) (data updated : Json) :
    Prop where
  servers : ∃ servers : Dict String Json, Json.at? path updated = some (.obj servers.entries) ∧
    ∀ name, servers.get? name = if name ∈ serverNames then some (proxyEntry base name) else none
  outside : ∀ q, ¬ path <+: q → ¬ q <+: path → Json.at? q updated = Json.at? q data

variable {Content : Type} (T : TextFormat Content) (disk : Disk Content)

/-- The operation succeeds and leaves this text in the configuration. -/
def LeavesConfig (r : AutoRegister) (client : DetectedClient) (serverNames : List String)
    (mcpKey : String) (files : ClientFiles Content) (text : Content) : Prop :=
  (r.registerTransparent T disk client serverNames mcpKey false).sat
    (fun outcome files' => (∃ result, outcome = .ok result ∧ result.success = true) ∧
      files'.config = some text) files

/-- The client's servers are reached through a hub at this base. -/
def Rewires (r : AutoRegister) (client : DetectedClient) (base : String) (serverNames : List String)
    (mcpKey : String) (files : ClientFiles Content) : Prop :=
  ∃ content data updated, ReadsAs T disk files content data ∧
    LeavesConfig T disk r client serverNames mcpKey files (T.write updated) ∧
    Rewired base serverNames (sectionPath mcpKey) data updated

/-! ### The base -/

/-- The slash and the name of the endpoint leave the base as it is unless it ends like them. -/
theorem AutoRegister.baseUrl_eq_iff {r : AutoRegister} {base : String}
    (h : r.hubUrl = base ++ "/mcp") : r.baseUrl = base ↔ Text.endsIn "/mcp" base = false := by
  have hstrip : r.baseUrl = Text.rstrip "/" (Text.rstrip "/mcp" base) := by
    rw [AutoRegister.baseUrl, h, Text.rstrip_append fun c hc => hc]
  rw [hstrip, ← Text.rstrip_eq_self_iff]
  constructor
  · intro heq
    -- The base is no longer than what the first of the two leaves of it.
    have hle := (Text.rstrip_isPrefix "/" (Text.rstrip "/mcp" base)).length_le
    rw [heq] at hle
    exact String.toList_injective ((Text.rstrip_isPrefix "/mcp" base).eq_of_length_le hle)
  · intro heq
    rw [heq, Text.rstrip_eq_self_iff]
    have hends := Text.rstrip_eq_self_iff.mp heq
    rw [Text.endsIn] at hends ⊢
    cases hlast : base.toList.getLast? with
    | none => rfl
    | some c =>
      rw [hlast] at hends
      have hslash : c ≠ '/' := by
        rintro rfl
        revert hends
        decide
      simpa using hslash

theorem proxyEntry_inj {base base' name : String} :
    proxyEntry base name = proxyEntry base' name ↔ base = base' := by
  simp [proxyEntry, toString]

theorem AutoRegister.get?_newServers (r : AutoRegister) (serverNames : List String)
    (name : String) :
    (r.newServers serverNames).get? name =
      if name ∈ serverNames then some (proxyEntry r.baseUrl name) else none := by
  rw [AutoRegister.newServers, Dict.get?_setAll, Dict.get?_empty, Option.or_none]
  cases hlast : Dict.lastOf (serverNames.map fun name => (name, Json.obj [("type", .str "http"),
      ("url", .str s!"{r.baseUrl}/mcp/{name}")])) name with
  | none =>
    have hnot := Dict.lastOf_eq_none_iff.mp hlast
    rw [if_neg]
    simpa using hnot
  | some entry =>
    obtain ⟨name', hname', heq⟩ := List.mem_map.mp (Dict.lastOf_mem hlast)
    obtain ⟨rfl, rfl⟩ := Prod.mk.inj heq
    rw [if_pos hname']
    rfl

/-! ### The operation -/

section Operation

variable {T disk} {r : AutoRegister} {client : DetectedClient} {serverNames : List String}
  {mcpKey : String} {files : ClientFiles Content} {text : Content}

/-- The operation succeeds on a disk that works, when the configuration is read and nothing in it is
in the way of the section. -/
theorem leavesConfig_iff :
    LeavesConfig T disk r client serverNames mcpKey files text ↔
      disk.backup = .succeeds ∧ disk.write = .succeeds ∧ ∃ content data updated,
        ReadsAs T disk files content data ∧
        Json.updateAt RegisterError.type (fun _ => .ok (.obj (r.newServers serverNames).entries))
          (sectionPath mcpKey) data = .ok updated ∧
        text = T.write updated := by
  rw [LeavesConfig, Fallible.sat, AutoRegister.registerTransparent]
  obtain ⟨content, data, hreads, hread⟩ | ⟨hnot, hread⟩ :=
    readJson_cases T disk files client.configPath
  · rw [Fallible.bind_apply_of_ok hread]
    simp only [Bool.false_eq_true, if_false]
    rw [Fallible.bind_apply_of_ok (copyToBackup_apply hreads.2.1)]
    cases hbackup : disk.backup with
    | fails message left =>
      refine iff_of_false ?_ (by simp)
      rintro ⟨⟨result, hresult, hsuccess⟩, -⟩
      obtain rfl := Except.ok.inj hresult
      cases hsuccess
    | succeeds =>
      cases hupdated : Json.updateAt RegisterError.type
          (fun _ => .ok (.obj (r.newServers serverNames).entries)) (sectionPath mcpKey) data with
      | error e =>
        refine iff_of_false ?_ ?_
        · rintro ⟨⟨result, hresult, -⟩, -⟩
          cases hresult
        · rintro ⟨-, -, content', data', updated, hreads', hok, -⟩
          rw [hreads.data_eq hreads', hupdated] at hok
          cases hok
      | ok updated =>
        simp only [Io.store, Fallible.ofExcept_ok_bind, AutoRegister.writeOrRestore, writeJson]
        cases hwrite : disk.write with
        | fails message left =>
          refine iff_of_false ?_ ?_
          · rintro ⟨⟨result, hresult, hsuccess⟩, -⟩
            obtain rfl := Except.ok.inj hresult
            cases hsuccess
          · rintro ⟨-, hfails, -⟩
            cases hfails
        | succeeds =>
          constructor
          · rintro ⟨-, hconfig⟩
            exact ⟨trivial, rfl, content, data, updated, hreads, hupdated,
              (Option.some.inj hconfig).symm⟩
          · rintro ⟨-, -, content', data', updated', hreads', hok, rfl⟩
            rw [hreads.data_eq hreads', hupdated] at hok
            obtain rfl := Except.ok.inj hok
            exact ⟨⟨_, rfl, rfl⟩, rfl⟩
  · refine iff_of_false ?_ ?_
    · rintro ⟨⟨result, hresult, hsuccess⟩, -⟩
      obtain ⟨message, hread⟩ | hread := hread
      · rw [Fallible.bind_apply_of_ok hread] at hresult
        obtain rfl := Except.ok.inj hresult
        cases hsuccess
      · rw [Fallible.bind_apply_of_error hread] at hresult
        cases hresult
    · rintro ⟨-, -, content, data, updated, hreads, -⟩
      exact hnot content data hreads

/-- What has been put in the place of the section are the entries of the servers just when their
base is the one that is asked for. -/
theorem rewired_iff {base : String} {data updated : Json} {path : List String}
    (h : Json.updateAt RegisterError.type (fun _ => .ok (.obj (r.newServers serverNames).entries))
      path data = .ok updated) :
    Rewired base serverNames path data updated ↔ serverNames = [] ∨ r.baseUrl = base := by
  have hat := Json.at?_updateAt h
  constructor
  · rintro ⟨⟨servers, hservers, hget⟩, -⟩
    have heq : servers = r.newServers serverNames :=
      Dict.ext (Json.obj.inj (Option.some.inj (hservers.symm.trans hat)))
    cases serverNames with
    | nil => exact .inl rfl
    | cons name names =>
      have hname := hget name
      rw [heq, r.get?_newServers, if_pos List.mem_cons_self, if_pos List.mem_cons_self] at hname
      exact .inr (proxyEntry_inj.mp (Option.some.inj hname))
  · intro hbase
    refine ⟨⟨r.newServers serverNames, hat, fun name => ?_⟩, fun q hpath hq =>
      Json.at?_updateAt_of_not_prefix h hpath hq⟩
    rw [r.get?_newServers]
    obtain rfl | rfl := hbase
    · simp only [List.not_mem_nil, if_false]
    · rfl

end Operation

/-- **A client is rewired** to the base just when the base does not end in a character of the path
of the endpoint, or there is no server, and the configuration can be read and changed. -/
theorem rewires_iff (r : AutoRegister) (client : DetectedClient) (base : String)
    (serverNames : List String) (mcpKey : String) (files : ClientFiles Content) :
    Rewires T disk { r with hubUrl := base ++ "/mcp" } client base serverNames mcpKey files ↔
      (serverNames = [] ∨ Text.endsIn "/mcp" base = false) ∧
        disk.backup = .succeeds ∧ disk.write = .succeeds ∧
        ∃ content data, ReadsAs T disk files content data ∧
          Json.Navigable (sectionPath mcpKey) data := by
  have hbase := AutoRegister.baseUrl_eq_iff (r := { r with hubUrl := base ++ "/mcp" }) rfl
  constructor
  · rintro ⟨content, data, updated, hreads, hleaves, hrewired⟩
    obtain ⟨hbackup, hwrite, content', data', updated', hreads', hok, htext⟩ :=
      leavesConfig_iff.mp hleaves
    obtain rfl := hreads.data_eq hreads'
    obtain rfl := T.write_injective htext
    exact ⟨((rewired_iff hok).mp hrewired).imp_right hbase.mp, hbackup, hwrite, content, data',
      hreads, (Json.exists_updateAt_iff _).mp ⟨updated, hok⟩⟩
  · rintro ⟨hends, hbackup, hwrite, content, data, hreads, hnavigable⟩
    obtain ⟨updated, hok⟩ := (Json.exists_updateAt_iff (e := RegisterError.type) (.obj
      (AutoRegister.newServers { r with hubUrl := base ++ "/mcp" } serverNames).entries)).mpr
        hnavigable
    exact ⟨content, data, updated, hreads, leavesConfig_iff.mpr
      ⟨hbackup, hwrite, content, data, updated, hreads, hok, rfl⟩,
      (rewired_iff hok).mpr (hends.imp_right hbase.mpr)⟩

/-- The address of a hub whose name ends in `com` loses its last letter. -/
theorem not_rewires_com :
    Text.endsIn "/" "http://hub.com" = false ∧ ¬ Rewires jsonText {}
      { hubUrl := "http://hub.com" ++ "/mcp" }
      { name := "claude", configPath := "/home/ada/.claude.json", hubRegistered := false }
      "http://hub.com" ["github"] "mcpServers" { config := some (.obj []), backup := none } := by
  refine ⟨by decide, ?_⟩
  rintro ⟨content, data, updated, hreads, hleaves, hrewired⟩
  obtain ⟨-, -, content', data', updated', hreads', hok, htext⟩ := leavesConfig_iff.mp hleaves
  obtain rfl := hreads.data_eq hreads'
  obtain rfl : updated = updated' := htext
  obtain hnil | hbase := (rewired_iff hok).mp hrewired
  · cases hnil
  · have hends := (AutoRegister.baseUrl_eq_iff rfl).mp hbase
    revert hends
    decide

end SlmMcpHub
