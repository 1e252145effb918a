import SlmMcpHub.Discovery.AutoRegister

/-!
# The copy of a client's configuration

The hub copies the configuration of a client before it changes it, so that the client can go back
to what it had before the hub. Every operation that copies writes to the same file, whatever is in
it by then.

## Main definitions

* `HubOperation` — a registration, in either mode, or its end
* `Kept` — the copy is the original, where there is one
* `Spares` — what an operation has to find for that

## Main results

* `kept_after_iff` — the copy of a run of operations is the original just when every one of them
  spares it
-/

namespace SlmMcpHub

/-- What an operation does with a client. -/
inductive HubOperation.Mode where
  | register (r : AutoRegister) (dryRun : Bool)
  | registerTransparent (r : AutoRegister) (serverNames : List String) (dryRun : Bool)
  | unregister

/-- An operation on the files of a client. -/
structure HubOperation (Content : Type) where
  mode : HubOperation.Mode
  client : DetectedClient
  mcpKey : String
  disk : Disk Content

variable {Content : Type} (T : TextFormat Content)

namespace HubOperation

/-- The operation on the files, whatever it returns or raises. -/
def after (op : HubOperation Content) (files : ClientFiles Content) : ClientFiles Content :=
  match op.mode with
  | .register r dryRun => (r.register T op.disk op.client op.mcpKey dryRun files).2
  | .registerTransparent r serverNames dryRun =>
    (r.registerTransparent T op.disk op.client serverNames op.mcpKey dryRun files).2
  | .unregister => (AutoRegister.unregister T op.disk op.client op.mcpKey files).2

/-- Whether an operation that can read the configuration gets as far as copying it. -/
def copies (op : HubOperation Content) : Bool :=
  match op.mode with
  | .register _ dryRun => !dryRun && !op.client.hubRegistered
  | .registerTransparent _ _ dryRun => !dryRun
  | .unregister => false

end HubOperation

/-- What is left when some operations have followed each other. -/
def afterAll (ops : List (HubOperation Content)) (files : ClientFiles Content) :
    ClientFiles Content :=
  ops.foldl (fun files op => op.after T files) files

/-- The copy is the original, where there is one. -/
def Kept (original : Content) (files : ClientFiles Content) : Prop :=
  ∀ content, files.backup = some content → content = original

/-- What is copied is the original, and a copy that fails leaves nothing else behind. -/
def Spares (original : Content) (files : ClientFiles Content) (op : HubOperation Content) : Prop :=
  op.copies = true → ∀ content data, ReadsAs T op.disk files content data →
    match op.disk.backup with
    | .succeeds => content = original
    | .fails _ left => ∀ junk, left = some junk → junk = original

/-! ### The copy under one operation -/

section Step

/-- The copy is the same. -/
def SameBackup (files files' : ClientFiles Content) : Prop := files'.backup = files.backup

instance : Std.Refl (@SameBackup Content) := ⟨fun _ => rfl⟩

instance : IsTrans (ClientFiles Content) SameBackup := ⟨fun _ _ _ h h' => h'.trans h⟩

variable {T} {disk : Disk Content} {files : ClientFiles Content} {content : Content} {data : Json}

theorem within_writeJson (data : Json) : Fallible.Within SameBackup (writeJson T disk data) :=
  fun _ => rfl

theorem within_restoreBackup : Fallible.Within SameBackup (restoreBackup disk) := by
  rintro ⟨config, backup⟩
  cases backup with
  | none => rfl
  | some content => rfl

theorem within_writeOrRestore (client : DetectedClient) (updated : Json) :
    Fallible.Within SameBackup (AutoRegister.writeOrRestore T disk client updated) := by
  refine Fallible.within_bind (within_writeJson updated) fun raised => ?_
  cases raised with
  | none => exact Fallible.within_pure _
  | some message => exact Fallible.within_bind within_restoreBackup fun _ => Fallible.within_pure _

/-- What follows the copying leaves the copy alone. -/
theorem backup_copyToBackup {α : Type} {k : Option String → Registering Content α}
    (hk : ∀ raised, Fallible.Within SameBackup (k raised)) (hconfig : files.config = some content) :
    ((copyToBackup disk >>= k) files).2.backup = (disk.backup.store files.backup content).1 := by
  rw [Fallible.bind_apply_of_ok (copyToBackup_apply hconfig)]
  exact hk _ _

variable (op : HubOperation Content)

/-- An operation that copies leaves what the copying leaves. -/
theorem backup_after_of_reads (hcopies : op.copies = true)
    (h : ReadsAs T op.disk files content data) :
    (op.after T files).backup = (op.disk.backup.store files.backup content).1 := by
  obtain ⟨mode, client, mcpKey, disk⟩ := op
  have hread := h.readJson_apply client.configPath
  cases mode with
  | register r dryRun =>
    obtain ⟨hdry, hreg⟩ : dryRun = false ∧ client.hubRegistered = false := by
      simpa [HubOperation.copies] using hcopies
    show (r.register T disk client mcpKey dryRun files).2.backup = _
    rw [AutoRegister.register, hdry, hreg, if_neg Bool.false_ne_true, if_neg Bool.false_ne_true,
      Fallible.bind_apply_of_ok hread]
    refine backup_copyToBackup (fun raised => ?_) h.2.1
    cases raised with
    | some message => exact Fallible.within_pure _
    | none =>
      exact Fallible.within_bind (Fallible.within_ofExcept _) fun updated =>
        Fallible.within_bind (within_writeOrRestore client updated) fun _ => Fallible.within_pure _
  | registerTransparent r serverNames dryRun =>
    obtain rfl : dryRun = false := by simpa [HubOperation.copies] using hcopies
    show (r.registerTransparent T disk client serverNames mcpKey false files).2.backup = _
    rw [AutoRegister.registerTransparent, Fallible.bind_apply_of_ok hread]
    refine backup_copyToBackup (fun raised => ?_) h.2.1
    cases raised with
    | some message => exact Fallible.within_pure _
    | none =>
      exact Fallible.within_bind (Fallible.within_ofExcept _) fun updated =>
        within_writeOrRestore client updated
  | unregister => cases hcopies

/-- Any other operation leaves the copy as it was. -/
theorem backup_after_of_not_reads
    (h : op.copies = true → ∀ content data, ¬ ReadsAs T op.disk files content data) :
    (op.after T files).backup = files.backup := by
  obtain ⟨mode, client, mcpKey, disk⟩ := op
  cases mode with
  | register r dryRun =>
    show (r.register T disk client mcpKey dryRun files).2.backup = _
    rw [AutoRegister.register]
    cases dryRun with
    | true => rfl
    | false =>
      rw [if_neg Bool.false_ne_true]
      cases hreg : client.hubRegistered with
      | true => rfl
      | false =>
        rw [if_neg Bool.false_ne_true]
        have hcopies : (!false && !client.hubRegistered) = true := by rw [hreg]; rfl
        obtain ⟨content, data, hreads, -⟩ | ⟨-, ⟨message, hread⟩ | hread⟩ :=
          readJson_cases T disk files client.configPath
        · exact absurd hreads (h hcopies content data)
        · rw [Fallible.bind_apply_of_ok hread]
          rfl
        · rw [Fallible.bind_apply_of_error hread]
  | registerTransparent r serverNames dryRun =>
    show (r.registerTransparent T disk client serverNames mcpKey dryRun files).2.backup = _
    rw [AutoRegister.registerTransparent]
    obtain ⟨content, data, hreads, hread⟩ | ⟨-, ⟨message, hread⟩ | hread⟩ :=
      readJson_cases T disk files client.configPath
    · rw [Fallible.bind_apply_of_ok hread]
      cases dryRun with
      | true => rfl
      | false => exact absurd hreads (h rfl content data)
    · rw [Fallible.bind_apply_of_ok hread]
      rfl
    · rw [Fallible.bind_apply_of_error hread]
  | unregister =>
    refine Fallible.within_bind (R := SameBackup) (fun files => ?_) (fun read => ?_) files
    · obtain ⟨content, data, -, hread⟩ | ⟨-, ⟨message, hread⟩ | hread⟩ :=
        readJson_cases T disk files client.configPath
      all_goals rw [hread]; exact refl_of SameBackup files
    · cases read with
      | error message => exact Fallible.within_pure _
      | ok data =>
        refine Fallible.within_bind (Fallible.within_ofExcept _) fun servers =>
          Fallible.within_bind (Fallible.within_ofExcept _) fun registered => ?_
        cases registered with
        | false => exact Fallible.within_pure _
        | true =>
          refine Fallible.within_bind (Fallible.within_ofExcept _) fun updated =>
            Fallible.within_bind (within_writeJson updated) fun raised => ?_
          cases raised with
          | none => exact Fallible.within_pure _
          | some message => exact Fallible.within_pure _

/-- **One operation.** The copy is still the original just when the operation spares it. -/
theorem kept_after_step_iff {original : Content} (hkept : Kept original files) :
    Kept original (op.after T files) ↔ Spares T original files op := by
  by_cases h : op.copies = true ∧ ∃ content data, ReadsAs T op.disk files content data
  · obtain ⟨hcopies, content, data, hreads⟩ := h
    rw [Kept, backup_after_of_reads op hcopies hreads, Spares]
    cases hbackup : op.disk.backup with
    | succeeds =>
      refine ⟨fun h _ content' data' h' => ?_, fun h content' h' => ?_⟩
      · rw [hreads.content_eq h']
        exact h content rfl
      · obtain rfl := Option.some.inj h'
        exact h hcopies content data hreads
    | fails message left =>
      cases left with
      | none => exact ⟨fun _ _ _ _ _ => nofun, fun _ => hkept⟩
      | some junk =>
        refine ⟨fun h _ _ _ _ => h, fun h => h hcopies content data hreads⟩
  · have hnot : op.copies = true → ∀ content data, ¬ ReadsAs T op.disk files content data :=
      fun hcopies content data hreads => h ⟨hcopies, content, data, hreads⟩
    rw [Kept, backup_after_of_not_reads op hnot]
    exact ⟨fun _ hcopies content data hreads => absurd hreads (hnot hcopies content data),
      fun _ => hkept⟩

end Step

/-! ### The copy under a run of operations -/

theorem afterAll_concat (ops : List (HubOperation Content)) (op : HubOperation Content)
    (files : ClientFiles Content) :
    afterAll T (ops ++ [op]) files = op.after T (afterAll T ops files) := by
  rw [afterAll, List.foldl_append]
  rfl

/-- **The copy stays the original** through a run of operations just when each of them, where it
copies, finds the original. -/
theorem kept_after_iff (original : Content) (ops : List (HubOperation Content)) :
    (∀ before, before <+: ops →
      Kept original (afterAll T before { config := some original, backup := none })) ↔
    ∀ before op, before ++ [op] <+: ops →
      Spares T original (afterAll T before { config := some original, backup := none }) op := by
  constructor
  · intro hkept before op hprefix
    have hbefore := hkept before ((List.prefix_append before [op]).trans hprefix)
    refine (kept_after_step_iff op hbefore).mp ?_
    rw [← afterAll_concat]
    exact hkept _ hprefix
  · intro hspares before
    -- What has been done so far is taken apart from its end.
    induction before using List.reverseRecOn with
    | nil => exact fun _ _ => nofun
    | append_singleton before op ih =>
      intro hprefix
      have hbefore := ih ((List.prefix_append before [op]).trans hprefix)
      rw [afterAll_concat]
      exact (kept_after_step_iff op hbefore).mpr (hspares before op hprefix)

/-- The client's servers are replaced, and then the hub is entered beside them. -/
def bothModes : List (HubOperation Json) :=
  let client : DetectedClient :=
    { name := "claude", configPath := "/home/ada/.claude.json", hubRegistered := false }
  [{ mode := .registerTransparent { hubUrl := "http://hub:52414/mcp" } ["github"] false, client,
     mcpKey := "mcpServers", disk := {} },
   { mode := .register { hubUrl := "http://hub:52414/mcp" } false, client,
     mcpKey := "mcpServers", disk := {} }]

/-- The second copy takes the place of the first: the client's own configuration is gone. -/
theorem not_kept_bothModes :
    let original : Json := .obj [("mcpServers", .obj [("github", .obj [("command", .str "gh")])])]
    getSectionReadonly original "mcpServers" >>= hasEntry hubEntryName = .ok false ∧
      ¬ ∀ before, before <+: bothModes →
        Kept original (afterAll jsonText before { config := some original, backup := none }) := by
  refine ⟨rfl, fun h => ?_⟩
  have hbackup : (afterAll jsonText bothModes ⟨some (.obj [("mcpServers",
      .obj [("github", .obj [("command", .str "gh")])])]), none⟩).backup =
        some (.obj [("mcpServers", .obj [("github", .obj [("type", .str "http"),
          ("url", .str "http://hub:52414/mcp/github")])])]) := by
    decide +kernel
  have heq := h bothModes (List.prefix_refl _) _ hbackup
  revert heq
  decide +kernel

end SlmMcpHub
