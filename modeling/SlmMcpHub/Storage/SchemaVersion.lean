import SlmMcpHub.Storage.Database

/-!
# The version of the schema

The version that is recorded in the file can be relied on, and so can the return of
`HubDatabase.open`, whatever other processes do at the same time.

## Main definitions

* `Opening.Inv` — what every step keeps
* `Opening.WellFormed` — what the migrations are asked to be
* `Opening.Sound` — what can be relied on

## Main results

* `Opening.inv_of_reaches`
* `Opening.Inv.exists_opened` — a connection that is not disturbed comes to an end
* `Opening.sound_of_reaches`
-/

namespace SlmMcpHub

namespace Storage

/-! ### What every step keeps -/

namespace Opening

variable {ms : Dict ℤ (List Statement)} {s s' : Opening} {p q : Pid} {phase : Phase}

theorem mem_sortedMigrations {m : ℤ × List Statement} :
    m ∈ sortedMigrations ms ↔ m ∈ ms.entries := List.mem_insertionSort _

/-- The versions are taken in ascending order. -/
theorem pairwise_sortedMigrations (ms : Dict ℤ (List Statement)) :
    (sortedMigrations ms).Pairwise fun m m' => m.1 < m'.1 := by
  have hle : (sortedMigrations ms).Pairwise (Order.Preimage Prod.fst (· ≤ ·)) :=
    List.pairwise_insertionSort _ _
  have hne : (sortedMigrations ms).Pairwise fun m m' => m.1 ≠ m'.1 := by
    have hperm : ((sortedMigrations ms).map Prod.fst).Perm ms.keys :=
      (List.perm_insertionSort _ _).map Prod.fst
    exact List.pairwise_map.mp (hperm.nodup_iff.mpr ms.keys_nodup)
  exact hle.imp₂ (fun _ _ h hne => lt_of_le_of_ne h hne) hne

/-- Everything up to a version is in the file. -/
abbrev Covered (ms : Dict ℤ (List Statement)) (db : Sqlite) (v : ℤ) : Prop :=
  Migrations.Covered Sqlite.ddl (sortedMigrations ms) db v

/-- A connection has recorded a version, or is about to commit it. -/
def Noted (s : Opening) (p : Pid) (v : ℤ) : Prop :=
  v ∈ s.db.versions.keys ∨ ∃ w, s.writer = some w ∧ w.pid = p ∧ w.version = v

/-- What is known where a connection has come to. -/
def PhaseOk (ms : Dict ℤ (List Statement)) (s : Opening) (p : Pid) : Phase → Prop
  | .migrating current done todo =>
    Covered ms s.db current ∧ (current ≤ 0 ∨ current ∈ s.db.versions.keys) ∧
      Migrations.Cut Sqlite.ddl (sortedMigrations ms) s.db (s.Noted p) current done todo
  | .opened => ∀ m ∈ ms.entries,
    (∃ v ∈ s.db.versions.keys, m.1 ≤ v) ∧ ∀ o ∈ m.2, s.db.Holds o
  | _ => True

/-- Who is in a transaction is about to commit it, or has failed to. -/
def AtCommit : Phase → Prop
  | .failed => True
  | .migrating _ _ (.commit :: _) => True
  | _ => False

/-- **What every step keeps.** -/
structure Inv (ms : Dict ℤ (List Statement)) (s : Opening) : Prop where
  tables : ∀ name t, s.db.tables.get? name = some t →
    ∃ m ∈ ms.entries, .createTable name t ∈ m.2
  indexes : ∀ name i, s.db.indexes.get? name = some i →
    ∃ m ∈ ms.entries, .createIndex name i.1 i.2 ∈ m.2
  recorded : ∀ v ∈ s.db.versions.keys, v ∈ ms.keys ∧ Covered ms s.db v
  phases : ∀ p, PhaseOk ms s p (s.phase p)
  covered : ∀ w, s.writer = some w → w.version ∈ ms.keys ∧ Covered ms s.db w.version
  atCommit : ∀ w, s.writer = some w → AtCommit (s.phase w.pid)

theorem inv_start : Inv ms {} where
  tables _ _ h := by cases h
  indexes _ _ h := by cases h
  recorded v h := absurd h List.not_mem_nil
  phases _ := trivial
  covered _ h := by cases h
  atCommit _ h := by cases h

/-- Nothing that was there is gone. -/
structure Grows (db db' : Sqlite) : Prop where
  holds : ∀ o, db.Holds o → db'.Holds o
  keys : ∀ v ∈ db.versions.keys, v ∈ db'.versions.keys

theorem PhaseOk.mono (h : PhaseOk ms s p phase) (hgrows : Grows s.db s'.db)
    (hnoted : ∀ v, s.Noted p v → s'.Noted p v) : PhaseOk ms s' p phase := by
  cases phase with
  | migrating current done todo =>
    obtain ⟨hcovered, hcurrent, hcut⟩ := h
    exact ⟨hcovered.mono hgrows.holds, hcurrent.imp_right (hgrows.keys _),
      hcut.mono hgrows.holds fun v _ => hnoted v⟩
  | opened =>
    intro m hm
    obtain ⟨⟨v, hv, hle⟩, hall⟩ := h m hm
    exact ⟨⟨v, hgrows.keys v hv, hle⟩, fun o ho => hgrows.holds o (hall o ho)⟩
  | idle | connected | failed => trivial

/-- **One connection goes on**: what the others rely on is still there. -/
theorem Inv.go (h : Inv ms s) (hphase : s'.phase = s.phase) (hgrows : Grows s.db s'.db)
    (htables : ∀ name t, s'.db.tables.get? name = some t →
      ∃ m ∈ ms.entries, .createTable name t ∈ m.2)
    (hindexes : ∀ name i, s'.db.indexes.get? name = some i →
      ∃ m ∈ ms.entries, .createIndex name i.1 i.2 ∈ m.2)
    (hrecorded : ∀ v ∈ s'.db.versions.keys, v ∈ ms.keys ∧ Covered ms s'.db v)
    (hnoted : ∀ q, q ≠ p → ∀ v, s.Noted q v → s'.Noted q v)
    (hwriter : ∀ w, s'.writer = some w → w.pid ≠ p ∧ s.writer = some w ∨
      w.pid = p ∧ (w.version ∈ ms.keys ∧ Covered ms s'.db w.version) ∧ AtCommit phase)
    (hok : PhaseOk ms s' p phase) : Inv ms (s'.setPhase p phase) where
  tables := htables
  indexes := hindexes
  recorded := hrecorded
  phases q := by
    by_cases hq : q = p
    · rw [hq, phase_setPhase_self]
      exact hok.mono ⟨fun _ => id, fun _ => id⟩ fun _ => id
    · rw [phase_setPhase_of_ne _ hq, hphase]
      exact (h.phases q).mono hgrows fun v hv => hnoted q hq v hv
  covered w hw := by
    rcases hwriter w hw with ⟨-, hold⟩ | ⟨-, hcovered, -⟩
    · exact (h.covered w hold).imp_right fun hcovered => hcovered.mono hgrows.holds
    · exact hcovered
  atCommit w hw := by
    rcases hwriter w hw with ⟨hne, hold⟩ | ⟨rfl, -, hcommit⟩
    · rw [phase_setPhase_of_ne _ hne, hphase]
      exact h.atCommit w hold
    · rw [phase_setPhase_self]
      exact hcommit

theorem Grows.refl (db : Sqlite) : Grows db db := ⟨fun _ => id, fun _ => id⟩

/-- Only where a connection has come to changes. -/
theorem Inv.setPhase (h : Inv ms s)
    (hwriter : ∀ w, s.writer = some w → w.pid = p → AtCommit phase)
    (hok : PhaseOk ms s p phase) : Inv ms (s.setPhase p phase) := by
  refine h.go rfl (.refl _) h.tables h.indexes h.recorded (fun _ _ _ => id) (fun w hw => ?_) hok
  by_cases hp : w.pid = p
  · exact .inr ⟨hp, h.covered w hw, hwriter w hw hp⟩
  · exact .inl ⟨hp, hw⟩

/-- A connection is given up. -/
theorem Inv.leave (h : Inv ms s) (hok : ∀ s', PhaseOk ms s' p phase) :
    Inv ms ((s.rollback p).setPhase p phase) := by
  have hkept : ∀ w, (s.rollback p).writer = some w ↔ s.writer = some w ∧ w.pid ≠ p := by
    intro w
    rw [rollback, Option.filter_eq_some_iff, decide_eq_true_iff]
  refine h.go rfl (.refl _) h.tables h.indexes h.recorded ?_ ?_ (hok _)
  · rintro q hq v (hv | ⟨w, hw, rfl, rfl⟩)
    · exact .inl hv
    · exact .inr ⟨w, (hkept w).mpr ⟨hw, hq⟩, rfl, rfl⟩
  · intro w hw
    obtain ⟨hw, hne⟩ := (hkept w).mp hw
    exact .inl ⟨hne, hw⟩

theorem le_currentSchemaVersion {db : Sqlite} (h : db.currentSchemaVersion ≠ 0) :
    db.currentSchemaVersion ∈ db.versions.keys := by
  unfold Sqlite.currentSchemaVersion at h ⊢
  split_ifs at h ⊢ with htable
  · cases hmax : db.versions.keys.max? with
    | none => simp [hmax] at h
    | some v =>
      simp only [Option.getD_some]
      exact List.max?_mem hmax
  · exact absurd rfl h

/-- **What the migrations are asked to be**: the versions are positive, a name stands for one thing,
a table is created before its indexes, and the table of versions before any is recorded. -/
structure WellFormed (ms : Dict ℤ (List Statement)) : Prop where
  positive : ∀ m ∈ ms.entries, 0 < m.1
  names : ∀ m ∈ ms.entries, ∀ m' ∈ ms.entries, ∀ o ∈ m.2, ∀ o' ∈ m'.2, o.name = o'.name → o = o'
  indexed : ∀ m ∈ ms.entries, ∀ before after name table column,
    m.2 = before ++ .createIndex name table column :: after →
      ∃ t, column ∈ t.columns.map Prod.fst ∧ (.createTable table t ∈ before ∨
        ∃ m' ∈ ms.entries, m'.1 < m.1 ∧ .createTable table t ∈ m'.2)
  versionTable : ∀ m ∈ ms.entries, ∃ m' ∈ ms.entries, m'.1 ≤ m.1 ∧
    ∃ t, .createTable "schema_version" t ∈ m'.2

/-- A connection takes up a version that is recorded, or starts from none. -/
theorem Inv.migrate (hms : WellFormed ms) (h : Inv ms s) (hphase : s.phase p = .connected)
    {current : ℤ} (hcurrent : current = 0 ∨ current ∈ s.db.versions.keys) :
    Inv ms (s.migrate ms p current) := by
  refine h.setPhase (fun w hw hp => ?_) ⟨?_, ?_, Migrations.cut_start⟩
  · have hcommit := h.atCommit w hw
    rw [hp, hphase] at hcommit
    exact hcommit.elim
  · rcases hcurrent with rfl | hrecorded
    · intro m hm hle
      have hpos := hms.positive m (mem_sortedMigrations.mp hm)
      omega
    · exact (h.recorded _ hrecorded).2
  · exact hcurrent.imp_left fun hzero => hzero.le

theorem currentSchemaVersion_cases (db : Sqlite) :
    db.currentSchemaVersion = 0 ∨ db.currentSchemaVersion ∈ db.versions.keys := by
  by_cases hzero : db.currentSchemaVersion = 0
  · exact .inl hzero
  · exact .inr (le_currentSchemaVersion hzero)

/-- The loop is over. -/
theorem Inv.finish (hms : WellFormed ms) (h : Inv ms s) {current : ℤ} {done : List Cmd}
    (hphase : s.phase p = .migrating current done []) : Inv ms (s.setPhase p .opened) := by
  have hok := h.phases p
  rw [hphase] at hok
  obtain ⟨hcovered, hcurrent, hcut⟩ := hok
  -- There is no transaction left, for it would have to be committed yet.
  have hnone : ∀ w, s.writer = some w → w.pid ≠ p := by
    rintro w hw rfl
    have hcommit := h.atCommit w hw
    rw [hphase] at hcommit
    exact hcommit
  refine h.setPhase (fun w hw hp => absurd hp (hnone w hw)) fun m hm => ⟨?_, ?_⟩
  · rcases hcut.recorded_nil (mem_sortedMigrations.mpr hm) with hle | hnoted | ⟨w, hw, hp, -⟩
    · rcases hcurrent with hneg | hmem
      · have hpos := hms.positive m hm
        omega
      · exact ⟨current, hmem, hle⟩
    · exact ⟨m.1, hnoted, le_rfl⟩
    · exact absurd hp (hnone w hw)
  · exact hcut.covered_nil hcovered m (mem_sortedMigrations.mpr hm)

/-- A statement has been run. -/
theorem Inv.runAdd (h : Inv ms s) {current : ℤ} {done todo : List Cmd} {o : Statement}
    {db : Sqlite} (hphase : s.phase p = .migrating current done (.add o :: todo))
    (hexec : s.db.exec o = some db) :
    Inv ms (({ s with db } : Opening).setPhase p
      (.migrating current (done ++ [.add o]) todo)) := by
  have hok := h.phases p
  rw [hphase] at hok
  obtain ⟨hcovered, hcurrent, hcut⟩ := hok
  have hversions := Sqlite.versions_exec hexec
  have hgrows : Grows s.db db := ⟨fun _ => Sqlite.keeps_exec hexec, fun v hv => by rwa [hversions]⟩
  obtain ⟨m, hm, hom⟩ : ∃ m ∈ ms.entries, o ∈ m.2 := by
    have hmem : .add o ∈ Migrations.script (sortedMigrations ms) current := by
      rw [← hcut.split]
      exact List.mem_append_right _ List.mem_cons_self
    obtain ⟨m, hm, -, hsteps⟩ := Migrations.mem_script.mp hmem
    refine ⟨m, mem_sortedMigrations.mp hm, ?_⟩
    simpa [Migrations.steps] using hsteps
  have hnoted : ∀ q v, s.Noted q v → ({ s with db } : Opening).Noted q v := by
    rintro q v (hv | hw)
    · exact .inl (hgrows.keys v hv)
    · exact .inr hw
  refine h.go rfl hgrows ?_ ?_ ?_ (fun q _ => hnoted q) ?_ ⟨hcovered.mono hgrows.holds,
    hcurrent.imp_right (hgrows.keys _),
    (hcut.exec hexec).mono (fun _ => id) fun v _ => hnoted p v⟩
  · intro name t hget
    rcases Sqlite.exec_cases hexec with ⟨rfl, -⟩ | ⟨name', table, rfl, rfl⟩ | ⟨_, _, _, rfl, rfl⟩
    · exact h.tables name t hget
    · rw [Dict.get?_set] at hget
      split_ifs at hget with heq
      · exact ⟨m, hm, heq ▸ Option.some.inj hget ▸ hom⟩
      · exact h.tables name t hget
    · exact h.tables name t hget
  · intro name i hget
    rcases Sqlite.exec_cases hexec with
      ⟨rfl, -⟩ | ⟨_, _, rfl, rfl⟩ | ⟨name', table, column, rfl, rfl⟩
    · exact h.indexes name i hget
    · exact h.indexes name i hget
    · rw [Dict.get?_set] at hget
      split_ifs at hget with heq
      · exact ⟨m, hm, heq ▸ Option.some.inj hget ▸ hom⟩
      · exact h.indexes name i hget
  · intro v hv
    refine (h.recorded v ?_).imp_right fun hcovered => hcovered.mono hgrows.holds
    rwa [← hversions]
  · intro w hw
    refine .inl ⟨?_, hw⟩
    rintro rfl
    have hcommit := h.atCommit w hw
    rw [hphase] at hcommit
    exact hcommit

/-- The version has been written, and is not committed yet. -/
theorem Inv.runRecord (h : Inv ms s) {current v : ℤ} {done todo : List Cmd} {now : ℚ}
    (hphase : s.phase p = .migrating current done (.record v :: todo)) (hfree : s.Free p)
    (hv : v ∈ ms.keys) (hcommit : ∃ rest, todo = .commit :: rest) :
    Inv ms (({ s with writer := some ⟨p, v, now⟩ } : Opening).setPhase p
      (.migrating current (done ++ [.record v]) todo)) := by
  have hok := h.phases p
  rw [hphase] at hok
  obtain ⟨hcovered, hcurrent, hcut⟩ := hok
  -- Nobody is in a transaction: it would be this connection, and it is not about to commit.
  have hnone : s.writer = none := by
    cases hw : s.writer with
    | none => rfl
    | some w =>
      have hold := h.atCommit w hw
      rw [hfree w hw, hphase] at hold
      exact hold.elim
  have hnoted : ∀ q v', s.Noted q v' →
      ({ s with writer := some ⟨p, v, now⟩ } : Opening).Noted q v' := by
    rintro q v' (hv | ⟨w, hw, -⟩)
    · exact .inl hv
    · rw [hnone] at hw
      cases hw
  refine h.go rfl (.refl _) h.tables h.indexes h.recorded (fun q _ => hnoted q) ?_
    ⟨hcovered, hcurrent, ?_⟩
  · intro w hw
    obtain rfl := Option.some.inj hw
    obtain ⟨rest, rfl⟩ := hcommit
    exact .inr ⟨rfl, ⟨hv, hcut.covered_record (pairwise_sortedMigrations ms) hcovered⟩, trivial⟩
  · exact (hcut.mono (fun _ => id) fun v' _ => hnoted p v').record (.inr ⟨_, rfl, rfl, rfl⟩)

/-- The version is committed. -/
theorem Inv.runCommit (h : Inv ms s) {current : ℤ} {done todo : List Cmd} {w : Pending}
    (hphase : s.phase p = .migrating current done (.commit :: todo)) (hw : s.writer = some w) :
    Inv ms (({ s with
      db := { s.db with versions := s.db.versions.set w.version w.appliedAt }
      writer := none } : Opening).setPhase p (.migrating current (done ++ [.commit]) todo)) := by
  have hok := h.phases p
  rw [hphase] at hok
  obtain ⟨hcovered, hcurrent, hcut⟩ := hok
  have hkeys : ∀ v, v ∈ (s.db.versions.set w.version w.appliedAt).keys ↔
      v = w.version ∨ v ∈ s.db.versions.keys := fun v => Dict.mem_keys_set
  have hholds : ∀ o, s.db.Holds o →
      ({ s.db with versions := s.db.versions.set w.version w.appliedAt } : Sqlite).Holds o := by
    intro o ho
    cases o <;> exact ho
  have hgrows : Grows s.db
      { s.db with versions := s.db.versions.set w.version w.appliedAt } :=
    ⟨hholds, fun v hv => (hkeys v).mpr (.inr hv)⟩
  have hnoted : ∀ q v, s.Noted q v → ({ s with
      db := { s.db with versions := s.db.versions.set w.version w.appliedAt }
      writer := none } : Opening).Noted q v := by
    rintro q v (hv | ⟨w', hw', -, rfl⟩)
    · exact .inl ((hkeys v).mpr (.inr hv))
    · rw [hw] at hw'
      exact .inl ((hkeys _).mpr (.inl (Option.some.inj hw' ▸ rfl)))
  refine h.go rfl hgrows h.tables h.indexes ?_ (fun q _ => hnoted q) ?_
    ⟨hcovered.mono hholds, hcurrent.imp_right (hgrows.keys _),
      (hcut.mono hholds fun v _ => hnoted p v).skip⟩
  · intro v hv
    rcases (hkeys v).mp hv with rfl | hv
    · exact (h.covered w hw).imp_right fun hcovered => hcovered.mono hholds
    · exact (h.recorded v hv).imp_right fun hcovered => hcovered.mono hholds
  · intro w' hw'
    cases hw'

/-- A record is followed by a commit. -/
theorem commit_of_record {current v : ℤ} {done todo : List Cmd}
    (h : done ++ .record v :: todo = Migrations.script (sortedMigrations ms) current) :
    ∃ rest, todo = .commit :: rest :=
  Migrations.commit_of_split_record h

/-- Only versions of migrations are recorded. -/
theorem mem_keys_of_record {current v : ℤ} {done todo : List Cmd}
    (h : done ++ .record v :: todo = Migrations.script (sortedMigrations ms) current) :
    v ∈ ms.keys := by
  have hmem : .record v ∈ Migrations.script (sortedMigrations ms) current := by
    rw [← h]
    exact List.mem_append_right _ List.mem_cons_self
  obtain ⟨m, hm, -, hsteps⟩ := Migrations.mem_script.mp hmem
  obtain rfl : v = m.1 := by simpa [Migrations.steps] using hsteps
  exact List.mem_map_of_mem (mem_sortedMigrations.mp hm)

theorem Inv.run (h : Inv ms s) {current : ℤ} {done todo : List Cmd} {cmd : Cmd} {now : ℚ}
    (hphase : s.phase p = .migrating current done (cmd :: todo)) (hmay : s.MayRun p cmd)
    (hrun : s.runCmd p now cmd = some s') :
    Inv ms (s'.setPhase p (.migrating current (done ++ [cmd]) todo)) := by
  cases cmd with
  | add o =>
    obtain ⟨db, hexec, rfl⟩ := Option.map_eq_some_iff.mp hrun
    exact h.runAdd hphase hexec
  | record v =>
    simp only [runCmd] at hrun
    split_ifs at hrun
    obtain rfl := Option.some.inj hrun
    have hok := h.phases p
    rw [hphase] at hok
    have hsplit := hok.2.2.split
    exact h.runRecord hphase hmay (mem_keys_of_record hsplit) (commit_of_record hsplit)
  | commit =>
    simp only [runCmd] at hrun
    split at hrun
    · rename_i w hw
      obtain rfl := Option.some.inj hrun
      exact h.runCommit hphase hw
    · rename_i hnone
      obtain rfl := Option.some.inj hrun
      have hok := h.phases p
      rw [hphase] at hok
      obtain ⟨hcovered, hcurrent, hcut⟩ := hok
      refine h.setPhase (fun w hw => ?_) ⟨hcovered, hcurrent, hcut.skip⟩
      rw [hnone] at hw
      cases hw

theorem Inv.step (hms : WellFormed ms) (h : Inv ms s) {a : Action}
    (hstep : Opening.step ms s a = some s') : Inv ms s' := by
  cases a with
  | connect p => exact Option.some.inj hstep ▸ h.leave fun _ => trivial
  | readVersion p =>
    simp only [Opening.step] at hstep
    split at hstep
    · rename_i hphase
      exact Option.some.inj hstep ▸ h.migrate hms hphase (currentSchemaVersion_cases s.db)
    · cases hstep
  | readFails p =>
    simp only [Opening.step] at hstep
    split at hstep
    · rename_i hphase
      exact Option.some.inj hstep ▸ h.migrate hms hphase (.inl rfl)
    · cases hstep
  | run p now =>
    simp only [Opening.step] at hstep
    split at hstep
    · rename_i hphase
      exact Option.some.inj hstep ▸ h.finish hms hphase
    · rename_i current done cmd todo hphase
      split_ifs at hstep with hmay
      split at hstep
      · rename_i s₁ hrun
        exact Option.some.inj hstep ▸ h.run hphase hmay hrun
      · exact Option.some.inj hstep ▸ h.setPhase (fun _ _ _ => trivial) trivial
    · cases hstep
  | raises p =>
    simp only [Opening.step] at hstep
    split at hstep
    · exact Option.some.inj hstep ▸ h.setPhase (fun _ _ _ => trivial) trivial
    · exact Option.some.inj hstep ▸ h.setPhase (fun _ _ _ => trivial) trivial
    · cases hstep
  | leaves p => exact Option.some.inj hstep ▸ h.leave fun _ => trivial

theorem inv_of_reaches (hms : WellFormed ms)
    (h : Reaches (Opening.step ms) (fun _ _ => True) {} s) : Inv ms s :=
  h.invariant inv_start fun hinv _ hstep => hinv.step hms hstep

/-! ### An opening that is not disturbed -/

/-- No statement of the migrations raises where it is run. -/
theorem Inv.exec_isSome (hms : WellFormed ms) (h : Inv ms s) {current : ℤ}
    {done todo : List Cmd} {o : Statement}
    (hphase : s.phase p = .migrating current done (.add o :: todo)) :
    ∃ db, s.db.exec o = some db := by
  have hok := h.phases p
  rw [hphase] at hok
  obtain ⟨hcovered, -, hcut⟩ := hok
  obtain ⟨m, hm, before, after, hsplit, hbefore, hearlier⟩ :=
    hcut.exists_before (pairwise_sortedMigrations ms) hcovered
  have hm' := mem_sortedMigrations.mp hm
  have hom : o ∈ m.2 := by
    rw [hsplit]
    exact List.mem_append_right _ List.mem_cons_self
  cases o with
  | createTable name table =>
    simp only [Sqlite.exec]
    split_ifs with hthere hindex
    · exact ⟨_, rfl⟩
    · obtain ⟨i, hi⟩ := Option.isSome_iff_exists.mp hindex
      obtain ⟨m', hm'', ho'⟩ := h.indexes name i hi
      cases hms.names m hm' m' hm'' _ hom _ ho' rfl
    · exact ⟨_, rfl⟩
  | createIndex name table column =>
    obtain ⟨t, hcolumn, ht⟩ := hms.indexed m hm' before after name table column hsplit
    have hthere : s.db.Holds (.createTable table t) := by
      rcases ht with ht | ⟨m', hm'', hlt, ht⟩
      · exact hbefore _ ht
      · exact hearlier m' (mem_sortedMigrations.mpr hm'') hlt _ ht
    obtain ⟨m₁, hm₁, ht₁⟩ : ∃ m₁ ∈ ms.entries, .createTable table t ∈ m₁.2 := by
      rcases ht with ht | ⟨m', hm'', -, ht⟩
      · exact ⟨m, hm', hsplit ▸ List.mem_append_left _ ht⟩
      · exact ⟨m', hm'', ht⟩
    obtain ⟨t', ht'⟩ := Option.isSome_iff_exists.mp hthere
    obtain ⟨m₂, hm₂, ht₂⟩ := h.tables table t' ht'
    cases hms.names m₂ hm₂ m₁ hm₁ _ ht₂ _ ht₁ rfl
    simp only [Sqlite.exec, ht', hcolumn, if_true]
    split_ifs with htable hindex
    · obtain ⟨t'', ht''⟩ := Option.isSome_iff_exists.mp htable
      obtain ⟨m₃, hm₃, ht₃⟩ := h.tables name t'' ht''
      cases hms.names m hm' m₃ hm₃ _ hom _ ht₃ rfl
    · exact ⟨_, rfl⟩
    · exact ⟨_, rfl⟩

/-- No step of a migration raises by itself. -/
theorem Inv.runCmd_isSome (hms : WellFormed ms) (h : Inv ms s) {current : ℤ}
    {done todo : List Cmd} {cmd : Cmd} (now : ℚ)
    (hphase : s.phase p = .migrating current done (cmd :: todo)) :
    ∃ s', s.runCmd p now cmd = some s' := by
  have hok := h.phases p
  rw [hphase] at hok
  obtain ⟨hcovered, -, hcut⟩ := hok
  cases cmd with
  | add o =>
    obtain ⟨db, hdb⟩ := h.exec_isSome hms hphase
    exact ⟨{ s with db }, by simp only [runCmd, hdb, Option.map_some]⟩
  | record v =>
    have hmem : .record v ∈ Migrations.script (sortedMigrations ms) current := by
      rw [← hcut.split]
      exact List.mem_append_right _ List.mem_cons_self
    obtain ⟨m, hm, -, hsteps⟩ := Migrations.mem_script.mp hmem
    obtain rfl : v = m.1 := by simpa [Migrations.steps] using hsteps
    obtain ⟨m', hm', hle, t, ht⟩ := hms.versionTable m (mem_sortedMigrations.mp hm)
    have htable := hcut.covered_record (pairwise_sortedMigrations ms) hcovered m'
      (mem_sortedMigrations.mpr hm') hle _ ht
    exact ⟨_, if_pos htable⟩
  | commit =>
    simp only [runCmd]
    split <;> exact ⟨_, rfl⟩

theorem Free.mayRun (hfree : s.Free p) : ∀ cmd, s.MayRun p cmd
  | .add _ => .inr hfree
  | .record _ | .commit => hfree

theorem free_runCmd (hfree : s.Free p) {now : ℚ} {cmd : Cmd} (hrun : s.runCmd p now cmd = some s') :
    s'.Free p := by
  cases cmd with
  | add o =>
    obtain ⟨db, -, rfl⟩ := Option.map_eq_some_iff.mp hrun
    exact hfree
  | record v =>
    simp only [runCmd] at hrun
    split_ifs at hrun
    obtain rfl := Option.some.inj hrun
    intro w hw
    exact Option.some.inj hw ▸ rfl
  | commit =>
    simp only [runCmd] at hrun
    split at hrun
    · obtain rfl := Option.some.inj hrun
      intro w hw
      cases hw
    · exact Option.some.inj hrun ▸ hfree

/-- What is left of a script is done. -/
theorem Inv.exists_opened_of_migrating (hms : WellFormed ms) (todo : List Cmd) :
    ∀ {s : Opening} {current : ℤ} {done : List Cmd}, Inv ms s →
      s.phase p = .migrating current done todo → s.Free p →
        ∃ s', Reaches (Opening.step ms) (Undisturbed p) s s' ∧ s'.phase p = .opened := by
  induction todo with
  | nil =>
    intro s current done _ hphase _
    have hstep : Opening.step ms s (.run p 0) = some (s.setPhase p .opened) := by
      simp only [Opening.step, hphase]
    have hundisturbed : Undisturbed p s (.run p 0) := rfl
    exact ⟨_, Reaches.start.step hundisturbed hstep, phase_setPhase_self ..⟩
  | cons cmd todo ih =>
    intro s current done h hphase hfree
    obtain ⟨s₁, hrun⟩ := h.runCmd_isSome hms 0 hphase
    have hmay : s.MayRun p cmd := hfree.mayRun cmd
    have hstep : Opening.step ms s (.run p 0) =
        some (s₁.setPhase p (.migrating current (done ++ [cmd]) todo)) := by
      simp only [Opening.step, hphase, if_pos hmay, hrun]
    have hundisturbed : Undisturbed p s (.run p 0) := rfl
    have hfree₁ : s₁.Free p := free_runCmd hfree hrun
    obtain ⟨s', hreach, hopened⟩ :=
      ih (h.run hphase hmay hrun) (phase_setPhase_self ..) hfree₁
    exact ⟨s', (Reaches.start.step hundisturbed hstep).trans hreach, hopened⟩

/-- **Whatever has happened before, an opening that is not disturbed comes to its end.** -/
theorem Inv.exists_opened (hms : WellFormed ms) (h : Inv ms s) (hfree : s.Free p) :
    ∃ s', Reaches (Opening.step ms) (Undisturbed p) s s' ∧ s'.phase p = .opened := by
  let s₁ := (s.rollback p).setPhase p .connected
  have hconnect : Opening.step ms s (.connect p) = some s₁ := rfl
  have h₁ : Inv ms s₁ := h.leave fun _ => trivial
  have hconnected : s₁.phase p = .connected := phase_setPhase_self ..
  have hread : Opening.step ms s₁ (.readVersion p) =
      some (s₁.migrate ms p s₁.db.currentSchemaVersion) := by
    simp only [Opening.step, hconnected]
  have hfree₁ : s₁.Free p := fun w hw => hfree w (Option.filter_eq_some_iff.mp hw).1
  obtain ⟨s', hreach, hopened⟩ := Inv.exists_opened_of_migrating hms _
    (h₁.migrate hms hconnected (currentSchemaVersion_cases _)) (phase_setPhase_self ..) hfree₁
  have hmine : Undisturbed p s (.connect p) := rfl
  have hmine₁ : Undisturbed p s₁ (.readVersion p) := rfl
  exact ⟨s', ((Reaches.start.step hmine hconnect).step hmine₁ hread).trans hreach, hopened⟩

/-! ### What can be relied on -/

/-- What a statement creates is in the file, as the statement has it. -/
def InPlace (db : Sqlite) : Statement → Prop
  | .createTable name table => db.tables.get? name = some table
  | .createIndex name table column => db.indexes.get? name = some (table, column)

theorem Inv.inPlace (hms : WellFormed ms) (h : Inv ms s) {m : ℤ × List Statement}
    (hm : m ∈ ms.entries) {o : Statement} (ho : o ∈ m.2) (hholds : s.db.Holds o) :
    InPlace s.db o := by
  cases o with
  | createTable name table =>
    obtain ⟨t, ht⟩ := Option.isSome_iff_exists.mp hholds
    obtain ⟨m', hm', ho'⟩ := h.tables name t ht
    cases hms.names m' hm' m hm _ ho' _ ho rfl
    exact ht
  | createIndex name table column =>
    obtain ⟨i, hi⟩ := Option.isSome_iff_exists.mp hholds
    obtain ⟨m', hm', ho'⟩ := h.indexes name i hi
    cases hms.names m' hm' m hm _ ho' _ ho rfl
    exact hi

/-- **What can be relied on.** -/
structure Sound (ms : Dict ℤ (List Statement)) (s : Opening) : Prop where
  /-- A version is recorded only where everything up to it is in place. -/
  recorded : ∀ v ∈ s.db.versions.keys, ∀ m ∈ ms.entries, m.1 ≤ v → ∀ o ∈ m.2, InPlace s.db o
  /-- Whoever has opened the file has everything, and it is recorded. -/
  opened : ∀ p, s.phase p = .opened → ∀ m ∈ ms.entries,
    (∃ v ∈ s.db.versions.keys, m.1 ≤ v) ∧ ∀ o ∈ m.2, InPlace s.db o
  /-- No other table is in the file, no other index, and no other version. -/
  tables : ∀ name t, s.db.tables.get? name = some t →
    ∃ m ∈ ms.entries, .createTable name t ∈ m.2
  indexes : ∀ name i, s.db.indexes.get? name = some i →
    ∃ m ∈ ms.entries, .createIndex name i.1 i.2 ∈ m.2
  versions : ∀ v ∈ s.db.versions.keys, v ∈ ms.keys
  /-- Nothing is left behind that keeps the file from being opened. -/
  canOpen : ∀ p, s.Free p →
    ∃ s', Reaches (Opening.step ms) (Undisturbed p) s s' ∧ s'.phase p = .opened

/-- **The version that is recorded can be relied on**, however many processes open the file at
once, wherever they are cut short and whatever raises. -/
theorem sound_of_reaches (hms : WellFormed ms)
    (h : Reaches (Opening.step ms) (fun _ _ => True) {} s) : Sound ms s := by
  have hinv := inv_of_reaches hms h
  refine ⟨fun v hv m hm hle o ho => ?_, fun p hp m hm => ?_, hinv.tables, hinv.indexes,
    fun v hv => (hinv.recorded v hv).1, fun p hfree => hinv.exists_opened hms hfree⟩
  · exact hinv.inPlace hms hm ho ((hinv.recorded v hv).2 m (mem_sortedMigrations.mpr hm) hle o ho)
  · have hok := hinv.phases p
    rw [hp] at hok
    obtain ⟨hversion, hall⟩ := hok m hm
    exact ⟨hversion, fun o ho => hinv.inPlace hms hm ho (hall o ho)⟩

/-! ### The migrations of the hub -/

theorem wellFormed_migrations : WellFormed migrations where
  positive m hm := by
    obtain rfl := List.mem_singleton.mp hm
    exact Int.one_pos
  names m hm m' hm' o ho o' ho' hname := by
    obtain rfl := List.mem_singleton.mp hm
    obtain rfl := List.mem_singleton.mp hm'
    have hnodup : ((tables ++ indexes).map Statement.name).Nodup := by decide
    exact List.inj_on_of_nodup_map hnodup ho ho' hname
  indexed m hm before after name table column hsplit := by
    obtain rfl := List.mem_singleton.mp hm
    have hno : .createIndex name table column ∉ tables := by simp [tables]
    have hmem : .createIndex name table column ∈ tables ++ indexes := by
      rw [show tables ++ indexes = _ from hsplit]
      exact List.mem_append_right _ List.mem_cons_self
    obtain ⟨t, hcolumn, ht⟩ := exists_table ((List.mem_append.mp hmem).resolve_left hno)
    exact ⟨t, hcolumn, .inl (mem_before hsplit hno ht)⟩
  versionTable m hm := by
    obtain rfl := List.mem_singleton.mp hm
    have hmem : .createTable "schema_version" versionTable ∈ tables := by decide
    exact ⟨_, List.mem_singleton_self _, le_rfl, versionTable, List.mem_append_left _ hmem⟩

/-- `SCHEMA_VERSION` is the last version there is. -/
theorem max?_migrations : migrations.keys.max? = some schemaVersion := rfl

/-- Two processes open the file at once. The first is killed where it has not committed yet, and the
second waits for that. A third one cannot read the version, and does everything again. -/
def killedBeforeCommit : List Action :=
  .connect 0 :: .readVersion 0 :: .connect 1 :: .readVersion 1 :: List.replicate 16 (.run 0 5) ++
    List.replicate 15 (.run 1 6) ++ .leaves 0 :: List.replicate 3 (.run 1 6) ++
      .connect 2 :: .readFails 2 :: List.replicate 18 (.run 2 7)

theorem sound_of_reaches_killedBeforeCommit :
    ∃ s, Reaches (Opening.step migrations) (fun _ _ => True) {} s ∧
      s.db.versions.entries = [(1, 7)] ∧ s.phase 1 = .opened ∧ s.phase 2 = .opened ∧
      Sound migrations s := by
  have hplay : (playFrom (Opening.step migrations) (fun _ _ => true) {} killedBeforeCommit).map
      (fun s => (s.db.versions.entries, s.phase 1, s.phase 2)) =
        some ([(1, 7)], .opened, .opened) := by rfl
  obtain ⟨s, hs, hend⟩ := Option.map_eq_some_iff.mp hplay
  obtain ⟨hversions, hphases⟩ := Prod.mk.inj hend
  obtain ⟨hopened, hopened'⟩ := Prod.mk.inj hphases
  have hreach := reaches_of_playFrom (fun _ _ _ => trivial) .start hs
  exact ⟨s, hreach, hversions, hopened, hopened', sound_of_reaches wellFormed_migrations hreach⟩

end Opening

end Storage

end SlmMcpHub
