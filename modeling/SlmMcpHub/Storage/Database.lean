import SlmMcpHub.Library.Transition
import SlmMcpHub.Storage.Schema
import Mathlib.Data.List.Sort
import Mathlib.Logic.Function.Basic

/-!
# Opening the database

`storage/database.py`. Whoever opens the file reads the version that is recorded in it and runs the
migrations after it: a `CREATE` takes effect by itself, the version is written in a transaction that
is committed afterwards. Several processes may open the file at once, one may be cut short anywhere,
and any statement may raise.

## Main definitions

* `Opening`, `Opening.step` — some connections to one file
* `Opening.Undisturbed` — one of them goes on, and nothing raises
-/

namespace SlmMcpHub

namespace Storage

/-! ### Connections -/

/-- A process that opens the file, or whatever else has a connection to it. -/
abbrev Pid : Type := ℕ

abbrev Cmd : Type := Migrations.Cmd Statement

/-- How far `HubDatabase.open` has come. -/
inductive Phase where
  /-- There is no connection. -/
  | idle
  /-- There is one, and the version has not been read yet. -/
  | connected
  /-- In `_apply_migrations`: the version that was read, what has been done, and what is to be
  done. -/
  | migrating (current : ℤ) (done todo : List Cmd)
  | opened
  /-- `open` has raised. The connection is still there, with a transaction it may have begun. -/
  | failed

/-- A row of `schema_version` that has not been committed. -/
structure Pending where
  pid : Pid
  version : ℤ
  appliedAt : ℚ

/-- The file and the connections to it. -/
structure Opening where
  db : Sqlite := {}
  phase : Pid → Phase := fun _ => .idle
  /-- Who is in a transaction: there is one writer at a time. -/
  writer : Option Pending := none

inductive Action where
  /-- `sqlite3.connect`, and the pragmas. -/
  | connect (p : Pid)
  /-- `_get_current_schema_version` -/
  | readVersion (p : Pid)
  /-- The same, and its `SELECT` raises a `sqlite3.OperationalError`, which it catches. -/
  | readFails (p : Pid)
  /-- The next statement of `_apply_migrations`. -/
  | run (p : Pid) (now : ℚ)
  /-- A statement raises something nobody catches: the file is locked, the disk is full. -/
  | raises (p : Pid)
  /-- `close`, or the end of the process. -/
  | leaves (p : Pid)

namespace Opening

variable (ms : Dict ℤ (List Statement)) (s : Opening)

/-- `sorted(MIGRATIONS.keys())`, with what is found there. -/
def sortedMigrations : List (ℤ × List Statement) :=
  ms.entries.insertionSort (Order.Preimage Prod.fst (· ≤ ·))

def setPhase (p : Pid) (phase : Phase) : Opening :=
  { s with phase := Function.update s.phase p phase }

@[simp] theorem phase_setPhase_self (p : Pid) (phase : Phase) :
    (s.setPhase p phase).phase p = phase := Function.update_self ..

theorem phase_setPhase_of_ne {p q : Pid} (h : q ≠ p) (phase : Phase) :
    (s.setPhase p phase).phase q = s.phase q := Function.update_of_ne h ..

/-- Nobody else is in a transaction. -/
def Free (p : Pid) : Prop := ∀ w, s.writer = some w → w.pid = p

instance (p : Pid) : Decidable (s.Free p) :=
  match h : s.writer with
  | none => isTrue fun w hw => by rw [h] at hw; cases hw
  | some w =>
    if hp : w.pid = p then isTrue fun w' hw' => by rw [h] at hw'; exact Option.some.inj hw' ▸ hp
    else isFalse fun hfree => hp (hfree w h)

/-- While somebody is in a transaction nobody else can write. A statement that finds what it would
create does not write. -/
def MayRun (p : Pid) : Cmd → Prop
  | .add o => s.db.Holds o ∨ s.Free p
  | .record _ | .commit => s.Free p

instance (p : Pid) : (cmd : Cmd) → Decidable (s.MayRun p cmd)
  | .add o => inferInstanceAs (Decidable (s.db.Holds o ∨ s.Free p))
  | .record _ | .commit => inferInstanceAs (Decidable (s.Free p))

/-- The transaction of a connection is rolled back. -/
def rollback (p : Pid) : Opening :=
  { s with writer := s.writer.filter fun w => decide (w.pid ≠ p) }

/-- What a step of a migration does, or `none` if it raises. -/
def runCmd (p : Pid) (now : ℚ) : Cmd → Option Opening
  | .add o => (s.db.exec o).map fun db => { s with db }
  | .record version =>
    if s.db.tables.contains "schema_version" then
      some { s with writer := some ⟨p, version, now⟩ }
    else none
  | .commit =>
    match s.writer with
    | some w =>
      some { s with
        db := { s.db with versions := s.db.versions.set w.version w.appliedAt }
        writer := none }
    | none => some s

/-- `for version in sorted(MIGRATIONS.keys())`, from what was read as the current version. -/
def migrate (p : Pid) (current : ℤ) : Opening :=
  s.setPhase p (.migrating current [] (Migrations.script (sortedMigrations ms) current))

/-- A step of the system. -/
def step (s : Opening) : Action → Option Opening
  | .connect p => some ((s.rollback p).setPhase p .connected)
  | .readVersion p =>
    match s.phase p with
    | .connected => some (s.migrate ms p s.db.currentSchemaVersion)
    | _ => none
  | .readFails p =>
    match s.phase p with
    | .connected => some (s.migrate ms p 0)
    | _ => none
  | .run p now =>
    match s.phase p with
    | .migrating _ _ [] => some (s.setPhase p .opened)
    | .migrating current done (cmd :: todo) =>
      if s.MayRun p cmd then
        match s.runCmd p now cmd with
        | some s' => some (s'.setPhase p (.migrating current (done ++ [cmd]) todo))
        | none => some (s.setPhase p .failed)
      else none
    | _ => none
  | .raises p =>
    match s.phase p with
    | .connected | .migrating .. => some (s.setPhase p .failed)
    | _ => none
  | .leaves p => some ((s.rollback p).setPhase p .idle)

/-- A connection of its own goes on, and nothing raises. -/
def Undisturbed (p : Pid) : Opening → Action → Prop
  | _, .connect q | _, .readVersion q | _, .run q _ => q = p
  | _, .readFails _ | _, .raises _ | _, .leaves _ => False

end Opening

end Storage

end SlmMcpHub
