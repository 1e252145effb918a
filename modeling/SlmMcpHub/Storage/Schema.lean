import SlmMcpHub.Library.Dict
import SlmMcpHub.Library.Migrations
import Mathlib.Algebra.Order.Field.Rat

/-!
# The schema

`storage/schema.py`, and what its statements do to a file. Each creates a table or an index, unless
there is one of the name.

## Main definitions

* `Statement`, `Sqlite`, `Sqlite.exec` — what a `CREATE ... IF NOT EXISTS` does
* `migrations` — `MIGRATIONS`
* `Sqlite.ddl` — its statements, as a case of what adds something to a store

## Main results

* `Sqlite.exec_cases` — all a statement can do
* `exists_table` — an index has its table
-/

namespace SlmMcpHub

namespace Storage

/-! ### Statements -/

/-- What is in the brackets of a `CREATE TABLE`: the columns, and what holds of the whole table. -/
structure Table where
  columns : List (String × String)
  constraints : List String := []
  deriving DecidableEq

/-- A statement of a migration. -/
inductive Statement where
  /-- `CREATE TABLE IF NOT EXISTS` -/
  | createTable (name : String) (table : Table)
  /-- `CREATE INDEX IF NOT EXISTS name ON table(column)` -/
  | createIndex (name table column : String)
  deriving DecidableEq

/-- The name of what a statement creates. -/
def Statement.name : Statement → String
  | .createTable name _ | .createIndex name _ _ => name

/-- What is committed to the file. -/
@[ext]
structure Sqlite where
  tables : Dict String Table := .empty
  /-- The table and the column of an index. -/
  indexes : Dict String (String × String) := .empty
  /-- The rows of `schema_version`. -/
  versions : Dict ℤ ℚ := .empty

namespace Sqlite

/-- Run a statement: `none` is an `OperationalError`. -/
def exec (db : Sqlite) : Statement → Option Sqlite
  | .createTable name table =>
    if db.tables.contains name then some db
    else if db.indexes.contains name then none
    else some { db with tables := db.tables.set name table }
  | .createIndex name table column =>
    match db.tables.get? table with
    | none => none
    | some t =>
      if db.tables.contains name then none
      else if db.indexes.contains name then some db
      else if column ∈ t.columns.map Prod.fst then
        some { db with indexes := db.indexes.set name (table, column) }
      else none

/-- There is something of the name, and of the kind, that a statement creates. -/
def Holds (db : Sqlite) : Statement → Prop
  | .createTable name _ => db.tables.contains name = true
  | .createIndex name _ _ => db.indexes.contains name = true

instance (db : Sqlite) : (o : Statement) → Decidable (db.Holds o)
  | .createTable name _ => inferInstanceAs (Decidable (db.tables.contains name = true))
  | .createIndex name _ _ => inferInstanceAs (Decidable (db.indexes.contains name = true))

/-- `SELECT MAX(version) as v FROM schema_version`, and 0 for whatever goes wrong. -/
def currentSchemaVersion (db : Sqlite) : ℤ :=
  if db.tables.contains "schema_version" then db.versions.keys.max?.getD 0 else 0

end Sqlite

/-- Tool call history. -/
def toolCalls : Table where
  columns :=
    [("id", "INTEGER PRIMARY KEY AUTOINCREMENT"), ("session_id", "TEXT"),
      ("server_name", "TEXT NOT NULL"), ("tool_name", "TEXT NOT NULL"),
      ("arguments_hash", "TEXT NOT NULL DEFAULT ''"),
      ("duration_ms", "INTEGER NOT NULL DEFAULT 0"), ("success", "INTEGER NOT NULL DEFAULT 1"),
      ("cost_cents", "REAL NOT NULL DEFAULT 0.0"), ("cached", "INTEGER NOT NULL DEFAULT 0"),
      ("timestamp", "REAL NOT NULL")]

/-- Intelligent cache. -/
def cache : Table where
  columns :=
    [("key", "TEXT PRIMARY KEY"), ("result", "TEXT NOT NULL"), ("created_at", "REAL NOT NULL"),
      ("ttl_seconds", "INTEGER NOT NULL DEFAULT 300"),
      ("hit_count", "INTEGER NOT NULL DEFAULT 0")]

/-- Audit log. -/
def auditLog : Table where
  columns :=
    [("id", "INTEGER PRIMARY KEY AUTOINCREMENT"), ("session_id", "TEXT"),
      ("action", "TEXT NOT NULL"), ("details", "TEXT NOT NULL DEFAULT '\x7b\x7d'"),
      ("timestamp", "REAL NOT NULL")]

/-- Schema version tracking. -/
def versionTable : Table where
  columns := [("version", "INTEGER PRIMARY KEY"), ("applied_at", "REAL NOT NULL")]

/-- The tables of `MIGRATIONS[1]`. -/
def tables : List Statement :=
  [.createTable "hub_config"
      ⟨[("key", "TEXT PRIMARY KEY"), ("value", "TEXT NOT NULL"),
        ("updated_at", "REAL NOT NULL")], []⟩,
    .createTable "mcp_servers"
      ⟨[("id", "TEXT PRIMARY KEY"), ("config", "TEXT NOT NULL"),
        ("transport", "TEXT NOT NULL DEFAULT 'stdio'"),
        ("status", "TEXT NOT NULL DEFAULT 'disconnected'"), ("last_connected", "REAL"),
        ("enabled", "INTEGER NOT NULL DEFAULT 1")], []⟩,
    .createTable "sessions"
      ⟨[("session_id", "TEXT PRIMARY KEY"), ("client_name", "TEXT NOT NULL DEFAULT 'unknown'"),
        ("connected_at", "REAL NOT NULL"), ("last_activity", "REAL NOT NULL"),
        ("permissions", "TEXT NOT NULL DEFAULT '\x7b\x7d'"),
        ("project_path", "TEXT NOT NULL DEFAULT ''")], []⟩,
    .createTable "tool_calls" toolCalls,
    .createTable "cache" cache,
    .createTable "cost_budgets"
      ⟨[("scope", "TEXT PRIMARY KEY"), ("budget_cents", "REAL NOT NULL DEFAULT 0.0"),
        ("spent_cents", "REAL NOT NULL DEFAULT 0.0"), ("period_start", "REAL NOT NULL")], []⟩,
    .createTable "audit_log" auditLog,
    .createTable "metrics"
      ⟨[("server_name", "TEXT NOT NULL"), ("metric", "TEXT NOT NULL"),
        ("value", "REAL NOT NULL DEFAULT 0.0"), ("window", "TEXT NOT NULL DEFAULT '1h'"),
        ("updated_at", "REAL NOT NULL")], ["PRIMARY KEY (server_name, metric, window)"]⟩,
    .createTable "schema_version" versionTable]

/-- The indexes of `MIGRATIONS[1]`. -/
def indexes : List Statement :=
  [.createIndex "idx_tool_calls_session" "tool_calls" "session_id",
    .createIndex "idx_tool_calls_server" "tool_calls" "server_name",
    .createIndex "idx_tool_calls_timestamp" "tool_calls" "timestamp",
    .createIndex "idx_audit_log_session" "audit_log" "session_id",
    .createIndex "idx_audit_log_timestamp" "audit_log" "timestamp",
    .createIndex "idx_cache_created" "cache" "created_at"]

/-- `MIGRATIONS` -/
def migrations : Dict ℤ (List Statement) := Dict.empty.set 1 (tables ++ indexes)

/-- `SCHEMA_VERSION` -/
def schemaVersion : ℤ := 1

/-! ### What a statement adds -/

namespace Sqlite

variable {db db' : Sqlite} {o o' : Statement}

/-- **All a statement can do**: nothing, where there is what it creates, or else to create it. -/
theorem exec_cases (h : db.exec o = some db') :
    db' = db ∧ db.Holds o ∨
      (∃ name table, o = .createTable name table ∧
        db' = { db with tables := db.tables.set name table }) ∨
      ∃ name table column, o = .createIndex name table column ∧
        db' = { db with indexes := db.indexes.set name (table, column) } := by
  cases o with
  | createTable name table =>
    simp only [exec] at h
    split_ifs at h with hthere
    · exact .inl ⟨(Option.some.inj h).symm, hthere⟩
    · exact .inr (.inl ⟨name, table, rfl, (Option.some.inj h).symm⟩)
  | createIndex name table column =>
    simp only [exec] at h
    split at h
    · cases h
    split_ifs at h with _ hthere
    · exact .inl ⟨(Option.some.inj h).symm, hthere⟩
    · exact .inr (.inr ⟨name, table, column, rfl, (Option.some.inj h).symm⟩)

theorem contains_set {ν : Type} (d : Dict String ν) (k k' : String) (v : ν)
    (h : k = k' ∨ d.contains k' = true) : (d.set k v).contains k' = true := by
  rw [Dict.contains_iff, Dict.mem_keys_set, ← Dict.contains_iff]
  exact h.imp_left Eq.symm

theorem holds_exec (h : db.exec o = some db') : db'.Holds o := by
  rcases exec_cases h with ⟨rfl, hholds⟩ | ⟨name, table, rfl, rfl⟩ | ⟨name, table, column, rfl, rfl⟩
  · exact hholds
  · exact contains_set _ _ _ _ (.inl rfl)
  · exact contains_set _ _ _ _ (.inl rfl)

theorem keeps_exec (h : db.exec o = some db') (ho : db.Holds o') : db'.Holds o' := by
  rcases exec_cases h with ⟨rfl, -⟩ | ⟨name, table, rfl, rfl⟩ | ⟨name, table, column, rfl, rfl⟩
  · exact ho
  · cases o' with
    | createTable => exact contains_set _ _ _ _ (.inr ho)
    | createIndex => exact ho
  · cases o' with
    | createTable => exact ho
    | createIndex => exact contains_set _ _ _ _ (.inr ho)

theorem versions_exec (h : db.exec o = some db') : db'.versions = db.versions := by
  rcases exec_cases h with ⟨rfl, -⟩ | ⟨name, table, rfl, rfl⟩ | ⟨name, table, column, rfl, rfl⟩ <;>
    rfl

/-- The statements of the migrations, as a case of what adds something to a store. -/
def ddl : Ddl Sqlite Statement where
  exec := exec
  Holds := Holds
  holds_exec := holds_exec
  keeps := keeps_exec

end Sqlite

/-! ### Tables and their indexes -/

/-- Where the tables of a version come before its indexes, they come before each of them. -/
theorem mem_before {tables indexes before after : List Statement} {o o' : Statement}
    (h : tables ++ indexes = before ++ o :: after) (ho : o ∉ tables) (ho' : o' ∈ tables) :
    o' ∈ before := by
  rcases List.append_eq_append_iff.mp h with ⟨as, rfl, -⟩ | ⟨bs, rfl, htail⟩
  · exact List.mem_append_left _ ho'
  · cases bs with
    | nil => simpa using ho'
    | cons b bs =>
      obtain rfl := (List.cons.inj htail).1
      exact absurd (List.mem_append_right _ List.mem_cons_self) ho

/-- The table of an index is among the tables, and has the column. -/
theorem exists_table {name table column : String}
    (h : .createIndex name table column ∈ indexes) :
    ∃ t, column ∈ t.columns.map Prod.fst ∧ .createTable table t ∈ tables := by
  have hcalls : .createTable "tool_calls" toolCalls ∈ tables := by decide
  have haudit : .createTable "audit_log" auditLog ∈ tables := by decide
  have hcache : .createTable "cache" cache ∈ tables := by decide
  simp only [indexes, List.mem_cons, List.not_mem_nil, or_false, Statement.createIndex.injEq] at h
  rcases h with ⟨-, rfl, rfl⟩ | ⟨-, rfl, rfl⟩ | ⟨-, rfl, rfl⟩ | ⟨-, rfl, rfl⟩ | ⟨-, rfl, rfl⟩ |
    ⟨-, rfl, rfl⟩
  · exact ⟨toolCalls, by decide, hcalls⟩
  · exact ⟨toolCalls, by decide, hcalls⟩
  · exact ⟨toolCalls, by decide, hcalls⟩
  · exact ⟨auditLog, by decide, haudit⟩
  · exact ⟨auditLog, by decide, haudit⟩
  · exact ⟨cache, by decide, hcache⟩

end Storage

end SlmMcpHub
