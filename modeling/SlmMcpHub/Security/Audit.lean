import SlmMcpHub.Library.History
import SlmMcpHub.Library.JsonText
import Mathlib.Algebra.Order.Field.Rat
import Mathlib.Data.List.Sort

/-!
# The audit log

`security/audit.py`, over the table `audit_log`. An event is written as a row, its details as text.
What is written is not kept until it is committed, and an error of either is only logged, so that
there may be rows that are lost when the process ends.

A clock is what `time.time()` returns, one call after the other. In which order SQLite returns rows
with the same timestamp is a parameter, and so is how a `float` is written.

## Main definitions

* `AuditLogger`, with its operations
* `View`, `history` — what the operations have changed, as far as it was not lost
* `Stands` — what a history says about an event
* `Answers` — what a query is asked to return

## Main results

* `Shows.step` — the rows are those of the view after every operation
* `AuditLogger.answers_run`
-/

namespace SlmMcpHub

namespace Security

/-- A row of `audit_log`. -/
structure AuditRow where
  id : ℕ
  sessionId : String
  action : String
  details : String
  timestamp : ℚ

/-- What `query` makes of a row. -/
structure AuditEvent where
  id : ℕ
  sessionId : String
  action : String
  details : Json
  timestamp : ℚ

/-- The table `audit_log`. -/
structure AuditTable where
  rows : List AuditRow := []
  /-- The last identifier that was given: `AUTOINCREMENT` -/
  sequence : ℕ := 0

/-- `AuditLogger`, with the table as its connection sees it, and as it was last committed. -/
structure AuditLogger where
  table : AuditTable := {}
  committed : AuditTable := {}
  /-- How often the clock has been read. -/
  reads : ℕ := 0

/-- What becomes of a statement and the commit after it. -/
inductive Written where
  | succeeds
  /-- The statement raises, and does nothing. -/
  | raises
  /-- The commit raises: the statement has been run, and a later commit may still keep it. -/
  | commitRaises
  deriving DecidableEq

/-- The filters of a query. -/
structure AuditFilter where
  sessionId : Option String := none
  action : Option String := none
  since : Option ℚ := none

/-- The `WHERE` of a query: a filter that is empty, or zero, is none. -/
def AuditFilter.matches (f : AuditFilter) (sessionId action : String) (timestamp : ℚ) : Bool :=
  (f.sessionId.filter (· ≠ "")).all (sessionId = ·) &&
    (f.action.filter (· ≠ "")).all (action = ·) &&
    (f.since.filter (· ≠ 0)).all (· ≤ timestamp)

/-- `LIMIT ?`: all rows, if it is negative. -/
def limitRows {α : Type} (limit : ℤ) (rows : List α) : List α :=
  if 0 ≤ limit then rows.take limit.toNat else rows

/-- `json.loads(row["details"])`, and the other fields as they are. -/
def AuditRow.event? (row : AuditRow) : Option AuditEvent :=
  (JsonText.loads row.details).map fun details =>
    { id := row.id, sessionId := row.sessionId, action := row.action, details,
      timestamp := row.timestamp }

/-- The row of an event. -/
def AuditEvent.row (floatRepr : Double → List Char) (e : AuditEvent) : AuditRow where
  id := e.id
  sessionId := e.sessionId
  action := e.action
  details := JsonText.dumps .plain floatRepr e.details
  timestamp := e.timestamp

namespace AuditTable

variable (floatRepr : Double → List Char) (t : AuditTable)

/-- `INSERT INTO audit_log` -/
def insert (sessionId action : String) (details : Json) (timestamp : ℚ) : AuditTable :=
  let event : AuditEvent := { id := t.sequence + 1, sessionId, action, details, timestamp }
  { rows := t.rows ++ [event.row floatRepr], sequence := t.sequence + 1 }

/-- `DELETE FROM audit_log WHERE timestamp < ?` -/
def delete (cutoff : ℚ) : AuditTable :=
  { t with rows := t.rows.filter fun row => decide (cutoff ≤ row.timestamp) }

/-- `ORDER BY timestamp DESC`, given what SQLite makes of it. -/
def select (orderBy : List AuditRow → List AuditRow) (f : AuditFilter) (limit : ℤ) :
    List AuditRow :=
  limitRows limit (orderBy (t.rows.filter fun row =>
    f.matches row.sessionId row.action row.timestamp))

end AuditTable

namespace AuditLogger

variable (clock : ℕ → ℚ) (floatRepr : Double → List Char) (a : AuditLogger)

/-- What is left after a statement and the commit after it. -/
def write (w : Written) (t : AuditTable) : AuditLogger :=
  match w with
  | .succeeds => { a with table := t, committed := t }
  | .raises => a
  | .commitRaises => { a with table := t }

/-- `log`, which raises nothing. -/
def log (w : Written) (sessionId action : String) (details : Option (Dict String Json)) :
    AuditLogger :=
  let row := a.table.insert floatRepr sessionId action (.obj (details.getD .empty).entries)
    (clock a.reads)
  { a with reads := a.reads + 1 }.write w row

/-- `cleanup`, except for the number it returns. -/
def cleanup (w : Written) (retentionDays : ℤ) : AuditLogger :=
  let cutoff := clock a.reads - retentionDays * 86400
  { a with reads := a.reads + 1 }.write w (a.table.delete cutoff)

/-- `query`, or `none` where some details cannot be read. -/
def query (orderBy : List AuditRow → List AuditRow) (f : AuditFilter) (limit : ℤ) :
    Option (List AuditEvent) :=
  (a.table.select orderBy f limit).mapM AuditRow.event?

/-- What happens to an audit log. -/
inductive Op where
  | log (w : Written) (sessionId action : String) (details : Option (Dict String Json))
  | cleanup (w : Written) (retentionDays : ℤ)
  /-- The process ends, and another one opens the database. -/
  | restart

def step (a : AuditLogger) : Op → AuditLogger
  | .log w sessionId action details => a.log clock floatRepr w sessionId action details
  | .cleanup w retentionDays => a.cleanup clock w retentionDays
  | .restart => { a with table := a.committed }

def run (ops : List Op) : AuditLogger := ops.foldl (step clock floatRepr) {}

end AuditLogger

/-! ### The history -/

/-- A change of the log. -/
inductive AuditEntry where
  | logged (event : AuditEvent)
  /-- Everything before a time was deleted. -/
  | cleaned (cutoff : ℚ)

/-- How many events were logged. -/
def loggedCount (log : List AuditEntry) : ℕ :=
  log.countP fun
    | .logged _ => true
    | .cleaned _ => false

/-- What the operations have changed, oldest first: all of it that the connection sees, and what is
left of it if the process ends. -/
structure View where
  seen : List AuditEntry := []
  kept : List AuditEntry := []
  /-- How often the clock has been read. -/
  reads : ℕ := 0

namespace View

/-- A change: a commit keeps everything that is seen. -/
def change (v : View) (w : Written) (entry : AuditEntry) : View :=
  match w with
  | .succeeds =>
    { seen := v.seen ++ [entry], kept := v.seen ++ [entry], reads := v.reads + 1 }
  | .raises => { v with reads := v.reads + 1 }
  | .commitRaises => { v with seen := v.seen ++ [entry], reads := v.reads + 1 }

/-- What an operation changes. -/
def step (clock : ℕ → ℚ) (v : View) : AuditLogger.Op → View
  | .log w sessionId action details =>
    let details := .obj (details.getD .empty).entries
    v.change w (.logged ⟨loggedCount v.seen + 1, sessionId, action, details, clock v.reads⟩)
  | .cleanup w retentionDays =>
    v.change w (.cleaned (clock v.reads - retentionDays * 86400))
  | .restart => { v with seen := v.kept }

end View

/-- What a sequence of operations has changed, as the connection sees it in the end. -/
def history (clock : ℕ → ℚ) (ops : List AuditLogger.Op) : List AuditEntry :=
  (ops.foldl (View.step clock) {}).seen

/-! ### What a history says -/

/-- An event is deleted by a cleanup for which it is old. -/
def Deletes : AuditEntry → AuditEntry → Prop
  | .logged event, .cleaned cutoff => event.timestamp < cutoff
  | _, _ => False

/-- **An event stands**: it was logged, and no cleanup since has been too late for it. -/
def Stands (log : List AuditEntry) (e : AuditEvent) : Prop :=
  History.Standing Deletes log (.logged e)

theorem stands_logged {log : List AuditEntry} {e e' : AuditEvent} :
    Stands (log ++ [.logged e']) e ↔ e = e' ∨ Stands log e := by
  rw [Stands, History.standing_concat, AuditEntry.logged.injEq]
  exact or_congr_right (and_iff_left not_false)

theorem stands_cleaned {log : List AuditEntry} {e : AuditEvent} {cutoff : ℚ} :
    Stands (log ++ [.cleaned cutoff]) e ↔ Stands log e ∧ cutoff ≤ e.timestamp := by
  rw [Stands, History.standing_concat, or_iff_right (by simp)]
  exact and_congr_right fun _ => not_lt

/-- **What a query is asked to return**: events that stand and match, newest first and none of them
twice, no more than the limit; and of these none that is left out is newer than one that is not. -/
structure Answers (log : List AuditEntry) (f : AuditFilter) (limit : ℤ)
    (answer : List AuditEvent) : Prop where
  stands : ∀ e ∈ answer, Stands log e ∧ f.matches e.sessionId e.action e.timestamp = true
  newestFirst : answer.Pairwise fun e e' => e'.timestamp ≤ e.timestamp
  once : (answer.map AuditEvent.id).Nodup
  atMost : 0 ≤ limit → (answer.length : ℤ) ≤ limit
  all : ∀ e, Stands log e → f.matches e.sessionId e.action e.timestamp = true → e ∈ answer ∨
    (answer.length : ℤ) = limit ∧ ∀ e' ∈ answer, e.timestamp ≤ e'.timestamp

/-! ### The rows and the history -/

section Rows

variable {floatRepr : Double → List Char}

/-- What is written is read back. -/
theorem event?_row {e : AuditEvent} (h : JsonText.Writable floatRepr e.details) :
    (e.row floatRepr).event? = some e := by
  rw [AuditRow.event?, AuditEvent.row, JsonText.loads_dumps h]
  rfl

/-- **The rows are those of the events that stand**, with ascending identifiers. -/
structure AuditTable.Inv (floatRepr : Double → List Char) (log : List AuditEntry)
    (t : AuditTable) : Prop where
  events : ∃ events : List AuditEvent, t.rows = events.map (AuditEvent.row floatRepr) ∧
    (∀ e, e ∈ events ↔ Stands log e) ∧ (events.map AuditEvent.id).Nodup ∧
      ∀ e ∈ events, e.id ≤ t.sequence ∧ JsonText.Writable floatRepr e.details
  sequence : t.sequence = loggedCount log

namespace AuditTable

variable {t : AuditTable} {log : List AuditEntry}

theorem inv_start : Inv floatRepr [] {} where
  events := ⟨[], rfl, fun _ => iff_of_false List.not_mem_nil History.not_standing_nil,
    List.nodup_nil, fun _ h => absurd h List.not_mem_nil⟩
  sequence := rfl

theorem inv_insert (h : Inv floatRepr log t) (sessionId action : String) {details : Json}
    (hdetails : JsonText.Writable floatRepr details) (timestamp : ℚ) :
    Inv floatRepr (log ++ [.logged ⟨loggedCount log + 1, sessionId, action, details, timestamp⟩])
      (t.insert floatRepr sessionId action details timestamp) := by
  rw [← h.sequence]
  obtain ⟨events, hrows, hstands, hids, hevents⟩ := h.events
  let event : AuditEvent := ⟨t.sequence + 1, sessionId, action, details, timestamp⟩
  refine ⟨⟨events ++ [event], ?_, fun e => ?_, ?_, fun e he => ?_⟩, ?_⟩
  · rw [insert, hrows, List.map_append]
    rfl
  · rw [List.mem_append, List.mem_singleton, hstands, stands_logged, or_comm]
  · rw [List.map_append, List.nodup_append]
    refine ⟨hids, List.nodup_singleton _, fun i hi j hj => ?_⟩
    obtain ⟨e, he, rfl⟩ := List.mem_map.mp hi
    obtain rfl := List.mem_singleton.mp hj
    have hle := (hevents e he).1
    show e.id ≠ t.sequence + 1
    omega
  · rcases List.mem_append.mp he with he | he
    · obtain ⟨hle, hwritable⟩ := hevents e he
      exact ⟨Nat.le_succ_of_le hle, hwritable⟩
    · obtain rfl := List.mem_singleton.mp he
      exact ⟨le_rfl, hdetails⟩
  · rw [insert, h.sequence, loggedCount, loggedCount, List.countP_append, List.countP_singleton]
    rfl

theorem inv_delete (h : Inv floatRepr log t) (cutoff : ℚ) :
    Inv floatRepr (log ++ [.cleaned cutoff]) (t.delete cutoff) := by
  obtain ⟨events, hrows, hstands, hids, hevents⟩ := h.events
  refine ⟨⟨events.filter fun e => decide (cutoff ≤ e.timestamp), ?_, fun e => ?_, ?_,
    fun e he => ?_⟩, ?_⟩
  · rw [delete, hrows, List.filter_map]
    rfl
  · rw [List.mem_filter, hstands, stands_cleaned, decide_eq_true_iff]
  · exact hids.sublist (List.filter_sublist.map _)
  · exact hevents e (List.mem_filter.mp he).1
  · rw [delete, h.sequence, loggedCount, loggedCount, List.countP_append, List.countP_singleton]
    rfl

end AuditTable

end Rows

namespace AuditLogger

variable {clock : ℕ → ℚ} {floatRepr : Double → List Char} {a : AuditLogger} {v : View}

/-- **The tables show a view**: the one of the connection what is seen, and the committed one what
is kept. -/
structure Shows (floatRepr : Double → List Char) (v : View) (a : AuditLogger) : Prop where
  table : a.table.Inv floatRepr v.seen
  committed : a.committed.Inv floatRepr v.kept
  reads : v.reads = a.reads

/-- A statement and the commit after it. -/
theorem Shows.write {t : AuditTable} {entry : AuditEntry} (h : Shows floatRepr v a)
    (ht : t.Inv floatRepr (v.seen ++ [entry])) (w : Written) :
    Shows floatRepr (v.change w entry) ({ a with reads := a.reads + 1 }.write w t) := by
  have hreads : v.reads + 1 = a.reads + 1 := congrArg (· + 1) h.reads
  cases w with
  | succeeds => exact ⟨ht, ht, hreads⟩
  | raises => exact ⟨h.table, h.committed, hreads⟩
  | commitRaises => exact ⟨ht, h.committed, hreads⟩

/-- The details that are logged can be written. -/
def Op.Writable (floatRepr : Double → List Char) : Op → Prop
  | .log _ _ _ (some details) => JsonText.Writable floatRepr (.obj details.entries)
  | _ => True

theorem Shows.step (h : Shows floatRepr v a) {op : Op} (hop : op.Writable floatRepr) :
    Shows floatRepr (v.step clock op) (a.step clock floatRepr op) := by
  cases op with
  | log w sessionId action details =>
    have hdetails : JsonText.Writable floatRepr (.obj (details.getD .empty).entries) := by
      cases details with
      | none => exact ⟨List.nodup_nil, trivial⟩
      | some details => exact hop
    rw [View.step, h.reads]
    exact h.write (AuditTable.inv_insert h.table sessionId action hdetails _) w
  | cleanup w retentionDays =>
    rw [View.step, h.reads]
    exact h.write (AuditTable.inv_delete h.table _) w
  | restart => exact ⟨h.committed, h.committed, h.reads⟩

theorem shows_run {ops : List Op} (hops : ∀ op ∈ ops, op.Writable floatRepr) :
    Shows floatRepr (ops.foldl (View.step clock) {}) (run clock floatRepr ops) := by
  have hfold : ∀ {v a}, Shows floatRepr v a → Shows floatRepr (ops.foldl (View.step clock) v)
      (ops.foldl (AuditLogger.step clock floatRepr) a) := by
    induction ops with
    | nil => exact id
    | cons op ops ih =>
      intro v a h
      exact ih (fun op' hop' => hops op' (List.mem_cons_of_mem _ hop'))
        (h.step (hops op List.mem_cons_self))
  exact hfold ⟨AuditTable.inv_start, AuditTable.inv_start, rfl⟩

/-! ### What a query returns -/

/-- What `ORDER BY timestamp DESC` promises. -/
structure NewestFirst (orderBy : List AuditRow → List AuditRow) : Prop where
  perm : ∀ rows, (orderBy rows).Perm rows
  pairwise : ∀ rows, (orderBy rows).Pairwise fun r r' => r'.timestamp ≤ r.timestamp

/-- Rows that are those of some events, in any order. -/
theorem exists_events_of_perm {events : List AuditEvent} {rows : List AuditRow}
    (h : rows.Perm (events.map (AuditEvent.row floatRepr)))
    (hwritable : ∀ e ∈ events, JsonText.Writable floatRepr e.details) :
    ∃ ordered : List AuditEvent, rows = ordered.map (AuditEvent.row floatRepr) ∧
      ordered.Perm events := by
  refine ⟨rows.filterMap AuditRow.event?, ?_, ?_⟩
  · have hrow : ∀ r ∈ rows, ∃ e ∈ events, e.row floatRepr = r ∧ r.event? = some e := by
      intro r hr
      obtain ⟨e, he, rfl⟩ := List.mem_map.mp (h.mem_iff.mp hr)
      exact ⟨e, he, rfl, event?_row (hwritable e he)⟩
    clear h
    induction rows with
    | nil => rfl
    | cons r rows ih =>
      obtain ⟨e, -, hrow', hevent⟩ := hrow r List.mem_cons_self
      rw [List.filterMap_cons_some hevent, List.map_cons, hrow',
        ← ih fun r' hr' => hrow r' (List.mem_cons_of_mem _ hr')]
  · refine (h.filterMap _).trans (List.Perm.of_eq ?_)
    clear h
    induction events with
    | nil => rfl
    | cons e events ih =>
      rw [List.map_cons, List.filterMap_cons_some (event?_row (hwritable e List.mem_cons_self)),
        ih fun e' he' => hwritable e' (List.mem_cons_of_mem _ he')]

theorem mapM_event?_map {events : List AuditEvent}
    (hwritable : ∀ e ∈ events, JsonText.Writable floatRepr e.details) :
    (events.map (AuditEvent.row floatRepr)).mapM AuditRow.event? = some events := by
  induction events with
  | nil => rfl
  | cons e events ih =>
    rw [List.map_cons, List.mapM_cons, event?_row (hwritable e List.mem_cons_self),
      ih fun e' he' => hwritable e' (List.mem_cons_of_mem _ he')]
    rfl

theorem limitRows_map {α β : Type} (f : α → β) (limit : ℤ) (l : List α) :
    limitRows limit (l.map f) = (limitRows limit l).map f := by
  unfold limitRows
  split_ifs
  · exact (List.map_take ..).symm
  · rfl

theorem limitRows_isPrefix {α : Type} (limit : ℤ) (l : List α) : limitRows limit l <+: l := by
  unfold limitRows
  split_ifs
  · exact List.take_prefix _ _
  · exact List.prefix_rfl

/-- What is cut off comes after everything that is not. -/
theorem mem_limitRows_or {α : Type} {r : α → α → Prop} {limit : ℤ} {l : List α}
    (h : l.Pairwise r) {x : α} (hx : x ∈ l) :
    x ∈ limitRows limit l ∨
      ((limitRows limit l).length : ℤ) = limit ∧ ∀ y ∈ limitRows limit l, r y x := by
  unfold limitRows
  split_ifs with hlimit
  · rw [← List.take_append_drop limit.toNat l] at h hx
    rcases List.mem_append.mp hx with hx | hx
    · exact .inl hx
    · refine .inr ⟨?_, fun y hy => (List.pairwise_append.mp h).2.2 y hy x hx⟩
      have hlen := List.length_pos_of_mem hx
      rw [List.length_drop] at hlen
      rw [List.length_take]
      omega
  · exact .inl hx

/-- **What is logged is what is found**: after any logging, cleaning up and restarting, with any
errors in between, a query returns what the history says. -/
theorem answers_run {ops : List Op} (hops : ∀ op ∈ ops, op.Writable floatRepr)
    {orderBy : List AuditRow → List AuditRow} (horder : NewestFirst orderBy) (f : AuditFilter)
    (limit : ℤ) :
    ∃ answer, (run clock floatRepr ops).query orderBy f limit = some answer ∧
      Answers (history clock ops) f limit answer := by
  have hshows : Shows floatRepr (ops.foldl (View.step clock) {}) (run clock floatRepr ops) :=
    shows_run hops
  obtain ⟨events, hrows, hstands, hids, hevents⟩ := hshows.table.events
  set t := (run clock floatRepr ops).table with ht
  let found := events.filter fun e => f.matches e.sessionId e.action e.timestamp
  have hfound : (t.rows.filter fun row => f.matches row.sessionId row.action row.timestamp) =
      found.map (AuditEvent.row floatRepr) := by
    rw [hrows, List.filter_map]
    rfl
  have hwritable : ∀ e ∈ found, JsonText.Writable floatRepr e.details :=
    fun e he => (hevents e (List.mem_filter.mp he).1).2
  have hfoundPerm := horder.perm
    (t.rows.filter fun row => f.matches row.sessionId row.action row.timestamp)
  rw [hfound] at hfoundPerm
  obtain ⟨ordered, hordered, hperm⟩ := exists_events_of_perm hfoundPerm hwritable
  rw [← hfound] at hordered
  have hsorted : ordered.Pairwise fun e e' => e'.timestamp ≤ e.timestamp := by
    have hpairwise := horder.pairwise
      (t.rows.filter fun row => f.matches row.sessionId row.action row.timestamp)
    rw [hordered, List.pairwise_map] at hpairwise
    exact hpairwise
  have hlimited := limitRows_isPrefix limit ordered
  have hmem : ∀ e, e ∈ ordered ↔
      Stands (history clock ops) e ∧ f.matches e.sessionId e.action e.timestamp = true := by
    intro e
    rw [hperm.mem_iff, List.mem_filter, hstands, history]
  refine ⟨limitRows limit ordered, ?_, fun e he => (hmem e).mp (hlimited.subset he),
    hsorted.sublist hlimited.sublist, ?_, fun hlimit => ?_, fun e he hf => ?_⟩
  · rw [query, AuditTable.select, ← ht, hordered, limitRows_map]
    exact mapM_event?_map fun e he => hwritable e (hperm.mem_iff.mp (hlimited.subset he))
  · have hnodup : (ordered.map AuditEvent.id).Nodup :=
      (hperm.map _).nodup_iff.mpr (hids.sublist (List.filter_sublist.map _))
    exact hnodup.sublist (hlimited.sublist.map _)
  · rw [limitRows, if_pos hlimit, List.length_take]
    omega
  · exact mem_limitRows_or hsorted ((hmem e).mpr ⟨he, hf⟩)

/-- An event is lost, one comes back with a later commit, and one is too old in the end. -/
def lostAndKept : List Op :=
  [.log .succeeds "a" "call" none,
    .log .commitRaises "a" "call" (some (.set .empty "tool" (.str "jira__search"))),
    .log .raises "b" "call" none, .cleanup .raises 0, .log .succeeds "b" "connect" none,
    .log .commitRaises "b" "call" none, .restart, .cleanup .succeeds 5]

/-- A clock that goes on by a day. -/
def days (n : ℕ) : ℚ := n * 86400

/-- The order of a stable sort. -/
def stableOrder : List AuditRow → List AuditRow :=
  List.insertionSort fun r r' => r'.timestamp ≤ r.timestamp

theorem newestFirst_stableOrder : NewestFirst stableOrder where
  perm rows := List.perm_insertionSort _ rows
  pairwise rows := by
    have : Std.Total fun r r' : AuditRow => r'.timestamp ≤ r.timestamp :=
      ⟨fun r r' => le_total r'.timestamp r.timestamp⟩
    have : IsTrans AuditRow fun r r' => r'.timestamp ≤ r.timestamp :=
      ⟨fun _ _ _ h h' => h'.trans h⟩
    exact List.pairwise_insertionSort _ rows

theorem answers_run_lostAndKept :
    ∃ answer, (run days (fun _ => []) lostAndKept).query stableOrder {} 10 = some answer ∧
      answer.map (fun e => (e.id, e.sessionId, e.action, e.timestamp)) =
        [(3, "b", "connect", 4 * 86400), (2, "a", "call", 86400)] ∧
      Answers (history days lostAndKept) {} 10 answer := by
  have hops : ∀ op ∈ lostAndKept, op.Writable fun _ => [] := by
    intro op hop
    simp only [lostAndKept, List.mem_cons, List.not_mem_nil, or_false] at hop
    rcases hop with rfl | rfl | rfl | rfl | rfl | rfl | rfl | rfl
    case inr.inl => exact ⟨List.nodup_singleton _, trivial, trivial⟩
    all_goals trivial
  obtain ⟨answer, hanswer, hanswers⟩ : ∃ answer,
      (run days (fun _ => []) lostAndKept).query stableOrder {} 10 = some answer ∧
        Answers (history days lostAndKept) {} 10 answer :=
    answers_run hops newestFirst_stableOrder {} 10
  refine ⟨answer, hanswer, ?_, hanswers⟩
  have hfound : ((run days (fun _ => []) lostAndKept).query stableOrder {} 10).map
      (List.map fun e => (e.id, e.sessionId, e.action, e.timestamp)) =
        some [(3, "b", "connect", 4 * 86400), (2, "a", "call", 86400)] := by
    decide +kernel
  rw [hanswer] at hfound
  exact Option.some.inj hfound

end AuditLogger

end Security

end SlmMcpHub
