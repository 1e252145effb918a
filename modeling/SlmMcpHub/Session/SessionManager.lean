import SlmMcpHub.Library.History
import SlmMcpHub.Library.Json
import Mathlib.Algebra.Order.Field.Rat
import Mathlib.Order.Monotone.Basic
import Mathlib.Tactic.Linarith

/-!
# Sessions

`session/manager.py`. The manager finds out that a session has expired when it looks at it, and
takes it away then; nothing else tells. What it answers is compared with a history that is made
outside of it: of the operations, of what they were answered, and of what the clock said.

A clock is what `time.time()` returns, one call after the other.

## Main definitions

* `SessionManager`, with its operations
* `history` — what the operations say of the identifiers
* `Kept` — what a history says about an identifier
* `Sheds` — nothing has happened but that expired sessions were removed

## Main results

* `SessionManager.run_correct`
-/

namespace SlmMcpHub

namespace Session

/-- `SessionInfo` -/
structure SessionInfo where
  sessionId : String
  clientName : String
  connectedAt : ℚ
  lastActivity : ℚ
  projectPath : String := ""
  permissions : List (String × Json) := []

/-- `SessionManager` -/
structure SessionManager where
  sessions : Dict String SessionInfo := .empty
  maxSessions : ℤ
  timeoutSeconds : ℚ
  /-- How often the clock has been read. -/
  reads : ℕ := 0

namespace SessionManager

/-! ### The manager -/

variable (clock : ℕ → ℚ) (m : SessionManager)

/-- `time.time()` -/
def time : ℚ × SessionManager := (clock m.reads, { m with reads := m.reads + 1 })

/-- `_is_expired` -/
def isExpired (info : SessionInfo) : Bool × SessionManager :=
  let (now, m) := m.time clock
  (m.timeoutSeconds < now - info.lastActivity, m)

/-- `_remove` -/
def remove (sessionId : String) : Bool × SessionManager :=
  if m.sessions.contains sessionId then
    (true, { m with sessions := m.sessions.erase sessionId })
  else (false, m)

/-- The identifiers of the expired ones of some sessions. -/
def expired (m : SessionManager) : List (String × SessionInfo) → List String × SessionManager
  | [] => ([], m)
  | (sid, info) :: rest =>
    let (isExpired, m) := m.isExpired clock info
    let (sids, m) := m.expired rest
    (if isExpired then sid :: sids else sids, m)

/-- `_cleanup_expired` -/
def cleanupExpired : SessionManager :=
  let (sids, m) := m.expired clock m.sessions.entries
  sids.foldl (fun m sid => (m.remove sid).2) m

/-- `session_id or str(uuid.uuid4())` -/
def idOr (uuid : String) : Option String → String
  | none => uuid
  | some sessionId => if sessionId = "" then uuid else sessionId

/-- `self._sessions[session_id] = info` -/
def store (info : SessionInfo) : SessionManager :=
  { m with sessions := m.sessions.set info.sessionId info }

/-- `create_session`, given the identifier it makes up if it has none: what it returns, or the
message of the `ValueError`. -/
def createSession (clientName projectPath : String)
    (permissions : Option (List (String × Json))) (sessionId : Option String) (uuid : String) :
    Except String String × SessionManager :=
  let m := m.cleanupExpired clock
  if m.maxSessions ≤ m.sessions.size then
    (.error s!"Max sessions ({m.maxSessions}) reached. Close an existing session first.", m)
  else
    let sessionId := idOr uuid sessionId
    let (now, m) := m.time clock
    let info : SessionInfo :=
      { sessionId, clientName, connectedAt := now, lastActivity := now, projectPath,
        permissions := permissions.getD [] }
    (.ok sessionId, m.store info)

/-- `get_session` -/
def getSession (sessionId : String) : Option SessionInfo × SessionManager :=
  match m.sessions.get? sessionId with
  | none => (none, m)
  | some info =>
    match m.isExpired clock info with
    | (true, m) => (none, (m.remove sessionId).2)
    | (false, m) => (some info, m)

/-- `touch` -/
def touch (sessionId : String) : Bool × SessionManager :=
  match m.sessions.get? sessionId with
  | none => (false, m)
  | some info =>
    match m.isExpired clock info with
    | (true, m) => (false, (m.remove sessionId).2)
    | (false, m) =>
      let (now, m) := m.time clock
      let updated := { info with lastActivity := now }
      (true, { m with sessions := m.sessions.set sessionId updated })

/-- `destroy_session` -/
def destroySession (sessionId : String) : Bool × SessionManager := m.remove sessionId

/-- `list_sessions` -/
def listSessions : List SessionInfo × SessionManager :=
  let m := m.cleanupExpired clock
  (m.sessions.values, m)

/-- What `get_stats` returns. -/
structure Stats where
  activeSessions : ℕ
  maxSessions : ℤ
  timeoutSeconds : ℚ
  /-- The beginning of the identifier, and the other fields that are shown. -/
  sessions : List (String × String × ℚ × ℚ × String)

/-- `get_stats` -/
def getStats : Stats × SessionManager :=
  let m := m.cleanupExpired clock
  ({ activeSessions := m.sessions.size
     maxSessions := m.maxSessions
     timeoutSeconds := m.timeoutSeconds
     sessions := m.sessions.values.map fun s =>
       (String.ofList (s.sessionId.toList.take 8) ++ "...", s.clientName, s.connectedAt,
         s.lastActivity, s.projectPath) }, m)

/-- An operation. -/
inductive Op where
  | create (clientName projectPath : String) (permissions : Option (List (String × Json)))
      (sessionId : Option String) (uuid : String)
  | get (sessionId : String)
  | touch (sessionId : String)
  | destroy (sessionId : String)
  | list
  | stats

def step (m : SessionManager) : Op → SessionManager
  | .create clientName projectPath permissions sessionId uuid =>
    (m.createSession clock clientName projectPath permissions sessionId uuid).2
  | .get sessionId => (m.getSession clock sessionId).2
  | .touch sessionId => (m.touch clock sessionId).2
  | .destroy sessionId => (m.destroySession sessionId).2
  | .list => (m.listSessions clock).2
  | .stats => (m.getStats clock).2

/-- A sequence of operations. -/
def run (maxSessions : ℤ) (timeoutSeconds : ℚ) (ops : List Op) : SessionManager :=
  ops.foldl (step clock) { maxSessions, timeoutSeconds }

end SessionManager

/-! ### The history -/

/-- What was done to an identifier, and when. -/
inductive Entry where
  | created (id : String) (time : ℚ)
  /-- A successful touch: when it began, and when it was over. -/
  | touched (id : String) (start stop : ℚ)
  | destroyed (id : String)
  deriving DecidableEq

/-- The identifier an entry is about. -/
def Entry.sessionId : Entry → String
  | .created id _ | .touched id _ _ | .destroyed id => id

namespace SessionManager

variable (clock : ℕ → ℚ)

/-- What an operation adds to the history, by what it answers. An activity is dated with what the
clock said last. -/
def observe (m : SessionManager) : Op → List Entry
  | .create clientName projectPath permissions sessionId uuid =>
    match m.createSession clock clientName projectPath permissions sessionId uuid with
    | (.ok id, m') => [.created id (clock (m'.reads - 1))]
    | (.error _, _) => []
  | .touch id =>
    match m.touch clock id with
    | (true, m') => [.touched id (clock m.reads) (clock (m'.reads - 1))]
    | (false, _) => []
  | .destroy id => [.destroyed id]
  | .get _ | .list | .stats => []

/-- The history of a sequence of operations. -/
def history (maxSessions : ℤ) (timeoutSeconds : ℚ) (ops : List Op) : List Entry :=
  History.trace (step clock) (observe clock) { maxSessions, timeoutSeconds } ops

end SessionManager

/-! ### What a history says -/

/-- The touches of an identifier. -/
def touches (id : String) (log : List Entry) : List (ℚ × ℚ) :=
  log.filterMap fun
    | .touched sessionId start stop => if sessionId = id then some (start, stop) else none
    | _ => none

/-- **Nothing went longer than the timeout**: from a time on to the first touch, from each touch to
the next one, and from the last one until now. -/
def Refreshed (timeout : ℚ) (now : ℚ) : ℚ → List (ℚ × ℚ) → Prop
  | last, [] => now - last ≤ timeout
  | last, (start, stop) :: rest => start - last ≤ timeout ∧ Refreshed timeout now stop rest

/-- What was done since the last creation of an identifier, which was at a time. -/
structure Since (log : List Entry) (id : String) (time : ℚ) (after : List Entry) : Prop where
  suffix : ∃ before, log = before ++ .created id time :: after
  notCreated : ∀ time, .created id time ∉ after
  notDestroyed : .destroyed id ∉ after

/-- **An identifier is kept**: it was created, has not been destroyed since its last creation, and
has not gone longer than the timeout without a touch. -/
def Kept (timeout : ℚ) (log : List Entry) (id : String) (now : ℚ) : Prop :=
  ∃ time after, Since log id time after ∧ Refreshed timeout now time (touches id after)

/-! ### One more entry of a history -/

section Histories

variable {timeout now time : ℚ} {log after : List Entry} {id : String} {e : Entry}

theorem since_concat : Since (log ++ [e]) id time after ↔
    e = .created id time ∧ after = [] ∨
      ∃ init, after = init ++ [e] ∧ Since log id time init ∧ e ≠ .destroyed id ∧
        ∀ time, e ≠ .created id time := by
  constructor
  · rintro ⟨⟨before, hlog⟩, hcreated, hdestroyed⟩
    obtain ⟨-, he, rfl⟩ | ⟨init, rfl, hinit⟩ := History.concat_eq_append_cons.mp hlog
    · exact .inl ⟨he, rfl⟩
    · refine .inr ⟨init, rfl, ⟨⟨before, hinit⟩, fun t ht => ?_, fun hd => ?_⟩, ?_, fun t => ?_⟩
      · exact hcreated t (List.mem_append_left _ ht)
      · exact hdestroyed (List.mem_append_left _ hd)
      · rintro rfl
        exact hdestroyed (List.mem_append_right _ (List.mem_singleton_self _))
      · rintro rfl
        exact hcreated t (List.mem_append_right _ (List.mem_singleton_self _))
  · rintro (⟨rfl, rfl⟩ | ⟨init, rfl, ⟨⟨before, rfl⟩, hcreated, hdestroyed⟩, hd, hc⟩)
    · exact ⟨⟨log, rfl⟩, nofun, nofun⟩
    · refine ⟨⟨before, by simp⟩, fun t ht => ?_, fun hmem => ?_⟩
      · rcases List.mem_append.mp ht with ht | ht
        · exact hcreated t ht
        · exact hc t (List.mem_singleton.mp ht).symm
      · rcases List.mem_append.mp hmem with hmem | hmem
        · exact hdestroyed hmem
        · exact hd (List.mem_singleton.mp hmem).symm

theorem refreshed_concat {l : List (ℚ × ℚ)} {start stop : ℚ} :
    Refreshed timeout now time (l ++ [(start, stop)]) ↔
      Refreshed timeout start time l ∧ now - stop ≤ timeout := by
  induction l generalizing time with
  | nil => rfl
  | cons p l ih => rw [List.cons_append, Refreshed, Refreshed, ih, and_assoc]

/-- A creation. -/
theorem kept_created : Kept timeout (log ++ [.created id time]) id now ↔ now - time ≤ timeout := by
  constructor
  · rintro ⟨t, after, hsince, hrefreshed⟩
    obtain ⟨ht, rfl⟩ | ⟨-, -, -, -, hne⟩ := since_concat.mp hsince
    · cases ht
      exact hrefreshed
    · exact absurd rfl (hne time)
  · exact fun h => ⟨time, [], since_concat.mpr (.inl ⟨rfl, rfl⟩), h⟩

/-- A touch. -/
theorem kept_touched {start stop : ℚ} : Kept timeout (log ++ [.touched id start stop]) id now ↔
    Kept timeout log id start ∧ now - stop ≤ timeout := by
  have htouches : ∀ init, touches id (init ++ [.touched id start stop]) =
      touches id init ++ [(start, stop)] := by
    intro init
    simp [touches]
  constructor
  · rintro ⟨time, after, hsince, hrefreshed⟩
    obtain ⟨ht, -⟩ | ⟨init, rfl, hsince, -⟩ := since_concat.mp hsince
    · cases ht
    · rw [htouches, refreshed_concat] at hrefreshed
      exact ⟨⟨time, init, hsince, hrefreshed.1⟩, hrefreshed.2⟩
  · rintro ⟨⟨time, init, hsince, hrefreshed⟩, hstop⟩
    refine ⟨time, _, since_concat.mpr (.inr ⟨init, rfl, hsince, nofun, nofun⟩), ?_⟩
    rw [htouches, refreshed_concat]
    exact ⟨hrefreshed, hstop⟩

/-- A removal. -/
theorem not_kept_destroyed : ¬ Kept timeout (log ++ [.destroyed id]) id now := by
  rintro ⟨time, after, hsince, -⟩
  obtain ⟨ht, -⟩ | ⟨-, -, -, hne, -⟩ := since_concat.mp hsince
  · cases ht
  · exact hne rfl

/-- Something about another identifier. -/
theorem kept_other (he : e.sessionId ≠ id) :
    Kept timeout (log ++ [e]) id now ↔ Kept timeout log id now := by
  have hnone : ∀ init, touches id (init ++ [e]) = touches id init := by
    intro init
    cases e with
    | touched sid start stop => simp [touches, show sid ≠ id from he]
    | created | destroyed => simp [touches]
  constructor
  · rintro ⟨time, after, hsince, hrefreshed⟩
    obtain ⟨rfl, -⟩ | ⟨init, rfl, hsince, -⟩ := since_concat.mp hsince
    · exact absurd rfl he
    · exact ⟨time, init, hsince, hnone init ▸ hrefreshed⟩
  · rintro ⟨time, init, hsince, hrefreshed⟩
    refine ⟨time, _, since_concat.mpr (.inr ⟨init, rfl, hsince, ?_, ?_⟩), ?_⟩
    · rintro rfl
      exact he rfl
    · rintro t rfl
      exact he rfl
    · rw [hnone]
      exact hrefreshed

end Histories

/-! ### What operations remove -/

namespace SessionManager

variable {clock : ℕ → ℚ} {m m' : SessionManager} {id : String} {info : SessionInfo} {now : ℚ}

/-- **Expired sessions have been removed**, as of what the clock said in between, and nothing else
has happened. -/
structure Sheds (clock : ℕ → ℚ) (m m' : SessionManager) : Prop where
  reads : m.reads ≤ m'.reads
  maxSessions : m'.maxSessions = m.maxSessions
  timeoutSeconds : m'.timeoutSeconds = m.timeoutSeconds
  sessions : ∀ id info, m.sessions.get? id = some info → m'.sessions.get? id = some info ∨
    m'.sessions.get? id = none ∧
      ∃ n, m.reads ≤ n ∧ n < m'.reads ∧ m.timeoutSeconds < clock n - info.lastActivity
  none : ∀ id, m.sessions.get? id = none → m'.sessions.get? id = none

theorem remove_snd (m : SessionManager) (id : String) :
    (m.remove id).2 = { m with sessions := m.sessions.erase id } := by
  rw [remove]
  split
  · rfl
  · rename_i h
    have hself : m.sessions.erase id = m.sessions := by
      refine Dict.ext (List.filter_eq_self.mpr fun p hp => decide_eq_true ?_)
      rintro rfl
      exact h (Dict.contains_iff.mpr (List.mem_map_of_mem hp))
    rw [hself]

theorem foldl_remove (m : SessionManager) (sids : List String) :
    sids.foldl (fun m sid => (m.remove sid).2) m =
      { m with sessions := sids.foldl Dict.erase m.sessions } := by
  induction sids generalizing m with
  | nil => rfl
  | cons sid sids ih => rw [List.foldl_cons, ih, remove_snd, List.foldl_cons]

theorem expired_cons (m : SessionManager) (sid : String) (info : SessionInfo)
    (l : List (String × SessionInfo)) : m.expired clock ((sid, info) :: l) =
      (if (m.isExpired clock info).1 then sid :: (expired clock (m.isExpired clock info).2 l).1
        else (expired clock (m.isExpired clock info).2 l).1,
        (expired clock (m.isExpired clock info).2 l).2) := rfl

/-- The clock has been read to tell. -/
theorem isExpired_eq (m : SessionManager) (info : SessionInfo) : m.isExpired clock info =
    (decide (m.timeoutSeconds < clock m.reads - info.lastActivity),
      { m with reads := m.reads + 1 }) := rfl

/-- The sessions are looked at one after the other, and the clock is read for each. -/
theorem expired_spec (clock : ℕ → ℚ) (m : SessionManager) (l : List (String × SessionInfo)) :
    (m.expired clock l).2 = { m with reads := m.reads + l.length } ∧
      (∀ sid ∈ (m.expired clock l).1, ∃ info, (sid, info) ∈ l ∧
        ∃ n, m.reads ≤ n ∧ n < m.reads + l.length ∧
          m.timeoutSeconds < clock n - info.lastActivity) ∧
      ∀ sid info, (sid, info) ∈ l → sid ∉ (m.expired clock l).1 →
        ∃ n, m.reads ≤ n ∧ clock n - info.lastActivity ≤ m.timeoutSeconds := by
  induction l generalizing m with
  | nil => exact ⟨rfl, nofun, nofun⟩
  | cons p l ih =>
    obtain ⟨sid, info⟩ := p
    obtain ⟨hrest, hexpired, hfresh⟩ := ih { m with reads := m.reads + 1 }
    have hmem : ∀ i, i ∈ (m.expired clock ((sid, info) :: l)).1 ↔
        i = sid ∧ m.timeoutSeconds < clock m.reads - info.lastActivity ∨
          i ∈ (expired clock { m with reads := m.reads + 1 } l).1 := by
      intro i
      rw [expired_cons, isExpired_eq]
      by_cases hlate : m.timeoutSeconds < clock m.reads - info.lastActivity <;> simp [hlate]
    refine ⟨?_, fun i hi => ?_, fun i info' hi hnot => ?_⟩
    · rw [expired_cons, isExpired_eq, hrest, List.length_cons, Nat.add_right_comm, Nat.add_assoc]
    · rcases (hmem i).mp hi with ⟨rfl, hlate⟩ | hi
      · exact ⟨info, List.mem_cons_self .., m.reads, Nat.le_refl _, by simp, hlate⟩
      · obtain ⟨info', hmem, n, hge, hlt, hlate⟩ := hexpired i hi
        have hlt : n < m.reads + 1 + l.length := hlt
        rw [List.length_cons]
        exact ⟨info', List.mem_cons_of_mem _ hmem, n, (Nat.le_succ _).trans hge, by omega, hlate⟩
    · obtain ⟨hnow, hlater⟩ := not_or.mp (mt (hmem i).mpr hnot)
      rcases List.mem_cons.mp hi with heq | hi
      · obtain ⟨rfl, rfl⟩ := Prod.mk.inj heq
        exact ⟨m.reads, Nat.le_refl _, not_lt.mp fun hlate => hnow ⟨rfl, hlate⟩⟩
      · obtain ⟨n, hge, hfresh⟩ := hfresh i info' hi hlater
        exact ⟨n, (Nat.le_succ _).trans hge, hfresh⟩

theorem cleanupExpired_eq (m : SessionManager) : m.cleanupExpired clock =
    { m with
      sessions := (m.expired clock m.sessions.entries).1.foldl Dict.erase m.sessions
      reads := m.reads + m.sessions.entries.length } := by
  have hfold : m.cleanupExpired clock = (m.expired clock m.sessions.entries).1.foldl
      (fun m sid => (m.remove sid).2) (m.expired clock m.sessions.entries).2 := rfl
  rw [hfold, foldl_remove, (expired_spec clock m m.sessions.entries).1]

theorem get?_cleanupExpired (m : SessionManager) (id : String) :
    (m.cleanupExpired clock).sessions.get? id =
      if id ∈ (m.expired clock m.sessions.entries).1 then none else m.sessions.get? id := by
  rw [cleanupExpired_eq]
  exact Dict.get?_foldl_erase ..

/-- What is left after a clean-up had not expired when it was looked at. -/
theorem fresh_of_cleanupExpired
    (h : (m.cleanupExpired clock).sessions.get? id = some info) : m.sessions.get? id = some info ∧
      ∃ n, m.reads ≤ n ∧ clock n - info.lastActivity ≤ m.timeoutSeconds := by
  rw [get?_cleanupExpired] at h
  split at h
  · cases h
  · next hnot =>
    obtain ⟨-, -, hfresh⟩ := expired_spec clock m m.sessions.entries
    exact ⟨h, hfresh id info (Dict.mem_entries_iff.mpr h) hnot⟩

theorem sheds_cleanupExpired (clock : ℕ → ℚ) (m : SessionManager) :
    Sheds clock m (m.cleanupExpired clock) := by
  obtain ⟨-, hexpired, -⟩ := expired_spec clock m m.sessions.entries
  have hreads : (m.cleanupExpired clock).reads = m.reads + m.sessions.entries.length := by
    rw [cleanupExpired_eq]
  refine ⟨by omega, ?_, ?_, fun id info hinfo => ?_, fun id hid => ?_⟩
  · rw [cleanupExpired_eq]
  · rw [cleanupExpired_eq]
  · rw [get?_cleanupExpired]
    by_cases hmem : id ∈ (m.expired clock m.sessions.entries).1
    · obtain ⟨info', hentry, n, hge, hlt, hlate⟩ := hexpired id hmem
      rw [Dict.mem_entries_iff, hinfo] at hentry
      rw [if_pos hmem, Option.some.inj hentry]
      exact .inr ⟨rfl, n, hge, hreads ▸ hlt, hlate⟩
    · rw [if_neg hmem]
      exact .inl hinfo
  · rw [get?_cleanupExpired, hid, ite_self]

/-- A session that has been looked at. -/
theorem sheds_isExpired (clock : ℕ → ℚ) (hinfo : m.sessions.get? id = some info) :
    Sheds clock m (if (m.isExpired clock info).1 then ((m.isExpired clock info).2.remove id).2
      else (m.isExpired clock info).2) := by
  have hlooked : (m.isExpired clock info).2 = { m with reads := m.reads + 1 } := rfl
  cases hlate : (m.isExpired clock info).1 with
  | false =>
    rw [if_neg Bool.false_ne_true, hlooked]
    exact ⟨Nat.le_succ _, rfl, rfl, fun _ _ h => .inl h, fun _ h => h⟩
  | true =>
    rw [if_pos rfl, hlooked, remove_snd]
    refine ⟨Nat.le_succ _, rfl, rfl, fun i info' hi => ?_, fun i hi => ?_⟩
    · rw [Dict.get?_erase]
      by_cases hid : id = i
      · rw [← hid, hinfo] at hi
        rw [if_pos hid, ← Option.some.inj hi]
        exact .inr ⟨rfl, m.reads, Nat.le_refl _, Nat.lt_succ_self _, of_decide_eq_true hlate⟩
      · rw [if_neg hid]
        exact .inl hi
    · rw [Dict.get?_erase, hi, ite_self]

theorem Sheds.size_le (h : Sheds clock m m') : m'.sessions.size ≤ m.sessions.size := by
  rw [← Dict.length_keys, ← Dict.length_keys]
  refine (List.subperm_of_subset m'.sessions.keys_nodup fun id hid => ?_).length_le
  by_contra hnot
  exact (Dict.get?_eq_none_iff.mp (h.none id (Dict.get?_eq_none_iff.mpr hnot))) hid

/-! ### The history and the sessions -/

/-- A session is there, and has not expired. -/
def Live (m : SessionManager) (id : String) (now : ℚ) : Prop :=
  ∃ info, m.sessions.get? id = some info ∧ now - info.lastActivity ≤ m.timeoutSeconds

theorem Live.mem_keys (h : m.Live id now) : id ∈ m.sessions.keys := by
  obtain ⟨info, hinfo, -⟩ := h
  exact Dict.mem_keys_iff.mpr ⟨info, hinfo⟩

theorem not_live_of_none (h : m.sessions.get? id = none) : ¬ m.Live id now := by
  rintro ⟨info, hinfo, -⟩
  rw [h] at hinfo
  cases hinfo

theorem live_iff (h : m.sessions.get? id = some info) :
    m.Live id now ↔ now - info.lastActivity ≤ m.timeoutSeconds := by
  constructor
  · rintro ⟨info', hinfo, hlive⟩
    rw [h] at hinfo
    rwa [Option.some.inj hinfo]
  · exact fun hlive => ⟨info, h, hlive⟩

/-- **What every sequence of operations keeps.** -/
structure Inv (clock : ℕ → ℚ) (log : List Entry) (m : SessionManager) : Prop where
  size : (m.sessions.size : ℤ) ≤ max 0 m.maxSessions
  live : ∀ id now, (∀ n < m.reads, clock n ≤ now) →
    (m.Live id now ↔ Kept m.timeoutSeconds log id now)

variable {log : List Entry}

theorem inv_start (clock : ℕ → ℚ) (maxSessions : ℤ) (timeoutSeconds : ℚ) :
    Inv clock [] { maxSessions, timeoutSeconds } where
  size := le_max_left _ _
  live id now _ := by
    refine iff_of_false (not_live_of_none rfl) ?_
    rintro ⟨time, after, hsince, hrefreshed⟩
    obtain ⟨before, hlog⟩ := hsince.suffix
    cases before <;> cases hlog

/-- What has expired stays so. -/
theorem Inv.sheds (h : Inv clock log m) (hs : Sheds clock m m') : Inv clock log m' where
  size := by
    rw [hs.maxSessions]
    exact (Int.ofNat_le.mpr hs.size_le).trans h.size
  live id now hnow := by
    rw [hs.timeoutSeconds, ← h.live id now fun n hn => hnow n (hn.trans_le hs.reads)]
    cases hm : m.sessions.get? id with
    | none => exact iff_of_false (not_live_of_none (hs.none id hm)) (not_live_of_none hm)
    | some info =>
      rw [live_iff hm]
      obtain hsame | ⟨hnone, n, -, hlt, hlate⟩ := hs.sessions id info hm
      · rw [live_iff hsame, hs.timeoutSeconds]
      · have hn := hnow n hlt
        refine iff_of_false (not_live_of_none hnone) (not_le.mpr ?_)
        linarith

/-- Something has been stored: what is new there lives just when the history says so. -/
theorem Inv.set {info : SessionInfo} {entry : Entry} (h : Inv clock log m)
    (hsize : (m.sessions.set id info).size ≤ (max 0 m.maxSessions).toNat)
    (hid : entry.sessionId = id)
    (hentry : ∀ now, (∀ n < m.reads, clock n ≤ now) →
      (now - info.lastActivity ≤ m.timeoutSeconds ↔
        Kept m.timeoutSeconds (log ++ [entry]) id now)) :
    Inv clock (log ++ [entry]) { m with sessions := m.sessions.set id info } where
  size := by
    show ((m.sessions.set id info).size : ℤ) ≤ max 0 m.maxSessions
    omega
  live i now hnow := by
    show (∃ x, (m.sessions.set id info).get? i = some x ∧ _) ↔ Kept m.timeoutSeconds _ i now
    rw [Dict.get?_set]
    by_cases hi : id = i
    · rw [if_pos hi, ← hi, ← hentry now hnow]
      simp
    · rw [if_neg hi, kept_other (by rw [hid]; exact hi), ← h.live i now hnow]
      rfl

/-- The clock has been read. -/
theorem sheds_time (m : SessionManager) : Sheds clock m (m.time clock).2 :=
  ⟨Nat.le_succ _, rfl, rfl, fun _ _ h => .inl h, fun _ h => h⟩

/-- What `create_session` comes to: it refuses, or it stores a session of the moment. -/
theorem createSession_spec (clock : ℕ → ℚ) (m : SessionManager) (clientName projectPath : String)
    (permissions : Option (List (String × Json))) (sessionId : Option String) (uuid : String) :
    m.createSession clock clientName projectPath permissions sessionId uuid =
        (.error s!"Max sessions ({m.maxSessions}) reached. Close an existing session first.",
          m.cleanupExpired clock) ∧ m.maxSessions ≤ (m.cleanupExpired clock).sessions.size ∨
      ∃ info, info.lastActivity = clock (m.cleanupExpired clock).reads ∧
        m.createSession clock clientName projectPath permissions sessionId uuid =
          (.ok (idOr uuid sessionId), { m.cleanupExpired clock with
            sessions := (m.cleanupExpired clock).sessions.set (idOr uuid sessionId) info
            reads := (m.cleanupExpired clock).reads + 1 }) ∧
        ((m.cleanupExpired clock).sessions.size : ℤ) < m.maxSessions := by
  have hmax := (sheds_cleanupExpired clock m).maxSessions
  rw [createSession, ← hmax]
  by_cases hfull : (m.cleanupExpired clock).maxSessions ≤ (m.cleanupExpired clock).sessions.size
  · exact .inl ⟨if_pos hfull, hfull⟩
  · exact .inr ⟨_, rfl, if_neg hfull, not_le.mp hfull⟩

/-- What `create_session` leaves. -/
theorem Inv.create (h : Inv clock log m) (clientName projectPath : String)
    (permissions : Option (List (String × Json))) (sessionId : Option String) (uuid : String) :
    Inv clock (log ++ observe clock m (.create clientName projectPath permissions sessionId uuid))
      (m.createSession clock clientName projectPath permissions sessionId uuid).2 := by
  have hsheds := sheds_cleanupExpired clock m
  have hclean := h.sheds hsheds
  obtain ⟨hrefused, -⟩ | ⟨info, hnow, hstored, hroom⟩ :=
    createSession_spec clock m clientName projectPath permissions sessionId uuid
  · rw [observe, hrefused, List.append_nil]
    exact hclean
  · rw [observe, hstored]
    refine (hclean.sheds (sheds_time _)).set ?_ rfl fun now _ => ?_
    · show ((m.cleanupExpired clock).sessions.set _ _).size ≤
        (max 0 (m.cleanupExpired clock).maxSessions).toNat
      rw [Dict.size_set, hsheds.maxSessions]
      split <;> omega
    · rw [Nat.add_sub_cancel, hnow]
      exact kept_created.symm

/-- What `touch` comes to. -/
theorem touch_spec (clock : ℕ → ℚ) (m : SessionManager) (id : String) :
    ((m.touch clock id).1 = false ∧ Sheds clock m (m.touch clock id).2 ∧
        ¬ m.Live id (clock m.reads)) ∨
      ∃ info, m.sessions.get? id = some info ∧ m.Live id (clock m.reads) ∧
        m.touch clock id = (true, { m with
          sessions := m.sessions.set id { info with lastActivity := clock (m.reads + 1) }
          reads := m.reads + 2 }) := by
  cases hid : m.sessions.get? id with
  | none =>
    rw [touch, hid]
    exact .inl ⟨rfl, ⟨Nat.le_refl _, rfl, rfl, fun _ _ h => .inl h, fun _ h => h⟩,
      not_live_of_none hid⟩
  | some info =>
    have hsheds := sheds_isExpired clock hid
    rw [isExpired_eq] at hsheds
    by_cases hlate : m.timeoutSeconds < clock m.reads - info.lastActivity
    · simp only [hlate, decide_true, if_true] at hsheds
      simp only [touch, hid, isExpired_eq, hlate, decide_true]
      exact .inl ⟨trivial, hsheds, (live_iff hid).not.mpr (not_le.mpr hlate)⟩
    · refine .inr ⟨info, rfl, (live_iff hid).mpr (not_lt.mp hlate), ?_⟩
      simp only [touch, hid, isExpired_eq, hlate, decide_false, time]

/-- What `touch` leaves. -/
theorem Inv.touch (hclock : Monotone clock) (h : Inv clock log m) (id : String) :
    Inv clock (log ++ observe clock m (.touch id)) (m.touch clock id).2 ∧
      ((m.touch clock id).1 = true ↔ Kept m.timeoutSeconds log id (clock m.reads)) := by
  have hstart := h.live id (clock m.reads) fun n hn => hclock hn.le
  rw [← hstart, observe]
  obtain ⟨hanswer, hsheds, hgone⟩ | ⟨info, hid, hlive, htouch⟩ := touch_spec clock m id
  · rcases hm : m.touch clock id with ⟨answer, m'⟩
    rw [hm] at hanswer hsheds
    obtain rfl := hanswer
    refine ⟨?_, iff_of_false Bool.false_ne_true hgone⟩
    rw [List.append_nil]
    exact h.sheds hsheds
  · rw [htouch]
    refine ⟨?_, iff_of_true rfl hlive⟩
    refine ((h.sheds (sheds_time _)).sheds (sheds_time _)).set ?_ rfl fun now _ => ?_
    · have hmem : id ∈ m.sessions.keys := Dict.mem_keys_iff.mpr ⟨info, hid⟩
      have hsize := h.size
      show (m.sessions.set _ _).size ≤ (max 0 m.maxSessions).toNat
      rw [Dict.size_set, if_pos hmem]
      omega
    · exact (kept_touched.trans (and_iff_right (hstart.mp hlive))).symm

/-- What `get_session` leaves, and what it returns. -/
theorem Inv.get (hclock : Monotone clock) (h : Inv clock log m) (id : String) :
    Inv clock log (m.getSession clock id).2 ∧
      ((m.getSession clock id).1.isSome = true ↔
        Kept m.timeoutSeconds log id (clock m.reads)) := by
  rw [← h.live id (clock m.reads) fun n hn => hclock hn.le]
  cases hid : m.sessions.get? id with
  | none =>
    simp only [getSession, hid]
    exact ⟨h, iff_of_false Bool.false_ne_true (not_live_of_none hid)⟩
  | some info =>
    have hsheds := sheds_isExpired clock hid
    rw [isExpired_eq] at hsheds
    rw [live_iff hid]
    by_cases hlate : m.timeoutSeconds < clock m.reads - info.lastActivity
    · simp only [hlate, decide_true, if_true] at hsheds
      simp only [getSession, hid, isExpired_eq, hlate, decide_true]
      exact ⟨h.sheds hsheds, iff_of_false Bool.false_ne_true (not_le.mpr hlate)⟩
    · simp only [hlate, decide_false, Bool.false_eq_true, if_false] at hsheds
      simp only [getSession, hid, isExpired_eq, hlate, decide_false]
      exact ⟨h.sheds hsheds, iff_of_true rfl (not_lt.mp hlate)⟩

/-- What `destroy_session` leaves. -/
theorem Inv.destroy (h : Inv clock log m) (id : String) :
    Inv clock (log ++ [.destroyed id]) (m.destroySession id).2 := by
  rw [destroySession, remove_snd]
  refine ⟨?_, fun i now hnow => ?_⟩
  · exact (Int.ofNat_le.mpr (Dict.size_erase_le m.sessions id)).trans h.size
  · by_cases hi : id = i
    · subst hi
      exact iff_of_false (not_live_of_none (Dict.get?_erase_self ..)) not_kept_destroyed
    · show (∃ x, (m.sessions.erase id).get? i = some x ∧ _) ↔ Kept m.timeoutSeconds _ i now
      rw [Dict.get?_erase_of_ne hi, kept_other (by exact hi), ← h.live i now hnow]
      rfl

theorem Inv.step (hclock : Monotone clock) (h : Inv clock log m) (op : Op) :
    Inv clock (log ++ observe clock m op) (m.step clock op) := by
  cases op with
  | create clientName projectPath permissions sessionId uuid =>
    exact h.create clientName projectPath permissions sessionId uuid
  | touch id => exact (h.touch hclock id).1
  | destroy id => exact h.destroy id
  | get id =>
    rw [observe, List.append_nil]
    exact (h.get hclock id).1
  | list | stats =>
    rw [observe, List.append_nil]
    exact h.sheds (sheds_cleanupExpired clock m)

theorem inv_run (hclock : Monotone clock) (maxSessions : ℤ) (timeoutSeconds : ℚ) (ops : List Op) :
    Inv clock (history clock maxSessions timeoutSeconds ops)
      (run clock maxSessions timeoutSeconds ops) :=
  History.trace_induction _ _ (fun _ _ op h => h.step hclock op)
    (inv_start clock maxSessions timeoutSeconds) ops

/-- No operation changes the settings. -/
theorem settings_step (m : SessionManager) (op : Op) :
    (m.step clock op).maxSessions = m.maxSessions ∧
      (m.step clock op).timeoutSeconds = m.timeoutSeconds := by
  have hclean := sheds_cleanupExpired clock m
  cases op with
  | create clientName projectPath permissions sessionId uuid =>
    rw [step]
    obtain ⟨hrefused, -⟩ | ⟨info, -, hstored, -⟩ :=
      createSession_spec clock m clientName projectPath permissions sessionId uuid
    · rw [hrefused]
      exact ⟨hclean.maxSessions, hclean.timeoutSeconds⟩
    · rw [hstored]
      exact ⟨hclean.maxSessions, hclean.timeoutSeconds⟩
  | get id =>
    rw [step, getSession]
    cases hid : m.sessions.get? id with
    | none => exact ⟨rfl, rfl⟩
    | some info =>
      have hsheds := sheds_isExpired clock hid
      simp only [isExpired_eq] at hsheds ⊢
      by_cases hlate : m.timeoutSeconds < clock m.reads - info.lastActivity
      · simp only [hlate, decide_true, if_true] at hsheds ⊢
        exact ⟨hsheds.maxSessions, hsheds.timeoutSeconds⟩
      · simp only [hlate, decide_false, and_self]
  | touch id =>
    obtain ⟨-, hsheds, -⟩ | ⟨info, -, -, htouch⟩ := touch_spec clock m id
    · exact ⟨hsheds.maxSessions, hsheds.timeoutSeconds⟩
    · rw [step, htouch]
      exact ⟨rfl, rfl⟩
  | destroy id =>
    rw [step, destroySession, remove_snd]
    exact ⟨rfl, rfl⟩
  | list | stats => exact ⟨hclean.maxSessions, hclean.timeoutSeconds⟩

theorem settings_run (clock : ℕ → ℚ) (maxSessions : ℤ) (timeoutSeconds : ℚ) (ops : List Op) :
    (run clock maxSessions timeoutSeconds ops).maxSessions = maxSessions ∧
      (run clock maxSessions timeoutSeconds ops).timeoutSeconds = timeoutSeconds :=
  List.foldlRecOn ops (step clock)
    (motive := fun m => m.maxSessions = maxSessions ∧ m.timeoutSeconds = timeoutSeconds)
    ⟨rfl, rfl⟩ fun m h op _ =>
      ⟨(settings_step m op).1.trans h.1, (settings_step m op).2.trans h.2⟩

/-- A creation leaves what is stored under other identifiers, but for what has expired. -/
theorem sessions_createSession (m : SessionManager) (clientName projectPath : String)
    (permissions : Option (List (String × Json))) (sessionId : Option String) (uuid : String)
    (hother : id ≠ idOr uuid sessionId) (hinfo : m.sessions.get? id = some info) :
    (m.createSession clock clientName projectPath permissions sessionId uuid).2.sessions.get? id =
        some info ∨
      ∃ n, m.reads ≤ n ∧
        n < (m.createSession clock clientName projectPath permissions sessionId uuid).2.reads ∧
          m.timeoutSeconds < clock n - info.lastActivity := by
  have hsheds := (sheds_cleanupExpired clock m).sessions id info hinfo
  obtain ⟨hrefused, -⟩ | ⟨info', -, hstored, -⟩ :=
    createSession_spec clock m clientName projectPath permissions sessionId uuid
  · rw [hrefused]
    exact hsheds.imp_right fun h => h.2
  · rw [hstored]
    refine hsheds.imp (fun h => ?_) fun h => ?_
    · exact (Dict.get?_set_of_ne hother.symm).trans h
    · obtain ⟨-, n, hge, hlt, hlate⟩ := h
      exact ⟨n, hge, hlt.trans (Nat.lt_succ_self _), hlate⟩

/-- What is left after a clean-up was kept when it began. -/
theorem Inv.kept_of_cleanupExpired (hclock : Monotone clock) (h : Inv clock log m)
    (hid : id ∈ (m.cleanupExpired clock).sessions.keys) :
    Kept m.timeoutSeconds log id (clock m.reads) := by
  obtain ⟨info, hinfo⟩ := Dict.mem_keys_iff.mp hid
  obtain ⟨hinfo, n, hge, hfresh⟩ := fresh_of_cleanupExpired hinfo
  rw [← h.live id (clock m.reads) fun n hn => hclock hn.le, live_iff hinfo]
  have hle := hclock hge
  linarith

/-- What is kept when a clean-up is over is left after it. -/
theorem Inv.mem_cleanupExpired (hclock : Monotone clock) (h : Inv clock log m)
    (hid : Kept m.timeoutSeconds log id (clock (m.cleanupExpired clock).reads)) :
    id ∈ (m.cleanupExpired clock).sessions.keys := by
  have hsheds := sheds_cleanupExpired clock m
  rw [← hsheds.timeoutSeconds] at hid
  exact (((h.sheds hsheds).live id _ fun n hn => hclock hn.le).mpr hid).mem_keys

/-- **What a manager answers** in some state, after what a history tells. -/
structure Correct (clock : ℕ → ℚ) (maxSessions : ℤ) (timeoutSeconds : ℚ) (log : List Entry)
    (m : SessionManager) : Prop where
  /-- There are no more sessions than there may be. -/
  size : (m.sessions.size : ℤ) ≤ max 0 maxSessions
  /-- `get_session` returns a session when the history says that it is kept. -/
  get : ∀ id, (m.getSession clock id).1.isSome = true ↔
    Kept timeoutSeconds log id (clock m.reads)
  /-- `touch` is successful when the history says that the session is kept. -/
  touch : ∀ id, (m.touch clock id).1 = true ↔ Kept timeoutSeconds log id (clock m.reads)
  /-- `create_session` removes no session of another identifier, but for one that has expired by
  what the clock says meanwhile. -/
  create : ∀ clientName projectPath permissions sessionId uuid id info,
    id ≠ idOr uuid sessionId → m.sessions.get? id = some info →
      (m.createSession clock clientName projectPath permissions sessionId uuid).2.sessions.get? id =
          some info ∨
        ∃ n, m.reads ≤ n ∧
          n < (m.createSession clock clientName projectPath permissions sessionId uuid).2.reads ∧
            timeoutSeconds < clock n - info.lastActivity
  /-- It creates the session it was asked for, when fewer sessions than there may be are kept. -/
  created : ∀ clientName projectPath permissions sessionId uuid id,
    (m.createSession clock clientName projectPath permissions sessionId uuid).1 = .ok id →
      id = idOr uuid sessionId ∧ ∀ ids : List String, ids.Nodup →
        (∀ i ∈ ids, Kept timeoutSeconds log i (clock
          ((m.createSession clock clientName projectPath permissions sessionId uuid).2.reads -
            1))) →
        (ids.length : ℤ) < maxSessions
  /-- It refuses only when as many sessions as there may be are kept. -/
  refused : ∀ clientName projectPath permissions sessionId uuid message,
    (m.createSession clock clientName projectPath permissions sessionId uuid).1 = .error message →
      ∃ ids : List String, ids.Nodup ∧ maxSessions ≤ ids.length ∧
        ∀ i ∈ ids, Kept timeoutSeconds log i (clock m.reads)

theorem Inv.correct (hclock : Monotone clock) (h : Inv clock log m) :
    Correct clock m.maxSessions m.timeoutSeconds log m where
  size := h.size
  get id := (h.get hclock id).2
  touch id := (h.touch hclock id).2
  create clientName projectPath permissions sessionId uuid _ _ hother hinfo :=
    sessions_createSession m clientName projectPath permissions sessionId uuid hother hinfo
  created clientName projectPath permissions sessionId uuid id hok := by
    obtain ⟨hrefused, -⟩ | ⟨info, -, hstored, hroom⟩ :=
      createSession_spec clock m clientName projectPath permissions sessionId uuid
    · rw [hrefused] at hok
      cases hok
    · rw [hstored] at hok ⊢
      refine ⟨(Except.ok.inj hok).symm, fun ids hnodup hkept => lt_of_le_of_lt ?_ hroom⟩
      rw [← Dict.length_keys]
      refine Int.ofNat_le.mpr (List.subperm_of_subset hnodup fun i hi => ?_).length_le
      exact h.mem_cleanupExpired hclock (hkept i hi)
  refused clientName projectPath permissions sessionId uuid message herror := by
    obtain ⟨-, hfull⟩ | ⟨info, -, hstored, -⟩ :=
      createSession_spec clock m clientName projectPath permissions sessionId uuid
    · rw [← Dict.length_keys] at hfull
      exact ⟨_, (m.cleanupExpired clock).sessions.keys_nodup, hfull,
        fun i hi => h.kept_of_cleanupExpired hclock hi⟩
    · rw [hstored] at herror
      cases herror

/-- **After every sequence of operations** the manager answers what its history says. -/
theorem run_correct (hclock : Monotone clock) (maxSessions : ℤ) (timeoutSeconds : ℚ)
    (ops : List Op) : Correct clock maxSessions timeoutSeconds
      (history clock maxSessions timeoutSeconds ops)
        (run clock maxSessions timeoutSeconds ops) := by
  have hcorrect := (inv_run hclock maxSessions timeoutSeconds ops).correct hclock
  obtain ⟨hmax, htimeout⟩ := settings_run clock maxSessions timeoutSeconds ops
  rwa [hmax, htimeout] at hcorrect

/-- A session is touched in time, another one finds no room, and the next touch is too late. -/
def exampleOps : List Op :=
  [.create "claude" "" none (some "a") "u", .touch "a", .list, .create "claude" "" none none "u",
    .touch "a"]

theorem run_correct_seconds :
    history (fun n => n) 1 2 exampleOps = [.created "a" 0, .touched "a" 1 2] ∧
      (exampleOps.inits.map fun ops =>
        ((run (fun n => n) 1 2 ops).getSession (fun n => n) "a").1.map SessionInfo.lastActivity) =
          [none, some 0, some 2, some 2, none, none] ∧
      Correct (fun n => n) 1 2 (history (fun n => n) 1 2 exampleOps)
        (run (fun n => n) 1 2 exampleOps) :=
  ⟨by decide +kernel, by decide +kernel, run_correct Nat.mono_cast 1 2 exampleOps⟩

end SessionManager

end Session

end SlmMcpHub
