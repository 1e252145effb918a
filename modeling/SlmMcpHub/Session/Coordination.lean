import SlmMcpHub.Library.Dict
import SlmMcpHub.Library.History
import Mathlib.Algebra.Order.Field.Rat
import Mathlib.Order.Monotone.Basic
import Mathlib.Tactic.Linarith

/-!
# Locks between sessions

`session/coordination.py`. A session takes a lock on a resource for some time. Nothing happens when
that time is over: whoever asks next finds the lock expired and takes it away. What is answered is
compared with a history that is made outside of it, of what was acquired and given back.

A clock is what `time.time()` returns, one call after the other.

## Main definitions

* `SessionCoordinator`, with its operations
* `SessionCoordinator.history` — what was acquired and given back, by what was answered
* `Holds` — what a history says about a session and a resource
* `SessionCoordinator.Inv` — what every operation keeps
* `SessionCoordinator.Exclusive` — what is answered

## Main results

* `SessionCoordinator.inv_run`
* `SessionCoordinator.exclusive_run`
-/

namespace SlmMcpHub

namespace Session

/-- `LockInfo` -/
structure LockInfo where
  resource : String
  sessionId : String
  acquiredAt : ℚ
  timeoutSeconds : ℚ
  deriving DecidableEq

/-- `(now - lock.acquired_at) > lock.timeout_seconds` -/
def LockInfo.Expired (lock : LockInfo) (now : ℚ) : Prop :=
  lock.timeoutSeconds < now - lock.acquiredAt

instance (lock : LockInfo) (now : ℚ) : Decidable (lock.Expired now) :=
  inferInstanceAs (Decidable (lock.timeoutSeconds < now - lock.acquiredAt))

/-- `SessionCoordinator` -/
structure SessionCoordinator where
  locks : Dict String LockInfo := .empty
  /-- How often the clock has been read. -/
  reads : ℕ := 0

namespace SessionCoordinator

/-! ### The coordinator -/

variable (clock : ℕ → ℚ) (c : SessionCoordinator)

/-- `_cleanup_expired` -/
def cleanupExpired : SessionCoordinator :=
  let now := clock c.reads
  let expired := (c.locks.entries.filter fun p => decide (p.2.Expired now)).map Prod.fst
  { c with locks := expired.foldl Dict.erase c.locks, reads := c.reads + 1 }

/-- `acquire` -/
def acquire (resource sessionId : String) (timeoutSeconds : ℚ) : Bool × SessionCoordinator :=
  let c := c.cleanupExpired clock
  match c.locks.get? resource with
  | some existing => (decide (existing.sessionId = sessionId), c)
  | none =>
    let lock : LockInfo :=
      { resource, sessionId, acquiredAt := clock c.reads, timeoutSeconds }
    (true, { locks := c.locks.set resource lock, reads := c.reads + 1 })

/-- `release` -/
def release (resource sessionId : String) : Bool × SessionCoordinator :=
  match c.locks.get? resource with
  | none => (false, c)
  | some existing =>
    if existing.sessionId ≠ sessionId then (false, c)
    else (true, { c with locks := c.locks.erase resource })

/-- `is_locked` -/
def isLocked (resource : String) : Bool × SessionCoordinator :=
  let c := c.cleanupExpired clock
  (c.locks.contains resource, c)

/-- `get_lock_holder` -/
def getLockHolder (resource : String) : Option String × SessionCoordinator :=
  let c := c.cleanupExpired clock
  ((c.locks.get? resource).map (·.sessionId), c)

/-- `get_locks` -/
def getLocks : List LockInfo × SessionCoordinator :=
  let c := c.cleanupExpired clock
  (c.locks.values, c)

/-- `release_all_for_session` -/
def releaseAllForSession (sessionId : String) : ℕ × SessionCoordinator :=
  let toRelease :=
    (c.locks.entries.filter fun p => decide (p.2.sessionId = sessionId)).map Prod.fst
  (toRelease.length, { c with locks := toRelease.foldl Dict.erase c.locks })

/-- An operation of one of the sessions. -/
inductive Op where
  | acquire (resource sessionId : String) (timeoutSeconds : ℚ)
  | release (resource sessionId : String)
  | isLocked (resource : String)
  | getLockHolder (resource : String)
  | getLocks
  | releaseAllForSession (sessionId : String)

def step (c : SessionCoordinator) : Op → SessionCoordinator
  | .acquire resource sessionId timeoutSeconds =>
    (c.acquire clock resource sessionId timeoutSeconds).2
  | .release resource sessionId => (c.release resource sessionId).2
  | .isLocked resource => (c.isLocked clock resource).2
  | .getLockHolder resource => (c.getLockHolder clock resource).2
  | .getLocks => (c.getLocks clock).2
  | .releaseAllForSession sessionId => (c.releaseAllForSession sessionId).2

/-- A sequence of operations, in any order and of any sessions. -/
def run (ops : List Op) : SessionCoordinator := ops.foldl (step clock) {}

end SessionCoordinator

/-! ### The history -/

/-- What was done to the locks. -/
inductive LockEntry where
  | acquired (lock : LockInfo)
  /-- `release` was called. -/
  | released (resource sessionId : String)
  /-- `release_all_for_session` was called. -/
  | releasedAll (sessionId : String)
  deriving DecidableEq

namespace SessionCoordinator

variable (clock : ℕ → ℚ)

/-- What an operation adds to the history. A lock is acquired when `acquire` answers so and nobody
was the holder before; its time begins with what the clock said last. -/
def observe (c : SessionCoordinator) : Op → List LockEntry
  | .acquire resource sessionId timeoutSeconds =>
    match c.acquire clock resource sessionId timeoutSeconds with
    | (true, c') =>
      if (c.getLockHolder clock resource).1 = none then
        [.acquired ⟨resource, sessionId, clock (c'.reads - 1), timeoutSeconds⟩]
      else []
    | (false, _) => []
  | .release resource sessionId => [.released resource sessionId]
  | .releaseAllForSession sessionId => [.releasedAll sessionId]
  | .isLocked _ | .getLockHolder _ | .getLocks => []

/-- The history of a sequence of operations. -/
def history (ops : List Op) : List LockEntry :=
  History.trace (step clock) (observe clock) {} ops

end SessionCoordinator

/-! ### What a history says -/

/-- A lock is given back, by the session that has it. -/
def GivesBack : LockEntry → LockEntry → Prop
  | .acquired lock, .released resource sessionId =>
    lock.resource = resource ∧ lock.sessionId = sessionId
  | .acquired lock, .releasedAll sessionId => lock.sessionId = sessionId
  | _, _ => False

/-- A lock has been acquired, and has not been given back since. -/
def Outstanding (log : List LockEntry) (lock : LockInfo) : Prop :=
  History.Standing GivesBack log (.acquired lock)

/-- **A session holds a resource**: it has acquired it, has not given it back since, and the time
it has acquired it for is not over. -/
def Holds (log : List LockEntry) (now : ℚ) (resource sessionId : String) : Prop :=
  ∃ lock, Outstanding log lock ∧ lock.resource = resource ∧ lock.sessionId = sessionId ∧
    ¬ lock.Expired now

section Histories

variable {log : List LockEntry} {lock lock' : LockInfo} {resource sessionId : String}

theorem outstanding_acquired :
    Outstanding (log ++ [.acquired lock']) lock ↔ lock = lock' ∨ Outstanding log lock := by
  rw [Outstanding, History.standing_concat, LockEntry.acquired.injEq]
  exact or_congr_right (and_iff_left not_false)

theorem outstanding_released :
    Outstanding (log ++ [.released resource sessionId]) lock ↔
      Outstanding log lock ∧ ¬ (lock.resource = resource ∧ lock.sessionId = sessionId) := by
  rw [Outstanding, History.standing_concat, or_iff_right (by simp)]
  rfl

theorem outstanding_releasedAll :
    Outstanding (log ++ [.releasedAll sessionId]) lock ↔
      Outstanding log lock ∧ lock.sessionId ≠ sessionId := by
  rw [Outstanding, History.standing_concat, or_iff_right (by simp)]
  rfl

end Histories

/-! ### The history and the locks -/

namespace SessionCoordinator

variable {clock : ℕ → ℚ} {c : SessionCoordinator} {resource sessionId : String} {lock : LockInfo}

/-- **What every sequence of operations keeps.** The locks that are stored are outstanding, and an
outstanding lock that is not stored has been seen to have expired. -/
structure Inv (clock : ℕ → ℚ) (log : List LockEntry) (c : SessionCoordinator) : Prop where
  resource : ∀ r lock, c.locks.get? r = some lock → lock.resource = r
  stored : ∀ r lock, c.locks.get? r = some lock → Outstanding log lock
  outstanding : ∀ lock, Outstanding log lock →
    c.locks.get? lock.resource = some lock ∨ ∃ n < c.reads, lock.Expired (clock n)

variable {log : List LockEntry}

theorem inv_start : Inv clock [] {} where
  resource _ _ h := by cases h
  stored _ _ h := by cases h
  outstanding _ h := absurd h History.not_standing_nil

/-- The locks an operation takes away are those that meet a condition. -/
theorem get?_foldl_erase_filter (d : Dict String LockInfo) (p : LockInfo → Bool) (r : String) :
    (((d.entries.filter fun q => p q.2).map Prod.fst).foldl Dict.erase d).get? r =
      (d.get? r).filter fun lock => !p lock := by
  rw [Dict.get?_foldl_erase]
  cases hget : d.get? r with
  | none => simp
  | some lock =>
    have hmem : r ∈ (d.entries.filter fun q => p q.2).map Prod.fst ↔ p lock = true := by
      constructor
      · intro hr
        obtain ⟨⟨r', lock'⟩, hfilter, rfl⟩ := List.mem_map.mp hr
        obtain ⟨hentry, hp⟩ := List.mem_filter.mp hfilter
        rw [Dict.mem_entries_iff, hget] at hentry
        exact Option.some.inj hentry ▸ hp
      · intro hp
        have hentry : (r, lock) ∈ d.entries := Dict.mem_entries_iff.mpr hget
        exact List.mem_map.mpr ⟨(r, lock), List.mem_filter.mpr ⟨hentry, hp⟩, rfl⟩
    cases hp : p lock with
    | true => simp [hmem, hp, Option.filter]
    | false => simp [hmem, hp, Option.filter]

theorem get?_cleanupExpired (c : SessionCoordinator) (r : String) :
    (c.cleanupExpired clock).locks.get? r =
      (c.locks.get? r).filter fun lock => !decide (lock.Expired (clock c.reads)) :=
  get?_foldl_erase_filter c.locks (fun lock => decide (lock.Expired (clock c.reads))) r

/-- What is still there after the expired locks have been removed. -/
theorem get?_cleanupExpired_eq_some_iff {r : String} :
    (c.cleanupExpired clock).locks.get? r = some lock ↔
      c.locks.get? r = some lock ∧ ¬ lock.Expired (clock c.reads) := by
  rw [get?_cleanupExpired, Option.filter_eq_some_iff]
  simp

theorem Inv.cleanupExpired (h : Inv clock log c) : Inv clock log (c.cleanupExpired clock) where
  resource r lock hget := h.resource r lock (get?_cleanupExpired_eq_some_iff.mp hget).1
  stored r lock hget := h.stored r lock (get?_cleanupExpired_eq_some_iff.mp hget).1
  outstanding lock hout := by
    by_cases hlate : lock.Expired (clock c.reads)
    · exact .inr ⟨c.reads, Nat.lt_succ_self _, hlate⟩
    · rcases h.outstanding lock hout with hget | ⟨n, hn, hexpired⟩
      · exact .inl (get?_cleanupExpired_eq_some_iff.mpr ⟨hget, hlate⟩)
      · exact .inr ⟨n, Nat.lt_succ_of_lt hn, hexpired⟩

theorem acquire_of_some {timeoutSeconds : ℚ}
    (h : (c.cleanupExpired clock).locks.get? resource = some lock) :
    c.acquire clock resource sessionId timeoutSeconds =
      (decide (lock.sessionId = sessionId), c.cleanupExpired clock) := by
  simp only [SessionCoordinator.acquire, h]

theorem acquire_of_none {timeoutSeconds : ℚ}
    (h : (c.cleanupExpired clock).locks.get? resource = none) :
    c.acquire clock resource sessionId timeoutSeconds =
      (true, { locks := (c.cleanupExpired clock).locks.set resource
                ⟨resource, sessionId, clock (c.reads + 1), timeoutSeconds⟩
               reads := c.reads + 2 }) := by
  rw [SessionCoordinator.acquire]
  simp only [h]
  rfl

/-- Who has a lock already acquires nothing, and neither does anybody else. -/
theorem observe_acquire_of_some {timeoutSeconds : ℚ}
    (h : (c.cleanupExpired clock).locks.get? resource = some lock) :
    observe clock c (.acquire resource sessionId timeoutSeconds) = [] := by
  have hholder : (c.getLockHolder clock resource).1 ≠ none := by
    rw [getLockHolder, h]
    exact Option.some_ne_none _
  rw [observe, acquire_of_some h]
  cases decide (lock.sessionId = sessionId) with
  | true => exact if_neg hholder
  | false => rfl

theorem observe_acquire_of_none {timeoutSeconds : ℚ}
    (h : (c.cleanupExpired clock).locks.get? resource = none) :
    observe clock c (.acquire resource sessionId timeoutSeconds) =
      [.acquired ⟨resource, sessionId, clock (c.reads + 1), timeoutSeconds⟩] := by
  have hholder : (c.getLockHolder clock resource).1 = none := by
    rw [getLockHolder, h]
    rfl
  rw [observe, acquire_of_none h]
  exact if_pos hholder

theorem Inv.acquire (h : Inv clock log c) (resource sessionId : String) (timeoutSeconds : ℚ) :
    Inv clock (log ++ observe clock c (.acquire resource sessionId timeoutSeconds))
      (c.acquire clock resource sessionId timeoutSeconds).2 := by
  have hclean := h.cleanupExpired
  cases hget : (c.cleanupExpired clock).locks.get? resource with
  | some existing =>
    rw [acquire_of_some hget, observe_acquire_of_some hget, List.append_nil]
    exact hclean
  | none =>
    rw [acquire_of_none hget, observe_acquire_of_none hget]
    refine ⟨fun r lock hr => ?_, fun r lock hr => ?_, fun lock hout => ?_⟩
    · rw [Dict.get?_set] at hr
      split at hr
      · next heq => exact Option.some.inj hr ▸ heq
      · exact hclean.resource r lock hr
    · rw [Dict.get?_set] at hr
      refine outstanding_acquired.mpr ?_
      split at hr
      · exact .inl (Option.some.inj hr).symm
      · exact .inr (hclean.stored r lock hr)
    · rcases outstanding_acquired.mp hout with rfl | hold
      · exact .inl (Dict.get?_set_self ..)
      · rcases hclean.outstanding lock hold with hstored | ⟨n, hn, hexpired⟩
        · refine .inl ?_
          have hne : resource ≠ lock.resource := by
            rintro rfl
            rw [hget] at hstored
            cases hstored
          rw [Dict.get?_set_of_ne hne]
          exact hstored
        · exact .inr ⟨n, Nat.lt_succ_of_lt hn, hexpired⟩

theorem Inv.release (h : Inv clock log c) (resource sessionId : String) :
    Inv clock (log ++ [.released resource sessionId]) (c.release resource sessionId).2 := by
  have hkeep : (∀ lock, c.locks.get? resource = some lock → lock.sessionId ≠ sessionId) →
      Inv clock (log ++ [.released resource sessionId]) c := by
    intro hother
    refine ⟨h.resource, fun r lock hr => ?_, fun lock hout => ?_⟩
    · refine outstanding_released.mpr ⟨h.stored r lock hr, ?_⟩
      rintro ⟨hres, hsession⟩
      exact hother lock (hres ▸ h.resource r lock hr ▸ hr) hsession
    · exact h.outstanding lock (outstanding_released.mp hout).1
  rw [SessionCoordinator.release]
  cases hget : c.locks.get? resource with
  | none =>
    refine hkeep fun lock hlock => ?_
    rw [hget] at hlock
    cases hlock
  | some existing =>
    show Inv clock _ (if existing.sessionId ≠ sessionId then _ else _ : Bool × SessionCoordinator).2
    split_ifs with hsession
    · refine hkeep fun lock hlock => ?_
      rw [hget] at hlock
      exact Option.some.inj hlock ▸ hsession
    · refine ⟨fun r lock hr => h.resource r lock (Dict.get?_of_erase hr), fun r lock hr => ?_,
        fun lock hout => ?_⟩
      · refine outstanding_released.mpr ⟨h.stored r lock (Dict.get?_of_erase hr), ?_⟩
        rintro ⟨hres, -⟩
        have hr' := hr
        rw [← h.resource r lock (Dict.get?_of_erase hr), hres, Dict.get?_erase_self] at hr'
        cases hr'
      · obtain ⟨hold, hnot⟩ := outstanding_released.mp hout
        rcases h.outstanding lock hold with hstored | hexpired
        · refine .inl ?_
          have hne : resource ≠ lock.resource := by
            rintro rfl
            rw [hget] at hstored
            obtain rfl := Option.some.inj hstored
            exact hnot ⟨rfl, not_not.mp hsession⟩
          rw [Dict.get?_erase_of_ne hne]
          exact hstored
        · exact .inr hexpired

theorem get?_releaseAll (c : SessionCoordinator) (sessionId r : String) :
    (c.releaseAllForSession sessionId).2.locks.get? r =
      (c.locks.get? r).filter fun lock => !decide (lock.sessionId = sessionId) :=
  get?_foldl_erase_filter c.locks (fun lock => decide (lock.sessionId = sessionId)) r

theorem Inv.releaseAllForSession (h : Inv clock log c) (sessionId : String) :
    Inv clock (log ++ [.releasedAll sessionId]) (c.releaseAllForSession sessionId).2 := by
  have hget : ∀ r lock, (c.releaseAllForSession sessionId).2.locks.get? r = some lock ↔
      c.locks.get? r = some lock ∧ lock.sessionId ≠ sessionId := by
    intro r lock
    rw [get?_releaseAll, Option.filter_eq_some_iff]
    simp
  refine ⟨fun r lock hr => ?_, fun r lock hr => ?_, fun lock hout => ?_⟩
  · exact h.resource r lock ((hget r lock).mp hr).1
  · obtain ⟨hr, hne⟩ := (hget r lock).mp hr
    exact outstanding_releasedAll.mpr ⟨h.stored r lock hr, hne⟩
  · obtain ⟨hold, hne⟩ := outstanding_releasedAll.mp hout
    rcases h.outstanding lock hold with hstored | hexpired
    · exact .inl ((hget _ lock).mpr ⟨hstored, hne⟩)
    · exact .inr hexpired

theorem Inv.step (h : Inv clock log c) (op : Op) :
    Inv clock (log ++ observe clock c op) (c.step clock op) := by
  cases op with
  | acquire resource sessionId timeoutSeconds => exact h.acquire resource sessionId timeoutSeconds
  | release resource sessionId => exact h.release resource sessionId
  | isLocked | getLockHolder | getLocks =>
    rw [observe, List.append_nil]
    exact h.cleanupExpired
  | releaseAllForSession sessionId => exact h.releaseAllForSession sessionId

theorem inv_run (clock : ℕ → ℚ) (ops : List Op) : Inv clock (history clock ops) (run clock ops) :=
  History.trace_induction _ _ (fun _ _ op h => h.step op) inv_start ops

/-! ### What is answered -/

/-- What has expired stays so. -/
theorem expired_of_monotone (hclock : Monotone clock) {m n : ℕ} (h : m ≤ n)
    (hexpired : lock.Expired (clock m)) : lock.Expired (clock n) := by
  have hle := hclock h
  unfold LockInfo.Expired at *
  linarith

/-- What is stored and has not expired is what the history says. -/
theorem Inv.get?_iff (hclock : Monotone clock) (h : Inv clock log c) {r : String} :
    (c.cleanupExpired clock).locks.get? r = some lock ↔
      Outstanding log lock ∧ lock.resource = r ∧ ¬ lock.Expired (clock c.reads) := by
  rw [get?_cleanupExpired_eq_some_iff]
  constructor
  · rintro ⟨hget, hlate⟩
    exact ⟨h.stored r lock hget, h.resource r lock hget, hlate⟩
  · rintro ⟨hout, rfl, hlate⟩
    rcases h.outstanding lock hout with hget | ⟨n, hn, hexpired⟩
    · exact ⟨hget, hlate⟩
    · exact absurd (expired_of_monotone hclock hn.le hexpired) hlate

theorem Inv.holds_iff (hclock : Monotone clock) (h : Inv clock log c) :
    Holds log (clock c.reads) resource sessionId ↔
      ∃ lock, (c.cleanupExpired clock).locks.get? resource = some lock ∧
        lock.sessionId = sessionId := by
  constructor
  · rintro ⟨lock, hout, hres, hsession, hlate⟩
    exact ⟨lock, (h.get?_iff hclock).mpr ⟨hout, hres, hlate⟩, hsession⟩
  · rintro ⟨lock, hget, hsession⟩
    obtain ⟨hout, hres, hlate⟩ := (h.get?_iff hclock).mp hget
    exact ⟨lock, hout, hres, hsession, hlate⟩

theorem Inv.getLockHolder_iff (hclock : Monotone clock) (h : Inv clock log c) :
    (c.getLockHolder clock resource).1 = some sessionId ↔
      Holds log (clock c.reads) resource sessionId := by
  show ((c.cleanupExpired clock).locks.get? resource).map _ = some sessionId ↔ _
  rw [Option.map_eq_some_iff, h.holds_iff hclock]

/-- **What the coordinator answers is what the history says**: no resource has two holders, a lock
is granted when nobody else holds the resource, and then its session is the holder. -/
structure Exclusive (clock : ℕ → ℚ) (log : List LockEntry) (c : SessionCoordinator) : Prop where
  one : ∀ r s s', Holds log (clock c.reads) r s → Holds log (clock c.reads) r s' → s = s'
  acquire : ∀ r s timeout, (c.acquire clock r s timeout).1 = true ↔
    ∀ s', Holds log (clock c.reads) r s' → s' = s
  /-- Who already holds a resource does not get any more time. -/
  again : ∀ r s timeout, Holds log (clock c.reads) r s →
    observe clock c (.acquire r s timeout) = []
  granted : ∀ r s timeout, (∀ s', ¬ Holds log (clock c.reads) r s') →
    observe clock c (.acquire r s timeout) = [.acquired ⟨r, s, clock (c.reads + 1), timeout⟩]
  release : ∀ r s, Holds log (clock c.reads) r s → (c.release r s).1 = true
  /-- Nobody gives back what another session has. -/
  own : ∀ r s, (c.release r s).1 = true →
    ∃ lock, Outstanding log lock ∧ lock.resource = r ∧ lock.sessionId = s
  released : ∀ r s, ((c.release r s).2.getLockHolder clock r).1 ≠ some s
  /-- A session that has gone holds nothing, and what the others hold they keep. -/
  releasedAll : ∀ r s s', ((c.releaseAllForSession s).2.getLockHolder clock r).1 = some s' ↔
    s' ≠ s ∧ Holds log (clock c.reads) r s'
  isLocked : ∀ r, (c.isLocked clock r).1 = true ↔ ∃ s, Holds log (clock c.reads) r s
  getLockHolder : ∀ r s, (c.getLockHolder clock r).1 = some s ↔
    Holds log (clock c.reads) r s
  getLocks : ∀ lock, lock ∈ (c.getLocks clock).1 ↔
    Outstanding log lock ∧ ¬ lock.Expired (clock c.reads)

theorem holds_releasedAll {now : ℚ} {s : String} :
    Holds (log ++ [.releasedAll s]) now resource sessionId ↔
      sessionId ≠ s ∧ Holds log now resource sessionId := by
  constructor
  · rintro ⟨lock, hout, hres, rfl, hlate⟩
    obtain ⟨hout, hne⟩ := outstanding_releasedAll.mp hout
    exact ⟨hne, lock, hout, hres, rfl, hlate⟩
  · rintro ⟨hne, lock, hout, hres, rfl, hlate⟩
    exact ⟨lock, outstanding_releasedAll.mpr ⟨hout, hne⟩, hres, rfl, hlate⟩

theorem Inv.exclusive (hclock : Monotone clock) (h : Inv clock log c) :
    Exclusive clock log c where
  one r s s' hs hs' := by
    obtain ⟨lock, hget, rfl⟩ := (h.holds_iff hclock).mp hs
    obtain ⟨lock', hget', rfl⟩ := (h.holds_iff hclock).mp hs'
    rw [hget] at hget'
    rw [Option.some.inj hget']
  acquire r s timeout := by
    cases hget : (c.cleanupExpired clock).locks.get? r with
    | some lock =>
      rw [acquire_of_some hget, decide_eq_true_iff]
      constructor
      · rintro rfl s' hs'
        obtain ⟨lock', hget', rfl⟩ := (h.holds_iff hclock).mp hs'
        rw [hget] at hget'
        rw [Option.some.inj hget']
      · exact fun hall => hall _ ((h.holds_iff hclock).mpr ⟨lock, hget, rfl⟩)
    | none =>
      rw [acquire_of_none hget]
      refine iff_of_true rfl fun s' hs' => ?_
      obtain ⟨lock', hget', -⟩ := (h.holds_iff hclock).mp hs'
      rw [hget] at hget'
      cases hget'
  again r s timeout hs := by
    obtain ⟨lock, hget, -⟩ := (h.holds_iff hclock).mp hs
    exact observe_acquire_of_some hget
  granted r s timeout hnone := by
    cases hget : (c.cleanupExpired clock).locks.get? r with
    | some lock => exact absurd ((h.holds_iff hclock).mpr ⟨lock, hget, rfl⟩) (hnone _)
    | none => exact observe_acquire_of_none hget
  release r s hs := by
    obtain ⟨lock, hget, rfl⟩ := (h.holds_iff hclock).mp hs
    have hstored := (get?_cleanupExpired_eq_some_iff.mp hget).1
    simp only [SessionCoordinator.release, hstored, ne_eq, not_true_eq_false, if_false]
  own r s htrue := by
    rw [SessionCoordinator.release] at htrue
    cases hget : c.locks.get? r with
    | none =>
      rw [hget] at htrue
      cases htrue
    | some existing =>
      simp only [hget] at htrue
      split_ifs at htrue with hsession
      exact ⟨existing, h.stored r existing hget, h.resource r existing hget, not_not.mp hsession⟩
  released r s hheld := by
    obtain ⟨lock, hout, hres, hsession, -⟩ := ((h.release r s).getLockHolder_iff hclock).mp hheld
    exact (outstanding_released.mp hout).2 ⟨hres, hsession⟩
  releasedAll r s s' := by
    rw [(h.releaseAllForSession s).getLockHolder_iff hclock, holds_releasedAll]
    rfl
  isLocked r := by
    show (c.cleanupExpired clock).locks.contains r = true ↔ _
    rw [Dict.contains_iff, Dict.mem_keys_iff]
    constructor
    · rintro ⟨lock, hget⟩
      exact ⟨lock.sessionId, (h.holds_iff hclock).mpr ⟨lock, hget, rfl⟩⟩
    · rintro ⟨s, hs⟩
      obtain ⟨lock, hget, -⟩ := (h.holds_iff hclock).mp hs
      exact ⟨lock, hget⟩
  getLockHolder r s := h.getLockHolder_iff hclock
  getLocks lock := by
    show lock ∈ (c.cleanupExpired clock).locks.values ↔ _
    rw [Dict.mem_values_iff]
    constructor
    · rintro ⟨r, hget⟩
      obtain ⟨hout, -, hlate⟩ := (h.get?_iff hclock).mp hget
      exact ⟨hout, hlate⟩
    · rintro ⟨hout, hlate⟩
      exact ⟨lock.resource, (h.get?_iff hclock).mpr ⟨hout, rfl, hlate⟩⟩

/-- **After any operations of any sessions, under a clock that does not go back, the coordinator
answers what the history says.** -/
theorem exclusive_run (hclock : Monotone clock) (ops : List Op) :
    Exclusive clock (history clock ops) (run clock ops) :=
  (inv_run clock ops).exclusive hclock

/-- The second session comes when the first one's time is over, and the first one again then. -/
def takenOver : List Op :=
  [.acquire "sqlite" "a" 2, .acquire "sqlite" "b" 2, .acquire "sqlite" "a" 60, .getLocks,
    .acquire "sqlite" "b" 2, .releaseAllForSession "a", .acquire "sqlite" "a" 60]

/-- Who holds the resource before each operation and at the end. -/
def takenOverHolders : List (Option String) :=
  takenOver.inits.map fun ops => ((run (fun n => n) ops).getLockHolder (fun n => n) "sqlite").1

theorem exclusive_run_takenOver :
    history (fun n => n) takenOver = [.acquired ⟨"sqlite", "a", 1, 2⟩,
      .acquired ⟨"sqlite", "b", 6, 2⟩, .releasedAll "a"] ∧
    takenOverHolders = [none, some "a", some "a", none, none, some "b", some "b", some "b"] ∧
    Exclusive (fun n => n) (history (fun n => n) takenOver) (run (fun n => n) takenOver) :=
  ⟨by decide +kernel, by decide +kernel, exclusive_run (fun _ _ h => Nat.cast_le.mpr h) takenOver⟩

end SessionCoordinator

end Session

end SlmMcpHub
