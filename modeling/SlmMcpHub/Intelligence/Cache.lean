import SlmMcpHub.Library.Dict
import SlmMcpHub.Library.Recency
import SlmMcpHub.Library.WhileLoop
import Mathlib.Algebra.Order.Field.Rat
import Mathlib.Tactic.Linarith

/-!
# The cache of results

`intelligence/cache.py`. Entries are kept under one string for the names of server and tool and a
digest of the arguments, next to the order in which these keys were last used.

A clock is what `time.time()` returns, one call after the other; `argsHash` is the digest. What has
been put and what has been used is told from the operations and their answers.

## Main definitions

* `CacheEngine`, with its operations
* `putsOf`, `CacheEngine.usesOf` — what operations have put and used
* `CacheEngine.putAt` — the call an entry was put for
* `Apart` — no entry of somebody else is in the way of an operation
* `Separate` — an operation sees and removes what it may
* `Frugal` — a `put` evicts what it has to
* `NonePut` — nothing is put into the cache

## Main results

* `evictLoop_of_le` — how long the loop of `put` goes on
* `separate_of_apart`
* `frugal_iff`
* `returns_iff` — when a `put` returns
-/

namespace SlmMcpHub

namespace Intelligence

/-! ### The cache -/

/-- `DEFAULT_NO_CACHE_TOOLS` -/
def defaultNoCacheTools : List String :=
  ["remember", "observe", "forget", "delete_memory", "update_memory", "session_init",
    "close_session", "run_maintenance", "mesh_send", "mesh_lock", "create_issue", "create_branch",
    "push_files", "create_record", "update_records", "delete_records"]

/-- What is after the last delimiter `__`, given what has been read since one. -/
def lastPart (read : List Char) : List Char → List Char
  | '_' :: '_' :: rest => lastPart [] rest
  | c :: rest => lastPart (c :: read) rest
  | [] => read.reverse

/-- What a result is kept for. -/
structure Call (A : Type) where
  server : String
  tool : String
  arguments : A
  deriving DecidableEq

/-- The names of a call as they stand in its key. -/
def Call.name {A : Type} (x : Call A) : String := x.server ++ "__" ++ x.tool

/-- `_make_cache_key` -/
def makeCacheKey {A : Type} (argsHash : A → String) (x : Call A) : String :=
  x.server ++ "__" ++ x.tool ++ "__" ++ argsHash x.arguments

/-- `CacheEntry` -/
structure CacheEntry (V : Type) where
  key : String
  result : V
  createdAt : ℚ
  ttlSeconds : ℚ
  hitCount : ℕ := 0

/-- `CacheEngine` -/
structure CacheEngine (V : Type) where
  cache : Dict String (CacheEntry V) := .empty
  /-- Most recent at the end. -/
  accessOrder : Dict String Unit := .empty
  defaultTtl : ℚ
  maxEntries : ℤ
  noCacheTools : List String
  hits : ℕ := 0
  misses : ℕ := 0
  /-- How often the clock has been read. -/
  reads : ℕ := 0

namespace CacheEngine

variable {A V : Type}

/-- `CacheEngine(default_ttl, max_entries, no_cache_tools)` -/
def new (defaultTtl : ℚ) (maxEntries : ℤ) (noCacheTools : Option (List String)) :
    CacheEngine V where
  defaultTtl := defaultTtl
  maxEntries := maxEntries
  noCacheTools :=
    match noCacheTools with
    | none | some [] => defaultNoCacheTools
    | some tools => tools

variable (clock : ℕ → ℚ) (argsHash : A → String) (m : CacheEngine V)

/-- `is_cacheable` -/
def isCacheable (toolName : String) : Bool :=
  !m.noCacheTools.contains (String.ofList (lastPart [] toolName.toList))

/-- `entry.is_expired` -/
def isExpired (entry : CacheEntry V) : Bool × CacheEngine V :=
  (entry.ttlSeconds < clock m.reads - entry.createdAt, { m with reads := m.reads + 1 })

/-- `_touch_access` -/
def touchAccess (key : String) : CacheEngine V :=
  { m with accessOrder := (m.accessOrder.erase key).set key () }

/-- `_remove` -/
def remove (key : String) : CacheEngine V :=
  { m with cache := m.cache.erase key, accessOrder := m.accessOrder.erase key }

/-- `_evict_lru` -/
def evictLru : CacheEngine V :=
  match m.accessOrder.keys with
  | [] => m
  | key :: _ => m.remove key

/-- `self._misses += 1` -/
def miss : CacheEngine V := { m with misses := m.misses + 1 }

/-- `entry.hit_count += 1`, `self._hits += 1` and `self._touch_access(key)` -/
def hit (key : String) : CacheEngine V :=
  { m with
    cache := m.cache.modify key fun e => { e with hitCount := e.hitCount + 1 }
    hits := m.hits + 1 }.touchAccess key

/-- `get` -/
def get (x : Call A) : Option V × CacheEngine V :=
  if m.isCacheable x.tool = false then (none, m.miss)
  else
    let key := makeCacheKey argsHash x
    match m.cache.get? key with
    | none => (none, m.miss)
    | some entry =>
      match m.isExpired clock entry with
      | (true, m) => (none, (m.remove key).miss)
      | (false, m) => (some entry.result, m.hit key)

/-- `while len(self._cache) >= self._max_entries: self._evict_lru()`, for so many rounds. -/
def evictLoop (m : CacheEngine V) : ℕ → Option (CacheEngine V)
  | 0 => none
  | rounds + 1 => if m.maxEntries ≤ m.cache.size then m.evictLru.evictLoop rounds else some m

/-- `self._cache[key] = CacheEntry(key=key, result=result, ttl_seconds=ttl)` and what follows it. -/
def store (x : Call A) (result : V) (ttl : ℚ) : CacheEngine V :=
  let key := makeCacheKey argsHash x
  let entry : CacheEntry V :=
    { key, result, createdAt := clock m.reads, ttlSeconds := ttl }
  { m with cache := m.cache.set key entry, reads := m.reads + 1 }.touchAccess key

/-- `put`; there is no result if it never returns. -/
def put (x : Call A) (result : V) (ttlSeconds : Option ℚ) : Option (CacheEngine V) :=
  if m.isCacheable x.tool = false then some m
  else
    (m.evictLoop (m.accessOrder.size + 1)).map fun m =>
      m.store clock argsHash x result (ttlSeconds.getD m.defaultTtl)

/-- What the keys of the entries to invalidate start with. -/
def keyPrefix (serverName : String) : Option String → String
  | none => serverName ++ "__"
  | some toolName =>
    if toolName = "" then serverName ++ "__" else serverName ++ "__" ++ toolName ++ "__"

/-- `invalidate` -/
def invalidate (serverName : String) (toolName : Option String) : ℕ × CacheEngine V :=
  let keysToRemove := m.cache.keys.filter fun k =>
    (keyPrefix serverName toolName).toList.isPrefixOf k.toList
  (keysToRemove.length, keysToRemove.foldl remove m)

/-- `clear` -/
def clear : CacheEngine V := { m with cache := .empty, accessOrder := .empty }

/-- The keys of the expired ones of some entries. -/
def expired (m : CacheEngine V) : List (String × CacheEntry V) → List String × CacheEngine V
  | [] => ([], m)
  | (k, entry) :: rest =>
    let (isExpired, m) := m.isExpired clock entry
    let (keys, m) := m.expired rest
    (if isExpired then k :: keys else keys, m)

/-- `_cleanup_expired`, by `get_stats`. -/
def cleanupExpired : CacheEngine V :=
  let (keys, m) := m.expired clock m.cache.entries
  keys.foldl remove m

/-- An operation. -/
inductive Op (A V : Type) where
  | get (x : Call A)
  | put (x : Call A) (result : V) (ttlSeconds : Option ℚ)
  | invalidate (serverName : String) (toolName : Option String)
  | clear
  | getStats

/-- One operation, if it returns. -/
def step (m : CacheEngine V) : Op A V → Option (CacheEngine V)
  | .get x => some (m.get clock argsHash x).2
  | .put x result ttlSeconds => m.put clock argsHash x result ttlSeconds
  | .invalidate serverName toolName => some (m.invalidate serverName toolName).2
  | .clear => some m.clear
  | .getStats => some (m.cleanupExpired clock)

/-- A sequence of operations, if all of them return. -/
def run (m : CacheEngine V) (ops : List (Op A V)) : Option (CacheEngine V) :=
  ops.foldlM (step clock argsHash) m

/-! ### What has been put and used -/

/-- What operations put, and for which call, oldest first. -/
def putsOf (ops : List (Op A V)) : List (Call A × V) :=
  ops.filterMap fun
    | .put x result _ => some (x, result)
    | _ => none

/-- The key an operation uses: a `get` that finds something uses its own, and so does a `put` that
is for the cache. -/
def used (m : CacheEngine V) : Op A V → List String
  | .get x => if (m.get clock argsHash x).1.isSome then [makeCacheKey argsHash x] else []
  | .put x _ _ => if m.isCacheable x.tool then [makeCacheKey argsHash x] else []
  | .invalidate _ _ | .clear | .getStats => []

/-- The keys that operations use, oldest first. -/
def usesOf (m : CacheEngine V) : List (Op A V) → List String
  | [] => []
  | op :: ops => m.used clock argsHash op ++
      (m.step clock argsHash op).elim [] fun m => usesOf m ops

/-- **What an entry was put for**: the call and the result of the last `put` for the cache under
its key. -/
def putAt (argsHash : A → String) (cacheable : String → Bool) (puts : List (Call A × V))
    (k : String) : Option (Call A × V) :=
  puts.reverse.find? fun p => cacheable p.1.tool && makeCacheKey argsHash p.1 = k

/-! ### The loop of `put` -/

section EvictLoop

variable {m : CacheEngine V}

/-- One round of the loop. -/
def evictRound (m : CacheEngine V) : Option (CacheEngine V) :=
  if m.maxEntries ≤ m.cache.size then some m.evictLru else none

theorem evictLoop_eq_run (m : CacheEngine V) (rounds : ℕ) :
    m.evictLoop rounds = WhileLoop.run evictRound rounds m := by
  induction rounds generalizing m with
  | zero => rfl
  | succ rounds ih =>
    rw [evictLoop, WhileLoop.run, evictRound]
    split
    · exact ih m.evictLru
    · rfl

/-- More rounds change nothing. -/
theorem evictLoop_of_le {m' : CacheEngine V} {rounds rounds' : ℕ}
    (h : m.evictLoop rounds = some m') (hle : rounds ≤ rounds') :
    m.evictLoop rounds' = some m' := by
  rw [evictLoop_eq_run] at h ⊢
  exact WhileLoop.run_of_le h hle

/-- Nothing is left to evict, and there is no room. -/
theorem evictLoop_of_empty (hempty : m.accessOrder.keys = []) (hfull : m.maxEntries ≤ m.cache.size)
    (rounds : ℕ) : m.evictLoop rounds = none := by
  rw [evictLoop_eq_run]
  refine WhileLoop.run_eq_none (· = m) ?_ rfl rounds
  rintro s rfl
  exact ⟨s, by rw [evictRound, if_pos hfull, evictLru, hempty], rfl⟩

/-- **The rounds of a `put` are enough**: if the loop has not ended by then it never does. -/
theorem evictLoop_eq_none (h : m.evictLoop (m.accessOrder.size + 1) = none) (rounds : ℕ) :
    m.evictLoop rounds = none := by
  induction hsize : m.accessOrder.size using Nat.strong_induction_on generalizing m rounds with
  | _ size ih =>
    rw [evictLoop] at h
    by_cases hfull : m.maxEntries ≤ m.cache.size
    · rw [if_pos hfull] at h
      cases hkeys : m.accessOrder.keys with
      | nil => exact evictLoop_of_empty hkeys hfull rounds
      | cons key rest =>
        have hevict : m.evictLru = m.remove key := by rw [evictLru, hkeys]
        have hless : (m.remove key).accessOrder.size < m.accessOrder.size := by
          rw [← Dict.length_keys, ← Dict.length_keys, remove, Dict.keys_erase]
          refine List.length_filter_lt_length_iff_exists.mpr ⟨key, ?_, by simp⟩
          rw [hkeys]
          exact List.mem_cons_self ..
        cases rounds with
        | zero => rfl
        | succ rounds =>
          rw [evictLoop, if_pos hfull, hevict]
          refine ih _ (hsize ▸ hless) ?_ rounds rfl
          rw [hevict] at h
          by_contra hsome
          obtain ⟨m', hm'⟩ := Option.ne_none_iff_exists'.mp hsome
          rw [evictLoop_of_le hm' (Nat.succ_le_of_lt hless)] at h
          cases h
    · rw [if_neg hfull] at h
      cases h

end EvictLoop

end CacheEngine

/-! ### What every sequence of operations keeps -/

/-- The value that was put last for a call. -/
def LastPut {A V : Type} (puts : List (Call A × V)) (x : Call A) (v : V) : Prop :=
  ∃ before after, puts = before ++ (x, v) :: after ∧ ∀ v', (x, v') ∉ after

namespace CacheEngine

variable {A V : Type} {clock : ℕ → ℚ} {argsHash : A → String} {m : CacheEngine V}
  {puts : List (Call A × V)} {uses : List String}

theorem putAt_concat (cacheable : String → Bool) (x : Call A) (result : V) (k : String) :
    putAt argsHash cacheable (puts ++ [(x, result)]) k =
      if cacheable x.tool ∧ makeCacheKey argsHash x = k then some (x, result)
      else putAt argsHash cacheable puts k := by
  rw [putAt, List.reverse_concat, List.find?_cons]
  by_cases h : cacheable x.tool ∧ makeCacheKey argsHash x = k
  · rw [if_pos h, h.1, decide_eq_true h.2]
    rfl
  · rw [if_neg h, show (cacheable x.tool && decide (makeCacheKey argsHash x = k)) = false by
      simpa using h]
    rfl

/-- What was put last under a key has that key, and was put last for its call. -/
theorem lastPut_of_putAt {cacheable : String → Bool} {k : String} {x : Call A} {v : V}
    (h : putAt argsHash cacheable puts k = some (x, v)) :
    makeCacheKey argsHash x = k ∧ LastPut puts x v := by
  obtain ⟨hown, later, earlier, hputs, hlater⟩ := List.find?_eq_some_iff_append.mp h
  obtain ⟨hcacheable, hkey⟩ := Bool.and_eq_true_iff.mp hown
  refine ⟨of_decide_eq_true hkey, earlier.reverse, later.reverse, ?_, fun v' hmem => ?_⟩
  · rw [← List.reverse_reverse puts, hputs]
    simp
  · have hnot := hlater (x, v') (List.mem_reverse.mp hmem)
    rw [show (cacheable x.tool && decide (makeCacheKey argsHash x = k)) = true from hown] at hnot
    cases hnot

/-- **The two structures have the same keys**, in the order of last use, there are no more entries
than there may be, and each has what was put last under its key. -/
structure Inv (argsHash : A → String) (puts : List (Call A × V)) (uses : List String)
    (m : CacheEngine V) : Prop where
  keys : ∀ k, k ∈ m.accessOrder.keys ↔ k ∈ m.cache.keys
  recency : ByRecency uses m.accessOrder.keys
  size : (m.cache.size : ℤ) ≤ max 0 m.maxEntries
  belongs : ∀ k e, m.cache.get? k = some e →
    ∃ x, putAt argsHash m.isCacheable puts k = some (x, e.result)

theorem inv_new (argsHash : A → String) (defaultTtl : ℚ) (maxEntries : ℤ)
    (noCacheTools : Option (List String)) :
    Inv argsHash [] [] (new defaultTtl maxEntries noCacheTools : CacheEngine V) where
  keys _ := iff_of_false List.not_mem_nil List.not_mem_nil
  recency := .nil _
  size := le_max_left _ _
  belongs _ _ h := by cases h

/-- **A removal** takes a key out of both. -/
theorem Inv.remove (h : Inv argsHash puts uses m) (key : String) :
    Inv argsHash puts uses (m.remove key) where
  keys k := by
    show k ∈ (m.accessOrder.erase key).keys ↔ k ∈ (m.cache.erase key).keys
    rw [Dict.mem_keys_erase, Dict.mem_keys_erase, h.keys]
  recency := h.recency.sublist <| by
    show (m.accessOrder.erase key).keys.Sublist _
    rw [Dict.keys_erase]
    exact List.filter_sublist
  size := (Int.ofNat_le.mpr (Dict.size_erase_le m.cache key)).trans h.size
  belongs k e he := h.belongs k e (Dict.get?_of_erase he)

theorem Inv.foldl_remove (h : Inv argsHash puts uses m) (keys : List String) :
    Inv argsHash puts uses (keys.foldl CacheEngine.remove m) := by
  induction keys generalizing m with
  | nil => exact h
  | cons key keys ih => exact ih (h.remove key)

/-- What is counted, and how often the clock has been read, makes no difference. -/
theorem Inv.counted (h : Inv argsHash puts uses m) (hits misses reads : ℕ) :
    Inv argsHash puts uses { m with hits, misses, reads } :=
  ⟨h.keys, h.recency, h.size, h.belongs⟩

theorem keys_touchAccess (m : CacheEngine V) (key : String) :
    (m.touchAccess key).accessOrder.keys = m.accessOrder.keys.filter (· ≠ key) ++ [key] := by
  show ((m.accessOrder.erase key).set key ()).keys = _
  rw [Dict.keys_set_of_not_mem (by simp), Dict.keys_erase]

/-- **A use** moves a key of the entries to the end. -/
theorem inv_touchAccess {key : String} (hrecency : ByRecency uses m.accessOrder.keys)
    (hkeys : ∀ k, k ∈ m.cache.keys ↔ k = key ∨ k ∈ m.accessOrder.keys)
    (hsize : (m.cache.size : ℤ) ≤ max 0 m.maxEntries)
    (hbelongs : ∀ k e, m.cache.get? k = some e →
      ∃ x, putAt argsHash m.isCacheable puts k = some (x, e.result)) :
    Inv argsHash puts (uses ++ [key]) (m.touchAccess key) where
  keys k := by
    rw [keys_touchAccess, List.mem_append, List.mem_filter, List.mem_singleton, decide_eq_true_eq]
    show _ ↔ k ∈ m.cache.keys
    rw [hkeys]
    by_cases hk : k = key <;> simp [hk]
  recency := by
    rw [keys_touchAccess]
    exact (hrecency.sublist List.filter_sublist).touch (by simp)
  size := hsize
  belongs := hbelongs

theorem Inv.hit (h : Inv argsHash puts uses m) {key : String} {entry : CacheEntry V}
    (hentry : m.cache.get? key = some entry) :
    Inv argsHash puts (uses ++ [key]) (m.hit key) := by
  refine inv_touchAccess h.recency (fun k => ?_) ?_ fun k e he => ?_
  · rw [Dict.keys_modify, ← h.keys]
    constructor
    · exact Or.inr
    · rintro (rfl | hk)
      · exact (h.keys _).mpr (Dict.mem_keys_iff.mpr ⟨entry, hentry⟩)
      · exact hk
  · rw [Dict.size_modify]
    exact h.size
  · rw [Dict.get?_modify] at he
    split at he
    · obtain ⟨e₀, he₀, rfl⟩ := Option.map_eq_some_iff.mp he
      exact h.belongs k e₀ he₀
    · exact h.belongs k e he

/-- **What `get` does**: there is a miss, or an entry that has expired, or one that has not. -/
theorem get_cases (clock : ℕ → ℚ) (argsHash : A → String) (m : CacheEngine V) (x : Call A) :
    m.get clock argsHash x = (none, m.miss) ∨
      ∃ entry, m.cache.get? (makeCacheKey argsHash x) = some entry ∧
        (m.get clock argsHash x = (none, (CacheEngine.remove { m with reads := m.reads + 1 }
            (makeCacheKey argsHash x)).miss) ∨
          m.get clock argsHash x = (some entry.result,
            CacheEngine.hit { m with reads := m.reads + 1 } (makeCacheKey argsHash x))) := by
  cases hcacheable : m.isCacheable x.tool with
  | false => exact .inl (if_pos hcacheable)
  | true =>
    cases hentry : m.cache.get? (makeCacheKey argsHash x) with
    | none =>
      left
      simp only [CacheEngine.get, hcacheable, hentry, reduceCtorEq, if_false]
    | some entry =>
      refine .inr ⟨entry, rfl, ?_⟩
      cases hlate : decide (entry.ttlSeconds < clock m.reads - entry.createdAt) with
      | true =>
        left
        simp only [CacheEngine.get, hcacheable, hentry, isExpired, hlate, reduceCtorEq, if_false]
      | false =>
        right
        simp only [CacheEngine.get, hcacheable, hentry, isExpired, hlate, reduceCtorEq, if_false]

/-- **What `get` leaves, and what it returns.** -/
theorem Inv.get (h : Inv argsHash puts uses m) (x : Call A) :
    Inv argsHash puts (uses ++ m.used clock argsHash (.get x : Op A V))
        (m.get clock argsHash x).2 ∧
      ∀ v, (m.get clock argsHash x).1 = some v →
        ∃ e, m.cache.get? (makeCacheKey argsHash x) = some e ∧ e.result = v := by
  have hread : Inv argsHash puts uses { m with reads := m.reads + 1 } :=
    h.counted m.hits m.misses (m.reads + 1)
  rw [used]
  obtain hget | ⟨entry, hentry, hget | hget⟩ := get_cases clock argsHash m x
  · rw [hget]
    refine ⟨?_, by simp⟩
    rw [Option.isSome_none, if_neg Bool.false_ne_true, List.append_nil]
    exact h.counted m.hits (m.misses + 1) m.reads
  · rw [hget]
    refine ⟨?_, by simp⟩
    rw [Option.isSome_none, if_neg Bool.false_ne_true, List.append_nil]
    exact (hread.remove (makeCacheKey argsHash x)).counted m.hits (m.misses + 1) (m.reads + 1)
  · rw [hget]
    exact ⟨hread.hit hentry, fun v hv => ⟨entry, hentry, Option.some.inj hv⟩⟩

/-! ### What `put` leaves -/

/-- There is an oldest key whenever there is an entry. -/
theorem Inv.evictLru (h : Inv argsHash puts uses m) (hentries : m.cache.size ≠ 0) : ∃ key,
    key ∈ m.cache.keys ∧ (∀ k ∈ m.cache.keys, k ≠ key → UsedSince uses key k) ∧
      m.evictLru = m.remove key ∧ (m.remove key).cache.size + 1 = m.cache.size := by
  cases hkeys : m.accessOrder.keys with
  | nil =>
    refine absurd ?_ hentries
    rw [← Dict.length_keys, List.length_eq_zero_iff, List.eq_nil_iff_forall_not_mem]
    intro k hk
    rw [← h.keys, hkeys] at hk
    cases hk
  | cons key rest =>
    have hmem : key ∈ m.cache.keys := (h.keys key).mp (hkeys ▸ List.mem_cons_self ..)
    refine ⟨key, hmem, fun k hk hne => ?_, by rw [CacheEngine.evictLru, hkeys], ?_⟩
    · have hrecency := h.recency
      rw [hkeys] at hrecency
      rw [← h.keys, hkeys] at hk
      exact hrecency.head ((List.mem_cons.mp hk).resolve_left hne)
    · exact Dict.size_erase_of_mem hmem

/-- The key that is the least recently used of the entries. -/
def LeastRecentlyUsed (uses : List String) (m : CacheEngine V) (key : String) : Prop :=
  key ∈ m.cache.keys ∧ ∀ k ∈ m.cache.keys, k ≠ key → UsedSince uses key k

/-- There is only one. -/
theorem LeastRecentlyUsed.unique {key key' : String} (h : LeastRecentlyUsed uses m key)
    (h' : LeastRecentlyUsed uses m key') : key = key' := by
  by_contra hne
  exact (h.2 key' h'.1 (Ne.symm hne)).asymm (h'.2 key h.1 hne)

/-- **The loop evicts nothing while there is room, and the least recently used entry of a full
cache.** -/
theorem Inv.evictLoop (h : Inv argsHash puts uses m) (hmax : 1 ≤ m.maxEntries) :
    ((m.cache.size : ℤ) < m.maxEntries → m.evictLoop (m.accessOrder.size + 1) = some m) ∧
      ((m.cache.size : ℤ) = m.maxEntries → ∃ key, LeastRecentlyUsed uses m key ∧
        m.evictLoop (m.accessOrder.size + 1) = some (m.remove key) ∧
          ((m.remove key).cache.size : ℤ) < m.maxEntries) := by
  refine ⟨fun hroom => by rw [CacheEngine.evictLoop, if_neg (not_le.mpr hroom)], fun hfull => ?_⟩
  obtain ⟨key, hmem, hlast, hevict, hsize⟩ := h.evictLru (by omega)
  have hroom : ((m.remove key).cache.size : ℤ) < m.maxEntries := by omega
  refine ⟨key, ⟨hmem, hlast⟩, ?_, hroom⟩
  have hrounds : m.accessOrder.size = (m.accessOrder.size - 1) + 1 := by
    have hpos : 0 < m.accessOrder.keys.length :=
      List.length_pos_of_mem ((h.keys key).mpr hmem)
    rw [Dict.length_keys] at hpos
    omega
  rw [CacheEngine.evictLoop, if_pos hfull.ge, hevict, hrounds, CacheEngine.evictLoop, if_neg]
  exact not_le.mpr hroom

/-- What is stored when there is room. -/
theorem Inv.store (h : Inv argsHash puts uses m) (hroom : (m.cache.size : ℤ) < m.maxEntries)
    {x : Call A} (hcacheable : m.isCacheable x.tool = true) (result : V) (ttl : ℚ) :
    Inv argsHash (puts ++ [(x, result)]) (uses ++ [makeCacheKey argsHash x])
      (m.store clock argsHash x result ttl) := by
  refine inv_touchAccess h.recency (fun k => ?_) ?_ fun k e he => ?_
  · show k ∈ (m.cache.set _ _).keys ↔ _ ∨ k ∈ m.accessOrder.keys
    rw [Dict.mem_keys_set, h.keys]
  · show ((m.cache.set _ _).size : ℤ) ≤ max 0 m.maxEntries
    rw [Dict.size_set]
    split <;> omega
  · replace he : (m.cache.set _ _).get? k = some e := he
    rw [Dict.get?_set] at he
    rw [putAt_concat]
    split at he
    · next hk =>
      obtain rfl := Option.some.inj he
      exact ⟨x, if_pos ⟨hcacheable, hk⟩⟩
    · next hk =>
      rw [if_neg fun hown => hk hown.2]
      exact h.belongs k e he

/-- A `put` that is not for the cache. -/
theorem Inv.uncached (h : Inv argsHash puts uses m) {x : Call A}
    (hcacheable : m.isCacheable x.tool = false) (result : V) :
    Inv argsHash (puts ++ [(x, result)]) uses m where
  keys := h.keys
  recency := h.recency
  size := h.size
  belongs k e he := by
    rw [putAt_concat, if_neg fun hown => by simp [hcacheable] at hown]
    exact h.belongs k e he

/-- The rounds of the loop keep everything, and there is room when they are over. -/
theorem Inv.evictLoop_eq_some (h : Inv argsHash puts uses m) {rounds : ℕ} {m' : CacheEngine V}
    (hloop : m.evictLoop rounds = some m') : Inv argsHash puts uses m' ∧
      (m'.cache.size : ℤ) < m'.maxEntries ∧ m'.noCacheTools = m.noCacheTools := by
  induction rounds generalizing m with
  | zero => cases hloop
  | succ rounds ih =>
    rw [CacheEngine.evictLoop] at hloop
    split at hloop
    · have hevict : Inv argsHash puts uses m.evictLru ∧
          m.evictLru.noCacheTools = m.noCacheTools := by
        rw [CacheEngine.evictLru]
        split
        · exact ⟨h, rfl⟩
        · exact ⟨h.remove _, rfl⟩
      obtain ⟨hinv, hroom, htools⟩ := ih hevict.1 hloop
      exact ⟨hinv, hroom, htools.trans hevict.2⟩
    · rename_i hroom
      obtain rfl := Option.some.inj hloop
      exact ⟨h, not_le.mp hroom, rfl⟩

theorem Inv.put (h : Inv argsHash puts uses m) {x : Call A} {result : V} {ttl : Option ℚ}
    {m' : CacheEngine V} (hput : m.put clock argsHash x result ttl = some m') :
    Inv argsHash (puts ++ [(x, result)])
      (uses ++ m.used clock argsHash (.put x result ttl)) m' := by
  rw [CacheEngine.put] at hput
  rw [used]
  cases hcacheable : m.isCacheable x.tool with
  | false =>
    rw [if_pos hcacheable] at hput
    obtain rfl := Option.some.inj hput
    rw [if_neg Bool.false_ne_true, List.append_nil]
    exact h.uncached hcacheable result
  | true =>
    rw [if_neg (by simp [hcacheable])] at hput
    obtain ⟨m₁, hloop, rfl⟩ := Option.map_eq_some_iff.mp hput
    obtain ⟨hinv, hroom, htools⟩ := h.evictLoop_eq_some hloop
    rw [if_pos rfl]
    refine hinv.store hroom ?_ result _
    rw [isCacheable, htools]
    exact hcacheable

/-! ### Every sequence of operations -/

theorem reads_expired (m : CacheEngine V) (l : List (String × CacheEntry V)) :
    (m.expired clock l).2 = { m with reads := m.reads + l.length } := by
  induction l generalizing m with
  | nil => rfl
  | cons p l ih =>
    rw [expired, isExpired]
    show (expired clock { m with reads := m.reads + 1 } l).2 = _
    rw [ih, List.length_cons, Nat.add_right_comm, Nat.add_assoc]

theorem Inv.step (h : Inv argsHash puts uses m) {op : Op A V} {m' : CacheEngine V}
    (hstep : m.step clock argsHash op = some m') :
    Inv argsHash (puts ++ putsOf [op]) (uses ++ m.used clock argsHash op) m' := by
  cases op with
  | get x =>
    obtain rfl := Option.some.inj hstep
    rw [show putsOf [(.get x : Op A V)] = [] from rfl, List.append_nil]
    exact (h.get x).1
  | put x result ttl => exact h.put hstep
  | invalidate server tool =>
    obtain rfl := Option.some.inj hstep
    rw [show putsOf [(.invalidate server tool : Op A V)] = [] from rfl, used, List.append_nil,
      List.append_nil]
    exact h.foldl_remove _
  | clear =>
    obtain rfl := Option.some.inj hstep
    refine ⟨fun k => iff_of_false List.not_mem_nil List.not_mem_nil, .nil _, le_max_left _ _, ?_⟩
    intro k e he
    cases he
  | getStats =>
    obtain rfl := Option.some.inj hstep
    have hread : Inv argsHash puts uses (m.expired clock m.cache.entries).2 := by
      rw [reads_expired]
      exact h.counted m.hits m.misses _
    rw [show putsOf [(.getStats : Op A V)] = [] from rfl, used, List.append_nil, List.append_nil]
    exact hread.foldl_remove _

theorem Inv.run (h : Inv argsHash puts uses m) {ops : List (Op A V)} {m' : CacheEngine V}
    (hrun : m.run clock argsHash ops = some m') :
    Inv argsHash (puts ++ putsOf ops) (uses ++ m.usesOf clock argsHash ops) m' := by
  induction ops generalizing m puts uses with
  | nil =>
    obtain rfl := Option.some.inj hrun
    rw [usesOf, show putsOf ([] : List (Op A V)) = [] from rfl, List.append_nil, List.append_nil]
    exact h
  | cons op ops ih =>
    rw [CacheEngine.run, List.foldlM_cons] at hrun
    obtain ⟨m₁, hstep, hrest⟩ := Option.bind_eq_some_iff.mp hrun
    have hputs : putsOf (op :: ops) = putsOf [op] ++ putsOf ops :=
      List.filterMap_append (l := [op])
    rw [usesOf, hstep, Option.elim_some, hputs, ← List.append_assoc, ← List.append_assoc]
    exact ih (h.step hstep) hrest

/-- A new cache, and some operations on it. -/
theorem inv_run {defaultTtl : ℚ} {maxEntries : ℤ} {noCacheTools : Option (List String)}
    {ops : List (Op A V)}
    (hrun : run clock argsHash (new defaultTtl maxEntries noCacheTools) ops = some m) :
    Inv argsHash (putsOf ops)
      (usesOf clock argsHash (new defaultTtl maxEntries noCacheTools) ops) m :=
  (inv_new argsHash defaultTtl maxEntries noCacheTools).run hrun

/-! ### Whose entries are seen and removed -/

/-- The digest is 16 hexadecimal digits, and tells arguments apart. -/
structure Digests (argsHash : A → String) : Prop where
  injective : Function.Injective argsHash
  length : ∀ a, (argsHash a).toList.length = 16
  digits : ∀ a, ∀ c ∈ (argsHash a).toList, c ∈ "0123456789abcdef".toList

theorem toList_makeCacheKey (argsHash : A → String) (x : Call A) :
    (makeCacheKey argsHash x).toList =
      (x.name ++ "__").toList ++ (argsHash x.arguments).toList := by
  rw [makeCacheKey, Call.name, String.toList_append]

/-- **What a key tells**: the arguments, and the names as they stand in it. -/
theorem Digests.of_key_eq (h : Digests argsHash) {x y : Call A}
    (hkey : makeCacheKey argsHash x = makeCacheKey argsHash y) :
    x.arguments = y.arguments ∧ x.name = y.name := by
  have hlist := congrArg String.toList hkey
  rw [toList_makeCacheKey, toList_makeCacheKey] at hlist
  obtain ⟨hnames, hdigest⟩ := List.append_inj' hlist ((h.length _).trans (h.length _).symm)
  refine ⟨h.injective (String.toList_inj.mp hdigest), ?_⟩
  rw [String.toList_append, String.toList_append] at hnames
  exact String.toList_inj.mp (List.append_cancel_right hnames)

/-- A prefix that ends with a delimiter does not reach into the digest. -/
theorem Digests.prefix_key_iff (h : Digests argsHash) (server : String) (tool : Option String)
    (x : Call A) : (keyPrefix server tool).toList <+: (makeCacheKey argsHash x).toList ↔
      (keyPrefix server tool).toList <+: (x.name ++ "__").toList := by
  rw [toList_makeCacheKey]
  refine ⟨fun hpre => ?_, fun hpre => hpre.trans (List.prefix_append _ _)⟩
  rcases List.prefix_or_prefix_of_prefix hpre (List.prefix_append _ _) with hle | ⟨rest, hrest⟩
  · exact hle
  · have hend : ∃ init, (keyPrefix server tool).toList = init ++ ['_'] := by
      have hdelimiter (s : String) : (s ++ "__").toList = (s.toList ++ ['_']) ++ ['_'] := by
        rw [String.toList_append, List.append_assoc]
        rfl
      cases tool with
      | none => exact ⟨_, hdelimiter _⟩
      | some t =>
        rw [keyPrefix]
        split
        · exact ⟨_, hdelimiter _⟩
        · exact ⟨_, hdelimiter _⟩
    rcases List.eq_nil_or_concat' rest with rfl | ⟨before, c, rfl⟩
    · rw [List.append_nil] at hrest
      exact hrest ▸ List.prefix_rfl
    · obtain ⟨init, hinit⟩ := hend
      rw [← hrest, List.prefix_append_right_inj] at hpre
      rw [hinit, ← List.append_assoc] at hrest
      obtain rfl := List.singleton_inj.mp (List.append_inj' hrest rfl).2
      have hmem := hpre.subset (List.mem_append_right before (List.mem_singleton_self '_'))
      exact absurd (h.digits _ _ hmem) (by decide)

/-- The entry is one of those that are to be invalidated. -/
def Own (server : String) (tool : Option String) (x : Call A) : Prop :=
  x.server = server ∧ ∀ t, tool = some t → t ≠ "" → x.tool = t

theorem Own.prefix_name {server : String} {tool : Option String} {x : Call A}
    (h : Own server tool x) : (keyPrefix server tool).toList <+: (x.name ++ "__").toList := by
  obtain ⟨rfl, htool⟩ := h
  have hserver : (x.server ++ "__").toList <+: (x.name ++ "__").toList := by
    rw [Call.name, String.toList_append (s := x.server ++ "__" ++ x.tool),
      String.toList_append (s := x.server ++ "__"), List.append_assoc]
    exact List.prefix_append _ _
  cases tool with
  | none => exact hserver
  | some t =>
    rw [keyPrefix]
    split
    · exact hserver
    · rename_i hne
      have hname : x.name = x.server ++ "__" ++ t := by rw [Call.name, htool t rfl hne]
      exact ⟨[], by rw [List.append_nil, hname]⟩

theorem cache_foldl_remove (m : CacheEngine V) (keys : List String) :
    (keys.foldl remove m).cache = keys.foldl Dict.erase m.cache := by
  induction keys generalizing m with
  | nil => rfl
  | cons key keys ih => exact ih (m.remove key)

/-- **What `invalidate` leaves.** -/
theorem mem_keys_invalidate (m : CacheEngine V) (server : String) (tool : Option String)
    {k : String} (hk : k ∈ m.cache.keys) : k ∉ (m.invalidate server tool).2.cache.keys ↔
      (keyPrefix server tool).toList <+: k.toList := by
  rw [invalidate, cache_foldl_remove, ← Dict.get?_eq_none_iff, Dict.get?_foldl_erase]
  rw [← List.isPrefixOf_iff_prefix]
  split
  · rename_i hmem
    exact iff_of_true rfl (List.mem_filter.mp hmem).2
  · rename_i hnot
    refine iff_of_false (fun hnone => Dict.get?_eq_none_iff.mp hnone hk) fun hpre => ?_
    exact hnot (List.mem_filter.mpr ⟨hk, hpre⟩)

/-- **Nothing is in the way** of an operation: of a `get` for the cache, no entry that was put for
another server or tool, with the same arguments and with names that are the same text once they are
joined; and of an `invalidate`, none to be kept with names that begin with the prefix. -/
def Apart (argsHash : A → String) (puts : List (Call A × V)) (m : CacheEngine V) : Op A V → Prop
  | .get x => m.isCacheable x.tool = true → ∀ k ∈ m.cache.keys,
      ∀ p ∈ putAt argsHash m.isCacheable puts k, p.1 ≠ x → p.1.arguments = x.arguments →
        p.1.name ≠ x.name
  | .invalidate server tool => ∀ k ∈ m.cache.keys,
      ∀ p ∈ putAt argsHash m.isCacheable puts k, ¬ Own server tool p.1 →
        ¬ (keyPrefix server tool).toList <+: (p.1.name ++ "__").toList
  | _ => True

/-- **An operation keeps to its own entries**: a `get` returns nothing, or what was put last for
just this call; an `invalidate` removes the entries that were put for the server, or for the tool of
it, and no others. -/
def Separate (clock : ℕ → ℚ) (argsHash : A → String) (puts : List (Call A × V))
    (m : CacheEngine V) : Op A V → Prop
  | .get x => ∀ v, (m.get clock argsHash x).1 = some v → LastPut puts x v
  | .invalidate server tool => ∀ k ∈ m.cache.keys, ∃ p ∈ putAt argsHash m.isCacheable puts k,
      (k ∉ (m.invalidate server tool).2.cache.keys ↔ Own server tool p.1)
  | _ => True

theorem Inv.exists_putAt (h : Inv argsHash puts uses m) {k : String} (hk : k ∈ m.cache.keys) :
    ∃ p, putAt argsHash m.isCacheable puts k = some p := by
  obtain ⟨e, he⟩ := Dict.mem_keys_iff.mp hk
  obtain ⟨x, hx⟩ := h.belongs k e he
  exact ⟨_, hx⟩

theorem Inv.separate_get (h : Inv argsHash puts uses m) (hdigests : Digests argsHash) {x : Call A}
    (hapart : Apart argsHash puts m (.get x)) : Separate clock argsHash puts m (.get x) := by
  intro v hv
  obtain ⟨e, he, rfl⟩ := (h.get x).2 v hv
  obtain ⟨y, hy⟩ := h.belongs _ e he
  obtain ⟨hkey, hlast⟩ := lastPut_of_putAt hy
  obtain ⟨harguments, hname⟩ := hdigests.of_key_eq hkey
  have hcacheable : m.isCacheable x.tool = true := by
    by_contra hnot
    rw [CacheEngine.get, if_pos (Bool.eq_false_of_not_eq_true hnot)] at hv
    cases hv
  have hcall : y = x := by
    by_contra hne
    exact hapart hcacheable _ (Dict.mem_keys_iff.mpr ⟨e, he⟩) (y, _) hy hne harguments hname
  exact hcall ▸ hlast

theorem Inv.separate_invalidate (h : Inv argsHash puts uses m) (hdigests : Digests argsHash)
    (server : String) (tool : Option String) :
    Separate clock argsHash puts m (.invalidate server tool) ↔
      Apart argsHash puts m (.invalidate server tool) := by
  refine forall₂_congr fun k hk => ?_
  obtain ⟨p, hp⟩ := h.exists_putAt hk
  obtain ⟨hkey, -⟩ := lastPut_of_putAt hp
  have hgone : k ∉ (m.invalidate server tool).2.cache.keys ↔
      (keyPrefix server tool).toList <+: (p.1.name ++ "__").toList := by
    rw [mem_keys_invalidate m server tool hk, ← hkey, hdigests.prefix_key_iff]
  constructor
  · rintro ⟨q, hq, hiff⟩ r hr hother hpre
    obtain rfl := Option.some.inj (hp.symm.trans hq)
    obtain rfl := Option.some.inj (hp.symm.trans hr)
    exact hother (hiff.mp (hgone.mpr hpre))
  · intro hapart
    refine ⟨p, hp, fun hremoved => ?_, fun hown => hgone.mpr hown.prefix_name⟩
    exact not_not.mp fun hother => hapart p hp hother (hgone.mp hremoved)

/-- **Entries are kept apart** by every operation that nothing is in the way of, in every state a
sequence of operations leads to; an `invalidate` that something is in the way of removes it. -/
theorem separate_of_apart (hdigests : Digests argsHash) {defaultTtl : ℚ} {maxEntries : ℤ}
    {noCacheTools : Option (List String)} {ops : List (Op A V)} {m : CacheEngine V}
    (hrun : run clock argsHash (new defaultTtl maxEntries noCacheTools) ops = some m) :
    (∀ op, Apart argsHash (putsOf ops) m op → Separate clock argsHash (putsOf ops) m op) ∧
      ∀ server tool, Separate clock argsHash (putsOf ops) m (.invalidate server tool) →
        Apart argsHash (putsOf ops) m (.invalidate server tool) := by
  have hinv := inv_run hrun
  refine ⟨fun op hapart => ?_, fun server tool =>
    (hinv.separate_invalidate hdigests server tool).mp⟩
  cases op with
  | get x => exact hinv.separate_get hdigests hapart
  | invalidate server tool => exact (hinv.separate_invalidate hdigests server tool).mpr hapart
  | put | clear | getStats => trivial

/-- A digest for calls that all have the same arguments. -/
def oneDigest (_ : Unit) : String := "0123456789abcdef"

theorem digests_oneDigest : Digests oneDigest where
  injective _ _ _ := rfl
  length _ := by
    rw [oneDigest]
    decide +kernel
  digits _ _ hc := hc

/-- A call without arguments. -/
def plainCall (server tool : String) : Call Unit := ⟨server, tool, ()⟩

/-- Some calls are put, each with its place as the result. -/
def fillOps (calls : List (Call Unit)) : List (Op Unit ℕ) := calls.mapIdx fun i x => .put x i none

/-- The cache after that. -/
def filled (maxEntries : ℤ) (calls : List (Call Unit)) : Option (CacheEngine ℕ) :=
  run (fun _ => 0) oneDigest (new 300 maxEntries none) (fillOps calls)

/-- What was put for a tool of one server is read, and removed, as one of another. -/
theorem not_separate_of_joined : ∃ m, filled 500 [plainCall "a" "b__c"] = some m ∧
    ¬ Separate (fun _ => 0) oneDigest (putsOf (fillOps [plainCall "a" "b__c"])) m
        (.get (plainCall "a__b" "c")) ∧
      ¬ Separate (fun _ => 0) oneDigest (putsOf (fillOps [plainCall "a" "b__c"])) m
        (.invalidate "a__b" none) := by
  refine ⟨_, rfl, fun h => ?_, fun h => ?_⟩
  · obtain ⟨before, after, hputs, -⟩ := h 0 (by decide +kernel)
    have hmem : (plainCall "a__b" "c", 0) ∈ [(plainCall "a" "b__c", 0)] := by
      rw [show [(plainCall "a" "b__c", 0)] = before ++ (plainCall "a__b" "c", 0) :: after from
        hputs]
      simp
    simp [plainCall] at hmem
  · obtain ⟨p, hp, hown⟩ :=
      h (makeCacheKey oneDigest (plainCall "a" "b__c")) (by decide +kernel)
    obtain rfl : (plainCall "a" "b__c", 0) = p := Option.some.inj hp
    exact absurd (hown.mp (by decide +kernel)).1 (by decide)

/-- Two tools of one server, one of which is put again, and one of another. -/
def mixedOps : List (Op Unit ℕ) :=
  fillOps [plainCall "fs" "read", plainCall "fs" "write", plainCall "fs_2" "read",
    plainCall "fs" "read"]

theorem separate_of_apart_mixed : ∃ m,
    run (fun _ => 0) oneDigest (new 300 500 none) mixedOps = some m ∧
    (m.get (fun _ => 0) oneDigest (plainCall "fs" "read")).1 = some 3 ∧
    (m.invalidate "fs" none).2.cache.keys = [makeCacheKey oneDigest (plainCall "fs_2" "read")] ∧
    Separate (fun _ => 0) oneDigest (putsOf mixedOps) m (.get (plainCall "fs" "read")) ∧
    Separate (fun _ => 0) oneDigest (putsOf mixedOps) m (.invalidate "fs" none) := by
  have hrun : (run (fun _ => 0) oneDigest (new 300 500 none) mixedOps).any (fun m =>
      (m.get (fun _ => 0) oneDigest (plainCall "fs" "read")).1 = some 3 ∧
      (m.invalidate "fs" none).2.cache.keys =
        [makeCacheKey oneDigest (plainCall "fs_2" "read")] ∧
      (∀ k ∈ m.cache.keys, ∀ p ∈ putAt oneDigest m.isCacheable (putsOf mixedOps) k,
        p.1 ≠ plainCall "fs" "read" → p.1.arguments = () → p.1.name ≠ "fs__read") ∧
      ∀ k ∈ m.cache.keys, ∀ p ∈ putAt oneDigest m.isCacheable (putsOf mixedOps) k,
        p.1.server ≠ "fs" → ¬ "fs__".toList <+: (p.1.name ++ "__").toList) = true := by
    decide +kernel
  obtain ⟨m, hm, hanswers⟩ := (Option.any_eq_true _ _).mp hrun
  obtain ⟨hget, hkeys, hread, hfs⟩ := of_decide_eq_true hanswers
  have hseparate := (separate_of_apart digests_oneDigest hm).1
  refine ⟨m, hm, hget, hkeys, hseparate _ fun _ => hread, hseparate _ fun k hk p hp hother => ?_⟩
  exact hfs k hk p hp fun hserver => hother ⟨hserver, nofun⟩

/-! ### Evictions -/

/-- What a cache is made with. -/
def settings (m : CacheEngine V) : ℚ × ℤ × List String :=
  (m.defaultTtl, m.maxEntries, m.noCacheTools)

theorem settings_foldl_remove (m : CacheEngine V) (keys : List String) :
    (keys.foldl remove m).settings = m.settings := by
  induction keys generalizing m with
  | nil => rfl
  | cons key keys ih => exact ih (m.remove key)

theorem settings_get (m : CacheEngine V) (x : Call A) :
    (m.get clock argsHash x).2.settings = m.settings := by
  obtain hget | ⟨entry, -, hget | hget⟩ := get_cases clock argsHash m x
  · rw [hget, miss, settings, settings]
  · rw [hget, miss, remove, settings, settings]
  · rw [hget, hit, touchAccess, settings, settings]

theorem settings_evictLoop {m m' : CacheEngine V} {rounds : ℕ}
    (h : m.evictLoop rounds = some m') : m'.settings = m.settings := by
  induction rounds generalizing m with
  | zero => cases h
  | succ rounds ih =>
    rw [evictLoop] at h
    split at h
    · rw [ih h, evictLru]
      split <;> rfl
    · rw [← Option.some.inj h]

theorem settings_step {m m' : CacheEngine V} {op : Op A V}
    (h : m.step clock argsHash op = some m') : m'.settings = m.settings := by
  cases op with
  | get x => exact Option.some.inj h ▸ settings_get m x
  | put x result ttl =>
    rw [step, put] at h
    split at h
    · rw [← Option.some.inj h]
    · obtain ⟨m₁, hloop, rfl⟩ := Option.map_eq_some_iff.mp h
      exact show m₁.settings = m.settings from settings_evictLoop hloop
  | invalidate server tool => exact Option.some.inj h ▸ settings_foldl_remove m _
  | clear => rw [← Option.some.inj h, clear, settings, settings]
  | getStats =>
    rw [← Option.some.inj h, cleanupExpired]
    exact (settings_foldl_remove _ _).trans (by rw [reads_expired, settings, settings])

theorem settings_run {m m' : CacheEngine V} {ops : List (Op A V)}
    (h : m.run clock argsHash ops = some m') : m'.settings = m.settings := by
  induction ops generalizing m with
  | nil => rw [← Option.some.inj h]
  | cons op ops ih =>
    rw [run, List.foldlM_cons] at h
    obtain ⟨m₁, hstep, hrest⟩ := Option.bind_eq_some_iff.mp h
    rw [ih hrest, settings_step hstep]

theorem maxEntries_of_settings_eq {m m' : CacheEngine V} (h : m'.settings = m.settings) :
    m'.maxEntries = m.maxEntries :=
  congrArg (fun s => s.2.1) h

theorem isCacheable_of_settings_eq {m m' : CacheEngine V} (h : m'.settings = m.settings)
    (toolName : String) : m'.isCacheable toolName = m.isCacheable toolName := by
  rw [isCacheable, isCacheable, show m'.noCacheTools = m.noCacheTools from congrArg (·.2.2) h]

/-- **A `put` evicts what it has to**: it returns; another entry goes only if a key that is not
there is put into a full cache, and it is the least recently used one then; and then that one goes
and all others stay. -/
structure Frugal (clock : ℕ → ℚ) (argsHash : A → String) (uses : List String)
    (m : CacheEngine V) (x : Call A) (result : V) (ttl : Option ℚ) : Prop where
  evicted : ∃ m', m.put clock argsHash x result ttl = some m' ∧
    (∀ k ∈ m.cache.keys, k ≠ makeCacheKey argsHash x → k ∉ m'.cache.keys →
      makeCacheKey argsHash x ∉ m.cache.keys ∧ m.cache.size = m.maxEntries ∧
        LeastRecentlyUsed uses m k) ∧
    (m.isCacheable x.tool = true → makeCacheKey argsHash x ∉ m.cache.keys →
      m.cache.size = m.maxEntries → ∃ key, LeastRecentlyUsed uses m key ∧
        ∀ k ∈ m.cache.keys, k ∈ m'.cache.keys ↔ k ≠ key)

/-- The key of the call is not there, or there is room, or its entry is the least recently used. -/
def Overwrites (argsHash : A → String) (uses : List String) (m : CacheEngine V) (x : Call A) :
    Prop :=
  m.isCacheable x.tool = true → makeCacheKey argsHash x ∈ m.cache.keys →
    m.cache.size = m.maxEntries → LeastRecentlyUsed uses m (makeCacheKey argsHash x)

/-- A `put` stores its entry in what the loop leaves. -/
theorem exists_put (clock : ℕ → ℚ) (argsHash : A → String) {m m₁ : CacheEngine V} {x : Call A}
    (result : V) (ttl : Option ℚ) (hcacheable : m.isCacheable x.tool = true)
    (hloop : m.evictLoop (m.accessOrder.size + 1) = some m₁) :
    ∃ m', m.put clock argsHash x result ttl = some m' ∧
      ∀ k, k ∈ m'.cache.keys ↔ k = makeCacheKey argsHash x ∨ k ∈ m₁.cache.keys := by
  refine ⟨m₁.store clock argsHash x result (ttl.getD m₁.defaultTtl), ?_, fun k => ?_⟩
  · simp only [CacheEngine.put, hcacheable, reduceCtorEq, if_false, hloop, Option.map_some]
  · show k ∈ (m₁.cache.set _ _).keys ↔ _
    exact Dict.mem_keys_set

/-- **What a `put` does.** -/
theorem Inv.frugal_put_iff (h : Inv argsHash puts uses m) (hmax : 1 ≤ m.maxEntries) (x : Call A)
    (result : V) (ttl : Option ℚ) :
    Frugal clock argsHash uses m x result ttl ↔ Overwrites argsHash uses m x := by
  cases hcacheable : m.isCacheable x.tool with
  | false =>
    have hput : m.put clock argsHash x result ttl = some m := if_pos hcacheable
    refine iff_of_true ⟨_, hput, fun k hk _ hgone => absurd hk hgone, ?_⟩ ?_
    · rw [hcacheable]
      nofun
    · rw [Overwrites, hcacheable]
      nofun
  | true =>
    obtain ⟨hroom, hfull⟩ := h.evictLoop hmax
    have hsize := h.size
    by_cases hlt : (m.cache.size : ℤ) < m.maxEntries
    · obtain ⟨m', hput, hkeys⟩ := exists_put clock argsHash result ttl hcacheable (hroom hlt)
      refine iff_of_true ⟨m', hput, fun k hk _ hgone => ?_, fun _ _ heq => ?_⟩ fun _ _ heq => ?_
      · exact absurd ((hkeys k).mpr (.inr hk)) hgone
      · omega
      · omega
    · have heq : (m.cache.size : ℤ) = m.maxEntries := by omega
      obtain ⟨key, hlast, hloop, -⟩ := hfull heq
      obtain ⟨m', hput, hkeys⟩ := exists_put clock argsHash result ttl hcacheable hloop
      have hkeys : ∀ k, k ∈ m'.cache.keys ↔ k = makeCacheKey argsHash x ∨
          k ∈ m.cache.keys ∧ k ≠ key := fun k =>
        (hkeys k).trans (or_congr_right Dict.mem_keys_erase)
      constructor
      · rintro ⟨m'', hput', hevicted, -⟩ - hmem -
        obtain rfl := Option.some.inj (hput.symm.trans hput')
        by_cases hown : key = makeCacheKey argsHash x
        · exact hown ▸ hlast
        · have hgone : key ∉ m'.cache.keys := by
            rw [hkeys]
            rintro (hk | hk)
            · exact hown hk
            · exact hk.2 rfl
          exact absurd hmem (hevicted key hlast.1 hown hgone).1
      · intro hover
        refine ⟨m', hput, fun k hk hne hgone => ?_, fun _ habsent _ => ⟨key, hlast, fun k hk => ?_⟩⟩
        · have hkey : k = key := by
            by_contra hother
            exact hgone ((hkeys k).mpr (.inr ⟨hk, hother⟩))
          refine ⟨fun hmem => ?_, heq, hkey ▸ hlast⟩
          exact hne (hkey.trans (hlast.unique (hover hcacheable hmem heq)))
        · rw [hkeys]
          refine ⟨fun hmem => ?_, fun hother => .inr ⟨hk, hother⟩⟩
          exact hmem.elim (fun hown => absurd (hown ▸ hk) habsent) fun hmem => hmem.2

/-- **In every state a sequence of operations leads to** the two structures have the same keys, the
cache is not too large, and a `put` evicts what it has to just when it overwrites no entry of a full
cache, but for the least recently used one. -/
theorem frugal_iff {defaultTtl : ℚ} {maxEntries : ℤ} (hmax : 1 ≤ maxEntries)
    {noCacheTools : Option (List String)} {ops : List (Op A V)} {m : CacheEngine V}
    (hrun : run clock argsHash (new defaultTtl maxEntries noCacheTools) ops = some m) :
    (∀ k, k ∈ m.accessOrder.keys ↔ k ∈ m.cache.keys) ∧ m.cache.size ≤ maxEntries ∧
      ∀ x result ttl,
        Frugal clock argsHash (usesOf clock argsHash (new defaultTtl maxEntries noCacheTools) ops)
            m x result ttl ↔
          Overwrites argsHash
            (usesOf clock argsHash (new defaultTtl maxEntries noCacheTools) ops) m x := by
  have hinv := inv_run hrun
  have hentries : m.maxEntries = maxEntries := maxEntries_of_settings_eq (settings_run hrun)
  have hsize := hinv.size
  refine ⟨hinv.keys, by omega, fun x result ttl => ?_⟩
  exact hinv.frugal_put_iff (hentries ▸ hmax) x result ttl

/-- What some calls use that are put. -/
def fillUses (maxEntries : ℤ) (calls : List (Call Unit)) : List String :=
  usesOf (fun _ => 0) oneDigest (new 300 maxEntries none) (fillOps calls)

/-- Two entries in a cache for two, the newer of which is put again. -/
theorem not_frugal_of_overwrite : ∃ m, filled 2 [plainCall "a" "x", plainCall "a" "y"] = some m ∧
    ¬ Frugal (fun _ => 0) oneDigest (fillUses 2 [plainCall "a" "x", plainCall "a" "y"]) m
      (plainCall "a" "y") 2 none := by
  refine ⟨_, rfl, ?_⟩
  rintro ⟨m', hput, hevicted, -⟩
  obtain rfl := Option.some.inj hput
  have hx := (hevicted (makeCacheKey oneDigest (plainCall "a" "x")) (by decide +kernel)
    (by decide +kernel) (by decide +kernel)).1
  exact hx (by decide +kernel)

/-- A full cache, whose older entry has been read: the other one makes room for a new one. -/
def readOps : List (Op Unit ℕ) :=
  fillOps [plainCall "a" "x", plainCall "a" "y"] ++ [.get (plainCall "a" "x")]

theorem frugal_iff_full : ∃ m, run (fun _ => 0) oneDigest (new 300 2 none) readOps = some m ∧
    (m.cache.size : ℤ) = m.maxEntries ∧
    (m.put (fun _ => 0) oneDigest (plainCall "a" "z") 2 none).map (·.cache.keys) =
      some [makeCacheKey oneDigest (plainCall "a" "x"),
        makeCacheKey oneDigest (plainCall "a" "z")] ∧
    Frugal (fun _ => 0) oneDigest (usesOf (fun _ => 0) oneDigest (new 300 2 none) readOps) m
      (plainCall "a" "z") 2 none := by
  have hrun : (run (fun _ => 0) oneDigest (new 300 2 none) readOps).any (fun m =>
      (m.cache.size : ℤ) = m.maxEntries ∧
      (m.put (fun _ => 0) oneDigest (plainCall "a" "z") 2 none).map (·.cache.keys) =
        some [makeCacheKey oneDigest (plainCall "a" "x"),
          makeCacheKey oneDigest (plainCall "a" "z")] ∧
      makeCacheKey oneDigest (plainCall "a" "z") ∉ m.cache.keys) = true := by
    decide +kernel
  obtain ⟨m, hm, hanswers⟩ := (Option.any_eq_true _ _).mp hrun
  obtain ⟨hfull, hput, habsent⟩ := of_decide_eq_true hanswers
  have hiff := (frugal_iff (by decide : (1 : ℤ) ≤ 2) hm).2.2 (plainCall "a" "z") 2 none
  exact ⟨m, hm, hfull, hput, hiff.mpr fun _ hmem => absurd hmem habsent⟩

/-! ### Whether a `put` returns -/

/-- **The loop ends when evictions can make room.** They can if one entry is allowed; if none is,
the loop goes on with an empty cache, from which nothing is evicted. -/
theorem Inv.evictLoop_ends_iff (h : Inv argsHash puts uses m) :
    (∃ rounds m', m.evictLoop rounds = some m') ↔ 1 ≤ m.maxEntries := by
  constructor
  · rintro ⟨rounds, m', hloop⟩
    obtain ⟨-, hroom, -⟩ := h.evictLoop_eq_some hloop
    rw [maxEntries_of_settings_eq (settings_evictLoop hloop)] at hroom
    omega
  · intro hmax
    obtain ⟨hroom, hfull⟩ := h.evictLoop hmax
    have hsize := h.size
    by_cases hlt : (m.cache.size : ℤ) < m.maxEntries
    · exact ⟨_, m, hroom hlt⟩
    · obtain ⟨key, -, hloop, -⟩ := hfull (by omega)
      exact ⟨_, _, hloop⟩

theorem Inv.put_returns_iff (h : Inv argsHash puts uses m) (x : Call A) (result : V)
    (ttl : Option ℚ) :
    (∃ m', m.put clock argsHash x result ttl = some m') ↔
      1 ≤ m.maxEntries ∨ m.isCacheable x.tool = false := by
  rw [CacheEngine.put]
  cases hcacheable : m.isCacheable x.tool with
  | false => exact iff_of_true ⟨_, if_pos rfl⟩ (.inr rfl)
  | true =>
    simp only [Bool.true_eq_false, if_false, Option.map_eq_some_iff, or_false]
    rw [← h.evictLoop_ends_iff]
    constructor
    · rintro ⟨-, m', hloop, -⟩
      exact ⟨_, m', hloop⟩
    · rintro ⟨rounds, m', hloop⟩
      cases hput : m.evictLoop (m.accessOrder.size + 1) with
      | none =>
        rw [evictLoop_eq_none hput] at hloop
        cases hloop
      | some m₁ => exact ⟨_, m₁, rfl, rfl⟩

/-- Nothing is put into the cache by some operations. -/
def NonePut (m : CacheEngine V) (ops : List (Op A V)) : Prop :=
  ∀ x result ttl, .put x result ttl ∈ ops → m.isCacheable x.tool = false

/-- An operation that is no `put` returns. -/
theorem Inv.step_returns_iff (h : Inv argsHash puts uses m) (op : Op A V) :
    (∃ m', m.step clock argsHash op = some m') ↔ 1 ≤ m.maxEntries ∨ m.NonePut [op] := by
  cases op with
  | put x result ttl =>
    refine (h.put_returns_iff x result ttl).trans (or_congr_right ⟨?_, ?_⟩)
    · rintro hcacheable x' result' ttl' hmem
      cases List.mem_singleton.mp hmem
      exact hcacheable
    · exact fun hnone => hnone x result ttl (List.mem_singleton_self _)
  | _ =>
    refine iff_of_true ⟨_, rfl⟩ (.inr fun x result ttl hmem => ?_)
    cases List.mem_singleton.mp hmem

/-- **A sequence of operations returns** when one entry is allowed, or nothing is put. -/
theorem Inv.run_returns_iff (h : Inv argsHash puts uses m) (ops : List (Op A V)) :
    (∃ m', m.run clock argsHash ops = some m') ↔ 1 ≤ m.maxEntries ∨ m.NonePut ops := by
  induction ops generalizing m puts uses with
  | nil => exact iff_of_true ⟨m, rfl⟩ (.inr fun x result ttl hmem => absurd hmem List.not_mem_nil)
  | cons op ops ih =>
    have hsplit : m.NonePut (op :: ops) ↔ m.NonePut [op] ∧ m.NonePut ops := by
      simp only [NonePut, List.mem_cons, List.not_mem_nil, or_false, or_imp, forall_and]
    rw [hsplit, or_and_left, ← h.step_returns_iff, CacheEngine.run, List.foldlM_cons]
    cases hstep : m.step clock argsHash op with
    | none => simp
    | some m₁ =>
      have hsettings := settings_step hstep
      have hnone : m₁.NonePut ops ↔ m.NonePut ops := by
        simp only [NonePut, isCacheable_of_settings_eq hsettings]
      have hrest := ih (h.step hstep)
      rw [maxEntries_of_settings_eq hsettings, hnone] at hrest
      simpa [CacheEngine.run] using hrest

/-- **When a `put` returns**, in every state a sequence of operations leads to: at least one entry
is allowed, or the result is not for the cache. And so a sequence of operations returns if at least
one entry is allowed, or nothing is put into the cache, and only then. -/
theorem returns_iff (clock : ℕ → ℚ) (argsHash : A → String) (defaultTtl : ℚ) (maxEntries : ℤ)
    (noCacheTools : Option (List String)) (ops : List (Op A V)) :
    ((∃ m, run clock argsHash (new defaultTtl maxEntries noCacheTools) ops = some m) ↔
      1 ≤ maxEntries ∨
        (new defaultTtl maxEntries noCacheTools : CacheEngine V).NonePut ops) ∧
      ∀ m, run clock argsHash (new defaultTtl maxEntries noCacheTools) ops = some m →
        ((∃ rounds m', m.evictLoop rounds = some m') ↔ 1 ≤ maxEntries) ∧
        ∀ x result ttl, (∃ m', m.put clock argsHash x result ttl = some m') ↔
          1 ≤ maxEntries ∨ m.isCacheable x.tool = false := by
  have hnew := inv_new (V := V) argsHash defaultTtl maxEntries noCacheTools
  refine ⟨hnew.run_returns_iff ops, fun m hrun => ?_⟩
  have hinv := hnew.run hrun
  have hentries : m.maxEntries = maxEntries := maxEntries_of_settings_eq (settings_run hrun)
  rw [← hentries]
  exact ⟨hinv.evictLoop_ends_iff, hinv.put_returns_iff⟩

/-- The first result for a cache of no entries. -/
theorem not_put_returns_of_zero : ∃ m, filled 0 [] = some m ∧
    (∀ rounds, m.evictLoop rounds = none) ∧
      m.put (fun _ => 0) oneDigest (plainCall "a" "x") 0 none = none :=
  ⟨_, rfl, evictLoop_of_empty rfl (by decide), by decide +kernel⟩

end CacheEngine

end Intelligence

end SlmMcpHub
