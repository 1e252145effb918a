import Mathlib.Data.Rat.Defs
import Mathlib.Algebra.Order.Ring.Unbundled.Rat
import SlmMcpHub.Library.Deque
import SlmMcpHub.Library.Dict
import SlmMcpHub.Library.IntLiteral

/-!
# The in-memory event store

`streaming/event_store.py`. One store serves every stream of the hub: event ids come from one
counter, buffers belong to one stream each, and three rules drop events — a full buffer drops its
oldest event, a store at its cap of streams drops the oldest stream, and every `store_event` first
drops the streams that have been idle too long.

Both methods hold the store's lock from their first read to their last write and await nothing in
between, so each is one step. `time.monotonic()` is read several times within one; the readings
are arguments.

## Main definitions

* `InMemoryEventStore` — the store
* `storeEvent`, `replayEventsAfter` — its two methods

## Main results

* `storeEvent_eq_ok` — what a successful `storeEvent` leaves under each stream
* `replayEventsAfter_cases` — which stream a replay answers from
-/

namespace SlmMcpHub

/-- `EventMessage`: a message, `none` for a priming event, with the id it was stored under. -/
structure EventMessage (μ : Type) where
  /-- The message. -/
  message : Option μ
  /-- The id `store_event` returned. -/
  eventId : String
deriving DecidableEq

/-- `_StreamRecord` -/
structure StreamRecord (μ : Type) where
  /-- The ring buffer of pairs of an id and an event. -/
  events : Deque (String × EventMessage μ)
  /-- When an event was last stored to the stream or replayed from it. -/
  lastEventAt : ℚ

/-- `InMemoryEventStore` -/
structure InMemoryEventStore (μ : Type) where
  /-- `_max_events_per_stream` -/
  maxEventsPerStream : ℤ
  /-- `_max_streams` -/
  maxStreams : ℤ
  /-- `_stream_ttl_s` -/
  streamTtlS : ℚ
  /-- `_streams`, the stream created first in front. -/
  streams : Dict String (StreamRecord μ)
  /-- `_next_event_id` -/
  nextEventId : ℕ

/-- What `store_event` can raise: `next(iter({}))` out of a coroutine, and a `deque` of negative
length. -/
inductive StoreError where
  | runtimeError
  | valueError
deriving DecidableEq

namespace InMemoryEventStore

variable {μ : Type}

/-- `InMemoryEventStore(max_events_per_stream, max_streams, stream_ttl_s)` -/
def create (maxEventsPerStream maxStreams : ℤ) (streamTtlS : ℚ) : InMemoryEventStore μ :=
  ⟨maxEventsPerStream, maxStreams, streamTtlS, .empty, 0⟩

/-- `int(ev_id)` of an id the store wrote itself. -/
def eventNumber (eventId : String) : ℤ := (IntLiteral.parse eventId).getD 0

@[simp] theorem eventNumber_toString (n : ℕ) : eventNumber (toString n) = n := by
  rw [eventNumber, IntLiteral.parse_toString, Option.getD_some]

/-- `_prune_expired_streams` -/
def pruneExpiredStreams (st : InMemoryEventStore μ) (now : ℚ) : InMemoryEventStore μ :=
  let cutoff := now - st.streamTtlS
  let expired := (st.streams.entries.filter fun p => decide (p.2.lastEventAt < cutoff)).map Prod.fst
  { st with streams := expired.foldl Dict.erase st.streams }

/-- The first key goes when the store is at its cap; the cap may be met with no key at all. -/
def evictOldest (st : InMemoryEventStore μ) : Except StoreError (InMemoryEventStore μ) :=
  if st.maxStreams ≤ st.streams.size then
    match st.streams.keys with
    | [] => .error .runtimeError
    | oldestId :: _ => .ok { st with streams := st.streams.erase oldestId }
  else .ok st

/-- A new record with an empty buffer, put last. -/
def openStream (st : InMemoryEventStore μ) (streamId : String) (now : ℚ) :
    InMemoryEventStore μ × Except StoreError Unit :=
  if st.maxEventsPerStream < 0 then (st, .error .valueError)
  else
    ({ st with streams := st.streams.set streamId ⟨.empty st.maxEventsPerStream.toNat, now⟩ },
      .ok ())

/-- `_get_or_create_stream`; the record it returns is the one under `streamId` in the store. -/
def getOrCreateStream (st : InMemoryEventStore μ) (streamId : String) (now : ℚ) :
    InMemoryEventStore μ × Except StoreError Unit :=
  if st.streams.contains streamId then (st, .ok ())
  else
    match st.evictOldest with
    | .error e => (st, .error e)
    | .ok st => st.openStream streamId now

/-- `store_event`. The three readings of the clock are the one of the prune, the one of a new
record and the one of the stored event. -/
def storeEvent (st : InMemoryEventStore μ) (streamId : String) (message : Option μ)
    (pruneAt createAt storeAt : ℚ) : InMemoryEventStore μ × Except StoreError String :=
  let st := st.pruneExpiredStreams pruneAt
  match st.getOrCreateStream streamId createAt with
  | (st, .error e) => (st, .error e)
  | (st, .ok ()) =>
    let eventId := toString st.nextEventId
    ({ st with
        nextEventId := st.nextEventId + 1
        streams := st.streams.modify streamId fun record =>
          ⟨record.events.append (eventId, ⟨message, eventId⟩), storeAt⟩ },
      .ok eventId)

/-- The events of a record a replay after `target` sends. -/
def eventsAfter (record : StreamRecord μ) (target : ℤ) : List (EventMessage μ) :=
  (record.events.items.filter fun p =>
    decide (target < eventNumber p.1) && p.2.message.isSome).map Prod.snd

/-- `record.last_event_at = time.monotonic()` -/
def touch (st : InMemoryEventStore μ) (streamId : String) (now : ℚ) : InMemoryEventStore μ :=
  { st with streams := st.streams.modify streamId fun record => { record with lastEventAt := now } }

/-- Pass 1: the stream whose buffer holds `target`. -/
def findOwner (st : InMemoryEventStore μ) (target : ℤ) : Option (String × StreamRecord μ) :=
  st.streams.entries.find? fun p => p.2.events.items.any fun ev => eventNumber ev.1 == target

/-- Pass 2: the streams whose oldest buffered event is newer than `target`. -/
def candidates (st : InMemoryEventStore μ) (target : ℤ) : List (String × StreamRecord μ) :=
  st.streams.entries.filter fun p =>
    match p.2.events.items with
    | [] => false
    | first :: _ => decide (target < eventNumber first.1)

/-- `replay_events_after`: the store, the stream id returned and the events given to
`send_callback`, in order. -/
def replayEventsAfter (st : InMemoryEventStore μ) (lastEventId : String) (now : ℚ) :
    InMemoryEventStore μ × Option String × List (EventMessage μ) :=
  match IntLiteral.parse lastEventId with
  | none => (st, none, [])
  | some target =>
    match st.findOwner target with
    | some (sid, record) => (st.touch sid now, some sid, eventsAfter record target)
    | none =>
      match st.candidates target with
      | [(sid, record)] => (st.touch sid now, some sid, eventsAfter record target)
      | _ => (st, none, [])

/-! ### Pruning -/

theorem keys_foldl_erase {ν : Type} : ∀ (ks : List String) (d : Dict String ν),
    (ks.foldl Dict.erase d).keys = d.keys.filter fun k => decide (k ∉ ks)
  | [], d => by simp
  | k' :: ks, d => by
    rw [List.foldl_cons, keys_foldl_erase ks, Dict.keys_erase, List.filter_filter]
    refine List.filter_congr fun k _ => ?_
    simp [Bool.and_comm]

/-- Whether a record is older than the time to live allows. -/
def Idle (st : InMemoryEventStore μ) (record : StreamRecord μ) (now : ℚ) : Prop :=
  record.lastEventAt < now - st.streamTtlS

instance (st : InMemoryEventStore μ) (record : StreamRecord μ) (now : ℚ) :
    Decidable (st.Idle record now) :=
  inferInstanceAs (Decidable (record.lastEventAt < now - st.streamTtlS))

/-- A prune keeps exactly the records that are not idle. -/
theorem get?_pruneExpiredStreams (st : InMemoryEventStore μ) (now : ℚ) (sid : String)
    (record : StreamRecord μ) :
    (st.pruneExpiredStreams now).streams.get? sid = some record ↔
      st.streams.get? sid = some record ∧ ¬ st.Idle record now := by
  rw [pruneExpiredStreams, Dict.get?_foldl_erase]
  simp only [List.mem_map, List.mem_filter, decide_eq_true_eq, Prod.exists, exists_and_right,
    exists_eq_right, Dict.mem_entries_iff]
  constructor
  · intro h
    split at h
    · exact absurd h (by simp)
    · next hex => exact ⟨h, fun hidle => hex ⟨record, h, hidle⟩⟩
  · rintro ⟨hget, hidle⟩
    rw [if_neg, hget]
    rintro ⟨record', hget', hidle'⟩
    obtain rfl : record = record' := Option.some.inj (hget.symm.trans hget')
    exact hidle hidle'

theorem keys_pruneExpiredStreams_sublist (st : InMemoryEventStore μ) (now : ℚ) :
    (st.pruneExpiredStreams now).streams.keys.Sublist st.streams.keys := by
  rw [pruneExpiredStreams, keys_foldl_erase]
  exact List.filter_sublist

/-! ### What the methods leave of the store -/

/-- `st'` holds some of the records of `st`, in the same order, and nothing else. -/
structure Shrinks (st st' : InMemoryEventStore μ) : Prop where
  keys : st'.streams.keys.Sublist st.streams.keys
  get? : ∀ {sid record}, st'.streams.get? sid = some record → st.streams.get? sid = some record
  next : st'.nextEventId = st.nextEventId
  maxEvents : st'.maxEventsPerStream = st.maxEventsPerStream
  maxStreams : st'.maxStreams = st.maxStreams
  ttl : st'.streamTtlS = st.streamTtlS

theorem Shrinks.refl (st : InMemoryEventStore μ) : Shrinks st st :=
  ⟨List.Sublist.refl _, id, rfl, rfl, rfl, rfl⟩

theorem Shrinks.trans {st st' st'' : InMemoryEventStore μ} (h : Shrinks st st')
    (h' : Shrinks st' st'') : Shrinks st st'' :=
  ⟨h'.keys.trans h.keys, h.get? ∘ h'.get?, h'.next.trans h.next,
    h'.maxEvents.trans h.maxEvents, h'.maxStreams.trans h.maxStreams, h'.ttl.trans h.ttl⟩

theorem shrinks_pruneExpiredStreams (st : InMemoryEventStore μ) (now : ℚ) :
    Shrinks st (st.pruneExpiredStreams now) :=
  ⟨keys_pruneExpiredStreams_sublist st now,
    fun h => ((get?_pruneExpiredStreams st now _ _).mp h).1, rfl, rfl, rfl, rfl⟩

theorem keys_erase_head {ν : Type} {d : Dict String ν} {k : String} {ks : List String}
    (h : d.keys = k :: ks) : (d.erase k).keys = ks := by
  have hnodup : (k :: ks).Nodup := h ▸ d.keys_nodup
  rw [Dict.keys_erase, h, List.filter_cons_of_neg (by simp), List.filter_eq_self]
  intro k' hk'
  simpa using fun heq : k' = k => (List.nodup_cons.mp hnodup).1 (heq ▸ hk')

/-- Making room keeps everything below the cap, and drops exactly the first stream at it. -/
theorem evictOldest_eq_ok {st st' : InMemoryEventStore μ} (h : st.evictOldest = .ok st') :
    (st' = st ∧ (st.streams.size : ℤ) < st.maxStreams) ∨
      ∃ oldestId rest, st.streams.keys = oldestId :: rest ∧ st.maxStreams ≤ st.streams.size ∧
        st' = { st with streams := st.streams.erase oldestId } ∧ st'.streams.keys = rest := by
  rw [evictOldest] at h
  split at h
  · next hcap =>
    right
    cases hkeys : st.streams.keys with
    | nil => rw [hkeys] at h; exact absurd h (by simp)
    | cons oldestId rest =>
      rw [hkeys] at h
      obtain rfl := Except.ok.inj h
      exact ⟨oldestId, rest, rfl, hcap, rfl, keys_erase_head hkeys⟩
  · next hcap => exact Or.inl ⟨(Except.ok.inj h).symm, not_le.mp hcap⟩

theorem shrinks_of_evictOldest {st st' : InMemoryEventStore μ} (h : st.evictOldest = .ok st') :
    Shrinks st st' := by
  obtain ⟨rfl, -⟩ | ⟨oldestId, rest, hkeys, -, rfl, hrest⟩ := evictOldest_eq_ok h
  · exact Shrinks.refl _
  · refine ⟨?_, fun {sid record} hget => ?_, rfl, rfl, rfl, rfl⟩
    · rw [hrest, hkeys]
      exact List.sublist_cons_self _ _
    · rw [Dict.get?_erase] at hget
      split at hget
      · exact absurd hget (by simp)
      · exact hget

/-- A stream is found, or room is made and it is opened. -/
theorem getOrCreateStream_eq_ok {st st' : InMemoryEventStore μ} {streamId : String} {now : ℚ}
    (h : st.getOrCreateStream streamId now = (st', .ok ())) :
    (st.streams.contains streamId = true ∧ st' = st) ∨
      (st.streams.contains streamId = false ∧ ∃ kept, st.evictOldest = .ok kept ∧
        st' = { kept with streams :=
          kept.streams.set streamId ⟨.empty kept.maxEventsPerStream.toNat, now⟩ }) := by
  rw [getOrCreateStream] at h
  split at h
  · next hcontains => exact Or.inl ⟨hcontains, (Prod.mk.inj h).1.symm⟩
  · next hcontains =>
    right
    refine ⟨Bool.eq_false_iff.mpr hcontains, ?_⟩
    split at h
    · exact absurd (Prod.mk.inj h).2 (by simp)
    · next kept hkept =>
      refine ⟨kept, hkept, ?_⟩
      rw [openStream] at h
      split at h
      · exact absurd (Prod.mk.inj h).2 (by simp)
      · exact (Prod.mk.inj h).1.symm

/-- A call that raises has dropped records at most. -/
theorem shrinks_of_getOrCreateStream {st st' : InMemoryEventStore μ} {streamId : String} {now : ℚ}
    {e : StoreError} (h : st.getOrCreateStream streamId now = (st', .error e)) :
    Shrinks st st' := by
  rw [getOrCreateStream] at h
  split at h
  · exact absurd (Prod.mk.inj h).2 (by simp)
  · split at h
    · exact (Prod.mk.inj h).1 ▸ Shrinks.refl st
    · next kept hkept =>
      rw [openStream] at h
      split at h
      · exact (Prod.mk.inj h).1 ▸ shrinks_of_evictOldest hkept
      · exact absurd (Prod.mk.inj h).2 (by simp)

/-- Whether a `store_event` opens its stream. -/
def opens (st : InMemoryEventStore μ) (streamId : String) (pruneAt : ℚ) : Bool :=
  !(st.pruneExpiredStreams pruneAt).streams.contains streamId

/-- What is left of the other streams when a `store_event` gets to its own: all that survived
the prune, or all of these but the first when a stream is opened at the cap. -/
inductive MakesRoom (st : InMemoryEventStore μ) (streamId : String) (pruneAt : ℚ)
    (kept : InMemoryEventStore μ) : Prop
  | present (hopens : st.opens streamId pruneAt = false)
      (hkept : kept = st.pruneExpiredStreams pruneAt)
  | evicted (hopens : st.opens streamId pruneAt = true)
      (hkept : (st.pruneExpiredStreams pruneAt).evictOldest = .ok kept)

theorem MakesRoom.shrinks {st kept : InMemoryEventStore μ} {streamId : String} {pruneAt : ℚ}
    (h : MakesRoom st streamId pruneAt kept) : Shrinks st kept := by
  cases h with
  | present _ hkept => exact hkept ▸ shrinks_pruneExpiredStreams st pruneAt
  | evicted _ hkept =>
    exact (shrinks_pruneExpiredStreams st pruneAt).trans (shrinks_of_evictOldest hkept)

theorem MakesRoom.not_mem {st kept : InMemoryEventStore μ} {streamId : String} {pruneAt : ℚ}
    (hroom : MakesRoom st streamId pruneAt kept) (hopens : st.opens streamId pruneAt = true) :
    streamId ∉ kept.streams.keys := by
  cases hroom with
  | present hpresent => rw [hopens] at hpresent; cases hpresent
  | evicted _ hkept =>
    intro hmem
    have hpruned := Dict.contains_iff.mpr ((shrinks_of_evictOldest hkept).keys.subset hmem)
    rw [opens, hpruned] at hopens
    cases hopens

/-- The buffer a `store_event` appends to. -/
def bufferOf (st : InMemoryEventStore μ) (streamId : String) (pruneAt : ℚ) :
    Deque (String × EventMessage μ) :=
  match (st.pruneExpiredStreams pruneAt).streams.get? streamId with
  | some record => record.events
  | none => .empty st.maxEventsPerStream.toNat

/-- The configuration of a store does not change. -/
def SameConfig (st st' : InMemoryEventStore μ) : Prop :=
  st'.maxEventsPerStream = st.maxEventsPerStream ∧ st'.maxStreams = st.maxStreams ∧
    st'.streamTtlS = st.streamTtlS

theorem Shrinks.sameConfig {st st' : InMemoryEventStore μ} (h : Shrinks st st') :
    SameConfig st st' := ⟨h.maxEvents, h.maxStreams, h.ttl⟩

/-- **What a successful `store_event` does.** The id is the next number; the stream written to
holds its old buffer, or an empty one if it is opened, with the event appended; every other
stream that is kept is untouched; and an opened stream is put last. -/
theorem storeEvent_eq_ok {st st' : InMemoryEventStore μ} {streamId eventId : String}
    {message : Option μ} {pruneAt createAt storeAt : ℚ}
    (h : st.storeEvent streamId message pruneAt createAt storeAt = (st', .ok eventId)) :
    eventId = toString st.nextEventId ∧ ∃ kept, MakesRoom st streamId pruneAt kept ∧
      st'.nextEventId = st.nextEventId + 1 ∧ SameConfig st st' ∧
      st'.streams.get? streamId =
        some ⟨(st.bufferOf streamId pruneAt).append (eventId, ⟨message, eventId⟩), storeAt⟩ ∧
      (∀ sid, sid ≠ streamId → st'.streams.get? sid = kept.streams.get? sid) ∧
      st'.streams.keys =
        (if st.opens streamId pruneAt then kept.streams.keys ++ [streamId] else
          kept.streams.keys) := by
  rw [storeEvent] at h
  split at h
  · exact absurd (Prod.mk.inj h).2 (by simp)
  next opened hcreate =>
  obtain ⟨hst', hid⟩ := Prod.mk.inj h
  subst hst'
  obtain ⟨hcontains, rfl⟩ | ⟨hcontains, kept, hevict, rfl⟩ := getOrCreateStream_eq_ok hcreate
  · have hopens : st.opens streamId pruneAt = false := by rw [opens, hcontains]; rfl
    obtain ⟨record, hrecord⟩ := Dict.mem_keys_iff.mp (Dict.contains_iff.mp hcontains)
    refine ⟨(Except.ok.inj hid).symm, _, .present hopens rfl, rfl, ⟨rfl, rfl, rfl⟩, ?_,
      fun sid hne => ?_, ?_⟩
    · rw [Dict.get?_modify, if_pos rfl, hrecord, bufferOf, hrecord, ← Except.ok.inj hid]
      rfl
    · rw [Dict.get?_modify, if_neg (Ne.symm hne)]
    · rw [Dict.keys_modify, hopens]
      rfl
  · have hopens : st.opens streamId pruneAt = true := by rw [opens, hcontains]; rfl
    have habsent : streamId ∉ (st.pruneExpiredStreams pruneAt).streams.keys := fun hmem => by
      rw [Dict.contains_iff.mpr hmem] at hcontains
      exact absurd hcontains (by simp)
    have hshrinks := shrinks_of_evictOldest hevict
    have hnext : kept.nextEventId = st.nextEventId := hshrinks.next
    have hbuffer : st.bufferOf streamId pruneAt = .empty kept.maxEventsPerStream.toNat := by
      rw [bufferOf, Dict.get?_eq_none_iff.mpr habsent, hshrinks.maxEvents]
      rfl
    refine ⟨by rw [← Except.ok.inj hid, ← hnext], kept, .evicted hopens hevict, by rw [← hnext],
      (MakesRoom.evicted hopens hevict).shrinks.sameConfig, ?_, fun sid hne => ?_, ?_⟩
    · rw [Dict.get?_modify, if_pos rfl, Dict.get?_set_self, hbuffer, ← Except.ok.inj hid]
      rfl
    · rw [Dict.get?_modify, if_neg (Ne.symm hne), Dict.get?_set_of_ne (Ne.symm hne)]
    · rw [Dict.keys_modify, hopens, Dict.keys_set_of_not_mem fun hmem =>
        habsent (hshrinks.keys.subset hmem)]
      rfl

/-- A `store_event` that raises has dropped records at most. -/
theorem shrinks_of_storeEvent {st st' : InMemoryEventStore μ} {streamId : String}
    {message : Option μ} {pruneAt createAt storeAt : ℚ} {e : StoreError}
    (h : st.storeEvent streamId message pruneAt createAt storeAt = (st', .error e)) :
    Shrinks st st' := by
  rw [storeEvent] at h
  split at h
  · next kept e' hcreate =>
    obtain rfl := (Prod.mk.inj h).1
    exact (shrinks_pruneExpiredStreams st pruneAt).trans (shrinks_of_getOrCreateStream hcreate)
  · exact absurd (Prod.mk.inj h).2 (by simp)

/-- With room for a stream and for an event, `store_event` raises nothing. -/
theorem exists_storeEvent_eq_ok (st : InMemoryEventStore μ) (streamId : String)
    (message : Option μ) (pruneAt createAt storeAt : ℚ) (hstreams : 1 ≤ st.maxStreams)
    (hevents : 0 ≤ st.maxEventsPerStream) :
    ∃ st' eventId,
      st.storeEvent streamId message pruneAt createAt storeAt = (st', .ok eventId) := by
  suffices h : ∃ st', (st.pruneExpiredStreams pruneAt).getOrCreateStream streamId createAt =
      (st', .ok ()) by
    obtain ⟨st', hst'⟩ := h
    rw [storeEvent, hst']
    exact ⟨_, _, rfl⟩
  rw [getOrCreateStream]
  split
  · exact ⟨_, rfl⟩
  · cases hevict : (st.pruneExpiredStreams pruneAt).evictOldest with
    | error e =>
      rw [evictOldest] at hevict
      split at hevict
      · next hcap =>
        split at hevict
        · next hkeys =>
          have hsize := Dict.length_keys (st.pruneExpiredStreams pruneAt).streams
          rw [hkeys, List.length_nil] at hsize
          have : (st.pruneExpiredStreams pruneAt).maxStreams = st.maxStreams := rfl
          omega
        · cases hevict
      · cases hevict
    | ok kept =>
      have hmax : kept.maxEventsPerStream = st.maxEventsPerStream :=
        (shrinks_of_evictOldest hevict).maxEvents
      refine ⟨{ kept with streams :=
          kept.streams.set streamId ⟨.empty kept.maxEventsPerStream.toNat, createAt⟩ }, ?_⟩
      show kept.openStream streamId createAt = _
      rw [openStream, if_neg (by omega)]

/-! ### What a replay sends -/

theorem findOwner_eq_some {st : InMemoryEventStore μ} {target : ℤ} {sid : String}
    {record : StreamRecord μ} (h : st.findOwner target = some (sid, record)) :
    st.streams.get? sid = some record ∧
      ∃ item ∈ record.events.items, eventNumber item.1 = target := by
  rw [findOwner] at h
  have howns := List.find?_some h
  obtain ⟨item, hitem, hnumber⟩ := List.any_eq_true.mp howns
  exact ⟨Dict.mem_entries_iff.mp (List.mem_of_find?_eq_some h), item, hitem, eq_of_beq hnumber⟩

theorem findOwner_eq_none_iff {st : InMemoryEventStore μ} {target : ℤ} :
    st.findOwner target = none ↔ ∀ sid record, st.streams.get? sid = some record →
      ∀ item ∈ record.events.items, eventNumber item.1 ≠ target := by
  simp only [findOwner, List.find?_eq_none, List.any_eq_true, beq_iff_eq, not_exists, not_and,
    Prod.forall, Dict.mem_entries_iff, ne_eq]

theorem mem_candidates {st : InMemoryEventStore μ} {target : ℤ} {sid : String}
    {record : StreamRecord μ} :
    (sid, record) ∈ st.candidates target ↔ st.streams.get? sid = some record ∧
      ∃ first rest, record.events.items = first :: rest ∧ target < eventNumber first.1 := by
  rw [candidates, List.mem_filter, Dict.mem_entries_iff]
  refine and_congr_right fun _ => ?_
  cases record.events.items with
  | nil => simp
  | cons first rest => simp

/-- A replay returns nothing and sends nothing, or it sends the later events of the stream it
returns and touches that stream. -/
theorem replayEventsAfter_cases (st : InMemoryEventStore μ) (lastEventId : String) (now : ℚ) :
    st.replayEventsAfter lastEventId now = (st, none, []) ∨
      ∃ target sid record, IntLiteral.parse lastEventId = some target ∧
        st.streams.get? sid = some record ∧
        (st.findOwner target = some (sid, record) ∨
          st.findOwner target = none ∧ st.candidates target = [(sid, record)]) ∧
        st.replayEventsAfter lastEventId now =
          (st.touch sid now, some sid, eventsAfter record target) := by
  rw [replayEventsAfter]
  cases hparse : IntLiteral.parse lastEventId with
  | none => exact Or.inl rfl
  | some target =>
    dsimp only
    cases howner : st.findOwner target with
    | some p =>
      obtain ⟨sid, record⟩ := p
      exact Or.inr ⟨target, sid, record, rfl, (findOwner_eq_some howner).1, Or.inl howner, rfl⟩
    | none =>
      dsimp only
      split
      · next sid record hcand =>
        have hmem : (sid, record) ∈ st.candidates target := by rw [hcand]; exact List.mem_cons_self
        exact Or.inr ⟨target, sid, record, rfl, (mem_candidates.mp hmem).1,
          Or.inr ⟨howner, hcand⟩, rfl⟩
      · exact Or.inl rfl

end InMemoryEventStore

end SlmMcpHub
