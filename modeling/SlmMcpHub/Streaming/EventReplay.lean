import Mathlib.Algebra.Order.Ring.Rat
import SlmMcpHub.Streaming.EventStoreRun

/-!
# What the event store guarantees

The invariant of a run, read as the store's users read it. The bounds hold, with the content of
every buffer spelled out; a client that resumes after an event its stream still buffers misses
nothing; and a client that resumes after an event no buffer holds any more may be answered from a
stream that is not its own.

The last case is the second pass of `replay_events_after`, which knows the number it is given but
not the stream it was issued to. `Misdirected` is exactly when it picks another one.

## Main results

* `storeBounded_runOf` — the caps, the buffers, the ids and the disappearing streams
* `replay_complete` — a replay after a buffered event sends all that followed it
* `replaysOwnStream_iff` — a replay keeps to its stream exactly when it is not misdirected
-/

namespace SlmMcpHub

open InMemoryEventStore EventLog

variable {μ : Type}

/-! ### Bounds -/

/-- A stream has been idle for longer than the time to live when a prune looks at it. -/
def IdleTooLong (r : StoreRun μ) (sid : String) (pruneAt : ℚ) : Prop :=
  ∃ time, lastTouched sid r.log = some time ∧ r.store.streamTtlS < pruneAt - time

/-- The streams a prune leaves, in creation order. -/
def survivors (r : StoreRun μ) (pruneAt : ℚ) : List String :=
  (r.store.pruneExpiredStreams pruneAt).streams.keys

/-- A call opens a new stream while the store is at its cap, and of the streams it finds there
`sid` is the one opened first. -/
def OldestAtCap (r : StoreRun μ) (call : EventCall μ) (sid : String) : Prop :=
  ∃ streamId message pruneAt createAt storeAt,
    call = .storeEvent streamId message pruneAt createAt storeAt ∧
      streamId ∉ survivors r pruneAt ∧
      ((survivors r pruneAt).length : ℤ) = r.store.maxStreams ∧
      sid ∈ survivors r pruneAt ∧
      ∀ sid' ∈ survivors r pruneAt, sid' ≠ sid → openedAt sid r.log < openedAt sid' r.log

/-- **What every reachable store satisfies.** -/
structure StoreBounded (maxEventsPerStream maxStreams : ℤ) (r : StoreRun μ) : Prop where
  /-- The cap on streams holds. -/
  cap : (r.store.streams.size : ℤ) ≤ maxStreams
  /-- An event that is stored to a stream is returned its id, and is the last one in its buffer. -/
  stored : ∀ streamId message pruneAt createAt storeAt, ∃ eventId record,
    (r.store.storeEvent streamId message pruneAt createAt storeAt).2 = .ok eventId ∧
      (r.step (.storeEvent streamId message pruneAt createAt storeAt)).store.streams.get? streamId =
        some record ∧
      record.events.items.getLast? = some (eventId, ⟨message, eventId⟩)
  /-- A buffer holds the last `min k maxEventsPerStream` of the `k` events stored to its stream
  since the stream was last opened, with increasing ids. -/
  window : ∀ sid record, r.store.streams.get? sid = some record →
    ∃ dropped kept, sinceOpened sid r.log = dropped ++ kept ∧
      (kept.length : ℤ) = min ((sinceOpened sid r.log).length : ℤ) maxEventsPerStream ∧
      record.events.items = kept.map tagged ∧
      kept.Pairwise fun ev ev' => eventNumber ev.eventId < eventNumber ev'.eventId
  /-- Every id returned is a number below the next one. -/
  below : ∀ eventId ∈ issuedIds r.log, ∃ n < r.store.nextEventId, eventId = toString n
  /-- A buffer holds only ids that were returned for its stream. -/
  issued : ∀ sid record, r.store.streams.get? sid = some record →
    ∀ item ∈ record.events.items, item.1 ∈ issuedTo sid r.log
  /-- No id occurs in two buffers. -/
  disjoint : ∀ sid sid' record record', r.store.streams.get? sid = some record →
    r.store.streams.get? sid' = some record' → ∀ item ∈ record.events.items,
      ∀ item' ∈ record'.events.items, item.1 = item'.1 → sid = sid'
  /-- No id was returned twice. -/
  unique : (issuedIds r.log).Nodup
  /-- A stream disappears only when it was idle too long, or was the oldest one when a stream was
  opened at the cap. -/
  disappears : ∀ call sid, sid ∈ r.store.streams.keys → sid ∉ (r.step call).store.streams.keys →
    (∃ streamId message pruneAt createAt storeAt,
      call = .storeEvent streamId message pruneAt createAt storeAt ∧ IdleTooLong r sid pruneAt) ∨
      OldestAtCap r call sid

theorem RunInv.window {r : StoreRun μ} (h : RunInv r) (hpos : 0 ≤ r.store.maxEventsPerStream)
    {sid : String} {record : StreamRecord μ} (hget : r.store.streams.get? sid = some record) :
    ∃ dropped kept, sinceOpened sid r.log = dropped ++ kept ∧
      (kept.length : ℤ) = min ((sinceOpened sid r.log).length : ℤ) r.store.maxEventsPerStream ∧
      record.events.items = kept.map tagged ∧
      kept.Pairwise fun ev ev' => eventNumber ev.eventId < eventNumber ev'.eventId := by
  have hlen := congrArg List.length (h.buffer hget)
  rw [length_rtake, List.length_map] at hlen
  obtain ⟨dropped', hdropped⟩ := h.buffer hget ▸ rtake_suffix _ ((sinceOpened sid r.log).map tagged)
  obtain ⟨dropped, kept, hsplit, -, hkept⟩ := List.map_eq_append_iff.mp hdropped.symm
  rw [← hkept, List.length_map] at hlen
  refine ⟨dropped, kept, hsplit, by omega, hkept.symm, ?_⟩
  have hkeptSuffix : kept <:+ sinceOpened sid r.log := ⟨dropped, hsplit.symm⟩
  have hsuffix := hkeptSuffix.trans (sinceOpened_suffix sid r.log)
  exact (pairwise_storedTo h.numbered).sublist hsuffix.sublist

/-- What is stored is there. -/
theorem RunInv.exists_stored {r : StoreRun μ} (h : RunInv r)
    (hevents : 1 ≤ r.store.maxEventsPerStream) (hstreams : 1 ≤ r.store.maxStreams)
    (streamId : String) (message : Option μ) (pruneAt createAt storeAt : ℚ) :
    ∃ eventId record,
      (r.store.storeEvent streamId message pruneAt createAt storeAt).2 = .ok eventId ∧
        (r.step (.storeEvent streamId message pruneAt createAt storeAt)).store.streams.get?
            streamId = some record ∧
          record.events.items.getLast? = some (eventId, ⟨message, eventId⟩) := by
  obtain ⟨st', eventId, hstore⟩ := exists_storeEvent_eq_ok r.store streamId message pruneAt
    createAt storeAt hstreams (by omega)
  obtain ⟨-, kept, -, -, -, hself, -, -⟩ := storeEvent_eq_ok hstore
  have hstep : (r.step (.storeEvent streamId message pruneAt createAt storeAt)).store = st' := by
    rw [StoreRun.step, hstore]
  refine ⟨eventId, _, congrArg Prod.snd hstore, hstep ▸ hself, Deque.getLast?_append ?_ _⟩
  rw [(h.bufferOf streamId pruneAt).1]
  omega

/-- A stream that a prune drops was idle. -/
theorem RunInv.idleTooLong {r : StoreRun μ} (h : RunInv r) {sid : String} {pruneAt : ℚ}
    (hsid : sid ∈ r.store.streams.keys) (hgone : sid ∉ survivors r pruneAt) :
    IdleTooLong r sid pruneAt := by
  obtain ⟨record, hrecord⟩ := Dict.mem_keys_iff.mp hsid
  refine ⟨record.lastEventAt, h.touched hrecord, ?_⟩
  have hidle : r.store.Idle record pruneAt := by
    refine not_not.mp fun hfresh => hgone (Dict.mem_keys_iff.mpr ⟨record, ?_⟩)
    exact (get?_pruneExpiredStreams r.store pruneAt sid record).mpr ⟨hrecord, hfresh⟩
  rw [Idle] at hidle
  exact lt_sub_comm.mp hidle

/-- A stream that survives the prune and is gone afterwards has made room for another. -/
theorem RunInv.oldestAtCap {r : StoreRun μ} (h : RunInv r) {st' : InMemoryEventStore μ}
    {streamId sid eventId : String} {message : Option μ} {pruneAt createAt storeAt : ℚ}
    (hpos : 1 ≤ r.store.maxStreams)
    (hstore : r.store.storeEvent streamId message pruneAt createAt storeAt = (st', .ok eventId))
    (hsid : sid ∈ survivors r pruneAt) (hgone : sid ∉ st'.streams.keys) :
    OldestAtCap r (.storeEvent streamId message pruneAt createAt storeAt) sid := by
  obtain ⟨-, kept, hroom, -, -, -, -, hkeys⟩ := storeEvent_eq_ok hstore
  have hdropped : sid ∉ kept.streams.keys := by
    intro hmem
    rw [hkeys] at hgone
    split at hgone
    · exact hgone (List.mem_append_left _ hmem)
    · exact hgone hmem
  have hpruned := h.of_shrinks (shrinks_pruneExpiredStreams r.store pruneAt)
  cases hroom with
  | present _ hkept => exact absurd (hkept ▸ hsid) hdropped
  | evicted hopens hkept =>
    obtain ⟨rfl, -⟩ | ⟨oldestId, rest, hold, hcap, -, hrest⟩ := evictOldest_eq_ok hkept
    · exact absurd hsid hdropped
    · have horder := hpruned.order
      have hsize := hpruned.size hpos
      rw [survivors, hold, List.mem_cons] at hsid
      obtain rfl : sid = oldestId := hsid.resolve_right fun hmem => hdropped (hrest ▸ hmem)
      refine ⟨streamId, message, pruneAt, createAt, storeAt, rfl, ?_, ?_, ?_, ?_⟩
      · rw [survivors, ← Dict.contains_iff]
        simpa [opens] using hopens
      · rw [survivors, Dict.length_keys]
        exact le_antisymm hsize hcap
      · rw [survivors, hold]
        exact List.mem_cons_self
      · intro sid' hsid' hne
        rw [survivors, hold, List.mem_cons] at hsid'
        rw [hold] at horder
        exact List.rel_of_pairwise_cons horder (hsid'.resolve_left hne)

/-- **The bounds hold in every reachable state**, for any readings of the clock. -/
theorem storeBounded_runOf (maxEventsPerStream maxStreams : ℤ) (streamTtlS : ℚ)
    (calls : List (EventCall μ)) (hevents : 1 ≤ maxEventsPerStream) (hstreams : 1 ≤ maxStreams) :
    StoreBounded maxEventsPerStream maxStreams
      (runOf maxEventsPerStream maxStreams streamTtlS calls) := by
  have h := runInv_runOf maxEventsPerStream maxStreams streamTtlS calls
  obtain ⟨hmaxEvents, hmaxStreams, -⟩ :=
    config_runOf maxEventsPerStream maxStreams streamTtlS calls
  generalize runOf maxEventsPerStream maxStreams streamTtlS calls = r at h hmaxEvents hmaxStreams
  subst hmaxEvents hmaxStreams
  refine ⟨h.size hstreams, h.exists_stored hevents hstreams,
    fun sid record hget => h.window (by omega) hget, fun eventId hid => ?_,
    fun sid record hget item hitem => h.mem_issuedTo hget hitem, ?_, nodup_issuedIds h.numbered,
    fun call sid hsid hgone => ?_⟩
  · rw [issuedIds_eq_map_range h.numbered, List.mem_map] at hid
    obtain ⟨n, hn, rfl⟩ := hid
    exact ⟨n, h.next ▸ List.mem_range.mp hn, rfl⟩
  · intro sid sid' record record' hget hget' item hitem item' hitem' heq
    exact eq_of_mem_issuedTo h.numbered (h.mem_issuedTo hget hitem)
      (heq ▸ h.mem_issuedTo hget' hitem')
  · cases call with
    | storeEvent streamId message pruneAt createAt storeAt =>
      obtain ⟨st', eventId, hstore⟩ := exists_storeEvent_eq_ok r.store streamId message pruneAt
        createAt storeAt hstreams (by omega)
      rw [StoreRun.step, hstore] at hgone
      by_cases hsurvives : sid ∈ survivors r pruneAt
      · exact Or.inr (h.oldestAtCap hstreams hstore hsurvives hgone)
      · exact Or.inl ⟨_, _, _, _, _, rfl, h.idleTooLong hsid hsurvives⟩
    | replayEventsAfter lastEventId time =>
      -- a replay changes no key
      refine absurd hsid ?_
      rw [StoreRun.step] at hgone
      obtain heq | ⟨target, sid', record, -, -, -, heq⟩ :=
        replayEventsAfter_cases r.store lastEventId time
      · rw [heq] at hgone
        exact hgone
      · rw [heq] at hgone
        simpa only [touch, Dict.keys_modify] using hgone

/-- Two streams in a store for two, with two events each at most; a third one makes the first one
go, and the first one comes back without its events. -/
def reopenedCalls : List (EventCall String) :=
  [.storeEvent "a" none 0 0 0, .storeEvent "b" (some "x") 1 1 1, .storeEvent "b" (some "y") 2 2 2,
    .storeEvent "b" (some "z") 3 3 3, .storeEvent "c" none 4 4 4, .storeEvent "a" (some "w") 5 5 5]

theorem storeBounded_runOf_reopened :
    (runOf 2 2 7200 reopenedCalls).store.streams.entries.map
        (fun p => (p.1, p.2.events.items.map Prod.fst)) = [("c", ["4"]), ("a", ["5"])] ∧
      (runOf 2 2 7200 (reopenedCalls.take 4)).store.streams.entries.map
        (fun p => (p.1, p.2.events.items.map Prod.fst)) = [("a", ["0"]), ("b", ["2", "3"])] ∧
      StoreBounded 2 2 (runOf 2 2 7200 reopenedCalls) :=
  ⟨by decide +kernel, by decide +kernel,
    storeBounded_runOf 2 2 7200 reopenedCalls (by decide) (by decide)⟩

/-! ### Resuming after a buffered event -/

/-- An issued id is read as its number. -/
theorem RunInv.parse_issued {r : StoreRun μ} (h : RunInv r) {eventId : String}
    (hissued : eventId ∈ issuedIds r.log) :
    IntLiteral.parse eventId = some (eventNumber eventId) := by
  rw [issuedIds_eq_map_range h.numbered, List.mem_map] at hissued
  obtain ⟨n, -, rfl⟩ := hissued
  rw [eventNumber_toString, IntLiteral.parse_toString]

/-- Pass 1 finds the stream an event is buffered in. -/
theorem RunInv.findOwner_eq {r : StoreRun μ} (h : RunInv r) {sid : String}
    {record : StreamRecord μ} (hget : r.store.streams.get? sid = some record) {eventId : String}
    (hbuffered : eventId ∈ record.events.items.map Prod.fst) :
    r.store.findOwner (eventNumber eventId) = some (sid, record) := by
  obtain ⟨item, hitem, rfl⟩ := List.mem_map.mp hbuffered
  have hissued := h.mem_issuedTo hget hitem
  cases hfind : r.store.findOwner (eventNumber item.1) with
  | none => exact absurd rfl (findOwner_eq_none_iff.mp hfind sid record hget item hitem)
  | some p =>
    -- whichever stream is found first buffers an event of the same number, hence the same event
    obtain ⟨sid', record'⟩ := p
    obtain ⟨hget', item', hitem', hnumber⟩ := findOwner_eq_some hfind
    have hissued' := h.mem_issuedTo hget' hitem'
    have hid : item'.1 = item.1 := eventNumber_inj_of_issued h.numbered
      (mem_issuedIds_of_mem_issuedTo hissued') (mem_issuedIds_of_mem_issuedTo hissued) hnumber
    obtain rfl : sid' = sid := eq_of_mem_issuedTo h.numbered (hid ▸ hissued') hissued
    rw [hget] at hget'
    rw [Option.some.inj hget']

/-- What follows a buffered event is still in the buffer. -/
theorem RunInv.eventsAfter_buffered {r : StoreRun μ} (h : RunInv r) {sid : String}
    {record : StreamRecord μ} (hget : r.store.streams.get? sid = some record) {eventId : String}
    (hbuffered : eventId ∈ record.events.items.map Prod.fst) :
    eventsAfter record (eventNumber eventId) =
      (storedAfter sid eventId r.log).filter fun ev => ev.message.isSome := by
  obtain ⟨kept, ⟨before, hsplit⟩, hitems, heq⟩ := h.eventsAfter_eq hget (eventNumber eventId)
  obtain ⟨item, hitem, rfl⟩ := List.mem_map.mp hbuffered
  have hissued := h.mem_issuedTo hget hitem
  rw [hitems, List.mem_map] at hitem
  obtain ⟨ev, hev, rfl⟩ := hitem
  have hpairwise : (before ++ kept).Pairwise fun ev ev' =>
      eventNumber ev.eventId < eventNumber ev'.eventId := by
    rw [hsplit]
    exact pairwise_storedTo h.numbered
  have hbefore : before.filter (fun ev' =>
      decide (eventNumber (tagged ev).1 < eventNumber ev'.eventId)) = [] := by
    rw [List.filter_eq_nil_iff]
    intro ev' hev'
    rw [decide_eq_true_eq, not_lt]
    exact ((List.pairwise_append.mp hpairwise).2.2 ev' hev' ev hev).le
  rw [heq, storedAfter_eq_filter h.numbered (mem_issuedIds_of_mem_issuedTo hissued), ← hsplit,
    List.filter_append, hbefore, List.nil_append, List.filter_filter]
  exact List.filter_congr fun ev' _ => Bool.and_comm _ _

/-- Whatever a replay takes from the buffer of the event's own stream was stored after it. -/
theorem RunInv.eventsAfter_sublist {r : StoreRun μ} (h : RunInv r) {sid : String}
    {record : StreamRecord μ} (hget : r.store.streams.get? sid = some record) {eventId : String}
    (hissued : eventId ∈ issuedTo sid r.log) :
    (eventsAfter record (eventNumber eventId)).Sublist (storedAfter sid eventId r.log) := by
  obtain ⟨kept, hsuffix, -, heq⟩ := h.eventsAfter_eq hget (eventNumber eventId)
  rw [heq, storedAfter_eq_filter h.numbered (mem_issuedIds_of_mem_issuedTo hissued)]
  refine (List.monotone_filter_right kept fun ev hev => ?_).trans (hsuffix.sublist.filter _)
  exact (Bool.and_eq_true _ _ ▸ hev).1

/-- **A client that resumes after a buffered event misses nothing.** The replay returns the stream
the event was stored to, and sends the messages stored to it after the event, all of them, in
storage order, each once. -/
theorem replay_complete (maxEventsPerStream maxStreams : ℤ) (streamTtlS : ℚ)
    (calls : List (EventCall μ)) (sid eventId : String) (record : StreamRecord μ) (time : ℚ)
    (hget : (runOf maxEventsPerStream maxStreams streamTtlS calls).store.streams.get? sid =
      some record)
    (hbuffered : eventId ∈ record.events.items.map Prod.fst) :
    ((runOf maxEventsPerStream maxStreams streamTtlS calls).store.replayEventsAfter
        eventId time).2 =
      (some sid, (storedAfter sid eventId
        (runOf maxEventsPerStream maxStreams streamTtlS calls).log).filter
          fun ev => ev.message.isSome) := by
  have h := runInv_runOf maxEventsPerStream maxStreams streamTtlS calls
  obtain ⟨item, hitem, hid⟩ := List.mem_map.mp hbuffered
  have hissued := hid ▸ mem_issuedIds_of_mem_issuedTo (h.mem_issuedTo hget hitem)
  rw [replayEventsAfter, h.parse_issued hissued]
  dsimp only
  rw [h.findOwner_eq hget hbuffered, ← h.eventsAfter_buffered hget hbuffered]

theorem replay_complete_primed :
    ((runOf 500 200 7200
        [.storeEvent "a" none 0 0 0, .storeEvent "b" (some "x") 1 1 1,
          .storeEvent "a" (some "y") 2 2 2]).store.replayEventsAfter "0" 3).2 =
      (some "a", [⟨some "y", "2"⟩]) := by
  have hids : ((runOf 500 200 7200
      [.storeEvent "a" none 0 0 0, .storeEvent "b" (some "x") 1 1 1,
        .storeEvent "a" (some "y") 2 2 2]).store.streams.get? "a").map
      (fun record => record.events.items.map Prod.fst) = some ["0", "2"] := by decide +kernel
  obtain ⟨record, hget, hitems⟩ := Option.map_eq_some_iff.mp hids
  have hbuffered : "0" ∈ record.events.items.map Prod.fst := by rw [hitems]; decide
  exact (replay_complete 500 200 7200 _ "a" "0" record 3 hget hbuffered).trans (by decide +kernel)

/-! ### Resuming after any event -/

/-- A replay sends nothing, or it answers from the stream the event was issued to, with events
stored to it afterwards, in storage order and each at most once. -/
def ReplaysOwnStream (r : StoreRun μ) (sid eventId : String)
    (reply : Option String × List (EventMessage μ)) : Prop :=
  reply = (none, []) ∨ reply.1 = some sid ∧ reply.2.Sublist (storedAfter sid eventId r.log)

/-- **When a replay goes astray.** The event has left every buffer, and there is exactly one
stream whose buffer has an oldest event that is newer, and it is not the stream of the event. -/
def Misdirected (st : InMemoryEventStore μ) (sid eventId : String) : Prop :=
  (∀ sid' record, st.streams.get? sid' = some record →
      eventId ∉ record.events.items.map Prod.fst) ∧
    ∃ other, other ≠ sid ∧ ∀ sid', (∃ record first rest, st.streams.get? sid' = some record ∧
      record.events.items = first :: rest ∧ eventNumber eventId < eventNumber first.1) ↔
        sid' = other

theorem nodup_map_candidates (st : InMemoryEventStore μ) (target : ℤ) :
    ((st.candidates target).map Prod.fst).Nodup :=
  st.streams.nodup.sublist (List.filter_sublist.map Prod.fst)

/-- Exactly one candidate, as a property of the streams. -/
theorem exists_candidates_eq_iff {st : InMemoryEventStore μ} {target : ℤ} {other : String} :
    (∃ record, st.candidates target = [(other, record)]) ↔
      ∀ sid', (∃ record first rest, st.streams.get? sid' = some record ∧
        record.events.items = first :: rest ∧ target < eventNumber first.1) ↔ sid' = other := by
  have hmem : ∀ sid', sid' ∈ (st.candidates target).map Prod.fst ↔
      ∃ record first rest, st.streams.get? sid' = some record ∧
        record.events.items = first :: rest ∧ target < eventNumber first.1 := by
    intro sid'
    simp only [List.mem_map, Prod.exists, exists_and_right, exists_eq_right, mem_candidates,
      exists_and_left]
  constructor
  · rintro ⟨record, hcand⟩ sid'
    rw [← hmem sid', hcand]
    exact List.mem_singleton
  · intro hall
    have hperm : ((st.candidates target).map Prod.fst).Perm [other] :=
      (List.perm_ext_iff_of_nodup (nodup_map_candidates st target) (List.nodup_singleton _)).mpr
        fun sid' => by rw [hmem, hall, List.mem_singleton]
    obtain ⟨⟨sid', record⟩, hcand, rfl⟩ :=
      List.map_eq_singleton_iff.mp (List.perm_singleton.mp hperm)
    exact ⟨record, hcand⟩

/-- A replay goes astray when pass 1 finds no stream and pass 2 finds one, another one. -/
theorem RunInv.misdirected_iff {r : StoreRun μ} (h : RunInv r) {sid eventId : String}
    (hissued : eventId ∈ issuedTo sid r.log) :
    Misdirected r.store sid eventId ↔ r.store.findOwner (eventNumber eventId) = none ∧
      ∃ other record, other ≠ sid ∧
        r.store.candidates (eventNumber eventId) = [(other, record)] := by
  refine and_congr ?_ ?_
  · rw [findOwner_eq_none_iff]
    refine forall_congr' fun sid' => forall_congr' fun record => imp_congr_right fun hget => ?_
    constructor
    · intro habsent item hitem hnumber
      refine habsent (List.mem_map.mpr ⟨item, hitem, ?_⟩)
      exact eventNumber_inj_of_issued h.numbered
        (mem_issuedIds_of_mem_issuedTo (h.mem_issuedTo hget hitem))
        (mem_issuedIds_of_mem_issuedTo hissued) hnumber
    · intro habsent hmem
      obtain ⟨item, hitem, rfl⟩ := List.mem_map.mp hmem
      exact habsent item hitem rfl
  · refine exists_congr fun other => ?_
    rw [← exists_candidates_eq_iff, exists_and_left]

/-- **When a replay keeps to its stream.** After any run, a replay after an issued event answers
as its stream's client may expect exactly when it is not misdirected. -/
theorem replaysOwnStream_iff (maxEventsPerStream maxStreams : ℤ) (streamTtlS : ℚ)
    (calls : List (EventCall μ)) (sid eventId : String) (time : ℚ)
    (hissued : eventId ∈ issuedTo sid
      (runOf maxEventsPerStream maxStreams streamTtlS calls).log) :
    ReplaysOwnStream (runOf maxEventsPerStream maxStreams streamTtlS calls) sid eventId
        ((runOf maxEventsPerStream maxStreams streamTtlS calls).store.replayEventsAfter
          eventId time).2 ↔
      ¬ Misdirected (runOf maxEventsPerStream maxStreams streamTtlS calls).store sid eventId := by
  have h := runInv_runOf maxEventsPerStream maxStreams streamTtlS calls
  generalize runOf maxEventsPerStream maxStreams streamTtlS calls = r at h hissued
  have hparse := h.parse_issued (mem_issuedIds_of_mem_issuedTo hissued)
  rw [h.misdirected_iff hissued]
  obtain heq | ⟨target, other, record, htarget, hget, hfound, heq⟩ :=
    replayEventsAfter_cases r.store eventId time
  · -- nothing is sent, so pass 2 cannot have found a stream either
    rw [heq]
    refine iff_of_true (Or.inl rfl) ?_
    rintro ⟨howner, other, record, -, hcand⟩
    rw [replayEventsAfter, hparse] at heq
    dsimp only at heq
    rw [howner, hcand] at heq
    cases congrArg (fun reply => reply.2.1) heq
  · obtain rfl : eventNumber eventId = target := Option.some.inj (hparse.symm.trans htarget)
    rw [heq]
    rcases hfound with howner | ⟨howner, hcand⟩
    · -- the stream found in pass 1 is the one the event was issued to
      obtain ⟨-, item, hitem, hnumber⟩ := findOwner_eq_some howner
      have hid := eventNumber_inj_of_issued h.numbered
        (mem_issuedIds_of_mem_issuedTo (h.mem_issuedTo hget hitem))
        (mem_issuedIds_of_mem_issuedTo hissued) hnumber
      obtain rfl := eq_of_mem_issuedTo h.numbered (hid ▸ h.mem_issuedTo hget hitem) hissued
      refine iff_of_true (Or.inr ⟨rfl, h.eventsAfter_sublist hget hissued⟩) ?_
      rintro ⟨hnone, -⟩
      rw [howner] at hnone
      cases hnone
    · rcases eq_or_ne other sid with rfl | hne
      · refine iff_of_true (Or.inr ⟨rfl, h.eventsAfter_sublist hget hissued⟩) ?_
        rintro ⟨-, other', record', hne, hcand'⟩
        rw [hcand, List.cons.injEq, Prod.mk.injEq] at hcand'
        exact hne hcand'.1.1.symm
      · refine iff_of_false ?_ (not_not.mpr ⟨howner, other, record, hne, hcand⟩)
        rintro (hnil | ⟨hsid, -⟩)
        · cases congrArg Prod.fst hnil
        · exact hne (Option.some.inj hsid)

theorem replaysOwnStream_iff_evictedAmongTwo :
    ReplaysOwnStream (runOf 500 2 7200
        [.storeEvent "a" (some "x") 0 0 0, .storeEvent "b" (some "y") 1 1 1,
          .storeEvent "c" (some "z") 2 2 2]) "a" "0"
        ((runOf 500 2 7200
          [.storeEvent "a" (some "x") 0 0 0, .storeEvent "b" (some "y") 1 1 1,
            .storeEvent "c" (some "z") 2 2 2]).store.replayEventsAfter "0" 3).2 ↔
      ¬ Misdirected (runOf 500 2 7200
        [.storeEvent "a" (some "x") 0 0 0, .storeEvent "b" (some "y") 1 1 1,
          .storeEvent "c" (some "z") 2 2 2]).store "a" "0" :=
  replaysOwnStream_iff 500 2 7200 _ "a" "0" 3 (by decide +kernel)

/-- With room for one stream, opening the second evicts the first, and a client that resumes the
first is sent the message of the second. -/
theorem not_replaysOwnStream_evicted :
    ¬ ∀ (maxEventsPerStream maxStreams : ℤ) (streamTtlS : ℚ) (calls : List (EventCall String))
        (sid eventId : String) (time : ℚ),
        eventId ∈ issuedTo sid (runOf maxEventsPerStream maxStreams streamTtlS calls).log →
        ReplaysOwnStream (runOf maxEventsPerStream maxStreams streamTtlS calls) sid eventId
          ((runOf maxEventsPerStream maxStreams streamTtlS calls).store.replayEventsAfter
            eventId time).2 := by
  intro h
  have hreply : ((runOf 500 1 7200
      [.storeEvent "a" (some "x") 0 0 0, .storeEvent "b" (some "y") 1 1 1]).store.replayEventsAfter
        "0" 2).2 = (some "b", [⟨some "y", "1"⟩]) := by decide +kernel
  rcases h 500 1 7200 [.storeEvent "a" (some "x") 0 0 0, .storeEvent "b" (some "y") 1 1 1]
    "a" "0" 2 (by decide +kernel) with hnil | ⟨hsid, -⟩
  · rw [hreply] at hnil
    cases congrArg Prod.fst hnil
  · rw [hreply] at hsid
    exact absurd (Option.some.inj hsid) (by decide)

end SlmMcpHub
