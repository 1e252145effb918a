import SlmMcpHub.Streaming.EventStore

/-!
# The history of an event store

What a run of the store has done to its streams, newest entry first, and the readings of it that
the store's state is compared with: the events stored to a stream, those since the stream was last
opened, those after a given event, when a stream was opened and when it was last touched.

The history knows nothing of buffers: no reading below mentions a capacity, a cap or a time to
live.

## Main results

* `EventLog.storedAfter_eq_filter` — the events stored after an issued one are those with a larger
  number
* `EventLog.eq_of_mem_issuedTo` — an id is issued to one stream only
-/

namespace SlmMcpHub

/-- What one call did to the streams: an event was stored to one, which the call opened or found,
or a replay touched one. -/
inductive LogEntry (μ : Type) where
  | stored (streamId : String) (event : EventMessage μ) (opened : Bool) (time : ℚ)
  | replayed (streamId : String) (time : ℚ)

/-- A history, newest entry first. -/
abbrev EventLog (μ : Type) := List (LogEntry μ)

namespace EventLog

open InMemoryEventStore (eventNumber eventNumber_toString)

variable {μ : Type}

/-- How many events have been stored. -/
def storedCount : EventLog μ → ℕ
  | [] => 0
  | .stored .. :: past => storedCount past + 1
  | .replayed .. :: past => storedCount past

/-- The ids that have been returned, first one first. -/
def issuedIds : EventLog μ → List String
  | [] => []
  | .stored _ ev _ _ :: past => issuedIds past ++ [ev.eventId]
  | .replayed .. :: past => issuedIds past

/-- The events stored to a stream, in storage order. -/
def storedTo (streamId : String) : EventLog μ → List (EventMessage μ)
  | [] => []
  | .stored sid ev _ _ :: past =>
    if sid = streamId then storedTo streamId past ++ [ev] else storedTo streamId past
  | .replayed .. :: past => storedTo streamId past

/-- The ids returned to those who stored to a stream. -/
def issuedTo (streamId : String) (log : EventLog μ) : List String :=
  (storedTo streamId log).map EventMessage.eventId

/-- The events stored to a stream after the event `eventId` was stored, in storage order. -/
def storedAfter (streamId eventId : String) : EventLog μ → List (EventMessage μ)
  | [] => []
  | .stored sid ev _ _ :: past =>
    if ev.eventId = eventId then []
    else if sid = streamId then storedAfter streamId eventId past ++ [ev]
    else storedAfter streamId eventId past
  | .replayed .. :: past => storedAfter streamId eventId past

/-- The events stored to a stream since it was last opened, in storage order. -/
def sinceOpened (streamId : String) : EventLog μ → List (EventMessage μ)
  | [] => []
  | .stored sid ev opened _ :: past =>
    if sid = streamId then
      if opened then [ev] else sinceOpened streamId past ++ [ev]
    else sinceOpened streamId past
  | .replayed .. :: past => sinceOpened streamId past

/-- The place in the history of the entry that last opened a stream. -/
def openedAt (streamId : String) : EventLog μ → ℕ
  | [] => 0
  | .stored sid _ opened _ :: past =>
    if sid = streamId ∧ opened = true then past.length else openedAt streamId past
  | .replayed .. :: past => openedAt streamId past

/-- When an event was last stored to a stream or replayed from it. -/
def lastTouched (streamId : String) : EventLog μ → Option ℚ
  | [] => none
  | .stored sid _ _ time :: past =>
    if sid = streamId then some time else lastTouched streamId past
  | .replayed sid time :: past => if sid = streamId then some time else lastTouched streamId past

/-- Every event carries the number of events stored before it. -/
def Numbered : EventLog μ → Prop
  | [] => True
  | .stored _ ev _ _ :: past => ev.eventId = toString (storedCount past) ∧ Numbered past
  | .replayed .. :: past => Numbered past

/-! ### The readings of a numbered history -/

theorem issuedIds_eq_map_range : ∀ {log : EventLog μ}, Numbered log →
    issuedIds log = (List.range (storedCount log)).map toString
  | [], _ => rfl
  | .stored .. :: past, h => by
    rw [issuedIds, issuedIds_eq_map_range h.2, storedCount, List.range_succ, List.map_append, h.1]
    rfl
  | .replayed .. :: past, (h : Numbered past) => (issuedIds_eq_map_range h :)

theorem nodup_issuedIds {log : EventLog μ} (h : Numbered log) : (issuedIds log).Nodup := by
  rw [issuedIds_eq_map_range h]
  exact List.Nodup.map (fun _ _ => IntLiteral.toString_injective) List.nodup_range

theorem sinceOpened_suffix (streamId : String) : ∀ log : EventLog μ,
    sinceOpened streamId log <:+ storedTo streamId log
  | [] => List.suffix_refl _
  | .stored sid ev opened _ :: past => by
    rw [sinceOpened, storedTo]
    split
    · split
      · exact List.suffix_append _ _
      · obtain ⟨before, hbefore⟩ := sinceOpened_suffix streamId past
        exact ⟨before, by rw [← hbefore, List.append_assoc]⟩
    · exact sinceOpened_suffix streamId past
  | .replayed .. :: past => sinceOpened_suffix streamId past

theorem exists_number_of_mem_storedTo {streamId : String} : ∀ {log : EventLog μ}, Numbered log →
    ∀ {ev}, ev ∈ storedTo streamId log → ∃ n < storedCount log, ev.eventId = toString n
  | [], _, ev, hev => absurd hev List.not_mem_nil
  | .stored sid ev' _ _ :: past, h, ev, hev => by
    have hpast : ev ∈ storedTo streamId past → ∃ n < storedCount past + 1,
        ev.eventId = toString n := fun hmem => by
      obtain ⟨n, hn, hid⟩ := exists_number_of_mem_storedTo h.2 hmem
      exact ⟨n, Nat.lt_succ_of_lt hn, hid⟩
    rw [storedTo] at hev
    split at hev
    · rcases List.mem_append.mp hev with hmem | hmem
      · exact hpast hmem
      · obtain rfl := List.mem_singleton.mp hmem
        exact ⟨storedCount past, Nat.lt_succ_self _, h.1⟩
    · exact hpast hev
  | .replayed .. :: past, (h : Numbered past), _, (hev : _ ∈ storedTo streamId past) =>
    (exists_number_of_mem_storedTo h hev :)

/-- The events of a stream carry increasing numbers. -/
theorem pairwise_storedTo {streamId : String} : ∀ {log : EventLog μ}, Numbered log →
    (storedTo streamId log).Pairwise fun ev ev' =>
      eventNumber ev.eventId < eventNumber ev'.eventId
  | [], _ => List.Pairwise.nil
  | .stored sid ev _ _ :: past, h => by
    rw [storedTo]
    split
    · refine List.pairwise_append.mpr ⟨pairwise_storedTo h.2, List.pairwise_singleton _ _, ?_⟩
      intro ev' hev' ev'' hev''
      obtain rfl := List.mem_singleton.mp hev''
      obtain ⟨n, hn, hid⟩ := exists_number_of_mem_storedTo h.2 hev'
      rw [hid, h.1, eventNumber_toString, eventNumber_toString]
      exact Int.ofNat_lt.mpr hn
    · exact pairwise_storedTo h.2
  | .replayed .. :: past, (h : Numbered past) => (pairwise_storedTo h :)

theorem mem_issuedTo_stored {streamId eventId sid : String} {ev : EventMessage μ} {opened : Bool}
    {time : ℚ} {past : EventLog μ} :
    eventId ∈ issuedTo streamId (.stored sid ev opened time :: past) ↔
      eventId ∈ issuedTo streamId past ∨ sid = streamId ∧ eventId = ev.eventId := by
  rw [issuedTo, storedTo]
  split
  · next heq =>
    rw [List.map_append, List.mem_append, List.map_singleton, List.mem_singleton]
    exact or_congr Iff.rfl ⟨fun h => ⟨heq, h⟩, And.right⟩
  · next hne => exact ⟨Or.inl, fun h => h.resolve_right fun h' => hne h'.1⟩

theorem mem_issuedIds_of_mem_issuedTo {streamId eventId : String} : ∀ {log : EventLog μ},
    eventId ∈ issuedTo streamId log → eventId ∈ issuedIds log
  | [], h => absurd h List.not_mem_nil
  | .stored .. :: past, h => by
    rw [issuedIds, List.mem_append, List.mem_singleton]
    exact (mem_issuedTo_stored.mp h).imp mem_issuedIds_of_mem_issuedTo And.right
  | .replayed .. :: past, (h : eventId ∈ issuedTo streamId past) =>
    (mem_issuedIds_of_mem_issuedTo h :)

/-- An id is issued to one stream only. -/
theorem eq_of_mem_issuedTo {streamId streamId' eventId : String} : ∀ {log : EventLog μ},
    Numbered log → eventId ∈ issuedTo streamId log → eventId ∈ issuedTo streamId' log →
    streamId = streamId'
  | [], _, h, _ => absurd h List.not_mem_nil
  | .stored sid ev opened time :: past, hnum, h, h' => by
    have hfresh : ∀ {s}, ev.eventId ∉ issuedTo s past := fun hmem => by
      have hmem' := mem_issuedIds_of_mem_issuedTo hmem
      rw [issuedIds_eq_map_range hnum.2, List.mem_map] at hmem'
      obtain ⟨n, hn, hid⟩ := hmem'
      have := IntLiteral.toString_injective (hid.trans hnum.1)
      exact absurd (List.mem_range.mp hn) (by omega)
    rcases mem_issuedTo_stored.mp h with h | ⟨rfl, hid⟩ <;>
      rcases mem_issuedTo_stored.mp h' with h' | ⟨rfl, hid'⟩
    · exact eq_of_mem_issuedTo hnum.2 h h'
    · exact absurd (hid' ▸ h) hfresh
    · exact absurd (hid ▸ h') hfresh
    · rfl
  | .replayed .. :: past, (hnum : Numbered past), (h : eventId ∈ issuedTo streamId past),
    (h' : eventId ∈ issuedTo streamId' past) => (eq_of_mem_issuedTo hnum h h' :)

/-- **The events stored after an issued one** are those with a larger number. -/
theorem storedAfter_eq_filter {streamId eventId : String} : ∀ {log : EventLog μ}, Numbered log →
    eventId ∈ issuedIds log →
    storedAfter streamId eventId log = (storedTo streamId log).filter fun ev =>
      decide (eventNumber eventId < eventNumber ev.eventId)
  | [], _, h => absurd h List.not_mem_nil
  | .stored sid ev _ _ :: past, hnum, h => by
    have hall : ∀ ev' ∈ storedTo streamId past,
        eventNumber ev'.eventId < eventNumber ev.eventId := fun ev' hev' => by
      obtain ⟨n, hn, hid⟩ := exists_number_of_mem_storedTo hnum.2 hev'
      rw [hid, hnum.1, eventNumber_toString, eventNumber_toString]
      exact Int.ofNat_lt.mpr hn
    rw [storedAfter, storedTo]
    by_cases hid : ev.eventId = eventId
    · rw [if_pos hid, ← hid]
      symm
      rw [List.filter_eq_nil_iff]
      intro ev' hev'
      rw [decide_eq_true_eq, not_lt]
      split at hev'
      · rcases List.mem_append.mp hev' with hmem | hmem
        · exact (hall ev' hmem).le
        · rw [List.mem_singleton.mp hmem]
      · exact (hall ev' hev').le
    · rw [if_neg hid]
      have hpast : eventId ∈ issuedIds past := by
        rw [issuedIds, List.mem_append, List.mem_singleton] at h
        exact h.resolve_right fun heq => hid heq.symm
      have hlater : eventNumber eventId < eventNumber ev.eventId := by
        rw [issuedIds_eq_map_range hnum.2, List.mem_map] at hpast
        obtain ⟨n, hn, rfl⟩ := hpast
        rw [hnum.1, eventNumber_toString, eventNumber_toString]
        exact Int.ofNat_lt.mpr (List.mem_range.mp hn)
      rw [storedAfter_eq_filter hnum.2 hpast]
      split
      · rw [List.filter_append, List.filter_cons_of_pos (by simpa using hlater), List.filter_nil]
      · rfl
  | .replayed .. :: past, (hnum : Numbered past), (h : eventId ∈ issuedIds past) =>
    (storedAfter_eq_filter hnum h :)

theorem openedAt_le_length (streamId : String) : ∀ log : EventLog μ,
    openedAt streamId log ≤ log.length
  | [] => le_rfl
  | .stored .. :: past => by
    rw [openedAt]
    split
    · exact Nat.le_succ _
    · exact (openedAt_le_length streamId past).trans (Nat.le_succ _)
  | .replayed .. :: past => (openedAt_le_length streamId past).trans (Nat.le_succ _)

/-- A stream of a history that has begun was opened in it. -/
theorem openedAt_lt_length (streamId : String) {log : EventLog μ} (h : log ≠ []) :
    openedAt streamId log < log.length := by
  cases log with
  | nil => exact absurd rfl h
  | cons entry past =>
    refine Nat.lt_succ_of_le ?_
    cases entry with
    | stored =>
      rw [openedAt]
      split
      · exact le_rfl
      · exact openedAt_le_length streamId past
    | replayed => exact openedAt_le_length streamId past

end EventLog

end SlmMcpHub
