import SlmMcpHub.Library.Backlog
import SlmMcpHub.Library.Transition
import SlmMcpHub.Resilience.Supervisor

/-!
# The stream of lifecycle events

`LifecycleEventBus` of `resilience/events.py`, and `EventStreamBridge.stream` over it: each client
has a queue, a consumer on the bus that puts events into it and drops the oldest one when it is
full, and a loop that takes them out.

An emission runs all consumers before anything else happens. A client is suspended at a `yield`, or
waits for its queue, or is about to be given an event that has been taken out of the queue for it;
in the last two cases other clients and emissions come in between.

## Main definitions

* `EventBus.consumer` — what the consumer of a client does
* `EventBus.emit`, `EventBus.step` — the bus with all its clients
* `Served` — what a client has got

## Main results

* `consumer_spec` — the consumer never raises, and forgets the oldest event only
* `served_of_reaches`
-/

namespace SlmMcpHub

/-- `LifecycleEvent` -/
structure LifecycleEvent where
  server : String
  fromState : ConnectionState
  toState : ConnectionState
  reason : String
  ts : Double
  failureClass : Option String := none
  attempt : Option ℤ := none

namespace EventBus

/-- `_event_to_sse_data`; `dumps` is `json.dumps`. -/
def eventToSseData (dumps : Json → String) (event : LifecycleEvent) : String :=
  let payload := Json.obj
    [("server", .str event.server), ("from_state", .str event.fromState.value),
      ("to_state", .str event.toState.value), ("reason", .str event.reason),
      ("ts", .float event.ts), ("failure_class", event.failureClass.elim .null .str),
      ("attempt", event.attempt.elim .null .int)]
  "event: lifecycle\ndata: " ++ dumps payload ++ "\n\n"

/-- What a client is given. -/
inductive Chunk where
  | lifecycle (event : LifecycleEvent)
  | keepalive

/-- The text of it. -/
def Chunk.text (dumps : Json → String) : Chunk → String
  | .lifecycle event => eventToSseData dumps event
  | .keepalive => ": keepalive\n\n"

def Chunk.event? : Chunk → Option LifecycleEvent
  | .lifecycle event => some event
  | .keepalive => none

/-- Where the loop of a client is. -/
inductive Phase where
  /-- At a `yield`. -/
  | suspended
  /-- In `wait_for`, and the queue has not been read. -/
  | waiting
  /-- In `wait_for`, and `queue.get()` has returned. -/
  | holding (event : LifecycleEvent)
  /-- Past the `finally`. -/
  | closed

/-- What `wait_for` is about to return. -/
def Phase.held : Phase → List LifecycleEvent
  | .holding event => [event]
  | _ => []

/-- A client of `stream`. -/
structure Client where
  queue : AsyncQueue LifecycleEvent
  phase : Phase := .waiting
  yielded : List Chunk := []
  /-- How many events had been emitted when it subscribed. -/
  since : ℕ

namespace Client

/-- The events it has been given. -/
def read (c : Client) : List LifecycleEvent := c.yielded.filterMap Chunk.event?

/-- The events that have been taken out of its queue for it. -/
def taken (c : Client) : List LifecycleEvent := c.read ++ c.phase.held

end Client

/-- `_consumer`: `none` if it raises. -/
def consumer (queue : AsyncQueue LifecycleEvent) (event : LifecycleEvent) :
    Option (AsyncQueue LifecycleEvent) :=
  match queue.putNowait event with
  | some queue => some queue
  | none =>
    match queue.getNowait with
    | none => none
    | some (_, queue) => queue.putNowait event

/-- What is called for an event. -/
inductive Consumer where
  /-- The consumer of the client. -/
  | stream (client : ℕ)
  /-- One that has nothing to do with clients; it may raise. -/
  | other (raises : LifecycleEvent → Bool)

end EventBus

/-- `LifecycleEventBus`, with the clients of the streams. -/
structure EventBus where
  /-- `_queue_maxsize` of the bridge. -/
  queueMaxsize : ℤ
  consumers : Dict ℕ EventBus.Consumer := .empty
  nextId : ℕ := 0
  /-- The clients, by the number of their consumer. -/
  clients : ℕ → Option EventBus.Client := fun _ => none
  /-- All events there have been. -/
  emitted : List LifecycleEvent := []

namespace EventBus

/-- `EventStreamBridge(bus, queue_maxsize)` -/
def bridge (queueMaxsize : ℤ) : EventBus := { queueMaxsize := max 1 queueMaxsize }

/-- `register_consumer` -/
def registerConsumer (s : EventBus) (x : Consumer) : EventBus :=
  { s with consumers := s.consumers.set s.nextId x, nextId := s.nextId + 1 }

/-- What `register_consumer` returns. -/
def unregister (s : EventBus) (cid : ℕ) : EventBus := { s with consumers := s.consumers.erase cid }

/-- Change the attributes of a client. -/
def setClient (s : EventBus) (k : ℕ) (c : Client) : EventBus :=
  { s with clients := Function.update s.clients k (some c) }

theorem get?_registerConsumer (s : EventBus) (x : Consumer) (cid : ℕ) :
    (s.registerConsumer x).consumers.get? cid =
      if s.nextId = cid then some x else s.consumers.get? cid :=
  Dict.get?_set ..

@[simp] theorem nextId_registerConsumer (s : EventBus) (x : Consumer) :
    (s.registerConsumer x).nextId = s.nextId + 1 := rfl

@[simp] theorem clients_registerConsumer (s : EventBus) (x : Consumer) :
    (s.registerConsumer x).clients = s.clients := rfl

theorem get?_unregister (s : EventBus) (cid i : ℕ) :
    (s.unregister cid).consumers.get? i = if cid = i then none else s.consumers.get? i :=
  Dict.get?_erase ..

@[simp] theorem clients_unregister (s : EventBus) (cid : ℕ) :
    (s.unregister cid).clients = s.clients := rfl

theorem clients_setClient (s : EventBus) (k : ℕ) (c : Client) (i : ℕ) :
    (s.setClient k c).clients i = if i = k then some c else s.clients i :=
  Function.update_apply ..

@[simp] theorem clients_setClient_self (s : EventBus) (k : ℕ) (c : Client) :
    (s.setClient k c).clients k = some c :=
  Function.update_self ..

/-- `consumer(event)`: `none` if it raises. -/
def call (s : EventBus) (event : LifecycleEvent) : Consumer → Option EventBus
  | .other raises => if raises event then none else some s
  | .stream k =>
    match s.clients k with
    | none => none
    | some c => (consumer c.queue event).map fun queue => s.setClient k { c with queue }

/-- `emit`: what a consumer raises is logged. -/
def emit (s : EventBus) (event : LifecycleEvent) : EventBus :=
  let s := s.consumers.values.foldl (fun s x => (s.call event x).getD s) s
  { s with emitted := s.emitted ++ [event] }

/-- What happens. -/
inductive Act where
  | emit (event : LifecycleEvent)
  /-- Something else registers a consumer. -/
  | register (raises : LifecycleEvent → Bool)
  /-- Something else unregisters its consumer. -/
  | unregister (cid : ℕ)
  /-- A client asks `stream()` for the first time. -/
  | subscribe
  /-- A client asks again. -/
  | pull (k : ℕ)
  /-- `queue.get()` returns. -/
  | get (k : ℕ)
  /-- `wait_for` returns, and the event is yielded. -/
  | deliver (k : ℕ)
  /-- `wait_for` raises `TimeoutError`, and a keepalive is yielded. -/
  | timeout (k : ℕ)
  /-- The generator is closed or cancelled. -/
  | close (k : ℕ)

/-- One step. -/
def step (s : EventBus) : Act → Option EventBus
  | .emit event => some (s.emit event)
  | .register raises => some (s.registerConsumer (.other raises))
  | .unregister cid =>
    match s.consumers.get? cid with
    | some (.other _) => some (s.unregister cid)
    | _ => none
  | .subscribe =>
    let c : Client := { queue := .empty s.queueMaxsize, since := s.emitted.length }
    some ((s.registerConsumer (.stream s.nextId)).setClient s.nextId c)
  | .pull k =>
    match s.clients k with
    | some ⟨queue, .suspended, yielded, since⟩ =>
      some (s.setClient k ⟨queue, .waiting, yielded, since⟩)
    | _ => none
  | .get k =>
    match s.clients k with
    | some ⟨queue, .waiting, yielded, since⟩ =>
      match queue.getNowait with
      | some (event, queue) => some (s.setClient k ⟨queue, .holding event, yielded, since⟩)
      | none => none
    | _ => none
  | .deliver k =>
    match s.clients k with
    | some ⟨queue, .holding event, yielded, since⟩ =>
      some (s.setClient k ⟨queue, .suspended, yielded ++ [.lifecycle event], since⟩)
    | _ => none
  | .timeout k =>
    match s.clients k with
    | some ⟨queue, .waiting, yielded, since⟩ =>
      some (s.setClient k ⟨queue, .suspended, yielded ++ [.keepalive], since⟩)
    | _ => none
  | .close k =>
    match s.clients k with
    | some ⟨_, .closed, _, _⟩ => none
    | some c => some ((s.setClient k { c with phase := .closed }).unregister k)
    | none => none

/-- The runs of a bus with a bridge. -/
abbrev Runs (s s' : EventBus) : Prop := Reaches step (fun _ _ => True) s s'

/-- The events emitted since the client subscribed. -/
def since (s : EventBus) (c : Client) : List LifecycleEvent := s.emitted.drop c.since

/-- **The oldest event of a full queue made room for a newer one**: for the event at place `i` of
those since the client subscribed there has been a moment when it had not been taken and as many
events were in the queue as there is room for, itself the oldest, and another one was emitted. -/
def Forgotten (m : ℕ) (s₀ s : EventBus) (k i : ℕ) : Prop :=
  ∃ s₁ event c, Runs s₀ s₁ ∧ Runs (s₁.emit event) s ∧ s₁.clients k = some c ∧
    (s₁.since c).length = i + m ∧ c.queue.items = (s₁.since c).drop i

/-- **What a client has got**: it has taken the events at increasing places of those emitted since
it subscribed, the queue holds the last ones after these, and every other one was forgotten when as
many newer ones had been emitted. -/
structure Served (m : ℕ) (s₀ s : EventBus) (k : ℕ) (c : Client) (places : List ℕ) : Prop where
  backlog : Backlog m (s.since c) c.queue.items c.taken places
  forgotten : ∀ i < (s.since c).length, i ∉ places →
    Backlog.Held (s.since c) c.queue.items i ∨ Forgotten m s₀ s k i

/-! ### The consumer of a client -/

/-- **The consumer never raises**: it forgets the oldest event if there is no room, and no other. -/
theorem consumer_spec {m : ℕ} (hm : 0 < m) {queue : AsyncQueue LifecycleEvent}
    (hq : queue.maxsize = m) (event : LifecycleEvent) :
    ∃ queue', consumer queue event = some queue' ∧ queue'.maxsize = m ∧
      queue'.items = (queue.items ++ [event]).rtake m := by
  have hle : queue.items.length ≤ m := by
    have hbounded := queue.bounded (by omega)
    omega
  cases hfull : queue.full with
  | false =>
    obtain ⟨queue', hput, hmax, hitems⟩ := AsyncQueue.putNowait_of_room hfull event
    have hroom : queue.items.length ≠ m := fun h => by
      rw [(AsyncQueue.full_iff hm hq).mpr h] at hfull
      cases hfull
    refine ⟨queue', by rw [consumer, hput], hmax.trans hq, ?_⟩
    rw [hitems, List.rtake, Nat.sub_eq_zero_of_le, List.drop_zero]
    rw [List.length_append, List.length_singleton]
    omega
  | true =>
    have hlength := (AsyncQueue.full_iff hm hq).mp hfull
    cases hold : queue.items with
    | nil =>
      rw [hold, List.length_nil] at hlength
      omega
    | cons oldest rest =>
      rw [hold, List.length_cons] at hlength
      obtain ⟨dropped, hget, hmax, hrest⟩ := AsyncQueue.getNowait_of_cons hold
      have hroom : dropped.full = false := by
        refine Bool.eq_false_iff.mpr fun h => ?_
        have hfilled := (AsyncQueue.full_iff hm (hmax.trans hq)).mp h
        rw [hrest] at hfilled
        omega
      obtain ⟨queue', hput, hmax', hitems⟩ := AsyncQueue.putNowait_of_room hroom event
      refine ⟨queue', ?_, hmax'.trans (hmax.trans hq), ?_⟩
      · simp only [consumer, AsyncQueue.putNowait_of_full hfull, hget, hput]
      · rw [hitems, hrest, List.rtake, List.length_append, List.length_cons, hlength,
          List.length_singleton, Nat.add_sub_cancel_left, List.cons_append, List.drop_one,
          List.tail_cons]

/-! ### An emission -/

namespace Client

/-- The client, after its consumer has been called. -/
def fed (event : LifecycleEvent) (c : Client) : Client :=
  (consumer c.queue event).elim c fun queue => { c with queue }

theorem fed_spec {m : ℕ} (hm : 0 < m) {c : Client} (hq : c.queue.maxsize = m)
    (event : LifecycleEvent) :
    (c.fed event).queue.maxsize = m ∧ (c.fed event).since = c.since ∧
      (c.fed event).phase = c.phase ∧ (c.fed event).taken = c.taken ∧
        (c.fed event).queue.items = (c.queue.items ++ [event]).rtake m := by
  obtain ⟨queue, hconsumer, hmax, hitems⟩ := consumer_spec hm hq event
  rw [fed, hconsumer]
  exact ⟨hmax, rfl, rfl, rfl, hitems⟩

end Client

/-- The client of a consumer. -/
def Consumer.client? : Consumer → Option ℕ
  | .stream k => some k
  | .other _ => none

/-- The bus, after the consumers of some clients have been called. -/
def fedAll (event : LifecycleEvent) (ids : List ℕ) (s : EventBus) : EventBus :=
  { s with
    clients := fun k => if k ∈ ids then (s.clients k).map (Client.fed event) else s.clients k }

/-- **One consumer** changes nothing but its own client. -/
theorem getD_call (event : LifecycleEvent) (s : EventBus) (x : Consumer) :
    (s.call event x).getD s = s.fedAll event x.client?.toList := by
  cases x with
  | other raises =>
    rw [call, Consumer.client?]
    cases raises event <;> simp [fedAll]
  | stream i =>
    have hclients : (s.fedAll event [i]).clients =
        Function.update s.clients i ((s.clients i).map (Client.fed event)) := by
      funext k
      by_cases hk : k = i
      · simp [fedAll, hk]
      · simp [fedAll, hk]
    have hrest : s.fedAll event [i] = { s with clients := (s.fedAll event [i]).clients } := rfl
    rw [Consumer.client?, Option.toList_some, hrest, hclients]
    cases hi : s.clients i with
    | none =>
      have hcall : s.call event (.stream i) = none := by simp only [call, hi]
      rw [hcall, Option.map_none, ← hi, Function.update_eq_self]
      rfl
    | some c =>
      cases hc : consumer c.queue event with
      | none =>
        have hcall : s.call event (.stream i) = none := by simp only [call, hi, hc, Option.map_none]
        have hfed : c.fed event = c := by rw [Client.fed, hc, Option.elim_none]
        rw [hcall, Option.map_some, hfed, ← hi, Function.update_eq_self]
        rfl
      | some queue => simp [call, hi, hc, Client.fed, setClient]

/-- All of them, one after the other. -/
theorem foldl_call (event : LifecycleEvent) (l : List Consumer) (s : EventBus)
    (hl : (l.filterMap Consumer.client?).Nodup) :
    l.foldl (fun s x => (s.call event x).getD s) s =
      s.fedAll event (l.filterMap Consumer.client?) := by
  induction l generalizing s with
  | nil => simp [fedAll]
  | cons x l ih =>
    cases hx : x.client? with
    | none =>
      rw [List.filterMap_cons_none hx] at hl ⊢
      rw [List.foldl_cons, getD_call, hx, ih _ hl]
      simp [fedAll]
    | some i =>
      rw [List.filterMap_cons_some hx, List.nodup_cons] at hl
      rw [List.filterMap_cons_some hx, List.foldl_cons, getD_call, hx, ih _ hl.2]
      simp only [fedAll]
      congr 1
      funext k
      by_cases hk : k = i
      · simp [hk, hl.1]
      · simp [hk]

/-! ### Who is on the bus -/

/-- Every consumer of a client is registered under the number of the client, and every client has
one until its generator is closed. -/
structure Wired (m : ℕ) (s : EventBus) : Prop where
  positive : 0 < m
  queueMaxsize : s.queueMaxsize = m
  own : ∀ cid i, s.consumers.get? cid = some (.stream i) → i = cid
  fresh : ∀ cid x, s.consumers.get? cid = some x → cid < s.nextId
  freshClient : ∀ k, s.nextId ≤ k → s.clients k = none
  maxsize : ∀ k c, s.clients k = some c → c.queue.maxsize = m
  subscribed : ∀ k c, s.clients k = some c → c.phase ≠ .closed →
    s.consumers.get? k = some (.stream k)

namespace Wired

variable {m : ℕ} {s : EventBus}

theorem start (queueMaxsize : ℤ) : Wired (max 1 queueMaxsize).toNat (bridge queueMaxsize) where
  positive := by omega
  queueMaxsize := by
    rw [bridge, Int.toNat_of_nonneg]
    omega
  own _ _ h := by cases h
  fresh _ _ h := by cases h
  freshClient _ _ := rfl
  maxsize _ _ h := by cases h
  subscribed _ _ h := by cases h

theorem nodup_clients (h : Wired m s) : (s.consumers.values.filterMap Consumer.client?).Nodup := by
  have hkeys : (s.consumers.values.filterMap Consumer.client?).Sublist s.consumers.keys := by
    have hown : ∀ p ∈ s.consumers.entries, ∀ i, p.2.client? = some i → i = p.1 := by
      rintro ⟨cid, x⟩ hp i hi
      cases x with
      | other raises => cases hi
      | stream j =>
        cases hi
        exact h.own cid i (Dict.mem_entries_iff.mp hp)
    rw [Dict.values, Dict.keys, List.filterMap_map]
    generalize s.consumers.entries = l at hown
    induction l with
    | nil => exact .slnil
    | cons p l ih =>
      have ih := ih fun q hq => hown q (List.mem_cons_of_mem _ hq)
      cases hp : p.2.client? with
      | none =>
        rw [List.filterMap_cons_none (by exact hp)]
        exact ih.cons _
      | some i =>
        rw [List.filterMap_cons_some (by exact hp), List.map_cons,
          hown p (List.mem_cons_self ..) i hp]
        exact ih.cons_cons _
  exact hkeys.nodup s.consumers.keys_nodup

theorem emit_eq (h : Wired m s) (event : LifecycleEvent) :
    s.emit event = { s.fedAll event (s.consumers.values.filterMap Consumer.client?) with
      emitted := s.emitted ++ [event] } := by
  rw [EventBus.emit, foldl_call event _ _ h.nodup_clients]
  rfl

/-- **An emission** feeds every client that is not closed. -/
theorem clients_emit (h : Wired m s) (event : LifecycleEvent) {k : ℕ} {c : Client}
    (hc : s.clients k = some c) (hopen : c.phase ≠ .closed) :
    (s.emit event).clients k = some (c.fed event) := by
  have hmem : k ∈ s.consumers.values.filterMap Consumer.client? :=
    List.mem_filterMap.mpr ⟨.stream k, Dict.mem_values_iff.mpr ⟨k, h.subscribed k c hc hopen⟩, rfl⟩
  rw [h.emit_eq]
  show (if _ then _ else _) = _
  rw [if_pos hmem, hc, Option.map_some]

theorem of_clients_emit (h : Wired m s) {event : LifecycleEvent} {k : ℕ} {c : Client}
    (hc : (s.emit event).clients k = some c) :
    ∃ c₀, s.clients k = some c₀ ∧ (c = c₀ ∨ c = c₀.fed event) := by
  rw [h.emit_eq] at hc
  change (if _ then _ else _) = _ at hc
  split at hc
  · obtain ⟨c₀, hc₀, rfl⟩ := Option.map_eq_some_iff.mp hc
    exact ⟨c₀, hc₀, .inr rfl⟩
  · exact ⟨c, hc, .inl rfl⟩

theorem emit (h : Wired m s) (event : LifecycleEvent) : Wired m (s.emit event) := by
  have hrest : (s.emit event).consumers = s.consumers ∧ (s.emit event).nextId = s.nextId ∧
      (s.emit event).queueMaxsize = s.queueMaxsize := by
    rw [h.emit_eq]
    exact ⟨rfl, rfl, rfl⟩
  have hfed : ∀ k c, (s.emit event).clients k = some c → ∃ c₀, s.clients k = some c₀ ∧
      c.queue.maxsize = m ∧ c.phase = c₀.phase := by
    intro k c hc
    obtain ⟨c₀, hc₀, rfl | rfl⟩ := h.of_clients_emit hc
    · exact ⟨c, hc₀, h.maxsize k c hc₀, rfl⟩
    · obtain ⟨hmax, -, hphase, -⟩ := Client.fed_spec h.positive (h.maxsize k c₀ hc₀) event
      exact ⟨c₀, hc₀, hmax, hphase⟩
  refine ⟨h.positive, hrest.2.2.trans h.queueMaxsize, ?_, ?_, ?_, ?_, ?_⟩
  · rw [hrest.1]
    exact h.own
  · rw [hrest.1, hrest.2.1]
    exact h.fresh
  · intro k hk
    rw [hrest.2.1] at hk
    cases hc : (s.emit event).clients k with
    | none => rfl
    | some c =>
      obtain ⟨c₀, hc₀, -⟩ := hfed k c hc
      rw [h.freshClient k hk] at hc₀
      cases hc₀
  · intro k c hc
    obtain ⟨-, -, hmax, -⟩ := hfed k c hc
    exact hmax
  · intro k c hc hopen
    obtain ⟨c₀, hc₀, -, hphase⟩ := hfed k c hc
    rw [hrest.1]
    exact h.subscribed k c₀ hc₀ (hphase ▸ hopen)

/-- Registering leaves the other consumers alone. -/
theorem registerConsumer (h : Wired m s) {x : Consumer} (hx : ∀ i, x = .stream i → i = s.nextId) :
    Wired m (s.registerConsumer x) where
  positive := h.positive
  queueMaxsize := h.queueMaxsize
  own cid i hcid := by
    rw [get?_registerConsumer] at hcid
    split at hcid
    · rename_i hnew
      rw [hx i (Option.some.inj hcid), hnew]
    · exact h.own cid i hcid
  fresh cid y hcid := by
    rw [get?_registerConsumer] at hcid
    rw [nextId_registerConsumer]
    split at hcid
    · omega
    · exact (h.fresh cid y hcid).trans (Nat.lt_succ_self _)
  freshClient k hk := h.freshClient k (Nat.le_of_succ_le hk)
  maxsize := h.maxsize
  subscribed k c hc hopen := by
    have hk := h.subscribed k c hc hopen
    rw [get?_registerConsumer, if_neg (h.fresh k _ hk).ne', hk]

/-- Unregistering is for consumers that no open client has. -/
theorem unregister (h : Wired m s) {cid : ℕ}
    (hcid : ∀ c, s.clients cid = some c → c.phase = .closed) : Wired m (s.unregister cid) where
  positive := h.positive
  queueMaxsize := h.queueMaxsize
  own i j hi := by
    rw [get?_unregister] at hi
    split at hi
    · cases hi
    · exact h.own i j hi
  fresh i y hi := by
    rw [get?_unregister] at hi
    split at hi
    · cases hi
    · exact h.fresh i y hi
  freshClient := h.freshClient
  maxsize := h.maxsize
  subscribed k c hc hopen := by
    rw [get?_unregister, if_neg]
    · exact h.subscribed k c hc hopen
    · rintro rfl
      exact hopen (hcid c hc)

/-- A client that goes on, or is closed. -/
theorem setClient (h : Wired m s) {k : ℕ} {c : Client} (hk : k < s.nextId)
    (hmax : c.queue.maxsize = m)
    (hopen : c.phase ≠ .closed → s.consumers.get? k = some (.stream k)) :
    Wired m (s.setClient k c) where
  positive := h.positive
  queueMaxsize := h.queueMaxsize
  own := h.own
  fresh := h.fresh
  freshClient i hi := by
    rw [clients_setClient, if_neg (hk.trans_le hi).ne']
    exact h.freshClient i hi
  maxsize i c' hc' := by
    rw [clients_setClient] at hc'
    split at hc'
    · exact Option.some.inj hc' ▸ hmax
    · exact h.maxsize i c' hc'
  subscribed i c' hc' hopen' := by
    rw [clients_setClient] at hc'
    split at hc'
    · rename_i hik
      obtain rfl := Option.some.inj hc'
      rw [hik]
      exact hopen hopen'
    · exact h.subscribed i c' hc' hopen'

theorem lt_nextId (h : Wired m s) {k : ℕ} {c : Client} (hc : s.clients k = some c) :
    k < s.nextId := by
  by_contra hk
  rw [h.freshClient k (not_lt.mp hk)] at hc
  cases hc

end Wired

/-! ### What a step does to a client -/

/-- What a step that is no emission does to a client: nothing, or the oldest event is taken out of
its queue. -/
structure Goes (c c' : Client) : Prop where
  since : c'.since = c.since
  maxsize : c'.queue.maxsize = c.queue.maxsize
  items : c'.queue.items = c.queue.items ∧ c'.taken = c.taken ∨
    ∃ event, c.queue.items = event :: c'.queue.items ∧ c'.taken = c.taken ++ [event]

theorem Goes.refl (c : Client) : Goes c c := ⟨rfl, rfl, .inl ⟨rfl, rfl⟩⟩

/-- **One step**, as its clients see it: an event is emitted; a client has subscribed; one client
has gone on, or was closed; or something else has registered a consumer, or unregistered it. -/
theorem step_cases {s s' : EventBus} {a : Act} (h : step s a = some s') :
    (∃ event, a = .emit event ∧ s' = s.emit event) ∨
    (s' = (s.registerConsumer (.stream s.nextId)).setClient s.nextId
      { queue := .empty s.queueMaxsize, since := s.emitted.length }) ∨
    (∃ k c c', s.clients k = some c ∧ c.phase ≠ .closed ∧ c'.phase ≠ .closed ∧ Goes c c' ∧
      s' = s.setClient k c') ∨
    (∃ k c, s.clients k = some c ∧ s' = (s.setClient k { c with phase := .closed }).unregister k) ∨
    (∃ raises, s' = s.registerConsumer (.other raises)) ∨
    (∃ cid raises, s.consumers.get? cid = some (.other raises) ∧ s' = s.unregister cid) := by
  cases a with
  | emit event =>
    exact .inl ⟨event, rfl, (Option.some.inj h).symm⟩
  | register raises =>
    exact .inr (.inr (.inr (.inr (.inl ⟨raises, (Option.some.inj h).symm⟩))))
  | unregister cid =>
    simp only [step] at h
    split at h
    · rename_i raises hcid
      exact .inr (.inr (.inr (.inr (.inr ⟨cid, raises, hcid, (Option.some.inj h).symm⟩))))
    · cases h
  | subscribe => exact .inr (.inl (Option.some.inj h).symm)
  | pull k =>
    simp only [step] at h
    split at h
    · rename_i queue yielded since hk
      refine .inr (.inr (.inl ⟨k, _, _, hk, by simp, by simp, ?_, (Option.some.inj h).symm⟩))
      · exact ⟨rfl, rfl, .inl ⟨rfl, rfl⟩⟩
    · cases h
  | get k =>
    simp only [step] at h
    split at h
    · rename_i queue yielded since hk
      split at h
      · rename_i event rest hget
        obtain ⟨hitems, hmax⟩ := AsyncQueue.getNowait_eq_some hget
        refine .inr (.inr (.inl ⟨k, _, _, hk, by simp, by simp, ?_, (Option.some.inj h).symm⟩))
        · exact ⟨rfl, hmax, .inr ⟨event, hitems, by simp [Client.taken, Client.read, Phase.held]⟩⟩
      · cases h
    · cases h
  | deliver k =>
    simp only [step] at h
    split at h
    · rename_i queue event yielded since hk
      refine .inr (.inr (.inl ⟨k, _, _, hk, by simp, by simp, ?_, (Option.some.inj h).symm⟩))
      · exact ⟨rfl, rfl, .inl ⟨rfl, by simp [Client.taken, Client.read, Phase.held, Chunk.event?]⟩⟩
    · cases h
  | timeout k =>
    simp only [step] at h
    split at h
    · rename_i queue yielded since hk
      refine .inr (.inr (.inl ⟨k, _, _, hk, by simp, by simp, ?_, (Option.some.inj h).symm⟩))
      · exact ⟨rfl, rfl, .inl ⟨rfl, by simp [Client.taken, Client.read, Phase.held, Chunk.event?]⟩⟩
    · cases h
  | close k =>
    simp only [step] at h
    split at h
    · cases h
    · rename_i c _ hk
      exact .inr (.inr (.inr (.inl ⟨k, c, hk, (Option.some.inj h).symm⟩)))
    · cases h

theorem Wired.step {m : ℕ} {s s' : EventBus} (h : Wired m s) {a : Act}
    (hstep : EventBus.step s a = some s') : Wired m s' := by
  obtain ⟨event, -, rfl⟩ | rfl | ⟨k, c, c', hc, hopen, -, hgoes, rfl⟩ | ⟨k, c, hc, rfl⟩ |
    ⟨raises, rfl⟩ | ⟨cid, raises, hcid, rfl⟩ := step_cases hstep
  · exact h.emit event
  · refine (h.registerConsumer (by rintro i ⟨⟩; rfl)).setClient (Nat.lt_succ_self _)
      h.queueMaxsize fun _ => ?_
    rw [get?_registerConsumer, if_pos rfl]
  · exact h.setClient (h.lt_nextId hc) (hgoes.maxsize.trans (h.maxsize k c hc)) fun _ =>
      h.subscribed k c hc hopen
  · refine (h.setClient (c := { c with phase := .closed }) (h.lt_nextId hc) (h.maxsize k c hc)
      fun hclosed => absurd rfl hclosed).unregister fun c' hc' => ?_
    rw [clients_setClient_self] at hc'
    rw [← Option.some.inj hc']
  · exact h.registerConsumer nofun
  · refine h.unregister fun c hc => ?_
    by_contra hopen
    rw [h.subscribed cid c hc hopen] at hcid
    cases hcid

/-! ### What a client gets -/

section Served

variable {m : ℕ} {s₀ s s' : EventBus} {k : ℕ} {c : Client} {places : List ℕ}

theorem Forgotten.trans {i : ℕ} (h : Forgotten m s₀ s k i) (hrun : Runs s s') :
    Forgotten m s₀ s' k i := by
  obtain ⟨s₁, event, c, hbefore, hafter, hrest⟩ := h
  exact ⟨s₁, event, c, hbefore, hafter.trans hrun, hrest⟩

/-- A client that has just subscribed. -/
theorem served_start (hsince : c.since = s.emitted.length) (hqueue : c.queue.items = [])
    (htaken : c.taken = []) : Served m s₀ s k c [] := by
  have hnone : s.since c = [] := by rw [since, hsince, List.drop_length]
  refine ⟨?_, fun i hi => ?_⟩
  · rw [hnone, hqueue, htaken]
    exact Backlog.start m
  · rw [hnone, List.length_nil] at hi
    omega

/-- Nothing has been emitted, and the client has gone on. -/
theorem Served.goes (h : Served m s₀ s k c places) {c' : Client} (hgoes : Goes c c')
    (hrun : Runs s s') (hemitted : s'.emitted = s.emitted) :
    ∃ places, Served m s₀ s' k c' places := by
  have hsince : s'.since c' = s.since c := by rw [since, since, hemitted, hgoes.since]
  obtain ⟨hitems, htaken⟩ | ⟨event, hitems, htaken⟩ := hgoes.items
  · refine ⟨places, ?_, ?_⟩
    · rw [hsince, hitems, htaken]
      exact h.backlog
    · rw [hsince, hitems]
      exact fun i hi hplace => (h.forgotten i hi hplace).imp_right fun hf => hf.trans hrun
  · have hbacklog := h.backlog
    rw [hitems] at hbacklog
    refine ⟨places ++ [(s.since c).length - (c'.queue.items.length + 1)], ?_, ?_⟩
    · rw [hsince, htaken]
      exact hbacklog.take
    · rw [hsince]
      intro i hi hplace
      rw [List.mem_append, List.mem_singleton, not_or] at hplace
      refine (h.forgotten i hi hplace.1).imp (fun hheld => ?_) fun hf => hf.trans hrun
      rw [hitems, Backlog.Held, List.length_cons] at hheld
      exact ⟨by omega, hi⟩

/-- An event has been emitted. -/
theorem Served.emit (h : Served m s₀ s k c places) (hwired : Wired m s) (hrun : Runs s₀ s)
    (hc : s.clients k = some c) (hle : c.since ≤ s.emitted.length) (event : LifecycleEvent) :
    Served m s₀ (s.emit event) k (c.fed event) places := by
  have hm := hwired.positive
  obtain ⟨-, hsince, -, htaken, hitems⟩ := Client.fed_spec hm (hwired.maxsize k c hc) event
  have hfed : (s.emit event).since (c.fed event) = s.since c ++ [event] := by
    rw [since, since, hwired.emit_eq, hsince, List.drop_append_of_le_length hle]
  refine ⟨?_, ?_⟩
  · rw [hfed, hitems, htaken]
    exact h.backlog.feed event
  · rw [hfed, hitems]
    intro i hi hplace
    rw [List.length_append, List.length_singleton] at hi
    by_cases hnew : i = (s.since c).length
    · -- the new event has just been put into the queue
      refine .inl ⟨?_, by rw [List.length_append, List.length_singleton]; exact hi⟩
      rw [length_rtake, List.length_append, List.length_append, List.length_singleton]
      omega
    · obtain hheld | hf := h.forgotten i (by omega) hplace
      · by_cases hstill : Backlog.Held (s.since c ++ [event]) ((c.queue.items ++ [event]).rtake m) i
        · exact .inl hstill
        · obtain ⟨hlength, hdrop⟩ := h.backlog.eq_drop_of_overtaken hheld hstill
          exact .inr ⟨s, event, c, hrun, .start, hc, hlength, hdrop⟩
      · exact .inr (hf.trans (Reaches.start.step (a := .emit event) trivial rfl))

end Served

/-- What every run of the bus keeps. -/
structure Inv (m : ℕ) (s₀ s : EventBus) : Prop where
  run : Runs s₀ s
  wired : Wired m s
  since_le : ∀ k c, s.clients k = some c → c.since ≤ s.emitted.length
  served : ∀ k c, s.clients k = some c → c.phase ≠ .closed → ∃ places, Served m s₀ s k c places

theorem Inv.start (queueMaxsize : ℤ) :
    Inv (max 1 queueMaxsize).toNat (bridge queueMaxsize) (bridge queueMaxsize) where
  run := .start
  wired := .start queueMaxsize
  since_le _ _ hc := by cases hc
  served _ _ hc := by cases hc

/-- A client that has not gone on, or has, while nothing was emitted. -/
theorem Inv.goes {m : ℕ} {s₀ s s' : EventBus} (h : Inv m s₀ s) (hrun : Runs s₀ s')
    (hwired : Wired m s') (hstep : Runs s s') (hemitted : s'.emitted = s.emitted)
    (hclients : ∀ k c', s'.clients k = some c' → c'.since ≤ s.emitted.length ∧
      (c'.phase ≠ .closed → c'.since = s.emitted.length ∧ c'.queue.items = [] ∧ c'.taken = [] ∨
        ∃ c, s.clients k = some c ∧ c.phase ≠ .closed ∧ Goes c c')) : Inv m s₀ s' where
  run := hrun
  wired := hwired
  since_le k c' hc' := hemitted ▸ (hclients k c' hc').1
  served k c' hc' hopen := by
    obtain ⟨hsince, hqueue, htaken⟩ | ⟨c, hc, hcopen, hgoes⟩ := (hclients k c' hc').2 hopen
    · exact ⟨[], served_start (hemitted ▸ hsince) hqueue htaken⟩
    · obtain ⟨places, hserved⟩ := h.served k c hc hcopen
      exact hserved.goes hgoes hstep hemitted

/-- An event has been emitted. -/
theorem Inv.emit {m : ℕ} {s₀ s : EventBus} (h : Inv m s₀ s) (event : LifecycleEvent) :
    Inv m s₀ (s.emit event) where
  run := h.run.step (a := .emit event) trivial rfl
  wired := h.wired.emit event
  since_le k c hc := by
    obtain ⟨c₀, hc₀, hfed⟩ := h.wired.of_clients_emit hc
    have hsince : c.since = c₀.since := by
      rcases hfed with rfl | rfl
      · rfl
      · exact (Client.fed_spec h.wired.positive (h.wired.maxsize k c₀ hc₀) event).2.1
    rw [hsince, h.wired.emit_eq, List.length_append]
    exact (h.since_le k c₀ hc₀).trans (Nat.le_add_right _ _)
  served k c hc hopen := by
    obtain ⟨c₀, hc₀, hfed⟩ := h.wired.of_clients_emit hc
    have hopen₀ : c₀.phase ≠ .closed := by
      rcases hfed with rfl | rfl
      · exact hopen
      · rwa [(Client.fed_spec h.wired.positive (h.wired.maxsize k c₀ hc₀) event).2.2.1] at hopen
    obtain rfl := Option.some.inj ((h.wired.clients_emit event hc₀ hopen₀).symm.trans hc)
    obtain ⟨places, hserved⟩ := h.served k c₀ hc₀ hopen₀
    exact ⟨places, hserved.emit h.wired h.run hc₀ (h.since_le k c₀ hc₀) event⟩

/-- **One step.** -/
theorem Inv.step {m : ℕ} {s₀ s s' : EventBus} (h : Inv m s₀ s) {a : Act}
    (hstep : EventBus.step s a = some s') : Inv m s₀ s' := by
  have hrun : Runs s₀ s' := h.run.step trivial hstep
  have hone : Runs s s' := Reaches.start.step trivial hstep
  have hwired : Wired m s' := h.wired.step hstep
  have hsame : ∀ k c, s.clients k = some c → c.since ≤ s.emitted.length ∧
      (c.phase ≠ .closed → c.since = s.emitted.length ∧ c.queue.items = [] ∧ c.taken = [] ∨
        ∃ c₀, s.clients k = some c₀ ∧ c₀.phase ≠ .closed ∧ Goes c₀ c) :=
    fun k c hc => ⟨h.since_le k c hc, fun hopen => .inr ⟨c, hc, hopen, .refl c⟩⟩
  obtain ⟨event, -, rfl⟩ | rfl | ⟨k, c, c', hc, hopen, hopen', hgoes, rfl⟩ | ⟨k, c, hc, rfl⟩ |
    ⟨raises, rfl⟩ | ⟨cid, raises, hcid, rfl⟩ := step_cases hstep
  · exact h.emit event
  · refine h.goes hrun hwired hone rfl fun i c hc => ?_
    rw [clients_setClient] at hc
    split at hc
    · obtain rfl := Option.some.inj hc
      exact ⟨Nat.le_refl _, fun _ => .inl ⟨rfl, rfl, rfl⟩⟩
    · exact hsame i c hc
  · refine h.goes hrun hwired hone rfl fun i c₁ hc₁ => ?_
    rw [clients_setClient] at hc₁
    split at hc₁
    · rename_i hik
      obtain rfl := Option.some.inj hc₁
      rw [hik]
      exact ⟨hgoes.since ▸ h.since_le k c hc, fun _ => .inr ⟨c, hc, hopen, hgoes⟩⟩
    · exact hsame i c₁ hc₁
  · refine h.goes hrun hwired hone rfl fun i c₁ hc₁ => ?_
    rw [clients_unregister, clients_setClient] at hc₁
    split at hc₁
    · obtain rfl := Option.some.inj hc₁
      exact ⟨h.since_le k c hc, fun hclosed => absurd rfl hclosed⟩
    · exact hsame i c₁ hc₁
  · exact h.goes hrun hwired hone rfl hsame
  · exact h.goes hrun hwired hone rfl hsame

/-- **What clients get**: in every run of the bus with a bridge each client that has not been closed
has taken a subsequence of the events emitted since it subscribed, in order and none twice; its
queue holds the most recent events after the last one it has taken; and an event that is neither was
dropped as the oldest of a full queue when another one was emitted. -/
theorem served_of_runs {queueMaxsize : ℤ} {s : EventBus} (h : Runs (bridge queueMaxsize) s) {k : ℕ}
    {c : Client} (hc : s.clients k = some c) (hopen : c.phase ≠ .closed) :
    ∃ places, Served (max 1 queueMaxsize).toNat (bridge queueMaxsize) s k c places := by
  have hinv : Inv (max 1 queueMaxsize).toNat (bridge queueMaxsize) s :=
    h.invariant (.start queueMaxsize) fun hs _ hstep => hs.step hstep
  exact hinv.served k c hc hopen

/-- A server that has gone into a state. -/
def changed (target : ConnectionState) : LifecycleEvent :=
  { server := "fs", fromState := .connecting, toState := target, reason := "", ts := .finite 0 }

/-- A client with room for one event misses the first of two. -/
theorem served_of_runs_two : ∃ s c, Runs (bridge 1) s ∧ s.clients 0 = some c ∧
    c.read = [changed .error] ∧ ∃ places, Served (max (1 : ℤ) 1).toNat (bridge 1) s 0 c places := by
  obtain ⟨s, hplay, c, hc, hread, hphase⟩ : ∃ s, playFrom step (fun _ _ => true) (bridge 1)
      [.subscribe, .emit (changed .connected), .emit (changed .error), .get 0, .deliver 0] =
        some s ∧ ∃ c, s.clients 0 = some c ∧ c.read = [changed .error] ∧ c.phase = .suspended :=
    ⟨_, rfl, _, rfl, rfl, rfl⟩
  have hrun : Runs (bridge 1) s := reaches_of_playFrom (fun _ _ _ => trivial) .start hplay
  exact ⟨s, c, hrun, hc, hread, served_of_runs hrun hc (by rw [hphase]; exact nofun)⟩

end EventBus

end SlmMcpHub
