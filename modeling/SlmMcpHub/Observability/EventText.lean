import SlmMcpHub.Library.JsonText
import SlmMcpHub.Resilience.Webhook

/-!
# The text of the event stream

What the stream of `observability/event_stream.py` looks like to a client: the chunks come one after
the other as one text, which the client takes apart as the format of server-sent events says.

Names and reasons are any strings, and a backend may put line breaks or other control characters
into them.

## Main definitions

* `EventText.messages` — the messages in a text, as a client finds them
* `EventText.receive` — the events that are read off them

## Main results

* `receive_text` — a client receives the events that have been sent to it
-/

namespace SlmMcpHub

namespace EventText

open EventBus

/-! ### The format -/

/-- The lines of a text that have come to an end. `line` has been read of the next one, last
character first. -/
def linesFrom (line : List Char) : List Char → List (List Char)
  | [] => []
  | '\n' :: cs => line.reverse :: linesFrom [] cs
  | '\r' :: '\n' :: cs => line.reverse :: linesFrom [] cs
  | '\r' :: cs => line.reverse :: linesFrom [] cs
  | c :: cs => linesFrom (c :: line) cs

/-- A message that has been dispatched. -/
structure Message where
  eventType : List Char
  data : List Char
  deriving DecidableEq

/-- A field of a line: its name, and its value without one space before it. -/
def field (line : List Char) : List Char × List Char :=
  (line.takeWhile (· ≠ ':'),
    match (line.dropWhile (· ≠ ':')).tail with
    | ' ' :: value => value
    | value => value)

/-- What a field does to the message that is being put together. -/
def addField (message : Message) (name value : List Char) : Message :=
  if name = "event".toList then { message with eventType := value }
  else if name = "data".toList then { message with data := message.data ++ value ++ ['\n'] }
  else message

/-- What a client makes of some lines: an empty one dispatches the message, if it has any data; one
that begins with a colon is a comment. -/
def dispatch (message : Message) : List (List Char) → List Message
  | [] => []
  | [] :: lines =>
    if message.data = [] then dispatch ⟨[], []⟩ lines
    else { message with data := message.data.dropLast } :: dispatch ⟨[], []⟩ lines
  | (':' :: _) :: lines => dispatch message lines
  | line :: lines => dispatch (addField message (field line).1 (field line).2) lines

/-- The messages in a text. -/
def messages (text : List Char) : List Message := dispatch ⟨[], []⟩ (linesFrom [] text)

/-! ### The events -/

/-- All states a connection can be in. -/
def allStates : List ConnectionState :=
  [.disconnected, .connecting, .connected, .draining, .error, .authRequired, .starting,
    .initializing, .ready, .degraded, .reconnecting, .circuitOpen, .stopped, .failed]

/-- The state with a value. -/
def stateOf? (value : Json) : Option ConnectionState :=
  allStates.find? fun s => .str s.value = value

/-- A value that may be `null`. -/
def optional? {α : Type} (f : Json → Option α) : Json → Option (Option α)
  | .null => some none
  | v => (f v).map some

def str? : Json → Option String
  | .str s => some s
  | _ => none

def int? : Json → Option ℤ
  | .int n => some n
  | _ => none

def float? : Json → Option Double
  | .float x => some x
  | _ => none

/-- The event a payload tells of. -/
def eventOf? : Json → Option LifecycleEvent
  | .obj entries => do
    let d := Json.toDict entries
    return {
      server := ← str? (← d.get? "server")
      fromState := ← stateOf? (← d.get? "from_state")
      toState := ← stateOf? (← d.get? "to_state")
      reason := ← str? (← d.get? "reason")
      ts := ← float? (← d.get? "ts")
      failureClass := ← optional? str? (← d.get? "failure_class")
      attempt := ← optional? int? (← d.get? "attempt") }
  | _ => none

/-- The event a message tells of. -/
def Message.event? (message : Message) : Option LifecycleEvent :=
  if message.eventType = "lifecycle".toList then
    (JsonText.loads (String.ofList message.data)).bind eventOf?
  else none

/-- The events a client receives. -/
def receive (text : String) : List LifecycleEvent :=
  (messages text.toList).filterMap Message.event?

/-! ### Reading a chunk -/

/-- The numbers in an event can be written. -/
structure Sendable (floatRepr : Double → List Char) (event : LifecycleEvent) : Prop where
  ts : JsonText.ReadsFloat floatRepr event.ts
  attempt : ∀ n, event.attempt = some n →
    (Nat.toDigits 10 n.natAbs).length ≤ JsonText.maxStrDigits

theorem stateOf?_value (s : ConnectionState) : stateOf? (.str s.value) = some s := by
  cases s <;> rfl

/-- The event can be read off its payload. -/
theorem eventOf?_eventToDict (event : LifecycleEvent) :
    eventOf? (eventToDict event) = some event := by
  have hfailure : ∀ o : Option String, optional? str? (o.elim .null .str) = some o := by
    intro o
    cases o <;> rfl
  have hattempt : ∀ o : Option ℤ, optional? int? (o.elim .null .int) = some o := by
    intro o
    cases o <;> rfl
  obtain ⟨server, fromState, toState, reason, ts, failureClass, attempt⟩ := event
  show (do
    return ({
      server := ← str? (.str server)
      fromState := ← stateOf? (.str fromState.value)
      toState := ← stateOf? (.str toState.value)
      reason := ← str? (.str reason)
      ts := ← float? (.float ts)
      failureClass := ← optional? str? (failureClass.elim .null .str)
      attempt := ← optional? int? (attempt.elim .null .int) } : LifecycleEvent)) = some _
  rw [stateOf?_value, stateOf?_value, hfailure, hattempt]
  rfl

variable {floatRepr : Double → List Char}

theorem writable_eventToDict {event : LifecycleEvent} (h : Sendable floatRepr event) :
    JsonText.Writable floatRepr (eventToDict event) := by
  refine ⟨(by decide : ["server", "from_state", "to_state", "reason", "ts", "failure_class",
    "attempt"].Nodup), trivial, trivial, trivial, trivial, h.ts, ?_, ?_, trivial⟩
  · cases event.failureClass <;> trivial
  · cases hattempt : event.attempt with
    | none => trivial
    | some n => exact h.attempt n hattempt

theorem linesFrom_append (cs : List Char) : ∀ {l : List Char} (acc : List Char),
    (∀ c ∈ l, c ≠ '\n' ∧ c ≠ '\r') →
      linesFrom acc (l ++ '\n' :: cs) = (acc.reverse ++ l) :: linesFrom [] cs := by
  intro l
  induction l with
  | nil =>
    intro acc _
    rw [List.nil_append, linesFrom, List.append_nil]
  | cons c l ih =>
    intro acc h
    obtain ⟨hn, hr⟩ := h c List.mem_cons_self
    rw [List.cons_append, linesFrom, ih (c :: acc) fun d hd => h d (List.mem_cons_of_mem c hd)]
    · simp
    · exact fun heq => hn heq
    · exact fun _ heq _ => hr heq
    · exact fun heq => hr heq

/-- What is written on one line stays on one line. -/
theorem not_lineBreak {c : Char} (h : JsonText.Printable c) : c ≠ '\n' ∧ c ≠ '\r' := by
  constructor <;> (rintro rfl; revert h; decide)

/-- The text of an event is three lines, the last of them empty. -/
theorem linesFrom_lifecycle {event : LifecycleEvent} (h : Sendable floatRepr event)
    (cs : List Char) :
    linesFrom [] (((Chunk.lifecycle event).text (JsonText.dumps .plain floatRepr)).toList ++ cs) =
      "event: lifecycle".toList ::
        ("data: ".toList ++ (JsonText.dumps .plain floatRepr (eventToDict event)).toList) ::
          [] :: linesFrom [] cs := by
  have hprintable := JsonText.printable_dumps JsonText.Layout.inline_plain (writable_eventToDict h)
  have htext : ((Chunk.lifecycle event).text (JsonText.dumps .plain floatRepr)).toList ++ cs =
      "event: lifecycle".toList ++ '\n' ::
        (("data: ".toList ++ (JsonText.dumps .plain floatRepr (eventToDict event)).toList) ++
          '\n' :: ([] ++ '\n' :: cs)) := by
    show ("event: lifecycle\ndata: " ++ JsonText.dumps .plain floatRepr (eventToDict event) ++
      "\n\n").toList ++ cs = _
    rw [String.toList_append, String.toList_append]
    simp
  have hname : ∀ c ∈ "data: ".toList, JsonText.Printable c := JsonText.printable_of_all (by decide)
  rw [htext, linesFrom_append, linesFrom_append, linesFrom_append]
  · rfl
  · intro c hc
    cases hc
  · intro c hc
    rcases List.mem_append.mp hc with hc | hc
    · exact not_lineBreak (hname c hc)
    · exact not_lineBreak (hprintable c hc)
  · exact fun c hc => not_lineBreak (JsonText.printable_of_all (by decide) c hc)

/-- A client finds one message in it. -/
theorem dispatch_lifecycle (data : List Char) (lines : List (List Char)) :
    dispatch ⟨[], []⟩ ("event: lifecycle".toList :: ("data: ".toList ++ data) :: [] :: lines) =
      ⟨"lifecycle".toList, data⟩ :: dispatch ⟨[], []⟩ lines := by
  have hevent : field "event: lifecycle".toList = ("event".toList, "lifecycle".toList) := by decide
  have hdata : field ("data: ".toList ++ data) = ("data".toList, data) := rfl
  have hfirst : dispatch ⟨[], []⟩ ("event: lifecycle".toList :: ("data: ".toList ++ data) :: [] ::
      lines) = dispatch ⟨"lifecycle".toList, []⟩ (("data: ".toList ++ data) :: [] :: lines) := rfl
  have hsecond : dispatch ⟨"lifecycle".toList, []⟩ (("data: ".toList ++ data) :: [] :: lines) =
      dispatch ⟨"lifecycle".toList, [] ++ data ++ ['\n']⟩ ([] :: lines) := rfl
  rw [hfirst, hsecond, dispatch, if_neg (by simp)]
  simp

/-- A keepalive is a comment, and no message. -/
theorem dispatch_keepalive (dumps : Json → String) (cs : List Char) :
    dispatch ⟨[], []⟩ (linesFrom [] ((Chunk.keepalive.text dumps).toList ++ cs)) =
      dispatch ⟨[], []⟩ (linesFrom [] cs) := by
  have htext : (Chunk.keepalive.text dumps).toList ++ cs =
      ": keepalive".toList ++ '\n' :: ([] ++ '\n' :: cs) := by
    show ": keepalive\n\n".toList ++ cs = _
    simp
  rw [htext, linesFrom_append, linesFrom_append]
  · rfl
  · intro c hc
    cases hc
  · exact fun c hc => not_lineBreak (JsonText.printable_of_all (by decide) c hc)

/-- The message of an event tells of it. -/
theorem event?_lifecycle {event : LifecycleEvent} (h : Sendable floatRepr event) :
    Message.event? ⟨"lifecycle".toList,
      (JsonText.dumps .plain floatRepr (eventToDict event)).toList⟩ = some event := by
  simp only [Message.event?, ↓reduceIte]
  rw [String.ofList_toList, JsonText.loads_dumps (writable_eventToDict h), Option.bind_some,
    eventOf?_eventToDict]

/-- **What has been sent is received.** However many events and keepalives come one after the other,
and whatever the strings in the events are, a client finds exactly these events, in their order. -/
theorem receive_text {chunks : List Chunk}
    (h : ∀ event ∈ chunks.filterMap Chunk.event?, Sendable floatRepr event) :
    receive (String.ofList (chunks.flatMap fun chunk =>
      (chunk.text (JsonText.dumps .plain floatRepr)).toList)) = chunks.filterMap Chunk.event? := by
  rw [receive, String.toList_ofList, messages]
  induction chunks with
  | nil => rfl
  | cons chunk chunks ih =>
    rw [List.flatMap_cons]
    cases chunk with
    | keepalive =>
      have hskip : (Chunk.keepalive :: chunks).filterMap Chunk.event? =
          chunks.filterMap Chunk.event? := rfl
      rw [hskip] at h ⊢
      rw [dispatch_keepalive, ih h]
    | lifecycle event =>
      have hkeep : (Chunk.lifecycle event :: chunks).filterMap Chunk.event? =
          event :: chunks.filterMap Chunk.event? := rfl
      rw [hkeep] at h ⊢
      have hevent := h event List.mem_cons_self
      rw [linesFrom_lifecycle hevent, dispatch_lifecycle,
        List.filterMap_cons_some (event?_lifecycle hevent),
        ih fun event' hmem => h event' (List.mem_cons_of_mem event hmem)]

/-- A backend that puts the end of a message and the beginning of another into its name. -/
def lineBreaks : LifecycleEvent :=
  ⟨"a\n\nevent: lifecycle\ndata: {}", .connecting, .failed, "\r\n", .finite (1 / 2), some "AUTH",
    some 3⟩

/-- `repr(0.5)`, where nothing else is written. -/
def reprHalf (_ : Double) : List Char := "0.5".toList

theorem sendable_lineBreaks : Sendable reprHalf lineBreaks where
  ts _ := by
    show JsonText.readNumber "0.5".toList = some (.float (.finite (1 / 2)), [])
    decide +kernel
  attempt n hn := by
    obtain rfl := Option.some.inj hn
    decide

theorem receive_text_lineBreaks :
    receive (String.ofList ([Chunk.lifecycle lineBreaks, .keepalive, .lifecycle lineBreaks].flatMap
      fun chunk => (chunk.text (JsonText.dumps .plain reprHalf)).toList)) =
        [lineBreaks, lineBreaks] := by
  refine receive_text fun event hevent => ?_
  have hmem : event ∈ [lineBreaks, lineBreaks] := hevent
  simp only [List.mem_cons, List.not_mem_nil, or_false, or_self] at hmem
  exact hmem ▸ sendable_lineBreaks

end EventText

end SlmMcpHub
