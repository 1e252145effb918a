import SlmMcpHub.Server.McpEndpoint

/-!
# The stdio transport

`server/stdio_server.py`: the loop that reads a line, hands its message to the endpoint, and writes
what the endpoint answers.

A round of the loop is one line, together with what the endpoint makes of its message and what
becomes of the write. The end of the list of rounds is the end of the input.

## Main definitions

* `serveRound`, `serveLoop` — a round of the loop, and the loop
* `KeepsServing` — what a client is promised
* `Round.Fine`, `Fair` — what a round, and a run, have to be for that

## Main results

* `served_iff` — a round serves its line if and only if it is fine
* `keepsServing_iff` — the loop serves if and only if every round it comes to is fine
* `length_serveLoop` — at the end of the input every line has been served
-/

namespace SlmMcpHub

namespace Stdio

open Protocol MCPEndpoint

/-! ### What the loop relies on -/

/-- What `json.loads` comes to. -/
inductive Loaded where
  | value (v : Json)
  /-- `JSONDecodeError`, with its text -/
  | decodeError (exc : String)
  /-- Another exception: `RecursionError`, or the `ValueError` of an integer with too many digits.
  -/
  | raises

/-- The functions of the language the loop calls. -/
structure Lib where
  /-- `line.decode("utf-8", errors="replace")` -/
  decode : List UInt8 → String
  decode_nil : decode [] = ""
  loads : String → Loaded
  /-- Whether `json.dumps(payload, separators=(",", ":"))` returns: it raises `RecursionError` for a
  value that is nested too deeply. -/
  dumps : Json → Bool
  /-- An error without an id is flat. -/
  dumps_error : ∀ code message, dumps (ofDict (errorResponse .null code message)) = true
  /-- `str(exc)` -/
  describe : Raised → String

/-- An endpoint for one message: it may raise, and what it returns is what it is to answer. -/
structure Endpoint where
  handle : Dict String Json → Result (Option (Dict String Json))
  answers : ∀ body result, handle body = .ok result → Answers body (.ok result)

/-- The endpoint of the hub is one. -/
def Endpoint.ofMCPEndpoint (R : Formats) (endpoint : MCPEndpoint) (sessionId : String) :
    Endpoint where
  handle := handleJsonrpc R endpoint sessionId
  answers := by
    intro body result hresult
    by_cases hanswers : Answers body (handleJsonrpc R endpoint sessionId body)
    · rwa [hresult] at hanswers
    · -- a method that cannot be looked up: the endpoint raises and returns nothing
      obtain ⟨hid, hmethod⟩ := not_or.mp (mt (answers_iff R endpoint sessionId body).mpr hanswers)
      rw [handleJsonrpc_of_not_hashable sessionId hid (by simpa using hmethod)] at hresult
      cases hresult

/-! ### Rounds -/

/-- What `reader.readline()` comes to. -/
inductive Read where
  /-- The bytes of a line, with the newline unless the input ends before it. -/
  | line (bytes : List UInt8)
  | cancelled
  /-- The stream raises what the transport has set. -/
  | failed

/-- What becomes of the write of a payload. -/
inductive Write where
  | written
  | failed
  | cancelled
  deriving DecidableEq

/-- A round of the loop. -/
structure Round where
  read : Read
  endpoint : Endpoint
  write : Write
  /-- Whether `stop` has been called by the end of the round. -/
  stop : Bool

/-- How the loop ends. -/
inductive Ending where
  | eof
  | stopped
  | cancelled
  /-- After `stdio read error` -/
  | readError
  /-- An exception leaves the loop. -/
  | crashed
  deriving DecidableEq

/-- What is written in a round, or how it ends the loop. -/
abbrev Outcome : Type := Except Ending (List (Dict String Json))

/-- The limit of a `StreamReader`. -/
def streamLimit : ℕ := 2 ^ 16

/-- What of a line counts against the limit. -/
def content (bytes : List UInt8) : List UInt8 := bytes.takeWhile (· ≠ 10)

variable (L : Lib)

/-- `reader.readline()`, as the loop sees it. -/
def readLine : Read → Except Ending (List UInt8)
  | .cancelled => .error .cancelled
  | .failed => .error .readError
  | .line bytes => if streamLimit < (content bytes).length then .error .readError else .ok bytes

/-- `_write_message` -/
def writeMessage (write : Write) (payload : Dict String Json) : Outcome :=
  if L.dumps (ofDict payload) = false then
    .error .crashed
  else
    match write with
    | .written => .ok [payload]
    | .failed => .ok []
    | .cancelled => .error .cancelled

/-- `_send_error` -/
def sendError (write : Write) (reqId : Json) (code : ℤ) (message : String) : Outcome :=
  writeMessage L write (errorResponse reqId code message)

/-- `_handle_one` -/
def handleOne (round : Round) (body : Dict String Json) : Outcome :=
  match round.endpoint.handle body with
  | .ok none => .ok []
  | .ok (some result) => writeMessage L round.write result
  | .error exc =>
    if exc.isException then
      sendError L round.write (field body "id") (-32603) s!"Internal error: {L.describe exc}"
    else .error .cancelled

/-- The text of a line. -/
def Lib.text (bytes : List UInt8) : String := Text.strip (L.decode bytes)

/-- The body of `_serve_loop`. -/
def serveRound (round : Round) : Outcome :=
  match readLine round.read with
  | .error ending => .error ending
  | .ok line =>
    if line = [] then
      .error .eof
    else if L.text line = "" then
      .ok []
    else
      match L.loads (L.text line) with
      | .decodeError exc => sendError L round.write .null (-32700) s!"Parse error: {exc}"
      | .raises => .error .crashed
      | .value (.obj entries) => handleOne L round (Json.toDict entries)
      | .value _ => sendError L round.write .null (-32600) "Invalid Request"

/-- `_serve_loop`: what it writes in each round it comes through, and how it ends. -/
def serveLoop : Bool → List Round → List (List (Dict String Json)) × Ending
  | true, _ => ([], .stopped)
  | false, [] => ([], .eof)
  | false, round :: rounds =>
    match serveRound L round with
    | .error ending => ([], ending)
    | .ok out =>
      let rest := serveLoop round.stop rounds
      (out :: rest.1, rest.2)

/-! ### What a client is promised -/

/-- Whether the loop may end so: at the end of the input, on `stop` or on cancellation. -/
def Ending.proper : Ending → Bool
  | .eof | .stopped | .cancelled => true
  | .readError | .crashed => false

/-- The message of a line, if it is an object. -/
def Lib.body? (bytes : List UInt8) : Option (Dict String Json) :=
  if L.text bytes = "" then none
  else
    match L.loads (L.text bytes) with
    | .value (.obj entries) => some (Json.toDict entries)
    | _ => none

/-- A line that is an object with an id. -/
def IsRequest (read : Read) (body : Dict String Json) : Prop :=
  ∃ bytes, read = .line bytes ∧ L.body? bytes = some body ∧ field body "id" ≠ .null

/-- What is promised of a round: a request has exactly one response, which answers it, and only a
proper ending ends the loop. -/
def Served (round : Round) : Outcome → Prop
  | .error ending => ending.proper = true
  | .ok out => ∀ body, IsRequest L round.read body →
      ∃ response, out = [response] ∧ Answers body (.ok (some response))

/-- What is promised of the loop. -/
def KeepsServing (stop : Bool) (rounds : List Round) : Prop :=
  (serveLoop L stop rounds).2.proper = true ∧
    ∀ served ∈ rounds.zip (serveLoop L stop rounds).1, Served L served.1 (.ok served.2)

/-! ### When it is kept -/

/-- The response a message is due, as far as the endpoint is not cancelled. -/
def Lib.response? (endpoint : Endpoint) (body : Dict String Json) : Option (Dict String Json) :=
  match endpoint.handle body with
  | .ok result => result
  | .error exc =>
    if exc.isException then
      some (errorResponse (field body "id") (-32603) s!"Internal error: {L.describe exc}")
    else none

/-- The response to a request can be serialised, and its write does not fail. -/
def Deliverable (round : Round) (body : Dict String Json) : Prop :=
  field body "id" ≠ .null → ∀ response, L.response? round.endpoint body = some response →
    L.dumps (ofDict response) = true ∧ round.write ≠ .failed

/-- The parser raises nothing but `JSONDecodeError`, and a response can be delivered. -/
def Digestible (round : Round) (text : String) : Prop :=
  match L.loads text with
  | .raises => False
  | .value (.obj entries) => Deliverable L round (Json.toDict entries)
  | _ => True

/-- What a round has to be: its line is within the limit and, unless it is blank, digestible. -/
def Round.Fine (round : Round) : Prop :=
  match round.read with
  | .cancelled => True
  | .failed => False
  | .line bytes => (content bytes).length ≤ streamLimit ∧
      (L.text bytes ≠ "" → Digestible L round (L.text bytes))

/-- Every round the loop comes to is fine. -/
def Fair : Bool → List Round → Prop
  | true, _ => True
  | false, [] => True
  | false, round :: rounds => round.Fine L ∧
      ∀ out, serveRound L round = .ok out → Fair round.stop rounds

section Served

variable {L} {round : Round} {bytes : List UInt8} {body : Dict String Json}

@[simp] theorem Lib.text_nil : L.text [] = "" := by
  rw [Lib.text, L.decode_nil]
  rfl

theorem body?_of_loads {entries : List (String × Json)} (htext : L.text bytes ≠ "")
    (hloads : L.loads (L.text bytes) = .value (.obj entries)) :
    L.body? bytes = some (Json.toDict entries) := by
  rw [Lib.body?, if_neg htext, hloads]

/-- The message of a request is that of its line. -/
theorem IsRequest.eq {body' : Dict String Json} (hread : round.read = .line bytes)
    (hbody : L.body? bytes = some body) (h : IsRequest L round.read body') : body' = body := by
  obtain ⟨bytes', hread', hbody', -⟩ := h
  obtain rfl : bytes = bytes' := Read.line.inj (hread.symm.trans hread')
  exact Option.some.inj (hbody'.symm.trans hbody)

theorem not_isRequest (hread : round.read = .line bytes) (hbody : L.body? bytes = none)
    (body : Dict String Json) : ¬ IsRequest L round.read body := by
  rintro ⟨bytes', hread', hbody', -⟩
  obtain rfl : bytes = bytes' := Read.line.inj (hread.symm.trans hread')
  rw [hbody] at hbody'
  cases hbody'

/-- Without a request only the ending counts. -/
theorem served_of_not_isRequest (hnone : ∀ body, ¬ IsRequest L round.read body) {outcome : Outcome}
    (hproper : ∀ ending, outcome = .error ending → ending.proper = true) :
    Served L round outcome := by
  cases outcome with
  | error ending => exact hproper ending rfl
  | ok out => exact fun body hbody => absurd hbody (hnone body)

/-- An error without an id is always written. -/
theorem proper_of_sendError {write : Write} {code : ℤ} {message : String} {ending : Ending}
    (h : sendError L write .null code message = .error ending) : ending.proper = true := by
  have hdumps : L.dumps (ofDict (errorResponse .null code message)) = true :=
    L.dumps_error code message
  unfold sendError writeMessage at h
  rw [hdumps, if_neg Bool.noConfusion] at h
  cases write with
  | written => cases h
  | failed => cases h
  | cancelled =>
    cases h
    rfl

theorem served_sendError_null (hread : round.read = .line bytes) (hbody : L.body? bytes = none)
    (code : ℤ) (message : String) : Served L round (sendError L round.write .null code message) :=
  served_of_not_isRequest (not_isRequest hread hbody) fun _ => proper_of_sendError

/-- A response serves its request if it comes through. -/
theorem served_writeMessage_iff {response : Dict String Json}
    (hrequest : IsRequest L round.read body) (hread : round.read = .line bytes)
    (hbody : L.body? bytes = some body) (hanswers : Answers body (.ok (some response))) :
    Served L round (writeMessage L round.write response) ↔
      L.dumps (ofDict response) = true ∧ round.write ≠ .failed := by
  unfold writeMessage
  cases hdumps : L.dumps (ofDict response) with
  | false => exact iff_of_false Bool.noConfusion fun h => Bool.noConfusion h.1
  | true =>
    rw [if_neg Bool.noConfusion]
    cases round.write with
    | written =>
      refine iff_of_true (fun body' hbody' => ⟨response, rfl, ?_⟩) ⟨rfl, nofun⟩
      rwa [hbody'.eq hread hbody]
    | failed =>
      refine iff_of_false (fun h => ?_) fun h => h.2 rfl
      obtain ⟨response', hout, -⟩ := h body hrequest
      cases hout
    | cancelled => exact iff_of_true rfl ⟨rfl, nofun⟩

/-- A message is served if its response can be delivered. -/
theorem served_handleOne_iff (hread : round.read = .line bytes)
    (hbody : L.body? bytes = some body) :
    Served L round (handleOne L round body) ↔ Deliverable L round body := by
  have hok := round.endpoint.answers body
  by_cases hid : field body "id" = .null
  · -- a notification: the endpoint returns nothing, and an error has no id
    refine iff_of_true (served_of_not_isRequest (fun body' h => ?_) fun ending hending => ?_)
      fun h => absurd hid h
    · obtain rfl := h.eq hread hbody
      obtain ⟨-, -, -, hne⟩ := h
      exact hne hid
    · rw [handleOne] at hending
      cases hhandle : round.endpoint.handle body with
      | ok result =>
        cases result with
        | none =>
          rw [hhandle] at hending
          cases hending
        | some response => exact absurd hid (hok _ hhandle).1
      | error exc =>
        rw [hhandle, hid] at hending
        simp only at hending
        split_ifs at hending with hexc
        · exact proper_of_sendError hending
        · cases hending
          rfl
  · have hrequest : IsRequest L round.read body := ⟨bytes, hread, hbody, hid⟩
    have hwrite : ∀ {response}, Answers body (.ok (some response)) →
        (Served L round (writeMessage L round.write response) ↔
          L.dumps (ofDict response) = true ∧ round.write ≠ .failed) :=
      served_writeMessage_iff hrequest hread hbody
    rw [handleOne, Deliverable, Lib.response?, imp_iff_right hid]
    cases hhandle : round.endpoint.handle body with
    | ok result =>
      cases result with
      | none => exact absurd (hok _ hhandle) hid
      | some response => simpa using hwrite (hok _ hhandle)
    | error exc =>
      cases hexc : exc.isException with
      | true => simpa [hexc, sendError] using hwrite (answers_errorResponse hid _ _)
      | false => simp [hexc, Served, Ending.proper]

/-- **The lines that are served**: those of the rounds that are fine. -/
theorem served_iff (L : Lib) (round : Round) :
    Served L round (serveRound L round) ↔ round.Fine L := by
  rw [Round.Fine, serveRound]
  cases hread : round.read with
  | cancelled => exact iff_of_true rfl trivial
  | failed => exact iff_of_false Bool.noConfusion id
  | line bytes =>
    simp only [readLine]
    by_cases hlimit : streamLimit < (content bytes).length
    · rw [if_pos hlimit]
      exact iff_of_false Bool.noConfusion fun h => absurd h.1 (Nat.not_le.mpr hlimit)
    rw [if_neg hlimit, and_iff_right (Nat.not_lt.mp hlimit)]
    by_cases hempty : bytes = []
    · simp only [hempty, if_true, Lib.text_nil]
      exact iff_of_true rfl fun h => absurd rfl h
    by_cases htext : L.text bytes = ""
    · simp only [if_neg hempty, if_pos htext]
      refine iff_of_true (served_of_not_isRequest (not_isRequest hread ?_) nofun) fun h =>
        absurd htext h
      rw [Lib.body?, if_pos htext]
    simp only [if_neg hempty, if_neg htext, Digestible]
    rw [imp_iff_right htext]
    cases hloads : L.loads (L.text bytes) with
    | decodeError exc =>
      refine iff_of_true (served_sendError_null hread ?_ _ _) trivial
      rw [Lib.body?, if_neg htext, hloads]
    | raises => exact iff_of_false Bool.noConfusion id
    | value v =>
      cases v with
      | obj entries => exact served_handleOne_iff hread (body?_of_loads htext hloads)
      | _ =>
        refine iff_of_true (served_sendError_null hread ?_ _ _) trivial
        rw [Lib.body?, if_neg htext, hloads]

end Served

/-! ### Runs -/

section Runs

variable {L : Lib} {round : Round} {rounds : List Round}

theorem serveLoop_of_error {ending : Ending} (h : serveRound L round = .error ending) :
    serveLoop L false (round :: rounds) = ([], ending) := by
  simp only [serveLoop, h]

theorem serveLoop_of_ok {out : List (Dict String Json)} (h : serveRound L round = .ok out) :
    serveLoop L false (round :: rounds) =
      (out :: (serveLoop L round.stop rounds).1, (serveLoop L round.stop rounds).2) := by
  simp only [serveLoop, h]

/-- A line over the limit ends the loop. -/
theorem serveRound_of_long {bytes : List UInt8} (hread : round.read = .line bytes)
    (h : streamLimit < (content bytes).length) : serveRound L round = .error .readError := by
  simp only [serveRound, hread, readLine, if_pos h]

theorem writeMessage_ne_eof (write : Write) (payload : Dict String Json) :
    writeMessage L write payload ≠ .error .eof := by
  unfold writeMessage
  split_ifs
  · nofun
  · cases write <;> nofun

theorem handleOne_ne_eof (round : Round) (body : Dict String Json) :
    handleOne L round body ≠ .error .eof := by
  rw [handleOne]
  cases round.endpoint.handle body with
  | ok result =>
    cases result with
    | none => nofun
    | some response => exact writeMessage_ne_eof _ _
  | error exc =>
    simp only
    split_ifs
    · exact writeMessage_ne_eof _ _
    · nofun

/-- A round ends the loop as at the end of the input only where there is nothing to read. -/
theorem read_of_eof (h : serveRound L round = .error .eof) : round.read = .line [] := by
  cases hread : round.read with
  | cancelled => simp [serveRound, hread, readLine] at h
  | failed => simp [serveRound, hread, readLine] at h
  | line bytes =>
    simp only [serveRound, hread, readLine] at h
    by_cases hlimit : streamLimit < (content bytes).length
    · rw [if_pos hlimit] at h
      cases h
    rw [if_neg hlimit] at h
    by_contra hne
    have hempty : bytes ≠ [] := fun heq => hne (congrArg Read.line heq)
    simp only [if_neg hempty] at h
    split_ifs at h
    split at h
    · exact writeMessage_ne_eof _ _ h
    · cases h
    · exact handleOne_ne_eof _ _ h
    · exact writeMessage_ne_eof _ _ h

/-- At the end of the input every line has been served. -/
theorem length_serveLoop {stop : Bool} (hline : ∀ round ∈ rounds, round.read ≠ .line [])
    (h : (serveLoop L stop rounds).2 = .eof) :
    (serveLoop L stop rounds).1.length = rounds.length := by
  induction rounds generalizing stop with
  | nil => cases stop <;> rfl
  | cons round rounds ih =>
    obtain ⟨hround, hrest⟩ := List.forall_mem_cons.mp hline
    cases stop with
    | true => cases h
    | false =>
      cases hstep : serveRound L round with
      | error ending =>
        rw [serveLoop_of_error hstep] at h
        obtain rfl : ending = .eof := h
        exact absurd (read_of_eof hstep) hround
      | ok out =>
        rw [serveLoop_of_ok hstep] at h ⊢
        rw [List.length_cons, List.length_cons, ih hrest h]

end Runs

/-- **The loop serves if and only if every round it comes to is fine.** -/
theorem keepsServing_iff (L : Lib) (stop : Bool) (rounds : List Round) :
    KeepsServing L stop rounds ↔ Fair L stop rounds := by
  induction rounds generalizing stop with
  | nil =>
    cases stop with
    | true => simp [KeepsServing, serveLoop, Fair, Ending.proper]
    | false => simp [KeepsServing, serveLoop, Fair, Ending.proper]
  | cons round rounds ih =>
    cases stop with
    | true => simp [KeepsServing, serveLoop, Fair, Ending.proper]
    | false =>
      rw [Fair, ← served_iff, KeepsServing]
      cases hstep : serveRound L round with
      | error ending =>
        rw [serveLoop_of_error hstep]
        simp [Served]
      | ok out =>
        rw [serveLoop_of_ok hstep, List.zip_cons_cons, List.forall_mem_cons, and_left_comm,
          ← KeepsServing, ih]
        simp

/-! ### A line over the limit -/

/-- The functions of the language, as far as ASCII and one message go. -/
def plainLib : Lib where
  decode bytes := String.ofList (bytes.map fun byte => Char.ofNat byte.toNat)
  decode_nil := rfl
  loads text :=
    if text = "\x7b\"id\": 1, \"method\": \"tools/list\"\x7d" then
      .value (.obj [("id", .int 1), ("method", .str "tools/list")])
    else .decodeError "Expecting value: line 1 column 1 (char 0)"
  dumps _ := true
  dumps_error _ _ := rfl
  describe _ := ""

/-- A round that reads a line and answers its message with an empty hub. -/
def plainRound (text : List UInt8) : Round where
  read := .line (text ++ [10])
  endpoint := .ofMCPEndpoint plainFormats ⟨fun _ => false, ⟨plainRouter .empty, none⟩⟩ "session"
  write := .written
  stop := false

theorem content_replicate (n : ℕ) :
    content (List.replicate n 97 ++ [10]) = List.replicate n 97 := by
  rw [content, List.takeWhile_append_of_pos (by simp +contextual [List.mem_replicate])]
  simp

/-- After a line of 65537 bytes that is no JSON, the next request goes unanswered. -/
theorem not_keepsServing_long :
    ¬ KeepsServing plainLib false [plainRound (List.replicate (2 ^ 16 + 1) 97),
      plainRound "\x7b\"id\": 1, \"method\": \"tools/list\"\x7d".toUTF8.toList] := by
  have hlimit : streamLimit < (content (List.replicate (2 ^ 16 + 1) 97 ++ [10])).length := by
    rw [content_replicate, List.length_replicate]
    exact Nat.lt_succ_self _
  have hlong : serveRound plainLib (plainRound (List.replicate (2 ^ 16 + 1) 97)) =
      .error .readError := serveRound_of_long rfl hlimit
  intro h
  have hending : Ending.readError.proper = true := by
    simpa only [serveLoop_of_error hlong] using h.1
  cases hending

end Stdio

end SlmMcpHub
