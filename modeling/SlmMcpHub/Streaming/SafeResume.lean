import Mathlib.Data.Rat.Defs
import SlmMcpHub.Federation.Signature
import SlmMcpHub.Library.Fallible

/-!
# Tool calls that can be resumed

`streaming/resumable.py` and `streaming/resume.py`, over the calls of `federation/connection.py` and
`protocol/outbound.py` they end in. What lies beyond is open: the SDK answers every request in some
way, after it has passed on some resumption tokens, and the persistence of the tokens may fail.

`calls` is not read by any program. It keeps the streaming calls of the connection with the tokens
that were issued during each.

## Main definitions

* `Wire` — the context of a call, what is persisted for it, and what has been sent
* `Connection.callTool`, `Connection.callToolStreaming` — the ways to the SDK
* `runWithSafeResume` — the call with its resumption

## Main results

* `runWithSafeResume_safe` — a tool is never started twice, and no token is left behind
-/

namespace SlmMcpHub

namespace Resumable

/-! ### Exceptions -/

/-- An exception a call can end in. -/
inductive CallError where
  /-- `CancelledError` -/
  | cancelled
  | mcpError (code : ℤ) (message : String)
  | resumptionError (message : String)
  | connectionError (message : String)
  /-- Any other `Exception`. -/
  | other (typeName message : String)
  deriving DecidableEq

namespace CallError

/-- Whether `except Exception` catches it. -/
def isException : CallError → Bool
  | .cancelled => false
  | _ => true

/-- `str(exc)` -/
def message : CallError → String
  | .cancelled => ""
  | .mcpError _ message => message
  | .resumptionError message => message
  | .connectionError message => message
  | .other _ message => message

/-- The exceptions after which a call may be resumed, given `CONNECTION_CLOSED`. -/
def isDrop (connectionClosed : ℤ) : CallError → Bool
  | .mcpError code _ => code = connectionClosed
  | .resumptionError _ => true
  | _ => false

end CallError

/-! ### The world outside -/

/-- A resumption token the SDK passes on, and what comes of its being saved. -/
structure Update where
  token : String
  stored : Bool := true
  saved : Except CallError Unit := .ok ()

/-- What a request to the SDK comes to. -/
structure Attempt where
  updates : List Update := []
  ended : Except CallError CallResult

/-- What `persistence.delete` comes to. -/
inductive Deletion where
  | succeeds
  | fails (removed : Bool) (exc : CallError)

/-- The world outside. -/
structure Outside where
  /-- `CONNECTION_CLOSED` -/
  connectionClosed : ℤ
  /-- The answers to the requests, in their order. -/
  attempts : ℕ → Attempt
  /-- `persistence.load`, and what it comes to when it is called again after it has failed. -/
  load : Except CallError Unit := .ok ()
  reload : Except CallError Unit := .ok ()
  delete : Deletion := .succeeds

/-! ### The state -/

/-- A request of the SDK for a tool, a resource or a prompt. -/
structure SdkRequest where
  kind : RequestKind
  name : String
  arguments : Dict String Json
  readTimeout : Option ℚ := none
  resumptionToken : Option String := none

/-- `ResumableCallContext` -/
structure ResumableCallContext where
  currentToken : Option String := none
  loaded : Bool := false

/-- A call of `call_tool_streaming`: the token it was given, the tokens issued while it lasted, and
how it ended. -/
structure StreamingCall where
  token : Option String
  issued : List String
  ended : Except CallError CallResult

/-- What a tool call works on. -/
structure Wire where
  requests : List SdkRequest := []
  context : ResumableCallContext := {}
  /-- What is persisted for the id of the call. -/
  persisted : Option String := none
  /-- The tokens issued in the present streaming call. -/
  issued : List String := []
  calls : List StreamingCall := []

/-- Code of a tool call. -/
abbrev CallOp (α : Type) := Fallible Wire CallError α

/-! ### `ResumableCallContext` -/

section

variable (out : Outside)

/-- `get_token` -/
def getToken (load : Except CallError Unit) : CallOp (Option String) := do
  let s ← Fallible.get
  if s.context.loaded then
    pure s.context.currentToken
  else
    Fallible.ofExcept load
    Fallible.modify fun s => { s with context := ⟨s.persisted, true⟩ }
    pure s.persisted

/-- `on_token_update` -/
def onTokenUpdate (u : Update) : CallOp Unit := do
  Fallible.modify fun s =>
    { s with context := ⟨some u.token, true⟩, issued := s.issued ++ [u.token] }
  Fallible.modify fun s => if u.stored then { s with persisted := some u.token } else s
  Fallible.ofExcept u.saved

/-- `persistence.delete` -/
def deletePersisted : Deletion → CallOp Unit
  | .succeeds => Fallible.modify fun s => { s with persisted := none }
  | .fails removed exc => do
    Fallible.modify fun s => if removed then { s with persisted := none } else s
    throw exc

/-- `clear` -/
def clear : CallOp Unit := do
  Fallible.modify fun s => { s with context := ⟨none, true⟩ }
  deletePersisted out.delete

/-! ### The connection -/

/-- What the SDK does with a request. What it makes of an exception of the callback is part of how
the attempt ends. -/
def sdk (r : SdkRequest) (onResumptionToken : Bool) : CallOp CallResult := fun s =>
  let a := out.attempts s.requests.length
  let s := { s with requests := s.requests ++ [r] }
  (a.ended, if onResumptionToken then a.updates.foldl (fun s u => (onTokenUpdate u s).2) s else s)

/-- The `OutboundClient` of a connection, as far as it decides about a request. -/
structure OutboundClient where
  /-- `_connected`, with a client. -/
  connected : Bool

/-- What an `MCPConnection` is at some time, as far as it decides about a request. -/
structure View where
  state : ConnectionState
  outbound : Option OutboundClient

/-- An `MCPConnection`, with what it is when so many requests have been sent. -/
structure Connection where
  name : String
  timeoutClass : String
  view : ℕ → View

namespace Connection

/-- `_check_callable`, and whether its client is connected. -/
def check (x : Connection) (v : View) : Except CallError Unit :=
  if v.state = .draining then
    .error (.connectionError s!"MCP {x.name} is draining — no new requests accepted")
  else
    match v.outbound with
    | none => .error (.connectionError s!"MCP {x.name} not connected")
    | some client =>
      if client.connected then .ok ()
      else .error (.connectionError s!"Not connected to MCP {x.name}")

/-- A request, if the connection can make one. -/
def send (x : Connection) (r : SdkRequest) (onResumptionToken : Bool) : CallOp CallResult := do
  let s ← Fallible.get
  Fallible.ofExcept (x.check (x.view s.requests.length))
  sdk out r onResumptionToken

/-- `call_tool`: the timeout stays behind. -/
def callTool (x : Connection) (toolName : String) (arguments : Dict String Json)
    (_timeout : Option ℚ) : CallOp CallResult :=
  x.send out { kind := .tool, name := toolName, arguments } false

/-- `call_tool_streaming` -/
def callToolStreaming (x : Connection) (toolName : String) (arguments : Dict String Json)
    (readTimeout : Option ℚ) (resumptionToken : Option String) : CallOp CallResult := fun s =>
  let r : SdkRequest := { kind := .tool, name := toolName, arguments, readTimeout, resumptionToken }
  let (ended, s) := x.send out r true { s with issued := [] }
  (ended, { s with calls := s.calls ++ [⟨resumptionToken, s.issued, ended⟩] })

/-- `read_resource` -/
def readResource (x : Connection) (uri : String) : CallOp CallResult :=
  x.send out { kind := .resource, name := uri, arguments := .empty } false

/-- `get_prompt` -/
def getPrompt (x : Connection) (name : String) (arguments : Dict String Json) :
    CallOp CallResult :=
  x.send out { kind := .prompt, name, arguments } false

end Connection

/-! ### `run_with_safe_resume` -/

/-- The `except` clause: one more call when a token has been captured. -/
def resume (x : Connection) (toolName : String) (arguments : Dict String Json)
    (effectiveTimeout : Option ℚ) (exc : CallError) : CallOp CallResult := do
  if exc.isDrop out.connectionClosed then
    match ← getToken out.reload with
    | none => throw exc
    | some token => x.callToolStreaming out toolName arguments effectiveTimeout (some token)
  else
    throw exc

/-- `run_with_safe_resume` -/
def runWithSafeResume (x : Connection) (toolName : String) (arguments : Dict String Json)
    (effectiveTimeout : Option ℚ) : CallOp CallResult :=
  Fallible.ensure
    (tryCatch (do
      let token ← getToken out.load
      x.callToolStreaming out toolName arguments effectiveTimeout token)
      (resume out x toolName arguments effectiveTimeout))
    fun _ => clear out

end

/-! ### Safety -/

section Safety

variable {out : Outside} {s : Wire}

/-- What a run of updates leaves behind. -/
structure Updated (s s' : Wire) : Prop where
  calls : s'.calls = s.calls
  loaded : s.context.loaded = true → s'.context.loaded = true
  issued : ∀ {token}, token ∈ s.issued → token ∈ s'.issued
  captured : ∀ {token}, s'.context.currentToken = some token →
    token ∈ s'.issued ∨ s.context.currentToken = some token

theorem Updated.refl (s : Wire) : Updated s s := ⟨rfl, id, id, Or.inr⟩

theorem Updated.trans {s s' s'' : Wire} (h : Updated s s') (h' : Updated s' s'') :
    Updated s s'' where
  calls := h'.calls.trans h.calls
  loaded hloaded := h'.loaded (h.loaded hloaded)
  issued hmem := h'.issued (h.issued hmem)
  captured htoken := by
    rcases h'.captured htoken with hmem | hold
    · exact Or.inl hmem
    · exact (h.captured hold).imp h'.issued id

/-- A token is captured when it is issued, whether it can be saved or not. -/
theorem updated_onTokenUpdate (u : Update) (s : Wire) : Updated s (onTokenUpdate u s).2 := by
  have hcontext : (onTokenUpdate u s).2.context = ⟨some u.token, true⟩ ∧
      (onTokenUpdate u s).2.issued = s.issued ++ [u.token] ∧
      (onTokenUpdate u s).2.calls = s.calls := by
    obtain ⟨token, stored, saved⟩ := u
    cases stored <;> cases saved <;> exact ⟨rfl, rfl, rfl⟩
  obtain ⟨hcontext, hissued, hcalls⟩ := hcontext
  refine ⟨hcalls, fun _ => by rw [hcontext], fun {token} hmem => ?_, fun {token} htoken => ?_⟩
  · rw [hissued]
    exact List.mem_append_left _ hmem
  · rw [hcontext] at htoken
    rw [hissued, ← Option.some.inj htoken]
    exact Or.inl (List.mem_append_right _ (List.mem_singleton_self _))

theorem updated_foldl (us : List Update) :
    ∀ s : Wire, Updated s (us.foldl (fun s u => (onTokenUpdate u s).2) s) := by
  induction us with
  | nil => exact Updated.refl
  | cons u us ih => exact fun s => (updated_onTokenUpdate u s).trans (ih _)

theorem updated_send (x : Connection) (r : SdkRequest) (onResumptionToken : Bool) :
    Updated s (x.send out r onResumptionToken s).2 := by
  have hsdk : Updated s (sdk out r onResumptionToken s).2 := by
    cases onResumptionToken with
    | false => exact ⟨rfl, id, id, Or.inr⟩
    | true =>
      have hlogged : Updated s { s with requests := s.requests ++ [r] } := ⟨rfl, id, id, Or.inr⟩
      exact hlogged.trans (updated_foldl _ _)
  show (x.send out r onResumptionToken).sat (fun _ s' => Updated s s') s
  rw [Connection.send, Fallible.sat_bind, Fallible.sat_get, Fallible.andThen_ok, Fallible.sat_bind,
    Fallible.sat_ofExcept]
  cases x.check (x.view s.requests.length) with
  | error exc => exact Updated.refl s
  | ok u => exact hsdk

/-- What a streaming call leaves behind. -/
structure Streamed (token : Option String) (s : Wire) (ended : Except CallError CallResult)
    (s' : Wire) : Prop where
  calls : s'.calls = s.calls ++ [⟨token, s'.issued, ended⟩]
  loaded : s.context.loaded = true → s'.context.loaded = true
  captured : ∀ {token}, s'.context.currentToken = some token →
    token ∈ s'.issued ∨ s.context.currentToken = some token

theorem streamed_callToolStreaming (x : Connection) (toolName : String)
    (arguments : Dict String Json) (readTimeout : Option ℚ) (token : Option String) :
    (x.callToolStreaming out toolName arguments readTimeout token).sat (Streamed token s) s := by
  let r : SdkRequest :=
    { kind := .tool, name := toolName, arguments, readTimeout, resumptionToken := token }
  have hupdated : Updated { s with issued := [] } (x.send out r true { s with issued := [] }).2 :=
    updated_send x r true
  refine ⟨?_, hupdated.loaded, fun htoken => hupdated.captured htoken⟩
  show (x.send out r true _).2.calls ++ _ = s.calls ++ _
  rw [hupdated.calls]
  rfl

/-- A context without a token. -/
structure Fresh (s : Wire) : Prop where
  token : s.context.currentToken = none
  persisted : s.context.loaded = false → s.persisted = none

/-- A streaming call that starts the tool, and at most one that goes on with it: after a drop, and
with a token issued before it. -/
inductive Safe (connectionClosed : ℤ) : List StreamingCall → Prop where
  | unsent : Safe connectionClosed []
  | once (issued : List String) (ended : Except CallError CallResult) :
      Safe connectionClosed [⟨none, issued, ended⟩]
  | resumed {issued : List String} {exc : CallError} {token : String}
      (hdrop : exc.isDrop connectionClosed = true) (htoken : token ∈ issued)
      (issued' : List String) (ended : Except CallError CallResult) :
      Safe connectionClosed [⟨none, issued, .error exc⟩, ⟨some token, issued', ended⟩]

theorem getToken_fresh (load : Except CallError Unit) (hs : Fresh s) :
    (getToken load).sat (fun r s' => s'.calls = s.calls ∧ Fresh s' ∧
      ∀ token, r = .ok token → token = none ∧ s'.context.loaded = true) s := by
  rw [getToken, Fallible.sat_bind, Fallible.sat_get, Fallible.andThen_ok]
  split_ifs with hloaded
  · exact ⟨rfl, hs, fun token htoken => ⟨(Except.ok.inj htoken).symm.trans hs.token, hloaded⟩⟩
  · cases load with
    | error exc => exact ⟨rfl, hs, nofun⟩
    | ok u =>
      have hnone := hs.persisted (Bool.eq_false_iff.mpr hloaded)
      exact ⟨rfl, ⟨hnone, nofun⟩, fun token htoken =>
        ⟨(Except.ok.inj htoken).symm.trans hnone, rfl⟩⟩

theorem getToken_loaded {load : Except CallError Unit} (hs : s.context.loaded = true) :
    getToken load s = (.ok s.context.currentToken, s) := by
  show (if s.context.loaded = true then pure s.context.currentToken else _ :
    CallOp (Option String)) s = _
  rw [if_pos hs]
  rfl

/-- Without a token nothing is resumed. -/
theorem resume_fresh (x : Connection) (toolName : String) (arguments : Dict String Json)
    (timeout : Option ℚ) (exc : CallError) (hs : Fresh s) :
    (resume out x toolName arguments timeout exc).sat (fun _ s' => s'.calls = s.calls) s := by
  rw [resume]
  split_ifs with hdrop
  · rw [Fallible.sat_bind]
    refine Fallible.sat_mono (getToken_fresh out.reload hs) fun r s' h => ?_
    cases r with
    | error e => exact h.1
    | ok token =>
      obtain ⟨rfl, -⟩ := h.2.2 token rfl
      exact h.1
  · rfl

/-- After a streaming call that has started the tool. -/
theorem resume_streamed (x : Connection) (toolName : String) (arguments : Dict String Json)
    (timeout : Option ℚ) {exc : CallError} {s' : Wire} (hs : Fresh s)
    (hloaded : s.context.loaded = true) (h : Streamed none s (.error exc) s') :
    (resume out x toolName arguments timeout exc).sat
      (fun _ s'' => ∃ calls, s''.calls = s.calls ++ calls ∧ Safe out.connectionClosed calls)
        s' := by
  have honce : ∃ calls, s'.calls = s.calls ++ calls ∧ Safe out.connectionClosed calls :=
    ⟨_, h.calls, Safe.once _ _⟩
  rw [resume]
  split_ifs with hdrop
  · rw [Fallible.sat_bind, Fallible.sat, getToken_loaded (h.loaded hloaded)]
    cases htoken : s'.context.currentToken with
    | none => exact honce
    | some token =>
      have hissued : token ∈ s'.issued := by
        refine (h.captured htoken).resolve_right fun hold => ?_
        rw [hs.token] at hold
        cases hold
      simp only [Fallible.andThen_ok]
      refine Fallible.sat_mono (streamed_callToolStreaming x toolName arguments timeout
        (some token)) fun r s'' h'' => ⟨_, ?_, Safe.resumed hdrop hissued s''.issued r⟩
      rw [h''.calls, h.calls, List.append_assoc]
      rfl
  · exact honce

theorem clear_spec (s : Wire) : (clear out s).2.calls = s.calls ∧
    (clear out s).2.context.currentToken = none ∧
      (out.delete = .succeeds → (clear out s).2.persisted = none) := by
  obtain ⟨_, _, _, _, delete⟩ := out
  cases delete with
  | succeeds => exact ⟨rfl, rfl, fun _ => rfl⟩
  | fails removed exc => cases removed <;> exact ⟨rfl, rfl, nofun⟩

/-- **A tool is never started twice.** Whatever the SDK and the persistence do, a call with a
context that has no token makes at most two streaming calls, the first without a token, the second
only after a drop and with a token the first has issued; and however it ends, its context has no
token afterwards, and when the persisted token can be deleted none is persisted. -/
theorem runWithSafeResume_safe (out : Outside) (x : Connection) (toolName : String)
    (arguments : Dict String Json) (effectiveTimeout : Option ℚ) {s : Wire} (hs : Fresh s) :
    let s' := (runWithSafeResume out x toolName arguments effectiveTimeout s).2
    (∃ calls, s'.calls = s.calls ++ calls ∧ Safe out.connectionClosed calls) ∧
      s'.context.currentToken = none ∧ (out.delete = .succeeds → s'.persisted = none) := by
  show (runWithSafeResume out x toolName arguments effectiveTimeout).sat (fun _ s' =>
    (∃ calls, s'.calls = s.calls ++ calls ∧ Safe out.connectionClosed calls) ∧
      s'.context.currentToken = none ∧ (out.delete = .succeeds → s'.persisted = none)) s
  have hcleared : ∀ (r : Except CallError CallResult) (s' : Wire),
      (∃ calls, s'.calls = s.calls ++ calls ∧ Safe out.connectionClosed calls) →
      (clear out).sat (Fallible.restoring (fun _ s' =>
        (∃ calls, s'.calls = s.calls ++ calls ∧ Safe out.connectionClosed calls) ∧
          s'.context.currentToken = none ∧ (out.delete = .succeeds → s'.persisted = none)) r)
        s' := by
    rintro r s' ⟨calls, hcalls, hsafe⟩
    obtain ⟨hkept, htoken, hpersisted⟩ := @clear_spec out s'
    have hall : ∃ calls, (clear out s').2.calls = s.calls ++ calls ∧
        Safe out.connectionClosed calls := ⟨calls, hkept.trans hcalls, hsafe⟩
    rw [Fallible.sat]
    cases (clear out s').1 with
    | ok u => exact ⟨hall, htoken, hpersisted⟩
    | error e => exact ⟨hall, htoken, hpersisted⟩
  rw [runWithSafeResume, Fallible.sat_ensure, Fallible.sat_tryCatch, Fallible.sat_bind]
  refine Fallible.sat_mono (getToken_fresh out.load hs) fun r s₁ hgot => ?_
  obtain ⟨hcalls, hfresh, htoken⟩ := hgot
  cases r with
  | error exc =>
    refine Fallible.sat_mono (resume_fresh x toolName arguments effectiveTimeout exc hfresh)
      fun r s' h => hcleared r s' ⟨[], ?_, Safe.unsent⟩
    rw [h, hcalls, List.append_nil]
  | ok token =>
    obtain ⟨rfl, hloaded⟩ := htoken token rfl
    rw [Fallible.andThen_ok]
    refine Fallible.sat_mono (streamed_callToolStreaming x toolName arguments effectiveTimeout
      none) fun r s₂ h => ?_
    cases r with
    | ok result => exact hcleared _ _ ⟨_, hcalls ▸ h.calls, Safe.once _ _⟩
    | error exc =>
      refine Fallible.sat_mono (resume_streamed x toolName arguments effectiveTimeout hfresh
        hloaded h) fun r s' hresumed => hcleared r s' ?_
      obtain ⟨calls, hall, hsafe⟩ := hresumed
      exact ⟨calls, hcalls ▸ hall, hsafe⟩

/-- A call that is dropped after a token, and resumed. -/
theorem runWithSafeResume_safe_resumed :
    let out : Outside :=
      { connectionClosed := -32000
        attempts := fun n => if n = 0
          then ⟨[{ token := "t1" }], .error (.mcpError (-32000) "Connection closed")⟩
          else ⟨[{ token := "t2" }], .ok {}⟩ }
    let x : Connection := ⟨"a", "extended", fun _ => ⟨.connected, some ⟨true⟩⟩⟩
    let s' := (runWithSafeResume out x "tool" .empty none {}).2
    s'.calls.map (·.token) = [none, some "t1"] ∧ s'.context.currentToken = none ∧
      s'.persisted = none := by
  refine ⟨by decide, (runWithSafeResume_safe _ _ _ _ _ ⟨rfl, fun _ => rfl⟩).2.1,
    (runWithSafeResume_safe _ _ _ _ _ ⟨rfl, fun _ => rfl⟩).2.2 rfl⟩

end Safety

end Resumable

end SlmMcpHub
