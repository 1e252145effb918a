import SlmMcpHub.Library.WireValue
import SlmMcpHub.Protocol.Conversion

/-!
# The POST handler of the MCP endpoint

`server/http_server.py`: `mcp_post`, with the sessions of `session/manager.py` it creates and looks
up. What becomes of a message that is let through is the business of `MCPEndpoint.handle_jsonrpc`,
and is a parameter here.

A response is a value that the framework writes as JSON when it is built; one that cannot be written
ends the handler with an exception.

## Main definitions

* `SessionManager`, with `createSession` and `getSession`
* `versionGate` — which revision a request is of, or why it is turned down
* `mcpPost` — the handler
-/

namespace SlmMcpHub

namespace Http

/-! ### Sessions -/

/-- `SessionInfo` -/
structure SessionInfo where
  sessionId : CodeText
  clientName : CodeText
  connectedAt : ℚ
  lastActivity : ℚ

/-- `SessionManager` -/
structure SessionManager where
  sessions : Dict CodeText SessionInfo := .empty
  maxSessions : ℕ
  timeoutSeconds : ℚ

namespace SessionManager

/-- `_is_expired` -/
def isExpired (m : SessionManager) (now : ℚ) (info : SessionInfo) : Bool :=
  m.timeoutSeconds < now - info.lastActivity

/-- `_cleanup_expired` -/
def cleanupExpired (m : SessionManager) (now : ℚ) : SessionManager :=
  { m with sessions := ((m.sessions.entries.filter fun e => m.isExpired now e.2).map
      Prod.fst).foldl Dict.erase m.sessions }

end SessionManager

/-- What is raised: the name of the type of an `Exception`. -/
structure Raised where
  typeName : String
  deriving DecidableEq

/-- What the handler is made of: it may raise, and the sessions stay what they are then. -/
abbrev HandlerM (α : Type) : Type := ExceptT Raised (StateM SessionManager) α

namespace SessionManager

/-- `session_id or str(uuid.uuid4())` -/
def idOr (uuid : CodeText) : Option CodeText → CodeText
  | some given => if given = [] then uuid else given
  | none => uuid

/-- `self._sessions[session_id] = SessionInfo(…)` -/
def store (m : SessionManager) (now : ℚ) (clientName sessionId : CodeText) : SessionManager :=
  { m with sessions := m.sessions.set sessionId ⟨sessionId, clientName, now, now⟩ }

/-- `create_session`, given the identifier it makes up if it has none. -/
def createSession (now : ℚ) (uuid : CodeText) (clientName : CodeText)
    (sessionId : Option CodeText) : HandlerM CodeText := do
  modify (cleanupExpired · now)
  let m ← get
  if m.maxSessions ≤ m.sessions.size then
    throw ⟨"ValueError"⟩
  else
    set (m.store now clientName (idOr uuid sessionId))
    pure (idOr uuid sessionId)

/-- `get_session` -/
def getSession (now : ℚ) (sessionId : CodeText) : HandlerM (Option SessionInfo) := do
  let m ← get
  match m.sessions.get? sessionId with
  | none => pure none
  | some info =>
    if m.isExpired now info then
      set { m with sessions := m.sessions.erase sessionId }
      pure none
    else
      pure (some info)

end SessionManager

/-! ### Responses -/

/-- A `Response`: `JSONResponse`, or one without a body. -/
inductive Response where
  | json (statusCode : ℕ) (content : WireValue) (headers : List (String × CodeText))
  | noContent

/-- `JSONResponse(status_code=…, content=…, headers=…)`: the content is written as UTF-8, and the
headers as Latin-1. -/
def jsonResponse (statusCode : ℕ) (content : WireValue) (headers : List (String × CodeText)) :
    HandlerM Response :=
  if content.encodable && headers.all fun h => h.2.isLatin1 then
    pure (.json statusCode content headers)
  else throw ⟨"ValueError"⟩

/-- A literal key. -/
def key (s : String) : CodeText := CodeText.ofString s

/-- A literal text. -/
def text (s : String) : WireValue := .str (CodeText.ofString s)

/-- Why a request is turned down. -/
structure Rejection where
  code : ℤ
  message : String
  statusCode : ℕ := 400
  data : Option WireValue := none

/-- The content of the error response. -/
def Rejection.content (r : Rejection) (requestId : WireValue) : WireValue :=
  .obj [(key "jsonrpc", text "2.0"), (key "id", requestId),
    (key "error", .obj ([(key "code", .int r.code), (key "message", text r.message)] ++
      r.data.toList.map fun data => (key "data", data)))]

/-- `_jsonrpc_error` -/
def jsonrpcError (requestId : WireValue) (r : Rejection) : HandlerM Response :=
  jsonResponse r.statusCode (r.content requestId) []

/-! ### The version gate -/

/-- `MODERN_PROTOCOL_VERSION` -/
def modernProtocolVersion : CodeText := CodeText.ofString "2026-07-28"

/-- `LEGACY_PROTOCOL_VERSIONS` -/
def legacyProtocolVersions : List CodeText :=
  ["2025-11-25", "2025-06-18", "2025-03-26", "2024-11-05"].map CodeText.ofString

/-- A request of a version the hub does not have. -/
def unsupportedVersion (requested : CodeText) : Rejection where
  code := -32022
  message := "Unsupported protocol version"
  data := some (.obj [(key "supported", .arr [.str modernProtocolVersion]),
    (key "requested", .str requested)])

/-- What a request that says it is of the modern revision has to have. -/
def checkModern (headerVersion : CodeText) (fields : List (CodeText × WireValue)) :
    Except Rejection Unit :=
  match (WireValue.get fields Protocol.metaVersionKey).str? with
  | none => .error { code := -32602, message := "Invalid params" }
  | some metaVersion =>
    if metaVersion = [] then
      .error { code := -32602, message := "Invalid params" }
    else if headerVersion = [] ∨ headerVersion ≠ metaVersion then
      .error { code := -32020, message := "Header mismatch" }
    else if metaVersion ≠ modernProtocolVersion then
      .error (unsupportedVersion metaVersion)
    else if (WireValue.get fields "io.modelcontextprotocol/clientInfo").obj?.isNone ∨
        (WireValue.get fields "io.modelcontextprotocol/clientCapabilities").obj?.isNone then
      .error { code := -32602, message := "Invalid params" }
    else
      .ok ()

/-- The `_meta` of a body, or what stands for it. -/
def metaOf (body : List (CodeText × WireValue)) : List (CodeText × WireValue) :=
  (WireValue.get (WireValue.get body "params").orEmpty "_meta").orEmpty

/-- `modern_request` -/
def modernRequest (headerVersion : CodeText) (body : List (CodeText × WireValue)) : Bool :=
  !(WireValue.get (metaOf body) Protocol.metaVersionKey).isNull ||
    headerVersion = modernProtocolVersion

/-- Whether the method of a body is this one. -/
def hasMethod (body : List (CodeText × WireValue)) (method : String) : Bool :=
  (WireValue.get body "method").str? = some (CodeText.ofString method)

/-- What a request that does not say so has to have. -/
def checkLegacy (headerVersion : CodeText) : Except Rejection Unit :=
  if headerVersion ≠ [] ∧ headerVersion ∉ legacyProtocolVersions then
    .error (unsupportedVersion headerVersion)
  else
    .ok ()

/-- A legacy request for the method only the modern revision has. -/
def discoverNotFound : Rejection where
  code := -32601
  message := "Method not found"
  statusCode := 404

/-- The version gate: whether the request is of the modern revision, or why it is turned down. -/
def versionGate (headerVersion : CodeText) (body : List (CodeText × WireValue)) :
    Except Rejection Bool :=
  if modernRequest headerVersion body then
    (checkModern headerVersion (metaOf body)).map fun _ => true
  else
    match checkLegacy headerVersion with
    | .error rejection => .error rejection
    | .ok () => if hasMethod body "server/discover" then .error discoverNotFound else .ok false

/-! ### The handler -/

/-- The application: whether it is stateless, and whether it recovers unknown sessions. -/
structure App where
  stateless : Bool
  recoveryEnabled : Bool

/-- A header of a request, decoded as Latin-1. -/
structure Header where
  value : CodeText := []
  isLatin1 : value.isLatin1 = true := by decide

/-- What the handler reads of a request: two headers, and what `request.json()` returns unless it
raises an `Exception`. -/
structure Request where
  sessionId : Header := {}
  protocolVersion : Header := {}
  json : Option WireValue

/-- What else a run of the handler depends on: the times it reads, and the identifier of a new
session, which is the text of a UUID. -/
structure Ambient where
  now : ℕ → ℚ
  uuid : Header
  uuid_ne : uuid.value ≠ []

/-- The name an `initialize` request gives for its client. -/
def clientNameOf (body : List (CodeText × WireValue)) : CodeText :=
  match (WireValue.get (WireValue.get (WireValue.get body "params").orEmpty "clientInfo").orEmpty
    "name").str? with
  | some name => if name.all fun c => Text.whitespace.contains c.val then key "unknown" else name
  | none => key "unknown"

/-- The session a request names, if there is one. -/
def existingSession (env : Ambient) (sessionId : CodeText) : HandlerM (Option SessionInfo) :=
  if sessionId = [] then pure none else SessionManager.getSession (env.now 0) sessionId

/-- The session a request goes by: an `initialize` request opens it. -/
def chooseSession (env : Ambient) (isInitialize : Bool) (body : List (CodeText × WireValue))
    (sessionId : CodeText) : HandlerM CodeText :=
  if isInitialize then do
    match ← existingSession env sessionId with
    | some _ => pure sessionId
    | none =>
      SessionManager.createSession (env.now 1) env.uuid.value (clientNameOf body)
        (if sessionId = [] then none else some sessionId)
  else
    pure sessionId

/-- The end of the handler: the message is dispatched, and its result made a response. -/
def dispatch (handleJsonrpc : CodeText → List (CodeText × WireValue) → Option WireValue)
    (sessionless : Bool) (sessionId : CodeText) (body : List (CodeText × WireValue)) :
    HandlerM Response :=
  match handleJsonrpc sessionId body with
  | none => pure .noContent
  | some result =>
    jsonResponse 200 result (if sessionless then [] else [("Mcp-Session-Id", sessionId)])

/-- The session a legacy request goes by, once it has named one: it is known, or recovered. -/
def checkSession (app : App) (env : Ambient) (isInitialize : Bool) (sessionId : CodeText) :
    HandlerM (Option Rejection) := do
  let session ← SessionManager.getSession (env.now 2) sessionId
  if session.isNone ∧ !isInitialize then
    if !app.recoveryEnabled then
      pure (some { code := -32001, message := "Session not found", statusCode := 404 })
    else
      tryCatch (do
        let _ ← SessionManager.createSession (env.now 3) env.uuid.value (key "recovered")
          (some sessionId)
        pure none) fun e =>
          if e.typeName = "ValueError" then
            pure (some { code := -32003, message := "Session capacity reached", statusCode := 429 })
          else
            throw e
  else
    pure none

/-- The handler from the version gate on, for a request that goes without a session. -/
def postSessionless (handleJsonrpc : CodeText → List (CodeText × WireValue) → Option WireValue)
    (env : Ambient) (body : List (CodeText × WireValue)) : HandlerM Response := do
  let _ ← SessionManager.getSession (env.now 2) (key "stateless")
  dispatch handleJsonrpc true (key "stateless") body

/-- The handler from the version gate on, for a request that goes by a session. -/
def postWithSession (handleJsonrpc : CodeText → List (CodeText × WireValue) → Option WireValue)
    (app : App) (env : Ambient) (sessionId : CodeText) (body : List (CodeText × WireValue)) :
    HandlerM Response := do
  let requestId := WireValue.get body "id"
  let isInitialize := hasMethod body "initialize"
  let sessionId ← chooseSession env isInitialize body sessionId
  if sessionId = [] then
    jsonrpcError requestId { code := -32000, message := "Missing Mcp-Session-Id header" }
  else
    match ← checkSession app env isInitialize sessionId with
    | some rejection => jsonrpcError requestId rejection
    | none => dispatch handleJsonrpc false sessionId body

/-- `mcp_post` -/
def mcpPost (handleJsonrpc : CodeText → List (CodeText × WireValue) → Option WireValue) (app : App)
    (env : Ambient) (request : Request) : HandlerM Response :=
  match request.json with
  | none => jsonrpcError .null { code := -32700, message := "Parse error" }
  | some (.obj body) =>
    match versionGate request.protocolVersion.value body with
    | .error rejection => jsonrpcError (WireValue.get body "id") rejection
    | .ok modern =>
      if app.stateless || modern then postSessionless handleJsonrpc env body
      else postWithSession handleJsonrpc app env request.sessionId.value body
  | some _ => jsonrpcError .null { code := -32600, message := "Invalid Request" }

/-! ### The two eras -/

/-- `is_modern_request` of `protocol/conversion.py` -/
def isModernRequest (message : List (CodeText × WireValue)) : Bool :=
  hasMethod message "server/discover" ||
    match WireValue.get message "params" with
    | .obj params =>
      match WireValue.get params "_meta" with
      | .obj fields => (WireValue.get fields Protocol.metaVersionKey).str? =
          some (CodeText.ofString Protocol.modernVersion)
      | _ => false
    | _ => false

/-- The messages without surrogates are those of the endpoint's own model. -/
theorem isModernRequest_ofEntries (entries : List (String × Json)) :
    isModernRequest (WireValue.ofEntries entries) =
      Protocol.isModernRequest (Json.toDict entries) := by
  have hstr : ∀ (v : Json) (s : String),
      ((WireValue.ofJson v).str? = some (CodeText.ofString s)) ↔ v = .str s := by
    intro v s
    cases v <;>
      simp [WireValue.ofJson, WireValue.str?, CodeText.ofString_injective.eq_iff]
  have hmethod : hasMethod (WireValue.ofEntries entries) "server/discover" =
      decide (Protocol.field (Json.toDict entries) "method" = .str "server/discover") := by
    rw [hasMethod, WireValue.get_ofEntries]
    exact decide_eq_decide.mpr (hstr _ _)
  rw [isModernRequest, Protocol.isModernRequest, hmethod, WireValue.get_ofEntries]
  congr 1
  rw [Protocol.field]
  cases ((Json.toDict entries).get? "params").getD .null with
  | obj params =>
    simp only [WireValue.ofJson]
    rw [WireValue.get_ofEntries, Protocol.field]
    cases ((Json.toDict params).get? "_meta").getD .null with
    | obj fields =>
      simp only [WireValue.ofJson]
      rw [WireValue.get_ofEntries]
      exact decide_eq_decide.mpr (hstr _ _)
    | _ => rfl
  | _ => rfl

theorem modernProtocolVersion_eq :
    modernProtocolVersion = CodeText.ofString Protocol.modernVersion := rfl

section Eras

variable {headerVersion : CodeText} {body : List (CodeText × WireValue)}

theorem isModernRequest_iff : isModernRequest body = true ↔
    hasMethod body "server/discover" = true ∨
      (WireValue.get (metaOf body) Protocol.metaVersionKey).str? = some modernProtocolVersion := by
  have hempty : ∀ k, WireValue.get [] k = .null := fun _ => rfl
  rw [isModernRequest, Bool.or_eq_true, metaOf]
  refine or_congr_right ?_
  cases WireValue.get body "params" with
  | obj params =>
    simp only [WireValue.orEmpty, WireValue.obj?, Option.getD_some]
    cases WireValue.get params "_meta" with
    | obj fields => exact decide_eq_true_iff
    | _ => simp [hempty, WireValue.str?]
  | _ => simp [WireValue.orEmpty, WireValue.obj?, hempty, WireValue.str?]

/-- A request that passes as modern names the modern revision in its body. -/
theorem version_of_checkModern {fields : List (CodeText × WireValue)}
    (h : checkModern headerVersion fields = .ok ()) :
    (WireValue.get fields Protocol.metaVersionKey).str? = some modernProtocolVersion := by
  rw [checkModern] at h
  cases hversion : (WireValue.get fields Protocol.metaVersionKey).str? with
  | none => simp [hversion] at h
  | some version =>
    simp only [hversion] at h
    split_ifs at h with hempty hheader heq
    exact congrArg some (not_ne_iff.mp heq)

/-- What the gate lets through: a modern request that has what it needs, or a legacy one. -/
theorem versionGate_eq_ok {modern : Bool} (h : versionGate headerVersion body = .ok modern) :
    modern = modernRequest headerVersion body ∧
      (modern = true → checkModern headerVersion (metaOf body) = .ok ()) ∧
      (modern = false → hasMethod body "server/discover" = false) := by
  rw [versionGate] at h
  cases hmodern : modernRequest headerVersion body with
  | true =>
    rw [hmodern, if_pos rfl] at h
    cases hcheck : checkModern headerVersion (metaOf body) with
    | error r => simp [hcheck, Except.map] at h
    | ok _ =>
      obtain rfl : true = modern := by simpa [hcheck, Except.map] using h
      exact ⟨rfl, fun _ => rfl, nofun⟩
  | false =>
    rw [hmodern, if_neg Bool.false_ne_true] at h
    cases hcheck : checkLegacy headerVersion with
    | error r => simp [hcheck] at h
    | ok _ =>
      cases hmethod : hasMethod body "server/discover" with
      | true => simp [hcheck, hmethod] at h
      | false =>
        obtain rfl : false = modern := by simpa [hcheck, hmethod] using h
        exact ⟨rfl, nofun, fun _ => rfl⟩

/-- The two layers agree on the era of what the gate lets through. -/
theorem era_eq {modern : Bool} (h : versionGate headerVersion body = .ok modern) :
    modern = isModernRequest body := by
  obtain ⟨hmodern, hcheck, hmethod⟩ := versionGate_eq_ok h
  cases modern with
  | true => exact (isModernRequest_iff.mpr (.inr (version_of_checkModern (hcheck rfl)))).symm
  | false =>
    refine (Bool.eq_false_iff.mpr fun hera => ?_).symm
    rcases isModernRequest_iff.mp hera with hdiscover | hversion
    · rw [hmethod rfl] at hdiscover
      cases hdiscover
    · -- A version in the body would have made the request modern.
      have hnull : (WireValue.get (metaOf body) Protocol.metaVersionKey).isNull = true := by
        simp only [modernRequest, Bool.false_eq, Bool.or_eq_false_iff, Bool.not_eq_false']
          at hmodern
        exact hmodern.1
      cases hget : WireValue.get (metaOf body) Protocol.metaVersionKey with
      | null => simp [hget, WireValue.str?] at hversion
      | _ => simp [hget, WireValue.isNull] at hnull

/-- **The gate and the endpoint agree on the era**, and unless the application is stateless the
requests without a session are those that are answered in the modern envelope. -/
theorem eras_agree (app : App) {modern : Bool} (h : versionGate headerVersion body = .ok modern) :
    modern = isModernRequest body ∧
      (app.stateless = false → (app.stateless || modern) = isModernRequest body) := by
  have hera := era_eq h
  exact ⟨hera, fun hstateless => by rw [hstateless, Bool.false_or, hera]⟩

end Eras

/-- A legacy request. -/
def listTools : List (CodeText × WireValue) :=
  [(key "id", .int 1), (key "method", text "tools/list")]

theorem versionGate_listTools : versionGate [] listTools = .ok false := rfl

/-- A request of the modern revision. -/
def modernTools : List (CodeText × WireValue) :=
  [(key "id", .int 1), (key "method", text "tools/list"),
    (key "params", .obj [(key "_meta", .obj
      [(key Protocol.metaVersionKey, .str modernProtocolVersion),
        (key "io.modelcontextprotocol/clientInfo", .obj []),
        (key "io.modelcontextprotocol/clientCapabilities", .obj [])])])]

theorem versionGate_modernTools : versionGate modernProtocolVersion modernTools = .ok true := rfl

/-- With sessions: the modern request goes without one, the legacy request has one. -/
theorem eras_agree_listTools :
    (versionGate modernProtocolVersion modernTools = .ok true ∧
        isModernRequest modernTools = true) ∧
      versionGate [] listTools = .ok false ∧ isModernRequest listTools = false :=
  ⟨⟨versionGate_modernTools, ((eras_agree ⟨false, false⟩ versionGate_modernTools).2 rfl).symm⟩,
    versionGate_listTools, ((eras_agree ⟨false, false⟩ versionGate_listTools).2 rfl).symm⟩

/-- A stateless application has no session for a legacy request either. -/
theorem sessionless_legacy :
    ¬ ∀ (app : App) (headerVersion : CodeText) (body : List (CodeText × WireValue)) (modern : Bool),
      versionGate headerVersion body = .ok modern → modern = isModernRequest body ∧
        ((app.stateless || modern) = true → isModernRequest body = true) := by
  intro h
  have hlegacy := (h ⟨true, false⟩ [] listTools false versionGate_listTools).2 rfl
  revert hlegacy
  decide +kernel

/-! ### What the handler comes to -/

/-- Run a part of the handler. -/
def exec {α : Type} (p : HandlerM α) (m : SessionManager) : Except Raised α × SessionManager :=
  p.run.run m

/-- It returns. -/
def Returns {α : Type} (p : HandlerM α) (m : SessionManager) : Prop :=
  ∃ a m', exec p m = (.ok a, m')

section Exec

variable {α β : Type} {m : SessionManager}

@[simp] theorem exec_pure (a : α) : exec (pure a) m = (.ok a, m) := rfl

/-- Sequencing. -/
theorem exec_bind_of_ok {p : HandlerM α} {f : α → HandlerM β} {a : α} {m' : SessionManager}
    (h : exec p m = (.ok a, m')) : exec (p >>= f) m = exec (f a) m' := by
  show exec (ExceptT.bind p f) m = _
  simp only [exec, ExceptT.bind, ExceptT.run, StateT.run] at h ⊢
  show (match p m with
    | (r, m') => (ExceptT.bindCont f r) m' : Except Raised β × SessionManager) = _
  rw [h]
  rfl

theorem exec_bind_of_error {p : HandlerM α} {f : α → HandlerM β} {e : Raised} {m' : SessionManager}
    (h : exec p m = (.error e, m')) : exec (p >>= f) m = (.error e, m') := by
  show exec (ExceptT.bind p f) m = _
  simp only [exec, ExceptT.bind, ExceptT.run, StateT.run] at h ⊢
  show (match p m with
    | (r, m') => (ExceptT.bindCont f r) m' : Except Raised β × SessionManager) = _
  rw [h]
  rfl

theorem exec_tryCatch_of_ok {p : HandlerM α} {h : Raised → HandlerM α} {a : α}
    {m' : SessionManager} (hp : exec p m = (.ok a, m')) : exec (tryCatch p h) m = (.ok a, m') := by
  have hp' : p m = (.ok a, m') := hp
  show (ExceptT.tryCatch p h : HandlerM α) m = _
  simp only [ExceptT.tryCatch, ExceptT.mk, bind, StateT.bind, hp']
  rfl

theorem exec_tryCatch_of_error {p : HandlerM α} {h : Raised → HandlerM α} {e : Raised}
    {m' : SessionManager} (hp : exec p m = (.error e, m')) :
    exec (tryCatch p h) m = exec (h e) m' := by
  have hp' : p m = (.error e, m') := hp
  show (ExceptT.tryCatch p h : HandlerM α) m = _
  simp only [ExceptT.tryCatch, ExceptT.mk, bind, StateT.bind, hp']
  rfl

end Exec

theorem returns_pure {α : Type} (a : α) (m : SessionManager) : Returns (pure a) m := ⟨a, m, rfl⟩

/-- What follows a part that returns decides. -/
theorem returns_bind_iff {α β : Type} {p : HandlerM α} {f : α → HandlerM β} {a : α}
    {m m' : SessionManager} (h : exec p m = (.ok a, m')) :
    Returns (p >>= f) m ↔ Returns (f a) m' := by
  rw [Returns, exec_bind_of_ok h, Returns]

/-! #### Responses -/

theorem returns_jsonResponse_iff {statusCode : ℕ} {content : WireValue}
    {headers : List (String × CodeText)} {m : SessionManager}
    (hheaders : ∀ h ∈ headers, h.2.isLatin1 = true) :
    Returns (jsonResponse statusCode content headers) m ↔ content.encodable = true := by
  have hall : headers.all (fun h => h.2.isLatin1) = true := List.all_eq_true.mpr hheaders
  rw [jsonResponse, hall, Bool.and_true]
  cases hcontent : content.encodable with
  | true => exact iff_of_true (returns_pure _ m) rfl
  | false => exact iff_of_false (fun ⟨_, _, h⟩ => by cases h) Bool.false_ne_true

/-- What a rejection adds to the identifier of the request can be written. -/
def Rejection.Writable (r : Rejection) : Prop := ∀ d ∈ r.data, d.encodable = true

theorem returns_jsonrpcError_iff {requestId : WireValue} {r : Rejection} {m : SessionManager}
    (hr : r.Writable) : Returns (jsonrpcError requestId r) m ↔ requestId.encodable = true := by
  rw [jsonrpcError, returns_jsonResponse_iff (by simp), Rejection.content]
  have hdata : WireValue.encodableEntries
      (r.data.toList.map fun d => (CodeText.ofString "data", d)) = true := by
    cases hget : r.data with
    | none => rfl
    | some d =>
      have hd := hr d hget
      simp [WireValue.encodableEntries, hd, CodeText.encodable_ofString]
  simp only [WireValue.encodableEntries, WireValue.encodable_obj, WireValue.encodable_str,
    WireValue.encodable_int, List.cons_append, List.nil_append, hdata, key, text,
    CodeText.encodable_ofString, Bool.true_and, Bool.and_true]

theorem returns_dispatch_iff
    {handleJsonrpc : CodeText → List (CodeText × WireValue) → Option WireValue}
    {sessionless : Bool} {sessionId : CodeText} {body : List (CodeText × WireValue)}
    {m : SessionManager} (hid : sessionId.isLatin1 = true) :
    Returns (dispatch handleJsonrpc sessionless sessionId body) m ↔
      ∀ result ∈ handleJsonrpc sessionId body, result.encodable = true := by
  rw [dispatch]
  cases handleJsonrpc sessionId body with
  | none => exact iff_of_true (returns_pure _ m) nofun
  | some result =>
    have hheaders : ∀ h ∈ (if sessionless = true then [] else [("Mcp-Session-Id", sessionId)]),
        h.2.isLatin1 = true := by
      intro h hmem
      split_ifs at hmem
      · cases hmem
      · rw [List.mem_singleton.mp hmem]
        exact hid
    rw [returns_jsonResponse_iff hheaders]
    simp

/-- What the version gate says of a version can be written: it comes from a header. -/
theorem writable_versionGate {header : Header} {body : List (CodeText × WireValue)}
    {r : Rejection} (h : versionGate header.value body = .error r) : r.Writable := by
  have hplain : ∀ {r : Rejection}, r.data = none → r.Writable := by
    intro r hnone d hd
    rw [hnone] at hd
    cases hd
  have hunsupported : (unsupportedVersion header.value).Writable := by
    intro d hd
    obtain rfl := Option.some.inj hd
    simp [WireValue.encodableEntries, WireValue.encodableElements, key, modernProtocolVersion,
      CodeText.encodable_ofString, CodeText.encodable_of_isLatin1 header.isLatin1]
  rw [versionGate] at h
  by_cases hmodern : modernRequest header.value body = true
  · rw [if_pos hmodern] at h
    cases hcheck : checkModern header.value (metaOf body) with
    | ok _ => simp [hcheck, Except.map] at h
    | error r' =>
      obtain rfl : r' = r := by simpa [hcheck, Except.map] using h
      rw [checkModern] at hcheck
      split at hcheck
      · obtain rfl := Except.error.inj hcheck
        exact hplain rfl
      · split_ifs at hcheck with hempty hheader hversion hclient
        · obtain rfl := Except.error.inj hcheck
          exact hplain rfl
        · obtain rfl := Except.error.inj hcheck
          exact hplain rfl
        · obtain rfl := Except.error.inj hcheck
          rw [← not_ne_iff.mp (not_or.mp hheader).2]
          exact hunsupported
        · obtain rfl := Except.error.inj hcheck
          exact hplain rfl
  · rw [if_neg hmodern, checkLegacy] at h
    by_cases hlegacy : header.value ≠ [] ∧ header.value ∉ legacyProtocolVersions
    · rw [if_pos hlegacy] at h
      obtain rfl := Except.error.inj h
      exact hunsupported
    · rw [if_neg hlegacy] at h
      cases hmethod : hasMethod body "server/discover" with
      | false => simp [hmethod] at h
      | true =>
        obtain rfl : discoverNotFound = r := by simpa [hmethod] using h
        exact hplain rfl

/-! #### Sessions -/

namespace SessionManager

/-- What `get_session` finds, and what it leaves. -/
def lookup (m : SessionManager) (now : ℚ) (sessionId : CodeText) :
    Option SessionInfo × SessionManager :=
  match m.sessions.get? sessionId with
  | none => (none, m)
  | some info =>
    if m.isExpired now info then (none, { m with sessions := m.sessions.erase sessionId })
    else (some info, m)

/-- There is no room for another session. -/
def isFull (m : SessionManager) (now : ℚ) : Bool :=
  m.maxSessions ≤ (m.cleanupExpired now).sessions.size

theorem exec_getSession (m : SessionManager) (now : ℚ) (sessionId : CodeText) :
    exec (getSession now sessionId) m =
      (.ok (m.lookup now sessionId).1, (m.lookup now sessionId).2) := by
  show exec (do
    match m.sessions.get? sessionId with
    | none => pure none
    | some info =>
      if m.isExpired now info then
        set { m with sessions := m.sessions.erase sessionId }
        pure none
      else
        pure (some info)) m = _
  rw [lookup]
  cases m.sessions.get? sessionId with
  | none => rfl
  | some info =>
    cases hexpired : m.isExpired now info with
    | true => simp [hexpired]; rfl
    | false => simp [hexpired]

theorem exec_createSession_of_isFull {m : SessionManager} {now : ℚ} (h : m.isFull now = true)
    (uuid clientName : CodeText) (sessionId : Option CodeText) :
    exec (createSession now uuid clientName sessionId) m =
      (.error ⟨"ValueError"⟩, m.cleanupExpired now) := by
  show exec (if (m.cleanupExpired now).maxSessions ≤ (m.cleanupExpired now).sessions.size then
    throw ⟨"ValueError"⟩ else _) (m.cleanupExpired now) = _
  rw [if_pos (show (m.cleanupExpired now).maxSessions ≤ _ from of_decide_eq_true h)]
  rfl

theorem exec_createSession {m : SessionManager} {now : ℚ} (h : m.isFull now = false)
    (uuid clientName : CodeText) (sessionId : Option CodeText) :
    exec (createSession now uuid clientName sessionId) m = (.ok (idOr uuid sessionId),
      (m.cleanupExpired now).store now clientName (idOr uuid sessionId)) := by
  show exec (if (m.cleanupExpired now).maxSessions ≤ (m.cleanupExpired now).sessions.size then
    throw ⟨"ValueError"⟩ else _) (m.cleanupExpired now) = _
  rw [if_neg (show ¬ (m.cleanupExpired now).maxSessions ≤ _ from of_decide_eq_false h)]
  rfl

end SessionManager

/-! #### The request -/

/-- Where a request gets to. -/
inductive Fate where
  /-- It is turned down, in a response with this identifier. -/
  | turnedDown (requestId : WireValue)
  /-- It is to open a session, and there is no room for one. -/
  | overCapacity
  /-- It is dispatched, for a session. -/
  | dispatched (sessionId : CodeText) (body : List (CodeText × WireValue))

/-- What an `initialize` request finds under the session it names. -/
def foundSession (env : Ambient) (m : SessionManager) (sessionId : CodeText) :
    Option SessionInfo × SessionManager :=
  if sessionId = [] then (none, m) else m.lookup (env.now 0) sessionId

/-- Where a request gets to that goes by a session. -/
def sessionFate (app : App) (env : Ambient) (m : SessionManager) (sessionId : CodeText)
    (body : List (CodeText × WireValue)) : Fate :=
  if hasMethod body "initialize" then
    if (foundSession env m sessionId).1.isSome then .dispatched sessionId body
    else if (foundSession env m sessionId).2.isFull (env.now 1) then .overCapacity
    else .dispatched (if sessionId = [] then env.uuid.value else sessionId) body
  else
    if sessionId ≠ [] ∧ ((m.lookup (env.now 2) sessionId).1.isSome ∨ app.recoveryEnabled ∧
        (m.lookup (env.now 2) sessionId).2.isFull (env.now 3) = false) then
      .dispatched sessionId body
    else .turnedDown (WireValue.get body "id")

/-- Where a request gets to. -/
def fate (app : App) (env : Ambient) (m : SessionManager) (request : Request) : Fate :=
  match request.json with
  | some (.obj body) =>
    match versionGate request.protocolVersion.value body with
    | .error _ => .turnedDown (WireValue.get body "id")
    | .ok modern =>
      if app.stateless || modern then .dispatched (key "stateless") body
      else sessionFate app env m request.sessionId.value body
  | _ => .turnedDown .null

/-- What has to be written for a request can be, and there is room for the session it is to open. -/
def Fate.Answerable (handleJsonrpc : CodeText → List (CodeText × WireValue) → Option WireValue) :
    Fate → Prop
  | .turnedDown requestId => requestId.encodable = true
  | .overCapacity => False
  | .dispatched sessionId body =>
    ∀ result ∈ handleJsonrpc sessionId body, result.encodable = true

section Request

variable {handleJsonrpc : CodeText → List (CodeText × WireValue) → Option WireValue} {app : App}
  {env : Ambient} {m : SessionManager} {body : List (CodeText × WireValue)} {sessionId : CodeText}

/-- What follows the choice of a session. -/
theorem returns_checkSession_iff (isInitialize : Bool) (hid : sessionId.isLatin1 = true)
    (requestId : WireValue) :
    Returns (do
      match ← checkSession app env isInitialize sessionId with
      | some rejection => jsonrpcError requestId rejection
      | none => dispatch handleJsonrpc false sessionId body) m ↔
        if isInitialize ∨ (m.lookup (env.now 2) sessionId).1.isSome ∨ app.recoveryEnabled ∧
            (m.lookup (env.now 2) sessionId).2.isFull (env.now 3) = false then
          ∀ result ∈ handleJsonrpc sessionId body, result.encodable = true
        else requestId.encodable = true := by
  have hget := SessionManager.exec_getSession m (env.now 2) sessionId
  have hplain : ∀ {code : ℤ} {message : String} {statusCode : ℕ},
      Rejection.Writable { code := code, message := message, statusCode := statusCode } :=
    fun _ hd => by cases hd
  by_cases hknown : (m.lookup (env.now 2) sessionId).1.isNone ∧ !isInitialize
  · have hsession : (m.lookup (env.now 2) sessionId).1.isSome = false := by
      rw [Option.isNone_iff_eq_none.mp hknown.1]
      rfl
    have hinitialize : isInitialize = false := by simpa using hknown.2
    cases hrecover : app.recoveryEnabled with
    | false =>
      have hcheck : exec (checkSession app env isInitialize sessionId) m =
          (.ok (some { code := -32001, message := "Session not found", statusCode := 404 }),
            (m.lookup (env.now 2) sessionId).2) := by
        rw [checkSession, exec_bind_of_ok hget, if_pos hknown, hrecover]
        rfl
      rw [returns_bind_iff hcheck, if_neg (by simp [hsession, hinitialize])]
      exact returns_jsonrpcError_iff hplain
    | true =>
      cases hfull : (m.lookup (env.now 2) sessionId).2.isFull (env.now 3) with
      | true =>
        have hcreate := SessionManager.exec_createSession_of_isFull hfull env.uuid.value
          (key "recovered") (some sessionId)
        have hcheck : exec (checkSession app env isInitialize sessionId) m =
            (.ok (some
              { code := -32003, message := "Session capacity reached", statusCode := 429 }),
              (m.lookup (env.now 2) sessionId).2.cleanupExpired (env.now 3)) := by
          rw [checkSession, exec_bind_of_ok hget, if_pos hknown, hrecover]
          exact exec_tryCatch_of_error (exec_bind_of_error hcreate)
        rw [returns_bind_iff hcheck, if_neg (by simp [hsession, hinitialize])]
        exact returns_jsonrpcError_iff hplain
      | false =>
        have hcreate := SessionManager.exec_createSession hfull env.uuid.value
          (key "recovered") (some sessionId)
        have hcheck : exec (checkSession app env isInitialize sessionId) m = (.ok none,
            ((m.lookup (env.now 2) sessionId).2.cleanupExpired (env.now 3)).store (env.now 3)
              (key "recovered") (SessionManager.idOr env.uuid.value (some sessionId))) := by
          rw [checkSession, exec_bind_of_ok hget, if_pos hknown, hrecover]
          exact exec_tryCatch_of_ok (exec_bind_of_ok hcreate)
        rw [returns_bind_iff hcheck, if_pos (.inr (.inr ⟨rfl, rfl⟩))]
        exact returns_dispatch_iff hid
  · have hcheck : exec (checkSession app env isInitialize sessionId) m =
        (.ok none, (m.lookup (env.now 2) sessionId).2) := by
      rw [checkSession, exec_bind_of_ok hget, if_neg hknown]
      rfl
    have hyes : isInitialize = true ∨ (m.lookup (env.now 2) sessionId).1.isSome = true := by
      cases isInitialize with
      | true => exact .inl rfl
      | false => exact .inr (by simpa [Option.isSome_iff_ne_none] using hknown)
    rw [returns_bind_iff hcheck, if_pos (hyes.imp_right .inl)]
    exact returns_dispatch_iff hid

theorem exec_existingSession (env : Ambient) (m : SessionManager) (sessionId : CodeText) :
    exec (existingSession env sessionId) m =
      (.ok (foundSession env m sessionId).1, (foundSession env m sessionId).2) := by
  rw [existingSession, foundSession]
  by_cases hid : sessionId = []
  · rw [if_pos hid, if_pos hid]
    rfl
  · rw [if_neg hid, if_neg hid]
    exact SessionManager.exec_getSession m _ _

/-- An `initialize` request needs a session there is no room for. -/
theorem exec_chooseSession_of_isFull (hnone : (foundSession env m sessionId).1 = none)
    (hfull : (foundSession env m sessionId).2.isFull (env.now 1) = true) :
    exec (chooseSession env true body sessionId) m =
      (.error ⟨"ValueError"⟩, (foundSession env m sessionId).2.cleanupExpired (env.now 1)) := by
  rw [chooseSession, if_pos rfl, exec_bind_of_ok (exec_existingSession env m sessionId), hnone]
  exact SessionManager.exec_createSession_of_isFull hfull _ _ _

/-- An `initialize` request has a session, if there is room for it. -/
theorem exec_chooseSession (hroom : (foundSession env m sessionId).1.isSome = true ∨
      (foundSession env m sessionId).2.isFull (env.now 1) = false) :
    ∃ m', exec (chooseSession env true body sessionId) m =
      (.ok (if sessionId = [] then env.uuid.value else sessionId), m') := by
  rw [chooseSession, if_pos rfl, exec_bind_of_ok (exec_existingSession env m sessionId)]
  cases hfound : (foundSession env m sessionId).1 with
  | some info =>
    have hid : sessionId ≠ [] := by
      rintro rfl
      cases hfound
    refine ⟨(foundSession env m sessionId).2, ?_⟩
    simp only [hid, if_false]
    rfl
  | none =>
    have hfull := hroom.resolve_left (by rw [hfound]; exact Bool.false_ne_true)
    have hchosen : SessionManager.idOr env.uuid.value (if sessionId = [] then none else
        some sessionId) = if sessionId = [] then env.uuid.value else sessionId := by
      by_cases hid : sessionId = []
      · rw [if_pos hid, if_pos hid, SessionManager.idOr]
      · rw [if_neg hid, if_neg hid, SessionManager.idOr, if_neg hid]
    rw [← hchosen]
    exact ⟨_, SessionManager.exec_createSession hfull _ _ _⟩

/-- What follows the choice of a session. -/
theorem returns_afterSession_iff (isInitialize : Bool) (hid : sessionId.isLatin1 = true)
    (requestId : WireValue) :
    Returns (if sessionId = [] then
        jsonrpcError requestId { code := -32000, message := "Missing Mcp-Session-Id header" }
      else do
        match ← checkSession app env isInitialize sessionId with
        | some rejection => jsonrpcError requestId rejection
        | none => dispatch handleJsonrpc false sessionId body) m ↔
      if sessionId ≠ [] ∧ (isInitialize ∨ (m.lookup (env.now 2) sessionId).1.isSome ∨
          app.recoveryEnabled ∧ (m.lookup (env.now 2) sessionId).2.isFull (env.now 3) = false) then
        ∀ result ∈ handleJsonrpc sessionId body, result.encodable = true
      else requestId.encodable = true := by
  by_cases hempty : sessionId = []
  · rw [if_pos hempty, if_neg fun h => h.1 hempty]
    exact returns_jsonrpcError_iff fun _ hd => by cases hd
  · rw [if_neg hempty, returns_checkSession_iff isInitialize hid]
    simp only [ne_eq, hempty, not_false_eq_true, true_and]

theorem returns_postWithSession_iff (hid : sessionId.isLatin1 = true) :
    Returns (postWithSession handleJsonrpc app env sessionId body) m ↔
      (sessionFate app env m sessionId body).Answerable handleJsonrpc := by
  rw [postWithSession, sessionFate]
  cases hinitialize : hasMethod body "initialize" with
  | true =>
    rw [if_pos rfl]
    by_cases hroom : (foundSession env m sessionId).1.isSome = true ∨
      (foundSession env m sessionId).2.isFull (env.now 1) = false
    · obtain ⟨m', hsession⟩ := exec_chooseSession hroom
      have hlatin : (if sessionId = [] then env.uuid.value else sessionId).isLatin1 = true := by
        split_ifs
        · exact env.uuid.isLatin1
        · exact hid
      have hne : (if sessionId = [] then env.uuid.value else sessionId) ≠ [] := by
        split_ifs with hempty
        · exact env.uuid_ne
        · exact hempty
      rw [returns_bind_iff hsession, returns_afterSession_iff true hlatin, if_pos ⟨hne, .inl rfl⟩]
      cases hfound : (foundSession env m sessionId).1 with
      | some info =>
        have hempty : sessionId ≠ [] := by
          rintro rfl
          cases hfound
        simp only [hempty, if_false, Option.isSome_some, if_true]
        rfl
      | none =>
        have hfull := hroom.resolve_left (by rw [hfound]; exact Bool.false_ne_true)
        simp only [hfull, Option.isSome_none, Bool.false_eq_true, if_false]
        rfl
    · obtain ⟨hnone, hfull⟩ := not_or.mp hroom
      have hraised : exec (chooseSession env true body sessionId) m = _ :=
        exec_chooseSession_of_isFull (by simpa using hnone) (by simpa using hfull)
      rw [if_neg hnone, if_pos (by simpa using hfull)]
      refine iff_of_false ?_ id
      rintro ⟨a, m', hreturns⟩
      rw [exec_bind_of_error hraised] at hreturns
      cases hreturns
  | false =>
    rw [if_neg Bool.false_ne_true, chooseSession, if_neg Bool.false_ne_true,
      returns_bind_iff (exec_pure sessionId), returns_afterSession_iff false hid]
    simp only [Bool.false_eq_true, false_or]
    split_ifs <;> rfl

/-- **Which requests the handler answers**: what has to be written for them can be, and there is
room for the session they open. -/
theorem returns_mcpPost_iff
    (handleJsonrpc : CodeText → List (CodeText × WireValue) → Option WireValue) (app : App)
    (env : Ambient) (request : Request) (m : SessionManager) :
    Returns (mcpPost handleJsonrpc app env request) m ↔
      (fate app env m request).Answerable handleJsonrpc := by
  have hplain : ∀ {code : ℤ} {message : String},
      Rejection.Writable { code := code, message := message } := fun _ hd => by cases hd
  rw [mcpPost, fate]
  cases request.json with
  | none => exact returns_jsonrpcError_iff hplain
  | some value =>
    cases value with
    | obj body =>
      simp only
      cases hgate : versionGate request.protocolVersion.value body with
      | error rejection => exact returns_jsonrpcError_iff (writable_versionGate hgate)
      | ok modern =>
        simp only
        by_cases hsessionless : (app.stateless || modern) = true
        · rw [if_pos hsessionless, if_pos hsessionless, postSessionless,
            returns_bind_iff (SessionManager.exec_getSession m _ _)]
          exact returns_dispatch_iff (by decide +kernel)
        · rw [if_neg hsessionless, if_neg hsessionless]
          exact returns_postWithSession_iff request.sessionId.isLatin1
    | _ => exact returns_jsonrpcError_iff hplain

end Request

/-- A request that lists the tools, with an identifier that JSON has no text for. -/
def listToolsNaN : Request where
  json := some (.obj [(key "id", .float .nan), (key "method", text "tools/list")])

/-- A new session would be named so. -/
def someUuid : Header := ⟨key "7f3c2a10-5b64-4c1e-9d2f-0a8e6b1c3d47", by decide +kernel⟩

/-- Such a request names no session, and that cannot be said. -/
theorem not_returns_listToolsNaN :
    ¬ ∀ (handleJsonrpc : CodeText → List (CodeText × WireValue) → Option WireValue) (app : App)
      (env : Ambient) (request : Request) (m : SessionManager),
      (∀ sessionId body, ∀ result ∈ handleJsonrpc sessionId body, result.encodable = true) →
        Returns (mcpPost handleJsonrpc app env request) m := by
  intro h
  let env : Ambient := ⟨fun _ => 0, someUuid, by decide +kernel⟩
  obtain ⟨_, _, hreturns⟩ := h (fun _ _ => none) ⟨false, true⟩ env listToolsNaN
    ⟨.empty, 100, 86400⟩ (fun _ _ _ hresult => by cases hresult)
  cases hreturns

end Http

end SlmMcpHub
