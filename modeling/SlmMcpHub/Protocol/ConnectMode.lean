import SlmMcpHub.Auth.AccountKey
import SlmMcpHub.Federation.Hub
import SlmMcpHub.Protocol.ProbeRejection

/-!
# The mode of a handshake

`OutboundClient.connect` with the clients of the SDK it builds, `MCPConnection.connect`, and the
operations of the manager that connect one backend and take it down again.

A client of the SDK in mode `auto` asks for the protocol era before it initializes. A server that
closes the connection on that is tried once more, and the `OutboundClient` remembers to do without
the question. Only the builder for `stdio` goes by what it remembers, and every attempt of an
`MCPConnection` makes an `OutboundClient` of its own.

## Main definitions

* `OutboundClient`, `OutboundClient.connect` — an attempt with its handshakes
* `Backend`, `Backend.step` — one backend of the hub
* `Pinned` — one handshake of the run asks for the era, and every attempt succeeds
* `attempts` — how often a run connects

## Main results

* `pinned_iff`
-/

namespace SlmMcpHub

namespace Outbound

/-! ### Clients of the SDK -/

/-- `_connect_mode` -/
inductive Mode where
  | auto
  | legacy
  deriving DecidableEq

/-- What a client of the SDK talks over. -/
inductive SdkTransport where
  /-- `stdio_client(StdioServerParameters(…))` -/
  | stdio (command : String) (args : List String) (env : Dict String String)
  /-- `sse_client(…)` -/
  | sse (url : String) (headers : Option (Dict String String)) (sseReadTimeout : ℚ)
  /-- `streamable_http_client` with a client that logs in -/
  | oauth (url redirectUri : String) (auth : AuthOAuthConfig)
  /-- `streamable_http_client` with a client that sends headers -/
  | headers (url : String) (headers : Dict String String)
  /-- `Client(url)` -/
  | url (url : String)

/-- `mcp.Client` -/
structure SdkClient where
  transport : SdkTransport
  mode : Mode

/-- What the world outside answers. -/
structure World where
  runtime : Runtime
  environ : String → Option String
  /-- `get_default_environment()` -/
  defaultEnvironment : Dict String String
  /-- What making a client raises. -/
  construct : SdkClient → Option ExceptionGraph
  /-- What the handshake of the client raises that is the given one to be entered. -/
  enter : ℕ → SdkClient → Option ExceptionGraph

/-- What `OutboundClient.connect` raises. -/
inductive Failure where
  /-- `OAuthAuthRequiredError` -/
  | authRequired (message : String)
  /-- `ConnectionError` -/
  | connection (message : String)
  /-- What the configuration is refused with. -/
  | config (error : ConfigError)
  /-- What no handler catches. -/
  | raised (exc : ExceptionGraph)

/-- `OutboundClient` -/
structure OutboundClient where
  config : MCPServerConfig
  connected : Bool := false
  authRequired : Bool := false
  connectMode : Mode := .auto

namespace ExceptionGraph

variable (exc : ExceptionGraph)

/-- What the exception itself is an instance of. -/
def kind : ExcKind := (exc.raised exc.root).kind

/-- `type(exc).__name__` -/
def typeName : String := (exc.raised exc.root).typeName

/-- `isinstance(exc.__cause__, OAuthFlowError) or isinstance(exc.__context__, OAuthFlowError)` -/
def chainsOAuth : Bool :=
  let isOAuth (e : Fin exc.size) : Bool := (exc.raised e).kind = .oAuthFlowError
  (exc.raised exc.root).cause.any isOAuth || (exc.raised exc.root).context.any isOAuth

end ExceptionGraph

namespace OutboundClient

/-- `OutboundClient(config)` -/
def new (config : MCPServerConfig) : OutboundClient := { config }

/-- `_SSE_DEFAULT_READ_TIMEOUT_S` -/
def sseDefaultReadTimeout : ℚ := 300

/-- `_build_stdio_client` -/
def buildStdioClient (W : World) (c : OutboundClient) (runtime : MCPServerConfig) : SdkClient where
  transport := .stdio runtime.command runtime.args
    (W.defaultEnvironment.setAll runtime.env.entries)
  mode := c.connectMode

/-- `_build_sse_client` -/
def buildSseClient (runtime : MCPServerConfig) : SdkClient where
  transport := .sse runtime.url (if runtime.headers.size = 0 then none else some runtime.headers)
    sseDefaultReadTimeout
  mode := .auto

/-- `_build_http_client` -/
def buildHttpClient (runtime : MCPServerConfig) : SdkClient :=
  match runtime.auth with
  | .oauth auth => { transport := .oauth runtime.url (OAuth.redirectUri auth) auth, mode := .auto }
  | _ =>
    if runtime.headers.size ≠ 0 then
      { transport := .headers runtime.url runtime.headers, mode := .auto }
    else { transport := .url runtime.url, mode := .auto }

/-- `_build_client` -/
def buildClient (W : World) (c : OutboundClient) (runtime : MCPServerConfig) : SdkClient :=
  match runtime.transport with
  | .stdio => c.buildStdioClient W runtime
  | .sse => buildSseClient runtime
  | .http => buildHttpClient runtime

def commandNotFound (c : OutboundClient) : Failure :=
  .connection s!"Command not found for MCP {c.config.name}"

def initializationFailed (c : OutboundClient) (exc : ExceptionGraph) : Failure :=
  .connection s!"MCP {c.config.name} initialization failed ({exc.typeName})"

def loginRequired (c : OutboundClient) : Failure :=
  .authRequired (s!"OAuth authorization required for MCP {c.config.name}; " ++
    s!"run: slm-hub auth login {c.config.name}")

/-- How `connect` ends, with the client and all handshakes there have been. -/
structure Attempt where
  result : Except Failure Unit
  client : OutboundClient
  handshakes : List SdkClient

/-- `OutboundClient.connect`, but for what it finds out about a server it is connected to. -/
def connect (W : World) (c : OutboundClient) (handshakes : List SdkClient) : Attempt :=
  if c.connected then ⟨.ok (), c, handshakes⟩
  else
    match materializeServerConfig W.runtime W.environ c.config with
    | .error error => ⟨.error (.config error), c, handshakes⟩
    | .ok runtime =>
      let sdk := c.buildClient W runtime
      match W.construct sdk with
      | some exc =>
        match exc.kind with
        | .fileNotFoundError => ⟨.error c.commandNotFound, c, handshakes⟩
        | .baseException => ⟨.error (.raised exc), c, handshakes⟩
        | _ => ⟨.error (c.initializationFailed exc), c, handshakes⟩
      | none =>
        let made := handshakes ++ [sdk]
        match W.enter handshakes.length sdk with
        | none => ⟨.ok (), { c with connected := true }, made⟩
        | some exc =>
          match exc.kind with
          | .oAuthFlowError => ⟨.error c.loginRequired, { c with authRequired := true }, made⟩
          | .fileNotFoundError => ⟨.error c.commandNotFound, c, made⟩
          | .osError => ⟨.error (c.initializationFailed exc), c, made⟩
          | .baseException => ⟨.error (.raised exc), c, made⟩
          | .exception =>
            if exc.chainsOAuth then
              ⟨.error c.loginRequired, { c with authRequired := true }, made⟩
            else if _h : c.connectMode = .auto ∧ exc.isDiscoverProbeRejection = true then
              connect W { c with connectMode := .legacy } made
            else ⟨.error (c.initializationFailed exc), c, made⟩
termination_by if c.connectMode = .auto then 1 else 0
decreasing_by simp [_h.1]

end OutboundClient

/-! ### One backend -/

/-- `MCPConnection` -/
structure Connection where
  config : MCPServerConfig
  state : ConnectionState := .disconnected
  outbound : Option OutboundClient := none

namespace Connection

/-- `MCPConnection.connect`, with the handshakes before and after it. -/
def connect (W : World) (x : Connection) (handshakes : List SdkClient) :
    Connection × List SdkClient :=
  if x.state = .connected then (x, handshakes)
  else
    let attempt := (OutboundClient.new x.config).connect W handshakes
    match attempt.result with
    | .ok () =>
      ({ x with state := .connected, outbound := some attempt.client }, attempt.handshakes)
    | .error (.authRequired _) => ({ x with state := .authRequired }, attempt.handshakes)
    | .error (.connection _) => ({ x with state := .error }, attempt.handshakes)
    | .error (.config _) => ({ x with state := .error }, attempt.handshakes)
    | .error (.raised _) => ({ x with state := .connecting }, attempt.handshakes)

/-- `MCPConnection.disconnect`; so ends `drain_and_disconnect` too. -/
def disconnect (x : Connection) : Connection :=
  { x with state := .disconnected, outbound := none }

end Connection

/-- A backend of the hub: its entry in the table of connections, and all its handshakes. -/
structure Backend where
  connection : Option Connection := none
  handshakes : List SdkClient := []

/-- What is done to a backend. -/
inductive Operation where
  /-- `_connect_timed`, at the start of the hub or of the backend -/
  | connectTimed
  /-- `ConnectionManager.reconnect` -/
  | reconnect
  /-- `ensure_connected` -/
  | ensureConnected
  /-- `MCPConnection.connect`, by a supervisor -/
  | connect
  /-- `MCPConnection.disconnect` -/
  | disconnect
  /-- `disconnect_one` -/
  | disconnectOne
  | evict
  deriving DecidableEq

namespace Backend

/-- Whether the backend is live. -/
def isConnected (s : Backend) : Bool := s.connection.any fun x => x.state = .connected

variable (W : World) (cfg : MCPServerConfig)

/-- `_connect_timed`: a connection is made and stored, and it connects. -/
def connectTimed (s : Backend) : Backend :=
  let (x, handshakes) := Connection.connect W { config := cfg } s.handshakes
  { connection := some x, handshakes }

/-- One operation, from its beginning to its end. -/
def step (s : Backend) : Operation → Backend
  | .connectTimed => s.connectTimed W cfg
  | .reconnect =>
    if s.isConnected then
      connectTimed W cfg { s with connection := s.connection.map Connection.disconnect }
    else s.connectTimed W cfg
  | .ensureConnected => if s.isConnected then s else s.connectTimed W cfg
  | .connect =>
    match s.connection with
    | none => s
    | some x =>
      let (x, handshakes) := x.connect W s.handshakes
      { connection := some x, handshakes }
  | .disconnect => { s with connection := s.connection.map Connection.disconnect }
  | .disconnectOne => { s with connection := none }
  | .evict =>
    if cfg.isPinned then s else { s with connection := s.connection.map Connection.disconnect }

/-- A run. -/
def run (ops : List Operation) : Backend := ops.foldl (step W cfg) {}

theorem run_concat (ops : List Operation) (op : Operation) :
    run W cfg (ops ++ [op]) = (run W cfg ops).step W cfg op := by
  rw [run, List.foldl_append, List.foldl_cons, List.foldl_nil, run]

end Backend

/-- The operation is to leave the backend connected. -/
def Backend.connects (s : Backend) : Operation → Bool
  | .connectTimed | .reconnect | .ensureConnected => true
  | .connect => s.connection.isSome
  | .disconnect | .disconnectOne | .evict => false

/-- **One probe for the whole run**: at most one handshake is in mode `auto`, and each operation
that is to leave the backend connected does so with at most two handshakes. -/
structure Pinned (W : World) (cfg : MCPServerConfig) (ops : List Operation) : Prop where
  probes : (Backend.run W cfg ops).handshakes.countP (·.mode = .auto) ≤ 1
  connects : ∀ before op after, ops = before ++ op :: after →
    (Backend.run W cfg before).connects op = true →
      (Backend.run W cfg (before ++ [op])).isConnected = true ∧
        (Backend.run W cfg (before ++ [op])).handshakes.length ≤
          (Backend.run W cfg before).handshakes.length + 2

/-- The server closes the connection whenever it is asked for its era, and takes the handshake of
before. -/
structure ClosesOnProbe (W : World) : Prop where
  construct : ∀ sdk, W.construct sdk = none
  probe : ∀ n sdk, sdk.mode = .auto → ∃ exc, W.enter n sdk = some exc ∧ exc.kind = .exception ∧
    exc.chainsOAuth = false ∧ exc.isDiscoverProbeRejection = true
  legacy : ∀ n sdk, sdk.mode = .legacy → W.enter n sdk = none

/-! ### How often a run connects -/

/-- Where a backend is that connects whenever it is asked to. -/
inductive Status where
  | absent
  | down
  | up
  deriving DecidableEq

namespace Status

/-- The operation finds the backend not connected, and connects it. -/
def opens : Status → Operation → Bool
  | _, .connectTimed | _, .reconnect => true
  | s, .ensureConnected => s ≠ .up
  | s, .connect => s = .down
  | _, _ => false

/-- Where the operation leaves the backend. -/
def next (pinned : Bool) : Status → Operation → Status
  | _, .connectTimed | _, .reconnect | _, .ensureConnected => .up
  | s, .connect => if s = .absent then .absent else .up
  | s, .disconnect => if s = .absent then .absent else .down
  | _, .disconnectOne => .absent
  | s, .evict => if pinned || s = .absent then s else .down

end Status

/-- Where a run leaves the backend, and how often it has connected it. -/
def tally (pinned : Bool) (ops : List Operation) : Status × ℕ :=
  ops.foldl (fun s op => (s.1.next pinned op, s.2 + if s.1.opens op then 1 else 0)) (.absent, 0)

/-- How often a run connects. -/
def attempts (cfg : MCPServerConfig) (ops : List Operation) : ℕ := (tally cfg.isPinned ops).2

theorem tally_concat (pinned : Bool) (ops : List Operation) (op : Operation) :
    tally pinned (ops ++ [op]) = ((tally pinned ops).1.next pinned op,
      (tally pinned ops).2 + if (tally pinned ops).1.opens op then 1 else 0) := by
  rw [tally, List.foldl_append, List.foldl_cons, List.foldl_nil, ← tally]

theorem attempts_le_append (cfg : MCPServerConfig) (before after : List Operation) :
    attempts cfg before ≤ attempts cfg (before ++ after) := by
  induction after using List.reverseRecOn with
  | nil => rw [List.append_nil]
  | append_singleton after op ih =>
    rw [← List.append_assoc, attempts, attempts, tally_concat]
    exact ih.trans (Nat.le_add_right _ _)

/-! ### What an attempt does -/

theorem transport_materializeServerConfig {R : Runtime} {environ : String → Option String}
    {cfg runtime : MCPServerConfig} (h : materializeServerConfig R environ cfg = .ok runtime) :
    runtime.transport = cfg.transport := by
  obtain ⟨_, -, h⟩ := Checked.bind_eq_ok_iff.mp h
  cases h
  rfl

namespace OutboundClient

variable {W : World} {c : OutboundClient} {cfg runtime : MCPServerConfig}

theorem mode_buildHttpClient : (buildHttpClient runtime).mode = .auto := by
  rw [buildHttpClient]
  split
  · rfl
  · split <;> rfl

/-- The mode is looked at for `stdio` only. -/
theorem mode_buildClient :
    (c.buildClient W runtime).mode =
      if runtime.transport = .stdio then c.connectMode else .auto := by
  cases ht : runtime.transport with
  | stdio => simp only [buildClient, ht, buildStdioClient, if_true]
  | sse => simp only [buildClient, ht, buildSseClient, reduceCtorEq, if_false]
  | http => simp only [buildClient, ht, mode_buildHttpClient, reduceCtorEq, if_false]

variable (hW : ClosesOnProbe W) (hfree : c.connected = false) (hconfig : c.config = cfg)
  (hruntime : materializeServerConfig W.runtime W.environ cfg = .ok runtime)
  (handshakes : List SdkClient)
include hW hfree hconfig hruntime

theorem connect_of_legacy (hmode : (c.buildClient W runtime).mode = .legacy) :
    c.connect W handshakes =
      ⟨.ok (), { c with connected := true }, handshakes ++ [c.buildClient W runtime]⟩ := by
  rw [connect, if_neg (by rw [hfree]; exact Bool.false_ne_true), hconfig, hruntime]
  simp only [hW.construct, hW.legacy _ _ hmode]

/-- The first attempt with a probe makes a second one. -/
theorem connect_of_auto (hmode : (c.buildClient W runtime).mode = .auto)
    (hauto : c.connectMode = .auto) :
    c.connect W handshakes =
      connect W { c with connectMode := .legacy } (handshakes ++ [c.buildClient W runtime]) := by
  obtain ⟨exc, hexc, hkind, hchain, hclosed⟩ := hW.probe handshakes.length _ hmode
  rw [connect, if_neg (by rw [hfree]; exact Bool.false_ne_true), hconfig, hruntime]
  simp only [hW.construct, hexc, hkind, hchain, Bool.false_eq_true, if_false]
  rw [dif_pos ⟨hauto, hclosed⟩]

/-- The second attempt with a probe is the last one. -/
theorem connect_of_probe (hmode : (c.buildClient W runtime).mode = .auto)
    (hlegacy : c.connectMode = .legacy) : ∃ exc, c.connect W handshakes =
      ⟨.error (c.initializationFailed exc), c, handshakes ++ [c.buildClient W runtime]⟩ := by
  obtain ⟨exc, hexc, hkind, hchain, -⟩ := hW.probe handshakes.length _ hmode
  refine ⟨exc, ?_⟩
  rw [connect, if_neg (by rw [hfree]; exact Bool.false_ne_true), hconfig, hruntime]
  simp only [hW.construct, hexc, hkind, hchain, Bool.false_eq_true, if_false]
  rw [dif_neg (by rw [hlegacy]; exact nofun)]

end OutboundClient

/-! ### Where a run is -/

/-- The backend is where the status says. -/
structure Follows (cfg : MCPServerConfig) (st : Status) (s : Backend) : Prop where
  absent : st = .absent ↔ s.connection = none
  up : st = .up ↔ s.isConnected = true
  config : ∀ x, s.connection = some x → x.config = cfg

/-- What an operation adds to the handshakes. -/
def Adds (W : World) (cfg : MCPServerConfig) (s : Backend) (op : Operation) (probes : ℕ) : Prop :=
  ∃ made, (s.step W cfg op).handshakes = s.handshakes ++ made ∧ made.length ≤ 2 ∧
    made.countP (·.mode = .auto) = probes

section Follows

variable {W : World} {cfg : MCPServerConfig} {st : Status} {s : Backend}

theorem follows_absent (handshakes : List SdkClient) :
    Follows cfg .absent { connection := none, handshakes } where
  absent := by simp
  up := by simp [Backend.isConnected]
  config := by simp

theorem follows_down {x : Connection} (hx : x.config = cfg) (hdown : x.state ≠ .connected)
    (handshakes : List SdkClient) : Follows cfg .down { connection := some x, handshakes } where
  absent := by simp
  up := by simp [Backend.isConnected, hdown]
  config := by simp [hx]

theorem follows_up {x : Connection} (hx : x.config = cfg) (hup : x.state = .connected)
    (handshakes : List SdkClient) : Follows cfg .up { connection := some x, handshakes } where
  absent := by simp
  up := by simp [Backend.isConnected, hup]
  config := by simp [hx]

/-- A backend that is taken down is absent or down. -/
theorem Follows.disconnect (h : Follows cfg st s) :
    Follows cfg (if st = .absent then .absent else .down)
      { s with connection := s.connection.map Connection.disconnect } := by
  cases hconn : s.connection with
  | none =>
    rw [if_pos (h.absent.mpr hconn)]
    exact follows_absent _
  | some x =>
    have hst : st ≠ .absent := fun hst => by
      rw [h.absent.mp hst] at hconn
      cases hconn
    rw [if_neg hst]
    refine follows_down (x := x.disconnect) ?_ ?_ s.handshakes
    · exact h.config x hconn
    · simp [Connection.disconnect]

theorem adds_nothing {op : Operation} (h : (s.step W cfg op).handshakes = s.handshakes) :
    Adds W cfg s op 0 :=
  ⟨[], by rw [h, List.append_nil], Nat.zero_le _, rfl⟩

/-- An operation that does nothing. -/
theorem Follows.stay (h : Follows cfg st s) {op : Operation} (hstep : s.step W cfg op = s) :
    Follows cfg st (s.step W cfg op) ∧ Adds W cfg s op 0 := by
  refine ⟨?_, adds_nothing ?_⟩
  · rw [hstep]
    exact h
  · rw [hstep]

end Follows

/-! ### What a connection does -/

section Runs

variable {W : World} {cfg runtime : MCPServerConfig} (hW : ClosesOnProbe W)
  (hruntime : materializeServerConfig W.runtime W.environ cfg = .ok runtime)
include hW hruntime

/-- Over `stdio` there is one handshake with a probe and one without, and the backend is live. -/
theorem connect_stdio (ht : cfg.transport = .stdio) {x : Connection} (hx : x.config = cfg)
    (hdown : x.state ≠ .connected) (handshakes : List SdkClient) : ∃ probe retried,
      probe.mode = .auto ∧ retried.mode = .legacy ∧
        (x.connect W handshakes).1.state = .connected ∧ (x.connect W handshakes).1.config = cfg ∧
          (x.connect W handshakes).2 = handshakes ++ [probe, retried] := by
  have htransport := (transport_materializeServerConfig hruntime).trans ht
  have hprobe : ((OutboundClient.new cfg).buildClient W runtime).mode = .auto := by
    rw [OutboundClient.mode_buildClient, if_pos htransport, OutboundClient.new]
  generalize hc : OutboundClient.new cfg = c at hprobe
  have hfree : c.connected = false := by rw [← hc, OutboundClient.new]
  have hauto : c.connectMode = .auto := by rw [← hc, OutboundClient.new]
  have hconfig : c.config = cfg := by rw [← hc, OutboundClient.new]
  have hretried : (OutboundClient.buildClient W { c with connectMode := .legacy } runtime).mode =
      .legacy := by
    rw [OutboundClient.mode_buildClient, if_pos htransport]
  have hattempt := (OutboundClient.connect_of_auto hW hfree hconfig hruntime handshakes hprobe
    hauto).trans (OutboundClient.connect_of_legacy (c := { c with connectMode := .legacy }) hW hfree
    hconfig hruntime _ hretried)
  refine ⟨_, _, hprobe, hretried, ?_⟩
  rw [Connection.connect, if_neg hdown, hx, hc]
  simp only [hattempt, List.append_assoc, List.cons_append, List.nil_append]
  exact ⟨trivial, trivial, trivial⟩

/-- Over anything else both handshakes are with a probe, and the backend is not live. -/
theorem connect_other (ht : cfg.transport ≠ .stdio) {x : Connection} (hx : x.config = cfg)
    (hdown : x.state ≠ .connected) (handshakes : List SdkClient) :
    (x.connect W handshakes).1.state = .error := by
  have hmode : ∀ c : OutboundClient, (c.buildClient W runtime).mode = .auto := by
    intro c
    rw [OutboundClient.mode_buildClient,
      if_neg ((transport_materializeServerConfig hruntime).trans_ne ht)]
  generalize hc : OutboundClient.new cfg = c
  have hfree : c.connected = false := by rw [← hc, OutboundClient.new]
  have hauto : c.connectMode = .auto := by rw [← hc, OutboundClient.new]
  have hconfig : c.config = cfg := by rw [← hc, OutboundClient.new]
  obtain ⟨exc, hexc⟩ := OutboundClient.connect_of_probe (c := { c with connectMode := .legacy })
    hW hfree hconfig hruntime (handshakes ++ [c.buildClient W runtime]) (hmode _) rfl
  have hattempt := (OutboundClient.connect_of_auto hW hfree hconfig hruntime handshakes (hmode c)
    hauto).trans hexc
  rw [Connection.connect, if_neg hdown, hx, hc]
  simp only [hattempt, OutboundClient.initializationFailed]

/-! ### Runs over `stdio` -/

/-- An attempt leaves the backend live, and has made two handshakes. -/
theorem attempt_stdio (ht : cfg.transport = .stdio) {x : Connection} (hx : x.config = cfg)
    (hdown : x.state ≠ .connected) {s : Backend} {op : Operation}
    (hstep : s.step W cfg op = { connection := some (x.connect W s.handshakes).1
                                 handshakes := (x.connect W s.handshakes).2 }) :
    Follows cfg .up (s.step W cfg op) ∧ Adds W cfg s op 1 := by
  obtain ⟨probe, retried, hprobe, hretried, hup, hconfig, hmade⟩ :=
    connect_stdio hW hruntime ht hx hdown s.handshakes
  refine ⟨?_, [probe, retried], ?_, Nat.le_refl _, ?_⟩
  · rw [hstep]
    exact follows_up hconfig hup _
  · rw [hstep, hmade]
  · simp [hprobe, hretried]

/-- A new connection is such an attempt. -/
theorem connectTimed_stdio (ht : cfg.transport = .stdio) {s : Backend} {op : Operation}
    (hstep : s.step W cfg op = s.connectTimed W cfg) :
    Follows cfg .up (s.step W cfg op) ∧ Adds W cfg s op 1 := by
  refine attempt_stdio hW hruntime ht (x := { config := cfg }) rfl nofun ?_
  rw [hstep, Backend.connectTimed]

/-- `MCPConnection.connect`, by a supervisor: nothing without a connection or with one that is live,
and else an attempt. -/
theorem step_connect_stdio (ht : cfg.transport = .stdio) {st : Status} {s : Backend}
    (h : Follows cfg st s) : Follows cfg (st.next cfg.isPinned .connect) (s.step W cfg .connect) ∧
      Adds W cfg s .connect (if st.opens .connect then 1 else 0) := by
  cases hconn : s.connection with
  | none =>
    have hstep : s.step W cfg .connect = s := by rw [Backend.step, hconn]
    obtain rfl := h.absent.mpr hconn
    exact h.stay hstep
  | some x =>
    have hst : st ≠ .absent := fun hst => by
      rw [h.absent.mp hst] at hconn
      cases hconn
    have hstep : s.step W cfg .connect = { connection := some (x.connect W s.handshakes).1
                                           handshakes := (x.connect W s.handshakes).2 } := by
      rw [Backend.step, hconn]
    have hlive : s.isConnected = decide (x.state = .connected) := by
      rw [Backend.isConnected, hconn, Option.any_some]
    rw [Status.next, if_neg hst, Status.opens]
    by_cases hup : x.state = .connected
    · obtain rfl := h.up.mpr (hlive.trans (decide_eq_true hup))
      rw [Connection.connect, if_pos hup] at hstep
      have hsame : s.step W cfg .connect = s := by rw [hstep, ← hconn]
      exact h.stay hsame
    · have hdown : st = .down := by
        cases st with
        | absent => exact absurd rfl hst
        | down => rfl
        | up => exact absurd (of_decide_eq_true (hlive.symm.trans (h.up.mp rfl))) hup
      rw [decide_eq_true hdown, if_pos rfl]
      exact attempt_stdio hW hruntime ht (h.config x hconn) hup hstep

/-- **One operation.** -/
theorem step_stdio (ht : cfg.transport = .stdio) {st : Status} {s : Backend}
    (h : Follows cfg st s) (op : Operation) :
    Follows cfg (st.next cfg.isPinned op) (s.step W cfg op) ∧
      Adds W cfg s op (if st.opens op then 1 else 0) := by
  cases op with
  | connectTimed => exact connectTimed_stdio hW hruntime ht rfl
  | reconnect =>
    cases hconn : s.isConnected with
    | false =>
      refine connectTimed_stdio hW hruntime ht ?_
      rw [Backend.step, hconn, if_neg Bool.false_ne_true]
    | true =>
      refine attempt_stdio hW hruntime ht (x := { config := cfg }) rfl nofun ?_
      rw [Backend.step, hconn, if_pos rfl, Backend.connectTimed]
  | ensureConnected =>
    cases hconn : s.isConnected with
    | false =>
      have hst : st ≠ .up := fun hst => by
        rw [h.up.mp hst] at hconn
        cases hconn
      rw [Status.next, Status.opens, decide_eq_true hst, if_pos rfl]
      refine connectTimed_stdio hW hruntime ht ?_
      rw [Backend.step, hconn, if_neg Bool.false_ne_true]
    | true =>
      have hstep : s.step W cfg .ensureConnected = s := by rw [Backend.step, hconn, if_pos rfl]
      obtain rfl := h.up.mpr hconn
      exact h.stay hstep
  | connect => exact step_connect_stdio hW hruntime ht h
  | disconnect => exact ⟨h.disconnect, adds_nothing rfl⟩
  | disconnectOne =>
    exact ⟨follows_absent _, adds_nothing rfl⟩
  | evict =>
    rw [Status.next]
    cases hpin : cfg.isPinned with
    | true =>
      have hstep : s.step W cfg .evict = s := by rw [Backend.step, hpin, if_pos rfl]
      exact h.stay hstep
    | false =>
      have hstep : s.step W cfg .evict =
          { s with connection := s.connection.map Connection.disconnect } := by
        rw [Backend.step, hpin, if_neg Bool.false_ne_true]
      refine ⟨?_, adds_nothing (by rw [hstep])⟩
      rw [hstep, Bool.false_or]
      convert h.disconnect using 1
      cases st <;> rfl

/-- **A run over `stdio`**: there has been one probe for each attempt. -/
theorem run_stdio (ht : cfg.transport = .stdio) (ops : List Operation) :
    Follows cfg (tally cfg.isPinned ops).1 (Backend.run W cfg ops) ∧
      (Backend.run W cfg ops).handshakes.countP (·.mode = .auto) = attempts cfg ops := by
  induction ops using List.reverseRecOn with
  | nil => exact ⟨follows_absent [], rfl⟩
  | append_singleton ops op ih =>
    obtain ⟨hfollows, hcount⟩ := ih
    obtain ⟨hnext, made, hmade, -, hprobes⟩ := step_stdio hW hruntime ht hfollows op
    rw [attempts, tally_concat, Backend.run_concat]
    refine ⟨hnext, ?_⟩
    rw [hmade, List.countP_append, hcount, hprobes, attempts]

/-- Over `stdio` each operation that is to connect the backend does, with two handshakes at most. -/
theorem connects_stdio (ht : cfg.transport = .stdio) (before : List Operation) {op : Operation}
    (hop : (Backend.run W cfg before).connects op = true) :
    (Backend.run W cfg (before ++ [op])).isConnected = true ∧
      (Backend.run W cfg (before ++ [op])).handshakes.length ≤
        (Backend.run W cfg before).handshakes.length + 2 := by
  obtain ⟨hfollows, -⟩ := run_stdio hW hruntime ht before
  obtain ⟨hnext, made, hmade, hlength, -⟩ := step_stdio hW hruntime ht hfollows op
  rw [Backend.run_concat]
  refine ⟨hnext.up.mp ?_, ?_⟩
  · cases op with
    | connectTimed | reconnect | ensureConnected => rfl
    | connect =>
      refine if_neg fun habsent => ?_
      rw [Backend.connects, hfollows.absent.mp habsent] at hop
      cases hop
    | disconnect | disconnectOne | evict => cases hop
  · rw [hmade, List.length_append]
    omega

omit hW hruntime

/-! ### Runs over anything else -/

/-- Before the first attempt there is nothing. -/
theorem run_of_attempts_eq_zero {ops : List Operation} (h : attempts cfg ops = 0) :
    (tally cfg.isPinned ops).1 = .absent ∧ Backend.run W cfg ops = {} := by
  induction ops using List.reverseRecOn with
  | nil => exact ⟨rfl, rfl⟩
  | append_singleton ops op ih =>
    rw [attempts, tally_concat] at h
    obtain ⟨hbefore, hop⟩ := Nat.add_eq_zero_iff.mp h
    obtain ⟨hst, hrun⟩ := ih hbefore
    rw [hst] at hop
    rw [tally_concat, Backend.run_concat, hst, hrun]
    cases op with
    | connectTimed | reconnect | ensureConnected => cases hop
    | connect | disconnect | disconnectOne => exact ⟨rfl, rfl⟩
    | evict =>
      cases hpin : cfg.isPinned with
      | true => simp [Status.next, Backend.step, hpin]
      | false => simp [Status.next, Backend.step, hpin]

include hW hruntime

/-- Over anything else the first attempt leaves the backend not live. -/
theorem first_attempt_other (ht : cfg.transport ≠ .stdio) {before : List Operation} {op : Operation}
    (hbefore : attempts cfg before = 0) (hop : attempts cfg (before ++ [op]) ≠ 0) :
    (Backend.run W cfg before).connects op = true ∧
      (Backend.run W cfg (before ++ [op])).isConnected = false := by
  obtain ⟨hst, hrun⟩ := run_of_attempts_eq_zero (W := W) hbefore
  have hfails : (Backend.connectTimed W cfg {}).isConnected = false := by
    have hx := connect_other hW hruntime ht (x := { config := cfg }) rfl nofun []
    rw [Backend.connectTimed, Backend.isConnected, Option.any_some, hx]
    rfl
  rw [attempts, tally_concat, hst] at hop
  rw [Backend.run_concat, hrun]
  cases op with
  | connectTimed | reconnect | ensureConnected => exact ⟨rfl, hfails⟩
  | connect | disconnect | disconnectOne | evict => exact absurd hbefore hop

/-- A run with an attempt has a first one. -/
theorem exists_first_attempt_other (ht : cfg.transport ≠ .stdio) {ops : List Operation}
    (h : attempts cfg ops ≠ 0) : ∃ before op after, ops = before ++ op :: after ∧
      (Backend.run W cfg before).connects op = true ∧
        (Backend.run W cfg (before ++ [op])).isConnected = false := by
  induction ops using List.reverseRecOn with
  | nil => exact absurd rfl h
  | append_singleton ops op ih =>
    by_cases hbefore : attempts cfg ops = 0
    · exact ⟨ops, op, [], rfl, first_attempt_other hW hruntime ht hbefore h⟩
    · obtain ⟨before, first, after, rfl, hfirst⟩ := ih hbefore
      exact ⟨before, first, after ++ [op], by simp, hfirst⟩

/-! ### The whole run -/

/-- **A run is pinned to the handshake of before** just when it connects at most once over `stdio`,
and not at all over anything else. -/
theorem pinned_iff (ops : List Operation) :
    Pinned W cfg ops ↔ attempts cfg ops ≤ if cfg.transport = .stdio then 1 else 0 := by
  by_cases ht : cfg.transport = .stdio
  · rw [if_pos ht, ← (run_stdio hW hruntime ht ops).2]
    refine ⟨Pinned.probes, fun h => ⟨h, fun before op after _ hop => ?_⟩⟩
    exact connects_stdio hW hruntime ht before hop
  · rw [if_neg ht, Nat.le_zero]
    refine ⟨fun h => ?_, fun h => ?_⟩
    · by_contra hattempts
      obtain ⟨before, op, after, rfl, hop, hfailed⟩ :=
        exists_first_attempt_other hW hruntime ht hattempts
      have hup := (h.connects before op after rfl hop).1
      rw [hfailed] at hup
      cases hup
    · refine ⟨?_, fun before op after hops hop => ?_⟩
      · rw [(run_of_attempts_eq_zero h).2]
        exact Nat.zero_le 1
      · -- no operation of the run is to connect the backend
        have hprefix := attempts_le_append cfg (before ++ [op]) after
        rw [List.append_assoc, List.singleton_append, ← hops, h, Nat.le_zero, attempts,
          tally_concat] at hprefix
        obtain ⟨hbefore, hopens⟩ := Nat.add_eq_zero_iff.mp hprefix
        obtain ⟨hst, hrun⟩ := run_of_attempts_eq_zero (W := W) hbefore
        rw [hst] at hopens
        rw [hrun] at hop
        cases op with
        | connectTimed | reconnect | ensureConnected => cases hopens
        | connect | disconnect | disconnectOne | evict => cases hop

end Runs

/-! ### A server that closes the connection -/

/-- `MCPError("Connection closed")` -/
def connectionClosed : ExceptionGraph where
  size := 1
  raised _ :=
    { kind := .exception, typeName := "MCPError", message := "Connection closed" }
  root := 0

/-- A server that closes the connection on the probe. -/
def strictWorld : World where
  runtime := plainRuntime
  environ _ := none
  defaultEnvironment := .empty
  construct _ := none
  enter _ sdk := if sdk.mode = .auto then some connectionClosed else none

theorem closesOnProbe_strictWorld : ClosesOnProbe strictWorld where
  construct _ := rfl
  probe _ sdk h := ⟨connectionClosed, if_pos h, rfl, rfl, by decide +kernel⟩
  legacy _ sdk h := if_neg (by rw [h]; exact nofun)

theorem materialize_fs :
    materializeServerConfig strictWorld.runtime strictWorld.environ
      { name := "fs", command := "fs-mcp" } = .ok { name := "fs", command := "fs-mcp" } := by rfl

theorem materialize_web :
    materializeServerConfig strictWorld.runtime strictWorld.environ
        { name := "web", transport := .http, url := "https://a.example/mcp" } =
      .ok { name := "web", transport := .http, url := "https://a.example/mcp" } := by rfl

/-- A run that connects twice over `stdio` is one too many, and so is one over `http`. -/
theorem not_pinned_of_reconnect :
    ¬ Pinned strictWorld { name := "fs", command := "fs-mcp" }
        [.connectTimed, .evict, .ensureConnected] ∧
      ¬ Pinned strictWorld { name := "web", transport := .http, url := "https://a.example/mcp" }
        [.connectTimed] := by
  refine ⟨fun h => ?_, fun h => ?_⟩
  · have hprobes := h.probes
    rw [(run_stdio closesOnProbe_strictWorld materialize_fs rfl _).2] at hprobes
    exact absurd hprobes (by decide)
  · have hup := (h.connects [] .connectTimed [] rfl rfl).1
    rw [(first_attempt_other closesOnProbe_strictWorld materialize_web (by decide) rfl
      (by decide)).2] at hup
    cases hup

/-- An empty run, and one over `stdio`. -/
theorem pinned_iff_fs :
    Pinned strictWorld { name := "fs", command := "fs-mcp" } [.connectTimed, .evict] :=
  (pinned_iff closesOnProbe_strictWorld materialize_fs _).mpr (by decide)

end Outbound

end SlmMcpHub
