import SlmMcpHub.Federation.Hub

/-!
# What the acts write

One function and one lemma for each field of the state that an invariant speaks about: which acts
write it, and what they leave in it. Nothing else about the acts is used later on.
-/

namespace SlmMcpHub

namespace Act

variable (s : Hub) (a : Act)

/-- What an act leaves in `config.mcpServers`. -/
def servers : Act → List MCPServerConfig
  | .setServers servers => servers
  | _ => s.config.mcpServers

/-- What an act leaves in `connections`. -/
def connections : Act → Dict String ConnRef
  | .storeConnection x => s.connections.set x.name x
  | .popConnection name => s.connections.erase name
  | .closeAll => .empty
  | _ => s.connections

/-- What an act leaves in `nextConn`. -/
def nextConn : Act → ℕ
  | .storeConnection _ => s.nextConn + 1
  | _ => s.nextConn

/-- What an act leaves in `nextRequest`. -/
def nextRequest : Act → ℕ
  | .beginRequest _ _ => s.nextRequest + 1
  | _ => s.nextRequest

/-- What an act leaves in `evictedCaps`. -/
def evictedCaps : Act → Dict String Capabilities
  | .connectReturned x => s.evictedCaps.erase x.name
  | .popEvictedCaps name => s.evictedCaps.erase name
  | .cacheCapabilities name =>
    match s.connections.get? name with
    | none => s.evictedCaps
    | some x => s.evictedCaps.set name (s.conn x).capabilities
  | .closeAll => .empty
  | _ => s.evictedCaps

/-- What an act leaves in `registry`. -/
def registry : Act → Registry
  | .closeAll => .empty
  | .syncRegistry => (s.registry.sync s.syncedMap).1
  | _ => s.registry

/-- What an act leaves in `lastActivity`. -/
def lastActivity : Act → Dict String ℚ
  | .connectReturned x =>
    if s.lastActivity.contains x.name then s.lastActivity else s.lastActivity.set x.name s.now
  | .markActivity name => s.lastActivity.set name s.now
  | .markCompleted name => s.lastActivity.set name s.now
  | .forget name => s.lastActivity.erase name
  | _ => s.lastActivity

/-- What an act leaves in the state of a connection. -/
def connState (id : ℕ) : Act → ConnectionState
  | .transition x target _ => if id = x.id then target else (s.conns id).state
  | .establish x _ => if id = x.id then .connected else (s.conns id).state
  | .storeConnection x => if id = x.id then .disconnected else (s.conns id).state
  | _ => (s.conns id).state

/-- What an act leaves in the capabilities of a connection. -/
def connCaps (id : ℕ) : Act → Capabilities
  | .establish x caps => if id = x.id then caps else (s.conns id).capabilities
  | .storeConnection x => if id = x.id then {} else (s.conns id).capabilities
  | _ => (s.conns id).capabilities

/-- What an act leaves in the requests a connection has in flight. -/
def connInFlight (id : ℕ) : Act → List ℕ
  | .beginRequest x n => if id = x.id then n :: (s.conns id).inFlight else (s.conns id).inFlight
  | .endRequest x n =>
    if id = x.id then (s.conns id).inFlight.erase n else (s.conns id).inFlight
  | .storeConnection x => if id = x.id then [] else (s.conns id).inFlight
  | _ => (s.conns id).inFlight

/-- What an act leaves in the state as a whole. -/
structure Writes (s' : Hub) : Prop where
  config : s'.config = { s.config with mcpServers := a.servers s }
  connections : s'.connections = a.connections s
  nextConn : s'.nextConn = a.nextConn s
  nextRequest : s'.nextRequest = a.nextRequest s
  evictedCaps : s'.evictedCaps = a.evictedCaps s
  registry : s'.registry = a.registry s
  lastActivity : s'.lastActivity = a.lastActivity s
  now : s'.now = s.now
  notifierAttached : s'.notifierAttached = s.notifierAttached

theorem writes_eval : Writes s a (a.eval s) := by
  cases a <;>
    simp only [eval, apply, Hub.transition, Hub.modifyConn, Hub.modifySup, Hub.newEvent,
      Hub.seedActivity] <;>
    constructor <;> rfl

theorem config_eval : (a.eval s).config = { s.config with mcpServers := a.servers s } :=
  (writes_eval s a).config

theorem connections_eval : (a.eval s).connections = a.connections s := (writes_eval s a).connections

theorem nextConn_eval : (a.eval s).nextConn = a.nextConn s := (writes_eval s a).nextConn

theorem nextRequest_eval : (a.eval s).nextRequest = a.nextRequest s :=
  (writes_eval s a).nextRequest

theorem evictedCaps_eval : (a.eval s).evictedCaps = a.evictedCaps s := (writes_eval s a).evictedCaps

theorem registry_eval : (a.eval s).registry = a.registry s := (writes_eval s a).registry

theorem lastActivity_eval : (a.eval s).lastActivity = a.lastActivity s :=
  (writes_eval s a).lastActivity

theorem now_eval : (a.eval s).now = s.now := (writes_eval s a).now

/-- What is stored after an act was stored before, or is the new connection. -/
theorem get?_connections_eval {s : Hub} {a : Act} {name : String} {x : ConnRef}
    (h : (a.eval s).connections.get? name = some x) :
    s.connections.get? name = some x ∨ a = .storeConnection x ∧ x.name = name := by
  rw [connections_eval] at h
  cases a with
  | storeConnection y =>
    rw [connections, Dict.get?_set] at h
    split at h
    · next hname =>
      obtain rfl := Option.some.inj h
      exact Or.inr ⟨rfl, hname⟩
    · exact Or.inl h
  | popConnection n =>
    rw [connections, Dict.get?_erase] at h
    split at h
    · cases h
    · exact Or.inl h
  | closeAll => cases h
  | _ => exact Or.inl h

/-- One connection has been changed, and the others are as they were. -/
theorem update_apply_ite {β : Type} (conns : ℕ → MCPConnection) (i id : ℕ) (c : MCPConnection)
    (f : MCPConnection → β) :
    f (Function.update conns i c id) = if id = i then f c else f (conns id) := by
  rw [Function.update_apply]
  split <;> rfl

/-- What an act leaves in a connection. -/
structure WritesConn (id : ℕ) (c : MCPConnection) : Prop where
  state : c.state = a.connState s id
  capabilities : c.capabilities = a.connCaps s id
  inFlight : c.inFlight = a.connInFlight s id

theorem writesConn_eval (id : ℕ) : WritesConn s a id ((a.eval s).conns id) := by
  cases a <;> constructor <;>
    simp only [eval, apply, connState, connCaps, connInFlight, Hub.transition, Hub.modifyConn,
      Hub.modifySup, Hub.newEvent, Hub.seedActivity, update_apply_ite, Function.update_idem] <;>
    split <;> simp_all

theorem connState_eval (id : ℕ) : ((a.eval s).conns id).state = a.connState s id :=
  (writesConn_eval s a id).state

/-- A connection that is up after an act was up before, or the act has established it. -/
theorem connState_eq_connected {s : Hub} {a : Act} {id : ℕ}
    (h : ((a.eval s).conns id).state = .connected) :
    (s.conns id).state = .connected ∨ ∃ x caps, a = .establish x caps ∧ id = x.id := by
  rw [connState_eval] at h
  cases a with
  | transition x target ne =>
    rw [connState] at h
    split at h
    · exact absurd h ne
    · exact Or.inl h
  | establish x caps =>
    by_cases hid : id = x.id
    · exact Or.inr ⟨x, caps, rfl, hid⟩
    · rw [connState, if_neg hid] at h
      exact Or.inl h
  | storeConnection x =>
    rw [connState] at h
    split at h
    · cases h
    · exact Or.inl h
  | _ => exact Or.inl h

theorem connCaps_eval (id : ℕ) : ((a.eval s).conns id).capabilities = a.connCaps s id :=
  (writesConn_eval s a id).capabilities

theorem connInFlight_eval (id : ℕ) : ((a.eval s).conns id).inFlight = a.connInFlight s id :=
  (writesConn_eval s a id).inFlight

end Act

end SlmMcpHub
