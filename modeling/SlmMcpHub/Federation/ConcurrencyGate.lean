import SlmMcpHub.Core.Config
import SlmMcpHub.Federation.Signature
import SlmMcpHub.Library.StackDiscipline

/-!
# The concurrency gate

`federation/concurrency.py`, and the two ways a tool call takes to a backend: `_dispatch_call` of
the router, and `_proxy_tool_call` of the proxy endpoint. The gate is built from the configuration
at the start of the hub and has a capacity limiter for each backend that a routed call has asked
for. The proxied calls do not ask for one, and a reload of the configuration does not change the
gate.

A limiter lends a token to a task while it has one left. The call of a backend, with all it takes to
resume a stream, is one wait, and any answer may come at any time.

## Main definitions

* `Gateway`, `startup` — the gate and the configuration
* `routeToolCall`, `proxyToolCall`, `reload` — what clients do, and `gateSystem`
* `Accounted` — the invariant of a limiter
* `Routed` — the runs in which no call of a backend is proxied

## Main results

* `limit_startup` — the gate has the configured caps when the hub starts
* `executing_le` — the calls of a backend that are executing, in these runs
-/

namespace SlmMcpHub

namespace ConcurrencyGate

/-! ### The gate -/

/-- `anyio.CapacityLimiter` -/
structure Limiter where
  totalTokens : ℤ
  borrowers : List TaskId

/-- `DEFAULT_PER_BACKEND_CONCURRENCY` -/
def defaultPerBackendConcurrency : ℤ := 10

/-- The configured servers, and the `BackendConcurrencyGate`: its overrides and its limiters. -/
structure Gateway where
  servers : List MCPServerConfig
  overrides : Dict String ℤ
  gates : Dict String Limiter := .empty

/-- `per_server_overrides` of `HubRuntime` -/
def perServerOverrides (servers : List MCPServerConfig) : List (String × ℤ) :=
  (servers.filter fun srv => srv.maxConcurrency ≠ defaultPerBackendConcurrency).map
    fun srv => (srv.name, srv.maxConcurrency)

/-- What `HubRuntime` starts with. -/
def startup (servers : List MCPServerConfig) : Gateway where
  servers := servers
  overrides := Dict.empty.setAll (perServerOverrides servers)

namespace Gateway

/-- The cap of a new limiter. -/
def limit (s : Gateway) (serverName : String) : ℤ :=
  (s.overrides.get? serverName).getD defaultPerBackendConcurrency

/-- Whether the limiter of a backend has a token left. -/
def hasRoom (s : Gateway) (serverName : String) : Bool :=
  (s.gates.get? serverName).any fun l => l.borrowers.length < l.totalTokens.toNat

end Gateway

/-! ### The tasks -/

/-- The atomic changes of the state. -/
inductive Act where
  /-- `get_or_create` -/
  | getOrCreate (serverName : String)
  /-- The limiter lends a token. -/
  | take (serverName : String)
  /-- It gets the token back. -/
  | release (serverName : String)
  /-- A reload has changed the configured servers. -/
  | setServers (servers : List MCPServerConfig)
  | nop

/-- What a task can be in. -/
inductive Call where
  | routeToolCall (serverName : String)
  | proxyToolCall (serverName : String)
  | reload (servers : List MCPServerConfig)
  -- the sections
  /-- Inside `async with gate`. -/
  | holding (serverName : String)
  /-- The tool call is executing on the connection of the backend. -/
  | executing (serverName : String)

/-- What a task can wait for. -/
inductive Wait where
  | turn
  /-- `_resolve_connection_async` -/
  | resolve
  /-- A token of a limiter. -/
  | slot (serverName : String)
  /-- The answer of the backend. -/
  | backend
  | plugins

/-- The signature of the gate. -/
abbrev gateSignature : Signature := ⟨Gateway, Act, Call, Wait, Except Exc Unit, Empty⟩

/-- Operations around the gate. -/
abbrev GateOp (α : Type) := Op gateSignature Exc α

/-- The state. -/
def get : GateOp Gateway := Op.get (S := gateSignature)

/-- A change of the state. -/
def act (a : Act) : GateOp Unit := Op.act (S := gateSignature) a

/-- Wait, and raise what comes back as an exception. -/
def wait (w : Wait) : GateOp Unit := Coro.await (S := gateSignature) w Coro.ret

/-- An operation inside a section. -/
def inside (enter : Act) (c : Call) (leave : Act) (p : GateOp Unit) : GateOp Unit :=
  Op.within (S := gateSignature) enter c leave p

/-- `try … except Exception` -/
def swallow (p : GateOp Unit) : GateOp Unit :=
  tryCatch p fun e => if e.isException then pure () else throw e

/-- `conn.call_tool` and `run_with_safe_resume` -/
def callBackend (serverName : String) : GateOp Unit :=
  inside .nop (.executing serverName) .nop (wait .backend)

/-- Wait for a token, unless there is one. -/
def awaitSlot (serverName : String) : GateOp Unit := do
  let s ← get
  if s.hasRoom serverName then pure () else wait (.slot serverName)

/-- `async with` the limiter of a backend. -/
def withSlot (serverName : String) (p : GateOp Unit) : GateOp Unit := do
  awaitSlot serverName
  inside (.take serverName) (.holding serverName) (.release serverName) p

/-- `_dispatch_call` -/
def dispatchCall (serverName : String) : GateOp Unit :=
  swallow do
    act (.getOrCreate serverName)
    withSlot serverName (callBackend serverName)

/-- `route_tool_call` and `route_streaming_call`, of a tool of a backend. -/
def routeToolCall (serverName : String) : GateOp Unit := do
  wait .resolve
  dispatchCall serverName

/-- `_proxy_tool_call` -/
def proxyToolCall (serverName : String) : GateOp Unit := do
  swallow (callBackend serverName)
  swallow (wait .plugins)

/-- The configured servers are changed while the hub runs. -/
def reload (servers : List MCPServerConfig) : GateOp Unit := act (.setServers servers)

/-- What an act of a task does. -/
def Act.eval (t : TaskId) (s : Gateway) : Act → Gateway
  | .getOrCreate name =>
    if s.gates.contains name then s else { s with gates := s.gates.set name ⟨s.limit name, []⟩ }
  | .take name =>
    { s with gates := s.gates.modify name fun l => { l with borrowers := t :: l.borrowers } }
  | .release name =>
    { s with gates := s.gates.modify name fun l => { l with borrowers := l.borrowers.erase t } }
  | .setServers servers => { s with servers := servers }
  | .nop => s

/-- Whether a wait can end, and with what. -/
def ready (w : World gateSignature) (t : TaskId) : Wait → Except Exc Unit → Bool
  | .turn, .ok () => !(w.tasks t).requested
  | .slot name, .ok () => !(w.tasks t).requested && Gateway.hasRoom w.state name
  | .turn, .error e | .slot _, .error e => e = .cancelled && (w.tasks t).requested
  | .resolve, _ | .backend, _ | .plugins, _ => true

/-- The program of a task. -/
def Call.program : Call → GateOp Unit
  | .routeToolCall name => ConcurrencyGate.routeToolCall name
  | .proxyToolCall name => ConcurrencyGate.proxyToolCall name
  | .reload servers => ConcurrencyGate.reload servers
  | _ => pure ()

/-- What clients ask for. -/
def isRequest : Call → Bool
  | .routeToolCall _ | .proxyToolCall _ | .reload _ => true
  | _ => false

/-- The hub, as far as tool calls and their gate go. -/
def gateSystem : System gateSignature where
  eval t a s := a.eval t s
  turn := .turn
  ready := ready
  joins _ := []
  body c
    | .ok () => c.program
    | .error e => .ret (.error e)
  again := .ok ()
  client := isRequest
  tick e _ := nomatch e

/-! ### What the statements can count on -/

/-- The stacks of a routed call: before it has a token, and with one. -/
abbrev routing (n : String) : List Call := [.routeToolCall n]

abbrev lent (n : String) : List Call := .holding n :: routing n

/-- How a section is entered. -/
inductive Entry (s : Gateway) : List Call → Act → Call → Prop where
  | slot {n : String} (h : s.hasRoom n = true) : Entry s (routing n) (.take n) (.holding n)
  | routed (n : String) : Entry s (lent n) .nop (.executing n)
  | proxied (n : String) : Entry s [.proxyToolCall n] .nop (.executing n)

/-- How a section is left. -/
inductive Exit : List Call → Act → Prop where
  | slot (n : String) : Exit (lent n) (.release n)
  | call (st : List Call) (n : String) : Exit (.executing n :: st) .nop

/-- What a statement can count on. -/
def guarded (w : World gateSignature) (t : TaskId) : Stmt gateSignature → Prop
  | .act (.getOrCreate _) | .act (.setServers _) => True
  | .push a c => Entry w.state (w.tasks t).stack a c
  | .pop a => Exit (w.tasks t).stack a
  | _ => False

/-- The state needs no invariant for that. -/
abbrev anyState : Gateway → Prop := fun _ => True

section Contracts

/-- The contract of an operation run with the stack `st`. -/
abbrev Guards (st : List Call) (p : GateOp Unit) : Prop :=
  Op.Keeps gateSystem guarded anyState st p

variable {st : List Call} {t : TaskId} {w : World gateSignature} {n : String}

theorem guards_wait (wt : Wait) : Guards st (wait wt) :=
  fun _ _ h => ⟨trivial, fun _ _ _ ht hstack _ =>
    ⟨trivial, ht, (World.stack_resumed _ _ _).trans (hstack.trans h.stack)⟩⟩

theorem guards_swallow {p : GateOp Unit} (hp : Guards st p) : Guards st (swallow p) := by
  refine Op.Keeps.tryCatch hp fun e => ?_
  split
  · exact Op.Keeps.pure ()
  · exact Op.Keeps.throw e

theorem guards_callBackend (h : ∀ s, Entry s st .nop (.executing n)) :
    Guards st (callBackend n) := by
  refine Op.Keeps.within (fun t w hw => ?_) (fun t w hw => ?_) (fun _ _ _ => trivial)
    (fun _ _ _ => trivial) (guards_wait .backend)
  · show Entry w.state (w.tasks t).stack _ _
    rw [hw.stack]
    exact h _
  · show Exit (w.tasks t).stack _
    rw [hw.stack]
    exact .call st n

/-- A token is taken when the limiter has one left. -/
theorem wp_take (hw : Op.AtRest anyState (routing n) t w)
    (hroom : Gateway.hasRoom w.state n = true) :
    (inside (.take n) (.holding n) (.release n) (callBackend n)).wp gateSystem guarded anyState t
      (fun _ => Op.AtRest anyState (routing n) t) w := by
  refine hw.within ?_ (fun w' hw' => ?_) (fun _ _ => trivial) (fun _ _ => trivial)
    (guards_callBackend fun s => .routed n)
  · show Entry w.state (w.tasks t).stack _ _
    rw [hw.stack]
    exact .slot hroom
  · show Exit (w'.tasks t).stack _
    rw [hw'.stack]
    exact .slot n

theorem guards_withSlot : Guards (routing n) (withSlot n (callBackend n)) := by
  refine fun t w hw => (Op.wp_bind _ _ _).mpr ((Op.wp_bind _ _ _).mpr ?_)
  show Op.wp _ _ _ t (if Gateway.hasRoom w.state n = true then pure () else wait (.slot n)) _ w
  split
  · next hroom => exact wp_take hw hroom
  · refine ⟨trivial, fun w' r _ ht hstack hready => ?_⟩
    have hw' : Op.AtRest anyState (routing n) t (w'.resumed t) :=
      ⟨trivial, ht, (World.stack_resumed _ _ _).trans (hstack.trans hw.stack)⟩
    cases r with
    | ok u =>
      have hroom : (!(w'.tasks t).requested && Gateway.hasRoom w'.state n) = true := hready
      rw [Bool.and_eq_true] at hroom
      exact wp_take hw' hroom.2
    | error e => exact hw'

theorem guards_routeToolCall : Guards (routing n) (routeToolCall n) := by
  refine Op.Keeps.bind (guards_wait .resolve) fun _ => guards_swallow ?_
  exact Op.Keeps.bind (Op.Keeps.act (fun _ _ _ => trivial) fun _ _ _ => trivial)
    fun _ => guards_withSlot

theorem guards_proxyToolCall : Guards [.proxyToolCall n] (proxyToolCall n) :=
  Op.Keeps.bind (guards_swallow (guards_callBackend fun _ => .proxied n))
    fun _ => guards_swallow (guards_wait .plugins)

end Contracts

theorem verified_gate : Verified gateSystem guarded anyState := by
  intro c r t w hrest ht hstack
  have hdone : ∀ {p : GateOp Unit}, Guards [c] p →
      p.wp gateSystem guarded anyState t (fun _ _ => True) w := fun hp =>
    Op.wp_mono (hp t w ⟨hrest, ht, hstack⟩) fun _ _ _ => trivial
  cases r with
  | error e => trivial
  | ok u =>
    cases c with
    | routeToolCall n => exact hdone guards_routeToolCall
    | proxyToolCall n => exact hdone guards_proxyToolCall
    | reload servers => exact hdone (Op.Keeps.act (fun _ _ _ => trivial) fun _ _ _ => trivial)
    | _ => trivial

/-! ### Stacks -/

/-- Nothing is said about what a task waits for. -/
abbrev anyWait : List Call → Wait → Prop := fun _ _ => True

theorem follows_callBackend {st : List Call} (n : String) :
    Op.Follows (S := gateSignature) anyWait st (callBackend n) :=
  Op.Follows.within ⟨trivial, fun _ => rfl⟩

theorem follows_swallow {st : List Call} {p : GateOp Unit}
    (hp : Op.Follows (S := gateSignature) anyWait st p) :
    Op.Follows (S := gateSignature) anyWait st (swallow p) :=
  Op.Follows.tryCatch hp fun e => Op.Follows.ite (Op.Follows.pure ()) (Op.Follows.throw e)

theorem orderly_gateSystem : Orderly gateSystem anyWait where
  turn _ := trivial
  body c r := by
    cases r with
    | error e => rfl
    | ok u =>
      cases c with
      | routeToolCall n =>
        refine Op.Follows.bind ⟨trivial, fun _ => rfl⟩ fun _ => follows_swallow
          (Op.Follows.bind (Op.Follows.act _) fun _ => Op.Follows.bind ?_ fun _ =>
            Op.Follows.within (follows_callBackend n))
        exact Op.Follows.bind Op.Follows.get fun s =>
          Op.Follows.ite (Op.Follows.pure ()) ⟨trivial, fun _ => rfl⟩
      | proxyToolCall n =>
        exact Op.Follows.bind (follows_swallow (follows_callBackend n)) fun _ =>
          follows_swallow ⟨trivial, fun _ => rfl⟩
      | _ => rfl

/-! ### The tokens of a limiter -/

/-- The limiter of a backend has no more borrowers than its cap, which is that of the gate; who is
inside `async with gate` is one of them, and the calls that are executing are inside. -/
structure Accounted (cap : ℤ) (n : String) (s : Gateway) (f : TaskId → List Call) : Prop where
  limit : s.limit n = cap
  total : ∀ {l}, s.gates.get? n = some l → l.totalTokens = cap ∧ l.borrowers.length ≤ cap.toNat
  borrowed : ∀ {t}, .holding n ∈ f t → ∃ l, s.gates.get? n = some l ∧ t ∈ l.borrowers
  gated : ∀ {t}, .executing n ∈ f t → .holding n ∈ f t

/-- No call of the backend is proxied. -/
def Routed (n : String) (w : World gateSignature) (t : TaskId) : Stmt gateSignature → Prop
  | .push _ (.executing m) => m = n → .proxyToolCall n ∉ (w.tasks t).stack
  | _ => True

section Steps

variable {cap : ℤ} {n m : String} {s : Gateway} {f : TaskId → List Call} {t : TaskId}
  {st : List Call}

theorem accounted_startup (servers : List MCPServerConfig) (n : String) :
    Accounted ((startup servers).limit n) n (startup servers) fun _ => [] where
  limit := rfl
  total h := by cases h
  borrowed := nofun
  gated := nofun

/-- The invariant asks less of a task that is in less. -/
theorem Accounted.restack (h : Accounted cap n s f) (hholding : .holding n ∈ st → .holding n ∈ f t)
    (hgated : .executing n ∈ st → .holding n ∈ st) :
    Accounted cap n s (Function.update f t st) := by
  refine ⟨h.limit, h.total, fun {u} hu => ?_, fun {u} hu => ?_⟩
  · rcases mem_update_iff.mp hu with ⟨rfl, hmem⟩ | ⟨-, hmem⟩
    · exact h.borrowed (hholding hmem)
    · exact h.borrowed hmem
  · rcases mem_update_iff.mp hu with ⟨rfl, hmem⟩ | ⟨hne, hmem⟩
    · rw [Function.update_self]
      exact hgated hmem
    · rw [Function.update_of_ne hne]
      exact h.gated hmem

/-- A change of the limiters of other backends. -/
theorem Accounted.congr (h : Accounted cap n s f) {s' : Gateway} (hlimit : s'.limit n = s.limit n)
    (hgate : s'.gates.get? n = s.gates.get? n) : Accounted cap n s' f where
  limit := hlimit.trans h.limit
  total hl := h.total (hgate.symm.trans hl)
  borrowed ht := (h.borrowed ht).imp fun _ hl => ⟨hgate.trans hl.1, hl.2⟩
  gated := h.gated

/-- The limiter of another backend. -/
theorem Accounted.elsewhere (h : Accounted cap n s f) (hne : m ≠ n) (g : Limiter → Limiter) :
    Accounted cap n { s with gates := s.gates.modify m g } f := by
  refine h.congr rfl ?_
  show (s.gates.modify m g).get? n = _
  rw [Dict.get?_modify, if_neg hne]

/-- The limiter of the backend. -/
theorem get?_gates_modify {l : Limiter} (hl : s.gates.get? n = some l) (g : Limiter → Limiter) :
    (s.gates.modify n g).get? n = some (g l) := by
  rw [Dict.get?_modify, if_pos rfl, hl, Option.map_some]

theorem Accounted.getOrCreate (h : Accounted cap n s f) (t : TaskId) (m : String) :
    Accounted cap n (Act.eval t s (.getOrCreate m)) f := by
  show Accounted cap n (if s.gates.contains m then s
    else { s with gates := s.gates.set m ⟨s.limit m, []⟩ }) f
  split_ifs with hm
  · exact h
  rcases eq_or_ne m n with rfl | hne
  · have hnone : s.gates.get? m = none := by simpa [Dict.contains] using hm
    refine ⟨h.limit, fun hl => ?_, fun ht => ?_, h.gated⟩
    · obtain rfl := Option.some.inj ((Dict.get?_set_self _ _ _).symm.trans hl)
      exact ⟨h.limit, Nat.zero_le _⟩
    · obtain ⟨l, hl, -⟩ := h.borrowed ht
      cases hnone.symm.trans hl
  · exact h.congr rfl (Dict.get?_set_of_ne hne)

/-- Whoever is inside `async with gate` has borrowed a token of the limiter that is there. -/
theorem Accounted.mem_borrowers (h : Accounted cap n s f) {l : Limiter}
    (hl : s.gates.get? n = some l) (ht : .holding n ∈ f t) : t ∈ l.borrowers := by
  obtain ⟨l', hl', hmem⟩ := h.borrowed ht
  obtain rfl := Option.some.inj (hl.symm.trans hl')
  exact hmem

/-- The limiter has other borrowers, for a task that is not executing. -/
theorem Accounted.modify (h : Accounted cap n s f) {l : Limiter} (hl : s.gates.get? n = some l)
    {g : List TaskId → List TaskId} (hlength : (g l.borrowers).length ≤ cap.toNat)
    (hborrowed : ∀ {u}, .holding n ∈ Function.update f t st u → u ∈ g l.borrowers)
    (hidle : .executing n ∉ st) :
    Accounted cap n
      { s with gates := s.gates.modify n fun l => { l with borrowers := g l.borrowers } }
      (Function.update f t st) := by
  have hgate := get?_gates_modify hl fun l => { l with borrowers := g l.borrowers }
  refine ⟨h.limit, fun hl' => ?_, fun hu => ⟨_, hgate, hborrowed hu⟩, fun {u} hu => ?_⟩
  · obtain rfl := Option.some.inj (hgate.symm.trans hl')
    exact ⟨(h.total hl).1, hlength⟩
  · rcases mem_update_iff.mp hu with ⟨-, hmem⟩ | ⟨hne, hmem⟩
    · exact absurd hmem hidle
    · rw [Function.update_of_ne hne]
      exact h.gated hmem

/-- A token is lent to a task that has none. -/
theorem Accounted.take (h : Accounted cap n s f) (hroom : s.hasRoom m = true) :
    Accounted cap n (Act.eval t s (.take m)) (Function.update f t (lent m)) := by
  rcases eq_or_ne m n with rfl | hne
  · obtain ⟨l, hl, hlt⟩ := (Option.any_eq_true _ _).mp hroom
    rw [decide_eq_true_eq, (h.total hl).1] at hlt
    refine h.modify (g := (t :: ·)) hl hlt (fun {u} hu => ?_) (by simp)
    rcases mem_update_iff.mp hu with ⟨rfl, -⟩ | ⟨-, hmem⟩
    · exact List.mem_cons_self
    · exact List.mem_cons_of_mem _ (h.mem_borrowers hl hmem)
  · have hsame : Accounted cap n (Act.eval t s (.take m)) f := h.elsewhere hne _
    exact hsame.restack (fun hmem => by simp [hne.symm] at hmem) fun hmem => by simp at hmem

/-- The limiter gets a token back. -/
theorem Accounted.release (h : Accounted cap n s f) (ht : f t = lent m) :
    Accounted cap n (Act.eval t s (.release m)) (Function.update f t (routing m)) := by
  rcases eq_or_ne m n with rfl | hne
  · obtain ⟨l, hl, -⟩ := h.borrowed (t := t) (by simp [ht])
    refine h.modify (g := (·.erase t)) hl (List.length_erase_le.trans (h.total hl).2)
      (fun {u} hu => ?_) (by simp)
    rcases mem_update_iff.mp hu with ⟨-, hmem⟩ | ⟨hu, hmem⟩
    · simp at hmem
    · exact (List.mem_erase_of_ne hu).mpr (h.mem_borrowers hl hmem)
  · have hsame : Accounted cap n (Act.eval t s (.release m)) f := h.elsewhere hne _
    exact hsame.restack (fun hmem => by simp at hmem) fun hmem => by simp at hmem

/-- A call begins to execute: with a token, or on another backend. -/
theorem Accounted.execute (h : Accounted cap n s f) (hmem : m = n → .holding n ∈ f t) :
    Accounted cap n s (Function.update f t (.executing m :: f t)) := by
  refine h.restack (fun hu => (List.mem_cons.mp hu).resolve_left nofun) fun hu => ?_
  refine List.mem_cons_of_mem _ ?_
  rcases List.mem_cons.mp hu with heq | hu
  · cases heq
    exact hmem rfl
  · exact h.gated hu

end Steps

theorem invariant_gate (cap : ℤ) (n : String) : CountInvariant gateSystem
    (fun w t s => Routed n w t s ∧ guarded w t s) (Accounted cap n) where
  stmt {w t s} h _ hs := by
    obtain ⟨hrouted, hguard⟩ := hs
    cases s with
    | act a =>
      cases a with
      | getOrCreate m => exact h.getOrCreate t m
      | setServers servers => exact h.congr rfl rfl
      | _ => exact hguard.elim
    | push a c =>
      rw [World.frames_push]
      change Entry w.state (w.frames t) a c at hguard
      generalize hst : w.frames t = st at hguard
      cases hguard with
      | slot hroom => exact h.take hroom
      | routed m =>
        rw [← hst]
        exact h.execute fun hm => by simp [hst, hm]
      | proxied m =>
        rw [← hst]
        refine h.execute fun hm => absurd ?_ (hrouted hm)
        rw [← hm]
        show _ ∈ w.frames t
        simp [hst]
    | pop a =>
      rw [World.frames_pop]
      change Exit (w.frames t) a at hguard
      generalize hst : w.frames t = st at hguard
      cases hguard with
      | slot m => exact h.release hst
      | call st m =>
        rw [List.tail_cons]
        refine h.restack (fun hmem => ?_) fun hmem => ?_
        · rw [hst]
          exact List.mem_cons_of_mem _ hmem
        have hheld := h.gated (t := t) (n := n) (by simp [hst, hmem])
        rw [hst] at hheld
        exact (List.mem_cons.mp hheld).resolve_left nofun
    | _ => exact hguard.elim
  call {s f t c} hc ht h := by
    refine h.restack (fun hmem => ?_) fun hmem => ?_ <;>
      rw [← List.mem_singleton.mp hmem] at hc <;> cases hc
  finish ht h := h.restack nofun nofun
  tick {e} := nomatch e

/-! ### The calls that are executing -/

/-- Whether this is a call of the backend that is executing. -/
def Call.executes (n : String) : Call → Bool
  | .executing m => m = n
  | _ => false

/-- The tasks whose calls are executing on the connection of a backend. -/
def executing (w : World gateSignature) (n : String) : List TaskId :=
  (List.range w.next).filter fun t => (w.tasks t).stack.any (Call.executes n)

theorem mem_of_executing {w : World gateSignature} {n : String} {t : TaskId}
    (h : t ∈ executing w n) : .executing n ∈ w.frames t := by
  obtain ⟨c, hc, hexecutes⟩ := List.any_eq_true.mp (List.mem_filter.mp h).2
  cases c with
  | executing m =>
    obtain rfl : m = n := of_decide_eq_true hexecutes
    exact hc
  | _ => cases hexecutes

theorem Accounted.length_executing_le {cap : ℤ} {n : String} {w : World gateSignature}
    (h : Accounted cap n w.state w.frames) : (executing w n).length ≤ cap.toNat := by
  have hholding : ∀ {t}, t ∈ executing w n → .holding n ∈ w.frames t :=
    fun ht => h.gated (mem_of_executing ht)
  cases hgate : (Gateway.gates w.state).get? n with
  | none =>
    have hnone : executing w n = [] := List.eq_nil_iff_forall_not_mem.mpr fun t ht => by
      obtain ⟨l, hl, -⟩ := h.borrowed (hholding ht)
      cases hgate.symm.trans hl
    rw [hnone]
    exact Nat.zero_le _
  | some l =>
    have hsubset : executing w n ⊆ l.borrowers := fun t ht => h.mem_borrowers hgate (hholding ht)
    have hnodup : (executing w n).Nodup := List.nodup_range.filter _
    exact (List.subperm_of_subset hnodup hsubset).length_le.trans (h.total hgate).2

/-- The gate is built with the configured caps. -/
theorem limit_startup {servers : List MCPServerConfig}
    (hnames : (servers.map MCPServerConfig.name).Nodup) {srv : MCPServerConfig}
    (hsrv : srv ∈ servers) : (startup servers).limit srv.name = srv.maxConcurrency := by
  have hkeys : ((perServerOverrides servers).map Prod.fst).Nodup := by
    rw [perServerOverrides, List.map_map]
    exact hnames.sublist ((List.filter_sublist).map _)
  have hmem : ∀ {cap}, (srv.name, cap) ∈ perServerOverrides servers ↔
      srv.maxConcurrency = cap ∧ cap ≠ defaultPerBackendConcurrency := by
    intro cap
    simp only [perServerOverrides, List.mem_map, List.mem_filter, Prod.mk.injEq,
      decide_eq_true_eq]
    constructor
    · rintro ⟨srv', ⟨hsrv', hother⟩, hname, rfl⟩
      rw [List.inj_on_of_nodup_map hnames hsrv' hsrv hname] at hother ⊢
      exact ⟨rfl, hother⟩
    · rintro ⟨rfl, hother⟩
      exact ⟨srv, ⟨hsrv, hother⟩, rfl, rfl⟩
  rw [Gateway.limit, startup, Dict.get?_setAll, Dict.get?_empty, Option.or_none]
  cases hlast : Dict.lastOf (perServerOverrides servers) srv.name with
  | none =>
    by_contra hne
    rw [Option.getD_none] at hne
    cases hlast.symm.trans ((Dict.lastOf_eq_some_iff hkeys).mpr (hmem.mpr ⟨rfl, Ne.symm hne⟩))
  | some cap => exact (hmem.mp (Dict.lastOf_mem hlast)).1.symm

/-- **The gate holds for routed calls.** However the calls of a backend are interleaved with those
of others, with proxied calls of other backends and with reloads, and however each of them ends: as
long as none of its own is proxied, no more are executing than are configured, if the gate was built
with that cap, or a smaller one. -/
theorem executing_le (servers : List MCPServerConfig) (name : String)
    {cf : Config gateSignature} (h : Reach gateSystem (Routed name) (startup servers) cf) :
    ∀ srv ∈ Gateway.servers cf.world.state, srv.name = name →
      (startup servers).limit name ≤ srv.maxConcurrency →
        (executing cf.world name).length ≤ srv.maxConcurrency.toNat := by
  intro srv _ _ hcap
  have hguarded := (verified_gate.reach (fun {e} => nomatch e) trivial h).1
  have hinv := (invariant_gate _ name).reach orderly_gateSystem (accounted_startup servers name)
    hguarded
  exact hinv.length_executing_le.trans (Int.toNat_le_toNat hcap)

/-- A backend that takes one call at a time. -/
def oneAtATime : MCPServerConfig := { name := "gemini", maxConcurrency := 1 }

/-- Two routed calls: the second one waits. -/
def twoRouted : List (Move gateSignature) :=
  [.call (.routeToolCall "gemini"), .resume 0 (.ok ()), .resume 0 (.ok ()),
    .call (.routeToolCall "gemini"), .resume 1 (.ok ()), .resume 1 (.ok ())]

/-- Whether a statement is none of a proxied call of the backend. -/
def isRouted (n : String) (w : World gateSignature) (t : TaskId) : Stmt gateSignature → Bool
  | .push _ (.executing m) => m ≠ n || (w.tasks t).stack.all fun
    | .proxyToolCall m => m ≠ n
    | _ => true
  | _ => true

theorem routed_of_isRouted {n : String} {w : World gateSignature} {t : TaskId}
    {st : Stmt gateSignature} (h : isRouted n w t st = true) : Routed n w t st := by
  cases st with
  | push a c =>
    cases c with
    | executing m =>
      intro hm hmem
      simp only [isRouted, hm, ne_eq, not_true_eq_false, decide_false, Bool.false_or,
        List.all_eq_true] at h
      simpa using h _ hmem
    | _ => trivial
  | _ => trivial

theorem executing_twoRouted : ∃ cf,
    Reach gateSystem (Routed "gemini") (startup [oneAtATime]) cf ∧
      executing cf.world "gemini" = [0] ∧ (executing cf.world "gemini").length ≤ 1 := by
  have hplay : (Config.play gateSystem (isRouted "gemini") 20 twoRouted
      (Config.start (startup [oneAtATime]))).any (fun cf =>
        executing cf.world "gemini" = [0] &&
          Gateway.servers cf.world.state = [oneAtATime]) = true := by
    decide +kernel
  obtain ⟨cf, hrun, hcf⟩ := (Option.any_eq_true _ _).mp hplay
  simp only [Bool.and_eq_true, decide_eq_true_eq] at hcf
  obtain ⟨hexecuting, hservers⟩ := hcf
  have hreach : Reach gateSystem (Routed "gemini") (startup [oneAtATime]) cf :=
    reach_play routed_of_isRouted .refl hrun
  refine ⟨cf, hreach, hexecuting, executing_le [oneAtATime] "gemini" hreach oneAtATime ?_ rfl ?_⟩
  · rw [hservers]
    exact List.mem_singleton_self _
  · decide +kernel

/-- A proxied call does not wait for the routed one. -/
def oneProxied : List (Move gateSignature) :=
  [.call (.routeToolCall "gemini"), .resume 0 (.ok ()), .resume 0 (.ok ()),
    .call (.proxyToolCall "gemini"), .resume 1 (.ok ())]

/-- A routed and a proxied call of the backend are executing at the same time. -/
theorem not_executing_le_proxied : ¬ ∀ cf,
    Reach gateSystem (fun _ _ _ => True) (startup [oneAtATime]) cf →
      ∀ srv ∈ Gateway.servers cf.world.state, srv.name = "gemini" →
        (executing cf.world "gemini").length ≤ srv.maxConcurrency.toNat := by
  intro h
  have hplay : (Config.play gateSystem (fun _ _ _ => true) 20 oneProxied
      (Config.start (startup [oneAtATime]))).any (fun cf =>
        executing cf.world "gemini" = [0, 1] &&
          Gateway.servers cf.world.state = [oneAtATime]) = true := by
    decide +kernel
  obtain ⟨cf, hrun, hcf⟩ := (Option.any_eq_true _ _).mp hplay
  simp only [Bool.and_eq_true, decide_eq_true_eq] at hcf
  obtain ⟨hexecuting, hservers⟩ := hcf
  have hreach : Reach gateSystem (fun _ _ _ => True) (startup [oneAtATime]) cf :=
    reach_play (fun _ => trivial) .refl hrun
  have hle := h cf hreach oneAtATime (by rw [hservers]; exact List.mem_singleton_self _) rfl
  rw [hexecuting] at hle
  exact absurd hle (by decide)

end ConcurrencyGate

end SlmMcpHub
