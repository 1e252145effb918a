import SlmMcpHub.Federation.Discipline

/-!
# Every program keeps the discipline

One contract for each operation, in the order of the operations. What a contract asks of the stack
is what the operation's callers have to be in the middle of.

## Main results

* `verified_hub` — every program keeps the discipline
* `reach_disciplined` — every statement of every run is disciplined
-/

namespace SlmMcpHub

open HubOp MCPConnection ConnectionManager

variable {st : List Call}

/-! ### Connections -/

theorem InHand.mono {st' : List Call} {name : String} (h : InHand st name)
    (hst : ∀ c ∈ st, c ∈ st') : InHand st' name := by
  rcases h with ⟨⟨names, hn, hr⟩, names', hn', ha⟩ | ⟨sem, cfg, hname, hb⟩
  · exact Or.inl ⟨⟨names, hn, hst _ hr⟩, names', hn', hst _ ha⟩
  · exact Or.inr ⟨sem, cfg, hname, hst _ hb⟩

theorem disciplined_connect {x : ConnRef} (timed : Bool) (h : Drives st x) :
    Disciplined st (connect x timed) := by
  refine .get fun s => .ite (fun _ => .pure ()) fun _ => ?_
  refine .inside (fun _ => ⟨rfl, h⟩) (.bind (.caught (.wait _)) fun r => ?_)
  cases r with
  | ok r =>
    cases r with
    | connected caps => exact .act fun _ => List.mem_cons_self
    | _ => exact .pure ()
  | error e =>
    cases e with
    | authRequired => exact .act fun _ => trivial
    | connection message cls => exact .bind (.act fun _ => trivial) fun _ => .throw _
    | _ => exact .ite (fun _ => .bind (.act fun _ => trivial) fun _ => .throw _) fun _ => .throw _

theorem disciplined_disconnect (x : ConnRef) : Disciplined st (disconnect x) := by
  refine .get fun s => .bind (.when ?_) fun _ => .act fun _ => trivial
  exact .bind (.catchException (.wait' _) fun _ => .pure ()) fun _ => .act fun _ => trivial

theorem disciplined_drainAndDisconnect (x : ConnRef) :
    Disciplined st (drainAndDisconnect x) := by
  refine .get fun s => .bind (.when (.act fun _ => trivial)) fun _ => .withLock ?_
  refine .get fun s => .ite (fun _ => disciplined_disconnect x) fun _ => ?_
  refine .bind (.act fun _ => trivial) fun _ => .get fun s => ?_
  refine .bind (.when ?_) fun _ => disciplined_disconnect x
  refine .bind (.act fun _ => trivial) fun _ => .tryCatch (.waitFor (.wait' _)) fun e => ?_
  cases e with
  | timeout => exact .pure ()
  | _ => exact .throw _

theorem disciplined_checkCallable (x : ConnRef) : Disciplined st (checkCallable x) :=
  .get fun _ => .ite (fun _ => .throw _) fun _ => .ite (fun _ => .throw _) fun _ => .pure ()

theorem disciplined_dispatch (x : ConnRef) (kind : RequestKind) :
    Disciplined st (dispatch x kind) := by
  refine .get' fun t w hw => hw.within ?_ ?_ (fun _ _ => trivial) (fun _ _ => trivial) ?_
  · exact ⟨rfl, rfl⟩
  · intro w' hw'
    exact Or.inr ⟨x, _, kind, congrArg List.head? hw'.stack, rfl⟩
  · refine Disciplined.bind (.wait _) fun r => ?_
    cases r with
    | answered result => exact .pure result
    | _ => exact .pure _

theorem disciplined_request (x : ConnRef) (kind : RequestKind) :
    Disciplined st (request x kind) :=
  .bind (disciplined_checkCallable x) fun _ => disciplined_dispatch x kind

/-! ### Supervisors -/

section Supervisor

variable {p : SupRef}

theorem disciplined_stop (p : SupRef) : Disciplined st (ConnectionSupervisor.stop p) := by
  refine .get fun s => .bind (.whenSome fun _ => .act fun _ => trivial) fun _ => ?_
  refine .bind (.whenSome fun _ => .act fun _ => trivial) fun _ => ?_
  refine .bind (.whenSome fun t => ?_) fun _ => .act fun _ => trivial
  refine .bind (.isRunning _) fun _ => .when ?_
  exact .bind (.cancelAndWait t) fun _ => .act fun _ => trivial

theorem disciplined_afterFailure (s : Hub) (p : SupRef) :
    Disciplined st (ConnectionSupervisor.afterFailure s p) :=
  .ite (fun _ => .bind (.act fun _ => trivial) fun _ => .act fun _ => trivial)
    fun _ => .act fun _ => trivial

theorem disciplined_handleConnectFailure (h : Call.supervised p ∈ st) (e : Exc) :
    Disciplined st (ConnectionSupervisor.handleConnectFailure p e) := by
  rw [ConnectionSupervisor.handleConnectFailure]
  cases e.classify with
  | auth => exact .jump trivial
  | terminal =>
    refine .bind (.act fun _ => trivial) fun _ => .get fun s => ?_
    exact .bind (.whenSome fun _ => .act fun _ => trivial) fun _ => .jump h
  | transient =>
    refine .bind (.act fun _ => trivial) fun _ => .get fun s => ?_
    exact .bind (disciplined_afterFailure s p) fun _ => .bind (.wait' _) fun _ => .jump h

theorem disciplined_waitForDropOrStop (p : SupRef) :
    Disciplined st (ConnectionSupervisor.waitForDropOrStop p) := by
  refine .get fun s => .ite (fun _ => ?_) fun _ => .pure ()
  cases (s.sup p).stopEvent with
  | none => exact .pure ()
  | some stop =>
    cases (s.sup p).dropEvent with
    | none => exact .pure ()
    | some drop => exact .wait' _

theorem disciplined_afterAttempt (h : Call.supervised p ∈ st) (ended : Except Exc Unit) :
    Disciplined st (ConnectionSupervisor.afterAttempt p ended) := by
  cases ended with
  | ok u =>
    refine .get fun s => .ite (fun _ => .jump trivial) fun _ => .ite (fun _ => ?_) fun _ => ?_
    · exact .bind (.wait' _) fun _ => .jump h
    · refine .bind (.act fun _ => trivial) fun _ =>
        .bind (disciplined_waitForDropOrStop p) fun _ => ?_
      exact .get fun s => .ite (fun _ => .pure ()) fun _ => .jump h
  | error e =>
    cases e with
    | cancelled => exact .throw _
    | deadline => exact .throw _
    | connection message cls => exact disciplined_handleConnectFailure h _
    | _ =>
      dsimp only [ConnectionSupervisor.afterAttempt]
      exact .ite (fun _ => .jump trivial) fun _ => .act fun _ => trivial

theorem disciplined_supervisedLoop (h : Call.supervised p ∈ st) :
    Disciplined st (ConnectionSupervisor.supervisedLoop p) := by
  refine .get fun s => .ite (fun _ => .pure ()) fun _ => .bind (.act fun _ => trivial) fun _ => ?_
  refine .bind (.when (.act fun _ => trivial)) fun _ => ?_
  exact .bind (.caught (disciplined_connect false (Or.inr ⟨p, rfl, h⟩)))
    fun ended => disciplined_afterAttempt h ended

theorem disciplined_park (p : SupRef) : Disciplined st (ConnectionSupervisor.park p) :=
  .get fun _ => .whenSome fun _ => .wait' _

end Supervisor

/-! ### Connecting a backend -/

theorem disciplined_connectStored {cfg : MCPServerConfig} (h : InHand st cfg.name) :
    Disciplined st (connectStored cfg) := by
  refine .get' fun t w hw => Disciplined.inside_wp hw ⟨rfl, rfl, h⟩ ?_
  refine Disciplined.bind (.tryCatch ?_ fun e => ?_) fun _ => .act fun _ => trivial
  · refine .bind (.waitFor (disciplined_connect true (Or.inl List.mem_cons_self))) fun _ => ?_
    exact .act fun _ => trivial
  · refine .ite (fun _ => .bind (.act fun _ => trivial) fun _ => ?_) fun _ => ?_
    · exact .catchException (disciplined_disconnect _) fun _ => .pure ()
    · exact .ite (fun _ => .act fun _ => trivial) fun _ => .throw e

theorem disciplined_connectTimed {cfg : MCPServerConfig} (h : InHand st cfg.name) :
    Disciplined st (connectTimed cfg) := by
  refine .get fun s => ?_
  cases s.connectEvents.get? cfg.name with
  | some e => exact .wait' _
  | none =>
    refine .bind (.act fun _ => trivial) fun _ => ?_
    exact .ensure (disciplined_connectStored h) (.act fun _ => trivial)

theorem disciplined_disconnectStored (name : String) :
    Disciplined st (disconnectStored name) := by
  refine .get fun s => ?_
  cases s.connections.get? name with
  | none => exact .pure ()
  | some x => exact .catchException (disciplined_disconnect x) fun _ => .pure ()

theorem disciplined_requesting {α : Type} {names : List String} {p : HubOp α}
    (h : Disciplined (.requesting names :: st) p) : Disciplined st (requesting names p) :=
  .inside (fun _ => rfl) h

/-- With the configuration found, an operation that was asked for has it in hand. -/
theorem disciplined_withConfig {α : Type} {name : String} {absent : α}
    {p : MCPServerConfig → HubOp α}
    (h : ∀ cfg : MCPServerConfig, cfg.name = name → Disciplined (.armed [name] :: st) (p cfg)) :
    Disciplined st (withConfig name absent p) := by
  refine .get' fun t w hw => ?_
  dsimp only
  cases hfind : (Hub.config w.state).find? name with
  | none => exact hw
  | some cfg =>
    have hname := List.find?_some hfind
    refine Disciplined.inside_wp hw (Or.inl ⟨rfl, fun name' hmem => ?_⟩)
      (h cfg (by simpa using hname))
    rw [List.mem_singleton.mp hmem, hfind]
    rfl

/-- Someone who has asked for one backend and holds its configuration. -/
theorem inHand_single (name : String) (st : List Call) :
    InHand (.armed [name] :: .requesting [name] :: st) name :=
  Or.inl ⟨⟨[name], List.mem_singleton_self _, by simp⟩, [name], List.mem_singleton_self _, by simp⟩

theorem disciplined_report (name failure : String) : Disciplined st (report name failure) := by
  refine .get fun s => ?_
  cases s.failed.get? name with
  | some message => exact .pure _
  | none =>
    cases s.connections.get? name with
    | none => exact .throw _
    | some x => exact .pure _

/-! ### The fleet -/

/-- Without a wait in between, the connection found or made is in the table. -/
theorem wp_storedConnection {t : TaskId} {w : World hubSignature} {cfg : MCPServerConfig}
    {Q : Except Exc ConnRef → World hubSignature → Prop}
    (hfound : ∀ x, (Hub.connections w.state).get? cfg.name = some x → Q (.ok x) w)
    (hmade : (Hub.connections w.state).get? cfg.name = none →
      Q (.ok ⟨Hub.nextConn w.state, cfg⟩)
        (w.exec hub t (.act (.storeConnection ⟨Hub.nextConn w.state, cfg⟩)))) :
    (storedConnection cfg).wp hub disciplined (fun _ => True) t Q w := by
  refine wp_get_bind.mpr ?_
  dsimp only
  cases hget : (Hub.connections w.state).get? cfg.name with
  | some x => exact hfound x hget
  | none => exact ⟨⟨rfl, hget⟩, hmade hget⟩

/-- Where a task is while it goes through the fleet without a wait. -/
structure InFleet (st : List Call) (P : Hub → Prop) (t : TaskId) (w : World hubSignature) :
    Prop extends Op.AtRest (fun _ => True) st t w where
  holds : P w.state

theorem InFleet.act {P Q : Hub → Prop} {t : TaskId} {w : World hubSignature}
    (h : InFleet st P t w) (a : Act) (ha : P w.state → Q (Act.eval w.state a)) :
    InFleet st Q t (w.exec hub t (.act a)) :=
  ⟨h.toAtRest.exec trivial rfl, ha h.holds⟩

theorem InFleet.spawn {P : Hub → Prop} {t : TaskId} {w : World hubSignature}
    (h : InFleet st P t w) (c : Call) : InFleet st P t (w.exec hub t (.spawn c)) :=
  ⟨h.toAtRest.exec trivial (Op.stack_spawn w c h.born), h.holds⟩

/-- An act, and then the rest. -/
theorem InFleet.wp_act_bind {α : Type} {P : Hub → Prop} (Q : Hub → Prop) {t : TaskId}
    {w : World hubSignature} {a : Act} {f : Unit → HubOp α}
    {R : Except Exc α → World hubSignature → Prop} (h : InFleet st P t w)
    (hallowed : a.Allowed w.state st) (ha : P w.state → Q (Act.eval w.state a))
    (hf : ∀ w', InFleet st Q t w' → (f ()).wp hub disciplined (fun _ => True) t R w') :
    (HubOp.act a >>= f).wp hub disciplined (fun _ => True) t R w := by
  rw [Op.wp_bind]
  refine wp_act.mpr ⟨?_, hf _ (h.act a ha)⟩
  rw [h.stack]
  exact hallowed

theorem config_eval_of_servers {s : Hub} {a : Act} {config : HubConfig}
    (ha : a.servers s = s.config.mcpServers) (h : s.config = config) :
    (a.eval s).config = config := by
  rw [Act.config_eval, ha]
  exact h

/-- A supervisor is started for a connection that is in the table. -/
theorem wp_startSupervisor {t : TaskId} {w : World hubSignature} {config : HubConfig}
    {name : String} {p : SupRef} (hname : (config.find? name).isSome)
    (hw : InFleet st (fun s => s.config = config ∧ s.connections.get? name = some p.conn) t w) :
    (startSupervisor name p).wp hub disciplined (fun _ => True) t
      (fun _ => InFleet st (fun s => s.config = config) t) w := by
  let P : Hub → Prop := fun s => s.config = config ∧ s.connections.get? name = some p.conn
  have hkeeps : ∀ (s : Hub) (a : Act), a.servers s = s.config.mcpServers →
      a.connections s = s.connections → P s → P (a.eval s) := by
    intro s a hservers hconnections h
    refine ⟨config_eval_of_servers hservers h.1, ?_⟩
    rw [Act.connections_eval, hconnections]
    exact h.2
  refine hw.wp_act_bind P trivial (hkeeps _ _ rfl rfl) fun w hw => ?_
  refine hw.wp_act_bind P trivial (hkeeps _ _ rfl rfl) fun w hw => ?_
  rw [Op.wp_bind]
  refine (Op.wp_spawn _ _).mpr ⟨⟨name, hw.holds.2, ?_⟩, ?_⟩
  · rw [hw.holds.1]
    exact hname
  · rw [Op.andThen_ok]
    refine wp_act.mpr ⟨trivial, (hw.spawn (.supervised p)).act _ fun h => ?_⟩
    exact config_eval_of_servers rfl h.1

theorem wp_isRunning {t : TaskId} {w : World hubSignature} {o : Option TaskId}
    {Q : Except Exc Bool → World hubSignature → Prop} (h : ∀ b, Q (.ok b) w) :
    (isRunning o).wp hub disciplined (fun _ => True) t Q w := by
  cases o with
  | none => exact h false
  | some u => exact h _

theorem wp_ite {α : Type} {c : Prop} [Decidable c] {p q : HubOp α} {t : TaskId}
    {w : World hubSignature} {Q : Except Exc α → World hubSignature → Prop}
    (hp : c → p.wp hub disciplined (fun _ => True) t Q w)
    (hq : ¬ c → q.wp hub disciplined (fun _ => True) t Q w) :
    (if c then p else q).wp hub disciplined (fun _ => True) t Q w := by
  split
  · next hc => exact hp hc
  · next hc => exact hq hc

/-- A round for a backend that is configured leaves the configuration alone. -/
theorem wp_ensureSupervisor {t : TaskId} {w : World hubSignature} {config : HubConfig}
    {cfg : MCPServerConfig} (hw : InFleet st (fun s => s.config = config) t w)
    (hcfg : (config.find? cfg.name).isSome) :
    (ensureSupervisor cfg).wp hub disciplined (fun _ => True) t
      (fun _ => InFleet st (fun s => s.config = config) t) w := by
  rw [ensureSupervisor, Op.wp_bind]
  refine wp_ite (fun _ => hw) fun _ => wp_ite (fun _ => hw) fun _ => ?_
  rw [Op.wp_bind]
  refine wp_isRunning fun running => wp_ite (fun _ => hw) fun _ => ?_
  rw [Op.wp_bind]
  refine wp_storedConnection (fun x hx => ?_) fun _ => ?_
  · exact wp_startSupervisor hcfg ⟨hw.toAtRest, hw.holds, hx⟩
  · exact wp_startSupervisor hcfg (hw.act (.storeConnection _) fun h =>
      ⟨config_eval_of_servers rfl h, by rw [Act.connections_eval]; exact Dict.get?_set_self _ _ _⟩)

theorem wp_forEach_ensureSupervisor {t : TaskId} {config : HubConfig} :
    ∀ {l : List MCPServerConfig} {w : World hubSignature},
      InFleet st (fun s => s.config = config) t w →
      (∀ cfg ∈ l, (config.find? cfg.name).isSome) →
      (Op.forEach l ensureSupervisor).wp hub disciplined (fun _ => True) t
        (fun _ => InFleet st (fun s => s.config = config) t) w
  | [], _, hw, _ => hw
  | cfg :: l, w, hw, hl => by
    rw [Op.forEach, Op.wp_bind]
    refine Op.wp_mono (wp_ensureSupervisor hw (hl cfg List.mem_cons_self)) fun r w' hw' => ?_
    cases r with
    | ok u => exact wp_forEach_ensureSupervisor hw' fun c hc => hl c (List.mem_cons_of_mem _ hc)
    | error e => exact hw'

/-- A backend of the configuration is found by its name. -/
theorem isSome_find?_of_mem {config : HubConfig} {cfg : MCPServerConfig}
    (h : cfg ∈ config.mcpServers) : (config.find? cfg.name).isSome :=
  List.find?_isSome.mpr ⟨cfg, h, by simp⟩

theorem disciplined_ensureSupervisors : Disciplined st ensureSupervisors := by
  refine .get' fun t w hw => ?_
  have hfleet : InFleet st (fun s => s.config = Hub.config w.state) t w := ⟨hw, rfl⟩
  exact Op.wp_mono (wp_forEach_ensureSupervisor hfleet fun cfg hcfg => isSome_find?_of_mem hcfg)
    fun r w' hw' => hw'.toAtRest

theorem disciplined_coordinator : Disciplined st coordinator :=
  .bind disciplined_ensureSupervisors fun _ => .jump trivial

theorem disciplined_stopAll (l : List SupRef) :
    Disciplined st (Op.forEach l fun p =>
      catchException (ConnectionSupervisor.stop p) fun _ => pure ()) :=
  .forEach fun p _ => .catchException (disciplined_stop p) fun _ => .pure ()

theorem disciplined_coordinating : Disciplined st coordinating := by
  refine .get fun s => .ite (fun _ => disciplined_stopAll _) fun _ => ?_
  refine .bind (.wait' _) fun _ => .get fun s => .bind (.forEach fun e _ => ?_) fun _ => ?_
  · exact .get fun s => .when (.bind (.act fun _ => trivial) fun _ => .act fun _ => trivial)
  · exact .bind disciplined_ensureSupervisors fun _ => .jump trivial

theorem disciplined_startRetryLoop : Disciplined st startRetryLoop := by
  refine .get fun s => .bind (.isRunning _) fun _ => .ite (fun _ => .pure ()) fun _ => ?_
  exact .bind (.spawn fun _ => trivial) fun _ => .act fun _ => trivial

/-! ### The reaper and eviction -/

theorem disciplined_startReaper : Disciplined st startReaper := by
  refine .get fun s => .ite (fun _ => .pure ()) fun _ => .bind (.isRunning _) fun _ => ?_
  refine .ite (fun _ => .pure ()) fun _ => ?_
  exact .bind (.spawn fun _ => trivial) fun _ => .act fun _ => trivial

theorem disciplined_stopReaper : Disciplined st stopReaper := by
  refine .get fun s => .bind (.act fun _ => trivial) fun _ => .whenSome fun t => ?_
  exact .bind (.isRunning _) fun _ => .when (.cancelAndWait t)

theorem disciplined_checkAndEvict : Disciplined st checkAndEvict := by
  refine .get' fun t w hw => wp_ite (fun _ => hw) fun _ => ?_
  rw [Op.wp_bind]
  refine ⟨rfl, ?_⟩
  refine (Disciplined.when (.gatherSettled fun c hc s => ?_)) t _ (hw.exec trivial rfl)
  obtain ⟨name, -, rfl⟩ := List.mem_map.mp hc
  exact trivial

theorem disciplined_reaperLoop : Disciplined st reaperLoop :=
  .bind (.wait' _) fun _ => .bind (.catchException disciplined_checkAndEvict fun _ => .pure ())
    fun _ => .jump trivial

theorem disciplined_evict (name : String) : Disciplined st (evict name) := by
  refine .get fun s => .ite (fun _ => .pure ()) fun _ => ?_
  cases s.connections.get? name with
  | none => exact .act fun _ => trivial
  | some x =>
    refine .bind (.act fun _ => trivial) fun _ => ?_
    refine .bind (.catchException (disciplined_drainAndDisconnect x) fun _ => .pure ()) fun _ => ?_
    refine .bind (.withLock ?_) fun _ => .act fun _ => trivial
    exact .bind (.act fun _ => trivial) fun _ => .act fun _ => trivial

theorem disciplined_applyLruCap (name : String) : Disciplined st (applyLruCap name) := by
  refine .get fun s => .ite (fun _ => .pure ()) fun _ => .ite (fun _ => .pure ()) fun _ => ?_
  split
  · exact .pure ()
  · exact disciplined_evict _

/-! ### The operations of the manager -/

theorem disciplined_reconnect (name : String) : Disciplined st (reconnect name) := by
  refine disciplined_requesting (disciplined_withConfig fun cfg hname => .get fun s => ?_)
  refine .bind (.when (disciplined_disconnectStored name)) fun _ => ?_
  exact .bind (disciplined_connectTimed (hname ▸ inHand_single name st)) fun _ =>
    disciplined_report name _

theorem disciplined_connectOne (name : String) : Disciplined st (connectOne name) :=
  .bind (disciplined_reconnect name) fun _ => .pure _

theorem disciplined_ensureConnected (name : String) : Disciplined st (ensureConnected name) := by
  refine disciplined_requesting (.get fun s => .ite (fun _ => .pure true) fun _ => ?_)
  refine disciplined_withConfig fun cfg hname => ?_
  refine .bind (.when (disciplined_applyLruCap name)) fun _ => ?_
  exact .bind (disciplined_connectTimed (hname ▸ inHand_single name st)) fun _ =>
    .get fun s => .pure _

theorem disciplined_bounded (sem : ℕ) (cfg : MCPServerConfig) :
    Disciplined [.bounded sem cfg] (bounded sem cfg) :=
  .withLock (disciplined_connectTimed (Or.inr ⟨sem, cfg, rfl, List.mem_singleton_self _⟩))

/-- The stack in a phase of `connect_all`. -/
def inPhase (servers : List MCPServerConfig) (st : List Call) : List Call :=
  .requesting (servers.map MCPServerConfig.name) :: .armed (servers.map MCPServerConfig.name) :: st

/-- A phase starts with servers that are configured. -/
theorem wp_phase {α : Type} {servers : List MCPServerConfig} {p : HubOp α} {t : TaskId}
    {w : World hubSignature} (hw : Op.AtRest (fun _ => True) st t w)
    (hservers : ∀ cfg ∈ servers, cfg ∈ (Hub.config w.state).mcpServers)
    (hp : ∀ w', Op.AtRest (fun _ => True) (inPhase servers st) t w' →
      Hub.config w'.state = Hub.config w.state → p.wp hub disciplined (fun _ => True) t
        (fun _ => Op.AtRest (fun _ => True) (inPhase servers st) t) w') :
    (phase servers p).wp hub disciplined (fun _ => True) t
      (fun _ => Op.AtRest (fun _ => True) st t) w := by
  refine Disciplined.inside_of_wp hw (Or.inl ⟨rfl, fun name hname => ?_⟩) fun harmed => ?_
  · obtain ⟨cfg, hcfg, rfl⟩ := List.mem_map.mp hname
    exact isSome_find?_of_mem (hservers cfg hcfg)
  · exact Disciplined.inside_of_wp harmed rfl fun hasked => hp _ hasked rfl

/-- In a phase the tasks of its servers can be started. -/
theorem disciplined_spawnAll_phase (servers : List MCPServerConfig) (sem : ℕ) :
    Disciplined (inPhase servers st) (spawnAll (servers.map (Call.bounded sem))) := by
  refine .spawnAll fun c hc s => ?_
  obtain ⟨cfg, hcfg, rfl⟩ := List.mem_map.mp hc
  have hname : cfg.name ∈ servers.map MCPServerConfig.name := List.mem_map.mpr ⟨cfg, hcfg, rfl⟩
  exact Or.inl ⟨⟨_, hname, List.mem_cons_self⟩, _, hname,
    List.mem_cons_of_mem _ List.mem_cons_self⟩

theorem disciplined_connectAll : Disciplined st connectAll := by
  refine .get' fun t w hw => wp_ite (fun _ => hw) fun _ => ?_
  have hfilter (p : MCPServerConfig → Bool) : ∀ cfg ∈ ((Hub.config w.state).mcpServers.filter
      MCPServerConfig.enabled).filter p, cfg ∈ (Hub.config w.state).mcpServers :=
    fun cfg hcfg => List.mem_of_mem_filter (List.mem_of_mem_filter hcfg)
  refine Disciplined.bind_of_wp (wp_phase hw (hfilter _) fun w₁ hw₁ hconfig => ?_) fun tasks => ?_
  · refine wp_get_bind.mpr (Disciplined.bind_of_wp (wp_phase hw₁ ?_ fun w₂ hw₂ _ => ?_)
      fun ts => ?_)
    · rw [hconfig]
      exact hfilter _
    · exact Disciplined.bind (Disciplined.act (a := .makeSemaphore _) fun _ => trivial)
        (fun _ => disciplined_spawnAll_phase _ _) t w₂ hw₂
    · exact .bind (.when (.wait' _)) fun _ => disciplined_spawnAll_phase _ _
  · refine .bind (.when (.wait' _)) fun _ => .get fun s => ?_
    refine .bind (.when disciplined_startRetryLoop) fun _ => ?_
    exact .bind disciplined_startReaper fun _ => .get fun s => .pure _

theorem disciplined_disconnectAll : Disciplined st disconnectAll := by
  refine .bind (.act fun _ => trivial) fun _ => .get fun s => ?_
  refine .bind (.whenSome fun t => .bind (.isRunning _) fun _ => .when ?_) fun _ => ?_
  · exact .bind (.cancelAndWait t) fun _ => .act fun _ => trivial
  refine .bind disciplined_stopReaper fun _ => .get fun s => ?_
  refine .bind (.when (.bind (disciplined_stopAll _) fun _ => .act fun _ => trivial)) fun _ => ?_
  refine .get fun s => .bind (.when (.gather fun c hc s => ?_)) fun _ => .act fun _ => trivial
  obtain ⟨name, -, rfl⟩ := List.mem_map.mp hc
  exact trivial

theorem disciplined_disconnectOne (name : String) : Disciplined st (disconnectOne name) := by
  refine .withLock (.bind (disciplined_disconnectStored name) fun _ => ?_)
  refine .bind (.act fun _ => trivial) fun _ => .bind (.act fun _ => trivial) fun _ => ?_
  refine .bind (.act fun _ => trivial) fun _ => .bind (.act fun _ => trivial) fun _ => ?_
  exact .act fun _ => trivial

theorem disciplined_registerAndConnect {cfg : MCPServerConfig} (h : InHand st cfg.name)
    (harmed : Call.armed [cfg.name] ∈ st) : Disciplined st (registerAndConnect cfg) := by
  have hrest : Disciplined st (connectTimed cfg >>= fun _ => pure false) :=
    .bind (disciplined_connectTimed h) fun _ => .pure false
  refine .get' fun t w hw => wp_ite (fun _ => hw) fun _ => ?_
  rw [Op.wp_bind]
  refine wp_ite (fun _ => ⟨fun c hc => ?_, hrest t _ (hw.exec trivial rfl)⟩) fun _ => hrest t w hw
  rw [hw.stack]
  rcases List.mem_append.mp hc with hc | hc
  · exact Or.inl (isSome_find?_of_mem hc)
  · rw [List.mem_singleton.mp hc]
    exact Or.inr harmed

theorem disciplined_addServer (cfg : MCPServerConfig) : Disciplined st (addServer cfg) := by
  refine disciplined_requesting (.inside (fun _ => Or.inr ⟨_, rfl, rfl⟩) ?_)
  refine .bind (.withLock ?_) fun _ => .ite (fun _ => .pure _) fun _ => disciplined_report _ _
  exact disciplined_registerAndConnect (inHand_single _ st) List.mem_cons_self

theorem find?_filter_name (config : HubConfig) (name : String) :
    HubConfig.find? { config with
      mcpServers := config.mcpServers.filter fun cfg => cfg.name ≠ name } name = none := by
  rw [HubConfig.find?, List.find?_eq_none]
  intro cfg hcfg
  simpa using (List.mem_filter.mp hcfg).2

/-- After the locked part of `remove_server` the backend is no longer configured. -/
theorem wp_deregister {t : TaskId} {w : World hubSignature} {name : String}
    (hw : Op.AtRest (fun _ => True) st t w) :
    (deregister name).wp hub disciplined (fun _ => True) t
      (fun _ => InFleet st (fun s => s.config.find? name = none) t) w := by
  have hw : InFleet st (fun _ => True) t w := ⟨hw, trivial⟩
  refine hw.wp_act_bind (fun _ => True) trivial (fun _ => trivial) fun w hw => ?_
  refine hw.wp_act_bind (fun _ => True) trivial (fun _ => trivial) fun w hw => ?_
  refine hw.wp_act_bind (fun _ => True) trivial (fun _ => trivial) fun w hw => ?_
  refine hw.wp_act_bind (fun _ => True) trivial (fun _ => trivial) fun w hw => ?_
  rw [wp_get_bind]
  refine hw.wp_act_bind (fun s => s.config.find? name = none) (fun cfg hcfg => ?_)
    (fun _ => ?_) fun w hw => ?_
  · exact Or.inl (isSome_find?_of_mem (List.mem_of_mem_filter hcfg))
  · rw [Act.config_eval]
    exact find?_filter_name (Hub.config w.state) name
  · refine wp_act.mpr ⟨trivial, hw.act .syncRegistry fun h => ?_⟩
    rw [config_eval_of_servers rfl rfl]
    exact h

theorem disciplined_removeServer (name : String) : Disciplined st (removeServer name) := by
  refine .get fun s => ?_
  cases s.connections.get? name with
  | none => exact .pure _
  | some x =>
    refine .bind (disciplined_drainAndDisconnect x) fun _ => ?_
    intro t w hw
    rw [Op.wp_bind, withLock, Op.wp_bind]
    refine Op.wp_mono (Disciplined.acquire lock t w hw) fun r w' hw' => ?_
    cases r with
    | error e => exact hw'
    | ok u =>
      rw [Op.andThen_ok, Op.wp_ensure]
      refine Op.wp_mono (wp_deregister hw') fun r w'' hw'' => wp_act.mpr ⟨trivial, ?_⟩
      have hreleased := hw''.act (.release lock) (Q := fun s => s.config.find? name = none)
        fun h => by rw [config_eval_of_servers rfl rfl]; exact h
      cases r with
      | error e => exact hreleased.toAtRest
      | ok u => exact ⟨hreleased.holds, hreleased.toAtRest.exec trivial rfl⟩

theorem disciplined_replaceConfig (cfg : MCPServerConfig) :
    Disciplined st (replaceConfig cfg) := by
  refine .bind (.act fun _ => trivial) fun _ => .bind (.act fun _ => trivial) fun _ => ?_
  refine .get' fun t w hw => ⟨fun c hc => Or.inl ?_, hw.exec trivial rfl⟩
  obtain ⟨c', hc', rfl⟩ := List.mem_map.mp hc
  split
  · next hname => exact hname ▸ isSome_find?_of_mem hc'
  · exact isSome_find?_of_mem hc'

theorem disciplined_replaceServer (cfg : MCPServerConfig) :
    Disciplined st (replaceServer cfg) := by
  refine disciplined_requesting (.get fun s => .bind (.whenSome fun x => ?_) fun _ => ?_)
  · exact .bind (disciplined_drainAndDisconnect x) fun _ =>
      .withLock (disciplined_replaceConfig cfg)
  · exact disciplined_addServer cfg

theorem disciplined_fastRetry (name : String) : Disciplined st (fastRetry name) := by
  refine disciplined_requesting (disciplined_withConfig fun cfg hname => .get fun s => ?_)
  refine .bind (.whenSome fun x => .bind (.act fun _ => trivial) fun _ => ?_) fun _ => ?_
  · exact .catchException (disciplined_disconnect x) fun _ => .pure ()
  · exact .withLock (disciplined_connectTimed (hname ▸ inHand_single name st))

theorem disciplined_fastRetryRounds : ∀ delays : ℕ, Disciplined st (fastRetryRounds delays)
  | 0 => .get fun _ => .pure _
  | delays + 1 => .get fun _ => .ite (fun _ => .pure _) fun _ => .bind (.wait' _) fun _ =>
      .get fun _ => .bind (.forEach fun name _ => disciplined_fastRetry name) fun _ =>
        disciplined_fastRetryRounds delays

/-! ### The router and the proxy endpoint -/

section Routing

open FederationRouter ProxyEndpoint

theorem disciplined_resolve (name : String) : Disciplined st (resolve name) := by
  refine .get fun s => .ite (fun _ => .pure _) fun _ => .bind ?_ fun _ => .get fun s => ?_
  · refine .ite (fun _ => .pure true) fun _ => ?_
    exact .catchException (disciplined_ensureConnected name) fun _ => .pure false
  · cases s.pool.get? name with
    | none => exact .pure _
    | some x => exact .ite (fun _ => .pure _) fun _ => .pure _

theorem disciplined_callTool (x : ConnRef) (useStreaming : Bool) :
    Disciplined st (callTool x useStreaming) := by
  refine .ite (fun _ => .tryCatch (disciplined_request x _) fun e => ?_)
    fun _ => disciplined_request x _
  split
  · exact disciplined_request x _
  · exact .throw _

theorem disciplined_dispatchCall (cap : RegisteredCapability) (x : ConnRef) (streaming : Bool) :
    Disciplined st (dispatchCall cap x streaming) := by
  refine .ensure (.catchException (.bind (.wait' _) fun _ => ?_) fun _ => .pure _)
    (.act fun _ => trivial)
  exact .bind (disciplined_callTool x _) fun _ => .pure _

theorem disciplined_routeToolCall (name : String) (streaming : Bool) :
    Disciplined st (routeToolCall name streaming) := by
  refine .get fun s => ?_
  cases s.registry.lookupTool name with
  | none => exact .pure _
  | some cap =>
    refine .bind (disciplined_resolve cap.serverName) fun r => ?_
    cases r with
    | error message => exact .pure _
    | ok x => exact disciplined_dispatchCall cap x streaming

theorem disciplined_routeRead (kind : RequestKind) (name : String)
    (cap : Option RegisteredCapability) : Disciplined st (routeRead kind name cap) := by
  cases cap with
  | none => exact .pure _
  | some cap =>
    refine .bind (disciplined_resolve cap.serverName) fun r => ?_
    cases r with
    | error message => exact .pure _
    | ok x =>
      refine .ensure (.catchException ?_ fun _ => .pure _) (.act fun _ => trivial)
      exact .bind (disciplined_request x kind) fun _ => .pure _

theorem disciplined_handleJsonrpc (kind : RequestKind) (name : String) :
    Disciplined st (handleJsonrpc kind name) := by
  refine .get fun s => ?_
  cases s.connections.get? name with
  | none => exact .pure _
  | some x =>
    refine .ite (fun _ => .ite (fun _ => .pure _) fun _ => .pure _) fun _ => .ite (fun _ => ?_)
      fun _ => ?_
    · refine .ensure (.catchException (.bind (.ensure (disciplined_request x _) ?_) fun _ => ?_)
        fun _ => .pure _) (.catchException (.wait' _) fun _ => .pure ())
      · exact .act fun _ => trivial
      · exact .pure _
    · exact .catchException (.bind (disciplined_request x _) fun _ => .pure _) fun _ => .pure _

end Routing

/-! ### The system -/

theorem wp_outcome {α : Type} {value : α → Value} {p : HubOp α} {t : TaskId}
    {w : World hubSignature} (h : Disciplined st p) (hw : Op.AtRest (fun _ => True) st t w) :
    (outcome value p).wp hub disciplined (fun _ => True) t (fun _ _ => True) w := by
  refine Coro.wp_bind.mpr (Coro.wp_mono (fun r w' _ => ?_) (h t w hw))
  cases r <;> exact trivial

/-- **Every program keeps the discipline.** -/
theorem verified_hub : Verified hub disciplined fun _ => True := by
  intro c r t w _ ht hstack
  have hw : Op.AtRest (fun _ => True) [c] t w := ⟨trivial, ht, hstack⟩
  have hprogram : c.program.wp hub disciplined (fun _ => True) t (fun _ _ => True) w := by
    cases c with
    | connectAll => exact wp_outcome disciplined_connectAll hw
    | reconnect name => exact wp_outcome (disciplined_reconnect name) hw
    | connectOne name => exact wp_outcome (disciplined_connectOne name) hw
    | ensureConnected name => exact wp_outcome (disciplined_ensureConnected name) hw
    | evict name => exact wp_outcome (disciplined_evict name) hw
    | disconnectOne name => exact wp_outcome (disciplined_disconnectOne name) hw
    | addServer cfg => exact wp_outcome (disciplined_addServer cfg) hw
    | removeServer name => exact wp_outcome (disciplined_removeServer name) hw
    | replaceServer cfg => exact wp_outcome (disciplined_replaceServer cfg) hw
    | fastRetryFailed => exact wp_outcome (disciplined_fastRetryRounds 3) hw
    | disconnectAll => exact wp_outcome disciplined_disconnectAll hw
    | routeToolCall name streaming => exact wp_outcome (disciplined_routeToolCall name streaming) hw
    | routeStreamingCall name => exact wp_outcome (disciplined_routeToolCall name true) hw
    | routeResourceRead uri =>
      exact wp_outcome (.get fun _ => disciplined_routeRead _ uri _) hw
    | routePromptGet name => exact wp_outcome (.get fun _ => disciplined_routeRead _ name _) hw
    | proxyRequest kind name => exact wp_outcome (disciplined_handleJsonrpc kind name) hw
    | bounded sem cfg => exact wp_outcome (disciplined_bounded sem cfg) hw
    | closing name => exact wp_outcome (disciplined_disconnectStored name) hw
    | coordinator => exact wp_outcome disciplined_coordinator hw
    | coordinating => exact wp_outcome disciplined_coordinating hw
    | supervised p => exact wp_outcome (disciplined_supervisedLoop (List.mem_singleton_self _)) hw
    | parked p => exact wp_outcome (disciplined_park p) hw
    | reaper => exact wp_outcome disciplined_reaperLoop hw
    | _ => exact trivial
  cases r with
  | raised e => exact trivial
  | _ => exact hprogram

/-- **Every statement of every run is disciplined.** -/
theorem reach_disciplined {C : World hubSignature → TaskId → Stmt hubSignature → Prop} {s : Hub}
    {cf : Config hubSignature} (h : Reach hub C s cf) :
    Reach hub (fun w t st => C w t st ∧ disciplined w t st) s cf :=
  (verified_hub.reach (fun _ _ => trivial) trivial h).1

end SlmMcpHub
