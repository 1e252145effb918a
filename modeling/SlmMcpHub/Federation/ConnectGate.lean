import SlmMcpHub.Federation.Signature
import SlmMcpHub.Library.StackDiscipline

/-!
# The gate of `_connect_timed`

`ConnectionManager._connect_timed` once more, seen from its gate. Requests for any backends come and
go; each either leads an attempt or joins the one that is being made. What an attempt does is left
to the outside: `conn.connect()` may end in any way and at any time, with an exception of its own or
a `CancelledError` whether or not the request was asked to stop, and so may the `disconnect()` after
a timeout.

The sections mark which of the two a request is, and with which event.

## Main definitions

* `connectTimed` — a request
* `gate` — the requests as a system of tasks

## Main results

* `singleFlight` — one attempt for a backend at a time, an entry of the gate exactly while there is
  one, and no request waits for an attempt that has ended
-/

namespace SlmMcpHub

namespace ConnectGate

/-! ### Requests -/

/-- The part of the manager's state the gate is made of. -/
structure Gate where
  /-- `_connect_events` -/
  connectEvents : Dict String ℕ := .empty
  events : ℕ → Bool := fun _ => false
  nextEvent : ℕ := 0

/-- The atomic changes of the gate. -/
inductive Act where
  /-- `connect_done = asyncio.Event(); self._connect_events[name] = connect_done` -/
  | enterGate (name : String)
  /-- `connect_done.set(); self._connect_events.pop(name, None)` -/
  | leaveGate (name : String) (connectDone : ℕ)
  | nop

/-- What a task can be in. -/
inductive Call where
  | connectTimed (serverConfig : MCPServerConfig)
  /-- Past the gate. -/
  | leading (name : String) (connectDone : ℕ)
  /-- Waiting for the attempt of another request. -/
  | joining (name : String) (connectDone : ℕ)
  deriving DecidableEq

/-- What a task can wait for. -/
inductive Wait where
  | turn
  | event (e : ℕ)
  /-- `asyncio.wait_for(conn.connect(), timeout=timeout_seconds)` -/
  | connect
  /-- `conn.disconnect()` -/
  | disconnect

/-- The signature of the gate. -/
abbrev gateSignature : Signature := ⟨Gate, Act, Call, Wait, Except Exc Unit, Empty⟩

/-- Operations at the gate. -/
abbrev GateOp (α : Type) := Op gateSignature Exc α

/-- Wait, and raise what comes back as an exception. -/
def wait (w : Wait) : GateOp Unit := Coro.await (S := gateSignature) w Coro.ret

/-- The `try` of `_connect_timed` that is past the gate. -/
def attempt : GateOp Unit :=
  tryCatch (wait .connect) fun e =>
    if e = .timeout then
      tryCatch (wait .disconnect) fun e => if e.isException then pure () else throw e
    else if e.isException then
      pure ()
    else
      throw e

/-- `_connect_timed` -/
def connectTimed (serverConfig : MCPServerConfig) : GateOp Unit := do
  let name := serverConfig.name
  let s ← (Op.get : GateOp Gate)
  match s.connectEvents.get? name with
  | some connectDone =>
    Op.within (S := gateSignature) .nop (.joining name connectDone) .nop (wait (.event connectDone))
  | none =>
    Op.within (S := gateSignature) (.enterGate name) (.leading name s.nextEvent)
      (.leaveGate name s.nextEvent) attempt

/-! ### The system -/

/-- What an act does. -/
def Act.eval (s : Gate) : Act → Gate
  | .enterGate name =>
    { connectEvents := s.connectEvents.set name s.nextEvent
      events := Function.update s.events s.nextEvent false
      nextEvent := s.nextEvent + 1 }
  | .leaveGate name connectDone =>
    { s with
      events := Function.update s.events connectDone true
      connectEvents := s.connectEvents.erase name }
  | .nop => s

/-- Whether a wait can end, and with what. -/
def ready (w : World gateSignature) (t : TaskId) : Wait → Except Exc Unit → Bool
  | .connect, _ | .disconnect, _ => true
  | .turn, .ok () => !(w.tasks t).requested
  | .event e, .ok () => !(w.tasks t).requested && Gate.events w.state e
  | _, .error e => e = .cancelled && (w.tasks t).requested

/-- The program of a task, given how the wait for its first turn ended. -/
def Call.body : Call → Except Exc Unit → Coro gateSignature (Except Exc Unit)
  | .connectTimed cfg, .ok () => ConnectGate.connectTimed cfg
  | _, r => .ret r

/-- Whether callers can ask for it. -/
def Call.isClient : Call → Bool
  | .connectTimed _ => true
  | _ => false

/-- Requests at the gate. -/
def gate : System gateSignature where
  eval _ a s := a.eval s
  turn := .turn
  ready := ready
  joins _ := []
  body := Call.body
  again := .ok ()
  client := Call.isClient
  tick e _ := nomatch e

/-- A request for a backend is past the gate. -/
def Leads (w : World gateSignature) (t : TaskId) (name : String) (connectDone : ℕ) : Prop :=
  Call.leading name connectDone ∈ (w.tasks t).stack

/-- A request for a backend has joined the attempt of another. -/
def Joins (w : World gateSignature) (t : TaskId) (name : String) (connectDone : ℕ) : Prop :=
  Call.joining name connectDone ∈ (w.tasks t).stack

/-! ### What a request waits for -/

/-- A request that has joined an attempt waits for its event. -/
def WaitsFor (st : List Call) (wt : Wait) : Prop :=
  ∀ name e, .joining name e ∈ st → (∃ c, st = [c]) ∨ wt = .event e

theorem follows_wait {st : List Call} {wt : Wait} (h : WaitsFor st wt) :
    Op.Follows (S := gateSignature) WaitsFor st (wait wt) := ⟨h, fun _ => rfl⟩

theorem follows_attempt (name : String) (e : ℕ) (cfg : MCPServerConfig) :
    Op.Follows (S := gateSignature) WaitsFor [.leading name e, .connectTimed cfg] attempt := by
  have hwait : ∀ wt, Op.Follows (S := gateSignature) WaitsFor
      [.leading name e, .connectTimed cfg] (wait wt) :=
    fun wt => follows_wait fun _ _ h => by simp at h
  refine Op.Follows.tryCatch (hwait .connect) fun exc => Op.Follows.ite ?_ ?_
  · exact Op.Follows.tryCatch (hwait .disconnect) fun exc' =>
      Op.Follows.ite (Op.Follows.pure ()) (Op.Follows.throw exc')
  · exact Op.Follows.ite (Op.Follows.pure ()) (Op.Follows.throw exc)

theorem follows_connectTimed (cfg : MCPServerConfig) :
    Op.Follows (S := gateSignature) WaitsFor [.connectTimed cfg] (connectTimed cfg) := by
  refine Op.Follows.bind Op.Follows.get fun s => ?_
  cases s.connectEvents.get? cfg.name with
  | some e =>
    refine Op.Follows.within (follows_wait fun name e' h => Or.inr ?_)
    simp only [List.mem_cons, reduceCtorEq, List.not_mem_nil, or_false] at h
    cases h
    rfl
  | none => exact Op.Follows.within (follows_attempt _ _ _)

theorem orderly_gate : Orderly gate WaitsFor where
  turn c _ _ _ := Or.inl ⟨c, rfl⟩
  body c r := by
    cases c with
    | connectTimed cfg =>
      cases r with
      | ok u => exact follows_connectTimed cfg
      | error e => rfl
    | leading name e => rfl
    | joining name e => rfl

/-! ### What the statements can count on -/

/-- How a request goes on at the gate. -/
inductive Entry (s : Gate) (name : String) : Act → Call → Prop where
  | lead (h : s.connectEvents.get? name = none) :
      Entry s name (.enterGate name) (.leading name s.nextEvent)
  | join {e : ℕ} (h : s.connectEvents.get? name = some e) : Entry s name .nop (.joining name e)

/-- How a request leaves a section. -/
inductive Exit : Act → Call → Prop where
  | lead (name : String) (e : ℕ) : Exit (.leaveGate name e) (.leading name e)
  | join (name : String) (e : ℕ) : Exit .nop (.joining name e)

/-- What every statement can count on. -/
def guarded (w : World gateSignature) (t : TaskId) : Stmt gateSignature → Prop
  | .push a c => ∃ cfg, (w.tasks t).stack = [.connectTimed cfg] ∧ Entry w.state cfg.name a c
  | .pop a => ∃ c cfg, (w.tasks t).stack = [c, .connectTimed cfg] ∧ Exit a c
  | _ => False

/-- An operation without statements of its own. -/
def Guarded (st : List Call) (p : GateOp Unit) : Prop :=
  Op.Keeps gate guarded (fun _ => True) st p

theorem guarded_wait (st : List Call) (wt : Wait) : Guarded st (wait wt) :=
  fun _ _ h => ⟨trivial, fun _ _ _ ht hstack _ =>
    ⟨trivial, ht, (World.stack_resumed _ _ _).trans (hstack.trans h.stack)⟩⟩

theorem guarded_attempt (st : List Call) : Guarded st attempt := by
  refine Op.Keeps.tryCatch (guarded_wait st .connect) fun exc => ?_
  split
  · refine Op.Keeps.tryCatch (guarded_wait st .disconnect) fun exc' => ?_
    split
    · exact Op.Keeps.pure ()
    · exact Op.Keeps.throw exc'
  · split
    · exact Op.Keeps.pure ()
    · exact Op.Keeps.throw exc

theorem guarded_connectTimed (cfg : MCPServerConfig) :
    Guarded [.connectTimed cfg] (connectTimed cfg) := by
  refine Op.Keeps.get_bind fun t w hw => ?_
  have hwithin : ∀ {enter leave c} {p : GateOp Unit}, Entry w.state cfg.name enter c →
      Exit leave c → Guarded [c, .connectTimed cfg] p →
      (Op.within (S := gateSignature) enter c leave p).wp gate guarded (fun _ => True) t
        (fun _ => Op.AtRest (fun _ => True) [.connectTimed cfg] t) w :=
    fun henter hleave hp => hw.within ⟨cfg, hw.stack, henter⟩
      (fun _ hw' => ⟨_, cfg, hw'.stack, hleave⟩) (fun _ _ => trivial) (fun _ _ => trivial) hp
  cases hgate : Gate.connectEvents w.state |>.get? cfg.name with
  | some e => exact hwithin (.join hgate) (.join cfg.name e) (guarded_wait _ _)
  | none => exact hwithin (.lead hgate) (.lead cfg.name _) (guarded_attempt _)

theorem verified_gate : Verified gate guarded fun _ => True := by
  intro c r t w _ ht hstack
  cases c with
  | connectTimed cfg =>
    cases r with
    | ok u =>
      exact Op.wp_mono (guarded_connectTimed cfg t w ⟨trivial, ht, hstack⟩) fun _ _ _ => trivial
    | error e => trivial
  | leading name e => trivial
  | joining name e => trivial

theorem reach_guarded {C : World gateSignature → TaskId → Stmt gateSignature → Prop} {s : Gate}
    {cf : Config gateSignature} (h : Reach gate C s cf) : Reach gate guarded s cf :=
  (verified_gate.reach (fun _ _ => trivial) trivial h).1.imp fun _ _ _ hC => hC.2

/-! ### Consistency -/

/-- The entries of the gate are the attempts in progress, and a request that has joined one waits
for an entry or for an event that is set. -/
structure Consistent (s : Gate) (f : TaskId → List Call) : Prop where
  /-- A task that is in nothing but one procedure is in one that callers can ask for. -/
  root : ∀ {t c}, f t = [c] → c.isClient = true
  held : ∀ {name e}, s.connectEvents.get? name = some e ↔ ∃ t, .leading name e ∈ f t
  alone : ∀ {t u name e}, .leading name e ∈ f t → .leading name e ∈ f u → t = u
  fresh : ∀ {name e}, s.connectEvents.get? name = some e → e < s.nextEvent
  joined : ∀ {t name e}, .joining name e ∈ f t →
    e < s.nextEvent ∧ (s.connectEvents.get? name = some e ∨ s.events e = true)

theorem consistent_start : Consistent {} fun _ => [] where
  root h := nomatch h
  held := ⟨nofun, fun ⟨_, h⟩ => nomatch h⟩
  alone h := nomatch h
  fresh h := nomatch h
  joined h := nomatch h

/-- A change of the stacks alone that neither begins nor ends an attempt. -/
theorem Consistent.of_leading_iff {s : Gate} {f f' : TaskId → List Call} (h : Consistent s f)
    (hroot : ∀ {t c}, f' t = [c] → c.isClient = true)
    (hleading : ∀ {t name e}, Call.leading name e ∈ f' t ↔ Call.leading name e ∈ f t)
    (hjoining : ∀ {t name e}, Call.joining name e ∈ f' t →
      Call.joining name e ∈ f t ∨ s.connectEvents.get? name = some e) : Consistent s f' where
  root := hroot
  held := h.held.trans (exists_congr fun _ => hleading.symm)
  alone ht hu := h.alone (hleading.mp ht) (hleading.mp hu)
  fresh := h.fresh
  joined ht := by
    rcases hjoining ht with ht | hname
    · exact h.joined ht
    · exact ⟨h.fresh hname, Or.inl hname⟩

section Update

variable {s : Gate} {f : TaskId → List Call} {t : TaskId} {st : List Call}

theorem root_update (h : Consistent s f) (hst : ∀ c, st = [c] → c.isClient = true) {u : TaskId}
    {c : Call} (hu : Function.update f t st u = [c]) : c.isClient = true := by
  rcases eq_or_ne u t with rfl | hne
  · rw [Function.update_self] at hu
    exact hst c hu
  · rw [Function.update_of_ne hne] at hu
    exact h.root hu

/-- An attempt begins. -/
theorem Consistent.lead (h : Consistent s f) {cfg : MCPServerConfig} {name : String}
    (ht : f t = [.connectTimed cfg]) (hfree : s.connectEvents.get? name = none) :
    Consistent (Act.eval s (.enterGate name))
      (Function.update f t (.leading name s.nextEvent :: f t)) := by
  rw [ht]
  have hleads : ∀ {u n e}, Call.leading n e ∈
      Function.update f t [.leading name s.nextEvent, .connectTimed cfg] u ↔
        (u = t ∧ n = name ∧ e = s.nextEvent) ∨ (u ≠ t ∧ Call.leading n e ∈ f u) := by
    intro u n e
    rw [mem_update_iff]
    simp
  have hnobody : ∀ {u e}, Call.leading name e ∉ f u := by
    intro u e hu
    have hheld := h.held.mpr ⟨u, hu⟩
    rw [hfree] at hheld
    cases hheld
  refine ⟨root_update h (fun _ hc => by cases hc), fun {n e} => ?_, fun {u v n e} hu hv => ?_,
    fun {n e} hn => ?_, fun {u n e} hu => ?_⟩
  · show (s.connectEvents.set name s.nextEvent).get? n = some e ↔ _
    simp only [hleads]
    rcases eq_or_ne name n with rfl | hne
    · rw [Dict.get?_set_self]
      constructor
      · intro he
        exact ⟨t, Or.inl ⟨rfl, rfl, (Option.some.inj he).symm⟩⟩
      · rintro ⟨u, ⟨-, -, rfl⟩ | ⟨-, hu⟩⟩
        · rfl
        · exact absurd hu hnobody
    · rw [Dict.get?_set_of_ne hne, h.held]
      constructor
      · rintro ⟨u, hu⟩
        refine ⟨u, Or.inr ⟨?_, hu⟩⟩
        rintro rfl
        simp [ht] at hu
      · rintro ⟨u, ⟨-, hn, -⟩ | ⟨-, hu⟩⟩
        · exact absurd hn.symm hne
        · exact ⟨u, hu⟩
  · rw [hleads] at hu hv
    rcases hu with ⟨rfl, rfl, rfl⟩ | ⟨-, hu⟩ <;> rcases hv with ⟨rfl, hv⟩ | ⟨-, hv⟩
    · rfl
    · exact absurd hv hnobody
    · exact absurd (hv.1 ▸ hu) hnobody
    · exact h.alone hu hv
  · change (s.connectEvents.set name s.nextEvent).get? n = some e at hn
    show e < s.nextEvent + 1
    rw [Dict.get?_set] at hn
    split at hn
    · cases hn
      exact Nat.lt_succ_self _
    · exact Nat.lt_succ_of_lt (h.fresh hn)
  · rw [mem_update_iff] at hu
    obtain ⟨-, hu⟩ | ⟨-, hu⟩ := hu
    · simp at hu
    · obtain ⟨hlt, hjoined⟩ := h.joined hu
      refine ⟨Nat.lt_succ_of_lt hlt, ?_⟩
      show (s.connectEvents.set name s.nextEvent).get? n = some e ∨
        Function.update s.events s.nextEvent false e = true
      rw [Function.update_of_ne (Nat.ne_of_lt hlt)]
      refine hjoined.imp_left fun hn => ?_
      rwa [Dict.get?_set_of_ne]
      rintro rfl
      rw [hfree] at hn
      cases hn

/-- An attempt ends: its event is set, and whoever has joined it need not wait any more. -/
theorem Consistent.leave (h : Consistent s f) {cfg : MCPServerConfig} {name : String} {e : ℕ}
    (ht : f t = [.leading name e, .connectTimed cfg]) :
    Consistent (Act.eval s (.leaveGate name e)) (Function.update f t (f t).tail) := by
  rw [ht, List.tail_cons]
  have hmine : Call.leading name e ∈ f t := by
    rw [ht]
    exact List.mem_cons_self
  have hentry : s.connectEvents.get? name = some e := h.held.mpr ⟨t, hmine⟩
  have hleads : ∀ {u n e'}, Call.leading n e' ∈ Function.update f t [.connectTimed cfg] u ↔
      u ≠ t ∧ Call.leading n e' ∈ f u := by
    intro u n e'
    rw [mem_update_iff]
    simp
  refine ⟨root_update h fun c hc => ?_, fun {n e'} => ?_, fun {u v n e'} hu hv => ?_,
    fun {n e'} hn => ?_, fun {u n e'} hu => ?_⟩
  · cases hc
    rfl
  · show (s.connectEvents.erase name).get? n = some e' ↔ _
    simp only [hleads]
    rcases eq_or_ne name n with rfl | hne
    · rw [Dict.get?_erase_self]
      constructor
      · intro hnone
        cases hnone
      · rintro ⟨u, hut, hu⟩
        have he : e' = e := by
          have hheld := h.held.mpr ⟨u, hu⟩
          rw [hentry] at hheld
          exact (Option.some.inj hheld).symm
        exact absurd (h.alone (he ▸ hu) hmine) hut
    · rw [Dict.get?_erase_of_ne hne, h.held]
      refine exists_congr fun u => ⟨fun hu => ⟨?_, hu⟩, And.right⟩
      rintro rfl
      rw [ht] at hu
      simp at hu
      exact hne hu.1.symm
  · rw [hleads] at hu hv
    exact h.alone hu.2 hv.2
  · change (s.connectEvents.erase name).get? n = some e' at hn
    rw [Dict.get?_erase] at hn
    split at hn
    · cases hn
    · exact h.fresh hn
  · rw [mem_update_iff] at hu
    obtain ⟨-, hu⟩ | ⟨-, hu⟩ := hu
    · simp at hu
    · obtain ⟨hlt, hjoined⟩ := h.joined hu
      refine ⟨hlt, ?_⟩
      show (s.connectEvents.erase name).get? n = some e' ∨
        Function.update s.events e true e' = true
      rcases eq_or_ne e' e with rfl | hne
      · exact Or.inr (Function.update_self _ _ _)
      · rw [Function.update_of_ne hne]
        refine hjoined.imp_left fun hn => ?_
        rwa [Dict.get?_erase_of_ne]
        rintro rfl
        rw [hentry] at hn
        exact hne (Option.some.inj hn).symm

/-- A request joins an attempt, or leaves one it had joined. -/
theorem Consistent.join (h : Consistent s f) {cfg : MCPServerConfig} {name : String} {e : ℕ}
    (ht : f t = [.connectTimed cfg]) (hentry : s.connectEvents.get? name = some e) :
    Consistent s (Function.update f t (.joining name e :: f t)) := by
  rw [ht]
  refine h.of_leading_iff (root_update h fun _ hc => by cases hc)
    (fun {u n e'} => ?_) fun {u n e'} hu => ?_
  · rw [mem_update_iff]
    rcases eq_or_ne u t with rfl | hne
    · simp [ht]
    · simp [hne]
  · rw [mem_update_iff] at hu
    obtain ⟨-, hu⟩ | ⟨-, hu⟩ := hu
    · simp at hu
      obtain ⟨rfl, rfl⟩ := hu
      exact Or.inr hentry
    · exact Or.inl hu

/-- A stack without sections takes the place of one without attempts. -/
theorem Consistent.plain (h : Consistent s f) (hroot : ∀ c, st = [c] → c.isClient = true)
    (hst : ∀ c ∈ st, c.isClient = true) (ht : ∀ name e, Call.leading name e ∉ f t) :
    Consistent s (Function.update f t st) := by
  refine h.of_leading_iff (root_update h hroot) (fun {u n e} => ?_) fun {u n e} hu => ?_
  · rw [mem_update_iff]
    rcases eq_or_ne u t with rfl | hne
    · have hno : Call.leading n e ∉ st := fun hmem => nomatch hst _ hmem
      simp [hno, ht]
    · simp [hne]
  · rw [mem_update_iff] at hu
    obtain ⟨-, hu⟩ | ⟨-, hu⟩ := hu
    · exact nomatch hst _ hu
    · exact Or.inl hu

end Update

/-- A task about to be done is in no attempt. -/
theorem Consistent.finish {s : Gate} {f : TaskId → List Call} (h : Consistent s f) {t : TaskId}
    {c : Call} (ht : f t = [c]) : Consistent s (Function.update f t []) := by
  refine h.plain (fun _ hc => by cases hc) (fun _ hc => by cases hc) fun name e hmem => ?_
  rw [ht, List.mem_singleton] at hmem
  have hclient := h.root ht
  rw [← hmem] at hclient
  cases hclient

theorem consistent_invariant : CountInvariant gate guarded Consistent where
  stmt {w t st} h _ hguard := by
    cases st with
    | push a c =>
      obtain ⟨cfg, hstack, hentry⟩ := hguard
      have ht : w.frames t = [.connectTimed cfg] := hstack
      rw [World.frames_push]
      cases hentry with
      | lead hfree => exact h.lead ht hfree
      | join hentry => exact h.join ht hentry
    | pop a =>
      obtain ⟨c, cfg, hstack, hexit⟩ := hguard
      have ht : w.frames t = [c, .connectTimed cfg] := hstack
      rw [World.frames_pop]
      cases hexit with
      | lead name e => exact h.leave ht
      | join name e =>
        rw [ht, List.tail_cons]
        refine h.plain (fun c hc => ?_) (fun c hc => ?_) fun name' e' hmem => ?_
        · cases hc
          rfl
        · rw [List.mem_singleton.mp hc]
          rfl
        · rw [ht] at hmem
          simp at hmem
    | act a => exact hguard.elim
    | spawn c => exact hguard.elim
    | cancel u => exact hguard.elim
    | jump c => exact hguard.elim
  call {s f t c} hc ht h := by
    refine h.plain (fun c' hc' => ?_) (fun c' hc' => ?_) fun name e hmem => ?_
    · cases hc'
      exact hc
    · rwa [List.mem_singleton.mp hc']
    · rw [ht] at hmem
      cases hmem
  finish ht h := h.finish ht
  tick {e} := nomatch e

/-- **One attempt at a time.** However requests for any backends and attempts are interleaved, and
however each of them ends: no two requests are past the gate for the same backend, the gate has an
entry for a backend exactly while a request for it is past the gate, and a request that has joined
an attempt can go on as soon as that attempt has ended. -/
theorem singleFlight {cf : Config gateSignature} (h : Reach gate (fun _ _ _ => True) {} cf)
    (name : String) :
    (∀ t u e e', Leads cf.world t name e → Leads cf.world u name e' → t = u) ∧
      ((Gate.connectEvents cf.world.state).contains name = true ↔
        ∃ t e, Leads cf.world t name e) ∧
      ∀ t e, Joins cf.world t name e → (∀ u, ¬ Leads cf.world u name e) →
        (∀ p, cf.running ≠ some (t, p)) → cf.CanResume gate t := by
  have hinv := consistent_invariant.reach orderly_gate consistent_start (reach_guarded h)
  refine ⟨fun t u e e' ht hu => ?_, ?_, fun t e ht hended hrun => ?_⟩
  · have he : some e = some e' := (hinv.held.mpr ⟨t, ht⟩).symm.trans (hinv.held.mpr ⟨u, hu⟩)
    exact hinv.alone ht (Option.some.inj he ▸ hu)
  · rw [Dict.contains_iff, Dict.mem_keys_iff, exists_comm]
    exact exists_congr fun e => hinv.held
  · have hset : Gate.events cf.world.state e = true := by
      refine (hinv.joined ht).2.resolve_left fun hentry => ?_
      obtain ⟨u, hu⟩ := hinv.held.mp hentry
      exact hended u hu
    obtain ⟨k, wt, hk, hwt, hA⟩ := orderly_gate.waits h (List.ne_nil_of_mem ht) hrun
    obtain ⟨c, hc⟩ | rfl := hA name e ht
    · have hclient := hinv.root hc
      rw [Joins, hc, List.mem_singleton] at ht
      rw [← ht] at hclient
      cases hclient
    · cases hrequested : (cf.world.tasks t).requested with
      | false =>
        refine ⟨k, _, .ok (), hk, hwt, ?_⟩
        show (!(cf.world.tasks t).requested && Gate.events cf.world.state e) = true
        rw [hrequested, hset]
        rfl
      | true =>
        refine ⟨k, _, .error .cancelled, hk, hwt, ?_⟩
        show (decide (Exc.cancelled = .cancelled) && (cf.world.tasks t).requested) = true
        rw [hrequested]
        rfl

/-- Two requests for a backend, and the one that leads is cancelled. -/
def cancelledAttempt : List (Move gateSignature) :=
  [.call (.connectTimed { name := "a" }), .resume 0 (.ok ()), .call (.connectTimed { name := "a" }),
    .resume 1 (.ok ()), .resume 0 (.error .cancelled)]

theorem singleFlight_cancelled : ∃ cf, Reach gate (fun _ _ _ => True) {} cf ∧
    Joins cf.world 1 "a" 0 ∧ cf.CanResume gate 1 := by
  have hplay : (Config.play gate (fun _ _ _ => true) 20 cancelledAttempt (Config.start {})).any
      (fun cf => cf.running.isNone && Call.joining "a" 0 ∈ (cf.world.tasks 1).stack &&
        Call.leading "a" 0 ∉ cf.world.inProgress) = true := by
    decide
  obtain ⟨cf, hrun, hcf⟩ := (Option.any_eq_true _ _).mp hplay
  simp only [Bool.and_eq_true, Option.isNone_iff_eq_none, decide_eq_true_eq] at hcf
  obtain ⟨⟨hidle, hjoins⟩, hended⟩ := hcf
  have hreach : Reach gate (fun _ _ _ => True) {} cf := reach_play (fun _ => trivial) .refl hrun
  refine ⟨cf, hreach, hjoins, (singleFlight hreach "a").2.2 1 0 hjoins (fun u hu => hended ?_)
    fun p hp => ?_⟩
  · exact (orderly_gate.reach hreach).1.mem_inProgress ⟨u, hu⟩
  · rw [hidle] at hp
    cases hp

end ConnectGate

end SlmMcpHub
