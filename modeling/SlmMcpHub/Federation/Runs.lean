import SlmMcpHub.Federation.Contracts
import SlmMcpHub.Library.CoroutineRun

/-!
# Statements of a run

Every statement of a run changes the state by one act, and what happens between the acts, a tick of
the clock or a new notifier, touches nothing else. An invariant of the runs of the hub is therefore
a property of the state that every act keeps, given the discipline.

## Main definitions

* `Stmt.toAct` — the act of a statement
* `HubInvariant` — a property of the state and of what is in progress that every act keeps

## Main results

* `HubInvariant.reach` — it holds in every run
* `HubInvariant.reach_and` — and the invariants after it may rely on it
-/

namespace SlmMcpHub

/-- The act of a statement. -/
def Stmt.toAct : Stmt hubSignature → Act
  | .act a => a
  | .push a _ => a
  | .pop a => a
  | _ => .nop

theorem effect_hub (w : World hubSignature) (t : TaskId) (st : Stmt hubSignature) :
    w.effect hub t st = st.toAct.eval w.state := by
  cases st <;> rfl

/-- The only things a program remembers by itself. -/
inductive Announced : Event → Prop
  | asked (names : List String) : Announced (.asked names)
  | added (name : String) : Announced (.added name)
  | evicted (name : String) : Announced (.evicted name)
  | removed (name : String) : Announced (.removed name)

theorem announced_of_disciplined {w : World hubSignature} {t : TaskId}
    {st : Stmt hubSignature} {e : Event} (h : disciplined w t st) (he : st.toAct = .note e) :
    Announced e := by
  cases st with
  | act a =>
    obtain rfl : a = .note e := he
    cases e with
    | evicted name => exact .evicted name
    | removed name => exact .removed name
    | _ => exact h.elim
  | push a c =>
    obtain rfl : a = .note e := he
    cases c with
    | requesting names =>
      cases h
      exact .asked names
    | armed names =>
      rcases h with ⟨h, -⟩ | ⟨name, -, h⟩
      · cases h
      · cases h
        exact .added name
    | attempt x => cases h.1
    | connect x => cases h.1
    | dispatch x n kind => cases h.1
    | _ => exact h.elim
  | pop a =>
    obtain rfl : a = .note e := he
    rcases h with h | ⟨x, n, kind, -, h⟩ <;> cases h
  | _ => cases he

/-- How a statement enters a procedure. -/
theorem entered {w : World hubSignature} {t : TaskId} {st : Stmt hubSignature} {c : Call}
    (h : disciplined w t st) (hc : st.enters = some c) :
    c.EntryAllowed w.state (w.tasks t).stack st.toAct ∨ c.SpawnAllowed w.state (w.tasks t).stack ∨
      c.JumpAllowed (w.tasks t).stack := by
  cases st with
  | push a c' => exact Option.some.inj hc ▸ Or.inl h
  | spawn c' => exact Option.some.inj hc ▸ Or.inr (Or.inl h)
  | jump c' => exact Option.some.inj hc ▸ Or.inr (Or.inr h)
  | _ => cases hc

/-- Where an act of a statement comes from. -/
theorem acted {w : World hubSignature} {t : TaskId} {st : Stmt hubSignature}
    (h : disciplined w t st) :
    st.toAct = .nop ∨ st.toAct.Allowed w.state (w.tasks t).stack ∨
      (∃ c, st.enters = some c ∧ c.EntryAllowed w.state (w.tasks t).stack st.toAct) ∨
        ∃ x n kind, (w.tasks t).stack.head? = some (.dispatch x n kind) ∧
          st.toAct = .endRequest x n := by
  cases st with
  | act a => exact Or.inr (Or.inl h)
  | push a c => exact Or.inr (Or.inr (Or.inl ⟨c, rfl, h⟩))
  | pop a => exact h.imp id fun h => Or.inr (Or.inr h)
  | _ => exact Or.inl rfl

/-- The acts no section is entered or left with. -/
def Act.Plain : Act → Prop
  | .nop | .note _ | .storeConnection _ | .transition _ _ _ | .beginRequest _ _
  | .endRequest _ _ => False
  | _ => True

theorem allowed_of_plain {w : World hubSignature} {t : TaskId} {st : Stmt hubSignature}
    (h : disciplined w t st) (ha : st.toAct.Plain) :
    st.toAct.Allowed w.state (w.tasks t).stack := by
  rcases acted h with hnop | hallowed | ⟨c, -, hentry⟩ | ⟨x, n, kind, -, hend⟩
  · rw [hnop] at ha
    exact ha.elim
  · exact hallowed
  · cases c with
    | requesting names =>
      rw [show st.toAct = _ from hentry] at ha
      exact ha.elim
    | armed names =>
      rcases hentry with ⟨hact, -⟩ | ⟨name, -, hact⟩ <;>
      · rw [hact] at ha
        exact ha.elim
    | attempt x =>
      rw [hentry.1] at ha
      exact ha.elim
    | connect x =>
      rw [hentry.1] at ha
      exact ha.elim
    | dispatch x n kind =>
      rw [hentry.1] at ha
      exact ha.elim
    | _ => exact hentry.elim
  · rw [hend] at ha
    exact ha.elim

/-- A property of the state and of what is in progress that every act keeps. -/
structure HubInvariant (C : World hubSignature → TaskId → Stmt hubSignature → Prop)
    (J : Hub → (Call → Prop) → Prop) : Prop where
  mono : ∀ {s D D'}, J s D → (∀ c, D' c → D c) → J s D'
  act : ∀ {w : World hubSignature} {t st}, J w.state w.doing → C w t st → disciplined w t st →
    J (st.toAct.eval w.state) fun c => w.doing c ∨ st.enters = some c
  call : ∀ {s D c}, c.isClient = true → J s D → J s fun c' => D c' ∨ c' = c
  clock : ∀ {s D time}, s.now ≤ time → J s D → J { s with now := time } D
  notifier : ∀ {s D attached}, J s D → J { s with notifierAttached := attached } D

section Invariant

variable {C : World hubSignature → TaskId → Stmt hubSignature → Prop}

theorem HubInvariant.frameInvariant {J : Hub → (Call → Prop) → Prop} (hJ : HubInvariant C J) :
    FrameInvariant hub (fun w t st => C w t st ∧ disciplined w t st) J := by
  refine ⟨hJ.mono, fun {w t st} h hC => ?_, hJ.call, fun {e s s' D} he h => ?_⟩
  · rw [effect_hub]
    exact hJ.act h hC.1 hC.2
  · cases e with
    | clock time =>
      change (if s.now ≤ time then some { s with now := time } else none) = some s' at he
      split at he
      · next hle => exact Option.some.inj he ▸ hJ.clock hle h
      · cases he
    | setNotifier attached => exact Option.some.inj he ▸ hJ.notifier h

/-- **What every act keeps holds in every run.** -/
theorem HubInvariant.reach {J : Hub → (Call → Prop) → Prop} (hJ : HubInvariant C J) {s : Hub}
    (hs : J s fun _ => False) {cf : Config hubSignature} (h : Reach hub C s cf) :
    J cf.world.state cf.world.doing := hJ.frameInvariant.reach hs (reach_disciplined h)

/-- What every act keeps can be relied on by every statement of a run. -/
theorem HubInvariant.reach_and {J : Hub → (Call → Prop) → Prop} (hJ : HubInvariant C J) {s : Hub}
    (hs : J s fun _ => False) {cf : Config hubSignature} (h : Reach hub C s cf) :
    Reach hub (fun w t st => C w t st ∧ J w.state w.doing) s cf :=
  (hJ.frameInvariant.reach_and hs (reach_disciplined h)).imp fun _ _ _ hC => ⟨hC.1.1, hC.2⟩

/-- A property of the state alone. -/
structure StateInvariant (C : World hubSignature → TaskId → Stmt hubSignature → Prop)
    (J : Hub → Prop) : Prop where
  act : ∀ {w : World hubSignature} {t st}, J w.state → C w t st → disciplined w t st →
    J (st.toAct.eval w.state)
  clock : ∀ {s time}, s.now ≤ time → J s → J { s with now := time }
  notifier : ∀ {s attached}, J s → J { s with notifierAttached := attached }

theorem StateInvariant.reach {J : Hub → Prop} (hJ : StateInvariant C J) {s : Hub} (hs : J s)
    {cf : Config hubSignature} (h : Reach hub C s cf) : J cf.world.state :=
  HubInvariant.reach (J := fun s _ => J s)
    ⟨fun h _ => h, hJ.act, fun _ h => h, hJ.clock, hJ.notifier⟩ hs h

end Invariant

/-! ### What is remembered -/

theorem history_eval (s : Hub) (a : Act) :
    (a.eval s).history = (a.event? s).toList ++ s.history := rfl

theorem mem_history_eval {s : Hub} {a : Act} {e : Event} :
    e ∈ (a.eval s).history ↔ a.event? s = some e ∨ e ∈ s.history := by
  rw [history_eval, List.mem_append, Option.mem_toList]

/-- What is remembered with what was remembered before it. -/
theorem suffix_history_eval {s : Hub} {a : Act} {e : Event} {past : List Event} :
    (e :: past) <:+ (a.eval s).history ↔
      a.event? s = some e ∧ past = s.history ∨ (e :: past) <:+ s.history := by
  rw [history_eval]
  cases a.event? s with
  | none => simp
  | some e' =>
    rw [Option.toList_some, List.singleton_append, List.suffix_cons_iff, List.cons.injEq,
      Option.some.injEq, eq_comm (a := e)]

/-- Only what a program notes is remembered as it was noted. -/
theorem note_of_event {s : Hub} {a : Act} {e : Event} (h : a.event? s = some e)
    (he : Announced e) : a = .note e := by
  cases a with
  | note e' => exact congrArg Act.note (Option.some.inj h)
  | connectReturned x =>
    rw [Act.event?] at h
    split at h <;> cases h
    cases he
  | cacheCapabilities name =>
    rw [Act.event?, Option.map_eq_some_iff] at h
    obtain ⟨x, -, rfl⟩ := h
    cases he
  | _ =>
    cases h <;> cases he

/-- The syncs of a run, newest first. -/
def syncs (history : List Event) : List SyncRecord :=
  history.filterMap fun
    | .synced r => some r
    | _ => none

theorem mem_syncs {history : List Event} {r : SyncRecord} :
    r ∈ syncs history ↔ .synced r ∈ history := by
  rw [syncs, List.mem_filterMap]
  constructor
  · rintro ⟨e, he, hr⟩
    cases e with
    | synced r' => exact Option.some.inj hr ▸ he
    | _ => cases hr
  · exact fun h => ⟨_, h, rfl⟩

/-! ### Runs that can be evaluated -/

/-- One tool `t`. -/
def toolT : Capabilities := { tools := [{ name := "t" }] }

/-- The names of the tools. -/
def toolNames (caps : Capabilities) : List String := caps.tools.map Definition.name

/-- A lazy server `a`. -/
def lazyConfig : HubConfig := { mcpServers := [{ name := "a", spawn := .lazy }] }

/-- The server `a` is connected, evicted and connected again. -/
def comebackMoves : List (Move hubSignature) :=
  [.call (.reconnect "a"), .resume 0 .ok, .resume 0 .ok, .resume 0 (.connected toolT),
    .resume 0 .ok, .call (.evict "a"), .resume 1 .ok, .resume 1 .ok,
    .call (.ensureConnected "a"), .resume 2 .ok, .resume 2 .ok, .resume 2 (.connected toolT),
    .resume 2 .ok]

/-- Every statement is allowed. -/
def anyStep : World hubSignature → TaskId → Stmt hubSignature → Prop := fun _ _ _ => True

/-- The run of a new manager with these moves, all of whose statements pass a check. -/
def checkedRun (check : World hubSignature → TaskId → Stmt hubSignature → Bool)
    (config : HubConfig) (moves : List (Move hubSignature)) : Option (Config hubSignature) :=
  Config.play hub check 100 moves (Config.start (Hub.start config))

/-- A run that can be evaluated leads to a configuration with what was found at its end. A check
may rely on the list of what is in progress. -/
theorem exists_reach (check : World hubSignature → TaskId → Stmt hubSignature → Bool)
    (config : HubConfig) (moves : List (Move hubSignature))
    {C : World hubSignature → TaskId → Stmt hubSignature → Prop} {P : Hub → Bool}
    (hcheck : ∀ {w t st}, (∀ c, w.doing c → c ∈ w.inProgress) → check w t st = true → C w t st)
    (h : (checkedRun check config moves).any (fun cf => P cf.world.state) = true) :
    ∃ cf, Reach hub C (Hub.start config) cf ∧ P cf.world.state = true := by
  obtain ⟨cf, hrun, hP⟩ := (Option.any_eq_true _ _).mp h
  have hreach := reach_play (C := fun w t st => check w t st = true) (fun h => h) .refl hrun
  exact ⟨cf, hreach.and_inProgress.imp fun _ _ _ hC => hcheck hC.2 hC.1, hP⟩

/-- The same for a configuration in the middle of a move, with a task that runs. -/
theorem exists_reach_move (check : World hubSignature → TaskId → Stmt hubSignature → Bool)
    (config : HubConfig) (moves : List (Move hubSignature)) (last : Move hubSignature) (fuel : ℕ)
    {C : World hubSignature → TaskId → Stmt hubSignature → Prop} {P : Config hubSignature → Bool}
    (hcheck : ∀ {w t st}, (∀ c, w.doing c → c ∈ w.inProgress) → check w t st = true → C w t st)
    (h : ((checkedRun check config moves).bind fun cf => cf.move hub check fuel last).any P =
      true) :
    ∃ cf, Reach hub C (Hub.start config) cf ∧ P cf = true := by
  obtain ⟨cf, hrun, hP⟩ := (Option.any_eq_true _ _).mp h
  obtain ⟨cf', hplay, hmove⟩ := Option.bind_eq_some_iff.mp hrun
  have hreach := reach_move (C := fun w t st => check w t st = true) (fun h => h)
    (reach_play (fun h => h) .refl hplay) hmove
  exact ⟨cf, hreach.and_inProgress.imp fun _ _ _ hC => hcheck hC.2 hC.1, hP⟩

end SlmMcpHub
