import Mathlib.Tactic.Linarith
import Mathlib.Tactic.NormNum
import SlmMcpHub.Federation.References

/-!
# Idle sweeps

A sweep of the reaper selects the lazy backends whose activity entry is older than the time to live
and whose connection counts no request in flight. What this says about the backend depends on who
keeps the entry and the counter up to date.

The counter is sound for the connection that is stored: every tool call in the middle of a request
is among the numbers its connection has in flight. The entry is sound when no use of the backend
leaves an older one standing, which both a reconnect, as seeding never overwrites, and a proxied
call, which marks nothing, do.

## Main definitions

* `Selectable` — what a selected backend should be like
* `KeepsActivity` — no use leaves an older entry, and tool calls go to stored connections

## Main results

* `inFlightInvariant` — the counter counts the tool calls that are in progress
* `selectable_of_reach` — every selected backend is selectable
* `not_selectable_proxied` — a sweep selects a backend right after a proxied call
-/

namespace SlmMcpHub

/-! ### The uses of a backend -/

/-- The backend became connected, or a tool call to it completed, at that time. -/
def Event.use? : Event → Option (String × ℚ)
  | .connected name time => some (name, time)
  | .completed name time => some (name, time)
  | _ => none

/-- What a sweep should be able to rely on when it selects a backend: it is lazy and not pinned,
no tool call to it is in flight, and it was not used within the time to live. -/
structure Selectable (w : World hubSignature) (name : String) : Prop where
  lazy : ∃ cfg ∈ (Hub.config w.state).mcpServers, cfg.name = name ∧ cfg.spawn = .lazy ∧
    cfg.isPinned = false
  idle : ∀ x n, x.name = name → ¬ w.doing (.dispatch x n .tool)
  unused : ∀ e ∈ Hub.history w.state, ∀ time, e.use? = some (name, time) →
    ¬ (Hub.now w.state - (Hub.config w.state).idleTtlSeconds < time ∧ time ≤ Hub.now w.state)

/-- No use of a backend leaves an older activity entry standing. Tool calls go to connections that
are stored, and these stay so until the calls are over. -/
structure KeepsActivity (w : World hubSignature) (_ : TaskId) (st : Stmt hubSignature) : Prop where
  connected : ∀ x caps, st.toAct = .establish x caps →
    ∀ last, (Hub.lastActivity w.state).get? x.name = some last → Hub.now w.state ≤ last
  completed : ∀ name, st.toAct = .complete name →
    ∀ last, (Hub.lastActivity w.state).get? name = some last → Hub.now w.state ≤ last
  begun : ∀ x n, st.enters = some (.dispatch x n .tool) → Hub.Stored w.state x
  displaced : ∀ x, Hub.Stored w.state x → st.toAct.Displaces x →
    ∀ n, ¬ w.doing (.dispatch x n .tool)

section Use

variable {s : Hub} {a : Act} {name : String}

/-- A backend is used when it becomes connected, and when a tool call to it completes. -/
theorem use_event {e : Event} {time : ℚ} (hnote : ∀ e, a = .note e → Announced e)
    (h : a.event? s = some e) (huse : e.use? = some (name, time)) :
    time = s.now ∧ ((∃ x caps, a = .establish x caps ∧ x.name = name) ∨ a = .markCompleted name ∨
      a = .complete name) := by
  cases a with
  | establish x caps =>
    obtain rfl := Option.some.inj h
    obtain ⟨rfl, rfl⟩ := Prod.mk.inj (Option.some.inj huse)
    exact ⟨rfl, Or.inl ⟨x, caps, rfl, rfl⟩⟩
  | markCompleted n =>
    obtain rfl := Option.some.inj h
    obtain ⟨rfl, rfl⟩ := Prod.mk.inj (Option.some.inj huse)
    exact ⟨rfl, Or.inr (Or.inl rfl)⟩
  | complete n =>
    obtain rfl := Option.some.inj h
    obtain ⟨rfl, rfl⟩ := Prod.mk.inj (Option.some.inj huse)
    exact ⟨rfl, Or.inr (Or.inr rfl)⟩
  | note e' =>
    obtain rfl := Option.some.inj h
    cases hnote _ rfl <;> cases huse
  | connectReturned x =>
    rw [Act.event?] at h
    split at h <;> cases h
    cases huse
  | cacheCapabilities n =>
    rw [Act.event?, Option.map_eq_some_iff] at h
    obtain ⟨x, -, rfl⟩ := h
    cases huse
  | _ => cases h <;> cases huse

/-- An activity entry is as it was, or of this moment. -/
theorem lastActivity_eval {last : ℚ} (h : (a.eval s).lastActivity.get? name = some last) :
    last = s.now ∨ s.lastActivity.get? name = some last ∧ a ≠ .markCompleted name := by
  have hset : ∀ n, (s.lastActivity.set n s.now).get? name = some last →
      last = s.now ∨ s.lastActivity.get? name = some last ∧ n ≠ name := by
    intro n hget
    rw [Dict.get?_set] at hget
    split at hget
    · exact Or.inl (Option.some.inj hget).symm
    · next hne => exact Or.inr ⟨hget, hne⟩
  rw [Act.lastActivity_eval] at h
  cases a with
  | connectReturned x =>
    rw [Act.lastActivity] at h
    split at h
    · exact Or.inr ⟨h, by simp⟩
    · exact (hset _ h).imp id fun h => ⟨h.1, by simp⟩
  | markActivity n => exact (hset _ h).imp id fun h => ⟨h.1, by simp⟩
  | markCompleted n =>
    exact (hset _ h).imp id fun h => ⟨h.1, fun hact => h.2 (Act.markCompleted.inj hact)⟩
  | forget n =>
    rw [Act.lastActivity, Dict.get?_erase] at h
    split at h
    · cases h
    · exact Or.inr ⟨h, by simp⟩
  | _ => exact Or.inr ⟨h, by simp⟩

end Use

/-! ### The activity table -/

/-- The activity table is up to date, and tool calls go to stored connections. -/
structure Tracked (s : Hub) (D : Call → Prop) : Prop where
  stored : ∀ {x n}, D (.dispatch x n .tool) → s.Stored x
  recorded : ∀ {name last}, s.lastActivity.get? name = some last → ∀ e ∈ s.history, ∀ time,
    e.use? = some (name, time) → time ≤ last
  past : ∀ e ∈ s.history, ∀ name time, e.use? = some (name, time) → time ≤ s.now

theorem trackedInvariant :
    HubInvariant (fun w t st => KeepsActivity w t st ∧ RefsValid w.state w.doing) Tracked where
  mono h hD := ⟨fun hd => h.stored (hD _ hd), h.recorded, h.past⟩
  act {w t st} h hC hd := by
    have hnote : ∀ e, st.toAct = .note e → Announced e := fun e => announced_of_disciplined hd
    have hpast : ∀ e ∈ (st.toAct.eval w.state).history, ∀ name time,
        e.use? = some (name, time) → time ≤ Hub.now w.state := by
      intro e he name time huse
      rcases mem_history_eval.mp he with hevent | hold
      · exact le_of_eq (use_event hnote hevent huse).1
      · exact h.past e hold name time huse
    refine ⟨fun {x n} hdispatch => ?_, fun {name last} hlast e he time huse => ?_, ?_⟩
    · rcases hdispatch with hold | hnew
      · refine Act.stored_eval (h.stored hold) fun hdisplaced => ?_
        exact hC.1.displaced x (h.stored hold) hdisplaced n hold
      · rcases entered hd hnew with hentry | hspawn | hjump
        · refine Act.stored_eval (hC.1.begun x n hnew) ?_
          rw [hentry.1]
          exact id
        · exact hspawn.elim
        · exact hjump.elim
    · rcases lastActivity_eval hlast with rfl | ⟨hlast, hmarked⟩
      · exact hpast e he name time huse
      · rcases mem_history_eval.mp he with hevent | hold
        · obtain ⟨rfl, ⟨x, caps, hact, rfl⟩ | hact | hact⟩ := use_event hnote hevent huse
          · exact hC.1.connected x caps hact last hlast
          · exact absurd hact hmarked
          · exact hC.1.completed name hact last hlast
        · exact h.recorded hlast e hold time huse
    · rw [Act.now_eval]
      exact hpast
  call {s D c} hc h := by
    refine ⟨fun {x n} hd => ?_, h.recorded, h.past⟩
    rcases hd with hd | rfl
    · exact h.stored hd
    · cases hc
  clock hle h := ⟨h.stored, h.recorded, fun e he name time huse =>
    (h.past e he name time huse).trans hle⟩
  notifier h := ⟨h.stored, h.recorded, h.past⟩

theorem tracked_start (config : HubConfig) : Tracked (Hub.start config) fun _ => False where
  stored h := h.elim
  recorded h := nomatch h
  past _ he := nomatch he

/-! ### The counter of requests -/

/-- The number of a request. -/
def Call.number? : Call → Option ℕ
  | .dispatch _ n _ => some n
  | _ => none

/-- The numbers of the requests a task is in the middle of. -/
def numbers (st : List Call) : List ℕ := st.filterMap Call.number?

/-- The requests in progress have different numbers, and a tool call is among those its connection
has in flight. -/
structure InFlight (s : Hub) (f : TaskId → List Call) : Prop where
  fresh : ∀ {t n}, n ∈ numbers (f t) → n < s.nextRequest
  nodup : ∀ t, (numbers (f t)).Nodup
  apart : ∀ {t u n}, n ∈ numbers (f t) → n ∈ numbers (f u) → t = u
  listed : ∀ {t x n}, Call.dispatch x n .tool ∈ f t → n ∈ (s.conns x.id).inFlight

theorem mem_numbers {st : List Call} {x : ConnRef} {n : ℕ} {kind : RequestKind}
    (h : Call.dispatch x n kind ∈ st) : n ∈ numbers st :=
  List.mem_filterMap.mpr ⟨_, h, rfl⟩

section Counter

variable {s : Hub} {f : TaskId → List Call}

/-- A stack may lose requests. -/
theorem InFlight.update (h : InFlight s f) {t : TaskId} {st : List Call}
    (hsub : (numbers st).Sublist (numbers (f t)))
    (hmem : ∀ x n, Call.dispatch x n .tool ∈ st → Call.dispatch x n .tool ∈ f t) :
    InFlight s (Function.update f t st) := by
  have hnumbers : ∀ u, (numbers (Function.update f t st u)).Sublist (numbers (f u)) := by
    intro u
    rcases eq_or_ne u t with rfl | hne
    · rw [Function.update_self]
      exact hsub
    · rw [Function.update_of_ne hne]
  refine ⟨fun hn => h.fresh ((hnumbers _).subset hn), fun u => (h.nodup u).sublist (hnumbers u),
    fun hn hn' => h.apart ((hnumbers _).subset hn) ((hnumbers _).subset hn'),
    fun {u x n} hx => ?_⟩
  rcases eq_or_ne u t with rfl | hne
  · rw [Function.update_self] at hx
    exact h.listed (hmem x n hx)
  · rw [Function.update_of_ne hne] at hx
    exact h.listed hx

/-- A stack without requests may take the place of any other. -/
theorem InFlight.update_of_not_dispatch (h : InFlight s f) {t : TaskId} {c : Call}
    (hc : c.number? = none) : InFlight s (Function.update f t [c]) := by
  refine h.update ?_ fun x n hx => ?_
  · rw [numbers, List.filterMap_cons, hc]
    exact List.nil_sublist _
  · obtain rfl := List.mem_singleton.mp hx
    cases hc

/-- A section that is no request may be entered. -/
theorem InFlight.update_cons (h : InFlight s f) {t : TaskId} {c : Call} (hc : c.number? = none) :
    InFlight s (Function.update f t (c :: f t)) := by
  refine h.update ?_ fun x n hx => ?_
  · rw [numbers, List.filterMap_cons, hc]
    exact List.Sublist.refl _
  · rcases List.mem_cons.mp hx with rfl | hx
    · cases hc
    · exact hx

/-- An act that ends no request leaves in flight what is, except on a new connection. -/
theorem mem_inFlight_eval {a : Act} {id n : ℕ} (hn : n ∈ (s.conns id).inFlight)
    (hstore : ∀ x, a = .storeConnection x → id ≠ x.id) (hend : ∀ x, a ≠ .endRequest x n) :
    n ∈ ((a.eval s).conns id).inFlight := by
  rw [Act.connInFlight_eval]
  cases a with
  | storeConnection x =>
    rw [Act.connInFlight, if_neg (hstore x rfl)]
    exact hn
  | beginRequest x m =>
    rw [Act.connInFlight]
    split
    · exact List.mem_cons_of_mem _ hn
    · exact hn
  | endRequest x m =>
    rw [Act.connInFlight]
    split
    · exact (List.mem_erase_of_ne fun heq => hend x (by rw [heq])).mpr hn
    · exact hn
  | _ => exact hn

theorem le_nextRequest_eval (s : Hub) (a : Act) : s.nextRequest ≤ (a.eval s).nextRequest := by
  rw [Act.nextRequest_eval]
  cases a with
  | beginRequest x n => exact Nat.le_succ _
  | _ => exact Nat.le_refl _

/-- An act that ends no request in progress keeps the counters right, on connections that are not
new. -/
theorem InFlight.act {a : Act} (h : InFlight s f)
    (hstore : ∀ x, a = .storeConnection x → ∀ t y n, Call.dispatch y n .tool ∈ f t → y.id ≠ x.id)
    (hend : ∀ x n, a = .endRequest x n → ∀ t, n ∉ numbers (f t)) : InFlight (a.eval s) f := by
  refine ⟨fun hn => Nat.lt_of_lt_of_le (h.fresh hn) (le_nextRequest_eval s a), h.nodup, h.apart,
    fun {t x n} hx => ?_⟩
  refine mem_inFlight_eval (h.listed hx) (fun y hact => hstore y hact t x n hx) fun y hact => ?_
  exact hend y n hact t (mem_numbers hx)

/-- A request is begun with a number of its own. -/
theorem InFlight.begin {t : TaskId} {x : ConnRef} {kind : RequestKind} (h : InFlight s f) :
    InFlight ((Act.beginRequest x s.nextRequest).eval s)
      (Function.update f t (.dispatch x s.nextRequest kind :: f t)) := by
  have hnext : ((Act.beginRequest x s.nextRequest).eval s).nextRequest = s.nextRequest + 1 :=
    Act.nextRequest_eval s _
  have hcases : ∀ u n, n ∈ numbers (Function.update f t (.dispatch x s.nextRequest kind :: f t) u) →
      u = t ∧ n = s.nextRequest ∨ n ∈ numbers (f u) := by
    intro u n hn
    rcases eq_or_ne u t with rfl | hne
    · rw [Function.update_self] at hn
      exact (List.mem_cons.mp hn).imp (fun h => ⟨rfl, h⟩) id
    · rw [Function.update_of_ne hne] at hn
      exact Or.inr hn
  have hold : InFlight ((Act.beginRequest x s.nextRequest).eval s) f :=
    h.act (fun _ hact => by cases hact) fun _ _ hact => by cases hact
  refine ⟨fun {u n} hn => ?_, fun u => ?_, fun {u v n} hn hn' => ?_, fun {u y n} hy => ?_⟩
  · rcases hcases u n hn with ⟨-, rfl⟩ | hn
    · rw [hnext]
      exact Nat.lt_succ_self _
    · exact hold.fresh hn
  · rcases eq_or_ne u t with rfl | hne
    · rw [Function.update_self]
      exact List.nodup_cons.mpr ⟨fun hn => lt_irrefl _ (h.fresh hn), h.nodup u⟩
    · rw [Function.update_of_ne hne]
      exact h.nodup u
  · rcases hcases u n hn with ⟨hu, hnew⟩ | hu <;> rcases hcases v n hn' with ⟨hv, hnew'⟩ | hv
    · rw [hu, hv]
    · exact absurd (h.fresh hv) (hnew ▸ lt_irrefl _)
    · exact absurd (h.fresh hu) (hnew' ▸ lt_irrefl _)
    · exact h.apart hu hv
  · rcases eq_or_ne u t with rfl | hne
    · rw [Function.update_self] at hy
      rcases List.mem_cons.mp hy with heq | hy
      · obtain ⟨rfl, rfl, rfl⟩ := Call.dispatch.inj heq
        rw [Act.connInFlight_eval, Act.connInFlight, if_pos rfl]
        exact List.mem_cons_self
      · exact hold.listed hy
    · rw [Function.update_of_ne hne] at hy
      exact hold.listed hy

/-- A request that ends leaves the others in flight. -/
theorem InFlight.finish {t : TaskId} {x : ConnRef} {n : ℕ} {kind : RequestKind}
    (h : InFlight s f) (hhead : (f t).head? = some (.dispatch x n kind)) :
    InFlight ((Act.endRequest x n).eval s) (Function.update f t (f t).tail) := by
  obtain ⟨rest, hrest⟩ : ∃ rest, f t = .dispatch x n kind :: rest := by
    cases hft : f t with
    | nil => rw [hft] at hhead; cases hhead
    | cons c rest => rw [hft] at hhead; exact ⟨rest, by rw [Option.some.inj hhead]⟩
  have hin : n ∈ numbers (f t) := by
    rw [hrest]
    exact List.mem_cons_self
  have hout : n ∉ numbers rest := by
    have := h.nodup t
    rw [hrest] at this
    exact (List.nodup_cons.mp this).1
  rw [hrest, List.tail_cons]
  refine (h.update ?_ fun y m hy => ?_).act (fun _ hact => by cases hact) fun y m hact u => ?_
  · rw [hrest]
    exact List.sublist_cons_self _ _
  · rw [hrest]
    exact List.mem_cons_of_mem _ hy
  · obtain ⟨-, rfl⟩ := Act.endRequest.inj hact
    rcases eq_or_ne u t with rfl | hne
    · rw [Function.update_self]
      exact hout
    · rw [Function.update_of_ne hne]
      exact fun hn => hne (h.apart hn hin)

end Counter

theorem number?_of_client {c : Call} (h : c.isClient = true) : c.number? = none := by
  cases c <;> first | rfl | cases h

/-- **The counter counts.** In every run in which tool calls go to connections that are stored, and
these stay so until the calls are over, the tool calls in progress are in flight. -/
theorem inFlightInvariant : StackInvariant hub (fun w t st => disciplined w t st ∧
    RefsValid w.state w.doing ∧ Tracked w.state w.doing) InFlight where
  stmt {w t st} h hC := by
    obtain ⟨hd, hrefs, htracked⟩ := hC
    have hstore : ∀ x, st.toAct = .storeConnection x → ∀ u y n,
        Call.dispatch y n .tool ∈ w.frames u → y.id ≠ x.id := by
      intro x hact u y n hy hid
      have hlt := hrefs.lt (Or.inl (htracked.stored ⟨u, hy⟩))
      rw [hid, id_of_storeConnection hd hact] at hlt
      exact lt_irrefl _ hlt
    have hkeeps : (∀ x n, st.toAct ≠ .endRequest x n) → InFlight (st.toAct.eval w.state) w.frames :=
      fun hne => h.act hstore fun x n hact => absurd hact (hne x n)
    rw [effect_hub]
    cases st with
    | act a =>
      refine hkeeps fun x n hact => ?_
      rw [show a = _ from hact] at hd
      exact hd
    | push a c =>
      rw [World.exec_push, World.frames_setTask]
      have hplain : (∀ x n, a ≠ .endRequest x n) → c.number? = none →
          InFlight (a.eval w.state) (Function.update w.frames t (c :: w.frames t)) :=
        fun hne hc => (hkeeps hne).update_cons hc
      cases c with
      | dispatch x n kind =>
        obtain ⟨rfl, rfl⟩ := hd
        exact h.begin
      | requesting names => exact hplain (fun x n hact => by cases hact.symm.trans hd) rfl
      | armed names =>
        refine hplain (fun x n hact => ?_) rfl
        rcases hd with ⟨hnop, -⟩ | ⟨name, -, hnote⟩
        · cases hact.symm.trans hnop
        · cases hact.symm.trans hnote
      | attempt x => exact hplain (fun x n hact => by cases hact.symm.trans hd.1) rfl
      | connect x => exact hplain (fun x n hact => by cases hact.symm.trans hd.1) rfl
      | _ => exact hd.elim
    | pop a =>
      rw [World.exec_pop, World.frames_setTask]
      rcases hd with rfl | ⟨x, n, kind, hhead, rfl⟩
      · refine (hkeeps fun _ _ hact => by cases hact).update ?_ fun x n hx =>
          List.mem_of_mem_tail hx
        exact (List.tail_sublist _).filterMap _
      · exact h.finish hhead
    | spawn c =>
      rw [show (w.exec hub t (.spawn c)).frames = _ from w.frames_born hub c]
      refine (hkeeps fun _ _ hact => by cases hact).update_of_not_dispatch ?_
      cases c with
      | dispatch x n kind => exact hd.elim
      | _ => rfl
    | cancel u =>
      have hsame := World.sameButRequests_request hub w.next u w
      rw [show (w.exec hub t (.cancel u)).frames = w.frames from funext hsame.stack]
      exact hkeeps fun _ _ hact => by cases hact
    | jump c =>
      rw [World.exec_jump, World.frames_setTask]
      refine (hkeeps fun _ _ hact => by cases hact).update_of_not_dispatch ?_
      cases c with
      | dispatch x n kind => exact hd.elim
      | _ => rfl
  call hc h := h.update_of_not_dispatch (number?_of_client hc)
  finish h := h.update (List.nil_sublist _) fun _ _ hx => (List.not_mem_nil hx).elim
  tick {e s s' f} he h := by
    have hsame : s'.nextRequest = s.nextRequest ∧ s'.conns = s.conns := by
      cases e with
      | clock time =>
        change (if s.now ≤ time then some { s with now := time } else none) = some s' at he
        split at he
        · exact Option.some.inj he ▸ ⟨rfl, rfl⟩
        · cases he
      | setNotifier attached => exact Option.some.inj he ▸ ⟨rfl, rfl⟩
    refine ⟨fun hn => hsame.1 ▸ h.fresh hn, h.nodup, h.apart, fun hx => ?_⟩
    rw [hsame.2]
    exact h.listed hx

theorem inFlight_start (config : HubConfig) : InFlight (Hub.start config) fun _ => [] where
  fresh hn := (List.not_mem_nil hn).elim
  nodup _ := .nil
  apart hn := (List.not_mem_nil hn).elim
  listed hx := (List.not_mem_nil hx).elim

/-! ### The selection -/

/-- What the selection has checked. -/
theorem mem_idleBackends {s : Hub} {name : String} (h : name ∈ s.idleBackends) :
    (∃ cfg ∈ s.config.mcpServers, cfg.name = name ∧ cfg.spawn = .lazy ∧ cfg.isPinned = false) ∧
      (∃ x, s.connections.get? name = some x ∧ (s.conn x).inFlight = []) ∧
        ∃ last, s.lastActivity.get? name = some last ∧ s.config.idleTtlSeconds < s.now - last := by
  obtain ⟨cfg, hcfg, rfl⟩ := List.mem_map.mp h
  obtain ⟨hmem, hchecks⟩ := List.mem_filter.mp hcfg
  simp only [Bool.and_eq_true, Bool.not_eq_true', decide_eq_true_eq] at hchecks
  obtain ⟨⟨⟨⟨hlazy, hpinned⟩, hup⟩, hidle⟩, hold⟩ := hchecks
  obtain ⟨x, hx, -⟩ := (Option.any_eq_true _ _).mp hup
  obtain ⟨last, hlast, hage⟩ := (Option.any_eq_true _ _).mp hold
  refine ⟨⟨cfg, hmem, rfl, hlazy, hpinned⟩, ⟨x, hx, ?_⟩, last, hlast, of_decide_eq_true hage⟩
  rw [hx] at hidle
  simpa using hidle

/-- **When a sweep selects only idle backends.** In every run in which no use of a backend leaves an
older activity entry standing, and tool calls go to connections that are stored and stay so until
the calls are over, every backend a sweep selects is lazy and not pinned, has no tool call in
flight, and was not used within the time to live. -/
theorem selectable_of_reach {config : HubConfig} {cf : Config hubSignature} {t : TaskId}
    {names : List String} {p : Coro hubSignature Res}
    (h : Reach hub KeepsActivity (Hub.start config) cf)
    (hrun : cf.running = some (t, .stmt (.act (.select names)) p)) :
    ∀ name ∈ names, Selectable cf.world name := by
  have hrefs := refsInvariant.reach_and (refsValid_start config) h
  have htracked := trackedInvariant.reach (tracked_start config) hrefs
  have hinFlight : InFlight cf.world.state cf.world.frames := by
    have hall := reach_disciplined (trackedInvariant.reach_and (tracked_start config) hrefs)
    refine inFlightInvariant.reach (inFlight_start config) (hall.imp ?_)
    exact fun _ _ _ hC => ⟨hC.2, hC.1.1.2, hC.1.2⟩
  have hnames : names = Hub.idleBackends cf.world.state :=
    ((verified_hub.reach (fun _ _ => trivial) trivial h).2.alone hrun).2.2.1
  intro name hname
  rw [hnames] at hname
  obtain ⟨hlazy, ⟨x, hx, hidle⟩, last, hlast, hage⟩ := mem_idleBackends hname
  refine ⟨hlazy, fun y n hy hdoing => ?_, fun e he time huse hrecent => ?_⟩
  · have hget := htracked.stored hdoing
    rw [Hub.Stored, hy, hx] at hget
    obtain rfl := Option.some.inj hget
    obtain ⟨u, hu⟩ := hdoing
    have hin := hinFlight.listed hu
    rw [show (Hub.conns cf.world.state x.id).inFlight = [] from hidle] at hin
    cases hin
  · have hle := htracked.recorded hlast e he time huse
    linarith [hrecent.1]

/-! ### A backend that is in use, and one that is not -/

/-- The lazy backend is connected, and the reaper waits for its first sweep. -/
def armedReaper : List (Move hubSignature) :=
  [.call .connectAll, .resume 0 .ok, .resume 1 .ok, .resume 1 .ok, .resume 1 (.connected toolT),
    .resume 1 .ok, .resume 0 .ok, .resume 2 .ok]

/-- A proxied call is over at 400, and the reaper wakes up at 401. -/
def proxiedMoves : List (Move hubSignature) :=
  armedReaper ++ [.tick (.clock 400), .call (.proxyRequest .tool "a"), .resume 3 .ok,
    .resume 3 (.answered {}), .resume 3 .ok, .tick (.clock 401)]

/-- A routed call is over at 100, and the reaper wakes up at 401. -/
def unusedMoves : List (Move hubSignature) :=
  armedReaper ++ [.tick (.clock 100), .call (.routeToolCall "a__t" false), .resume 3 .ok,
    .resume 3 .ok, .resume 3 (.answered {}), .tick (.clock 401)]

/-- The reaper is about to select the backend at 401, which was used last at that time. -/
def selecting (last : ℚ) (cf : Config hubSignature) : Bool :=
  let s : Hub := cf.world.state
  match cf.running with
  | some (_, .stmt (.act (.select names)) _) =>
    names = ["a"] && s.now = 401 && s.config.idleTtlSeconds = 300 &&
      (s.history.filterMap Event.use?).head? = some ("a", last)
  | _ => false

theorem selecting_spec {last : ℚ} {cf : Config hubSignature} (h : selecting last cf = true) :
    ∃ t p, cf.running = some (t, .stmt (.act (.select ["a"])) p) ∧ Hub.now cf.world.state = 401 ∧
      (Hub.config cf.world.state).idleTtlSeconds = 300 ∧
        ∃ e ∈ Hub.history cf.world.state, e.use? = some ("a", last) := by
  rw [selecting] at h
  split at h
  · next t names p hrun =>
    simp only [Bool.and_eq_true, decide_eq_true_eq] at h
    obtain ⟨⟨⟨rfl, hnow⟩, httl⟩, hlast⟩ := h
    obtain ⟨e, he, huse⟩ := List.mem_filterMap.mp (List.mem_of_head? hlast)
    exact ⟨t, p, hrun, hnow, httl, e, he, huse⟩
  · cases h

/-- A sweep at 401 selects a backend to which a tool call completed at 400. -/
theorem not_selectable_proxied : ∃ cf t p, Reach hub anyStep (Hub.start lazyConfig) cf ∧
    cf.running = some (t, .stmt (.act (.select ["a"])) p) ∧ ¬ Selectable cf.world "a" := by
  obtain ⟨cf, hreach, h⟩ := exists_reach_move (C := anyStep) (P := selecting 400)
    (fun _ _ _ => true) lazyConfig proxiedMoves (.resume 2 .ok) 1 (fun _ _ => trivial)
    (by decide +kernel)
  obtain ⟨t, p, hrun, hnow, httl, e, he, huse⟩ := selecting_spec h
  refine ⟨cf, t, p, hreach, hrun, fun hselectable => hselectable.unused e he 400 huse ?_⟩
  rw [hnow, httl]
  norm_num

/-- Connections are established without an entry, nothing is displaced, and nothing is proxied. -/
def keepsActivity (w : World hubSignature) (_ : TaskId) (st : Stmt hubSignature) : Bool :=
  let s : Hub := w.state
  (match st.toAct with
    | .establish x _ => (s.lastActivity.get? x.name).isNone
    | .complete _ => false
    | .storeConnection y => (s.connections.get? y.name).isNone
    | .popConnection name => (s.connections.get? name).isNone
    | .closeAll => false
    | _ => true) &&
  match st.enters with
  | some (.dispatch x _ .tool) => s.Stored x
  | _ => true

theorem keepsActivity_of_check {w : World hubSignature} {t : TaskId} {st : Stmt hubSignature}
    (h : keepsActivity w t st = true) : KeepsActivity w t st := by
  rw [keepsActivity, Bool.and_eq_true] at h
  obtain ⟨hact, henter⟩ := h
  refine ⟨fun x caps he last hlast => ?_, fun name he => ?_, fun x n he => ?_,
    fun x hx hdisplaced => ?_⟩
  · rw [he] at hact
    simp [hlast] at hact
  · rw [he] at hact
    cases hact
  · rw [he] at henter
    exact of_decide_eq_true henter
  · rw [Hub.Stored] at hx
    cases he : st.toAct with
    | storeConnection y =>
      rw [he] at hact hdisplaced
      rw [← show y.name = x.name from hdisplaced] at hx
      simp [hx] at hact
    | popConnection name =>
      rw [he] at hact hdisplaced
      rw [← show name = x.name from hdisplaced] at hx
      simp [hx] at hact
    | closeAll =>
      rw [he] at hact
      cases hact
    | _ =>
      rw [he] at hdisplaced
      exact hdisplaced.elim

/-- A sweep at 401 selects a backend to which the last call completed at 100. -/
theorem selectable_of_reach_unused : ∃ cf t p, Reach hub KeepsActivity (Hub.start lazyConfig) cf ∧
    cf.running = some (t, .stmt (.act (.select ["a"])) p) ∧ Selectable cf.world "a" := by
  obtain ⟨cf, hreach, h⟩ := exists_reach_move (P := selecting 100) keepsActivity lazyConfig
    unusedMoves (.resume 2 .ok) 1 (fun _ => keepsActivity_of_check) (by decide +kernel)
  obtain ⟨t, p, hrun, -⟩ := selecting_spec h
  exact ⟨cf, t, p, hreach, hrun, selectable_of_reach hreach hrun "a" (List.mem_singleton_self _)⟩

end SlmMcpHub
