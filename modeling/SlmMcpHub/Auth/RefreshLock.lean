import Mathlib.Logic.Function.Basic
import SlmMcpHub.Library.Dict
import SlmMcpHub.Library.Transition

/-!
# The refresh lock

`auth/broker.py`: the requests of the OAuth clients of one account. A client that is built with
the path of the account's lock lets one request at a time handle the answer to it; a client that
is built without takes no lock. The transport of the running hub builds its clients without.

## Main definitions

* `ClientAuth`, `buildAuth`, `outboundAuth` — how a client is built
* `Flows`, `Flows.step` — the flows of all requests, and the locks
* `Exclusive`, `Released` — one request in its phase at a time, and no lock held outside it
* `CommonLock`, `Overlap` — a lock between two requests, and answers that overlap
* `Apart` — no answers overlap but those of requests with a common lock

## Main results

* `Flows.Inv.step` — what every step keeps
* `exclusive_of_reaches` — the phases of all requests exclude each other
-/

namespace SlmMcpHub

namespace OAuth

/-! ### Clients -/

/-- What a client authenticates its requests with. -/
inductive ClientAuth where
  /-- The provider of the SDK. -/
  | provider
  /-- `_LockedAuth` around it -/
  | locked (path : String)
deriving DecidableEq

/-- `build_oauth_http_client(…, lock_path)` -/
def buildAuth : Option String → ClientAuth
  | some path => .locked path
  | none => .provider

/-- What `OutboundClient._build_http_client` builds: it passes no lock path. -/
def outboundAuth : ClientAuth := buildAuth none

/-! ### Flows -/

/-- Where the flow of a request is. -/
inductive Phase where
  | idle
  /-- The request is out. -/
  | requesting
  /-- In `refresh_lock_context`, before it has the lock of the path. -/
  | entering
  /-- At `async with in_process_lock`. -/
  | waiting (lock : ℕ)
  /-- The file lock is being acquired in another thread. -/
  | acquiring (lock : ℕ)
  /-- The answer is handled: the token endpoint, and the request once more. -/
  | handling (lock : Option ℕ)
  | done
deriving DecidableEq

/-- Who holds a file lock. -/
inductive FileHolder where
  | request (r : ℕ)
  | otherProcess
deriving DecidableEq

/-- All flows of a process, and the locks they take. -/
structure Flows where
  phase : ℕ → Phase
  /-- `_in_process_locks` -/
  locks : Dict String ℕ
  nextLock : ℕ
  holder : ℕ → Option ℕ
  fileHolder : String → Option FileHolder

/-- Nothing has been sent. -/
def Flows.init : Flows where
  phase _ := .idle
  locks := Dict.empty
  nextLock := 0
  holder _ := none
  fileHolder _ := none

/-- How the handling of an answer ends. -/
inductive Exit where
  | finished
  | raised
  /-- The flow is closed from outside. -/
  | closed

/-- What happens next. -/
inductive FlowAct where
  | send (r : ℕ)
  /-- The answer to the first request is there. -/
  | respond (r : ℕ) (unauthorized : Bool)
  /-- `_get_in_process_lock` -/
  | lookUp (r : ℕ)
  | lock (r : ℕ)
  | acquire (r : ℕ)
  /-- A request of the handling is sent and answered. -/
  | exchange (r : ℕ)
  | leave (r : ℕ) (exit : Exit)
  /-- An exception, a timeout or the closing of the flow, anywhere before the handling. -/
  | drop (r : ℕ)
  /-- Another process takes a file lock, or gives it back. -/
  | foreign (path : String) (taken : Bool)

namespace Flows

/-- A flow is somewhere else. -/
def setPhase (s : Flows) (r : ℕ) (phase : Phase) : Flows :=
  { s with phase := Function.update s.phase r phase }

/-- An in-process lock is held by a request, or by none. -/
def setHolder (s : Flows) (lock : ℕ) (holder : Option ℕ) : Flows :=
  { s with holder := Function.update s.holder lock holder }

/-- A file lock is held by someone, or by no one. -/
def setFileHolder (s : Flows) (path : String) (holder : Option FileHolder) : Flows :=
  { s with fileHolder := Function.update s.fileHolder path holder }

/-- The lock of a path, which is made when there is none. -/
def lockOf (s : Flows) (path : String) : Flows × ℕ :=
  match s.locks.get? path with
  | some lock => (s, lock)
  | none =>
    ({ s with locks := s.locks.set path s.nextLock, nextLock := s.nextLock + 1 }, s.nextLock)

variable (auth : ℕ → ClientAuth)

/-- One step of the flows; `auth` is that of the client a request is sent through. -/
def step (s : Flows) : FlowAct → Option Flows
  | .send r =>
    match s.phase r with
    | .idle => some (s.setPhase r .requesting)
    | _ => none
  | .respond r unauthorized =>
    match s.phase r, auth r with
    | .requesting, .provider =>
      some (s.setPhase r (if unauthorized then .handling none else .done))
    | .requesting, .locked _ => some (s.setPhase r .entering)
    | _, _ => none
  | .lookUp r =>
    match s.phase r, auth r with
    | .entering, .locked path => some ((s.lockOf path).1.setPhase r (.waiting (s.lockOf path).2))
    | _, _ => none
  | .lock r =>
    match s.phase r with
    | .waiting lock =>
      if s.holder lock = none then
        some ((s.setHolder lock (some r)).setPhase r (.acquiring lock))
      else none
    | _ => none
  | .acquire r =>
    match s.phase r, auth r with
    | .acquiring lock, .locked path =>
      if s.fileHolder path = none then
        some ((s.setFileHolder path (some (.request r))).setPhase r (.handling (some lock)))
      else none
    | _, _ => none
  | .exchange r =>
    match s.phase r with
    | .handling _ => some s
    | _ => none
  | .leave r _ =>
    match s.phase r, auth r with
    | .handling (some lock), .locked path =>
      -- `finally: fl.release()`, and then the end of `async with in_process_lock`
      some (((s.setFileHolder path none).setHolder lock none).setPhase r .done)
    | .handling none, _ => some (s.setPhase r .done)
    | _, _ => none
  | .drop r =>
    match s.phase r with
    | .requesting | .entering | .waiting _ => some (s.setPhase r .done)
    -- A file lock the thread still gets is given back with the object that holds it.
    | .acquiring lock => some ((s.setHolder lock none).setPhase r .done)
    | _ => none
  | .foreign path taken =>
    match s.fileHolder path, taken with
    | none, true => some (s.setFileHolder path (some .otherProcess))
    | some .otherProcess, false => some (s.setFileHolder path none)
    | _, _ => none

end Flows

/-! ### Exclusion -/

/-- A request is in the phase in which the answer to it is handled. -/
def Handling (s : Flows) (r : ℕ) : Prop := ∃ lock, s.phase r = .handling lock

/-- No two requests are in that phase. -/
def Exclusive (s : Flows) : Prop := ∀ r r', Handling s r → Handling s r' → r = r'

/-- A request that holds a lock is in that phase, or about to be. -/
structure Released (s : Flows) : Prop where
  inProcess : ∀ lock r, s.holder lock = some r →
    s.phase r = .acquiring lock ∨ s.phase r = .handling (some lock)
  file : ∀ path r, s.fileHolder path = some (.request r) → Handling s r

/-- The step brings a request to that phase. -/
def Enters (auth : ℕ → ClientAuth) (a : FlowAct) (r : ℕ) : Prop :=
  a = .acquire r ∨ a = .respond r true ∧ auth r = .provider

/-- Two requests are sent through clients with the same lock. -/
def CommonLock (auth : ℕ → ClientAuth) (r r' : ℕ) : Prop :=
  ∃ path, auth r = .locked path ∧ auth r' = .locked path

/-- The answers to two requests overlap: the step brings one to that phase while the other is in
it. -/
def Overlap (auth : ℕ → ClientAuth) (s : Flows) (a : FlowAct) (r r' : ℕ) : Prop :=
  Enters auth a r ∧ Handling s r'

/-- Answers overlap for requests with a common lock only. -/
def Apart (auth : ℕ → ClientAuth) (s : Flows) (a : FlowAct) : Prop :=
  ∀ r r', Overlap auth s a r r' → CommonLock auth r r'

/-! ### What every step keeps -/

/-- A flow that is there holds the lock. -/
def Phase.Holds (phase : Phase) (lock : ℕ) : Prop :=
  phase = .acquiring lock ∨ phase = .handling (some lock)

/-- A flow that is there is concerned with the lock. -/
def Phase.On (phase : Phase) (lock : ℕ) : Prop := phase = .waiting lock ∨ phase.Holds lock

/-- The locks are held by the flows that are where they hold them, each flow is concerned with the
one lock of its path, and one request at a time is in its phase. -/
structure Flows.Inv (auth : ℕ → ClientAuth) (s : Flows) : Prop where
  exclusive : Exclusive s
  held : ∀ lock r, s.holder lock = some r ↔ (s.phase r).Holds lock
  file : ∀ path r, s.fileHolder path = some (.request r) → Handling s r ∧ auth r = .locked path
  mapped : ∀ r lock, (s.phase r).On lock →
    ∃ path, auth r = .locked path ∧ s.locks.get? path = some lock
  unlocked : ∀ r, s.phase r = .handling none → auth r = .provider

namespace Flows

variable {auth : ℕ → ClientAuth} {s s' : Flows}

@[simp] theorem setPhase_phase (r : ℕ) (phase : Phase) :
    (s.setPhase r phase).phase = Function.update s.phase r phase := rfl

@[simp] theorem setPhase_holder (r : ℕ) (phase : Phase) :
    (s.setPhase r phase).holder = s.holder := rfl

@[simp] theorem setPhase_fileHolder (r : ℕ) (phase : Phase) :
    (s.setPhase r phase).fileHolder = s.fileHolder := rfl

theorem Inv.init : Inv auth Flows.init where
  exclusive _ _ := by
    rintro ⟨lock, hlock⟩
    cases hlock
  held lock r := by simp [Flows.init, Phase.Holds]
  file _ _ := nofun
  mapped r lock := by simp [Flows.init, Phase.On, Phase.Holds]
  unlocked _ := nofun

/-- Who holds a file lock is in its phase. -/
theorem Inv.ne_of_file (h : Inv auth s) {r r' : ℕ} {path : String} (hnot : ¬ Handling s r)
    (hfile : s.fileHolder path = some (.request r')) : r' ≠ r := by
  rintro rfl
  exact hnot (h.file path r' hfile).1

/-- One flow moves on: what it holds and what it is concerned with is said of its new place, and
the others are where they were. -/
theorem Inv.move (h : Inv auth s) {r : ℕ} {phase : Phase}
    (hphase : s'.phase = Function.update s.phase r phase)
    (hlocks : ∀ path lock, s.locks.get? path = some lock → s'.locks.get? path = some lock)
    (hothers : ∀ lock r', r' ≠ r → (s'.holder lock = some r' ↔ s.holder lock = some r'))
    (hown : ∀ lock, s'.holder lock = some r ↔ phase.Holds lock)
    (hfile : ∀ path r', s'.fileHolder path = some (.request r') →
      s.fileHolder path = some (.request r') ∧ r' ≠ r ∨
        r' = r ∧ (∃ lock, phase = .handling lock) ∧ auth r = .locked path)
    (hmapped : ∀ lock, phase.On lock →
      ∃ path, auth r = .locked path ∧ s'.locks.get? path = some lock)
    (hunlocked : phase = .handling none → auth r = .provider)
    (halone : (∃ lock, phase = .handling lock) → ∀ r', Handling s r' → r' = r) : Inv auth s' := by
  have hself : s'.phase r = phase := by rw [hphase, Function.update_self]
  have hother : ∀ r', r' ≠ r → s'.phase r' = s.phase r' := by
    intro r' hne
    rw [hphase, Function.update_of_ne hne]
  have hhandling : ∀ r', r' ≠ r → (Handling s' r' ↔ Handling s r') := by
    intro r' hne
    rw [Handling, Handling, hother r' hne]
  refine ⟨?_, fun lock r' => ?_, fun path r' hholder => ?_, fun r' lock hon => ?_,
    fun r' hphase' => ?_⟩
  · -- Of two requests in the phase one has just come to it, or neither has.
    intro r₁ r₂ h₁ h₂
    by_cases hne₁ : r₁ = r
    · by_cases hne₂ : r₂ = r
      · rw [hne₁, hne₂]
      · rw [Handling, hne₁, hself] at h₁
        rw [hne₁, halone h₁ r₂ ((hhandling r₂ hne₂).mp h₂)]
    · by_cases hne₂ : r₂ = r
      · rw [Handling, hne₂, hself] at h₂
        rw [hne₂, halone h₂ r₁ ((hhandling r₁ hne₁).mp h₁)]
      · exact h.exclusive r₁ r₂ ((hhandling r₁ hne₁).mp h₁) ((hhandling r₂ hne₂).mp h₂)
  · by_cases hne : r' = r
    · rw [hne, hself, hown]
    · rw [hother r' hne, hothers lock r' hne, h.held]
  · obtain ⟨hholder', hne⟩ | ⟨rfl, hlock, hauth⟩ := hfile path r' hholder
    · obtain ⟨hbefore, hauth⟩ := h.file path r' hholder'
      exact ⟨(hhandling r' hne).mpr hbefore, hauth⟩
    · rw [Handling, hself]
      exact ⟨hlock, hauth⟩
  · by_cases hne : r' = r
    · subst hne
      rw [hself] at hon
      exact hmapped lock hon
    · rw [hother r' hne] at hon
      obtain ⟨path, hauth, hget⟩ := h.mapped r' lock hon
      exact ⟨path, hauth, hlocks path lock hget⟩
  · by_cases hne : r' = r
    · subst hne
      rw [hself] at hphase'
      exact hunlocked hphase'
    · rw [hother r' hne] at hphase'
      exact h.unlocked r' hphase'

/-- A flow that holds nothing goes where it holds nothing. -/
theorem Inv.setPhase (h : Inv auth s) {r : ℕ} {phase : Phase}
    (hbefore : ∀ lock, ¬ (s.phase r).Holds lock) (hnot : ¬ Handling s r)
    (hafter : ∀ lock, ¬ phase.Holds lock)
    (hmapped : ∀ lock, phase.On lock →
      ∃ path, auth r = .locked path ∧ s.locks.get? path = some lock)
    (hunlocked : phase = .handling none → auth r = .provider)
    (halone : (∃ lock, phase = .handling lock) → ∀ r', Handling s r' → r' = r) :
    Inv auth (s.setPhase r phase) := by
  refine h.move rfl (fun _ _ => id) (fun _ _ _ => Iff.rfl) (fun lock => ?_)
    (fun path r' hfile => .inl ⟨hfile, h.ne_of_file hnot hfile⟩) hmapped hunlocked halone
  rw [setPhase_holder, h.held]
  exact iff_of_false (hbefore lock) (hafter lock)

theorem not_handling_of_phase {r : ℕ} {phase : Phase} (hphase : s.phase r = phase)
    (hne : ∀ lock, phase ≠ .handling lock) : ¬ Handling s r := by
  rintro ⟨lock, hlock⟩
  exact hne lock (hphase.symm.trans hlock)

/-- The lock of a path that has been looked up is the one it is mapped to from then on. -/
theorem get?_lockOf (path : String) :
    (s.lockOf path).1.locks.get? path = some (s.lockOf path).2 := by
  rw [lockOf]
  cases hget : s.locks.get? path with
  | some lock => exact hget
  | none => exact Dict.get?_set_self ..

theorem get?_lockOf_of_some {path path' : String} {lock : ℕ} (h : s.locks.get? path' = some lock) :
    (s.lockOf path).1.locks.get? path' = some lock := by
  rw [lockOf]
  cases hget : s.locks.get? path with
  | some lock' => exact h
  | none =>
    have hne : path ≠ path' := by
      rintro rfl
      rw [h] at hget
      cases hget
    exact (Dict.get?_set_of_ne hne).trans h

theorem lockOf_frame (path : String) : (s.lockOf path).1.phase = s.phase ∧
    (s.lockOf path).1.holder = s.holder ∧ (s.lockOf path).1.fileHolder = s.fileHolder := by
  rw [lockOf]
  cases s.locks.get? path with
  | some lock => exact ⟨rfl, rfl, rfl⟩
  | none => exact ⟨rfl, rfl, rfl⟩

/-- Whoever takes the lock of a path while another request with that lock is in its phase would
hold what the other holds. -/
theorem Inv.eq_of_acquiring (h : Inv auth s) {r r' lock : ℕ} {path : String}
    (hphase : s.phase r = .acquiring lock) (hauth : auth r = .locked path)
    (hauth' : auth r' = .locked path) (hhandling : Handling s r') : r' = r := by
  obtain ⟨path₁, hauth₁, hget⟩ := h.mapped r lock (.inr (.inl hphase))
  obtain rfl := ClientAuth.locked.inj (hauth.symm.trans hauth₁)
  obtain ⟨_ | lock', hphase'⟩ := hhandling
  · rw [h.unlocked r' hphase'] at hauth'
    cases hauth'
  · obtain ⟨path₂, hauth₂, hget'⟩ := h.mapped r' lock' (.inr (.inr hphase'))
    obtain rfl := ClientAuth.locked.inj (hauth'.symm.trans hauth₂)
    obtain rfl := Option.some.inj (hget.symm.trans hget')
    have hr := (h.held lock r).mpr (.inl hphase)
    have hr' := (h.held lock r').mpr (.inr hphase')
    exact Option.some.inj (hr'.symm.trans hr)

/-- A flow gives back the lock it holds and is over. -/
theorem Inv.giveBack (h : Inv auth s) {r lock : ℕ} (hholds : (s.phase r).Holds lock)
    (hphase : s'.phase = Function.update s.phase r .done) (hlocks : s'.locks = s.locks)
    (hholder : s'.holder = Function.update s.holder lock none)
    (hfile : ∀ path r', s'.fileHolder path = some (.request r') →
      s.fileHolder path = some (.request r') ∧ r' ≠ r) : Inv auth s' := by
  have hown := (h.held lock r).mpr hholds
  refine h.move hphase (fun path lock' hget => hlocks ▸ hget) (fun lock' r' hne => ?_)
    (fun lock' => ?_) (fun path r' hr' => .inl (hfile path r' hr')) ?_ nofun ?_
  · rw [hholder]
    by_cases heq : lock' = lock
    · rw [heq, Function.update_self, hown]
      exact iff_of_false nofun fun h' => hne (Option.some.inj h').symm
    · rw [Function.update_of_ne heq]
  · refine iff_of_false (fun hr => ?_) (by simp [Phase.Holds])
    rw [hholder] at hr
    by_cases heq : lock' = lock
    · rw [heq, Function.update_self] at hr
      cases hr
    · rw [Function.update_of_ne heq] at hr
      have hholds' := (h.held lock' r).mp hr
      -- A flow is in one place only.
      obtain hphase₁ | hphase₁ := hholds
      all_goals
        rw [hphase₁] at hholds'
        simp only [Phase.Holds, Phase.acquiring.injEq, Phase.handling.injEq, Option.some.injEq,
          reduceCtorEq, or_false, false_or] at hholds'
        exact heq hholds'.symm
  · simp [Phase.On, Phase.Holds]
  · rintro ⟨lock', hlock'⟩
    cases hlock'

/-- A flow before its phase goes where no lock is concerned. -/
theorem Inv.goOn (h : Inv auth s) {r : ℕ} {before after : Phase} (hphase : s.phase r = before)
    (hheld : ∀ lock, ¬ before.Holds lock) (hbefore : ∀ lock, before ≠ .handling lock)
    (hoff : ∀ lock, ¬ after.On lock) (hafter : ∀ lock, after ≠ .handling lock) :
    Inv auth (s.setPhase r after) := by
  refine h.setPhase (fun lock => hphase ▸ hheld lock) (not_handling_of_phase hphase hbefore)
    (fun lock hholds => hoff lock (.inr hholds)) (fun lock hon => absurd hon (hoff lock))
    (fun hhandling => absurd hhandling (hafter none)) ?_
  rintro ⟨lock, hhandling⟩
  exact absurd hhandling (hafter lock)

/-- The answer to a request is there. -/
theorem Inv.step_respond {r : ℕ} {unauthorized : Bool} (h : Inv auth s)
    (hC : Apart auth s (.respond r unauthorized))
    (hstep : Flows.step auth s (.respond r unauthorized) = some s') : Inv auth s' := by
  rw [Flows.step] at hstep
  split at hstep
  next hphase hauth =>
    obtain rfl := Option.some.inj hstep
    cases unauthorized with
    | false =>
      exact h.goOn hphase (by simp [Phase.Holds]) (by simp) (by simp [Phase.On, Phase.Holds])
        (by simp)
    | true =>
      refine h.setPhase (by simp [hphase, Phase.Holds]) (not_handling_of_phase hphase (by simp))
        (by simp [Phase.Holds]) (by simp [Phase.On, Phase.Holds]) (fun _ => hauth)
        fun _ r' hr' => ?_
      -- A request without a lock comes to its phase when no other one is there.
      obtain ⟨path, hpath, -⟩ := hC r r' ⟨.inr ⟨rfl, hauth⟩, hr'⟩
      rw [hauth] at hpath
      cases hpath
  next hphase hauth =>
    obtain rfl := Option.some.inj hstep
    exact h.goOn hphase (by simp [Phase.Holds]) (by simp) (by simp [Phase.On, Phase.Holds])
      (by simp)
  next => cases hstep

/-- The lock of the path has been looked up. -/
theorem Inv.step_lookUp {r : ℕ} (h : Inv auth s)
    (hstep : Flows.step auth s (.lookUp r) = some s') : Inv auth s' := by
  rw [Flows.step] at hstep
  split at hstep
  next path hphase hauth =>
    obtain rfl := Option.some.inj hstep
    obtain ⟨hsame, hholder, hfiles⟩ := s.lockOf_frame path
    have hmoved : ((s.lockOf path).1.setPhase r (.waiting (s.lockOf path).2)).phase =
        Function.update s.phase r (.waiting (s.lockOf path).2) := by
      rw [setPhase_phase, hsame]
    refine h.move hmoved (fun _ _ => get?_lockOf_of_some)
      (fun lock r' _ => by rw [setPhase_holder, hholder]) (fun lock => ?_)
      (fun path' r' hfile => ?_) (fun lock hon => ⟨path, hauth, ?_⟩) nofun (by simp)
    · rw [setPhase_holder, hholder, h.held, hphase]
      simp [Phase.Holds]
    · rw [setPhase_fileHolder, hfiles] at hfile
      exact .inl ⟨hfile, h.ne_of_file (not_handling_of_phase hphase (by simp)) hfile⟩
    · obtain rfl : (s.lockOf path).2 = lock := by simpa [Phase.On, Phase.Holds] using hon
      exact get?_lockOf path
  next => cases hstep

/-- The in-process lock has been taken. -/
theorem Inv.step_lock {r : ℕ} (h : Inv auth s) (hstep : Flows.step auth s (.lock r) = some s') :
    Inv auth s' := by
  rw [Flows.step] at hstep
  split at hstep
  next lock hphase =>
    split_ifs at hstep with hnone
    obtain rfl := Option.some.inj hstep
    refine h.move rfl (fun _ _ => id) (fun lock' r' hne => ?_) (fun lock' => ?_)
      (fun path r' hfile => .inl ⟨hfile, ?_⟩) (fun lock' hon => ?_) nofun (by simp)
    · show Function.update s.holder lock (some r) lock' = some r' ↔ _
      by_cases heq : lock' = lock
      · rw [heq, Function.update_self, hnone]
        exact iff_of_false (fun h' => hne (Option.some.inj h').symm) nofun
      · rw [Function.update_of_ne heq]
    · show Function.update s.holder lock (some r) lock' = some r ↔ _
      by_cases heq : lock' = lock
      · rw [heq, Function.update_self]
        exact iff_of_true rfl (.inl rfl)
      · rw [Function.update_of_ne heq, h.held, hphase]
        simp [Phase.Holds, Ne.symm heq]
    · exact h.ne_of_file (not_handling_of_phase hphase (by simp)) hfile
    · obtain rfl : lock = lock' := by simpa [Phase.On, Phase.Holds] using hon
      exact h.mapped r lock (.inl hphase)
  next => cases hstep

/-- The file lock has been acquired. -/
theorem Inv.step_acquire {r : ℕ} (h : Inv auth s) (hC : Apart auth s (.acquire r))
    (hstep : Flows.step auth s (.acquire r) = some s') : Inv auth s' := by
  rw [Flows.step] at hstep
  split at hstep
  next lock path hphase hauth =>
    split_ifs at hstep
    obtain rfl := Option.some.inj hstep
    refine h.move rfl (fun _ _ => id) (fun _ _ _ => Iff.rfl) (fun lock' => ?_)
      (fun path' r' hfile => ?_) (fun lock' hon => ?_) nofun fun _ r' hr' => ?_
    · show s.holder lock' = some r ↔ _
      rw [h.held, hphase]
      simp [Phase.Holds]
    · replace hfile : Function.update s.fileHolder path (some (.request r)) path' =
          some (.request r') := hfile
      by_cases heq : path' = path
      · subst heq
        rw [Function.update_self] at hfile
        obtain rfl : r = r' := by simpa using hfile
        exact .inr ⟨rfl, ⟨_, rfl⟩, hauth⟩
      · rw [Function.update_of_ne heq] at hfile
        exact .inl ⟨hfile, h.ne_of_file (not_handling_of_phase hphase (by simp)) hfile⟩
    · obtain rfl : lock = lock' := by simpa [Phase.On, Phase.Holds] using hon
      exact h.mapped r lock (.inr (.inl hphase))
    · obtain ⟨path', hpath, hpath'⟩ := hC r r' ⟨.inl rfl, hr'⟩
      exact h.eq_of_acquiring hphase hpath hpath' hr'
  next => cases hstep

/-- The answer has been handled, or the handling of it has been cut short. -/
theorem Inv.step_leave {r : ℕ} {exit : Exit} (h : Inv auth s)
    (hstep : Flows.step auth s (.leave r exit) = some s') : Inv auth s' := by
  rw [Flows.step] at hstep
  split at hstep
  next lock path hphase hauth =>
    obtain rfl := Option.some.inj hstep
    refine h.giveBack (.inr hphase) rfl rfl rfl fun path' r' hfile => ?_
    replace hfile : Function.update s.fileHolder path none path' = some (.request r') := hfile
    by_cases heq : path' = path
    · rw [heq, Function.update_self] at hfile
      cases hfile
    · rw [Function.update_of_ne heq] at hfile
      refine ⟨hfile, ?_⟩
      -- The file a request holds is the one of its own path.
      rintro rfl
      exact heq (ClientAuth.locked.inj ((h.file path' r' hfile).2.symm.trans hauth))
  next hphase =>
    obtain rfl := Option.some.inj hstep
    refine h.move rfl (fun _ _ => id) (fun _ _ _ => Iff.rfl) (fun lock => ?_)
      (fun path r' hfile => .inl ⟨hfile, ?_⟩) (by simp [Phase.On, Phase.Holds]) nofun (by simp)
    · rw [setPhase_holder, h.held, hphase]
      simp [Phase.Holds]
    · rintro rfl
      have hauth := (h.file path r' hfile).2
      rw [h.unlocked r' hphase] at hauth
      cases hauth
  next => cases hstep

/-- A flow has ended before its phase. -/
theorem Inv.step_drop {r : ℕ} (h : Inv auth s) (hstep : Flows.step auth s (.drop r) = some s') :
    Inv auth s' := by
  have hdone : ∀ {before}, s.phase r = before → (∀ lock, ¬ before.Holds lock) →
      (∀ lock, before ≠ .handling lock) → Inv auth (s.setPhase r .done) :=
    fun hphase hheld hbefore =>
      h.goOn hphase hheld hbefore (by simp [Phase.On, Phase.Holds]) (by simp)
  rw [Flows.step] at hstep
  split at hstep
  next hphase => exact Option.some.inj hstep ▸ hdone hphase (by simp [Phase.Holds]) (by simp)
  next hphase => exact Option.some.inj hstep ▸ hdone hphase (by simp [Phase.Holds]) (by simp)
  next hphase => exact Option.some.inj hstep ▸ hdone hphase (by simp [Phase.Holds]) (by simp)
  next lock hphase =>
    obtain rfl := Option.some.inj hstep
    exact h.giveBack (.inl hphase) rfl rfl rfl fun path r' hfile =>
      ⟨hfile, h.ne_of_file (not_handling_of_phase hphase (by simp)) hfile⟩
  next => cases hstep

/-- A file lock comes to no request, or is taken from none. -/
theorem Inv.setFileHolder (h : Inv auth s) {path : String} {holder : Option FileHolder}
    (hne : ∀ r, holder ≠ some (.request r)) : Inv auth (s.setFileHolder path holder) := by
  refine { h with file := fun path' r hfile => ?_ }
  replace hfile : Function.update s.fileHolder path holder path' = some (.request r) := hfile
  by_cases heq : path' = path
  · rw [heq, Function.update_self] at hfile
    exact absurd hfile (hne r)
  · rw [Function.update_of_ne heq] at hfile
    exact h.file path' r hfile

/-- Another process has taken a file lock, or given it back. -/
theorem Inv.step_foreign {path : String} {taken : Bool} (h : Inv auth s)
    (hstep : Flows.step auth s (.foreign path taken) = some s') : Inv auth s' := by
  cases hholder : s.fileHolder path with
  | none =>
    cases taken with
    | false => simp [Flows.step, hholder] at hstep
    | true =>
      simp only [Flows.step, hholder, Option.some.injEq] at hstep
      exact hstep ▸ h.setFileHolder (by simp)
  | some holder =>
    cases holder with
    | request r => simp [Flows.step, hholder] at hstep
    | otherProcess =>
      cases taken with
      | true => simp [Flows.step, hholder] at hstep
      | false =>
        simp only [Flows.step, hholder, Option.some.injEq] at hstep
        exact hstep ▸ h.setFileHolder (by simp)

/-- **The invariant** is kept by every step that keeps the requests without a lock apart. -/
theorem Inv.step {a : FlowAct} (h : Inv auth s) (hC : Apart auth s a)
    (hstep : Flows.step auth s a = some s') : Inv auth s' := by
  cases a with
  | send r =>
    rw [Flows.step] at hstep
    split at hstep
    next hphase =>
      obtain rfl := Option.some.inj hstep
      exact h.goOn hphase (by simp [Phase.Holds]) (by simp) (by simp [Phase.On, Phase.Holds])
        (by simp)
    next => cases hstep
  | respond r unauthorized => exact h.step_respond hC hstep
  | lookUp r => exact h.step_lookUp hstep
  | lock r => exact h.step_lock hstep
  | acquire r => exact h.step_acquire hC hstep
  | exchange r =>
    rw [Flows.step] at hstep
    split at hstep
    next => exact Option.some.inj hstep ▸ h
    next => cases hstep
  | leave r exit => exact h.step_leave hstep
  | drop r => exact h.step_drop hstep
  | foreign path taken => exact h.step_foreign hstep

end Flows

/-! ### Runs -/

/-- **The phases exclude each other** and no lock is held outside them, in every run in which the
requests without a common lock are apart. -/
theorem exclusive_of_reaches {auth : ℕ → ClientAuth} {s : Flows}
    (h : Reaches (Flows.step auth) (Apart auth) Flows.init s) : Exclusive s ∧ Released s := by
  have hinv : Flows.Inv auth s := h.invariant .init fun hinv hC hstep => hinv.step hC hstep
  exact ⟨hinv.exclusive, fun lock r hr => (hinv.held lock r).mp hr,
    fun path r hr => (hinv.file path r hr).1⟩

/-- Clients that take one lock are always apart. -/
theorem apart_of_locked {auth : ℕ → ClientAuth} {path : String} (h : ∀ r, auth r = .locked path)
    (s : Flows) (a : FlowAct) : Apart auth s a :=
  fun r r' _ => ⟨path, h r, h r'⟩

/-- When the answers to two requests without a common lock overlap, their phases do. -/
theorem not_exclusive_of_not_apart {auth : ℕ → ClientAuth} {s s' : Flows} {a : FlowAct}
    (h : ¬ Apart auth s a) (hstep : Flows.step auth s a = some s') : ¬ Exclusive s' := by
  rw [Apart] at h
  push Not at h
  obtain ⟨r, r', ⟨henters, lock', hphase'⟩, -⟩ := h
  -- The step has moved the one request only, and that one has not been in its phase before.
  have hmoved : ∃ lock, s'.phase = Function.update s.phase r (.handling lock) ∧
      ∀ lock, s.phase r ≠ .handling lock := by
    obtain rfl | ⟨rfl, hauth⟩ := henters
    · rw [Flows.step] at hstep
      split at hstep
      next lock path hphase hauth =>
        split_ifs at hstep
        obtain rfl := Option.some.inj hstep
        exact ⟨some lock, rfl, by simp [hphase]⟩
      next => cases hstep
    · rw [Flows.step] at hstep
      split at hstep
      next hphase _ =>
        obtain rfl := Option.some.inj hstep
        exact ⟨none, rfl, by simp [hphase]⟩
      next hlocked =>
        rw [hauth] at hlocked
        cases hlocked
      next => cases hstep
  obtain ⟨lock, hupdate, hbefore⟩ := hmoved
  have hne : r' ≠ r := by
    rintro rfl
    exact hbefore lock' hphase'
  intro hexclusive
  refine hne (hexclusive r' r ⟨lock', ?_⟩ ⟨lock, ?_⟩)
  · rw [hupdate, Function.update_of_ne hne, hphase']
  · rw [hupdate, Function.update_self]

/-- Two requests of clients with the account's lock: one is in its phase, and the other waits. -/
def lockedRun : List FlowAct :=
  [.send 0, .send 1, .respond 0 true, .respond 1 true, .lookUp 0, .lookUp 1, .lock 0, .acquire 0,
    .exchange 0]

theorem exclusive_lockedRun : ∃ s : Flows,
    playFrom (Flows.step fun _ => .locked "key.lock") (fun _ _ => true) Flows.init lockedRun =
      some s ∧ s.phase 0 = .handling (some 0) ∧ s.phase 1 = .waiting 0 ∧ Exclusive s ∧
        Released s := by
  have hplays : (playFrom (Flows.step fun _ => .locked "key.lock") (fun _ _ => true) Flows.init
      lockedRun).isSome = true := by
    decide +kernel
  obtain ⟨s, hs⟩ := Option.isSome_iff_exists.mp hplays
  have hreaches : Reaches (Flows.step fun _ => .locked "key.lock")
      (Apart fun _ => .locked "key.lock") Flows.init s :=
    reaches_of_playFrom (fun s a _ => apart_of_locked (fun _ => rfl) s a) .start hs
  obtain rfl := Option.some.inj (hs.symm.trans rfl)
  exact ⟨_, hs, rfl, rfl, exclusive_of_reaches hreaches⟩

/-- Two requests through clients as the running hub builds them are both in their phase. -/
theorem not_exclusive_outbound : ∃ s, Reaches (Flows.step fun _ => outboundAuth) (fun _ _ => True)
    Flows.init s ∧ ¬ Exclusive s := by
  have hplays : (playFrom (Flows.step fun _ => outboundAuth) (fun _ _ => true) Flows.init
      [.send 0, .send 1, .respond 0 true, .respond 1 true]).isSome = true := by
    decide +kernel
  obtain ⟨s, hs⟩ := Option.isSome_iff_exists.mp hplays
  refine ⟨s, reaches_of_playFrom (fun _ _ _ => trivial) .start hs, fun h => ?_⟩
  obtain rfl := Option.some.inj (hs.symm.trans rfl)
  exact absurd (h 0 1 ⟨none, rfl⟩ ⟨none, rfl⟩) (by decide)

end OAuth

end SlmMcpHub
