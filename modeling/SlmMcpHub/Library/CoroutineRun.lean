import SlmMcpHub.Library.Coroutine

/-!
# Runs that can be evaluated

A run is determined by the moves of the outside: which procedure is called, which wait ends and
with what. `Config.play` computes it, and gives up on a move that cannot be made and on a statement
that a check refuses.

What is in progress can be listed, since only the tasks that were started are in anything.

## Main definitions

* `Config.play` — the run of a list of moves
* `World.inProgress` — everything that is in progress

## Main results

* `Reach.and_inProgress` — nothing is in progress that is not listed
* `reach_play` — what `play` computes is the end of a run all whose statements passed the check
-/

namespace SlmMcpHub

variable {S : Signature}

/-- A move of the outside. -/
inductive Move (S : Signature) where
  | call (c : S.Call)
  | resume (t : TaskId) (r : S.Res)
  | tick (e : S.Tick)

/-- Let the running task go on until it waits or is done, for at most so many steps. -/
def Config.drive (M : System S) (check : World S → TaskId → Stmt S → Bool) :
    ℕ → Config S → Option (Config S)
  | 0, cf => some cf
  | _ + 1, ⟨w, conts, none⟩ => some ⟨w, conts, none⟩
  | fuel + 1, ⟨w, conts, some (t, .read k)⟩ => drive M check fuel ⟨w, conts, some (t, k w t)⟩
  | fuel + 1, ⟨w, conts, some (t, .stmt s p)⟩ =>
    if check w t s then drive M check fuel ⟨w.exec M t s, s.adopt M w conts, some (t, p)⟩
    else none
  | _ + 1, ⟨w, conts, some (t, .await wt k)⟩ =>
    some ⟨w.suspended t wt, Function.update conts t (some k), none⟩
  | fuel + 1, ⟨w, conts, some (t, .jump c)⟩ =>
    if check w t (.jump c) then
      drive M check fuel ⟨w.exec M t (.jump c), conts, some (t, M.body c M.again)⟩
    else none
  | _ + 1, ⟨w, conts, some (t, .ret r)⟩ => some ⟨w.finished t r, conts, none⟩

/-- Make a move. -/
def Config.move (M : System S) (check : World S → TaskId → Stmt S → Bool) (fuel : ℕ)
    (cf : Config S) : Move S → Option (Config S)
  | .call c =>
    if cf.running.isNone && M.client c then
      some ⟨cf.world.born M c, Function.update cf.conts cf.world.next (some (M.body c)), none⟩
    else none
  | .tick e =>
    if cf.running.isNone then
      (M.tick e cf.world.state).map fun s => ⟨{ cf.world with state := s }, cf.conts, none⟩
    else none
  | .resume t r =>
    match cf.running, cf.conts t, (cf.world.tasks t).waiting with
    | none, some k, some wt =>
      if M.ready cf.world t wt r then
        drive M check fuel
          ⟨cf.world.resumed t, Function.update cf.conts t none, some (t, k r)⟩
      else none
    | _, _, _ => none

/-- Make moves. -/
def Config.play (M : System S) (check : World S → TaskId → Stmt S → Bool) (fuel : ℕ) :
    List (Move S) → Config S → Option (Config S)
  | [], cf => some cf
  | mv :: mvs, cf => (cf.move M check fuel mv).bind (play M check fuel mvs)

/-- Everything that is in progress. -/
def World.inProgress (w : World S) : List S.Call :=
  (List.range w.next).flatMap fun t => (w.tasks t).stack

/-! ### What is in progress -/

section InProgress

variable {M : System S} {C : World S → TaskId → Stmt S → Prop}

/-- Only tasks that were started run, wait and are in anything. -/
structure Config.Started (cf : Config S) : Prop where
  conts : ∀ {t k}, cf.conts t = some k → t < cf.world.next
  running : ∀ {t p}, cf.running = some (t, p) → t < cf.world.next
  stack : ∀ {t}, cf.world.next ≤ t → (cf.world.tasks t).stack = []

theorem Config.Started.mem_inProgress {cf : Config S} (h : cf.Started) {c : S.Call}
    (hc : cf.world.doing c) : c ∈ cf.world.inProgress := by
  obtain ⟨t, ht⟩ := hc
  have hlt : t < cf.world.next := by
    by_contra hge
    rw [h.stack (Nat.le_of_not_lt hge)] at ht
    cases ht
  exact List.mem_flatMap.mpr ⟨t, List.mem_range.mpr hlt, ht⟩

/-- A change of a task that was started leaves the other stacks alone. -/
theorem World.stack_setTask_of_le {w : World S} {t u : TaskId} {f : Task S → Task S}
    (ht : t < w.next) (hu : w.next ≤ u) (h : (w.tasks u).stack = []) :
    ((w.setTask t f).tasks u).stack = [] := by
  rw [tasks_setTask_of_ne _ _ (Nat.ne_of_gt (Nat.lt_of_lt_of_le ht hu))]
  exact h

theorem World.stack_born_of_le {w : World S} {c : S.Call} {u : TaskId}
    (hstack : ∀ {u}, w.next ≤ u → (w.tasks u).stack = []) (hu : w.next + 1 ≤ u) :
    ((w.born M c).tasks u).stack = [] := by
  rw [tasks_born_of_ne w M c (Nat.ne_of_gt hu)]
  exact hstack (Nat.le_of_succ_le hu)

theorem World.stack_exec_of_le {w : World S} {t u : TaskId} {s : Stmt S} (ht : t < w.next)
    (hstack : ∀ {u}, w.next ≤ u → (w.tasks u).stack = []) (hu : (w.exec M t s).next ≤ u) :
    ((w.exec M t s).tasks u).stack = [] := by
  cases s with
  | act a => exact hstack hu
  | push a c =>
    rw [exec_push]
    exact stack_setTask_of_le (w := { w with state := M.eval t a w.state }) ht hu (hstack hu)
  | pop a =>
    rw [exec_pop]
    exact stack_setTask_of_le (w := { w with state := M.eval t a w.state }) ht hu (hstack hu)
  | spawn c => exact stack_born_of_le hstack hu
  | cancel v =>
    have hsame := sameButRequests_request M w.next v w
    exact (hsame.stack u).trans (hstack (hsame.next ▸ hu))
  | jump c =>
    rw [exec_jump]
    exact stack_setTask_of_le ht hu (hstack hu)

theorem Config.Started.step {cf cf' : Config S} (h : cf.Started) (hstep : Step M C cf cf') :
    cf'.Started := by
  have hborn : ∀ {w : World S} {conts : TaskId → Option (S.Res → Coro S S.Res)} {c : S.Call},
      (∀ {t k}, conts t = some k → t < w.next) → ∀ {t k},
        Function.update conts w.next (some (M.body c)) t = some k → t < w.next + 1 := by
    intro w conts c hconts t k hk
    rcases eq_or_ne t w.next with rfl | hne
    · exact Nat.lt_succ_self _
    · rw [Function.update_of_ne hne] at hk
      exact Nat.lt_succ_of_lt (hconts hk)
  cases hstep with
  | call hc => exact ⟨hborn h.conts, nofun, World.stack_born_of_le h.stack⟩
  | @giveUp w conts t c hc hclient =>
    have hsame := World.sameButRequests_request M w.next t w
    refine ⟨fun hk => Nat.lt_of_lt_of_eq (h.conts hk) hsame.next.symm, nofun, fun {u} hu => ?_⟩
    exact (hsame.stack u).trans (h.stack (hsame.next ▸ hu))
  | tick hs => exact ⟨h.conts, nofun, h.stack⟩
  | @resume w conts t k wt r hk hw hr =>
    refine ⟨fun {u k'} hk' => ?_, fun hrun => ?_, fun {u} hu => ?_⟩
    · change Function.update conts t none u = some k' at hk'
      rcases eq_or_ne u t with rfl | hne
      · exact h.conts hk
      · rw [Function.update_of_ne hne] at hk'
        exact h.conts hk'
    · cases hrun
      exact h.conts hk
    · exact (World.stack_resumed w t u).trans (h.stack hu)
  | read =>
    refine ⟨h.conts, fun hrun => ?_, h.stack⟩
    cases hrun
    exact h.running rfl
  | @stmt w conts t st p hs =>
    have ht := h.running rfl
    refine ⟨?_, fun hrun => ?_, World.stack_exec_of_le ht h.stack⟩
    · cases st with
      | spawn c => exact hborn h.conts
      | _ => exact fun hk => Nat.lt_of_lt_of_le (h.conts hk) (w.next_exec M t _)
    · cases hrun
      exact Nat.lt_of_lt_of_le ht (w.next_exec M t st)
  | @await w conts t wt k =>
    refine ⟨fun {u k'} hk' => ?_, nofun, fun {u} hu => ?_⟩
    · change Function.update conts t (some k) u = some k' at hk'
      rcases eq_or_ne u t with rfl | hne
      · exact h.running rfl
      · rw [Function.update_of_ne hne] at hk'
        exact h.conts hk'
    · exact (World.stack_suspended w t u wt).trans (h.stack hu)
  | jump hc =>
    refine ⟨h.conts, fun hrun => ?_, fun {u} hu => ?_⟩
    · cases hrun
      exact h.running rfl
    · exact World.stack_exec_of_le (s := .jump _) (h.running rfl) h.stack hu
  | @finish w conts t r =>
    refine ⟨h.conts, nofun, fun {u} hu => ?_⟩
    have hne : u ≠ t := Nat.ne_of_gt (Nat.lt_of_lt_of_le (h.running rfl) hu)
    show ((w.finished t r).tasks u).stack = []
    rw [World.finished, World.tasks_setTask_of_ne _ _ hne]
    exact h.stack hu

theorem started_start (s : S.State) : (Config.start s).Started where
  conts hk := by cases hk
  running hrun := by cases hrun
  stack _ := rfl

theorem Reach.started {s : S.State} {cf : Config S} (h : Reach M C s cf) : cf.Started := by
  induction h with
  | refl => exact started_start s
  | tail _ hstep ih => exact ih.step hstep

/-- Nothing is in progress that is not listed. -/
theorem Reach.and_inProgress {s : S.State} {cf : Config S} (h : Reach M C s cf) :
    Reach M (fun w t st => C w t st ∧ ∀ c, w.doing c → c ∈ w.inProgress) s cf := by
  induction h with
  | refl => exact .refl
  | tail hprev hstep ih =>
    exact ih.tail (hstep.imp fun t st hC =>
      ⟨hC, fun c hc => (Reach.started hprev).mem_inProgress hc⟩)

/-- When nothing is listed, no task is in anything. -/
theorem Config.Started.stack_eq_nil {cf : Config S} (h : cf.Started)
    (hnil : cf.world.inProgress = []) (t : TaskId) : (cf.world.tasks t).stack = [] := by
  refine List.eq_nil_iff_forall_not_mem.mpr fun c hc => ?_
  have hmem := h.mem_inProgress ⟨t, hc⟩
  rw [hnil] at hmem
  cases hmem

end InProgress

section Soundness

variable {M : System S} {check : World S → TaskId → Stmt S → Bool}
  {C : World S → TaskId → Stmt S → Prop} {s : S.State}

theorem reach_drive (hcheck : ∀ {w t st}, check w t st = true → C w t st) :
    ∀ {fuel : ℕ} {cf cf' : Config S}, Reach M C s cf → cf.drive M check fuel = some cf' →
      Reach M C s cf'
  | 0, cf, cf', h, heq => Option.some.inj heq ▸ h
  | fuel + 1, ⟨w, conts, running⟩, cf', h, heq => by
    rcases running with _ | ⟨t, p⟩
    · exact Option.some.inj heq ▸ h
    · cases p with
      | ret r => exact Option.some.inj heq ▸ h.tail .finish
      | read k => exact reach_drive hcheck (h.tail .read) heq
      | stmt st p =>
        rw [Config.drive] at heq
        split at heq
        · next hc => exact reach_drive hcheck (h.tail (.stmt (hcheck hc))) heq
        · cases heq
      | await wt k => exact Option.some.inj heq ▸ h.tail .await
      | jump c =>
        rw [Config.drive] at heq
        split at heq
        · next hc => exact reach_drive hcheck (h.tail (.jump (hcheck hc))) heq
        · cases heq

theorem reach_move (hcheck : ∀ {w t st}, check w t st = true → C w t st) {fuel : ℕ}
    {cf cf' : Config S} {mv : Move S} (h : Reach M C s cf)
    (heq : cf.move M check fuel mv = some cf') : Reach M C s cf' := by
  obtain ⟨w, conts, running⟩ := cf
  cases mv with
  | call c =>
    rw [Config.move] at heq
    split at heq
    · next hc =>
      rw [Bool.and_eq_true, Option.isNone_iff_eq_none] at hc
      obtain ⟨rfl, hclient⟩ := hc
      exact Option.some.inj heq ▸ h.tail (.call hclient)
    · cases heq
  | tick e =>
    rw [Config.move] at heq
    split at heq
    · next hc =>
      obtain rfl := Option.isNone_iff_eq_none.mp hc
      obtain ⟨s', hs', rfl⟩ := Option.map_eq_some_iff.mp heq
      exact h.tail (.tick hs')
    · cases heq
  | resume t r =>
    rw [Config.move] at heq
    split at heq
    · next hrun hk hw =>
      obtain rfl := hrun
      split at heq
      · next hr => exact reach_drive hcheck (h.tail (.resume hk hw hr)) heq
      · cases heq
    · cases heq

/-- **What is played is a run.** -/
theorem reach_play (hcheck : ∀ {w t st}, check w t st = true → C w t st) {fuel : ℕ} :
    ∀ {mvs : List (Move S)} {cf cf' : Config S}, Reach M C s cf →
      cf.play M check fuel mvs = some cf' → Reach M C s cf'
  | [], _, _, h, heq => Option.some.inj heq ▸ h
  | mv :: mvs, cf, cf', h, heq => by
    obtain ⟨cf'', hmove, hplay⟩ := Option.bind_eq_some_iff.mp heq
    exact reach_play hcheck (reach_move hcheck h hmove) hplay

end Soundness

end SlmMcpHub
