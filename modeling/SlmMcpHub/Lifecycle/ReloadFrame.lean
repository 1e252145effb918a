import SlmMcpHub.Lifecycle.Convergence
import SlmMcpHub.Lifecycle.Frame

/-!
# What a reload leaves alone

A reload runs the operations for the backends that are removed, modified and added one after the
other. What becomes of one of them, be it a refusal, a failure or an exception, keeps none of the
others from being carried out, and a backend that is unchanged is left exactly as it was.

## Main definitions

* `uncancelled` — nobody asks the reload to stop
* `InTurn` — operations are carried out one after the other, whatever they come to

## Main results

* `reload_spares_unchanged` — the unchanged backends, and the operations on the others
-/

namespace SlmMcpHub

open HubOp ConnectionManager ConfigReloader

/-- Nobody asks the task to stop. -/
def uncancelled (_ : Hub) (_ : Wait) : Res → Bool
  | .raised .cancelled => false
  | _ => true

theorem admits_uncancelled : Admits uncancelled fun e => e.isException = true :=
  ⟨fun _ => id, fun _ _ h => by cases h⟩

/-- The executions of a task that nobody asks to stop, with no other operation beside it. -/
abbrev CarriedOut {α : Type} (t : TaskId) (p : HubOp α) (w : World hubSignature)
    (r : Except Exc α) (w' : World hubSignature) : Prop :=
  p.Exec (hubAllowing uncancelled) OnlyCalls t w r w'

/-- Operations are carried out one after the other, whatever they come to. -/
inductive InTurn (t : TaskId) :
    List (HubOp (Bool × String)) → World hubSignature → World hubSignature → Prop where
  | nil (w : World hubSignature) : InTurn t [] w w
  | cons {p : HubOp (Bool × String)} {ps : List (HubOp (Bool × String))}
      {r : Except Exc (Bool × String)} {w v w' : World hubSignature} :
      CarriedOut t p w r v → InTurn t ps v w' → InTurn t (p :: ps) w w'

/-- The operations of a reload. -/
def ConfigDiff.operations (d : ConfigDiff) : List (HubOp (Bool × String)) :=
  d.removed.map removeServer ++ (d.modified.map replaceServer ++ d.added.map addServer)

theorem InTurn.append {t : TaskId} {ps qs : List (HubOp (Bool × String))}
    {w v w' : World hubSignature} (h : InTurn t ps w v) (h' : InTurn t qs v w') :
    InTurn t (ps ++ qs) w w' := by
  induction h with
  | nil w => exact h'
  | cons hp _ ih => exact .cons hp (ih h')

/-! ### The loops -/

section Loops

variable {t : TaskId} {w v w' : World hubSignature}

/-- An operation of a reload on one backend. -/
abbrev OperatesOn (name : String) (p : HubOp (Bool × String)) : Prop :=
  Operates uncancelled false (fun e => e.isException = true) name p

/-- **A loop carries out all its operations**, whatever they come to. -/
theorem inTurn_forEach {β : Type} {key : β → String} {p : β → HubOp (Bool × String)}
    (hp : ∀ b, OperatesOn (key b) (p b)) :
    ∀ {bs : List β} {w r w'}, Fit t w →
      CarriedOut t (Op.forEach bs fun b => catchException (do let _ ← p b) fun _ => pure ())
        w r w' →
        r = .ok () ∧ InTurn t (bs.map p) w w' ∧ Leaves false t (bs.map key) w w' := by
  intro bs
  induction bs with
  | nil =>
    rintro w r w' hw ⟨rfl, rfl⟩
    exact ⟨rfl, .nil w, .refl hw _⟩
  | cons b bs ih =>
    intro w r w' hw h
    rcases Op.exec_bind.mp h with ⟨_, v, hfirst, h⟩ | ⟨e, hfirst, -⟩
    · obtain ⟨r₀, hfirst, -⟩ := exec_logged hfirst
      have hleaves := ((hp b).leaves hw hfirst).2
      obtain ⟨hr, hturn, hrest⟩ := ih hleaves.fit h
      exact ⟨hr, .cons hfirst hturn, hleaves.trans hrest⟩
    · obtain ⟨r₀, hfirst, hok⟩ := exec_logged hfirst
      cases hok ((hp b).leaves hw hfirst).1

/-! ### The reload -/

/-- The backends an operation of a reload is about. -/
def ConfigDiff.changedNames (d : ConfigDiff) : List String :=
  d.removed ++ (d.modified.map (·.name) ++ d.added.map (·.name))

theorem inTurn_loops {d : ConfigDiff} {r : Except Exc ConfigDiff} (hw : Fit t w)
    (h : CarriedOut t (do applyRemoves d; applyModifies d; applyAdds d; pure d) w r w') :
    r = .ok d ∧ InTurn t d.operations w w' ∧ Leaves false t d.changedNames w w' := by
  have hremove : ∀ name, OperatesOn (id name) (removeServer name) :=
    fun _ _ _ => frames_removeServer admits_uncancelled.cancelled
  have hreplace : ∀ cfg : MCPServerConfig, OperatesOn cfg.name (replaceServer cfg) :=
    fun _ _ _ => frames_replaceServer admits_uncancelled
  have hadd : ∀ cfg : MCPServerConfig, OperatesOn cfg.name (addServer cfg) :=
    fun _ _ _ => frames_addServer admits_uncancelled
  rcases Op.exec_bind.mp h with ⟨_, u, hremoves, h⟩ | ⟨e, hremoves, -⟩
  · obtain ⟨-, hturn₁, hleaves₁⟩ := inTurn_forEach hremove hw hremoves
    rcases Op.exec_bind.mp h with ⟨_, v, hmodifies, h⟩ | ⟨e, hmodifies, -⟩
    · obtain ⟨-, hturn₂, hleaves₂⟩ := inTurn_forEach hreplace hleaves₁.fit hmodifies
      rcases Op.exec_bind.mp h with ⟨_, _, hadds, h⟩ | ⟨e, hadds, -⟩
      · obtain ⟨-, hturn₃, hleaves₃⟩ := inTurn_forEach hadd hleaves₂.fit hadds
        obtain ⟨rfl, rfl⟩ := h
        have hleaves := hleaves₁.trans (hleaves₂.trans hleaves₃)
        rw [List.map_id] at hleaves
        exact ⟨rfl, hturn₁.append (hturn₂.append hturn₃), hleaves⟩
      · cases (inTurn_forEach hadd hleaves₂.fit hadds).1
    · cases (inTurn_forEach hreplace hleaves₁.fit hmodifies).1
  · cases (inTurn_forEach hremove hw hremoves).1

variable {R : Runtime} {new : HubConfig} {l : ℕ}

theorem inTurn_underLock {r : Except Exc ConfigDiff} (hw : Fit t w)
    (h : CarriedOut t (underLock R new) w r w') :
    r = .ok (diffConfigs R (Hub.config w.state) new) ∧
      InTurn t (diffConfigs R (Hub.config w.state) new).operations w w' ∧
        Leaves false t (diffConfigs R (Hub.config w.state) new).changedNames w w' := by
  change CarriedOut t (if (diffConfigs R (Hub.config w.state) new).isEmpty then
      pure (diffConfigs R (Hub.config w.state) new) else _) w r w' at h
  by_cases hempty : (diffConfigs R (Hub.config w.state) new).isEmpty
  · rw [if_pos hempty] at h
    obtain ⟨rfl, rfl⟩ := h
    have hnone : (diffConfigs R (Hub.config w.state) new).operations = [] := by
      simp only [ConfigDiff.isEmpty, Bool.and_eq_true, decide_eq_true_eq] at hempty
      rw [ConfigDiff.operations, hempty.1.1, hempty.1.2, hempty.2]
      rfl
    rw [hnone]
    exact ⟨rfl, .nil w, .refl hw _⟩
  · rw [if_neg hempty] at h
    exact inTurn_loops hw h

/-- A wait that only calls pass by. -/
theorem carriedOut_wait' {wt : Wait} {r : Except Exc Unit}
    (hwt : ∀ w t e, ready w t wt (.raised e) = true → e = .cancelled)
    (h : CarriedOut t (wait' wt) w r w') :
    r = .ok () ∧ OnlyCalls w.state w'.state ∧ t < w'.next := by
  obtain ⟨v, res, ⟨hrely, hborn⟩, hready, hallowed, rfl, ⟨e, rfl, -⟩ | ⟨-, rfl⟩⟩ := exec_wait' h
  · obtain rfl := hwt v t e hready
    cases hallowed
  · exact ⟨rfl, hrely, hborn⟩

theorem carriedOut_acquire {r : Except Exc Unit} (hborn : t < w.next)
    (h : CarriedOut t (acquire l) w r w') :
    r = .ok () ∧ OnlyCalls w.state w'.state ∧ t < w'.next := by
  have htake : ∀ {v : World hubSignature}, OnlyCalls v.state
      (v.exec (hubAllowing uncancelled) t (.act (.take l))).state :=
    fun {v} => onlyCalls_exec (s := .act (.take l)) trivial
  change CarriedOut t (when (Hub.permits w.state l = 0) (wait' (.lock l)) >>= fun _ =>
    act (.take l)) w r w' at h
  by_cases hfree : Hub.permits w.state l = 0
  · rw [HubOp.when, if_pos hfree] at h
    have hlock : ∀ w t e, ready w t (.lock l) (.raised e) = true → e = .cancelled := by
      intro w t e h
      cases e <;> simp_all [ready, answers]
    rcases Op.exec_bind.mp h with ⟨_, v, hwait, h⟩ | ⟨_, hwait, -⟩
    · obtain ⟨-, hcalls, hv⟩ := carriedOut_wait' hlock hwait
      obtain ⟨rfl, rfl⟩ := h
      exact ⟨rfl, hcalls.trans htake, hv⟩
    · cases (carriedOut_wait' hlock hwait).1
  · rw [HubOp.when, if_neg hfree] at h
    obtain ⟨rfl, rfl⟩ := h
    exact ⟨rfl, htake, hborn⟩

/-- A stretch under a lock. -/
theorem carriedOut_withLock {α : Type} {p : HubOp α} {r : Except Exc α} (hborn : t < w.next)
    (h : CarriedOut t (withLock l p) w r w') :
    ∃ u v, OnlyCalls w.state u.state ∧ t < u.next ∧ CarriedOut t p u r v ∧
      OnlyCalls v.state w'.state ∧ (t < v.next → t < w'.next) := by
  rcases Op.exec_bind.mp h with ⟨_, u, hacquire, h⟩ | ⟨_, hacquire, -⟩
  · obtain ⟨-, hcalls, hu⟩ := carriedOut_acquire hborn hacquire
    obtain ⟨v, hp, rfl⟩ := Op.exec_ensure.mp h
    exact ⟨u, v, hcalls, hu, hp, onlyCalls_exec (s := .act (.release l)) trivial, id⟩
  · cases (carriedOut_acquire hborn hacquire).1

/-- **A reload leaves the unchanged backends exactly as they were**, and carries out the operations
on all the others, whatever each of them comes to. -/
theorem reload_spares_unchanged {r : Except Exc ConfigDiff} (hw : Fit t w)
    (h : CarriedOut t (applyConfig R l new) w r w') :
    (∀ n ∈ (diffConfigs R (Hub.config w.state) new).unchanged, SameServer n w.state w'.state) ∧
      r = .ok (diffConfigs R (Hub.config w.state) new) ∧
      ∃ u v, OnlyCalls w.state u.state ∧
        InTurn t (diffConfigs R (Hub.config w.state) new).operations u v ∧
          OnlyCalls v.state w'.state := by
  have hlocked : ∀ {r v}, CarriedOut t (withLock l (underLock R new)) w r v →
      r = .ok (diffConfigs R (Hub.config w.state) new) ∧
        Leaves false t (diffConfigs R (Hub.config w.state) new).changedNames w v ∧
        ∃ u v', OnlyCalls w.state u.state ∧
          InTurn t (diffConfigs R (Hub.config w.state) new).operations u v' ∧
            OnlyCalls v'.state v.state := by
    intro r v hlock
    obtain ⟨u, v', hacquire, hborn, hunder, hrelease, hnext⟩ := carriedOut_withLock hw.born hlock
    have hu : Leaves false t [] w u := hacquire.leaves hw hborn []
    obtain ⟨rfl, hturn, hleaves⟩ := inTurn_underLock hu.fit hunder
    rw [hacquire.config] at hturn hleaves ⊢
    have hleft : Leaves false t [] v' v :=
      hrelease.leaves hleaves.fit (hnext hleaves.fit.born) []
    refine ⟨rfl, ?_, u, v', hacquire, hturn, hrelease⟩
    simpa using hu.trans (hleaves.trans hleft)
  rcases Op.exec_bind.mp h with ⟨d, v, hlock, h⟩ | ⟨_, hlock, -⟩
  · obtain ⟨hd, hleaves, u, v', hacquire, hturn, hrelease⟩ := hlocked hlock
    obtain rfl := Except.ok.inj hd
    -- The notifier is told of the changes, if there are any.
    have hnotified : r = .ok (diffConfigs R (Hub.config w.state) new) ∧
        OnlyCalls v.state w'.state ∧ t < w'.next := by
      by_cases hcount : 0 < (diffConfigs R (Hub.config w.state) new).changeCount
      · rw [HubOp.when, if_pos hcount] at h
        have hturn : ∀ w t e, ready w t .turn (.raised e) = true → e = .cancelled := by
          intro w t e h
          cases e <;> simp_all [ready, answers]
        rcases Op.exec_bind.mp h with ⟨_, v'', hwait, h⟩ | ⟨_, hwait, -⟩
        · obtain ⟨-, hcalls, hv⟩ := carriedOut_wait' hturn hwait
          obtain ⟨rfl, rfl⟩ := h
          exact ⟨rfl, hcalls, hv⟩
        · cases (carriedOut_wait' hturn hwait).1
      · rw [HubOp.when, if_neg hcount] at h
        obtain ⟨rfl, rfl⟩ := h
        exact ⟨rfl, .refl _, hleaves.fit.born⟩
    refine ⟨fun n hn => ?_, hnotified.1, u, v', hacquire, hturn, hrelease.trans hnotified.2.1⟩
    refine (hleaves.same n fun hchanged => ?_).trans (hnotified.2.1.sameServer n)
    -- A name is in one part of a difference only.
    have hunchanged := (mem_part_iff R (Hub.config w.state) new .unchanged n).mp hn
    have hpart : ∀ v ≠ Verdict.unchanged, n ∉ (diffConfigs R (Hub.config w.state) new).part v :=
      fun v hv hmem => hv (Option.some.inj (((mem_part_iff R _ new v n).mp hmem).symm.trans
        hunchanged))
    simp only [ConfigDiff.changedNames, List.mem_append] at hchanged
    rcases hchanged with hmem | hmem | hmem
    · exact hpart .removed (by decide) hmem
    · exact hpart .modified (by decide) hmem
    · exact hpart .added (by decide) hmem
  · cases (hlocked hlock).1

end Loops

/-- A configuration that adds a second server to the one that is connected. -/
def twoServers : HubConfig := { mcpServers := [{ name := "a" }, { name := "b" }] }

theorem diffConfigs_twoServers :
    diffConfigs eqRuntime (Hub.config connectedWorld.state) twoServers =
      { added := [{ name := "b" }], unchanged := ["a"] } := by
  decide +kernel

/-- The second server cannot be connected; the first one stays connected as it was. -/
theorem reload_spares_unchanged_failing : ∃ r w', Fit 0 connectedWorld ∧
    CarriedOut 0 (applyConfig eqRuntime 1 twoServers) connectedWorld r w' ∧
      SameServer "a" connectedWorld.state w'.state ∧ Hub.link w'.state "a" = some true ∧
      Hub.link w'.state "b" = some false ∧
      r = .ok { added := [{ name := "b" }], unchanged := ["a"] } ∧
      ∃ u v, OnlyCalls connectedWorld.state u.state ∧
        InTurn 0 [addServer { name := "b" }] u v ∧ OnlyCalls v.state w'.state := by
  obtain ⟨r, w', h, hlinks⟩ := Op.exists_exec_of_play (M := hubAllowing uncancelled) (t := 0)
    OnlyCalls (w := connectedWorld) .refl (p := applyConfig eqRuntime 1 twoServers)
    Nat.zero_lt_one [.ok, .raised (.connection "refused" .transient), .ok]
    (fun _ w => Hub.link w.state "a" = some true && Hub.link w.state "b" = some false)
    (by decide +kernel)
  obtain ⟨hsame, hr, hturn⟩ := reload_spares_unchanged fit_connectedWorld h
  rw [diffConfigs_twoServers] at hsame hr hturn
  simp only [Bool.and_eq_true, decide_eq_true_eq] at hlinks
  exact ⟨r, w', fit_connectedWorld, h, hsame "a" (List.mem_singleton_self _), hlinks.1, hlinks.2,
    hr, hturn⟩

end SlmMcpHub
