import SlmMcpHub.Federation.References

/-!
# Backends that stay down

An eviction or a removal ends with the backend down, and what brings it up again should be a caller
who asks for it. What can bring it up besides are the tasks that are still under way when the
eviction completes: an attempt, a caller who asked before, a supervisor, which takes the drain of
the connection for a drop and reconnects at once. And the coordinator starts supervisors for evicted
backends as for all others.

## Main definitions

* `evictedSince`, `removedSince` — down, and not asked for or added since
* `EndsQuietly` — nothing that connects the backend is left when it is down

## Main results

* `staysDown_of_reach` — no backend becomes CONNECTED while it should be down
* `not_staysDown_supervised` — a supervisor reconnects an evicted backend
-/

namespace SlmMcpHub

/-! ### What has happened last -/

/-- Of the events that turn something on or off, the newest has turned it on. -/
def lastIs (on off : Event → Bool) : List Event → Bool
  | [] => false
  | e :: h => on e || (!off e && lastIs on off h)

/-- An eviction of the backend is completed. -/
def Event.evicts (name : String) : Event → Bool
  | .evicted n => n = name
  | _ => false

/-- A caller asks for the backend. -/
def Event.asks (name : String) : Event → Bool
  | .asked names => names.contains name
  | _ => false

/-- A removal of the backend is completed. -/
def Event.removes (name : String) : Event → Bool
  | .removed n => n = name
  | _ => false

/-- A caller adds the backend. -/
def Event.adds (name : String) : Event → Bool
  | .added n => n = name
  | _ => false

/-- The backend has been evicted, and nobody has asked for it since. -/
def evictedSince (name : String) : List Event → Bool := lastIs (Event.evicts name) (Event.asks name)

/-- The backend has been removed, and nobody has added it since. -/
def removedSince (name : String) : List Event → Bool :=
  lastIs (Event.removes name) (Event.adds name)

/-- No backend became CONNECTED while it was evicted or removed. -/
def StaysDown (history : List Event) : Prop :=
  ∀ name time past, (.connected name time :: past) <:+ history →
    evictedSince name past = false ∧ removedSince name past = false

section LastIs

variable {on off : Event → Bool} {s : Hub} {a : Act}

theorem lastIs_eval (h : lastIs on off (a.eval s).history = true) :
    (∃ e, a.event? s = some e ∧ on e = true) ∨
      lastIs on off s.history = true ∧ ∀ e, a.event? s = some e → off e = false := by
  rw [history_eval] at h
  cases hevent : a.event? s with
  | none =>
    rw [hevent] at h
    exact Or.inr ⟨h, nofun⟩
  | some e =>
    rw [hevent] at h
    have h : (on e || (!off e && lastIs on off s.history)) = true := h
    rw [Bool.or_eq_true, Bool.and_eq_true, Bool.not_eq_true'] at h
    rcases h with hon | ⟨hoff, hold⟩
    · exact Or.inl ⟨e, rfl, hon⟩
    · exact Or.inr ⟨hold, fun e' he' => Option.some.inj he' ▸ hoff⟩

/-- A backend is evicted by the completion of an eviction, and until someone asks for it. -/
theorem evictedSince_eval {name : String} (h : evictedSince name (a.eval s).history = true) :
    a = .note (.evicted name) ∨ evictedSince name s.history = true ∧
      ∀ names, a = .note (.asked names) → name ∉ names := by
  rcases lastIs_eval h with ⟨e, hevent, hon⟩ | ⟨hold, hoff⟩
  · cases e with
    | evicted n =>
      obtain rfl : n = name := of_decide_eq_true hon
      exact Or.inl (note_of_event hevent (.evicted n))
    | _ => cases hon
  · refine Or.inr ⟨hold, fun names hact hmem => ?_⟩
    have := hoff (.asked names) (by rw [hact]; rfl)
    exact absurd (List.contains_iff_mem.mpr hmem) (Bool.eq_false_iff.mp this)

/-- A backend is removed by the completion of a removal, and until someone adds it. -/
theorem removedSince_eval {name : String} (h : removedSince name (a.eval s).history = true) :
    a = .note (.removed name) ∨ removedSince name s.history = true ∧
      a ≠ .note (.added name) := by
  rcases lastIs_eval h with ⟨e, hevent, hon⟩ | ⟨hold, hoff⟩
  · cases e with
    | removed n =>
      obtain rfl : n = name := of_decide_eq_true hon
      exact Or.inl (note_of_event hevent (.removed n))
    | _ => cases hon
  · refine Or.inr ⟨hold, fun hact => ?_⟩
    have := hoff (.added name) (by rw [hact]; rfl)
    exact absurd (decide_eq_true rfl) (Bool.eq_false_iff.mp this)

end LastIs

/-! ### What connects a backend -/

/-- What is on the way to connect the backend. -/
def Call.Connects (name : String) : Call → Prop
  | .bounded _ cfg => cfg.name = name
  | .attempt x => x.name = name
  | .connect x => x.name = name
  | .supervised p => p.conn.name = name
  | _ => False

/-- What may connect the backend, or has asked for it. -/
def Call.Requests (name : String) : Call → Prop
  | .requesting names => name ∈ names
  | c => c.Connects name

/-- What may connect the backend, or has its configuration in hand. -/
def Call.Arms (name : String) : Call → Prop
  | .armed names => name ∈ names
  | c => c.Connects name

/-- When an eviction or a removal is completed nothing is left that connects the backend, and no
supervisor is started for a backend that is evicted. -/
structure EndsQuietly (w : World hubSignature) (t : TaskId) (st : Stmt hubSignature) : Prop where
  evicted : ∀ name, st.toAct = .note (.evicted name) → ∀ c, w.doing c → ¬ c.Requests name
  removed : ∀ name, st.toAct = .note (.removed name) → ∀ c, w.doing c → ¬ c.Arms name
  supervised : ∀ p, st = .spawn (.supervised p) →
    evictedSince p.conn.name (Hub.history w.state) = false

theorem Call.Connects.requests {c : Call} {name : String} (h : c.Connects name) :
    c.Requests name := by
  cases c with
  | requesting names => exact h.elim
  | _ => exact h

theorem Call.Connects.arms {c : Call} {name : String} (h : c.Connects name) : c.Arms name := by
  cases c with
  | armed names => exact h.elim
  | _ => exact h

section Statement

variable {w : World hubSignature} {t : TaskId} {st : Stmt hubSignature} {c : Call} {name : String}

/-- Who has a backend in hand has asked for it and has its configuration. -/
theorem InHand.requests_and_arms (h : InHand (w.tasks t).stack name) :
    (∃ c, w.doing c ∧ c.Requests name) ∧ ∃ c, w.doing c ∧ c.Arms name := by
  rcases h with ⟨⟨names, hmem, hr⟩, names', hmem', ha⟩ | ⟨sem, cfg, hname, hb⟩
  · exact ⟨⟨_, ⟨t, hr⟩, hmem⟩, _, ⟨t, ha⟩, hmem'⟩
  · exact ⟨⟨_, ⟨t, hb⟩, hname⟩, _, ⟨t, hb⟩, hname⟩

/-- What connects a backend is entered by someone who has it in hand, or is a new supervisor of a
connection in the table. -/
theorem connects_step (h : disciplined w t st) (hc : st.enters = some c) (hname : c.Connects name) :
    ((∃ c, w.doing c ∧ c.Requests name) ∧ ∃ c, w.doing c ∧ c.Arms name) ∨
      ∃ p, st = .spawn (.supervised p) ∧ p.conn.name = name ∧
        ∃ n, (Hub.connections w.state).get? n = some p.conn ∧
          ((Hub.config w.state).find? n).isSome := by
  have hold : ∀ c', w.doing c' → c'.Connects name →
      (∃ c, w.doing c ∧ c.Requests name) ∧ ∃ c, w.doing c ∧ c.Arms name :=
    fun c' hd hc' => ⟨⟨c', hd, hc'.requests⟩, c', hd, hc'.arms⟩
  cases st with
  | push a c' =>
    obtain rfl := Option.some.inj hc
    cases c' with
    | attempt x =>
      obtain rfl : x.name = name := hname
      exact Or.inl h.2.2.requests_and_arms
    | connect x =>
      rcases h.2 with hd | ⟨p, rfl, hd⟩
      · exact Or.inl (hold _ ⟨t, hd⟩ hname)
      · exact Or.inl (hold _ ⟨t, hd⟩ hname)
    | requesting names => exact hname.elim
    | armed names => exact hname.elim
    | dispatch x n kind => exact hname.elim
    | _ => exact h.elim
  | spawn c' =>
    obtain rfl := Option.some.inj hc
    cases c' with
    | supervised p => exact Or.inr ⟨p, rfl, hname, h⟩
    | bounded sem cfg =>
      obtain rfl : cfg.name = name := hname
      exact Or.inl (InHand.requests_and_arms h)
    | evict n => exact hname.elim
    | closing n => exact hname.elim
    | coordinator => exact hname.elim
    | reaper => exact hname.elim
    | _ => exact h.elim
  | jump c' =>
    obtain rfl := Option.some.inj hc
    cases c' with
    | supervised p => exact Or.inl (hold _ ⟨t, h⟩ hname)
    | parked p => exact hname.elim
    | coordinating => exact hname.elim
    | reaper => exact hname.elim
    | _ => exact h.elim
  | _ => cases hc

/-- Who asks for a backend says so, or has it in hand, or is a new supervisor. -/
theorem requests_step (h : disciplined w t st) (hc : st.enters = some c)
    (hname : c.Requests name) :
    (∃ names, st.toAct = .note (.asked names) ∧ name ∈ names) ∨
      (∃ c, w.doing c ∧ c.Requests name) ∨
        ∃ p, st = .spawn (.supervised p) ∧ p.conn.name = name := by
  have hconnects : c.Connects name → (∃ c, w.doing c ∧ c.Requests name) ∨
      ∃ p, st = .spawn (.supervised p) ∧ p.conn.name = name := fun hconnects =>
    (connects_step h hc hconnects).imp And.left fun ⟨p, hst, hp, _⟩ => ⟨p, hst, hp⟩
  cases c with
  | requesting names =>
    rcases entered h hc with hentry | hspawn | hjump
    · exact Or.inl ⟨names, hentry, hname⟩
    · exact hspawn.elim
    · exact hjump.elim
  | _ => exact Or.inr (hconnects hname)

/-- Who takes the configuration of a backend in hand adds it, or finds it configured, or follows
someone who has it. -/
theorem arms_step (hrefs : RefsValid w.state w.doing) (h : disciplined w t st)
    (hc : st.enters = some c) (hname : c.Arms name) :
    st.toAct = .note (.added name) ∨ (∃ c, w.doing c ∧ c.Arms name) ∨
      st.toAct = .nop ∧ ((Hub.config w.state).find? name).isSome := by
  have hconnects : c.Connects name → (∃ c, w.doing c ∧ c.Arms name) ∨
      st.toAct = .nop ∧ ((Hub.config w.state).find? name).isSome := by
    intro hconnects
    rcases connects_step h hc hconnects with ⟨-, harms⟩ | ⟨p, rfl, hp, n, hget, hconfigured⟩
    · exact Or.inl harms
    · obtain rfl : n = name := (hrefs.key hget).symm.trans hp
      exact Or.inr ⟨rfl, hconfigured⟩
  cases c with
  | armed names =>
    rcases entered h hc with (⟨hact, hall⟩ | ⟨n, rfl, hact⟩) | hspawn | hjump
    · exact Or.inr (Or.inr ⟨hact, hall name hname⟩)
    · obtain rfl : name = n := List.mem_singleton.mp hname
      exact Or.inl hact
    · exact hspawn.elim
    · exact hjump.elim
  | _ => exact Or.inr (hconnects hname)

end Statement

/-! ### The invariant -/

/-- Nothing that could connect it is under way for a backend that should stay down. -/
structure Quiet (s : Hub) (D : Call → Prop) : Prop where
  evicted : ∀ {name c}, evictedSince name s.history = true → D c → ¬ c.Requests name
  removed : ∀ {name c}, removedSince name s.history = true → D c → ¬ c.Arms name
  unconfigured : ∀ {name}, removedSince name s.history = true → s.config.find? name = none
  down : StaysDown s.history

theorem find?_eq_none_iff {config : HubConfig} {name : String} :
    config.find? name = none ↔ ∀ cfg ∈ config.mcpServers, cfg.name ≠ name := by
  simp [HubConfig.find?]

/-- A removed backend is configured again only by someone who has its configuration in hand. -/
theorem find?_eval {w : World hubSignature} {t : TaskId} {st : Stmt hubSignature} {name : String}
    (h : disciplined w t st) (hnone : (Hub.config w.state).find? name = none)
    (harms : ∀ c, w.doing c → ¬ c.Arms name) :
    (st.toAct.eval w.state).config.find? name = none := by
  rw [Act.config_eval, find?_eq_none_iff]
  rw [find?_eq_none_iff] at hnone
  cases hact : st.toAct with
  | setServers servers =>
    rintro cfg hcfg rfl
    have hallowed := allowed_of_plain h (by rw [hact]; trivial)
    rw [hact] at hallowed
    rcases hallowed cfg hcfg with hconfigured | harmed
    · rw [find?_eq_none_iff.mpr hnone] at hconfigured
      cases hconfigured
    · exact harms _ ⟨t, harmed⟩ (List.mem_singleton_self _)
  | _ => exact hnone

/-- What a caller calls has neither asked for anything yet nor anything in hand. -/
theorem not_requests_of_client {c : Call} (h : c.isClient = true) (name : String) :
    ¬ c.Requests name ∧ ¬ c.Arms name := by
  cases c <;> first | exact ⟨id, id⟩ | cases h

/-- A connection becomes CONNECTED at the end of `connect`. -/
theorem connected_event {s : Hub} {a : Act} {name : String} {time : ℚ}
    (hnote : ∀ e, a = .note e → Announced e) (h : a.event? s = some (.connected name time)) :
    ∃ x caps, a = .establish x caps ∧ x.name = name := by
  cases a with
  | establish x caps => exact ⟨x, caps, rfl, (Event.connected.inj (Option.some.inj h)).1⟩
  | note e =>
    obtain rfl := Option.some.inj h
    cases hnote _ rfl
  | connectReturned x =>
    rw [Act.event?] at h
    split at h <;> cases h
  | cacheCapabilities n =>
    rw [Act.event?, Option.map_eq_some_iff] at h
    obtain ⟨x, -, h⟩ := h
    cases h
  | _ => cases h

theorem quietInvariant :
    HubInvariant (fun w t st => EndsQuietly w t st ∧ RefsValid w.state w.doing) Quiet where
  mono h hD := ⟨fun hs hc => h.evicted hs (hD _ hc), fun hs hc => h.removed hs (hD _ hc),
    h.unconfigured, h.down⟩
  act {w t st} h hC hd := by
    obtain ⟨hquiet, hrefs⟩ := hC
    have hevicted : ∀ {name}, evictedSince name (st.toAct.eval w.state).history = true →
        ∀ c, w.doing c → ¬ c.Requests name := by
      intro name hs c hc
      rcases evictedSince_eval hs with hact | ⟨hold, -⟩
      · exact hquiet.evicted name hact c hc
      · exact h.evicted hold hc
    have hremoved : ∀ {name}, removedSince name (st.toAct.eval w.state).history = true →
        ∀ c, w.doing c → ¬ c.Arms name := by
      intro name hs c hc
      rcases removedSince_eval hs with hact | ⟨hold, -⟩
      · exact hquiet.removed name hact c hc
      · exact h.removed hold hc
    have hnone : ∀ {name}, removedSince name (st.toAct.eval w.state).history = true →
        (Hub.config w.state).find? name = none := by
      intro name hs
      rcases removedSince_eval hs with hact | ⟨hold, -⟩
      · rcases acted hd with hnop | hallowed | ⟨c, -, hentry⟩ | ⟨x, n, kind, -, hend⟩
        · cases hact.symm.trans hnop
        · rw [hact] at hallowed
          exact hallowed
        · rw [hact] at hentry
          cases c with
          | requesting names => cases hentry
          | armed names => rcases hentry with ⟨he, -⟩ | ⟨n, -, he⟩ <;> cases he
          | attempt y => cases hentry.1
          | connect y => cases hentry.1
          | dispatch y n kind => cases hentry.1
          | _ => exact hentry.elim
        · cases hact.symm.trans hend
      · exact h.unconfigured hold
    refine ⟨fun {name c} hs hc hname => ?_, fun {name c} hs hc hname => ?_, fun {name} hs => ?_, ?_⟩
    · rcases hc with hc | hc
      · exact hevicted hs c hc hname
      · rcases requests_step hd hc hname with ⟨names, hact, hmem⟩ | ⟨c', hc', hname'⟩ | ⟨p, hst, hp⟩
        · rcases evictedSince_eval hs with hact' | ⟨-, hoff⟩
          · cases hact.symm.trans hact'
          · exact hoff names hact hmem
        · exact hevicted hs c' hc' hname'
        · have hbefore := hquiet.supervised p hst
          rcases evictedSince_eval hs with hact | ⟨hold, -⟩
          · rw [hst] at hact
            cases hact
          · rw [hp, hold] at hbefore
            cases hbefore
    · rcases hc with hc | hc
      · exact hremoved hs c hc hname
      · rcases arms_step hrefs hd hc hname with hact | ⟨c', hc', hname'⟩ | ⟨-, hconfigured⟩
        · rcases removedSince_eval hs with hact' | ⟨-, hoff⟩
          · cases hact.symm.trans hact'
          · exact hoff hact
        · exact hremoved hs c' hc' hname'
        · rw [hnone hs] at hconfigured
          cases hconfigured
    · exact find?_eval hd (hnone hs) (hremoved hs)
    · intro name time past hsuffix
      rcases suffix_history_eval.mp hsuffix with ⟨hevent, rfl⟩ | hsuffix
      · obtain ⟨x, caps, hact, rfl⟩ := connected_event (fun e => announced_of_disciplined hd) hevent
        have hconnecting := connecting_of_establish hd hact
        have hname : (Call.connect x).Connects x.name := rfl
        refine ⟨Bool.eq_false_iff.mpr fun hs => ?_, Bool.eq_false_iff.mpr fun hs => ?_⟩
        · exact h.evicted hs hconnecting hname.requests
        · exact h.removed hs hconnecting hname.arms
      · exact h.down name time past hsuffix
  call {s D c} hc h := by
    refine ⟨fun hs hd => ?_, fun hs hd => ?_, h.unconfigured, h.down⟩
    · rcases hd with hd | rfl
      · exact h.evicted hs hd
      · exact (not_requests_of_client hc _).1
    · rcases hd with hd | rfl
      · exact h.removed hs hd
      · exact (not_requests_of_client hc _).2
  clock _ h := ⟨h.evicted, h.removed, h.unconfigured, h.down⟩
  notifier h := ⟨h.evicted, h.removed, h.unconfigured, h.down⟩

theorem quiet_start (config : HubConfig) : Quiet (Hub.start config) fun _ => False where
  evicted h := nomatch h
  removed h := nomatch h
  unconfigured h := nomatch h
  down _ _ _ hsuffix := nomatch List.eq_nil_of_suffix_nil hsuffix

/-- **When backends stay down.** In every run in which evictions and removals end with nothing under
way that connects the backend, and no supervisor is started for an evicted one, no backend becomes
CONNECTED between its eviction and the next request for it, nor between its removal and its next
addition. -/
theorem staysDown_of_reach {config : HubConfig} {cf : Config hubSignature}
    (h : Reach hub EndsQuietly (Hub.start config) cf) :
    StaysDown (Hub.history cf.world.state) :=
  (quietInvariant.reach (quiet_start config)
    (refsInvariant.reach_and (refsValid_start config) h)).down

/-! ### A backend that comes back, and one that is asked to -/

/-- `connect_all` fails, a supervisor connects the backend, and an eviction makes it reconnect. -/
def revivalMoves : List (Move hubSignature) :=
  [.call .connectAll, .resume 0 .ok, .resume 1 .ok, .resume 1 .ok,
    .resume 1 (.raised (.other "OSError" "refused" .transient)), .resume 0 .ok, .resume 2 .ok,
    .resume 4 .ok, .resume 4 (.connected toolT), .call (.evict "a"), .resume 5 .ok, .resume 5 .ok,
    .resume 4 .ok, .resume 4 (.connected toolT)]

/-- The backend has just become CONNECTED, evicted as it was. -/
def revived (s : Hub) : Bool :=
  match s.history with
  | .connected name _ :: past => evictedSince name past
  | _ => false

theorem not_staysDown_of_revived {s : Hub} (h : revived s = true) : ¬ StaysDown s.history := by
  intro hdown
  rw [revived] at h
  split at h
  · next name time past hhistory =>
    have hbefore := (hdown name time past (hhistory ▸ List.suffix_refl _)).1
    rw [h] at hbefore
    cases hbefore
  · cases h

/-- The supervisor reconnects the evicted backend, and nobody has asked for it. -/
theorem not_staysDown_supervised : ∃ cf, Reach hub anyStep
    (Hub.start { mcpServers := [{ name := "a" }] }) cf ∧ revived cf.world.state = true ∧
      ¬ StaysDown (Hub.history cf.world.state) := by
  obtain ⟨cf, hreach, h⟩ := exists_reach (C := anyStep) (P := revived) (fun _ _ _ => true)
    { mcpServers := [{ name := "a" }] } revivalMoves (fun _ _ => trivial) (by decide +kernel)
  exact ⟨cf, hreach, h, not_staysDown_of_revived h⟩

/-- Evictions end with nothing under way, and nothing is removed or supervised. -/
def endsQuietly (w : World hubSignature) (_ : TaskId) : Stmt hubSignature → Bool
  | .act (.note (.evicted name)) => w.inProgress.all fun
    | .requesting names => !names.contains name
    | .bounded _ cfg => cfg.name ≠ name
    | .attempt x => x.name ≠ name
    | .connect x => x.name ≠ name
    | .supervised p => p.conn.name ≠ name
    | _ => true
  | .act (.note (.removed _)) => false
  | .spawn (.supervised _) => false
  | .push (.note (.evicted _)) _ => false
  | .push (.note (.removed _)) _ => false
  | .pop (.note (.evicted _)) => false
  | .pop (.note (.removed _)) => false
  | _ => true

theorem endsQuietly_spec {w : World hubSignature} {t : TaskId} {st : Stmt hubSignature}
    (hlist : ∀ c, w.doing c → c ∈ w.inProgress) (h : endsQuietly w t st = true) :
    EndsQuietly w t st := by
  refine ⟨fun name hact c hc hname => ?_, fun name hact => ?_, fun p hst => ?_⟩
  · have hall : endsQuietly w t (.act (.note (.evicted name))) = true := by
      cases st with
      | act a => exact (show a = _ from hact) ▸ h
      | push a c' => rw [show a = _ from hact] at h; cases h
      | pop a => rw [show a = _ from hact] at h; cases h
      | _ => cases hact
    have hok := List.all_eq_true.mp hall c (hlist c hc)
    cases c with
    | requesting names =>
      have hmem : name ∈ names := hname
      simp [hmem] at hok
    | bounded sem cfg => exact of_decide_eq_true hok hname
    | attempt x => exact of_decide_eq_true hok hname
    | connect x => exact of_decide_eq_true hok hname
    | supervised p => exact of_decide_eq_true hok hname
    | _ => exact hname
  · cases st with
    | act a => rw [show a = _ from hact] at h; cases h
    | push a c => rw [show a = _ from hact] at h; cases h
    | pop a => rw [show a = _ from hact] at h; cases h
    | _ => cases hact
  · rw [hst] at h
    cases h

/-- The backend has been evicted, and has become CONNECTED twice. -/
def cameBack (s : Hub) : Bool :=
  s.history.any (Event.evicts "a") && (s.history.filter fun
    | .connected _ _ => true
    | _ => false).length = 2

/-- A caller connects the backend again. -/
theorem staysDown_of_reach_comeback : ∃ cf, Reach hub EndsQuietly (Hub.start lazyConfig) cf ∧
    cameBack cf.world.state = true ∧ StaysDown (Hub.history cf.world.state) := by
  obtain ⟨cf, hreach, h⟩ := exists_reach (P := cameBack) endsQuietly lazyConfig comebackMoves
    endsQuietly_spec (by decide +kernel)
  exact ⟨cf, hreach, h, staysDown_of_reach hreach⟩

end SlmMcpHub
