import SlmMcpHub.Federation.ConnectionTasks

/-!
# The transports of a connection

Connects, disconnects, drains and requests of one connection, in any order and with any outcome. A
transport belongs to the connect that discovers its capabilities, then to the connection, which
refers to its client, and then to the disconnect that closes it.

The check of `connect` looks at CONNECTED alone. A connect that passes it while another one is in
flight, or while a transport is still open, opens a second transport, and the one of the two clients
that is stored first is forgotten. So is a client whose connect is cancelled during its discovery.

## Main definitions

* `Owned` — the invariant: who each transport belongs to
* `Careful` — no connect passes its check at a wrong time, and none is cancelled in its discovery

## Main results

* `settled_direct` — the operations keep the invariant from wait to wait, in runs that are careful
* `transports_of_reach` — in such runs at most one transport is open, and none when the connection
  is DISCONNECTED and nothing is in flight
-/

namespace SlmMcpHub

namespace ConnectionTasks

/-- The operations of the connection, without the loop of its supervisor. -/
def isDirect : Call → Bool
  | .connect | .disconnect | .drainAndDisconnect | .request => true
  | _ => false

/-! ### Who a transport belongs to -/

/-- The sections that speak of a client. -/
def Call.ofClient : Call → Bool
  | .connecting _ | .discovering _ | .closing _ => true
  | _ => false

/-- The connection has a client with an open transport. -/
structure Serving (s : Connection) (c : ℕ) : Prop where
  stored : s.outbound = some c
  holding : s.exitStacks c = .holding
  state : s.state = .connected ∨ s.state = .draining

/-- At most one transport is open, and it belongs to somebody: to the connect that opened it, to the
disconnect that closes it, or to the connection. -/
structure Owned (s : Connection) (f : TaskId → List Call) : Prop where
  single : s.transports.length ≤ 1
  alone : ∀ {t u c d}, .connecting c ∈ f t → .connecting d ∈ f u → t = u
  fresh : ∀ {t c}, .connecting c ∈ f t → c < s.nextClient ∧ s.outbound ≠ some c
  opening : ∀ {t c}, .connecting c ∈ f t → (∀ d, .discovering d ∉ f t) → s.transports = []
  discovering : ∀ {t c}, .discovering c ∈ f t →
    .connecting c ∈ f t ∧ s.transports = [c] ∧ s.exitStacks c = .holding
  closer : ∀ {t u c d}, .closing c ∈ f t → .closing d ∈ f u → t = u
  closing : ∀ {t c}, .closing c ∈ f t → s.transports = [c] ∧ s.exitStacks c ≠ .holding
  root : ∀ {t c}, .closing c ∈ f t → ∃ d ∈ f t, isDirect d = true
  stored : ∀ {c}, s.outbound = some c →
    c < s.nextClient ∧ (s.exitStacks c = .holding → s.transports = [c])
  owner : ∀ {c}, c ∈ s.transports →
    (∃ t, .discovering c ∈ f t) ∨ (∃ t, .closing c ∈ f t) ∨ Serving s c

/-- A new connection has no transport. -/
theorem owned_new (name : String) : Owned { name := name } fun _ => [] where
  single := Nat.zero_le _
  alone := nofun
  fresh := nofun
  opening := nofun
  discovering := nofun
  closer := nofun
  closing := nofun
  root := nofun
  stored := nofun
  owner := nofun

/-- The client of the connection holds no transport. -/
def Released (s : Connection) : Prop := ∀ c, s.outbound = some c → s.exitStacks c ≠ .holding

/-- The acts that have nothing to do with clients. -/
def Act.quiet : Act → Bool
  | .makeDrainLock | .take | .release | .armDrain | .beginRequest | .endRequest | .nop => true
  | _ => false

/-- The stack of an operation outside the sections that speak of a client. -/
structure Plain (st : List Call) : Prop where
  unmarked : ∀ c ∈ st, c.ofClient = false
  root : ∃ d ∈ st, isDirect d = true

theorem ofClient_of_isDirect {c : Call} (h : isDirect c = true) : c.ofClient = false := by
  cases c <;> first | rfl | cases h

theorem plain_singleton {c : Call} (h : isDirect c = true) : Plain [c] where
  unmarked d hd := by rw [List.mem_singleton.mp hd, ofClient_of_isDirect h]
  root := ⟨c, List.mem_singleton_self c, h⟩

theorem Plain.cons {st : List Call} (hst : Plain st) {c : Call} (hc : c.ofClient = false) :
    Plain (c :: st) := by
  refine ⟨fun d hd => ?_, hst.root.imp fun d hd => ⟨List.mem_cons_of_mem _ hd.1, hd.2⟩⟩
  rcases List.mem_cons.mp hd with rfl | hd
  · exact hc
  · exact hst.unmarked d hd

/-- The stacks of a connect: with its client, and with its transport. -/
abbrev begun (c : ℕ) : List Call := [.connecting c, .connect]

abbrev probing (c : ℕ) : List Call := .discovering c :: begun c

namespace Owned

variable {s : Connection} {f : TaskId → List Call} {t : TaskId} {c : ℕ} {st : List Call}

/-- The invariant is about the sections that speak of a client. -/
theorem restack (h : Owned s f) (hst : ∀ c : Call, c.ofClient = true → (c ∈ st ↔ c ∈ f t))
    (hroot : ∀ {c}, .closing c ∈ f t → ∀ d ∈ f t, isDirect d = true → d ∈ st) :
    Owned s (Function.update f t st) := by
  have hmem : ∀ {u} {c : Call}, c.ofClient = true → (c ∈ Function.update f t st u ↔ c ∈ f u) :=
    fun hc => mem_update_of_iff (hst _ hc)
  refine ⟨h.single, fun ht hu => ?_, fun hc => h.fresh ((hmem rfl).mp hc), fun hc hd => ?_,
    fun hc => ?_, fun ht hu => ?_, fun hc => h.closing ((hmem rfl).mp hc), fun {u c} hc => ?_,
    h.stored, fun hc => ?_⟩
  · exact h.alone ((hmem rfl).mp ht) ((hmem rfl).mp hu)
  · exact h.opening ((hmem rfl).mp hc) fun d hd' => hd d ((hmem rfl).mpr hd')
  · exact (h.discovering ((hmem rfl).mp hc)).imp_left (hmem rfl).mpr
  · exact h.closer ((hmem rfl).mp ht) ((hmem rfl).mp hu)
  · have hclosing := (hmem rfl).mp hc
    obtain ⟨d, hd, hdirect⟩ := h.root hclosing
    rcases eq_or_ne u t with rfl | hne
    · rw [Function.update_self]
      exact ⟨d, hroot hclosing d hd hdirect, hdirect⟩
    · rw [Function.update_of_ne hne]
      exact ⟨d, hd, hdirect⟩
  · exact (h.owner hc).imp (fun ⟨u, hu⟩ => ⟨u, (hmem rfl).mpr hu⟩)
      (Or.imp_left fun ⟨u, hu⟩ => ⟨u, (hmem rfl).mpr hu⟩)

theorem quiet (h : Owned s f) {a : Act} (ha : a.quiet = true) : Owned (a.eval s) f := by
  cases a with
  | makeDrainLock | take | release | armDrain | beginRequest | endRequest | nop =>
    exact ⟨h.single, h.alone, h.fresh, h.opening, h.discovering, h.closer, h.closing, h.root,
      h.stored, fun hc => (h.owner hc).imp_right
        (Or.imp_right fun hs => ⟨hs.stored, hs.holding, hs.state⟩)⟩
  | _ => cases ha

/-- The state changes while the connection does not serve, or so that it goes on. -/
theorem transition (h : Owned s f) {target : ConnectionState}
    (htarget : target = .draining ∨ Released s) : Owned (s.transition target) f := by
  refine ⟨h.single, h.alone, h.fresh, h.opening, h.discovering, h.closer, h.closing, h.root,
      h.stored,
    fun hc => (h.owner hc).imp_right (Or.imp_right fun hserving => ?_)⟩
  rcases htarget with rfl | hreleased
  · exact ⟨hserving.stored, hserving.holding, Or.inr rfl⟩
  · exact absurd hserving.holding (hreleased _ hserving.stored)

/-- While a connect waits for its transport, none is open. -/
theorem transports_of_begun (h : Owned s f) (ht : f t = begun c) : s.transports = [] :=
  h.opening (t := t) (c := c) (by simp [ht]) (by simp [ht])

theorem released_of_nil (h : Owned s f) (hnil : s.transports = []) : Released s := by
  intro d hout hheld
  have hone := (h.stored hout).2 hheld
  rw [hnil] at hone
  cases hone

/-- Without a transport nobody discovers and nobody closes. -/
theorem not_mem_of_nil (h : Owned s f) (hnil : s.transports = []) (u : TaskId) (d : ℕ) :
    .discovering d ∉ f u ∧ .closing d ∉ f u := by
  refine ⟨fun hu => ?_, fun hu => ?_⟩
  · have hone := (h.discovering hu).2.1
    rw [hnil] at hone
    cases hone
  · have hone := (h.closing hu).1
    rw [hnil] at hone
    cases hone

/-- A connect passes its check. -/
theorem beginConnect (h : Owned s f) (hnil : s.transports = [])
    (hnone : ∀ u c, u ≠ t → .connecting c ∉ f u) :
    Owned (Act.eval s .beginConnect) (Function.update f t (begun s.nextClient)) := by
  have hconnecting : ∀ {u d}, .connecting d ∈ Function.update f t (begun s.nextClient) u →
      u = t ∧ d = s.nextClient := fun hd => by
    rcases mem_update_iff.mp hd with ⟨rfl, hmem⟩ | ⟨hne, hmem⟩
    · exact ⟨rfl, by simpa using hmem⟩
    · exact absurd hmem (hnone _ _ hne)
  have hidle : ∀ {u d}, .discovering d ∉ Function.update f t (begun s.nextClient) u ∧
      .closing d ∉ Function.update f t (begun s.nextClient) u := fun {u d} => by
    obtain ⟨hdiscovering, hclosing⟩ := h.not_mem_of_nil hnil u d
    exact ⟨fun hd => by simpa [hdiscovering] using mem_update_iff.mp hd,
      fun hd => by simpa [hclosing] using mem_update_iff.mp hd⟩
  refine ⟨h.single, fun ht hu => (hconnecting ht).1.trans (hconnecting hu).1.symm, fun hd => ?_,
    fun _ _ => hnil, fun hd => absurd hd hidle.1, fun hd => absurd hd hidle.2,
    fun hd => absurd hd hidle.2, fun hd => absurd hd hidle.2, fun hout => ?_, fun hd => ?_⟩
  · obtain ⟨-, rfl⟩ := hconnecting hd
    exact ⟨Nat.lt_succ_self _, fun hout => absurd (h.stored hout).1 (Nat.lt_irrefl _)⟩
  · exact (h.stored hout).imp_left Nat.lt_succ_of_lt
  · rw [show (Act.eval s .beginConnect).transports = [] from hnil] at hd
    cases hd

/-- Its transport is open. -/
theorem opened (h : Owned s f) (ht : f t = begun c) :
    Owned (Act.eval s (.opened c)) (Function.update f t (probing c)) := by
  have hnil := h.transports_of_begun ht
  have hopen : (Act.eval s (.opened c)).transports = [c] := congrArg (c :: ·) hnil
  have hconnecting : ∀ {u d}, Call.connecting d ∈ Function.update f t (probing c) u ↔
      .connecting d ∈ f u := mem_update_of_iff (by simp [ht])
  have hmine : Call.connecting c ∈ f t := by simp [ht]
  have hclosing : ∀ {u d}, Call.closing d ∉ Function.update f t (probing c) u := fun {u d} hd =>
    (h.not_mem_of_nil hnil u d).2 ((mem_update_of_iff (by simp [ht])).mp hd)
  refine ⟨by rw [hopen]; exact Nat.le_refl _,
    fun hu hv => h.alone (hconnecting.mp hu) (hconnecting.mp hv),
    fun hd => h.fresh (hconnecting.mp hd), fun hd hnone => ?_, fun {u d} hd => ?_,
    fun hd => absurd hd hclosing, fun hd => absurd hd hclosing, fun hd => absurd hd hclosing,
    fun {d} hout => ?_, fun {d} hd => ?_⟩
  · obtain rfl := h.alone (hconnecting.mp hd) hmine
    exact absurd (by simp) (hnone c)
  · rcases mem_update_iff.mp hd with ⟨rfl, hmem⟩ | ⟨-, hmem⟩
    · obtain rfl : d = c := by simpa using hmem
      exact ⟨by simp, hopen, Function.update_self _ _ _⟩
    · exact absurd hmem (h.not_mem_of_nil hnil u d).1
  · obtain ⟨hlt, hheld⟩ := h.stored hout
    have hne : d ≠ c := fun heq => (h.fresh hmine).2 (heq ▸ hout)
    refine ⟨hlt, fun hholding => ?_⟩
    have hone := hheld ((Function.update_of_ne hne _ _).symm.trans hholding)
    rw [hnil] at hone
    cases hone
  · rw [hopen, List.mem_singleton] at hd
    rw [hd]
    exact Or.inl ⟨t, by simp⟩

/-- Its client is stored. -/
theorem establish (h : Owned s (Function.update f t (probing c))) :
    Owned (Act.eval s (.establish c)) (Function.update f t [.connect]) := by
  have hmine : Call.connecting c ∈ Function.update f t (probing c) t := by simp
  obtain ⟨-, hopen, hholding⟩ := h.discovering (t := t) (c := c) (by simp)
  have hother : ∀ {u} {d : Call}, d.ofClient = true → d ∈ Function.update f t [.connect] u →
      u ≠ t ∧ d ∈ Function.update f t (probing c) u := fun {u d} hd hmem => by
    rcases mem_update_iff.mp hmem with ⟨-, hmem⟩ | ⟨hne, hmem⟩
    · rw [List.mem_singleton.mp hmem] at hd
      cases hd
    · exact ⟨hne, mem_update_iff.mpr (Or.inr ⟨hne, hmem⟩)⟩
  have hconnecting : ∀ {u d}, Call.connecting d ∉ Function.update f t [.connect] u := fun hd => by
    obtain ⟨hne, hmem⟩ := hother rfl hd
    exact hne (h.alone hmem hmine)
  have hdiscovering : ∀ {u d}, Call.discovering d ∉ Function.update f t [.connect] u :=
    fun hd => by
    obtain ⟨hne, hmem⟩ := hother rfl hd
    exact hne (h.alone (h.discovering hmem).1 hmine)
  have hclosing : ∀ {u d}, Call.closing d ∉ Function.update f t [.connect] u := fun hd => by
    obtain ⟨htransports, hheld⟩ := h.closing (hother rfl hd).2
    obtain ⟨rfl, -⟩ := List.cons.inj (hopen.symm.trans htransports)
    exact hheld hholding
  refine ⟨h.single, fun hd => absurd hd hconnecting, fun hd => absurd hd hconnecting,
    fun hd => absurd hd hconnecting, fun hd => absurd hd hdiscovering,
    fun hd => absurd hd hclosing, fun hd => absurd hd hclosing, fun hd => absurd hd hclosing,
    fun {d} hout => ?_, fun {d} hd => ?_⟩
  · cases hout
    exact ⟨(h.fresh hmine).1, fun _ => hopen⟩
  · rw [show (Act.eval s (.establish c)).transports = [c] from hopen, List.mem_singleton] at hd
    rw [hd]
    exact Or.inr (Or.inr ⟨rfl, hholding, Or.inl rfl⟩)

/-- A connect ends without a transport. -/
theorem failed (h : Owned s f) (ht : f t = .connecting c :: st)
    (hst : ∀ d ∈ st, d.ofClient = false) : Owned s (Function.update f t st) := by
  have hmine : Call.connecting c ∈ f t := by simp [ht]
  have hother : ∀ {u} {d : Call}, d.ofClient = true → d ∈ Function.update f t st u →
      u ≠ t ∧ d ∈ f u := fun {u d} hd hmem => by
    rcases mem_update_iff.mp hmem with ⟨-, hmem⟩ | hmem
    · rw [hst _ hmem] at hd
      cases hd
    · exact hmem
  have hnil : s.transports = [] := h.opening hmine fun d hd => by
    rw [ht] at hd
    cases hst _ ((List.mem_cons.mp hd).resolve_left nofun)
  have hconnecting : ∀ {u d}, Call.connecting d ∉ Function.update f t st u := fun hd => by
    obtain ⟨hne, hmem⟩ := hother rfl hd
    exact hne (h.alone hmem hmine)
  have hdiscovering : ∀ {u d}, Call.discovering d ∉ Function.update f t st u := fun hd =>
    (h.not_mem_of_nil hnil _ _).1 (hother rfl hd).2
  have hclosing : ∀ {u d}, Call.closing d ∉ Function.update f t st u := fun hd =>
    (h.not_mem_of_nil hnil _ _).2 (hother rfl hd).2
  refine ⟨h.single, fun hd => absurd hd hconnecting, fun hd => absurd hd hconnecting,
    fun hd => absurd hd hconnecting, fun hd => absurd hd hdiscovering,
    fun hd => absurd hd hclosing, fun hd => absurd hd hclosing, fun hd => absurd hd hclosing,
    h.stored, fun hd => ?_⟩
  rw [hnil] at hd
  cases hd

/-- A disconnect takes the transport of the connection. -/
theorem popExit (h : Owned s f) (ht : f t = st) (hst : Plain st) (hout : s.outbound = some c)
    (hheld : s.exitStacks c = .holding) :
    Owned (Act.eval s (.popExit c)) (Function.update f t (.closing c :: st)) := by
  have hopen := (h.stored hout).2 hheld
  have hconnecting : ∀ {u d}, Call.connecting d ∈ Function.update f t (.closing c :: st) u ↔
      .connecting d ∈ f u := mem_update_of_iff (by simp [ht])
  have hdiscovering : ∀ {u d}, Call.discovering d ∈ Function.update f t (.closing c :: st) u ↔
      .discovering d ∈ f u := mem_update_of_iff (by simp [ht])
  have hclosing : ∀ {u d}, Call.closing d ∈ Function.update f t (.closing c :: st) u →
      u = t ∧ d = c := fun {u d} hd => by
    rcases mem_update_iff.mp hd with ⟨rfl, hmem⟩ | ⟨-, hmem⟩
    · rcases List.mem_cons.mp hmem with heq | hmem
      · cases heq
        exact ⟨rfl, rfl⟩
      · cases hst.unmarked _ hmem
    · obtain ⟨htransports, hreleased⟩ := h.closing hmem
      obtain ⟨rfl, -⟩ := List.cons.inj (hopen.symm.trans htransports)
      exact absurd hheld hreleased
  refine ⟨h.single, fun hu hv => h.alone (hconnecting.mp hu) (hconnecting.mp hv),
    fun hd => h.fresh (hconnecting.mp hd),
    fun hd hnone => h.opening (hconnecting.mp hd) fun e he => hnone e (hdiscovering.mpr he),
    fun hd => ?_, fun hu hv => (hclosing hu).1.trans (hclosing hv).1.symm, fun hd => ?_,
    fun {u d} hd => ?_, fun hout' => ?_, fun {d} hd => ?_⟩
  · obtain ⟨hmem, htransports, -⟩ := h.discovering (hdiscovering.mp hd)
    obtain ⟨rfl, -⟩ := List.cons.inj (hopen.symm.trans htransports)
    exact absurd hout (h.fresh hmem).2
  · obtain ⟨-, rfl⟩ := hclosing hd
    exact ⟨hopen, fun hholding => by cases (Function.update_self _ _ _).symm.trans hholding⟩
  · obtain ⟨rfl, -⟩ := hclosing hd
    obtain ⟨e, he, hdirect⟩ := hst.root
    exact ⟨e, by simp [he], hdirect⟩
  · obtain rfl := Option.some.inj (hout.symm.trans hout')
    exact ⟨(h.stored hout).1, fun hholding => by
      cases (Function.update_self _ _ _).symm.trans hholding⟩
  · rw [show (Act.eval s (.popExit c)).transports = [c] from hopen, List.mem_singleton] at hd
    rw [hd]
    exact Or.inr (Or.inl ⟨t, by simp⟩)

/-- It has closed it. -/
theorem closed (h : Owned s f) (ht : f t = .closing c :: st) (hst : Plain st) :
    Owned (Act.eval s (.closed c)) (Function.update f t st) ∧
      (Act.eval s (.closed c)).transports = [] := by
  have hmine : Call.closing c ∈ f t := by simp [ht]
  obtain ⟨hopen, hreleased⟩ := h.closing hmine
  have hnil : (Act.eval s (.closed c)).transports = [] := by
    show s.transports.erase c = []
    rw [hopen]
    simp
  have hother : ∀ {u} {d : Call}, d.ofClient = true → d ∈ Function.update f t st u →
      u ≠ t ∧ d ∈ f u := fun {u d} hd hmem => by
    rcases mem_update_iff.mp hmem with ⟨-, hmem⟩ | hmem
    · rw [hst.unmarked _ hmem] at hd
      cases hd
    · exact hmem
  have hdiscovering : ∀ {u d}, Call.discovering d ∉ Function.update f t st u := fun hd => by
    obtain ⟨-, htransports, hholding⟩ := h.discovering (hother rfl hd).2
    obtain ⟨rfl, -⟩ := List.cons.inj (hopen.symm.trans htransports)
    exact hreleased hholding
  have hclosing : ∀ {u d}, Call.closing d ∉ Function.update f t st u := fun hd => by
    obtain ⟨hne, hmem⟩ := hother rfl hd
    exact hne (h.closer hmem hmine)
  refine ⟨⟨by rw [hnil]; exact Nat.zero_le _,
    fun hu hv => h.alone (hother rfl hu).2 (hother rfl hv).2, fun hd => h.fresh (hother rfl hd).2,
    fun _ _ => hnil, fun hd => absurd hd hdiscovering, fun hd => absurd hd hclosing,
    fun hd => absurd hd hclosing, fun hd => absurd hd hclosing, fun hout => ?_, fun hd => ?_⟩, hnil⟩
  · obtain ⟨hlt, hheld⟩ := h.stored hout
    refine ⟨hlt, fun hholding => ?_⟩
    obtain ⟨rfl, -⟩ := List.cons.inj (hopen.symm.trans (hheld hholding))
    exact absurd hholding hreleased
  · rw [hnil] at hd
    cases hd

theorem dropStack (h : Owned s f) (hc : s.exitStacks c ≠ .holding) :
    Owned (Act.eval s (.dropStack c)) f := by
  have hsame : ∀ {d}, s.exitStacks d = .holding →
      Function.update s.exitStacks c .unset d = .holding := fun {d} hholding =>
    (Function.update_of_ne (fun heq : d = c => hc (heq ▸ hholding)) _ _).trans hholding
  have hheld : ∀ {d}, Function.update s.exitStacks c .unset d = .holding →
      s.exitStacks d = .holding := fun {d} hholding => by
    rcases eq_or_ne d c with rfl | hne
    · rw [Function.update_self] at hholding
      cases hholding
    · rwa [Function.update_of_ne hne] at hholding
  refine ⟨h.single, h.alone, h.fresh, h.opening,
    fun hd => (h.discovering hd).imp_right (And.imp_right hsame), h.closer,
    fun hd => (h.closing hd).imp_right (mt hheld), h.root,
    fun hout => (h.stored hout).imp_right fun hone hholding => hone (hheld hholding),
    fun hd => (h.owner hd).imp_right (Or.imp_right fun hs => ?_)⟩
  exact ⟨hs.stored, hsame hs.holding, hs.state⟩

/-- The connection forgets a client without a transport. -/
theorem dropOutbound (h : Owned s f) (hreleased : Released s) :
    Owned (Act.eval s .dropOutbound) f := by
  refine ⟨h.single, h.alone, fun hc => ⟨(h.fresh hc).1, nofun⟩, h.opening, h.discovering, h.closer,
    h.closing, h.root, nofun, fun hc => (h.owner hc).imp_right (Or.imp_right fun hserving => ?_)⟩
  exact absurd hserving.holding (hreleased _ hserving.stored)

/-- A task is done. -/
theorem finish (h : Owned s f) {root : Call} (ht : f t = [root]) :
    Owned s (Function.update f t []) := by
  have hplain : root.ofClient = false → Owned s (Function.update f t []) := fun hroot => by
    have hidle : ∀ d : Call, d.ofClient = true → d ∉ f t := fun d hd hmem => by
      rw [ht] at hmem
      rw [List.mem_singleton.mp hmem, hroot] at hd
      cases hd
    exact h.restack (fun d hd => iff_of_false List.not_mem_nil (hidle d hd))
      fun hd => absurd hd (hidle _ rfl)
  cases root with
  | connecting c => exact h.failed ht (by simp)
  | discovering c =>
    have hmem := (h.discovering (t := t) (c := c) (by simp [ht])).1
    rw [ht] at hmem
    cases List.mem_singleton.mp hmem
  | closing c =>
    obtain ⟨d, hd, hdirect⟩ := h.root (t := t) (c := c) (by simp [ht])
    rw [ht] at hd
    rw [List.mem_singleton.mp hd] at hdirect
    cases hdirect
  | _ => exact hplain rfl

end Owned

/-! ### The operations -/

/-- No connect passes its check while another one is in flight or a transport is open, and none is
cancelled while it discovers the capabilities. -/
def Careful (w : World connectionSignature) (t : TaskId) : Stmt connectionSignature → Prop
  | .push .beginConnect _ =>
    Connection.transports w.state = [] ∧ ∀ u c, u ≠ t → .connecting c ∉ w.frames u
  | .act (.abandon _) => False
  | _ => True

/-- A transport is opened only while none is open. -/
def opensAlone (w : World connectionSignature) (_ : TaskId) : Stmt connectionSignature → Prop
  | .push (.opened _) _ => Connection.transports w.state = []
  | .act (.opened _) | .pop (.opened _) => False
  | _ => True

section Contracts

/-- A task is at rest with a stack. -/
abbrev Rests (st : List Call) (t : TaskId) (w : World connectionSignature) : Prop :=
  Op.Calm Owned st t w

/-- The contract of an operation run with the stack `st`. -/
abbrev Holds {α : Type} (st : List Call) (p : ConnOp α) : Prop :=
  Op.Settles (connection isDirect) Careful opensAlone Owned st p

/-- What an operation needs of a world to end in a postcondition. -/
abbrev Leads {α : Type} (t : TaskId) (p : ConnOp α)
    (Q : Except Exc α → World connectionSignature → Prop) (w : World connectionSignature) : Prop :=
  Op.settles (connection isDirect) Careful opensAlone Owned t p Q w

variable {α : Type} {st : List Call} {t : TaskId} {w : World connectionSignature} {c : ℕ}

theorem holds_wait (wt : Wait) : Holds st (wait wt) := Op.Settles.await fun _ _ _ hw => hw

theorem holds_quiet {a : Act} (ha : a.quiet = true) : Holds st (act a) := by
  intro t w hw _
  refine ⟨?_, hw.act (hw.inv.quiet ha)⟩
  cases a with
  | opened c => cases ha
  | _ => trivial

/-- A section that has nothing to do with clients. -/
theorem holds_inside {enter leave : Act} {c : Call} {p : ConnOp α} (hc : c.ofClient = false)
    (hdirect : isDirect c = false) (henter : enter.quiet = true) (hleave : leave.quiet = true)
    (hp : Holds (c :: st) p) :
    Holds st (inside enter c leave p) := by
  intro t w hw
  have hmem : ∀ d : Call, d.ofClient = true → (d ∈ c :: st ↔ d ∈ st) := fun d hd => by
    rw [List.mem_cons, or_iff_right]
    rintro rfl
    rw [hc] at hd
    cases hd
  refine hw.within ?_ (fun w' => ?_) ((hw.inv.quiet henter).restack (fun d hd => ?_)
    fun _ d hd _ => ?_) (fun s f hf h => (h.quiet hleave).restack (fun d hd => ?_)
      fun _ d hd hd' => ?_) hp
  · cases enter with
    | opened c => cases henter
    | _ => trivial
  · cases leave with
    | opened c => cases hleave
    | _ => trivial
  · rw [hmem d hd, hw.frames]
  · rw [hw.frames] at hd
    exact List.mem_cons_of_mem _ hd
  · rw [hf, hmem d hd]
  · rw [hf, List.mem_cons] at hd
    refine hd.resolve_left fun heq => ?_
    rw [heq, hdirect] at hd'
    cases hd'

/-! ### Connects -/

/-- How the attempt of a connect has ended: with its transport open, or with none. -/
def Attempted (c : ℕ) (t : TaskId) : Except Exc Unit → World connectionSignature → Prop
  | .ok (), w => t < w.next ∧ w.frames t = begun c ∧
    Owned w.state (Function.update w.frames t (probing c))
  | .error _, w => Rests (begun c) t w

theorem leads_connectOr {failed : Exc → ConnOp Unit}
    (hfailed : ∀ e w, Rests (begun c) t w → Leads t (failed e) (Attempted c t) w)
    (hw : Rests (begun c) t w) : Leads t (OutboundClient.connectOr c failed) (Attempted c t) w := by
  refine Op.settles_bind.mpr (Coro.settles_bind.mpr (hw.await fun r w' hw' _ => ?_))
  have hrest := hw'.resumed
  cases r with
  | ok u =>
    refine Op.settles_within fun _ => ⟨hrest.inv.transports_of_begun hrest.frames, ?_⟩
    have hprobing : Rests (probing c) t ((w'.resumed t).exec (connection isDirect) t
        (.push (.opened c) (.discovering c))) :=
      hrest.push (hrest.inv.opened hrest.frames)
    -- The transport is still that of the connect when the section of the discovery ends.
    have hdone : ∀ {w}, Rests (probing c) t w → ∀ a,
        Careful w t (.pop .nop) → opensAlone w t (.pop .nop) ∧
          Attempted c t (.ok a) (w.exec (connection isDirect) t (.pop .nop)) := by
      intro w hw a _
      have hframes : (w.exec (connection isDirect) t (.pop .nop)).frames =
          Function.update w.frames t (begun c) := by
        rw [World.frames_pop, hw.frames, List.tail_cons]
      refine ⟨trivial, hw.born, by rw [hframes, Function.update_self], ?_⟩
      rw [hframes, Function.update_idem, ← hw.frames, Function.update_eq_self]
      exact hw.inv
    refine Op.settles_tryCatch.mpr (hprobing.await fun r w'' hw'' _ => ?_)
    cases r with
    | ok u => exact hdone hw''.resumed u
    | error e =>
      show Op.settles _ _ _ _ t (do if e.isException then pure () else do act (.abandon c); throw e)
        _ _
      split_ifs
      · exact hdone hw''.resumed ()
      · exact Op.settles_bind.mpr fun habandon => habandon.elim
  | error e =>
    have hother : Leads t (if e.isException then failed e else throw e) (Attempted c t)
        (w'.resumed t) := by
      split_ifs
      · exact hfailed e _ hrest
      · exact hrest
    cases e with
    | authRequired => exact hrest
    | _ => exact hother

theorem leads_outboundConnect (name : String) (hw : Rests (begun c) t w) :
    Leads t (OutboundClient.connect name c) (Attempted c t) w := by
  have hlegacy : ∀ w, Rests (begun c) t w →
      Leads t (OutboundClient.connectLegacy name c) (Attempted c t) w :=
    fun _ hw => leads_connectOr (fun _ _ hw' => hw') hw
  refine leads_connectOr (fun e w' hw' => ?_) hw
  show Leads t (if isDiscoverProbeRejection e then OutboundClient.connectLegacy name c
    else throw (initializationFailed name e)) _ _
  split_ifs
  · exact hlegacy w' hw'
  · exact hw'

/-- A connect is about to leave its section. -/
def Leaves (c : ℕ) (t : TaskId) (w : World connectionSignature) : Prop :=
  t < w.next ∧ w.frames t = begun c ∧ Owned w.state (Function.update w.frames t [.connect])

/-- The client is stored when its transport is open, and what fails leaves none behind. -/
theorem leads_finishConnect (name : String) {ended : Except Exc Unit}
    (hw : Attempted c t ended w) :
    Leads t (finishConnect name c ended) (fun _ => Leaves c t) w := by
  cases ended with
  | ok u =>
    obtain ⟨hborn, hframes, hinv⟩ := hw
    exact fun _ => ⟨trivial, hborn, hframes, hinv.establish⟩
  | error e =>
    have hfailed : ∀ {w}, Rests (begun c) t w → Leaves c t w := fun hw =>
      ⟨hw.born, hw.frames, hw.inv.failed hw.frames (by simp [Call.ofClient])⟩
    have hchanged : ∀ target,
        Rests (begun c) t (w.exec (connection isDirect) t (.act (.transition target))) :=
      fun target => hw.act (hw.inv.transition (Or.inr
        (hw.inv.released_of_nil (hw.inv.transports_of_begun hw.frames))))
    have hother : Leads t (if e.isException then do
          act (.transition .error)
          throw (initializationFailed name e)
        else throw e : ConnOp Unit) (fun _ => Leaves c t) w := by
      split_ifs
      · exact Op.settles_bind.mpr fun _ => ⟨trivial, hfailed (hchanged .error)⟩
      · exact hfailed hw
    cases e with
    | authRequired => exact fun _ => ⟨trivial, hfailed (hchanged .authRequired)⟩
    | connection message cls =>
      exact Op.settles_bind.mpr fun _ => ⟨trivial, hfailed (hchanged .error)⟩
    | _ => exact hother

theorem holds_connect : Holds [.connect] connect := by
  refine Op.Settles.get_bind fun t w hw => ?_
  show Leads t (if Connection.state w.state = .connected then pure () else
    inside .beginConnect (.connecting (Connection.nextClient w.state)) .nop _) _ w
  split_ifs
  · exact hw
  refine Op.settles_within fun hcareful => ⟨trivial, ?_⟩
  have hbegun : Rests (begun (Connection.nextClient w.state)) t
      (w.exec (connection isDirect) t (.push .beginConnect (.connecting _))) :=
    hw.push (hw.inv.beginConnect hcareful.1 hcareful.2)
  refine Op.settles_bind.mpr (Coro.settles_bind.mpr (Op.settles_mono
    (leads_outboundConnect _ hbegun) fun ended w' hw' => ?_))
  show Leads t (finishConnect _ _ ended) _ w'
  refine Op.settles_mono (leads_finishConnect _ hw') fun r w'' hw'' _ => ⟨trivial, ?_⟩
  obtain ⟨hborn, hframes, hinv⟩ := hw''
  refine ⟨?_, hborn, ?_⟩
  · rw [World.state_exec, World.frames_pop, hframes, List.tail_cons]
    exact hinv
  · rw [World.frames_pop, Function.update_self, hframes, List.tail_cons]

/-! ### Disconnects -/

/-- A task is at rest, and the client of the connection holds no transport. -/
def Freed (st : List Call) (t : TaskId) (w : World connectionSignature) : Prop :=
  Rests st t w ∧ Released w.state

theorem leads_dropStack (hw : Rests st t w) (hc : Connection.exitStacks w.state c ≠ .holding)
    (hreleased : ∀ d, d ≠ c → Connection.outbound w.state = some d →
      Connection.exitStacks w.state d ≠ .holding) :
    Leads t (act (.dropStack c)) (fun _ => Freed st t) w := by
  refine fun _ => ⟨trivial, hw.act (hw.inv.dropStack hc), fun d hout hheld => ?_⟩
  change Function.update (Connection.exitStacks w.state) c .unset d = .holding at hheld
  rcases eq_or_ne d c with rfl | hne
  · rw [Function.update_self] at hheld
    cases hheld
  · rw [Function.update_of_ne hne] at hheld
    exact hreleased d hne hout hheld

/-- A close of the transport of a client has ended. -/
def Closed (st : List Call) (c : ℕ) (t : TaskId) (w : World connectionSignature) : Prop :=
  Rests st t w ∧ Connection.transports w.state = [] ∧ Connection.exitStacks w.state c ≠ .holding

theorem leads_close (hst : Plain st) (hw : Rests st t w)
    (hout : Connection.outbound w.state = some c)
    (hheld : Connection.exitStacks w.state c = .holding) :
    Leads t (inside (.popExit c) (.closing c) (.closed c) (wait .close)) (fun _ => Closed st c t)
      w := by
  refine Op.settles_within fun _ => ⟨trivial, ?_⟩
  have hclosing : Rests (.closing c :: st) t
      (w.exec (connection isDirect) t (.push (.popExit c) (.closing c))) :=
    hw.push (hw.inv.popExit hw.frames hst hout hheld)
  refine hclosing.await fun r w' hw' _ => fun _ => ⟨trivial, ?_⟩
  have hrest := hw'.resumed
  obtain ⟨hinv, hnil⟩ := hrest.inv.closed hrest.frames hst
  exact ⟨hrest.pop hinv, hnil, (hrest.inv.closing (t := t) (by simp [hrest.frames])).2⟩

/-- Whatever becomes of the close, the client holds no transport afterwards. -/
theorem leads_outboundDisconnect (hst : Plain st) (hw : Rests st t w)
    (hout : Connection.outbound w.state = some c) :
    Leads t (OutboundClient.disconnect c) (fun _ => Freed st t) w := by
  have hothers : ∀ d, d ≠ c → Connection.outbound w.state = some d →
      Connection.exitStacks w.state d ≠ .holding := fun d hne hd =>
    absurd (Option.some.inj (hd.symm.trans hout)) hne
  refine Op.settles_get_bind.mpr ?_
  cases hheld : Connection.exitStacks w.state c with
  | unset =>
    refine ⟨hw, fun d hd => ?_⟩
    rw [Option.some.inj (hd.symm.trans hout), hheld]
    simp
  | emptied => exact leads_dropStack hw (by simp [hheld]) hothers
  | holding =>
    have hdrop : ∀ {w}, Closed st c t w →
        Leads t (act (.dropStack c)) (fun _ => Freed st t) w := fun hw =>
      leads_dropStack hw.1 hw.2.2 fun d _ => hw.1.inv.released_of_nil hw.2.1 d
    refine Op.settles_bind.mpr (Op.settles_tryCatch.mpr (Op.settles_mono
      (leads_close hst hw hout hheld) fun r w' hw' => ?_))
    cases r with
    | ok u => exact hdrop hw'
    | error e =>
      show Op.settles _ _ _ _ t (if e.isException then pure () else throw e) _ w'
      split_ifs
      · exact hdrop hw'
      · exact ⟨hw'.1, hw'.1.inv.released_of_nil hw'.2.1⟩

/-- The connection forgets its client. -/
theorem holds_disconnect (hst : Plain st) : Holds st disconnect := by
  have hend : ∀ {t w}, Rests st t w → Released w.state →
      Leads t (act (.transition .disconnected)) (fun _ => Rests st t) w :=
    fun hw hreleased _ => ⟨trivial, hw.act (hw.inv.transition (Or.inr hreleased))⟩
  refine Op.Settles.get_bind fun t w hw => Op.settles_bind.mpr ?_
  show Leads t (closeOutbound (Connection.outbound w.state)) _ w
  cases hout : Connection.outbound w.state with
  | none => exact hend hw fun d hd => by cases hout.symm.trans hd
  | some c =>
    have hforget : ∀ {w}, Freed st t w → Leads t (act .dropOutbound)
        (Op.settlesThen (connection isDirect) Careful opensAlone Owned t
          (fun _ => act (.transition .disconnected)) fun _ => Rests st t) w :=
      fun hw _ => ⟨trivial, hend (hw.1.act (hw.1.inv.dropOutbound hw.2)) nofun⟩
    refine Op.settles_bind.mpr (Op.settles_tryCatch.mpr (Op.settles_mono
      (leads_outboundDisconnect hst hw hout) fun r w' hw' => ?_))
    cases r with
    | ok u => exact hforget hw'
    | error e =>
      show Op.settles _ _ _ _ t (if e.isException then pure () else throw e) _ w'
      split_ifs
      · exact hforget hw'
      · exact hw'.1

/-! ### Drains and requests -/

theorem holds_awaitDrain (hst : Plain st) (e : ℕ) : Holds st (awaitDrain e) := by
  refine Op.Settles.bind (Op.Settles.tryCatch (Op.Settles.bind (holds_wait _)
    fun _ => Op.Settles.pure _) fun e => Op.Settles.ite (Op.Settles.pure _) (Op.Settles.throw _))
    fun expired => Op.Settles.ite ?_ (holds_disconnect hst)
  exact holds_inside rfl rfl rfl rfl (holds_disconnect (hst.cons rfl))

theorem holds_drain (hst : Plain st) : Holds st drain := by
  refine Op.Settles.get_bind fun t w hw => Op.Settles.ite (holds_disconnect hst) ?_ t w hw
  refine Op.Settles.bind (fun t w hw _ =>
    ⟨trivial, hw.act (hw.inv.transition (Or.inl rfl))⟩) fun _ => Op.Settles.ite
      (holds_disconnect hst) ?_
  exact holds_inside rfl rfl rfl rfl (holds_awaitDrain (hst.cons rfl) _)

theorem holds_drainAndDisconnect (hst : Plain st) : Holds st drainAndDisconnect := by
  refine Op.Settles.get_bind fun t w hw => Op.Settles.bind (Op.Settles.ite (holds_quiet rfl)
    (Op.Settles.pure ())) (fun _ => Op.Settles.bind (Op.Settles.ite (holds_wait _)
      (Op.Settles.pure ())) fun _ => ?_) t w hw
  exact holds_inside rfl rfl rfl rfl (holds_drain (hst.cons rfl))

theorem holds_request (st : List Call) : Holds st request := by
  refine Op.Settles.get_bind fun t w hw => Op.Settles.ite (Op.Settles.throw _)
    (Op.Settles.ite (Op.Settles.throw _) ?_) t w hw
  exact holds_inside rfl rfl rfl rfl (holds_wait _)

end Contracts

/-- **The operations keep track of the transports**, in runs that are careful. -/
theorem settled_direct : SlmMcpHub.Settled (connection isDirect) Careful opensAlone Owned where
  body {c r t w} hJ ht hc := by
    have hend : ∀ {p : ConnOp Unit}, Holds [c] p →
        Leads t p (fun _ w' => Owned w'.state (Function.update w'.frames t [])) w :=
      fun hp => Op.settles_mono (hp t w ⟨hJ, ht, hc⟩) fun _ _ hw' => hw'.inv.finish hw'.frames
    have hreturn : Leads t (Coro.ret r : ConnOp Unit)
        (fun _ w' => Owned w'.state (Function.update w'.frames t [])) w := hJ.finish hc
    by_cases hdirect : isDirect c = true
    · have hplain := plain_singleton hdirect
      show Coro.settles _ _ _ _ t (if isDirect c then c.body r else .ret r) _ w
      rw [if_pos hdirect]
      cases r with
      | error e => exact hreturn
      | ok u =>
        cases c with
        | connect => exact hend holds_connect
        | disconnect => exact hend (holds_disconnect hplain)
        | drainAndDisconnect => exact hend (holds_drainAndDisconnect hplain)
        | request => exact hend (holds_request _)
        | _ => cases hdirect
    · show Coro.settles _ _ _ _ t (if isDirect c then c.body r else .ret r) _ w
      rw [if_neg hdirect]
      exact hreturn
  call {s f t c} hc ht h := by
    have hidle : ∀ d : Call, d ∉ f t := fun d hd => by
      rw [ht] at hd
      cases hd
    refine h.restack (fun d hd => iff_of_false (fun hmem => ?_) (hidle d))
      fun hd => absurd hd (hidle _)
    rw [List.mem_singleton.mp hmem, ofClient_of_isDirect hc] at hd
    cases hd
  tick {e} := nomatch e

/-! ### Runs -/

/-- No operation is in flight. -/
structure Quiescent (cf : Config connectionSignature) : Prop where
  running : cf.running = none
  idle : ∀ t, (cf.world.tasks t).stack = []

theorem length_transports_eval {s : Connection} (hs : s.transports.length ≤ 1) {a : Act}
    (ha : ∀ c, a = .opened c → s.transports = []) : (a.eval s).transports.length ≤ 1 := by
  cases a with
  | opened c =>
    show (c :: s.transports).length ≤ 1
    rw [ha c rfl]
    exact Nat.le_refl _
  | closed c => exact (List.length_erase_le (l := s.transports)).trans hs
  | _ => exact hs

/-- At most one transport is open as long as each is opened alone. -/
theorem invariant_single : FrameInvariant (connection isDirect)
    (fun w t st => Careful w t st ∧ opensAlone w t st)
    fun s _ => (Connection.transports s).length ≤ 1 where
  mono h _ := h
  stmt {w t st} h hst := by
    cases st with
    | act a =>
      refine length_transports_eval h fun c hc => ?_
      obtain ⟨-, hguard⟩ := hst
      rw [hc] at hguard
      exact hguard.elim
    | push a c =>
      refine length_transports_eval h fun d hd => ?_
      obtain ⟨-, hguard⟩ := hst
      rw [hd] at hguard
      exact hguard
    | pop a =>
      refine length_transports_eval h fun c hc => ?_
      obtain ⟨-, hguard⟩ := hst
      rw [hc] at hguard
      exact hguard.elim
    | _ => exact h
  call _ h := h
  tick {e} := nomatch e

/-- **A connection has one transport at most, and none when it is DISCONNECTED.** However connects,
disconnects, drains and requests of a new connection are interleaved, and however each of them ends:
as long as no connect passes its check while another one is in flight or a transport is open, and
none is cancelled in its discovery, at most one transport is open at any time, and none is open when
the connection is DISCONNECTED and no operation is in flight. -/
theorem transports_of_reach (name : String) {cf : Config connectionSignature}
    (h : Reach (connection isDirect) Careful { name := name } cf) :
    (Connection.transports cf.world.state).length ≤ 1 ∧
      (Connection.state cf.world.state = .disconnected → Quiescent cf →
        Connection.transports cf.world.state = []) := by
  obtain ⟨hreach, hrest⟩ := settled_direct.reach (owned_new name) h
  refine ⟨invariant_single.reach (Nat.zero_le _) hreach, fun hstate hquiet => ?_⟩
  have hinv := hrest hquiet.running
  have hidle : ∀ t (c : Call), c ∉ cf.world.frames t := fun t c hc => by
    rw [World.frames, hquiet.idle] at hc
    cases hc
  refine List.eq_nil_iff_forall_not_mem.mpr fun c hc => ?_
  rcases hinv.owner hc with ⟨t, ht⟩ | ⟨t, ht⟩ | hserving
  · exact hidle t _ ht
  · exact hidle t _ ht
  · rcases hserving.state with hconnected | hdraining
    · cases hstate.symm.trans hconnected
    · cases hstate.symm.trans hdraining

/-- A connect and a disconnect, one after the other. -/
def connectThenDisconnect : List (Move connectionSignature) :=
  [.call .connect, .resume 0 (.ok ()), .resume 0 (.ok ()), .resume 0 (.ok ()), .call .disconnect,
    .resume 1 (.ok ()), .resume 1 (.ok ())]

/-- Whether a statement is careful, as far as the tasks that were started go. -/
def isCareful (w : World connectionSignature) (_ : TaskId) : Stmt connectionSignature → Bool
  | .push .beginConnect _ =>
    Connection.transports w.state = [] && w.inProgress.all fun c => !Call.ofClient c
  | .act (.abandon _) => false
  | _ => true

theorem reach_careful {s : Connection} {cf : Config connectionSignature} {fuel : ℕ}
    {mvs : List (Move connectionSignature)}
    (h : Config.play (connection isDirect) isCareful fuel mvs (Config.start s) = some cf) :
    Reach (connection isDirect) Careful s cf := by
  have hreach : Reach (connection isDirect) (fun w t st => isCareful w t st = true) s cf :=
    reach_play id .refl h
  refine hreach.and_inProgress.imp fun w t st ⟨hst, hlisted⟩ => ?_
  cases st with
  | push a c =>
    cases a with
    | beginConnect =>
      simp only [isCareful, Bool.and_eq_true, decide_eq_true_eq, List.all_eq_true] at hst
      exact ⟨hst.1, fun u d _ hd => Bool.noConfusion (hst.2 _ (hlisted _ ⟨u, hd⟩))⟩
    | _ => trivial
  | act a =>
    cases a with
    | abandon c => cases hst
    | _ => trivial
  | _ => trivial

theorem transports_of_connectThenDisconnect : ∃ cf,
    Reach (connection isDirect) Careful { name := "backend" } cf ∧ Quiescent cf ∧
      Connection.transports cf.world.state = [] := by
  have hplay : (Config.play (connection isDirect) isCareful 20 connectThenDisconnect
      (Config.start { name := "backend" })).any (fun cf => cf.running.isNone &&
        cf.world.inProgress = [] && Connection.state cf.world.state = .disconnected) = true := by
    decide +kernel
  obtain ⟨cf, hrun, hcf⟩ := (Option.any_eq_true _ _).mp hplay
  simp only [Bool.and_eq_true, Option.isNone_iff_eq_none, decide_eq_true_eq] at hcf
  obtain ⟨⟨hidle, hnil⟩, hstate⟩ := hcf
  have hreach := reach_careful hrun
  have hquiet : Quiescent cf := ⟨hidle, hreach.started.stack_eq_nil hnil⟩
  exact ⟨cf, hreach, hquiet, (transports_of_reach "backend" hreach).2 hstate hquiet⟩

/-- A connect that is cancelled while it discovers, and a disconnect after it. -/
def cancelledDiscovery : List (Move connectionSignature) :=
  [.call .connect, .resume 0 (.ok ()), .resume 0 (.ok ()), .resume 0 (.error .cancelled),
    .call .disconnect, .resume 1 (.ok ())]

/-- The transport of a connect that is cancelled in its discovery stays open: nothing refers to its
client any more, and the disconnect finds none to close. -/
theorem not_transports_cancelled : ¬ ∀ cf,
    Reach (connection isDirect) anyStep { name := "backend" } cf →
      (Connection.transports cf.world.state).length ≤ 1 ∧
        (Connection.state cf.world.state = .disconnected → Quiescent cf →
          Connection.transports cf.world.state = []) := by
  intro h
  have hplay : (Config.play (connection isDirect) (fun _ _ _ => true) 20 cancelledDiscovery
      (Config.start { name := "backend" })).any (fun cf => cf.running.isNone &&
        cf.world.inProgress = [] && Connection.state cf.world.state = .disconnected &&
          Connection.transports cf.world.state = [0]) = true := by
    decide +kernel
  obtain ⟨cf, hrun, hcf⟩ := (Option.any_eq_true _ _).mp hplay
  simp only [Bool.and_eq_true, Option.isNone_iff_eq_none, decide_eq_true_eq] at hcf
  obtain ⟨⟨⟨hidle, hnil⟩, hstate⟩, hopen⟩ := hcf
  have hreach : Reach (connection isDirect) anyStep { name := "backend" } cf :=
    reach_play (fun _ => trivial) .refl hrun
  have hclosed := (h cf hreach).2 hstate ⟨hidle, hreach.started.stack_eq_nil hnil⟩
  rw [hopen] at hclosed
  cases hclosed

end ConnectionTasks

end SlmMcpHub
