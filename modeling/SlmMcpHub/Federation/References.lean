import SlmMcpHub.Federation.Runs

/-!
# References to connections

A connection outlives its entry in the table of the manager: an attempt that is under way and a
supervisor go on with the connection they have. In every run these references are as good as names:
no two of them share a number, and a new connection gets a number none of them has.

## Main definitions

* `Referenced` — the connection is stored, or some task may still connect it
* `Act.Displaces` — the connection loses its entry in the table

## Main results

* `refsInvariant` — references are valid in every run
-/

namespace SlmMcpHub

/-- Some task may still connect the connection. -/
def Driven (D : Call → Prop) (x : ConnRef) : Prop :=
  D (.attempt x) ∨ D (.connect x) ∨ ∃ p : SupRef, p.conn = x ∧ D (.supervised p)

/-- The connection is stored, or some task may still connect it. -/
def Referenced (s : Hub) (D : Call → Prop) (x : ConnRef) : Prop := s.Stored x ∨ Driven D x

/-- The act takes the connection out of the table, if it is in there. -/
def Act.Displaces (x : ConnRef) : Act → Prop
  | .storeConnection y => y.name = x.name
  | .popConnection name => name = x.name
  | .closeAll => True
  | _ => False

theorem Act.stored_eval {s : Hub} {a : Act} {x : ConnRef} (h : s.Stored x)
    (ha : ¬ a.Displaces x) : (a.eval s).Stored x := by
  rw [Hub.Stored, Act.connections_eval]
  cases a with
  | storeConnection y => exact (Dict.get?_set_of_ne ha).trans h
  | popConnection name => exact (Dict.get?_erase_of_ne ha).trans h
  | closeAll => exact absurd trivial ha
  | _ => exact h

/-- References are as good as names. -/
structure RefsValid (s : Hub) (D : Call → Prop) : Prop where
  key : ∀ {name x}, s.connections.get? name = some x → x.name = name
  lt : ∀ {x}, Referenced s D x → x.id < s.nextConn
  unique : ∀ {x y}, Referenced s D x → Referenced s D y → x.id = y.id → x = y

theorem RefsValid.stored {s : Hub} {D : Call → Prop} (h : RefsValid s D) {name : String}
    {x : ConnRef} (hx : s.connections.get? name = some x) : s.Stored x := by
  rw [Hub.Stored, h.key hx]
  exact hx

theorem Driven.mono {D D' : Call → Prop} {x : ConnRef} (hD : ∀ c, D' c → D c)
    (h : Driven D' x) : Driven D x :=
  h.imp (hD _) <| Or.imp (hD _) fun ⟨p, hp, hd⟩ => ⟨p, hp, hD _ hd⟩

theorem not_driven_start {x : ConnRef} : ¬ Driven (fun _ => False) x := by
  rintro (hd | hd | ⟨p, -, hd⟩) <;> exact hd

/-- A caller does not connect anything by calling. -/
theorem driven_of_client {D : Call → Prop} {c : Call} {x : ConnRef} (hc : c.isClient = true)
    (h : Driven (fun c' => D c' ∨ c' = c) x) : Driven D x := by
  rcases h with ⟨hd | rfl⟩ | ⟨hd | rfl⟩ | ⟨p, hp, hd | rfl⟩
  · exact Or.inl hd
  · cases hc
  · exact Or.inr (Or.inl hd)
  · cases hc
  · exact Or.inr (Or.inr ⟨p, hp, hd⟩)
  · cases hc

section Statement

variable {w : World hubSignature} {t : TaskId} {st : Stmt hubSignature} {x : ConnRef}

theorem Drives.driven (h : Drives (w.tasks t).stack x) : Driven w.doing x :=
  h.elim (fun h => Or.inl ⟨t, h⟩) fun ⟨p, hp, h⟩ => Or.inr (Or.inr ⟨p, hp, t, h⟩)

/-- A new connection is given the next number. -/
theorem id_of_storeConnection (h : disciplined w t st) (ha : st.toAct = .storeConnection x) :
    x.id = Hub.nextConn w.state := by
  rcases acted h with hnop | hallowed | ⟨c, -, hentry⟩ | ⟨y, n, kind, -, hend⟩
  · cases ha.symm.trans hnop
  · rw [ha] at hallowed
    exact hallowed.1
  · rw [ha] at hentry
    cases c with
    | requesting names => cases hentry
    | armed names => rcases hentry with ⟨h, -⟩ | ⟨name, -, h⟩ <;> cases h
    | attempt y =>
      obtain ⟨hact, hid, -⟩ := hentry
      cases hact
      exact hid
    | connect y => cases hentry.1
    | dispatch y n kind => cases hentry.1
    | _ => exact hentry.elim
  · cases ha.symm.trans hend

/-- Only a connection in the middle of `connect` is established. -/
theorem connecting_of_establish {caps : Capabilities} (h : disciplined w t st)
    (ha : st.toAct = .establish x caps) : w.doing (.connect x) := by
  have hallowed := allowed_of_plain h (by rw [ha]; trivial)
  rw [ha] at hallowed
  exact ⟨t, hallowed⟩

/-- What a statement may connect from now on has been so before, or is in the table, or is the new
connection. -/
theorem driven_step (h : disciplined w t st)
    (hx : Driven (fun c => w.doing c ∨ st.enters = some c) x) :
    Driven w.doing x ∨ st.toAct = .storeConnection x ∨
      st.toAct = .nop ∧ ∃ name, (Hub.connections w.state).get? name = some x := by
  rcases hx with ⟨hd | hd⟩ | ⟨hd | hd⟩ | ⟨p, rfl, hd | hd⟩
  · exact Or.inl (Or.inl hd)
  · rcases entered h hd with hentry | hspawn | hjump
    · exact Or.inr (Or.inl hentry.1)
    · exact hspawn.elim
    · exact hjump.elim
  · exact Or.inl (Or.inr (Or.inl hd))
  · rcases entered h hd with hentry | hspawn | hjump
    · exact Or.inl hentry.2.driven
    · exact hspawn.elim
    · exact hjump.elim
  · exact Or.inl (Or.inr (Or.inr ⟨p, rfl, hd⟩))
  · cases st with
    | spawn c =>
      obtain rfl := Option.some.inj hd
      obtain ⟨name, hget, -⟩ := h
      exact Or.inr (Or.inr ⟨rfl, name, hget⟩)
    | jump c =>
      obtain rfl := Option.some.inj hd
      exact Or.inl (Or.inr (Or.inr ⟨p, rfl, t, h⟩))
    | push a c =>
      obtain rfl := Option.some.inj hd
      exact h.elim
    | _ => cases hd

/-- A statement makes no reference but to connections that have one, and to a new connection. -/
theorem referenced_step (hrefs : RefsValid w.state w.doing) (h : disciplined w t st)
    (hx : Referenced (st.toAct.eval w.state) (fun c => w.doing c ∨ st.enters = some c) x) :
    Referenced w.state w.doing x ∨ st.toAct = .storeConnection x := by
  rcases hx with hstored | hdriven
  · rcases Act.get?_connections_eval hstored with hold | ⟨hact, -⟩
    · exact Or.inl (Or.inl hold)
    · exact Or.inr hact
  · rcases driven_step h hdriven with hold | hact | ⟨-, name, hget⟩
    · exact Or.inl (Or.inr hold)
    · exact Or.inr hact
    · exact Or.inl (Or.inl (hrefs.stored hget))

end Statement

theorem le_nextConn_eval (s : Hub) (a : Act) : s.nextConn ≤ (a.eval s).nextConn := by
  rw [Act.nextConn_eval]
  cases a with
  | storeConnection x => exact Nat.le_succ _
  | _ => exact Nat.le_refl _

/-- **References are valid in every run.** -/
theorem refsInvariant {C : World hubSignature → TaskId → Stmt hubSignature → Prop} :
    HubInvariant C RefsValid where
  mono {s D D'} h hD := by
    have hold : ∀ {x}, Referenced s D' x → Referenced s D x := fun hx => hx.imp id (Driven.mono hD)
    exact ⟨h.key, fun hx => h.lt (hold hx), fun hx hy => h.unique (hold hx) (hold hy)⟩
  act {w t st} h _ hd := by
    have hnew : ∀ {x}, st.toAct = .storeConnection x →
        Hub.nextConn (st.toAct.eval w.state) = x.id + 1 := by
      intro x hact
      rw [Act.nextConn_eval, hact, id_of_storeConnection hd hact]
      rfl
    refine ⟨fun {name x} hget => ?_, fun {x} hx => ?_, fun {x y} hx hy hid => ?_⟩
    · rcases Act.get?_connections_eval hget with hold | ⟨-, hname⟩
      · exact h.key hold
      · exact hname
    · rcases referenced_step h hd hx with hold | hact
      · exact Nat.lt_of_lt_of_le (h.lt hold) (le_nextConn_eval _ _)
      · rw [hnew hact]
        exact Nat.lt_succ_self _
    · rcases referenced_step h hd hx with hx | hx <;> rcases referenced_step h hd hy with hy | hy
      · exact h.unique hx hy hid
      · have hlt := h.lt hx
        rw [hid, id_of_storeConnection hd hy] at hlt
        exact absurd hlt (lt_irrefl _)
      · have hlt := h.lt hy
        rw [← hid, id_of_storeConnection hd hx] at hlt
        exact absurd hlt (lt_irrefl _)
      · exact Act.storeConnection.inj (hx.symm.trans hy)
  call {s D c} hc h := by
    have hold : ∀ {x}, Referenced s (fun c' => D c' ∨ c' = c) x → Referenced s D x :=
      fun hx => hx.imp id (driven_of_client hc)
    exact ⟨h.key, fun hx => h.lt (hold hx), fun hx hy => h.unique (hold hx) (hold hy)⟩
  clock _ h := ⟨h.key, h.lt, h.unique⟩
  notifier h := ⟨h.key, h.lt, h.unique⟩

theorem refsValid_start (config : HubConfig) : RefsValid (Hub.start config) fun _ => False := by
  have hnone : ∀ {x}, ¬ Referenced (Hub.start config) (fun _ => False) x := by
    rintro x (hs | hd)
    · cases hs
    · exact not_driven_start hd
  exact ⟨nofun, fun hx => (hnone hx).elim, fun hx => (hnone hx).elim⟩

end SlmMcpHub
