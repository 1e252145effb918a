import Mathlib.Data.List.Basic
import Mathlib.Data.List.Pairwise
import Mathlib.Algebra.Order.Ring.Int

/-!
# Migrations

A store is brought to a version by statements that add something to it unless it is there. The
versions come one after the other, each with its statements, and which one has been reached is
recorded after them. Whoever begins later takes up the version that is recorded, so that statements
are run again where somebody has not come to the end.

What the statements add is a parameter: it is only asked that a statement does what it is for, and
that nothing is taken away.

## Main definitions

* `Ddl` — statements and what they add
* `script` — what is to be done from a version on
* `Covered` — a store has everything up to a version
* `Cut` — somebody has done the first part of a script

## Main results

* `Cut.exec`, `Cut.skip`, `Cut.record` — one step of a script
* `Cut.covered_record` — a version is recorded after everything up to it
* `Cut.covered_nil`, `Cut.recorded_nil` — at the end of a script
-/

namespace SlmMcpHub

/-- Statements: `none` is an error. -/
structure Ddl (σ O : Type) where
  exec : σ → O → Option σ
  Holds : σ → O → Prop
  holds_exec : ∀ {s s' o}, exec s o = some s' → Holds s' o
  keeps : ∀ {s s' o o'}, exec s o = some s' → Holds s o' → Holds s' o'

namespace Migrations

variable {σ O : Type}

/-- A step of a migration. -/
inductive Cmd (O : Type) where
  | add (o : O)
  | record (v : ℤ)
  | commit

/-- The steps of one version. -/
def steps (m : ℤ × List O) : List (Cmd O) := m.2.map .add ++ [.record m.1, .commit]

/-- The steps of all versions after the current one. -/
def script (ms : List (ℤ × List O)) (current : ℤ) : List (Cmd O) :=
  (ms.filter fun m => decide (current < m.1)).flatMap steps

/-- Everything up to a version is there. -/
def Covered (D : Ddl σ O) (ms : List (ℤ × List O)) (s : σ) (v : ℤ) : Prop :=
  ∀ m ∈ ms, m.1 ≤ v → ∀ o ∈ m.2, D.Holds s o

/-- **The first part of a script is done**: what its statements add is there, and the versions it
records are noted. -/
structure Cut (D : Ddl σ O) (ms : List (ℤ × List O)) (s : σ) (Noted : ℤ → Prop) (current : ℤ)
    (done todo : List (Cmd O)) : Prop where
  split : done ++ todo = script ms current
  added : ∀ o, .add o ∈ done → D.Holds s o
  noted : ∀ v, .record v ∈ done → Noted v

variable {D : Ddl σ O} {ms : List (ℤ × List O)} {s s' : σ} {Noted Noted' : ℤ → Prop}
  {current v : ℤ} {done todo : List (Cmd O)} {o : O}

/-! ### A step of a script -/

theorem Covered.mono (h : Covered D ms s v) (hkeep : ∀ o, D.Holds s o → D.Holds s' o) :
    Covered D ms s' v := fun m hm hv o ho => hkeep o (h m hm hv o ho)

theorem cut_start : Cut D ms s Noted current [] (script ms current) where
  split := rfl
  added _ h := absurd h List.not_mem_nil
  noted _ h := absurd h List.not_mem_nil

/-- Nothing is taken away, and no note is lost. -/
theorem Cut.mono (h : Cut D ms s Noted current done todo)
    (hkeep : ∀ o, D.Holds s o → D.Holds s' o)
    (hnote : ∀ v, .record v ∈ done → Noted v → Noted' v) :
    Cut D ms s' Noted' current done todo :=
  ⟨h.split, fun o ho => hkeep o (h.added o ho), fun v hv => hnote v hv (h.noted v hv)⟩

theorem Cut.exec (h : Cut D ms s Noted current done (.add o :: todo))
    (hexec : D.exec s o = some s') : Cut D ms s' Noted current (done ++ [.add o]) todo where
  split := by rw [List.append_assoc]; exact h.split
  added o' ho' := by
    rcases List.mem_append.mp ho' with ho' | ho'
    · exact D.keeps hexec (h.added o' ho')
    · cases List.mem_singleton.mp ho'
      exact D.holds_exec hexec
  noted v hv := by
    rcases List.mem_append.mp hv with hv | hv
    · exact h.noted v hv
    · cases List.mem_singleton.mp hv

theorem Cut.record (h : Cut D ms s Noted current done (.record v :: todo)) (hnote : Noted v) :
    Cut D ms s Noted current (done ++ [.record v]) todo where
  split := by rw [List.append_assoc]; exact h.split
  added o ho := by
    rcases List.mem_append.mp ho with ho | ho
    · exact h.added o ho
    · cases List.mem_singleton.mp ho
  noted w hw := by
    rcases List.mem_append.mp hw with hw | hw
    · exact h.noted w hw
    · cases List.mem_singleton.mp hw
      exact hnote

theorem Cut.skip (h : Cut D ms s Noted current done (.commit :: todo)) :
    Cut D ms s Noted current (done ++ [.commit]) todo where
  split := by rw [List.append_assoc]; exact h.split
  added o ho := by
    rcases List.mem_append.mp ho with ho | ho
    · exact h.added o ho
    · cases List.mem_singleton.mp ho
  noted w hw := by
    rcases List.mem_append.mp hw with hw | hw
    · exact h.noted w hw
    · cases List.mem_singleton.mp hw

/-! ### Where a version is recorded -/

/-- A version is recorded after the statements of the first one. -/
theorem split_record {m₀ : ℤ × List O} {l : List (ℤ × List O)}
    (hsplit : done ++ .record v :: todo = (m₀ :: l).flatMap steps) :
    ∃ done', done = m₀.2.map .add ++ done' ∧
      done' ++ .record v :: todo = .record m₀.1 :: .commit :: l.flatMap steps := by
  have hsteps : done ++ .record v :: todo =
      m₀.2.map .add ++ (.record m₀.1 :: .commit :: l.flatMap steps) := by
    rw [hsplit, List.flatMap_cons, steps]
    simp
  rcases List.append_eq_append_iff.mp hsteps with ⟨as, has, htail⟩ | ⟨bs, rfl, htail⟩
  · cases as with
    | nil => exact ⟨[], by simp [has], htail⟩
    | cons a as =>
      have hrecord : (.record v : Cmd O) ∈ m₀.2.map .add := by
        rw [has, ← (List.cons.inj htail).1]
        exact List.mem_append_right _ List.mem_cons_self
      obtain ⟨_, -, heq⟩ := List.mem_map.mp hrecord
      cases heq
  · exact ⟨bs, rfl, htail.symm⟩

/-- The statements of a version come before it is recorded, and so do those of the versions before
it. -/
theorem add_mem_of_split {l : List (ℤ × List O)} (hsorted : l.Pairwise fun m m' => m.1 < m'.1)
    (hsplit : done ++ .record v :: todo = l.flatMap steps) {m : ℤ × List O} (hm : m ∈ l)
    (hv : m.1 ≤ v) (ho : o ∈ m.2) : .add o ∈ done := by
  -- The induction goes through the versions; the one in question is the first, or comes later.
  induction l generalizing done with
  | nil => exact absurd hm List.not_mem_nil
  | cons m₀ l ih =>
    obtain ⟨hlater, hrest⟩ := List.pairwise_cons.mp hsorted
    obtain ⟨done', rfl, htail⟩ := split_record hsplit
    rcases List.mem_cons.mp hm with rfl | hm
    · exact List.mem_append_left _ (List.mem_map_of_mem ho)
    · refine List.mem_append_right _ ?_
      match done', htail with
      | [], htail =>
        obtain ⟨hrecord, -⟩ := List.cons.inj htail
        obtain rfl := Cmd.record.inj hrecord
        exact absurd (hlater m hm) (by omega)
      | [_], htail => cases (List.cons.inj (List.cons.inj htail).2).1
      | _ :: _ :: done', htail =>
        have hlast := (List.cons.inj (List.cons.inj htail).2).2
        exact List.mem_cons_of_mem _ (List.mem_cons_of_mem _ (ih hrest hlast hm))

/-- **A version is recorded after everything up to it.** -/
theorem Cut.covered_record (h : Cut D ms s Noted current done (.record v :: todo))
    (hsorted : ms.Pairwise fun m m' => m.1 < m'.1) (hcurrent : Covered D ms s current) :
    Covered D ms s v := by
  intro m hm hv o ho
  by_cases hlate : current < m.1
  · have hmem : m ∈ ms.filter fun m => decide (current < m.1) :=
      List.mem_filter.mpr ⟨hm, decide_eq_true hlate⟩
    exact h.added o (add_mem_of_split (hsorted.filter _) h.split hmem hv ho)
  · exact hcurrent m hm (not_lt.mp hlate) o ho

theorem mem_script {c : Cmd O} :
    c ∈ script ms current ↔ ∃ m ∈ ms, current < m.1 ∧ c ∈ steps m := by
  simp only [script, List.mem_flatMap, List.mem_filter, decide_eq_true_iff, and_assoc]

/-- A record is followed by a commit. -/
theorem commit_of_split_record {l : List (ℤ × List O)}
    (hsplit : done ++ .record v :: todo = l.flatMap steps) : ∃ rest, todo = .commit :: rest := by
  induction l generalizing done with
  | nil => exact absurd hsplit (by simp)
  | cons m₀ l ih =>
    obtain ⟨done', -, htail⟩ := split_record hsplit
    match done', htail with
    | [], htail => exact ⟨_, (List.cons.inj htail).2⟩
    | [_], htail => cases (List.cons.inj (List.cons.inj htail).2).1
    | _ :: _ :: done', htail => exact ih (List.cons.inj (List.cons.inj htail).2).2

/-- Where a statement is run: those of the earlier versions have been run, and those before it. -/
theorem exists_of_split_add {l : List (ℤ × List O)}
    (hsorted : l.Pairwise fun m m' => m.1 < m'.1)
    (hsplit : done ++ .add o :: todo = l.flatMap steps) :
    ∃ m ∈ l, ∃ before after, m.2 = before ++ o :: after ∧ (∀ o' ∈ before, .add o' ∈ done) ∧
      ∀ m' ∈ l, m'.1 < m.1 → ∀ o' ∈ m'.2, .add o' ∈ done := by
  induction l generalizing done with
  | nil => exact absurd hsplit (by simp)
  | cons m₀ l ih =>
    obtain ⟨hlater, hrest⟩ := List.pairwise_cons.mp hsorted
    have hsteps : done ++ .add o :: todo =
        m₀.2.map .add ++ (.record m₀.1 :: .commit :: l.flatMap steps) := by
      rw [hsplit, List.flatMap_cons, steps]
      simp
    have hno : ∀ m' ∈ m₀ :: l, ¬ m'.1 < m₀.1 := by
      intro m' hm'
      rcases List.mem_cons.mp hm' with rfl | hm'
      · exact lt_irrefl _
      · exact (hlater m' hm').le.not_gt
    rcases List.append_eq_append_iff.mp hsteps with ⟨as, has, htail⟩ | ⟨bs, rfl, htail⟩
    · match as, has, htail with
      | [], _, htail => cases (List.cons.inj htail).1
      | _ :: as, has, htail =>
        obtain rfl := (List.cons.inj htail).1
        obtain ⟨before, rest, hm₀, rfl, hrest'⟩ := List.map_eq_append_iff.mp has
        obtain ⟨o', after, rfl, ho', -⟩ := List.map_eq_cons_iff.mp hrest'
        obtain rfl := Cmd.add.inj ho'
        exact ⟨m₀, List.mem_cons_self, before, after, hm₀, fun _ h => List.mem_map_of_mem h,
          fun m' hm' hlt => absurd hlt (hno m' hm')⟩
    · match bs, htail with
      | [], htail => cases (List.cons.inj htail).1
      | [_], htail => cases (List.cons.inj (List.cons.inj htail).2).1
      | _ :: _ :: bs, htail =>
        have hlast := (List.cons.inj (List.cons.inj htail).2).2
        obtain ⟨m, hm, before, after, hsplit', hbefore, hearlier⟩ := ih hrest hlast.symm
        have hgrow : ∀ {c : Cmd O}, c ∈ bs → ∀ {x y : Cmd O},
            c ∈ m₀.2.map .add ++ x :: y :: bs := fun h => by simp [h]
        refine ⟨m, List.mem_cons_of_mem _ hm, before, after, hsplit',
          fun o' ho' => hgrow (hbefore o' ho'), fun m' hm' hlt o' ho' => ?_⟩
        rcases List.mem_cons.mp hm' with rfl | hm'
        · exact List.mem_append_left _ (List.mem_map_of_mem ho')
        · exact hgrow (hearlier m' hm' hlt o' ho')

/-- **What has been done before a statement is run**: the earlier versions, and the statements
before it in its own. -/
theorem Cut.exists_before (h : Cut D ms s Noted current done (.add o :: todo))
    (hsorted : ms.Pairwise fun m m' => m.1 < m'.1) (hcurrent : Covered D ms s current) :
    ∃ m ∈ ms, ∃ before after, m.2 = before ++ o :: after ∧ (∀ o' ∈ before, D.Holds s o') ∧
      ∀ m' ∈ ms, m'.1 < m.1 → ∀ o' ∈ m'.2, D.Holds s o' := by
  obtain ⟨m, hm, before, after, hsplit, hbefore, hearlier⟩ :=
    exists_of_split_add (hsorted.filter _) h.split
  refine ⟨m, (List.mem_filter.mp hm).1, before, after, hsplit,
    fun o' ho' => h.added o' (hbefore o' ho'), fun m' hm' hlt o' ho' => ?_⟩
  by_cases hlate : current < m'.1
  · have hmem : m' ∈ ms.filter fun m => decide (current < m.1) :=
      List.mem_filter.mpr ⟨hm', decide_eq_true hlate⟩
    exact h.added o' (hearlier m' hmem hlt o' ho')
  · exact hcurrent m' hm' (not_lt.mp hlate) o' ho'

/-- At the end of a script everything is there. -/
theorem Cut.covered_nil (h : Cut D ms s Noted current done [])
    (hcurrent : Covered D ms s current) : ∀ m ∈ ms, ∀ o ∈ m.2, D.Holds s o := by
  intro m hm o ho
  by_cases hlate : current < m.1
  · refine h.added o ?_
    rw [← List.append_nil done, h.split]
    exact mem_script.mpr ⟨m, hm, hlate, List.mem_append_left _ (List.mem_map_of_mem ho)⟩
  · exact hcurrent m hm (not_lt.mp hlate) o ho

/-- At the end of a script every later version is noted. -/
theorem Cut.recorded_nil (h : Cut D ms s Noted current done []) {m : ℤ × List O} (hm : m ∈ ms) :
    m.1 ≤ current ∨ Noted m.1 := by
  by_cases hlate : current < m.1
  · refine .inr (h.noted m.1 ?_)
    rw [← List.append_nil done, h.split]
    exact mem_script.mpr ⟨m, hm, hlate, List.mem_append_right _ List.mem_cons_self⟩
  · exact .inl (not_lt.mp hlate)

end Migrations

end SlmMcpHub
