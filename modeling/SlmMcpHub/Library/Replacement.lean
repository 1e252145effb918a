import Mathlib.Data.List.Basic
import Mathlib.Data.List.Infix
import Mathlib.Data.List.Nodup
import Mathlib.Tactic.Common

/-!
# Replacement from left to right

What a rule matches ends at the first closing element after its beginning. So a list falls into
blocks, each with its closing element at the end, and of each block at most one match is replaced,
its longest one; that is what the proofs go by.

Two rules may be applied one after the other or both at once. The difference is what the second one
makes of the values the first one has put in.

## Main definitions

* `Rule`, `Rule.replace` — a rule, and its application from left to right
* `replaceBoth` — two rules at once
* `Rule.first` — the longest match at the end of a list
* `Rule.restrict` — a rule for some of the matches
* `Rule.Confined` — the longest match at the end of a list is such a one, or makes no difference

## Main results

* `Rule.replace_block` — the replacement goes block by block
* `Rule.replace_restrict_eq_iff` — when a rule has the effect of its restriction
* `replaceBoth_eq_iff` — when two rules one after the other have the effect of both at once
-/

namespace SlmMcpHub

namespace Replacement

variable {α β : Type*} {closes : α → Bool}

/-- There is no closing element. -/
def Open (closes : α → Bool) (l : List α) : Prop := ∀ a ∈ l, closes a = false

/-- There is one closing element, at the end. -/
def Block (closes : α → Bool) (m : List α) : Prop :=
  ∃ u b, m = u ++ [b] ∧ Open closes u ∧ closes b = true

/-- What is replaced, and by what. -/
structure Rule (closes : α → Bool) where
  isMatch : List α → Bool
  /-- What a match is replaced by; without one it stays. -/
  value : List α → Option (List α)
  block : ∀ {m}, isMatch m = true → Block closes m

/-- The elements up to the first closing one, and with it. -/
def upTo (closes : α → Bool) : List α → Option (List α)
  | [] => none
  | a :: l => if closes a then some [a] else (upTo closes l).map (a :: ·)

namespace Rule

variable (R S : Rule closes)

/-- The match at the beginning of a list. -/
def match? (l : List α) : Option (List α) := (upTo closes l).filter R.isMatch

/-- What stands for a match afterwards. -/
def result (m : List α) : List α := (R.value m).getD m

/-- From left to right, every match is replaced; so many elements still belong to the last one. -/
def replaceFrom : ℕ → List α → List α
  | _, [] => []
  | skip + 1, _ :: l => replaceFrom skip l
  | 0, a :: l =>
    match R.match? (a :: l) with
    | some m => R.result m ++ replaceFrom (m.length - 1) l
    | none => a :: replaceFrom 0 l

/-- From left to right, every match is replaced. -/
def replace (l : List α) : List α := R.replaceFrom 0 l

/-- The longest match at the end of a list, with what is before it. -/
def first : List α → Option (List α × List α)
  | [] => none
  | a :: l => if R.isMatch (a :: l) then some ([], a :: l) else (first l).map (Prod.map (a :: ·) id)

/-- The rule for some of the matches only. -/
def restrict (p : List α → Bool) : Rule closes where
  isMatch m := R.isMatch m && p m
  value := R.value
  block h := R.block (Bool.and_eq_true_iff.mp h).1

/-- The longest match at the end of the list is one of those, or else neither it nor the longest one
of those has a value. -/
def Confined (p : List α → Bool) (l : List α) : Prop :=
  ∀ x, R.first l = some x → p x.2 = false →
    R.value x.2 = none ∧ ∀ y, (R.restrict p).first l = some y → R.value y.2 = none

/-- The values of the matches are new to the list, and so each is told from the others. -/
structure Fresh (l : List α) : Prop where
  new : ∀ {m v}, R.value m = some v → ∀ a ∈ v, a ∉ l
  nodup : ∀ {m v}, R.value m = some v → v.Nodup
  apart : ∀ {m m' v v'}, m <:+: l → m' <:+: l → R.value m = some v → R.value m' = some v' →
    ∀ a ∈ v, a ∈ v' → m = m'

/-- A block, with its longest match replaced. -/
def inBlock (l : List α) : List α :=
  match R.first l with
  | some (u, m) => u ++ R.result m
  | none => l

end Rule

/-- Both rules at once, the first one before the second. A match of the first rule that has no value
stays, and the second rule looks into it; `env` elements still belong to such a one, `skip` to what
has been replaced. -/
def replaceBothFrom (R S : Rule closes) : ℕ → ℕ → List α → List α
  | _, _, [] => []
  | env, skip + 1, _ :: l => replaceBothFrom R S (env - 1) skip l
  | env, 0, a :: l =>
    let m? := if env = 0 then R.match? (a :: l) else none
    match m?.bind fun m => (R.value m).map (m.length, ·) with
    | some (length, v) => v ++ replaceBothFrom R S (length - 1) (length - 1) l
    | none =>
      let env := (m?.map List.length).getD env
      match S.match? (a :: l) with
      | some m => S.result m ++ replaceBothFrom R S (env - 1) (m.length - 1) l
      | none => a :: replaceBothFrom R S (env - 1) 0 l

/-- Both rules at once. -/
def replaceBoth (R S : Rule closes) (l : List α) : List α := replaceBothFrom R S 0 0 l

/-- A list is in another one, as it is. -/
def isPart [DecidableEq α] (l m : List α) : Bool := m <:+: l

theorem isPart_iff [DecidableEq α] {l m : List α} : isPart l m = true ↔ m <:+: l :=
  decide_eq_true_iff

/-! ### Blocks -/

theorem Open.of_cons {a : α} {l : List α} (h : Open closes (a :: l)) : Open closes l :=
  fun b hb => h b (List.mem_cons_of_mem a hb)

theorem not_open_block {u : List α} {b : α} (hb : closes b = true) : ¬ Open closes (u ++ [b]) :=
  fun h => Bool.false_ne_true ((h b (by simp)).symm.trans hb)

theorem block_mk {u : List α} {b : α} (hu : Open closes u) (hb : closes b = true) :
    Block closes (u ++ [b]) :=
  ⟨u, b, rfl, hu, hb⟩

theorem Block.ne_nil {m : List α} (h : Block closes m) : m ≠ [] := by
  obtain ⟨u, b, rfl, -⟩ := h
  simp

/-- What is before an end of a block is open. -/
theorem Block.open_of_append {u m : List α} (h : Block closes (u ++ m)) (hm : m ≠ []) :
    Open closes u := by
  obtain ⟨v, b, heq, hv, -⟩ := h
  obtain ⟨m', c, rfl⟩ := List.eq_nil_or_concat' m |>.resolve_left hm
  rw [← List.append_assoc] at heq
  obtain ⟨rfl, -⟩ := List.append_inj' heq rfl
  exact fun a ha => hv a (List.mem_append_left _ ha)

theorem suffix_append_cons (u : List α) (b : α) (l : List α) : l <:+ u ++ b :: l :=
  (List.suffix_cons b l).trans (List.suffix_append u _)

/-- Every list is a sequence of blocks, and open after them. -/
theorem blocks_induction (closes : α → Bool) {motive : List α → Prop}
    (last : ∀ l, Open closes l → motive l)
    (block : ∀ u b l, Open closes u → closes b = true → motive l → motive (u ++ b :: l))
    (l : List α) : motive l := by
  have key : ∀ l u, Open closes u → motive (u ++ l) := by
    intro l
    induction l with
    | nil => exact fun u hu => last _ (by rwa [List.append_nil])
    | cons a l ih =>
      intro u hu
      cases ha : closes a with
      | true => exact block u a l hu ha (ih [] fun _ h => nomatch h)
      | false =>
        have h := ih (u ++ [a]) fun b hb => by
          rcases List.mem_append.mp hb with hb | hb
          · exact hu b hb
          · rwa [List.mem_singleton.mp hb]
        rwa [List.append_assoc] at h
  exact key l [] fun _ h => nomatch h

theorem upTo_of_open {l : List α} (h : Open closes l) : upTo closes l = none := by
  induction l with
  | nil => rfl
  | cons a l ih => rw [upTo, if_neg (by simp [h a]), ih h.of_cons, Option.map_none]

theorem upTo_block {u : List α} {b : α} (hu : Open closes u) (hb : closes b = true) (l : List α) :
    upTo closes (u ++ b :: l) = some (u ++ [b]) := by
  induction u with
  | nil => simp [upTo, hb]
  | cons a u ih =>
    rw [List.cons_append, upTo, if_neg (by simp [hu a]), ih hu.of_cons, Option.map_some,
      List.cons_append]

theorem upTo_prefix {l m : List α} (h : upTo closes l = some m) : m <+: l := by
  induction l generalizing m with
  | nil => cases h
  | cons a l ih =>
    rw [upTo] at h
    split at h
    · cases h
      exact List.prefix_append [a] l
    · obtain ⟨m', hm', rfl⟩ := Option.map_eq_some_iff.mp h
      exact List.cons_prefix_cons.mpr ⟨rfl, ih hm'⟩

namespace Rule

variable {R S : Rule closes}

theorem match?_spec {l m : List α} (h : R.match? l = some m) : R.isMatch m = true ∧ m <+: l :=
  ⟨(Option.filter_eq_some_iff.mp h).2, upTo_prefix (Option.filter_eq_some_iff.mp h).1⟩

theorem match?_ne_nil {l m : List α} (h : R.match? l = some m) : m ≠ [] :=
  (R.block (match?_spec h).1).ne_nil

theorem match?_of_open {l : List α} (h : Open closes l) : R.match? l = none := by
  rw [match?, upTo_of_open h, Option.filter_none]

theorem match?_block {u : List α} {b : α} (hu : Open closes u) (hb : closes b = true) (l : List α) :
    R.match? (u ++ b :: l) = if R.isMatch (u ++ [b]) then some (u ++ [b]) else none := by
  rw [match?, upTo_block hu hb, Option.filter_some]

theorem match?_of_isMatch {m : List α} (h : R.isMatch m = true) (l : List α) :
    R.match? (m ++ l) = some m := by
  obtain ⟨u, b, rfl, hu, hb⟩ := R.block h
  rw [← List.append_cons, match?_block hu hb, if_pos h]

theorem match?_of_not_isMatch {u : List α} {b : α} (hu : Open closes u) (hb : closes b = true)
    (h : R.isMatch (u ++ [b]) = false) (l : List α) : R.match? (u ++ b :: l) = none := by
  rw [match?_block hu hb, if_neg (by simp [h])]

theorem isMatch_nil : R.isMatch [] = false := by
  by_contra h
  exact (R.block (Bool.of_not_eq_false h)).ne_nil rfl

theorem replaceFrom_skip (x l : List α) : R.replaceFrom x.length (x ++ l) = R.replace l := by
  induction x with
  | nil => rfl
  | cons a x ih => exact ih

theorem replace_of_open {l : List α} (h : Open closes l) : R.replace l = l := by
  induction l with
  | nil => rfl
  | cons a l ih =>
    rw [replace, replaceFrom, match?_of_open h]
    exact congrArg (a :: ·) (ih h.of_cons)

theorem replace_of_isMatch {m : List α} (h : R.isMatch m = true) (l : List α) :
    R.replace (m ++ l) = R.result m ++ R.replace l := by
  have hmatch := match?_of_isMatch h l
  obtain ⟨a, m, rfl⟩ := List.exists_cons_of_ne_nil (match?_ne_nil hmatch)
  rw [List.cons_append] at hmatch
  rw [List.cons_append, replace, replaceFrom, hmatch]
  exact congrArg (R.result (a :: m) ++ ·) (R.replaceFrom_skip m l)

theorem replace_of_no_match {a : α} {l : List α} (h : R.match? (a :: l) = none) :
    R.replace (a :: l) = a :: R.replace l := by
  rw [replace, replaceFrom, h]
  rfl

theorem first_of_isMatch {m : List α} (h : R.isMatch m = true) : R.first m = some ([], m) := by
  cases m with
  | nil => rw [isMatch_nil] at h; cases h
  | cons a m => rw [first, if_pos h]

theorem first_cons {a : α} {l : List α} (h : R.isMatch (a :: l) = false) :
    R.first (a :: l) = (R.first l).map (Prod.map (a :: ·) id) := by
  rw [first, if_neg (by simp [h])]

theorem inBlock_of_isMatch {m : List α} (h : R.isMatch m = true) : R.inBlock m = R.result m := by
  rw [inBlock, first_of_isMatch h]
  rfl

theorem inBlock_cons {a : α} {l : List α} (h : R.isMatch (a :: l) = false) :
    R.inBlock (a :: l) = a :: R.inBlock l := by
  rw [inBlock, inBlock, first_cons h]
  cases R.first l with
  | none => rfl
  | some x => rfl

/-- The replacement goes block by block. -/
theorem replace_block {u : List α} {b : α} (hu : Open closes u) (hb : closes b = true)
    (l : List α) : R.replace (u ++ b :: l) = R.inBlock (u ++ [b]) ++ R.replace l := by
  induction u with
  | nil =>
    cases h : R.isMatch [b] with
    | true =>
      rw [List.nil_append, List.nil_append, inBlock_of_isMatch h]
      exact replace_of_isMatch h l
    | false =>
      have hmatch := match?_of_not_isMatch (u := []) hu hb h l
      rw [List.nil_append, List.nil_append, inBlock_cons h]
      exact replace_of_no_match hmatch
  | cons a u ih =>
    cases h : R.isMatch (a :: u ++ [b]) with
    | true => rw [List.append_cons, replace_of_isMatch h, inBlock_of_isMatch h]
    | false =>
      have hmatch := match?_of_not_isMatch hu hb h l
      rw [List.cons_append] at h hmatch ⊢
      rw [replace_of_no_match hmatch, ih hu.of_cons, List.cons_append, inBlock_cons h,
        List.cons_append]

/-! ### The longest match -/

theorem first_spec {l u m : List α} (h : R.first l = some (u, m)) :
    l = u ++ m ∧ R.isMatch m = true ∧ ∀ m', m' <:+ l → R.isMatch m' = true → m' <:+ m := by
  induction l generalizing u with
  | nil => cases h
  | cons a l ih =>
    cases hmatch : R.isMatch (a :: l) with
    | true =>
      rw [first_of_isMatch hmatch] at h
      cases h
      exact ⟨rfl, hmatch, fun m' hm' _ => hm'⟩
    | false =>
      rw [first_cons hmatch] at h
      obtain ⟨⟨u', m'⟩, hl, heq⟩ := Option.map_eq_some_iff.mp h
      cases heq
      obtain ⟨rfl, hm, hlongest⟩ := ih hl
      refine ⟨rfl, hm, fun m' hm' hmatch' => ?_⟩
      rcases List.suffix_cons_iff.mp hm' with rfl | hm'
      · exact absurd (hmatch.symm.trans hmatch') Bool.false_ne_true
      · exact hlongest m' hm' hmatch'

theorem first_eq_none_iff {l : List α} :
    R.first l = none ↔ ∀ m, m <:+ l → R.isMatch m = false := by
  induction l with
  | nil =>
    constructor
    · intro _ m hm
      rw [List.suffix_nil.mp hm, isMatch_nil]
    · exact fun _ => rfl
  | cons a l ih =>
    cases hmatch : R.isMatch (a :: l) with
    | true =>
      rw [first_of_isMatch hmatch]
      constructor
      · intro h
        cases h
      · intro h
        exact absurd ((h _ List.suffix_rfl).symm.trans hmatch) Bool.false_ne_true
    | false =>
      rw [first_cons hmatch, Option.map_eq_none_iff, ih]
      refine ⟨fun h m hm => ?_, fun h m hm => h m (hm.trans (List.suffix_cons a l))⟩
      rcases List.suffix_cons_iff.mp hm with rfl | hm
      · exact hmatch
      · exact h m hm

theorem isMatch_restrict {p : List α → Bool} {m : List α} :
    (R.restrict p).isMatch m = (R.isMatch m && p m) := rfl

/-- Where the longest match is one of those of the restriction, it is its longest one. -/
theorem first_restrict {p : List α → Bool} {l u m : List α} (h : R.first l = some (u, m))
    (hp : p m = true) : (R.restrict p).first l = some (u, m) := by
  obtain ⟨rfl, hm, hlongest⟩ := first_spec h
  cases h' : (R.restrict p).first (u ++ m) with
  | none =>
    have hno := first_eq_none_iff.mp h' m (List.suffix_append u m)
    rw [isMatch_restrict, hm, hp] at hno
    cases hno
  | some x =>
    obtain ⟨u', m'⟩ := x
    obtain ⟨heq, hm', hlongest'⟩ := first_spec h'
    have hsuffix : m' <:+ m :=
      hlongest m' (heq ▸ List.suffix_append u' m') (Bool.and_eq_true_iff.mp hm').1
    have hsuffix' : m <:+ m' :=
      hlongest' m (List.suffix_append u m) (Bool.and_eq_true_iff.mpr ⟨hm, hp⟩)
    obtain rfl := hsuffix.eq_of_length (Nat.le_antisymm hsuffix.length_le hsuffix'.length_le)
    rw [List.append_cancel_right heq]

theorem first_restrict_of_none {p : List α → Bool} {l : List α} (h : R.first l = none) :
    (R.restrict p).first l = none := by
  refine first_eq_none_iff.mpr fun m hm => ?_
  rw [isMatch_restrict, first_eq_none_iff.mp h m hm, Bool.false_and]

/-- A longest match of the restriction that is not the longest match is a proper end of it. -/
theorem exists_append_of_first {p : List α → Bool} {l u m u' m' : List α}
    (h : R.first l = some (u, m)) (hp : p m = false)
    (h' : (R.restrict p).first l = some (u', m')) :
    ∃ a w, m = a :: w ++ m' ∧ u' = u ++ a :: w := by
  obtain ⟨rfl, hm, hlongest⟩ := first_spec h
  obtain ⟨heq, hm', -⟩ := first_spec h'
  obtain ⟨hm', hp'⟩ := Bool.and_eq_true_iff.mp hm'
  obtain ⟨w, rfl⟩ := hlongest m' (heq ▸ List.suffix_append u' m') hm'
  cases w with
  | nil => exact absurd (hp.symm.trans hp') Bool.false_ne_true
  | cons a w =>
    rw [← List.append_assoc] at heq
    exact ⟨a, w, rfl, (List.append_cancel_right heq).symm⟩

theorem inBlock_of_first {l u m : List α} (h : R.first l = some (u, m)) :
    R.inBlock l = u ++ R.result m := by
  rw [inBlock, h]

theorem inBlock_of_none {l : List α} (h : R.first l = none) : R.inBlock l = l := by
  rw [inBlock, h]

theorem inBlock_of_value {l : List α} (h : ∀ x, R.first l = some x → R.value x.2 = none) :
    R.inBlock l = l := by
  cases hfirst : R.first l with
  | none => exact inBlock_of_none hfirst
  | some x =>
    rw [inBlock_of_first hfirst, result, h x hfirst, Option.getD_none]
    exact (first_spec hfirst).1.symm

/-- A list with no match that has a value is left alone. -/
theorem replace_eq_self {l : List α}
    (h : ∀ m, m <:+: l → R.isMatch m = true → R.value m = none) : R.replace l = l := by
  induction l using blocks_induction closes with
  | last l hopen => exact replace_of_open hopen
  | block u b l hu hb ih =>
    have hblock : R.inBlock (u ++ [b]) = u ++ [b] := by
      refine inBlock_of_value fun x hx => ?_
      obtain ⟨heq, hm, -⟩ := first_spec hx
      exact h x.2 ⟨x.1, l, by rw [← heq, ← List.append_cons]⟩ hm
    have hrest : R.replace l = l := ih fun m hm =>
      h m (hm.trans ⟨u ++ [b], [], by rw [List.append_nil, ← List.append_cons]⟩)
    rw [replace_block hu hb, hblock, hrest, ← List.append_cons]

/-- Where the longest match makes no difference, the rule does what its restriction does. -/
theorem Confined.inBlock_eq {p : List α → Bool} {l : List α} (h : R.Confined p l) :
    (R.restrict p).inBlock l = R.inBlock l := by
  cases hfirst : R.first l with
  | none => rw [inBlock_of_none hfirst, inBlock_of_none (first_restrict_of_none hfirst)]
  | some x =>
    cases hp : p x.2 with
    | true => rw [inBlock_of_first hfirst, inBlock_of_first (first_restrict hfirst hp)]; rfl
    | false =>
      obtain ⟨hvalue, hvalue'⟩ := h x hfirst hp
      rw [inBlock_of_value (R := R), inBlock_of_value (R := R.restrict p) hvalue']
      intro y hy
      rw [hfirst] at hy
      cases hy
      exact hvalue

/-! ### A rule and its restriction -/

theorem result_eq_of_value {m : List α} (h : R.value m = none) : R.result m = m := by
  rw [result, h, Option.getD_none]

theorem mem_of_mem_inBlock {l : List α} {a : α} (h : a ∈ R.inBlock l) :
    a ∈ l ∨ ∃ u m v, R.first l = some (u, m) ∧ R.value m = some v ∧ a ∈ v := by
  cases hfirst : R.first l with
  | none =>
    rw [inBlock_of_none hfirst] at h
    exact .inl h
  | some x =>
    obtain ⟨heq, -, -⟩ := first_spec hfirst
    rw [inBlock_of_first hfirst] at h
    rcases List.mem_append.mp h with h | h
    · exact .inl (heq ▸ List.mem_append_left _ h)
    · cases hvalue : R.value x.2 with
      | none =>
        rw [result_eq_of_value hvalue] at h
        exact .inl (heq ▸ List.mem_append_right _ h)
      | some v =>
        rw [result, hvalue, Option.getD_some] at h
        exact .inr ⟨x.1, x.2, v, rfl, hvalue, h⟩

/-- What is in the list after the replacement was there before, or is new. -/
theorem mem_of_mem_replace {l : List α} {a : α} (h : a ∈ R.replace l) :
    a ∈ l ∨ ∃ m v, m <:+: l ∧ R.isMatch m = true ∧ R.value m = some v ∧ a ∈ v := by
  induction l using blocks_induction closes with
  | last l hopen =>
    rw [replace_of_open hopen] at h
    exact .inl h
  | block u b l hu hb ih =>
    rw [replace_block hu hb] at h
    rcases List.mem_append.mp h with h | h
    · rw [List.append_cons]
      rcases mem_of_mem_inBlock h with h | ⟨x, m, v, hfirst, hvalue, h⟩
      · exact .inl (List.mem_append_left _ h)
      · obtain ⟨heq, hm, -⟩ := first_spec hfirst
        exact .inr ⟨m, v, ⟨x, l, by rw [heq]⟩, hm, hvalue, h⟩
    · rcases ih h with h | ⟨m, v, hm, hrest⟩
      · exact .inl (List.mem_append_right _ (List.mem_cons_of_mem b h))
      · refine .inr ⟨m, v, hm.trans ⟨u ++ [b], [], ?_⟩, hrest⟩
        rw [List.append_nil, ← List.append_cons]

theorem isMatch_of_closes {u l : List α} {b : α} (hb : closes b = true) (hl : l ≠ []) :
    R.isMatch (u ++ b :: l) = false := by
  by_contra h
  have hblock := R.block (Bool.of_not_eq_false h)
  rw [List.append_cons] at hblock
  exact not_open_block hb (hblock.open_of_append hl)

/-- What comes before a closing element does not matter for what comes after it. -/
theorem first_append {u l : List α} {b : α} (hb : closes b = true) (hl : l ≠ []) :
    R.first (u ++ b :: l) = (R.first l).map (Prod.map (u ++ b :: ·) id) := by
  induction u with
  | nil => exact first_cons (isMatch_of_closes (u := []) hb hl)
  | cons a u ih =>
    have hno : R.isMatch (a :: (u ++ b :: l)) = false := isMatch_of_closes (u := a :: u) hb hl
    rw [List.cons_append, first_cons hno, ih, Option.map_map]
    rfl

theorem confined_append_iff {p : List α → Bool} {u l : List α} {b : α} (hb : closes b = true)
    (hl : l ≠ []) : R.Confined p (u ++ b :: l) ↔ R.Confined p l := by
  rw [Confined, Confined, first_append hb hl, first_append hb hl]
  simp only [Option.map_eq_some_iff, forall_exists_index, and_imp]
  constructor
  · intro h x hx hp
    obtain ⟨hvalue, hvalue'⟩ := h _ x hx rfl hp
    exact ⟨hvalue, fun y hy => hvalue' (Prod.map (u ++ b :: ·) id y) y hy rfl⟩
  · rintro h _ x hx rfl hp
    obtain ⟨hvalue, hvalue'⟩ := h x hx hp
    refine ⟨hvalue, ?_⟩
    rintro _ y hy rfl
    exact hvalue' y hy

theorem confined_of_open {p : List α → Bool} {l : List α} (h : Open closes l) :
    R.Confined p l := by
  intro x hx
  obtain ⟨rfl, hm, -⟩ := first_spec hx
  obtain ⟨u, b, heq, -, hb⟩ := R.block hm
  exact absurd (h b (by simp [heq])) (by simp [hb])

/-- What ends in a list ends in its first block or in the rest. -/
theorem forall_confined_block {p : List α → Bool} {u : List α} {b : α} (hu : Open closes u)
    (hb : closes b = true) (l : List α) : (∀ pre, pre <+: u ++ b :: l → R.Confined p pre) ↔
      R.Confined p (u ++ [b]) ∧ ∀ pre, pre <+: l → R.Confined p pre := by
  constructor
  · refine fun h => ⟨h _ ⟨l, (List.append_cons u b l).symm⟩, fun pre hpre => ?_⟩
    cases pre with
    | nil => exact confined_of_open fun _ h => nomatch h
    | cons a pre =>
      rw [← confined_append_iff (u := u) hb (List.cons_ne_nil a pre)]
      exact h _ ((List.prefix_append_right_inj u).mpr (List.cons_prefix_cons.mpr ⟨rfl, hpre⟩))
  · rintro ⟨hblock, hrest⟩ pre ⟨post, hpost⟩
    rcases List.append_eq_append_iff.mp hpost with ⟨t, rfl, -⟩ | ⟨t, rfl, ht⟩
    · exact confined_of_open fun a ha => hu a (List.mem_append_left _ ha)
    · cases t with
      | nil => exact confined_of_open (by rwa [List.append_nil])
      | cons c t =>
        cases ht
        by_cases hnil : t = []
        · rwa [hnil]
        · exact (confined_append_iff hb hnil).mpr (hrest t (List.prefix_append t post))

/-- Where the values are new, it shows in the elements of a block whether the longest match makes a
difference. -/
theorem confined_of_mem_iff {p : List α → Bool} {l : List α} (hnodup : l.Nodup)
    (hnew : ∀ {m v}, R.value m = some v → ∀ a ∈ v, a ∉ l)
    (h : ∀ a ∈ l, a ∈ (R.restrict p).inBlock l ↔ a ∈ R.inBlock l) : R.Confined p l := by
  rintro ⟨u, m⟩ hfirst hp
  obtain ⟨rfl, hm, -⟩ := first_spec hfirst
  have hdisjoint := List.disjoint_of_nodup_append hnodup
  have hvalue : R.value m = none := by
    obtain ⟨a, t, rfl⟩ := List.exists_cons_of_ne_nil (R.block hm).ne_nil
    -- the first element of the match stays where the restriction is applied
    have hstays : a ∈ (R.restrict p).inBlock (u ++ a :: t) := by
      cases hfirst' : (R.restrict p).first (u ++ a :: t) with
      | none =>
        rw [inBlock_of_none hfirst']
        exact List.mem_append_right _ (List.mem_cons_self ..)
      | some y =>
        obtain ⟨a', w, heq, hu'⟩ := exists_append_of_first hfirst hp hfirst'
        cases heq
        rw [inBlock_of_first hfirst', hu']
        exact List.mem_append_left _ (by simp)
    have hthere := (h a (List.mem_append_right _ (List.mem_cons_self ..))).mp hstays
    rw [inBlock_of_first hfirst] at hthere
    cases hv : R.value (a :: t) with
    | none => rfl
    | some v =>
      rw [result, hv, Option.getD_some] at hthere
      rcases List.mem_append.mp hthere with hu | hmem
      · exact absurd (List.mem_cons_self ..) (hdisjoint hu)
      · exact absurd (List.mem_append_right _ (List.mem_cons_self ..)) (hnew hv a hmem)
  refine ⟨hvalue, ?_⟩
  rintro ⟨u', m'⟩ hfirst'
  obtain ⟨heq, hm', -⟩ := first_spec hfirst'
  cases hv : R.value m' with
  | none => rfl
  | some v =>
    obtain ⟨b, t, rfl⟩ := List.exists_cons_of_ne_nil ((R.restrict p).block hm').ne_nil
    have hthere : b ∈ R.inBlock (u ++ m) := by
      rw [inBlock_of_first hfirst, result_eq_of_value hvalue, heq]
      exact List.mem_append_right _ (List.mem_cons_self ..)
    have hb : b ∈ u ++ m := heq ▸ List.mem_append_right _ (List.mem_cons_self ..)
    have hstays := (h b hb).mpr hthere
    rw [inBlock_of_first hfirst', result, show (R.restrict p).value (b :: t) = some v from hv,
      Option.getD_some] at hstays
    rcases List.mem_append.mp hstays with hu' | hmem
    · rw [heq] at hnodup
      exact absurd (List.mem_cons_self ..) (List.disjoint_of_nodup_append hnodup hu')
    · exact absurd hb (hnew hv b hmem)

/-- **A rule has the effect of its restriction** just when no longest match makes a difference,
where the values are told from what is replaced. -/
theorem replace_restrict_eq_iff {p : List α → Bool} {l : List α} (hnodup : l.Nodup)
    (hnew : ∀ {m v}, R.value m = some v → ∀ a ∈ v, a ∉ l) :
    (R.restrict p).replace l = R.replace l ↔ ∀ pre, pre <+: l → R.Confined p pre := by
  induction l using blocks_induction closes with
  | last l hopen =>
    rw [replace_of_open hopen, replace_of_open hopen]
    refine iff_of_true rfl fun pre hpre => confined_of_open fun a ha => ?_
    exact hopen a (hpre.subset ha)
  | block u b l hu hb ih =>
    have hsplit : (u ++ [b] ++ l).Nodup := by rwa [← List.append_cons]
    have hdisjoint := List.disjoint_of_nodup_append hsplit
    have hnewBlock : ∀ {m v}, R.value m = some v → ∀ a ∈ v, a ∉ u ++ [b] := fun hv a ha hin =>
      hnew hv a ha (by rw [List.append_cons]; exact List.mem_append_left _ hin)
    have ih := ih hsplit.of_append_right fun hv a ha hin =>
      hnew hv a ha (List.mem_append_right _ (List.mem_cons_of_mem b hin))
    rw [replace_block hu hb, replace_block hu hb, forall_confined_block hu hb]
    constructor
    · intro heq
      -- an element of the block is not in what the rest becomes
      have hrest : ∀ {S : Rule closes}, S.value = R.value → ∀ a ∈ u ++ [b], a ∉ S.replace l := by
        intro S hS a ha hin
        rcases mem_of_mem_replace hin with hin | ⟨m, v, -, -, hv, hin⟩
        · exact hdisjoint ha hin
        · exact hnewBlock (hS ▸ hv) a hin ha
      have hblock : R.Confined p (u ++ [b]) := by
        refine confined_of_mem_iff hsplit.of_append_left hnewBlock fun a ha => ?_
        have hmem := iff_of_eq (congrArg (a ∈ ·) heq)
        rw [List.mem_append, List.mem_append] at hmem
        simpa only [hrest rfl a ha, hrest (S := R.restrict p) rfl a ha, or_false] using hmem
      rw [hblock.inBlock_eq] at heq
      exact ⟨hblock, ih.mp (List.append_cancel_left heq)⟩
    · rintro ⟨hblock, hrest⟩
      rw [hblock.inBlock_eq, ih.mpr hrest]

end Rule

/-! ### Two rules at once -/

section Both

variable {R S : Rule closes}

open Rule

/-- A block, with its longest match of the first rule replaced if it has a value, and else with that
of the second one. -/
def bothInBlock (R S : Rule closes) (l : List α) : List α :=
  ((R.first l).bind fun x => (R.value x.2).map (x.1 ++ ·)).getD (S.inBlock l)

theorem replaceBothFrom_skip (env : ℕ) (x l : List α) :
    replaceBothFrom R S env x.length (x ++ l) = replaceBothFrom R S (env - x.length) 0 l := by
  induction x generalizing env with
  | nil => rfl
  | cons a x ih =>
    rw [List.length_cons, List.cons_append, replaceBothFrom, ih, Nat.sub_sub, Nat.add_comm 1]

theorem replaceBoth_of_value {m v : List α} (h : R.isMatch m = true) (hv : R.value m = some v)
    (l : List α) : replaceBoth R S (m ++ l) = v ++ replaceBoth R S l := by
  have hmatch := match?_of_isMatch h l
  obtain ⟨a, m, rfl⟩ := List.exists_cons_of_ne_nil (match?_ne_nil hmatch)
  rw [List.cons_append] at hmatch
  rw [List.cons_append, replaceBoth, replaceBothFrom, if_pos rfl, hmatch]
  simp only [Option.bind_some, hv, Option.map_some, List.length_cons, Nat.add_sub_cancel]
  rw [replaceBothFrom_skip, Nat.sub_self, replaceBoth]

theorem replaceBoth_of_no_value {m : List α} (h : R.isMatch m = true) (hv : R.value m = none)
    (l : List α) : replaceBoth R S (m ++ l) = replaceBothFrom R S m.length 0 (m ++ l) := by
  have hmatch := match?_of_isMatch h l
  obtain ⟨a, m, rfl⟩ := List.exists_cons_of_ne_nil (match?_ne_nil hmatch)
  rw [List.cons_append] at hmatch
  rw [List.cons_append, replaceBoth, replaceBothFrom, if_pos rfl, hmatch, replaceBothFrom,
    if_neg (by simp)]
  simp only [Option.bind_some, hv, Option.map_none, Option.map_some, Option.getD_some,
    Option.bind_none, Option.getD_none]

theorem replaceBothFrom_of_isMatch {env : ℕ} {m l : List α}
    (h0 : (if env = 0 then R.match? (m ++ l) else none) = none) (h : S.isMatch m = true) :
    replaceBothFrom R S env 0 (m ++ l) =
      S.result m ++ replaceBothFrom R S (env - m.length) 0 l := by
  have hmatch := match?_of_isMatch h l
  obtain ⟨a, m, rfl⟩ := List.exists_cons_of_ne_nil (match?_ne_nil hmatch)
  rw [List.cons_append] at h0 hmatch
  rw [List.cons_append, replaceBothFrom, h0, hmatch]
  simp only [Option.bind_none, Option.map_none, Option.getD_none, List.length_cons,
    Nat.add_sub_cancel]
  rw [replaceBothFrom_skip, Nat.sub_sub, Nat.add_comm 1]

theorem replaceBothFrom_of_no_match {env : ℕ} {a : α} {l : List α}
    (h0 : (if env = 0 then R.match? (a :: l) else none) = none) (h : S.match? (a :: l) = none) :
    replaceBothFrom R S env 0 (a :: l) = a :: replaceBothFrom R S (env - 1) 0 l := by
  rw [replaceBothFrom, h0, h]
  rfl

theorem replaceBothFrom_of_open {env : ℕ} {l : List α} (h : Open closes l) :
    replaceBothFrom R S env 0 l = l := by
  induction l generalizing env with
  | nil => rfl
  | cons a l ih =>
    rw [replaceBothFrom_of_no_match (by rw [match?_of_open h, ite_self]) (match?_of_open h),
      ih h.of_cons]

/-- In a match of the first rule that has no value, only the second rule counts. -/
theorem replaceBothFrom_block {u : List α} {b : α} (hu : Open closes u) (hb : closes b = true)
    (l : List α) : replaceBothFrom R S (u.length + 1) 0 (u ++ b :: l) =
      S.inBlock (u ++ [b]) ++ replaceBoth R S l := by
  induction u with
  | nil =>
    cases h : S.isMatch [b] with
    | true =>
      rw [List.nil_append, List.nil_append, inBlock_of_isMatch h]
      exact replaceBothFrom_of_isMatch (if_neg (Nat.succ_ne_zero _)) h
    | false =>
      have hmatch := match?_of_not_isMatch (u := []) hu hb h l
      rw [List.nil_append, List.nil_append, inBlock_cons h]
      exact replaceBothFrom_of_no_match (if_neg (Nat.succ_ne_zero _)) hmatch
  | cons a u ih =>
    cases h : S.isMatch (a :: u ++ [b]) with
    | true =>
      rw [List.append_cons, replaceBothFrom_of_isMatch (if_neg (Nat.succ_ne_zero _)) h,
        inBlock_of_isMatch h, List.length_append, List.length_singleton, Nat.sub_self, replaceBoth]
    | false =>
      have hmatch := match?_of_not_isMatch hu hb h l
      rw [List.cons_append] at h hmatch ⊢
      rw [replaceBothFrom_of_no_match (if_neg (Nat.succ_ne_zero _)) hmatch, List.length_cons,
        Nat.succ_sub_one, ih hu.of_cons, List.cons_append, inBlock_cons h, List.cons_append]

theorem bothInBlock_of_value {l u m v : List α} (h : R.first l = some (u, m))
    (hv : R.value m = some v) : bothInBlock R S l = u ++ v := by
  simp only [bothInBlock, h, Option.bind_some, hv, Option.map_some, Option.getD_some]

theorem bothInBlock_of_no_value {l : List α} (h : ∀ x, R.first l = some x → R.value x.2 = none) :
    bothInBlock R S l = S.inBlock l := by
  cases hfirst : R.first l with
  | none => simp only [bothInBlock, hfirst, Option.bind_none, Option.getD_none]
  | some x =>
    simp only [bothInBlock, hfirst, Option.bind_some, h x hfirst, Option.map_none,
      Option.getD_none]

theorem bothInBlock_of_none {l : List α} (h : R.first l = none) :
    bothInBlock R S l = S.inBlock l := by
  rw [bothInBlock, h, Option.bind_none, Option.getD_none]

theorem bothInBlock_cons {a : α} {l : List α} (hR : R.isMatch (a :: l) = false)
    (hS : S.isMatch (a :: l) = false) : bothInBlock R S (a :: l) = a :: bothInBlock R S l := by
  rw [bothInBlock, bothInBlock, first_cons hR, inBlock_cons hS]
  cases R.first l with
  | none => rfl
  | some x =>
    cases hv : R.value x.2 with
    | none => simp [hv]
    | some v => simp [hv]

theorem replaceBoth_block_of_isMatch {u : List α} {b : α} (hu : Open closes u)
    (hb : closes b = true) (l : List α) (h : R.isMatch (u ++ [b]) = true) :
    replaceBoth R S (u ++ b :: l) = bothInBlock R S (u ++ [b]) ++ replaceBoth R S l := by
  cases hv : R.value (u ++ [b]) with
  | some v =>
    rw [List.append_cons, replaceBoth_of_value h hv, bothInBlock_of_value (first_of_isMatch h) hv,
      List.nil_append]
  | none =>
    have hnone : ∀ x, R.first (u ++ [b]) = some x → R.value x.2 = none := by
      intro x hx
      rw [first_of_isMatch h] at hx
      cases hx
      exact hv
    rw [bothInBlock_of_no_value hnone, List.append_cons, replaceBoth_of_no_value h hv,
      ← List.append_cons, List.length_append, List.length_singleton, replaceBothFrom_block hu hb]

theorem replaceBoth_block_of_isMatch_right {u : List α} {b : α} (hu : Open closes u)
    (hb : closes b = true) (l : List α) (hnone : R.first (u ++ [b]) = none)
    (h : S.isMatch (u ++ [b]) = true) :
    replaceBoth R S (u ++ b :: l) = bothInBlock R S (u ++ [b]) ++ replaceBoth R S l := by
  have hmatch : R.match? (u ++ [b] ++ l) = none := by
    rw [← List.append_cons]
    exact match?_of_not_isMatch hu hb (first_eq_none_iff.mp hnone _ List.suffix_rfl) l
  rw [bothInBlock_of_none hnone, inBlock_of_isMatch h, List.append_cons, replaceBoth,
    replaceBothFrom_of_isMatch (by rw [if_pos rfl, hmatch]) h, Nat.zero_sub, replaceBoth]

/-- Both rules at once go block by block, where no match of the first rule is the end of one of the
second. -/
theorem replaceBoth_block (hdistinct : ∀ {m s}, S.isMatch m = true → s <:+ m → R.isMatch s = false)
    {u : List α} {b : α} (hu : Open closes u) (hb : closes b = true) (l : List α) :
    replaceBoth R S (u ++ b :: l) = bothInBlock R S (u ++ [b]) ++ replaceBoth R S l := by
  induction u with
  | nil =>
    cases hR : R.isMatch [b] with
    | true => exact replaceBoth_block_of_isMatch hu hb l hR
    | false =>
      have hnone : R.first [b] = none := by
        rw [first_cons hR]
        rfl
      cases hS : S.isMatch [b] with
      | true => exact replaceBoth_block_of_isMatch_right hu hb l hnone hS
      | false =>
        have hmatchR : R.match? (b :: l) = none := match?_of_not_isMatch (u := []) hu hb hR l
        have hmatchS : S.match? (b :: l) = none := match?_of_not_isMatch (u := []) hu hb hS l
        rw [List.nil_append, List.nil_append, bothInBlock_of_none hnone, inBlock_cons hS]
        exact replaceBothFrom_of_no_match (by rw [if_pos rfl, hmatchR]) hmatchS
  | cons a u ih =>
    cases hR : R.isMatch (a :: u ++ [b]) with
    | true => exact replaceBoth_block_of_isMatch hu hb l hR
    | false =>
      cases hS : S.isMatch (a :: u ++ [b]) with
      | true =>
        exact replaceBoth_block_of_isMatch_right hu hb l
          (first_eq_none_iff.mpr fun m hm => hdistinct hS hm) hS
      | false =>
        have hmatchR := match?_of_not_isMatch hu hb hR l
        have hmatchS := match?_of_not_isMatch hu hb hS l
        rw [List.cons_append] at hmatchR hmatchS hR hS ⊢
        rw [replaceBoth, replaceBothFrom_of_no_match (by rw [if_pos rfl, hmatchR]) hmatchS,
          List.cons_append, bothInBlock_cons hR hS]
        exact congrArg (a :: ·) (ih hu.of_cons)

/-! ### One rule after the other -/

/-- Elements no match begins at stay. -/
theorem replace_append_of_no_match {s l : List α}
    (h : ∀ s₁ a s₂, s = s₁ ++ a :: s₂ → R.match? (a :: s₂ ++ l) = none) :
    R.replace (s ++ l) = s ++ R.replace l := by
  induction s with
  | nil => rfl
  | cons a s ih =>
    have hno : R.match? (a :: (s ++ l)) = none := h [] a s rfl
    rw [List.cons_append, replace_of_no_match hno, List.cons_append]
    refine congrArg (a :: ·) (ih fun s₁ c s₂ hs => h (a :: s₁) c s₂ ?_)
    rw [hs, List.cons_append]

/-- In a list without duplicates, only one element comes right after another. -/
theorem eq_of_follows {l x y r t : List α} {a b c : α} (hnodup : l.Nodup)
    (h : l = x ++ a :: b :: r) (h' : l = y ++ a :: c :: t) : b = c := by
  rw [h] at hnodup h'
  have hx : a ∉ x := fun hin =>
    List.disjoint_of_nodup_append hnodup hin (List.mem_cons_self ..)
  have hd : a ∉ b :: r := (List.nodup_cons.mp hnodup.of_append_right).1
  obtain ⟨-, -, htail⟩ := (List.append_cons_inj_of_notMem hx hd).mp h'
  exact (List.cons.inj htail).1

variable [DecidableEq α]

/-- No match that is in the list as it was begins before a value that is put in for a match of it,
or in that value, and goes on after it. -/
theorem match?_of_value {l pre x m l₂ v t : List α} (hnodup : l.Nodup)
    (hl : l = pre ++ (x ++ m) ++ l₂) (hx : Open closes x) (hm : m ≠ []) (hv : ∀ a ∈ v, a ∉ l)
    (ht : ∀ a ∈ t, a ∈ l → a ∈ l₂) {s₁ s₂ : List α} {a : α} (hs : x ++ v = s₁ ++ a :: s₂) :
    (S.restrict (isPart l)).match? (a :: s₂ ++ t) = none := by
  by_contra hsome
  obtain ⟨m₂, hm₂⟩ := Option.ne_none_iff_exists'.mp hsome
  obtain ⟨hmatch, post, hpost⟩ := match?_spec hm₂
  have hblock := (S.restrict _).block hmatch
  obtain ⟨A, B, hpart⟩ : m₂ <:+: l := isPart_iff.mp (Bool.and_eq_true_iff.mp hmatch).2
  have hmem : ∀ c ∈ m₂, c ∈ l := fun c hc => hpart ▸ (by simp [hc])
  have ha : a ∈ m₂ := by
    obtain ⟨c, m₂, rfl⟩ := List.exists_cons_of_ne_nil hblock.ne_nil
    rw [List.cons_append, List.cons_append] at hpost
    rw [(List.cons.inj hpost).1]
    exact List.mem_cons_self ..
  -- the match begins before the value
  obtain ⟨c', rfl, rfl⟩ : ∃ c', x = s₁ ++ a :: c' ∧ s₂ = c' ++ v := by
    rcases List.append_eq_append_iff.mp hs with ⟨c, rfl, rfl⟩ | ⟨c, rfl, hc⟩
    · exact absurd (hmem a ha) (hv a (by simp))
    · cases c with
      | nil => exact absurd (hmem a ha) (hv a (by rw [List.nil_append] at hc; simp [← hc]))
      | cons c c' =>
        cases hc
        exact ⟨c', rfl, rfl⟩
  have hopen : ∀ {m'}, m' <+: a :: c' → m' ≠ m₂ := by
    rintro m' hm' rfl
    obtain ⟨u, b, rfl, -, hb⟩ := hblock
    refine not_open_block (u := u) hb fun d hd => hx d ?_
    exact List.mem_append_right _ (hm'.subset hd)
  -- and does not end there, and so comes to what follows the value
  obtain ⟨y, d, rfl, hy⟩ : ∃ y d, m₂ = a :: c' ++ y :: d ∧ y ∈ v ++ t := by
    have hpost : m₂ ++ post = a :: c' ++ (v ++ t) := by rw [hpost]; simp
    rcases List.append_eq_append_iff.mp hpost with ⟨d, heq, -⟩ | ⟨d, heq, hd⟩
    · exact absurd rfl (hopen (heq ▸ List.prefix_append m₂ d))
    · cases d with
      | nil =>
        rw [List.append_nil] at heq
        exact absurd heq.symm (hopen List.prefix_rfl)
      | cons y d => exact ⟨y, d, heq, by rw [hd]; exact List.mem_cons_self ..⟩
  -- but in the list the match that is gone follows
  obtain ⟨e, m, rfl⟩ := List.exists_cons_of_ne_nil hm
  obtain ⟨w, z, hw⟩ : ∃ w z, a :: c' = w ++ [z] := by
    obtain ⟨w, z, hw⟩ := (List.eq_nil_or_concat' (a :: c')).resolve_left (List.cons_ne_nil a c')
    exact ⟨w, z, hw⟩
  have hye : y = e := by
    refine eq_of_follows (x := A ++ w) (y := pre ++ s₁ ++ w) (a := z) (r := d ++ B)
      (t := m ++ l₂) hnodup ?_ ?_
    · rw [← hpart, hw]
      simp
    · rw [hl, hw]
      simp
  subst hye
  have hin : y ∈ l := by rw [hl]; simp
  rcases List.mem_append.mp hy with hy | hy
  · exact hv y hy hin
  · rw [hl] at hnodup
    exact List.disjoint_of_nodup_append hnodup (by simp) (ht y hy hin)

/-- **One rule after the other is both at once**, for the matches of the second rule that are in the
list as it was. -/
theorem replace_restrict_replace {l : List α} (hnodup : l.Nodup)
    (hnew : ∀ {m v}, R.value m = some v → ∀ a ∈ v, a ∉ l)
    (hdistinct : ∀ {m s}, S.isMatch m = true → s <:+ m → R.isMatch s = false) :
    (S.restrict (isPart l)).replace (R.replace l) = replaceBoth R S l := by
  have key : ∀ l₂, l₂ <:+ l →
      (S.restrict (isPart l)).replace (R.replace l₂) = replaceBoth R S l₂ := by
    intro l₂
    induction l₂ using blocks_induction closes with
    | last l₂ hopen =>
      intro _
      rw [replace_of_open hopen, replace_of_open hopen, replaceBoth, replaceBothFrom_of_open hopen]
    | block u b l₂ hu hb ih =>
      intro hsuffix
      have hsuffix₂ : l₂ <:+ l := (suffix_append_cons u b l₂).trans hsuffix
      obtain ⟨pre, hpre⟩ := hsuffix
      have hpre : l = pre ++ (u ++ [b]) ++ l₂ := by rw [← hpre]; simp
      -- a match without a value leaves the block, and all that is in it is in the list
      have hstays : (∀ x, R.first (u ++ [b]) = some x → R.value x.2 = none) →
          (S.restrict (isPart l)).replace (R.inBlock (u ++ [b]) ++ R.replace l₂) =
            bothInBlock R S (u ++ [b]) ++ replaceBoth R S l₂ := by
        intro hnone
        have hconfined : S.Confined (isPart l) (u ++ [b]) := by
          intro x hx hp
          obtain ⟨heq, -, -⟩ := first_spec hx
          refine absurd (isPart_iff.mpr ?_) (ne_true_of_eq_false hp)
          exact ⟨pre ++ x.1, l₂, by rw [hpre, heq]; simp⟩
        rw [inBlock_of_value hnone, bothInBlock_of_no_value hnone, ← List.append_cons,
          replace_block hu hb, hconfined.inBlock_eq, ih hsuffix₂]
      rw [replace_block hu hb, replaceBoth_block hdistinct hu hb]
      cases hfirst : R.first (u ++ [b]) with
      | none => exact hstays fun x hx => by rw [hfirst] at hx; cases hx
      | some x =>
        cases hvalue : R.value x.2 with
        | none => exact hstays fun y hy => by rw [hfirst] at hy; cases hy; exact hvalue
        | some v =>
          obtain ⟨heq, hm, -⟩ := first_spec hfirst
          rw [inBlock_of_first hfirst, result, hvalue, Option.getD_some,
            bothInBlock_of_value (u := x.1) (m := x.2) hfirst hvalue, replace_append_of_no_match,
            ih hsuffix₂]
          intro s₁ a s₂ hs
          refine match?_of_value hnodup (heq ▸ hpre) ?_ (R.block hm).ne_nil (hnew hvalue) ?_ hs
          · exact (heq ▸ block_mk hu hb).open_of_append (R.block hm).ne_nil
          · intro a ha hin
            rcases mem_of_mem_replace ha with ha | ⟨m, v, -, -, hv, ha⟩
            · exact ha
            · exact absurd hin (hnew hv a ha)
  exact key l List.suffix_rfl

omit [DecidableEq α] in
theorem nodup_inBlock {l : List α} (hnodup : l.Nodup)
    (hnew : ∀ {m v}, R.value m = some v → ∀ a ∈ v, a ∉ l)
    (hvalues : ∀ {m v}, R.value m = some v → v.Nodup) : (R.inBlock l).Nodup := by
  cases hfirst : R.first l with
  | none => rwa [inBlock_of_none hfirst]
  | some x =>
    obtain ⟨heq, -, -⟩ := first_spec hfirst
    cases hvalue : R.value x.2 with
    | none => rwa [inBlock_of_first hfirst, result_eq_of_value hvalue, ← heq]
    | some v =>
      rw [inBlock_of_first hfirst, result, hvalue, Option.getD_some]
      rw [heq] at hnodup
      refine hnodup.of_append_left.append (hvalues hvalue) fun a ha hin => ?_
      exact hnew hvalue a hin (heq ▸ List.mem_append_left _ ha)

omit [DecidableEq α] in
/-- Fresh values leave the list without duplicates. -/
theorem nodup_replace {l : List α} (hnodup : l.Nodup) (hfresh : R.Fresh l) :
    (R.replace l).Nodup := by
  have key : ∀ l₂, l₂ <:+ l → (R.replace l₂).Nodup := by
    intro l₂
    induction l₂ using blocks_induction closes with
    | last l₂ hopen =>
      intro hsuffix
      rw [replace_of_open hopen]
      exact hnodup.sublist hsuffix.sublist
    | block u b l₂ hu hb ih =>
      intro hsuffix
      have hsplit : (u ++ [b] ++ l₂).Nodup := by
        rw [← List.append_cons]
        exact hnodup.sublist hsuffix.sublist
      have hsuffix₂ : l₂ <:+ l := (suffix_append_cons u b l₂).trans hsuffix
      have hpart : ∀ {x m}, x ++ m = u ++ [b] → m <:+: l := by
        intro x m heq
        refine List.IsInfix.trans ⟨x, l₂, ?_⟩ hsuffix.isInfix
        rw [heq, ← List.append_cons]
      have hblock : u ++ [b] <:+: l := hpart (List.nil_append _)
      have hold : ∀ a ∈ u ++ [b], a ∉ R.replace l₂ := by
        intro a ha hin
        rcases mem_of_mem_replace hin with hin | ⟨m, v, -, -, hv, hin⟩
        · exact List.disjoint_of_nodup_append hsplit ha hin
        · exact hfresh.new hv a hin (hblock.subset ha)
      rw [replace_block hu hb]
      refine List.Nodup.append ?_ (ih hsuffix₂) ?_
      · refine nodup_inBlock hsplit.of_append_left (fun hv a ha hin => ?_) hfresh.nodup
        exact hfresh.new hv a ha (hblock.subset hin)
      · intro a ha hin
        rcases mem_of_mem_inBlock ha with ha | ⟨x, m, v, hfirst, hvalue, hav⟩
        · exact hold a ha hin
        · obtain ⟨heq, hm, -⟩ := first_spec hfirst
          rcases mem_of_mem_replace hin with hin | ⟨m', v', hm', -, hvalue', hav'⟩
          · exact hfresh.new hvalue a hav (hsuffix₂.subset hin)
          · have hsame := hfresh.apart (hpart heq.symm) (hm'.trans hsuffix₂.isInfix) hvalue hvalue'
              a hav hav'
            obtain ⟨c, t, rfl⟩ := List.exists_cons_of_ne_nil (R.block hm).ne_nil
            refine List.disjoint_of_nodup_append hsplit (a := c) ?_ (hm'.subset ?_)
            · exact heq ▸ List.mem_append_right _ (List.mem_cons_self ..)
            · exact hsame ▸ List.mem_cons_self ..
  exact key l List.suffix_rfl

/-- **One rule after the other has the effect of both at once** just when no match of the second
rule that is not in the list as it was makes a difference. -/
theorem replaceBoth_eq_iff {l : List α} (hnodup : l.Nodup) (hfresh : R.Fresh l)
    (hnew : ∀ {m v}, S.value m = some v → ∀ a ∈ v, a ∉ R.replace l)
    (hdistinct : ∀ {m s}, S.isMatch m = true → s <:+ m → R.isMatch s = false) :
    S.replace (R.replace l) = replaceBoth R S l ↔
      ∀ pre, pre <+: R.replace l → S.Confined (isPart l) pre := by
  rw [← replace_restrict_replace hnodup hfresh.new hdistinct, eq_comm]
  exact replace_restrict_eq_iff (nodup_replace hnodup hfresh) hnew

end Both

/-! ### Elements that carry more than a rule looks at -/

section Comap

variable {closes : β → Bool} {R S : Rule closes} {f : α → β} {tag : List α → List β → List α}

/-- The rule for elements a function is applied to; `tag` is what a value is put in as, for a
match. -/
def Rule.comap (R : Rule closes) (f : α → β) (tag : List α → List β → List α) :
    Rule (closes ∘ f) where
  isMatch m := R.isMatch (m.map f)
  value m := (R.value (m.map f)).map (tag m)
  block {m} h := by
    obtain ⟨u, b, heq, hu, hb⟩ := R.block h
    obtain ⟨u', m', rfl, rfl, hm'⟩ := List.map_eq_append_iff.mp heq
    obtain ⟨b', rfl, rfl⟩ := List.map_eq_singleton_iff.mp hm'
    exact ⟨u', b', rfl, fun a ha => hu (f a) (List.mem_map_of_mem ha), hb⟩

theorem upTo_map (l : List α) : upTo closes (l.map f) = (upTo (closes ∘ f) l).map (List.map f) := by
  induction l with
  | nil => rfl
  | cons a l ih =>
    rw [List.map_cons, upTo, upTo, ih, Function.comp_apply]
    split
    · rfl
    · rw [Option.map_map, Option.map_map]
      rfl

theorem match?_comap (tag : List α → List β → List α) (l : List α) :
    R.match? (l.map f) = ((R.comap f tag).match? l).map (List.map f) := by
  rw [Rule.match?, Rule.match?, upTo_map]
  cases upTo (closes ∘ f) l with
  | none => rfl
  | some m =>
    have hmatch : (R.comap f tag).isMatch m = R.isMatch (m.map f) := rfl
    rw [Option.map_some, Option.filter_some, Option.filter_some, hmatch]
    cases R.isMatch (m.map f) with
    | false => rfl
    | true => rfl

theorem result_comap (htag : ∀ m v, (tag m v).map f = v) (m : List α) :
    ((R.comap f tag).result m).map f = R.result (m.map f) := by
  have hvalue : (R.comap f tag).value m = (R.value (m.map f)).map (tag m) := rfl
  rw [Rule.result, Rule.result, hvalue]
  cases R.value (m.map f) with
  | none => rfl
  | some v => exact htag m v

theorem map_replace_comap (htag : ∀ m v, (tag m v).map f = v) (l : List α) :
    ((R.comap f tag).replace l).map f = R.replace (l.map f) := by
  have key : ∀ skip, ((R.comap f tag).replaceFrom skip l).map f = R.replaceFrom skip (l.map f) := by
    induction l with
    | nil => exact fun skip => by cases skip <;> rfl
    | cons a l ih =>
      intro skip
      cases skip with
      | succ skip => exact ih skip
      | zero =>
        rw [List.map_cons, Rule.replaceFrom, Rule.replaceFrom, ← List.map_cons,
          match?_comap tag]
        cases (R.comap f tag).match? (a :: l) with
        | none => exact congrArg (f a :: ·) (ih 0)
        | some m =>
          simp only [Option.map_some, List.map_append, List.length_map]
          rw [result_comap htag, ih]
  exact key 0

theorem map_replaceBoth_comap {tag' : List α → List β → List α}
    (htag : ∀ m v, (tag m v).map f = v) (htag' : ∀ m v, (tag' m v).map f = v) (l : List α) :
    (replaceBoth (R.comap f tag) (S.comap f tag') l).map f = replaceBoth R S (l.map f) := by
  have key : ∀ env skip, (replaceBothFrom (R.comap f tag) (S.comap f tag') env skip l).map f =
      replaceBothFrom R S env skip (l.map f) := by
    induction l with
    | nil => exact fun env skip => by cases skip <;> rfl
    | cons a l ih =>
      intro env skip
      cases skip with
      | succ skip => exact ih (env - 1) skip
      | zero =>
        -- where the first rule does not replace, the second one does what it does
        have hsecond : ∀ env, (match (S.comap f tag').match? (a :: l) with
            | some m => (S.comap f tag').result m ++
                replaceBothFrom (R.comap f tag) (S.comap f tag') (env - 1) (m.length - 1) l
            | none => a :: replaceBothFrom (R.comap f tag) (S.comap f tag') (env - 1) 0 l).map f =
            match S.match? (f a :: l.map f) with
            | some m => S.result m ++ replaceBothFrom R S (env - 1) (m.length - 1) (l.map f)
            | none => f a :: replaceBothFrom R S (env - 1) 0 (l.map f) := by
          intro env
          rw [← List.map_cons, match?_comap tag']
          cases (S.comap f tag').match? (a :: l) with
          | none => exact congrArg (f a :: ·) (ih _ 0)
          | some m =>
            simp only [Option.map_some, List.map_append, List.length_map]
            rw [result_comap htag', ih]
        have hmatch : (if env = 0 then R.match? (f a :: l.map f) else none) =
            (if env = 0 then (R.comap f tag).match? (a :: l) else none).map (List.map f) := by
          rw [← List.map_cons, match?_comap tag]
          split <;> rfl
        rw [List.map_cons, replaceBothFrom, replaceBothFrom, hmatch]
        cases (if env = 0 then (R.comap f tag).match? (a :: l) else none) with
        | none => exact hsecond env
        | some m =>
          have hvalue : (R.comap f tag).value m = (R.value (m.map f)).map (tag m) := rfl
          cases hv : R.value (m.map f) with
          | none =>
            simp only [Option.bind_some, Option.map_some, hvalue, hv, Option.map_none,
              Option.getD_some, List.length_map]
            exact hsecond m.length
          | some v =>
            simp only [Option.bind_some, Option.map_some, hvalue, hv, List.map_append, htag,
              List.length_map, ih]
  exact key 0 0

end Comap

end Replacement

end SlmMcpHub
