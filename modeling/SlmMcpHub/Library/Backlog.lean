import SlmMcpHub.Library.Deque
import Mathlib.Data.List.Pairwise
import Mathlib.Tactic.Linarith

/-!
# Readers behind a queue that forgets

A sequence is fed to a queue of bounded length, which drops its oldest item to make room for a new
one. A reader takes items off the other end. What it has taken is a subsequence of what was fed, and
the queue holds the last of what was fed since.

The reader is followed by the places its items had in the sequence.

## Main definitions

* `AsyncQueue` — a queue that may have a bound, with the operations that do not wait
* `Backlog` — what was fed, what has been taken, and what the queue holds

## Main results

* `Backlog.feed`, `Backlog.take` — the two operations keep it
* `Backlog.eq_drop_of_overtaken` — what leaves the queue without being taken was the oldest of a
  full one
-/

namespace SlmMcpHub

/-! ### The queue -/

/-- `asyncio.Queue`; a bound that is not positive is none. -/
structure AsyncQueue (α : Type) where
  maxsize : ℤ
  /-- The items, oldest first. -/
  items : List α
  /-- The bound is respected. -/
  bounded : 0 < maxsize → (items.length : ℤ) ≤ maxsize

namespace AsyncQueue

variable {α : Type}

def empty (maxsize : ℤ) : AsyncQueue α := ⟨maxsize, [], fun h => h.le⟩

/-- `full()` -/
def full (q : AsyncQueue α) : Bool := 0 < q.maxsize && q.maxsize ≤ q.items.length

/-- `put_nowait`, but for `QueueFull`. -/
def putNowait (q : AsyncQueue α) (x : α) : Option (AsyncQueue α) :=
  if h : q.full = true then none
  else some
    { q with
      items := q.items ++ [x]
      bounded := fun hpos => by
        have hroom : ¬ q.maxsize ≤ q.items.length := fun hle => h (by simp [full, hpos, hle])
        rw [List.length_append, List.length_singleton]
        push_cast
        omega }

/-- `get_nowait`, but for `QueueEmpty`. -/
def getNowait (q : AsyncQueue α) : Option (α × AsyncQueue α) :=
  match h : q.items with
  | [] => none
  | x :: rest => some (x,
      { q with
        items := rest
        bounded := fun hpos => by
          have hle := q.bounded hpos
          rw [h, List.length_cons] at hle
          push_cast at hle
          omega })

@[simp] theorem items_empty (maxsize : ℤ) : (empty maxsize : AsyncQueue α).items = [] := rfl

@[simp] theorem maxsize_empty (maxsize : ℤ) :
    (empty maxsize : AsyncQueue α).maxsize = maxsize := rfl

theorem full_iff {q : AsyncQueue α} {m : ℕ} (hm : 0 < m) (hq : q.maxsize = m) :
    q.full = true ↔ q.items.length = m := by
  have hpos : 0 < q.maxsize := by omega
  have hle := q.bounded hpos
  simp only [full, hpos, decide_true, Bool.true_and, decide_eq_true_eq]
  omega

theorem putNowait_of_full {q : AsyncQueue α} (h : q.full = true) (x : α) : q.putNowait x = none :=
  dif_pos h

theorem putNowait_of_room {q : AsyncQueue α} (h : q.full = false) (x : α) :
    ∃ q', q.putNowait x = some q' ∧ q'.maxsize = q.maxsize ∧ q'.items = q.items ++ [x] :=
  ⟨_, dif_neg (by rw [h]; exact Bool.false_ne_true), rfl, rfl⟩

theorem getNowait_eq_some {q : AsyncQueue α} {x : α} {q' : AsyncQueue α}
    (h : q.getNowait = some (x, q')) : q.items = x :: q'.items ∧ q'.maxsize = q.maxsize := by
  rw [getNowait] at h
  split at h
  · cases h
  · rename_i y rest hitems
    obtain ⟨rfl, rfl⟩ := Prod.mk.inj (Option.some.inj h)
    exact ⟨hitems, rfl⟩

theorem getNowait_of_cons {q : AsyncQueue α} {x : α} {rest : List α} (h : q.items = x :: rest) :
    ∃ q', q.getNowait = some (x, q') ∧ q'.maxsize = q.maxsize ∧ q'.items = rest := by
  cases hget : q.getNowait with
  | none =>
    rw [getNowait] at hget
    split at hget
    · rename_i hnil
      rw [h] at hnil
      cases hnil
    · cases hget
  | some p =>
    obtain ⟨hitems, hmax⟩ : q.items = p.1 :: p.2.items ∧ p.2.maxsize = q.maxsize :=
      getNowait_eq_some hget
    obtain ⟨hx, hrest⟩ := List.cons.inj (h.symm.trans hitems)
    exact ⟨p.2, by rw [hx], hmax, hrest.symm⟩

end AsyncQueue

/-! ### The reader -/

/-- The place after the last of some places. -/
def nextPlace (places : List ℕ) : ℕ := places.getLast?.elim 0 (· + 1)

@[simp] theorem nextPlace_nil : nextPlace [] = 0 := rfl

@[simp] theorem nextPlace_concat (places : List ℕ) (p : ℕ) : nextPlace (places ++ [p]) = p + 1 := by
  rw [nextPlace, List.getLast?_concat, Option.elim_some]

theorem lt_nextPlace {places : List ℕ} (h : places.Pairwise (· < ·)) {p : ℕ} (hp : p ∈ places) :
    p < nextPlace places := by
  induction places using List.reverseRecOn with
  | nil => cases hp
  | append_singleton places q _ =>
    rw [nextPlace_concat]
    rcases List.mem_append.mp hp with hp | hp
    · exact Nat.lt_succ_of_lt ((List.pairwise_append.mp h).2.2 p hp q (List.mem_singleton_self q))
    · rw [List.mem_singleton.mp hp]
      exact Nat.lt_succ_self q

/-- A reader has taken the items at some places of what was fed, and the queue holds the last items
after these, of which there are at most `m`. -/
structure Backlog {α : Type} (m : ℕ) (fed items taken : List α) (places : List ℕ) : Prop where
  increasing : places.Pairwise (· < ·)
  taken : taken.map some = places.map (fed[·]?)
  next_le : nextPlace places ≤ fed.length
  items : items = (fed.drop (nextPlace places)).rtake m

namespace Backlog

variable {α : Type} {m : ℕ} {fed items taken : List α} {places : List ℕ}

theorem start (m : ℕ) : Backlog m ([] : List α) [] [] [] where
  increasing := .nil
  taken := rfl
  next_le := Nat.le_refl 0
  items := by simp [List.rtake]

theorem length_items (h : Backlog m fed items taken places) :
    items.length = min m (fed.length - nextPlace places) := by
  rw [h.items, length_rtake, List.length_drop]

/-- The queue holds the end of what was fed. -/
theorem items_eq_drop (h : Backlog m fed items taken places) :
    items = fed.drop (fed.length - items.length) := by
  obtain ⟨l, hl⟩ := (rtake_suffix m _).trans (List.drop_suffix (nextPlace places) fed)
  rw [← h.items] at hl
  conv_rhs => rw [← hl]
  rw [List.length_append, Nat.add_sub_cancel, List.drop_left]

/-- **An item is fed.** -/
theorem feed (h : Backlog m fed items taken places) (x : α) :
    Backlog m (fed ++ [x]) ((items ++ [x]).rtake m) taken places where
  increasing := h.increasing
  taken := by
    rw [h.taken]
    refine List.map_congr_left fun p hp => ?_
    have hlt := (lt_nextPlace h.increasing hp).trans_le h.next_le
    rw [List.getElem?_append_left hlt]
  next_le := by
    rw [List.length_append]
    exact h.next_le.trans (Nat.le_add_right _ _)
  items := by
    rw [h.items, rtake_append_singleton, List.drop_append_of_le_length h.next_le]

/-- **An item is taken.** -/
theorem take {x : α} (h : Backlog m fed (x :: items) taken places) :
    Backlog m fed items (taken ++ [x]) (places ++ [fed.length - (items.length + 1)]) := by
  have hlength := h.length_items
  have hdrop := h.items_eq_drop
  rw [List.length_cons] at hlength hdrop
  have hnext := h.next_le
  have hget : fed[fed.length - (items.length + 1)]? = some x := by
    rw [← List.head?_drop, ← hdrop, List.head?_cons]
  refine ⟨?_, ?_, ?_, ?_⟩
  · refine List.pairwise_append.mpr ⟨h.increasing, List.pairwise_singleton _ _, fun p hp q hq => ?_⟩
    have hp := lt_nextPlace h.increasing hp
    rw [List.mem_singleton.mp hq]
    omega
  · rw [List.map_append, List.map_append, h.taken, List.map_singleton, List.map_singleton, hget]
  · rw [nextPlace_concat]
    omega
  · have hrest : items = fed.drop (fed.length - (items.length + 1) + 1) := by
      rw [← List.tail_drop, ← hdrop, List.tail_cons]
    rw [nextPlace_concat, ← hrest, List.rtake, Nat.sub_eq_zero_of_le (by omega), List.drop_zero]

/-- The places the queue still has the items of. -/
def Held (fed items : List α) (i : ℕ) : Prop := fed.length ≤ i + items.length ∧ i < fed.length

/-- **What leaves the queue without being taken** was the oldest of as many as there is room for. -/
theorem eq_drop_of_overtaken (h : Backlog m fed items taken places) {x : α} {i : ℕ}
    (hheld : Held fed items i) (hleft : ¬ Held (fed ++ [x]) ((items ++ [x]).rtake m) i) :
    fed.length = i + m ∧ items = fed.drop i := by
  have hlength := h.length_items
  have hle : items.length ≤ m := by omega
  have hafter : ((items ++ [x]).rtake m).length = min m (items.length + 1) := by
    rw [length_rtake, List.length_append, List.length_singleton]
  simp only [Held, hafter, List.length_append, List.length_singleton] at hheld hleft
  have hi : fed.length = i + m ∧ fed.length - items.length = i := by omega
  refine ⟨hi.1, ?_⟩
  conv_lhs => rw [h.items_eq_drop, hi.2]

end Backlog

end SlmMcpHub
