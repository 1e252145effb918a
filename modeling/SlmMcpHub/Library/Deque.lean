import Mathlib.Data.List.DropRight
import Mathlib.Data.List.Basic

/-!
# Bounded queues

A queue with a maximal length: appending to a full one drops the oldest item. The bound is a
field, so a queue that has outgrown it cannot be built.

## Main results

* `Deque.items_append_of_eq_rtake` — a queue that holds the last items of a sequence holds the
  last items of the sequence it has been appended to
-/

namespace SlmMcpHub

/-- A queue of at most `maxlen` items, oldest first. -/
structure Deque (α : Type) where
  /-- The capacity. -/
  maxlen : ℕ
  /-- The items, oldest first. -/
  items : List α
  /-- The capacity is respected. -/
  bounded : items.length ≤ maxlen

/-- Taking the last items twice is taking the fewer of them. -/
theorem rtake_rtake_of_le {α : Type} {m n : ℕ} (l : List α) (h : m ≤ n) :
    (l.rtake n).rtake m = l.rtake m := by
  simp only [List.rtake_eq_reverse_take_reverse, List.reverse_reverse, List.take_take,
    Nat.min_eq_left h]

theorem length_rtake {α : Type} (n : ℕ) (l : List α) : (l.rtake n).length = min n l.length := by
  rw [List.rtake_eq_reverse_take_reverse, List.length_reverse, List.length_take,
    List.length_reverse]

theorem rtake_suffix {α : Type} (n : ℕ) (l : List α) : l.rtake n <:+ l := List.drop_suffix _ _

theorem rtake_append_singleton {α : Type} (n : ℕ) (l : List α) (x : α) :
    (l.rtake n ++ [x]).rtake n = (l ++ [x]).rtake n := by
  cases n with
  | zero => rw [List.rtake_zero, List.rtake_zero]
  | succ n =>
    rw [List.rtake_concat_succ, List.rtake_concat_succ, rtake_rtake_of_le l (Nat.le_succ n)]

namespace Deque

variable {α : Type}

/-- The queue with no item. -/
def empty (maxlen : ℕ) : Deque α := ⟨maxlen, [], Nat.zero_le _⟩

/-- Append an item, dropping the oldest one when the queue is full. -/
def append (d : Deque α) (x : α) : Deque α :=
  ⟨d.maxlen, (d.items ++ [x]).rtake d.maxlen, by rw [length_rtake]; exact Nat.min_le_left _ _⟩

@[simp] theorem items_empty (maxlen : ℕ) : (empty maxlen : Deque α).items = [] := rfl

@[simp] theorem maxlen_empty (maxlen : ℕ) : (empty maxlen : Deque α).maxlen = maxlen := rfl

@[simp] theorem maxlen_append (d : Deque α) (x : α) : (d.append x).maxlen = d.maxlen := rfl

/-- What has been appended is the last item, if there is room for one. -/
theorem getLast?_append {d : Deque α} (h : 0 < d.maxlen) (x : α) :
    (d.append x).items.getLast? = some x := by
  obtain ⟨n, hn⟩ := Nat.exists_eq_add_of_lt h
  show ((d.items ++ [x]).rtake d.maxlen).getLast? = some x
  rw [hn, Nat.zero_add, List.rtake_concat_succ, List.getLast?_concat]

/-- **A queue fed a sequence holds its last items.** -/
theorem items_append_of_eq_rtake {d : Deque α} {l : List α} (h : d.items = l.rtake d.maxlen)
    (x : α) : (d.append x).items = (l ++ [x]).rtake d.maxlen := by
  show (d.items ++ [x]).rtake d.maxlen = (l ++ [x]).rtake d.maxlen
  rw [h, rtake_append_singleton]

end Deque

end SlmMcpHub
