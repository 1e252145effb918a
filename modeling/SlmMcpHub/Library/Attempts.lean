import Mathlib.Data.List.Infix
import Mathlib.Data.List.Range
import Mathlib.Tactic.Common

/-!
# Bounded attempts at a list of targets

Some targets are taken one after the other. Each is tried until a try succeeds, and no more than a
given number of times; whether it has succeeded or not, the next target is then taken.

Which tries succeed is a parameter, so that the list of all tries is known in advance; who makes
them has made a prefix of it.

## Main definitions

* `tries` — the tries at one target
* `script` — the tries at the first so many targets
* `Cursor` — what has been tried when a try is being made

## Main results

* `Cursor.retry`, `Cursor.next` — going on
* `Cursor.succeeded`, `Cursor.exhausted` — a target is done with
* `Cursor.isPrefix` — what has been tried is a beginning of what is to be tried
-/

namespace SlmMcpHub

namespace Attempts

/-- So many more tries at a target, numbered from `a` on: none after one that succeeds. -/
def triesFrom (ok : ℕ → Bool) (a : ℕ) : ℕ → List ℕ
  | 0 => []
  | fuel + 1 => a :: if ok a then [] else triesFrom ok (a + 1) fuel

/-- The tries at one target, of which there are at most `m`. -/
def tries (ok : ℕ → Bool) (m : ℕ) : List ℕ := triesFrom ok 1 m

/-- The tries at the first `n` targets. -/
def script (ok : ℕ → ℕ → Bool) (m n : ℕ) : List (ℕ × ℕ) :=
  (List.range n).flatMap fun u => (tries (ok u) m).map (u, ·)

variable {ok ok' : ℕ → ℕ → Bool} {m n u a : ℕ}

@[simp] theorem script_zero (ok : ℕ → ℕ → Bool) (m : ℕ) : script ok m 0 = [] := rfl

theorem script_succ (ok : ℕ → ℕ → Bool) (m n : ℕ) :
    script ok m (n + 1) = script ok m n ++ (tries (ok n) m).map (n, ·) := by
  rw [script, List.range_succ, List.flatMap_append, List.flatMap_singleton]
  rfl

theorem script_isPrefix (ok : ℕ → ℕ → Bool) (m : ℕ) {n n' : ℕ} (h : n ≤ n') :
    script ok m n <+: script ok m n' := by
  induction h with
  | refl => exact List.prefix_rfl
  | step _ ih =>
    rw [script_succ]
    exact ih.trans (List.prefix_append _ _)

/-- Without a try there is nothing to be done. -/
theorem script_of_zero (ok : ℕ → ℕ → Bool) (n : ℕ) : script ok 0 n = [] := by
  induction n with
  | zero => rfl
  | succ n ih => rw [script_succ, ih]; rfl

theorem script_congr (h : ∀ v < n, ∀ b, ok v b = ok' v b) : script ok m n = script ok' m n := by
  induction n with
  | zero => rfl
  | succ n ih =>
    have hn : ok n = ok' n := funext (h n (Nat.lt_succ_self n))
    rw [script_succ, script_succ, ih fun v hv => h v (Nat.lt_succ_of_lt hv), hn]

/-- The targets that are tried, and how often. -/
theorem mem_script {p : ℕ × ℕ} (h : p ∈ script ok m n) : p.1 < n ∧ 1 ≤ p.2 ∧ p.2 ≤ m := by
  have hfrom : ∀ (ok : ℕ → Bool) (fuel a b : ℕ), b ∈ triesFrom ok a fuel →
      a ≤ b ∧ b < a + fuel := by
    intro ok fuel
    induction fuel with
    | zero => intro a b hb; cases hb
    | succ fuel ih =>
      intro a b hb
      rcases List.mem_cons.mp hb with rfl | hb
      · omega
      · split_ifs at hb
        · cases hb
        · have := ih (a + 1) b hb
          omega
  obtain ⟨u, hu, hp⟩ := List.mem_flatMap.mp h
  obtain ⟨b, hb, rfl⟩ := List.mem_map.mp hp
  have := hfrom (ok u) m 1 b hb
  exact ⟨List.mem_range.mp hu, by omega, by omega⟩

/-- As long as no try succeeds they are made one after the other. -/
theorem triesFrom_eq (ok : ℕ → Bool) : ∀ (j fuel a : ℕ), (∀ b, a ≤ b → b < a + j → ok b = false) →
    triesFrom ok a (j + fuel) = List.range' a j ++ triesFrom ok (a + j) fuel
  | 0, fuel, a, _ => by simp
  | j + 1, fuel, a, h => by
    have ha : ok a = false := h a le_rfl (by omega)
    rw [show j + 1 + fuel = (j + fuel) + 1 by omega, triesFrom, ha, if_neg Bool.false_ne_true,
      triesFrom_eq ok j fuel (a + 1) fun b hb hb' => h b (by omega) (by omega),
      List.range'_succ, List.cons_append, show a + 1 + j = a + (j + 1) by omega]

/-- Some tries fail, and the next one succeeds. -/
theorem tries_of_success {ok : ℕ → Bool} (h1 : 1 ≤ a) (ham : a ≤ m)
    (hbefore : ∀ b, 1 ≤ b → b < a → ok b = false) (ha : ok a = true) :
    tries ok m = List.range' 1 a := by
  obtain ⟨j, rfl⟩ := Nat.exists_eq_add_of_le' h1
  obtain ⟨fuel, rfl⟩ := Nat.exists_eq_add_of_le ham
  rw [tries, show j + 1 + fuel = j + (fuel + 1) by omega,
    triesFrom_eq ok j (fuel + 1) 1 fun b hb hb' => hbefore b hb (by omega), triesFrom,
    show 1 + j = j + 1 by omega, ha, if_pos rfl, List.range'_1_concat, Nat.add_comm 1 j]

/-- All tries fail. -/
theorem tries_of_failures {ok : ℕ → Bool} (h : ∀ b, 1 ≤ b → b ≤ m → ok b = false) :
    tries ok m = List.range' 1 m := by
  have := triesFrom_eq ok m 0 1 fun b hb hb' => h b hb (by omega)
  rw [tries, ← Nat.add_zero m, this, triesFrom, List.append_nil]
  simp

/-- Some tries fail; they are the first ones there are. -/
theorem range'_isPrefix_tries {ok : ℕ → Bool} (ham : a ≤ m)
    (hbefore : ∀ b, 1 ≤ b → b < a → ok b = false) : List.range' 1 a <+: tries ok m := by
  cases a with
  | zero => exact List.nil_prefix
  | succ j =>
    obtain ⟨fuel, rfl⟩ := Nat.exists_eq_add_of_le ham
    rw [tries, show j + 1 + fuel = j + (fuel + 1) by omega,
      triesFrom_eq ok j (fuel + 1) 1 fun b hb hb' => hbefore b hb (by omega), triesFrom,
      List.range'_1_concat]
    refine (List.prefix_append_right_inj _).mpr ?_
    exact List.prefix_append [1 + j] _

/-! ### The cursor -/

/-- The `a`th try at a target is being made, or has failed and is not the last one. -/
structure Cursor (ok : ℕ → ℕ → Bool) (m : ℕ) (sent : List (ℕ × ℕ)) (u a : ℕ) : Prop where
  sent : sent = script ok m u ++ (List.range' 1 a).map (u, ·)
  pos : 1 ≤ a
  le : a ≤ m
  /-- Nothing has succeeded here yet, or further on. -/
  failed : ∀ v b, u ≤ v → ok v b = false

namespace Cursor

variable {sent : List (ℕ × ℕ)}

/-- A target is tried for the first time. -/
theorem next (hsent : sent = script ok m u) (hm : 1 ≤ m) (hopen : ∀ v b, u ≤ v → ok v b = false) :
    Cursor ok m (sent ++ [(u, 1)]) u 1 where
  sent := by rw [hsent]; rfl
  pos := le_rfl
  le := hm
  failed := hopen

/-- A target is tried once more. -/
theorem retry (h : Cursor ok m sent u a) (ha : a < m) :
    Cursor ok m (sent ++ [(u, a + 1)]) u (a + 1) where
  sent := by
    rw [h.sent, List.append_assoc, List.range'_1_concat, List.map_append, List.map_singleton,
      Nat.add_comm 1 a]
  pos := by omega
  le := ha
  failed := h.failed

/-- A try has succeeded, and the target is done with. -/
theorem succeeded (h : Cursor ok m sent u a) (hbefore : ∀ v b, v < u → ok' v b = ok v b)
    (hfailed : ∀ b, b < a → ok' u b = false) (ha : ok' u a = true) :
    sent = script ok' m (u + 1) := by
  rw [script_succ, tries_of_success h.pos h.le (fun b _ hb => hfailed b hb) ha, h.sent,
    script_congr fun v hv b => (hbefore v b hv).symm]

/-- The last try has failed. -/
theorem exhausted (h : Cursor ok m sent u m) : sent = script ok m (u + 1) := by
  rw [script_succ, tries_of_failures fun b _ _ => h.failed u b le_rfl, ← h.sent]

/-- What has been tried is a beginning of what is to be tried. -/
theorem isPrefix (h : Cursor ok m sent u a) (hu : u < n) : sent <+: script ok m n := by
  refine List.IsPrefix.trans ?_ (script_isPrefix ok m hu)
  rw [h.sent, script_succ]
  refine (List.prefix_append_right_inj _).mpr (List.IsPrefix.map _ ?_)
  exact range'_isPrefix_tries h.le fun b _ _ => h.failed u b le_rfl

theorem congr (h : Cursor ok m sent u a) (hok : ∀ v b, ok' v b = ok v b) :
    Cursor ok' m sent u a := by
  have : ok' = ok := funext fun v => funext (hok v)
  rw [this]
  exact h

/-- What has been tried comes before what is tried next. -/
theorem lt_of_mem (h : Cursor ok m sent u a) {p : ℕ × ℕ} (hp : p ∈ sent) :
    p.1 < u ∨ p.1 = u ∧ p.2 ≤ a := by
  rw [h.sent] at hp
  rcases List.mem_append.mp hp with hp | hp
  · exact .inl (mem_script hp).1
  · obtain ⟨b, hb, rfl⟩ := List.mem_map.mp hp
    rw [List.mem_range'_1] at hb
    exact .inr ⟨rfl, by omega⟩

end Cursor

end Attempts

end SlmMcpHub
