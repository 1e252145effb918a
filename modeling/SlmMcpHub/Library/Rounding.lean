import SlmMcpHub.Library.Double
import Mathlib.Algebra.Order.Field.Power
import Mathlib.Tactic.Linarith
import Mathlib.Tactic.NormNum
import Mathlib.Tactic.Positivity

/-!
# How far off a double is

A double has 53 bits. The one next to a number from 1 on is larger by no more than a part in `2^53`.

## Main results

* `Double.le_of_ofRat_eq_finite`
* `Double.truncate_le`
-/

namespace SlmMcpHub

namespace Double

theorem pow2_eq (e : ℤ) : pow2 e = (2 : ℚ) ^ e := by
  cases e with
  | ofNat e => rw [pow2, Int.ofNat_eq_natCast, zpow_natCast]
  | negSucc e => rw [pow2, zpow_negSucc, one_div]

/-- A fraction is as large as its bits say. -/
theorem pow2_log2_le {q : ℚ} (h : 0 < q) :
    pow2 ((q.num.natAbs.log2 : ℤ) - q.den.log2 - 1) ≤ q := by
  have hnum : 0 < q.num := Rat.num_pos.mpr h
  have hn : 2 ^ q.num.natAbs.log2 ≤ q.num.natAbs := Nat.log2_self_le (by omega)
  have hd : q.den < 2 ^ (q.den.log2 + 1) := Nat.lt_log2_self
  have hn' : (2 : ℚ) ^ q.num.natAbs.log2 ≤ q.num := by
    have habs : ((q.num.natAbs : ℤ) : ℚ) = q.num := by rw [Int.natAbs_of_nonneg hnum.le]
    rw [← habs]
    exact_mod_cast hn
  have hd' : (q.den : ℚ) ≤ 2 ^ (q.den.log2 + 1) := by exact_mod_cast hd.le
  have hden : (0 : ℚ) < q.den := by exact_mod_cast q.den_pos
  rw [pow2_eq, show (q.num.natAbs.log2 : ℤ) - q.den.log2 - 1 =
      (q.num.natAbs.log2 : ℤ) - ((q.den.log2 + 1 : ℕ) : ℤ) by push_cast; ring,
    zpow_sub₀ (by norm_num), zpow_natCast, zpow_natCast]
  calc (2 : ℚ) ^ q.num.natAbs.log2 / 2 ^ (q.den.log2 + 1)
      ≤ q.num / q.den := by gcongr
    _ = q := Rat.num_div_den q

theorem pow2_unitOf_le {q : ℚ} (h : 1 ≤ q) : pow2 (unitOf q) ≤ q / 2 ^ 52 := by
  have hpos : (0 : ℚ) < q := by linarith
  have hexp : pow2 (if pow2 ((q.num.natAbs.log2 : ℤ) - q.den.log2) ≤ q then
      (q.num.natAbs.log2 : ℤ) - q.den.log2 else (q.num.natAbs.log2 : ℤ) - q.den.log2 - 1) ≤ q := by
    split_ifs with hle
    · exact hle
    · exact pow2_log2_le hpos
  rw [unitOf]
  rcases max_choice _ (-1074 : ℤ) with hmax | hmax
  · rw [hmax, pow2_eq, zpow_sub₀ (by norm_num), ← pow2_eq]
    exact (div_le_div_iff_of_pos_right (by norm_num)).mpr hexp
  · rw [hmax, pow2_eq]
    calc (2 : ℚ) ^ (-1074 : ℤ) ≤ 2 ^ (-52 : ℤ) := zpow_le_zpow_right₀ (by norm_num) (by norm_num)
      _ = 1 / 2 ^ 52 := by norm_num
      _ ≤ q / 2 ^ 52 := by gcongr

theorem roundHalfEven_le (q : ℚ) : (roundHalfEven q : ℚ) ≤ q + 1 / 2 := by
  have hfloor := Int.floor_le q
  have hmod : ⌊q⌋ % 2 ≤ 1 := by omega
  rw [roundHalfEven]
  split_ifs with hlow hhigh
  · linarith
  · push_cast
    linarith
  · have hmod' : ((⌊q⌋ % 2 : ℤ) : ℚ) ≤ 1 := by exact_mod_cast hmod
    push_cast at hmod' ⊢
    linarith

/-- A double is next to the number it stands for. -/
theorem le_of_ofRat_eq_finite {q m : ℚ} (h : 1 ≤ q) (hm : ofRat q = finite m) :
    m ≤ q * (1 + 1 / 2 ^ 53) := by
  have hpos : (0 : ℚ) < q := by linarith
  have hunit := pow2_unitOf_le h
  have hround := roundHalfEven_le (q / pow2 (unitOf q))
  have hu : 0 < pow2 (unitOf q) := by
    rw [pow2_eq]
    positivity
  rw [ofRat, if_neg hpos.ne', abs_of_pos hpos] at hm
  simp only [not_lt.mpr hpos.le, if_false] at hm
  split_ifs at hm
  obtain rfl := Double.finite.inj hm
  calc (roundHalfEven (q / pow2 (unitOf q)) : ℚ) * pow2 (unitOf q)
      ≤ (q / pow2 (unitOf q) + 1 / 2) * pow2 (unitOf q) := by gcongr
    _ = q + pow2 (unitOf q) / 2 := by field_simp
    _ ≤ q * (1 + 1 / 2 ^ 53) := by linarith

/-- What `int` makes of a number is no larger, unless that is negative. -/
theorem truncate_le (q : ℚ) : (((finite q).truncate.getD 0 : ℤ) : ℚ) ≤ max 0 q := by
  rw [truncate, Option.getD_some]
  split_ifs with hneg
  · have hceil : ⌈q⌉ ≤ 0 := Int.ceil_le.mpr (by simpa using hneg.le)
    exact le_max_of_le_left (by exact_mod_cast hceil)
  · exact le_max_of_le_right (Int.floor_le q)

end Double

end SlmMcpHub
