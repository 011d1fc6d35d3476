import Mathlib.Data.Rat.Floor
import StreamWatch.Proofs.Binary64.Exact

/-!
# Doubles without their fraction

A finite double is a rational number. As a 64-bit integer it is that number without its fraction, or
the end of the range that the number is beyond: `Binary64.toInt_toInt64`.
-/

namespace StreamWatch

/-- A number truncated toward zero. -/
def truncate (x : ℚ) : ℤ := if 0 ≤ x then ⌊x⌋ else ⌈x⌉

theorem truncate_of_nonneg {x : ℚ} (h : 0 ≤ x) : truncate x = ⌊x⌋ := if_pos h

/-- The sign does not matter for what is dropped. -/
theorem truncate_neg_of_nonneg {x : ℚ} (h : 0 ≤ x) : truncate (-x) = -⌊x⌋ := by
  rcases h.eq_or_lt with rfl | hpos
  · rw [neg_zero, truncate_of_nonneg le_rfl, Int.floor_zero, neg_zero]
  · rw [truncate, if_neg (not_le.mpr (neg_lt_zero.mpr hpos)), Int.ceil_neg]

/-- An integer clamped to the range of 64-bit integers. -/
def clamp (n : ℤ) : ℤ := max Int64.minValue.toInt (min n Int64.maxValue.toInt)

namespace Magnitude

/-- The number that a magnitude is. -/
def value (m : Magnitude) : ℚ := m.units / finest

theorem value_nonneg (m : Magnitude) : 0 ≤ m.value :=
  div_nonneg (Nat.cast_nonneg _) (Nat.cast_nonneg _)

/-- Counting in whole numbers instead of the finest spacing drops the fraction. -/
theorem floor_value (m : Magnitude) : ⌊m.value⌋ = m.truncate :=
  Rat.floor_natCast_div_natCast m.units finest

end Magnitude

namespace Binary64

/-- The number that a finite double is, zero for all others. -/
def value : Binary64 → ℚ
  | .finite negative m => if negative then -m.value else m.value
  | _ => 0

/-- Clamping to 64 bits is clamping between the bounds. -/
theorem toInt_clampToInt64 (n : ℤ) : (clampToInt64 n).toInt = clamp n := by
  have hmin : Int64.minValue.toInt = -2 ^ 63 := by decide
  have hmax : Int64.maxValue.toInt = 2 ^ 63 - 1 := by decide
  unfold clampToInt64 clamp
  split
  · omega
  · split
    · omega
    · rw [Int64.toInt_ofInt_of_le (by omega) (by omega)]
      omega

/-- A finite double is truncated toward zero and clamped. -/
theorem toInt_toInt64 {x : Binary64} (h : x.isFinite) :
    x.toInt64.toInt = clamp (truncate x.value) := by
  cases x with
  | infinite => cases h
  | nan => cases h
  | finite negative m =>
      rw [toInt64, toInt_clampToInt64, value, ← m.floor_value]
      cases negative with
      | false =>
          simp only [Bool.false_eq_true, if_false]
          rw [truncate_of_nonneg m.value_nonneg]
      | true =>
          simp only [if_true]
          rw [truncate_neg_of_nonneg m.value_nonneg]

end Binary64

end StreamWatch
