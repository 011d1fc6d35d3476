import StreamWatch.Proofs.Binary64.Truncate

/-!
# The order of doubles

The places of magnitudes are in the order of the numbers that they are, so finite doubles are
compared as numbers, and the larger of two is the larger number: `Binary64.value_max`. Dropping the
fraction and clamping keep the order.
-/

namespace StreamWatch

namespace Magnitude

/-- Of two magnitudes the one in the higher place counts more. -/
theorem units_lt_units {m m' : Magnitude} (h : m.place < m'.place) : m.units < m'.units := by
  have hscale : m.scale ≤ m'.scale := by
    unfold scale
    exact Nat.sub_le_sub_right (Nat.div_le_div_right h.le) 1
  rw [units_eq, units_eq]
  rcases hscale.eq_or_lt with heq | hlt
  · rw [place_eq m, place_eq m', heq, Nat.add_lt_add_iff_left] at h
    rw [heq]
    exact Nat.mul_lt_mul_of_pos_right h (Nat.two_pow_pos _)
  · -- one scale up there are twice as many units to each step
    calc m.significand * 2 ^ m.scale
        < 2 ^ 53 * 2 ^ m.scale := Nat.mul_lt_mul_of_pos_right m.significand_lt (Nat.two_pow_pos _)
      _ = 2 ^ 52 * 2 ^ (m.scale + 1) := by ring
      _ ≤ 2 ^ 52 * 2 ^ m'.scale := Nat.mul_le_mul_left _ (Nat.pow_le_pow_right Nat.two_pos hlt)
      _ ≤ m'.significand * 2 ^ m'.scale :=
        Nat.mul_le_mul_right _ (le_significand (Nat.ne_zero_of_lt hlt))

/-- Magnitudes are ordered as their places are. -/
theorem units_le_units_iff {m m' : Magnitude} : m.units ≤ m'.units ↔ m.place ≤ m'.place := by
  constructor
  · intro h
    by_contra hlt
    exact absurd (units_lt_units (not_le.mp hlt)) (not_lt.mpr h)
  · intro h
    rcases h.eq_or_lt with heq | hlt
    · exact le_of_eq (by rw [units, units, significand, significand, scale, scale, heq])
    · exact (units_lt_units hlt).le

/-- Magnitudes are compared as numbers. -/
theorem value_le_value_iff {m m' : Magnitude} : m.value ≤ m'.value ↔ m.place ≤ m'.place := by
  have hfinest : (0 : ℚ) < finest := Nat.cast_pos.mpr finest_pos
  rw [value, value, div_le_div_iff_of_pos_right hfinest, Nat.cast_le, units_le_units_iff]

end Magnitude

namespace Binary64

/-- Finite doubles are compared as numbers. -/
theorem value_le_value_iff {a b : Binary64} {i j : Int} (ha : a.isFinite) (hb : b.isFinite)
    (hi : a.rank? = some i) (hj : b.rank? = some j) : a.value ≤ b.value ↔ i ≤ j := by
  have hzero (m : Magnitude) : m.value ≤ 0 ↔ m.place = 0 := by
    rw [← Nat.le_zero, ← show Magnitude.zero.value = 0 by simp [Magnitude.value, Magnitude.units,
      Magnitude.significand, Magnitude.zero], Magnitude.value_le_value_iff]
    rfl
  cases a with
  | infinite => cases ha
  | nan => cases ha
  | finite negative m =>
      cases b with
      | infinite => cases hb
      | nan => cases hb
      | finite negative' m' =>
          obtain rfl := Option.some.inj hi
          obtain rfl := Option.some.inj hj
          have hm := m.value_nonneg
          have hm' := m'.value_nonneg
          cases negative <;> cases negative' <;>
            simp only [value, if_true, if_false, Bool.false_eq_true]
          · rw [Magnitude.value_le_value_iff]
            omega
          · -- at most if both are zero
            have hboth : m.value ≤ -m'.value ↔ m.value ≤ 0 ∧ m'.value ≤ 0 := by
              constructor
              · intro h
                exact ⟨by linarith, by linarith⟩
              · rintro ⟨h, h'⟩
                linarith
            rw [hboth, hzero, hzero]
            omega
          · exact iff_of_true (by linarith) (by omega)
          · rw [neg_le_neg_iff, Magnitude.value_le_value_iff]
            omega

/-- A finite double has a place in the order. -/
theorem exists_rank? {a : Binary64} (h : a.isFinite) : ∃ i, a.rank? = some i := by
  cases a with
  | finite negative m => exact ⟨_, rfl⟩
  | infinite => cases h
  | nan => cases h

/-- The larger of two finite doubles is one of them, and the larger number. -/
theorem value_max {a b : Binary64} (ha : a.isFinite) (hb : b.isFinite) :
    (a.max b).isFinite ∧ (a.max b).value = Max.max a.value b.value := by
  obtain ⟨i, hi⟩ := exists_rank? ha
  obtain ⟨j, hj⟩ := exists_rank? hb
  simp only [max, hi, hj]
  split
  · next hlt => exact ⟨hb, (max_eq_right ((value_le_value_iff ha hb hi hj).mpr hlt.le)).symm⟩
  · next hle =>
      have hvalue := (value_le_value_iff hb ha hj hi).mpr (not_lt.mp hle)
      exact ⟨ha, (max_eq_left hvalue).symm⟩

end Binary64

/-! ## Times -/

/-- Dropping the fraction keeps the order. -/
theorem truncate_le_truncate {x y : ℚ} (h : x ≤ y) : truncate x ≤ truncate y := by
  rcases le_or_gt 0 x with hx | hx
  · rw [truncate_of_nonneg hx, truncate_of_nonneg (hx.trans h)]
    exact Int.floor_le_floor h
  · rw [truncate, if_neg hx.not_ge]
    rcases le_or_gt 0 y with hy | hy
    · rw [truncate_of_nonneg hy]
      exact (Int.ceil_nonpos.mpr hx.le).trans (Int.floor_nonneg.mpr hy)
    · rw [truncate, if_neg hy.not_ge]
      exact Int.ceil_le_ceil h

/-- Clamping keeps the order. -/
theorem clamp_le_clamp {m n : ℤ} (h : m ≤ n) : clamp m ≤ clamp n :=
  max_le_max le_rfl (min_le_min h le_rfl)

end StreamWatch
