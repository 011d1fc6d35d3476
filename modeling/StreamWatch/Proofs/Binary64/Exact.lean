import Mathlib.Tactic.Ring
import StreamWatch.Binary64

/-!
# Quotients that need no rounding

A quotient that a double can hold is that double: `Magnitude.ofRatio?_eq_some`. In particular whole
numbers of up to 53 bits, and even ones of one bit more, are doubles, and dividing one of them by
another whole number is exact where the quotient is whole.
-/

namespace StreamWatch

/-- Nothing is rounded where nothing is left. -/
theorem roundHalfEven_mul (n : Nat) {den : Nat} (h : 0 < den) :
    roundHalfEven (n * den) den = n := by
  unfold roundHalfEven
  rw [Nat.mul_mod_left, Nat.mul_div_cancel n h, if_pos (by omega)]

namespace Magnitude

/-! ## Significand and scale -/

theorem octave_eq : octave = 2 ^ 52 := rfl

/-- The finest spacing is far from both ends of the scales. -/
theorem exists_finest_eq : ∃ t, 52 ≤ t ∧ t < 2045 ∧ finest = 2 ^ t := by
  have hshift : ∃ t, 52 ≤ t ∧ t < 2045 ∧ finest = 1 <<< t := ⟨1074, by decide, by decide, rfl⟩
  simpa only [Nat.one_shiftLeft] using hshift

theorem finest_pos : 0 < finest := by
  obtain ⟨t, -, -, ht⟩ := exists_finest_eq
  rw [ht]
  exact Nat.two_pow_pos t

/-- A magnitude is its significand, shifted by its scale. -/
theorem units_eq (m : Magnitude) : m.units = m.significand * 2 ^ m.scale := Nat.shiftLeft_eq _ _

/-- A place is an octave and a position in it. -/
theorem place_eq (m : Magnitude) : m.place = m.scale * octave + m.significand := by
  unfold significand scale
  rw [octave_eq]
  omega

/-- A significand has at most 53 bits. -/
theorem significand_lt (m : Magnitude) : m.significand < 2 ^ 53 := by
  unfold significand scale
  rw [octave_eq]
  omega

/-- Above the finest spacing the significand has its full length. -/
theorem le_significand {m : Magnitude} (h : m.scale ≠ 0) : 2 ^ 52 ≤ m.significand := by
  unfold significand
  unfold scale at h ⊢
  rw [octave_eq] at h ⊢
  omega

/-- The scale is that of the leading bit. -/
theorem log2_units (m : Magnitude) : Nat.log2 m.units - 52 = m.scale := by
  by_cases hscale : m.scale = 0
  · have hlt := m.significand_lt
    rw [units_eq, hscale, Nat.pow_zero, Nat.mul_one]
    by_cases hzero : m.significand = 0
    · rw [hzero]
      rfl
    · have := (Nat.log2_lt hzero).mpr hlt
      omega
  · have hlow := le_significand hscale
    have hne : m.units ≠ 0 := by
      rw [units_eq]
      exact Nat.mul_ne_zero (by omega) (Nat.two_pow_pos _).ne'
    have hlog : Nat.log2 m.units = 52 + m.scale := by
      refine (Nat.log2_eq_iff hne).mpr ⟨?_, ?_⟩
      · rw [units_eq, Nat.pow_add]
        exact Nat.mul_le_mul_right _ hlow
      · rw [units_eq, Nat.add_right_comm, Nat.pow_add]
        exact Nat.mul_lt_mul_of_pos_right m.significand_lt (Nat.two_pow_pos _)
    omega

/-- A quotient that is a magnitude needs no rounding. -/
theorem ofRatio?_eq_some {num den : Nat} {m : Magnitude} (hden : 0 < den)
    (h : num * finest = m.units * den) : ofRatio? num den = some m := by
  have hplace : (Nat.log2 (num * finest / den) - 52) * octave +
      roundHalfEven (num * finest) (den <<< (Nat.log2 (num * finest / den) - 52)) = m.place := by
    have hround : m.units * den = m.significand * (den * 2 ^ m.scale) := by
      rw [units_eq]
      ring
    rw [h, Nat.mul_div_cancel _ hden, log2_units, Nat.shiftLeft_eq, hround, roundHalfEven_mul,
      ← place_eq]
    exact Nat.mul_pos hden (Nat.two_pow_pos _)
  unfold ofRatio?
  simp only [hplace]
  rw [dif_pos m.place_lt]

/-! ## Whole numbers -/

/-- Every significand of full length goes with every scale. -/
theorem exists_significand {s t : Nat} (hs : 2 ^ 52 ≤ s) (hs' : s < 2 ^ 53) (ht : t < 2046) :
    ∃ m : Magnitude, m.significand = s ∧ m.scale = t := by
  have hplace : t * octave + s < magnitudeCount := by
    unfold magnitudeCount
    rw [octave_eq]
    omega
  have hscale : (Magnitude.mk _ hplace).scale = t := by
    change (t * octave + s) / octave - 1 = t
    rw [octave_eq]
    omega
  refine ⟨⟨t * octave + s, hplace⟩, ?_, hscale⟩
  unfold significand
  rw [hscale]
  exact Nat.add_sub_cancel_left _ _

/-- A number of up to 53 bits and a power of two give a magnitude, if the power is neither too small
nor too large. -/
theorem exists_units {s t : Nat} (hs : s < 2 ^ 53) (ht : 52 ≤ t) (ht' : t < 2046) :
    ∃ m : Magnitude, m.units = s * 2 ^ t := by
  by_cases hzero : s = 0
  · exact ⟨zero, by rw [hzero, Nat.zero_mul]; rfl⟩
  · -- the significand is shifted until it has its full length
    let short := 52 - Nat.log2 s
    have hlog : Nat.log2 s < 53 := (Nat.log2_lt hzero).mpr hs
    obtain ⟨hlow, hhigh⟩ := (Nat.log2_eq_iff hzero).mp (rfl : Nat.log2 s = _)
    have hpow (k : Nat) : 2 ^ (Nat.log2 s + k) * 2 ^ short = 2 ^ (52 + k) := by
      rw [← Nat.pow_add]
      congr 1
      omega
    have hlow' : 2 ^ 52 ≤ s * 2 ^ short := by
      rw [← hpow 0]
      exact Nat.mul_le_mul_right _ hlow
    have hhigh' : s * 2 ^ short < 2 ^ 53 := by
      rw [← hpow 1]
      exact Nat.mul_lt_mul_of_pos_right hhigh (Nat.two_pow_pos _)
    obtain ⟨m, hsignificand, hscale⟩ :=
      exists_significand hlow' hhigh' (show t - short < 2046 by omega)
    refine ⟨m, ?_⟩
    rw [units_eq, hsignificand, hscale, Nat.mul_assoc, ← Nat.pow_add]
    congr 2
    omega

/-- The magnitude is this whole number. -/
def IsWhole (m : Magnitude) (n : Nat) : Prop := m.units = n * finest

/-- Whole numbers of up to 53 bits are doubles. -/
theorem exists_isWhole {n : Nat} (h : n < 2 ^ 53) : ∃ m : Magnitude, m.IsWhole n := by
  obtain ⟨t, ht, ht', hfinest⟩ := exists_finest_eq
  obtain ⟨m, hm⟩ := exists_units h ht (by omega)
  exact ⟨m, by rw [IsWhole, hm, hfinest]⟩

/-- Even whole numbers may have one bit more. -/
theorem exists_isWhole_two_mul {n : Nat} (h : n < 2 ^ 53) : ∃ m : Magnitude, m.IsWhole (2 * n) := by
  obtain ⟨t, ht, ht', hfinest⟩ := exists_finest_eq
  obtain ⟨m, hm⟩ := exists_units h (Nat.le_succ_of_le ht) (show t + 1 < 2046 by omega)
  refine ⟨m, ?_⟩
  rw [IsWhole, hm, hfinest, Nat.pow_succ]
  ring

/-- A whole number that is a double is read as that double. -/
theorem IsWhole.ofNat? {m : Magnitude} {n : Nat} (h : m.IsWhole n) :
    Magnitude.ofNat? n = some m :=
  ofRatio?_eq_some Nat.one_pos (by rw [h, Nat.mul_one])

/-- Dividing whole numbers is exact where the quotient is whole. -/
theorem IsWhole.div? {a b m : Magnitude} {n k : Nat} (ha : a.IsWhole (n * k)) (hb : b.IsWhole k)
    (hm : m.IsWhole n) (hk : 0 < k) : a.div? b = some m := by
  refine ofRatio?_eq_some ?_ ?_
  · rw [hb]
    exact Nat.mul_pos hk finest_pos
  · rw [ha, hb, hm]
    ring

end Magnitude

namespace Binary64

/-- The double is a whole number, positive or negative, of at most this size. -/
def IsWholeUpTo (bound : Nat) (x : Binary64) : Prop :=
  ∃ negative m n, x = .finite negative m ∧ m.IsWhole n ∧ n ≤ bound

/-- An integer of up to 53 bits is a double. -/
theorem isWholeUpTo_ofInt {n : Int} {bound : Nat} (hn : n.natAbs ≤ bound)
    (hbound : bound < 2 ^ 53) : (ofInt n).IsWholeUpTo bound := by
  obtain ⟨m, hm⟩ := Magnitude.exists_isWhole (Nat.lt_of_le_of_lt hn hbound)
  refine ⟨decide (n < 0), m, n.natAbs, ?_, hm, hn⟩
  rw [ofInt, hm.ofNat?, signed]

end Binary64

end StreamWatch
