import StreamWatch.Proofs.Binary64.Rounding
import StreamWatch.Proofs.Binary64.Shortest
import StreamWatch.Proofs.Json.RoundTrip.Number

/-!
# Decimals that are doubles

Reading a decimal takes two steps that round, and the largest doubles are written with decimals for
which that matters. Still none of the decimals that doubles are written with is read as too large:
`fits_shortest`. Nor is any that has fewer digits or a smaller exponent.
-/

namespace StreamWatch.Json

open Magnitude

/-- The decimal is not too large for a double. -/
def Fits (significand : Nat) (exponent : Int) : Prop :=
  ((Magnitude.ofNat? significand).bind (scaleByTen · exponent)).isSome

instance (significand : Nat) (exponent : Int) : Decidable (Fits significand exponent) :=
  inferInstanceAs (Decidable (_ = true))

/-- A decimal that is not too large is read as a number. -/
theorem Fits.exists_scaled {significand : Nat} {exponent : Int} (h : Fits significand exponent)
    (negative : Bool) : ∃ number, scaled negative significand exponent = .ok number := by
  obtain ⟨m, hm⟩ := Option.isSome_iff_exists.mp h
  rw [scaled_def]
  beta_reduce
  rw [hm]
  exact ⟨_, rfl⟩

/-! ## Powers of ten -/

/-- A smaller whole number rounds to a magnitude that is not greater. -/
theorem ofNat?_mono {n n' : Nat} (h : n ≤ n') {m' : Magnitude} (hm' : ofNat? n' = some m') :
    ∃ m, ofNat? n = some m ∧ m.place ≤ m'.place :=
  exists_ofRatio? Nat.one_pos Nat.one_pos (Nat.mul_le_mul_right 1 h) hm'

/-- No significand is too large for a double. -/
theorem exists_ofNat? {n : Nat} (h : n ≤ significandLimit) : ∃ m, ofNat? n = some m := by
  have hlimit : (ofNat? significandLimit).isSome := by decide +kernel
  obtain ⟨m', hm'⟩ := Option.isSome_iff_exists.mp hlimit
  obtain ⟨m, hm, -⟩ := ofNat?_mono h hm'
  exact ⟨m, hm⟩

theorem pow_le_pow {j k : Nat} (h : j ≤ k) : Nat.pow 10 j ≤ Nat.pow 10 k :=
  Nat.pow_le_pow_right (by decide) h

/-- A power of ten that is small enough is a double, up to rounding. -/
theorem ofNat?_powerOfTen {k : Nat} (hk : k ≤ largestPower) :
    ofNat? (Nat.pow 10 k) = some (powerOfTen k) := by
  have hlargest : (ofNat? (Nat.pow 10 largestPower)).isSome := by decide +kernel
  obtain ⟨m', hm'⟩ := Option.isSome_iff_exists.mp hlargest
  obtain ⟨m, hm, -⟩ := ofNat?_mono (pow_le_pow hk) hm'
  rw [powerOfTen, hm, Option.getD_some]

/-- Powers of ten grow as doubles, too. -/
theorem powerOfTen_mono {j k : Nat} (hjk : j ≤ k) (hk : k ≤ largestPower) :
    (powerOfTen j).place ≤ (powerOfTen k).place := by
  obtain ⟨m, hm, hle⟩ := ofNat?_mono (pow_le_pow hjk) (ofNat?_powerOfTen hk)
  rw [ofNat?_powerOfTen (hjk.trans hk), Option.some.injEq] at hm
  rwa [hm]

theorem isWhole_powerOfTen_zero : (powerOfTen 0).IsWhole 1 := by
  obtain ⟨m, hm⟩ := exists_isWhole (n := 1) (by omega)
  have hpow : Nat.pow 10 0 = 1 := by decide
  rw [powerOfTen_eq hpow hm]
  exact hm

/-- A power of ten is one at least. -/
theorem finest_le_units_powerOfTen {k : Nat} (hk : k ≤ largestPower) :
    finest ≤ (powerOfTen k).units := by
  have hone : (powerOfTen 0).units = 1 * finest := isWhole_powerOfTen_zero
  rw [← Nat.one_mul finest, ← hone]
  exact units_le_units_iff.mpr (powerOfTen_mono (Nat.zero_le k) hk)

/-! ## Scaling -/

/-- A magnitude can be divided by the largest power any number of times. -/
theorem exists_divideByLargest (times : Nat) (m : Magnitude) :
    ∃ q, divideByLargest times m = some q := by
  induction times generalizing m with
  | zero => exact ⟨m, divideByLargest_zero m⟩
  | succ times ih =>
      obtain ⟨q, hq, -⟩ :=
        exists_div? (a := m) (finest_le_units_powerOfTen (Nat.le_refl largestPower))
      obtain ⟨q', hq'⟩ := ih q
      rw [divideByLargest, hq, Option.bind_some, hq']
      by_cases hzero : m.place = 0
      · exact ⟨m, if_pos hzero⟩
      · exact ⟨q', if_neg hzero⟩

/-- Dividing by powers of ten gives a double. -/
theorem exists_scaleDown (m : Magnitude) (k : Nat) : ∃ q, scaleDown m k = some q := by
  obtain ⟨times, htimes⟩ : ∃ times, (k - 1) / largestPower = times := ⟨_, rfl⟩
  obtain ⟨q, hq⟩ := exists_divideByLargest times m
  have hk : k - times * largestPower ≤ largestPower := by
    unfold largestPower at htimes ⊢
    omega
  obtain ⟨q', hq', -⟩ := exists_div? (a := q) (finest_le_units_powerOfTen hk)
  rw [scaleDown_eq m k times htimes, hq, Option.bind_some]
  exact ⟨q', hq'⟩

/-- Multiplying by one changes nothing. -/
theorem mul?_powerOfTen_zero (m : Magnitude) : m.mul? (powerOfTen 0) = some m := by
  have hone : (powerOfTen 0).units = 1 * finest := isWhole_powerOfTen_zero
  refine ofRatio?_eq_some (Nat.mul_pos finest_pos finest_pos) ?_
  rw [hone]
  ring

/-- Without a positive exponent every significand will do. -/
theorem Fits.of_nonpos {significand : Nat} (hlimit : significand ≤ significandLimit)
    {exponent : Int} (h : exponent ≤ 0) : Fits significand exponent := by
  obtain ⟨m, hm⟩ := exists_ofNat? hlimit
  rw [Fits, hm, Option.bind_some, scaleByTen]
  split
  · obtain ⟨q, hq⟩ := exists_scaleDown m (-exponent).toNat
    rw [hq]
    rfl
  · obtain rfl : exponent = 0 := by omega
    have hzero : (0 : Int) ≤ largestPower := Int.natCast_nonneg _
    rw [if_pos hzero, Int.toNat_zero, mul?_powerOfTen_zero]
    rfl

/-- With a positive exponent a decimal fits if the product with the power of ten does. -/
theorem fits_iff_of_nonneg {significand k : Nat} (hk : k ≤ largestPower) {m : Magnitude}
    (hm : ofNat? significand = some m) :
    Fits significand k ↔ (m.mul? (powerOfTen k)).isSome := by
  have hneg : ¬ (k : Int) < 0 := by omega
  rw [Fits, hm, Option.bind_some, scaleByTen, if_neg hneg, if_pos (by exact_mod_cast hk),
    Int.toNat_natCast]

/-- A decimal with a smaller significand and a smaller exponent will do as well. -/
theorem Fits.mono {significand significand' : Nat} {exponent exponent' : Int}
    (h : Fits significand' exponent') (hlimit : significand' ≤ significandLimit)
    (hsignificand : significand ≤ significand') (hexponent : exponent ≤ exponent')
    (hlargest : exponent' ≤ largestPower) : Fits significand exponent := by
  rcases le_or_gt exponent 0 with hneg | hpos
  · exact .of_nonpos (hsignificand.trans hlimit) hneg
  · obtain ⟨j, rfl⟩ := Int.eq_ofNat_of_zero_le hpos.le
    obtain ⟨k, rfl⟩ := Int.eq_ofNat_of_zero_le (hpos.le.trans hexponent)
    have hjk : j ≤ k := by exact_mod_cast hexponent
    have hk : k ≤ largestPower := by exact_mod_cast hlargest
    obtain ⟨m', hm'⟩ := exists_ofNat? hlimit
    obtain ⟨m, hm, hle⟩ := ofNat?_mono hsignificand hm'
    obtain ⟨p', hp'⟩ := Option.isSome_iff_exists.mp ((fits_iff_of_nonneg hk hm').mp h)
    obtain ⟨p, hp, -⟩ := exists_mul? hle (powerOfTen_mono hjk hk) hp'
    rw [fits_iff_of_nonneg (hjk.trans hk) hm, hp]
    rfl

/-! ## The decimals that doubles are written with -/

/-- The greatest double but one. -/
def secondGreatest : Magnitude := ⟨magnitudeCount - 2, by decide⟩

/-- The greatest decimal on a grid that rounds to a double other than the greatest. -/
def greatestOnGrid (k : Nat) : Nat := secondGreatest.highEnd / (Nat.pow 10 k * quarterUnits)

/-- On coarser grids the greatest decimal is smaller. -/
theorem greatestOnGrid_anti {j k : Nat} (h : j ≤ k) : greatestOnGrid k ≤ greatestOnGrid j := by
  have hpos : 0 < Nat.pow 10 j * quarterUnits :=
    Nat.mul_pos (Nat.pow_pos (by decide)) quarterUnits_pos
  have hle : Nat.pow 10 j * quarterUnits ≤ Nat.pow 10 k * quarterUnits :=
    Nat.mul_le_mul_right _ (pow_le_pow h)
  exact Nat.div_le_div_left hle hpos

/-- On the coarse grids all of these will do. -/
theorem fits_greatestOnGrid (i : Fin 18) : Fits (greatestOnGrid (291 + i)) (291 + i : Nat) := by
  revert i
  decide +kernel

/-- So does the greatest double. -/
theorem shortest_greatest {m : Magnitude} (h : m.place = magnitudeCount - 1) :
    m.shortest = ⟨17976931348623157, 292⟩ := by
  have hgreatest : m = ⟨magnitudeCount - 1, by decide⟩ := by
    cases m
    subst h
    rfl
  rw [hgreatest]
  decide +kernel

/-- Every double but the greatest is rounded to from below the end of the greatest but one. -/
theorem highEnd_le_secondGreatest {m : Magnitude} (h : m.place ≠ magnitudeCount - 1) :
    m.highEnd ≤ secondGreatest.highEnd := by
  have hlt := m.place_lt
  exact highEnd_mono (show m.place ≤ magnitudeCount - 2 by omega)

/-- A double is written with a decimal that is not too large. -/
theorem fits_shortest {m : Magnitude} (hm : 0 < m.quarters) {k : Nat}
    (hk : m.shortest.exponent = k) : k ≤ largestPower ∧ Fits m.shortest.digits k := by
  by_cases hgreatest : m.place = magnitudeCount - 1
  · have hshortest := shortest_greatest hgreatest
    rw [hshortest] at hk ⊢
    have hk' : (292 : Int) = k := hk
    obtain rfl : 292 = k := by omega
    exact ⟨by decide, by decide +kernel⟩
  · have hunit : 0 < Nat.pow 10 k * quarterUnits :=
      Nat.mul_pos (Nat.pow_pos (by decide)) quarterUnits_pos
    have hend : m.shortest.digits * (Nat.pow 10 k * quarterUnits) ≤ secondGreatest.highEnd := by
      have hle := m.shortest_le_highEnd
      have hspacing : spacing (k : Int) = (Nat.pow 10 k * quarterUnits, 1) := by
        have hzero : (-(k : Int)).toNat = 0 := by omega
        rw [spacing, hzero, Int.toNat_natCast]
      rw [hk, hspacing, Nat.mul_one] at hle
      exact hle.trans (highEnd_le_secondGreatest hgreatest)
    have hgrid : m.shortest.digits ≤ greatestOnGrid k := (Nat.le_div_iff_mul_le hunit).mpr hend
    have hdigits := digits_shortest_lt hm
    have hlimit : significandLimit = 2 ^ 64 - 1 := rfl
    have hlargest : largestPower = 308 := rfl
    -- on fine grids the number of digits is bound enough, on coarse ones there are few points
    rcases Nat.lt_or_ge k 291 with hfine | hcoarse
    · have hfits : Fits (10 * (1 <<< 54)) (290 : Nat) := by decide +kernel
      rw [Nat.one_shiftLeft] at hfits
      exact ⟨by omega, hfits.mono (by omega) hdigits.le (by omega) (by omega)⟩
    · rcases Nat.lt_or_ge k 309 with hlt | hge
      · have hfits := fits_greatestOnGrid ⟨k - 291, by omega⟩
        have hindex : 291 + (k - 291) = k := by omega
        rw [show 291 + ((⟨k - 291, by omega⟩ : Fin 18) : Nat) = k from hindex] at hfits
        have hcoarsest : greatestOnGrid 291 ≤ significandLimit := by decide +kernel
        exact ⟨by omega, hfits.mono ((greatestOnGrid_anti hcoarse).trans hcoarsest) hgrid
          (Int.le_refl _) (by omega)⟩
      · -- on grids as coarse as these there is nothing but zero
        have hzero : greatestOnGrid 309 = 0 := by decide +kernel
        have hmono := greatestOnGrid_anti hge
        have := exponent_shortest_of_digits_eq_zero (m := m) (by omega)
        omega

end StreamWatch.Json
