import StreamWatch.Binary64.Text
import StreamWatch.Proofs.Binary64.Exact

/-!
# Whole numbers as text

The doubles next to a whole number of at most 53 bits are closer than the next whole numbers. So the
shortest decimal of such a number is the number without the zeros at its end, and its text in a JSON
document is its digits and a fraction of `.0`: `Magnitude.IsWhole.writeMagnitude`.
-/

namespace StreamWatch

namespace Magnitude

variable {m : Magnitude} {n : Nat}

/-! ## Zero -/

/-- The first place is that of zero. -/
theorem place_eq_zero_iff : m.place = 0 ↔ m.units = 0 := by
  constructor
  · intro h
    have hsignificand : m.significand = 0 := by
      have := m.place_eq
      omega
    rw [units_eq, hsignificand, Nat.zero_mul]
  · intro h
    rw [units_eq, Nat.mul_eq_zero] at h
    have hsignificand : m.significand = 0 := h.resolve_right (Nat.two_pow_pos _).ne'
    have hscale : m.scale = 0 := by
      by_contra hscale
      have := le_significand hscale
      omega
    rw [place_eq, hsignificand, hscale, Nat.zero_mul]

/-- A whole number has the first place if and only if it is zero. -/
theorem IsWhole.place_eq_zero_iff (h : m.IsWhole n) : m.place = 0 ↔ n = 0 := by
  rw [Magnitude.place_eq_zero_iff, h, Nat.mul_eq_zero, or_iff_left finest_pos.ne']

/-! ## The decimals that round to a whole number -/

/-- A whole number in quarters of a unit. -/
theorem IsWhole.quarters (h : m.IsWhole n) : m.quarters = n * quarterUnits := by
  rw [Magnitude.quarters, h, quarterUnits]
  ring

/-- Neighbouring doubles are at most one apart. -/
theorem IsWhole.two_pow_scale_le (h : m.IsWhole n) (hlt : n < 2 ^ 53) : 2 ^ m.scale ≤ finest := by
  obtain ⟨t, -, -, hfinest⟩ := exists_finest_eq
  rw [hfinest]
  refine Nat.pow_le_pow_right (by decide) ?_
  by_contra hscale
  have hlow : 2 ^ (52 + m.scale) ≤ m.units := by
    rw [units_eq, Nat.pow_add]
    exact Nat.mul_le_mul_right _ (le_significand (by omega))
  have hhigh : m.units < 2 ^ (53 + t) := by
    rw [h, hfinest, Nat.pow_add]
    exact Nat.mul_lt_mul_of_pos_right hlt (Nat.two_pow_pos _)
  have := (Nat.pow_lt_pow_iff_right (by decide : 1 < 2)).mp (Nat.lt_of_le_of_lt hlow hhigh)
  omega

/-- No other whole number rounds to it. -/
theorem IsWhole.roundsHere_iff (h : m.IsWhole n) (hn : 0 < n) (hlt : n < 2 ^ 53) (k : Nat) :
    m.roundsHere (k * quarterUnits) 1 ↔ k = n := by
  have hquarters := h.quarters
  have hscale := h.two_pow_scale_le hlt
  have hpos := Nat.two_pow_pos m.scale
  have hunit : quarterUnits = 4 * finest := rfl
  -- both ends of the interval are less than one away from the number
  have hhigh : m.quarters < m.highEnd ∧ m.highEnd < m.quarters + quarterUnits := by
    rw [highEnd, Nat.shiftLeft_eq]
    omega
  have hlow : m.quarters < m.lowEnd + quarterUnits ∧ m.lowEnd < m.quarters := by
    have hpositive : quarterUnits ≤ m.quarters := by
      rw [hquarters]
      exact Nat.le_mul_of_pos_left _ hn
    unfold lowEnd
    rw [Nat.shiftLeft_eq]
    split
    · omega
    · omega
  have hwithin : m.roundsHere (k * quarterUnits) 1 ↔
      m.lowEnd ≤ k * quarterUnits ∧ k * quarterUnits ≤ m.highEnd ∧
      (m.significand % 2 = 0 ∨ m.lowEnd < k * quarterUnits ∧ k * quarterUnits < m.highEnd) := by
    unfold roundsHere
    rw [Nat.mul_one, Nat.mul_one]
    split
    · next heven => simp [heven]
    · next hodd =>
        simp only [Bool.and_eq_true, decide_eq_true_eq]
        omega
  constructor
  · intro hrounds
    obtain ⟨hle, hle', -⟩ := hwithin.mp hrounds
    rw [hquarters] at hlow hhigh
    rcases Nat.lt_trichotomy k n with hlt | rfl | hlt
    · have := Nat.mul_le_mul_right quarterUnits (Nat.succ_le_of_lt hlt)
      rw [Nat.succ_mul] at this
      omega
    · rfl
    · have := Nat.mul_le_mul_right quarterUnits (Nat.succ_le_of_lt hlt)
      rw [Nat.succ_mul] at this
      omega
  · rintro rfl
    rw [hwithin, ← hquarters]
    omega

/-! ## The shortest decimal -/

/-- Where the next point is not a hit, the point below is taken if it is one. -/
theorem pointOn?_of_not_isHit {num den : Nat}
    (h : m.isHit num den (m.quarters * den / num + 1) = false) :
    m.pointOn? num den =
      if m.isHit num den (m.quarters * den / num) then some (m.quarters * den / num)
      else none := by
  unfold pointOn?
  simp only [h, Bool.false_eq_true, if_false]

/-- A grid holds a decimal for a whole number if its spacing divides the number. -/
theorem IsWhole.onGrid? (h : m.IsWhole n) (hn : 0 < n) (hlt : n < 2 ^ 53) (e : Nat) :
    m.onGrid? e = if 10 ^ e ∣ n then some ⟨n / 10 ^ e, e⟩ else none := by
  have hspacing : spacing (e : Int) = (10 ^ e * quarterUnits, 1) := by
    have hzero : (-(e : Int)).toNat = 0 := by omega
    simp [spacing, hzero]
  have hlow : m.quarters * 1 / (10 ^ e * quarterUnits) = n / 10 ^ e := by
    have hunits : 0 < quarterUnits := Nat.mul_pos (by decide) finest_pos
    rw [Nat.mul_one, h.quarters, Nat.mul_div_mul_right _ _ hunits]
  have hhit (k : Nat) : m.isHit (10 ^ e * quarterUnits) 1 k ↔ k * 10 ^ e = n := by
    rw [isHit, ← Nat.mul_assoc, Bool.and_eq_true, h.roundsHere_iff hn hlt, decide_eq_true_eq]
    exact and_iff_right_of_imp fun heq => Nat.pos_of_mul_pos_right (heq ▸ hn)
  have hpow : 0 < 10 ^ e := Nat.pow_pos (by decide)
  -- the point above is beyond the number, and the point below is the number or before it
  have habove : m.isHit (10 ^ e * quarterUnits) 1 (n / 10 ^ e + 1) = false := by
    rw [← Bool.not_eq_true, hhit]
    exact (Nat.lt_mul_of_div_lt (Nat.lt_succ_self _) hpow).ne'
  have hbelow : m.isHit (10 ^ e * quarterUnits) 1 (n / 10 ^ e) ↔ 10 ^ e ∣ n := by
    rw [hhit]
    exact ⟨Dvd.intro_left _, Nat.div_mul_cancel⟩
  rw [Magnitude.onGrid?, hspacing, pointOn?_of_not_isHit (by rw [hlow, habove]), hlow]
  simp only [hbelow]
  split
  · rfl
  · rfl

/-- The shortest decimal of a whole number is that number without some zeros. -/
theorem IsWhole.shortest (h : m.IsWhole n) (hn : 0 < n) (hlt : n < 2 ^ 53) :
    ∃ e : Nat, 10 ^ e ∣ n ∧ m.shortest = ⟨n / 10 ^ e, e⟩ := by
  -- the grids of whole numbers come first, and one of them holds every whole number
  let wholeExponents : List Int := (List.range 311).map fun (i : Nat) => 310 - (i : Int)
  have hsplit : ∃ rest, gridExponents = wholeExponents ++ rest :=
    ⟨(List.range 349).map fun (i : Nat) => 310 - ((311 + i : Nat) : Int), by
      rw [gridExponents, show 660 = 311 + 349 from rfl, List.range_add, List.map_append,
        List.map_map]
      rfl⟩
  have hsome : (wholeExponents.findSome? m.onGrid?).isSome := by
    refine List.findSome?_isSome_iff.mpr ⟨((0 : Nat) : Int), ?_, ?_⟩
    · exact List.mem_map.mpr ⟨310, by simp, rfl⟩
    · rw [h.onGrid? hn hlt, if_pos (by simp)]
      rfl
  obtain ⟨d, hd⟩ := Option.isSome_iff_exists.mp hsome
  obtain ⟨exponent, hmem, hgrid⟩ := List.exists_of_findSome?_eq_some hd
  obtain ⟨i, hi, rfl⟩ := List.mem_map.mp hmem
  obtain ⟨rest, hrest⟩ := hsplit
  have hnat : (310 : Int) - (i : Int) = ((310 - i : Nat) : Int) := by
    have := List.mem_range.mp hi
    omega
  rw [hnat, h.onGrid? hn hlt] at hgrid
  split at hgrid
  · next hdvd =>
      refine ⟨310 - i, hdvd, ?_⟩
      rw [Magnitude.shortest, hrest, List.findSome?_append, hd]
      exact (Option.some.inj hgrid).symm
  · cases hgrid

end Magnitude

/-! ## Text -/

/-- Multiplying by ten puts a zero behind the digits. -/
theorem toDigits_mul_pow {n : Nat} (hn : 0 < n) (e : Nat) :
    Nat.toDigits 10 (n * 10 ^ e) = Nat.toDigits 10 n ++ List.replicate e '0' := by
  induction e with
  | zero => simp
  | succ e ih =>
      have hpos : 0 < n * 10 ^ e := Nat.mul_pos hn (Nat.pow_pos (by decide))
      have hstep : n * 10 ^ (e + 1) = 10 * (n * 10 ^ e) + 0 := by ring
      rw [hstep, ← Nat.toDigits_append_toDigits (by decide) hpos (by decide), ih,
        List.append_assoc, List.replicate_succ']
      rfl

/-- A whole number is written with its digits and a fraction of zero. -/
theorem Magnitude.IsWhole.writeMagnitude {m : Magnitude} {n : Nat} (h : m.IsWhole n)
    (hle : n ≤ 10 ^ 15) :
    DoubleLayout.json.writeMagnitude m = Nat.toDigits 10 n ++ ['.', '0'] := by
  unfold DoubleLayout.writeMagnitude
  by_cases hn : n = 0
  · rw [if_pos (h.place_eq_zero_iff.mpr hn), hn]
    rfl
  · rw [if_neg (fun hplace => hn (h.place_eq_zero_iff.mp hplace))]
    have hpos : 0 < n := Nat.pos_of_ne_zero hn
    obtain ⟨e, hdvd, hshortest⟩ := h.shortest hpos (by omega)
    have hdigits : Nat.toDigits 10 n = Nat.toDigits 10 (n / 10 ^ e) ++ List.replicate e '0' := by
      have hquotient : 0 < n / 10 ^ e :=
        Nat.div_pos (Nat.le_of_dvd hpos hdvd) (Nat.pow_pos (by decide))
      rw [← toDigits_mul_pow hquotient, Nat.div_mul_cancel hdvd]
    have hlength : (Nat.toDigits 10 n).length ≤ 16 :=
      (Nat.length_toDigits_le_iff (by decide) (by decide)).mpr (by omega)
    have hlength' : 0 < (Nat.toDigits 10 (n / 10 ^ e)).length := Nat.length_toDigits_pos
    rw [hdigits, List.length_append, List.length_replicate] at hlength
    have hpositional : (-5 : Int) ≤ e + (Nat.toDigits 10 (n / 10 ^ e)).length - 1 ∧
        (e + (Nat.toDigits 10 (n / 10 ^ e)).length - 1 : Int) ≤ 15 := by omega
    simp only [hshortest, DoubleLayout.json, hpositional, and_self, if_true]
    rw [DoubleLayout.writePositional, if_pos (by omega), hdigits]
    rfl

end StreamWatch
