import StreamWatch.Binary64.Shortest
import StreamWatch.Proofs.Binary64.Order

/-!
# The size of the shortest decimal

The shortest decimal of a double rounds to that double, so it lies below the upper end of the
interval of reals that do: `Magnitude.shortest_le_highEnd`. No coarser grid has a point there, so
its digits fit into 64 bits: `Magnitude.digits_shortest_lt`.
-/

namespace StreamWatch.Magnitude

variable {m : Magnitude} {num den : Nat}

theorem quarterUnits_pos : 0 < quarterUnits := Nat.mul_pos (by decide) finest_pos

/-! ## Hits -/

/-- The upper end lies half a spacing above the magnitude. -/
theorem highEnd_eq (m : Magnitude) : m.highEnd = m.quarters + 2 ^ (m.scale + 1) := by
  rw [highEnd, Nat.shiftLeft_eq, Nat.pow_succ']

/-- The upper end in steps of half a spacing. -/
theorem highEnd_eq_mul (m : Magnitude) :
    m.highEnd = (2 * m.significand + 1) * 2 ^ (m.scale + 1) := by
  rw [highEnd_eq, quarters, units_eq]
  ring

theorem scale_mono {m m' : Magnitude} (h : m.place ≤ m'.place) : m.scale ≤ m'.scale :=
  Nat.sub_le_sub_right (Nat.div_le_div_right h) 1

/-- Greater magnitudes do not have smaller upper ends. -/
theorem highEnd_mono {m m' : Magnitude} (h : m.place ≤ m'.place) : m.highEnd ≤ m'.highEnd := by
  rw [highEnd_eq, highEnd_eq, quarters, quarters]
  exact Nat.add_le_add (Nat.mul_le_mul_left _ (units_le_units_iff.mpr h))
    (Nat.pow_le_pow_right Nat.two_pos (Nat.succ_le_succ (scale_mono h)))

/-- The lower end lies below the magnitude. -/
theorem lowEnd_lt_quarters (hm : 0 < m.quarters) : m.lowEnd < m.quarters := by
  have hpos := Nat.two_pow_pos m.scale
  unfold lowEnd
  rw [Nat.shiftLeft_eq]
  split <;> omega

/-- What rounds to a magnitude does not lie above the upper end. -/
theorem le_highEnd_of_roundsHere (h : m.roundsHere num den) : num ≤ m.highEnd * den := by
  unfold roundsHere at h
  split at h
  · simp only [Bool.and_eq_true, decide_eq_true_eq] at h
    exact h.2
  · simp only [Bool.and_eq_true, decide_eq_true_eq] at h
    exact h.2.le

/-- What lies strictly between the ends rounds to the magnitude. -/
theorem roundsHere_of_between (hlow : m.lowEnd * den < num) (hhigh : num < m.highEnd * den) :
    m.roundsHere num den := by
  unfold roundsHere
  split <;> simp [hlow, hhigh, hlow.le, hhigh.le]

/-- The point that is taken on a grid is a hit. -/
theorem isHit_of_pointOn? {point : Nat} (h : m.pointOn? num den = some point) :
    m.isHit num den point := by
  unfold pointOn? at h
  dsimp only at h
  split at h
  · next hbelow =>
      split at h
      · next habove =>
          obtain rfl := Option.some.inj h
          unfold nearer
          dsimp only
          split
          · exact hbelow
          · split
            · exact habove
            · rcases Nat.mod_two_eq_zero_or_one (m.quarters * den / num) with heven | hodd
              · rwa [heven]
              · rwa [hodd]
      · obtain rfl := Option.some.inj h
        exact hbelow
  · split at h
    · next habove =>
        obtain rfl := Option.some.inj h
        exact habove
    · cases h

/-- A grid without a hit is coarser than half the spacing of the doubles. -/
theorem spacing_lt_of_pointOn?_eq_none (hm : 0 < m.quarters) (hnum : 0 < num) (hden : 0 < den)
    (h : m.pointOn? num den = none) : den * 2 ^ (m.scale + 1) < num := by
  -- if the grid were finer, one of the two points around the magnitude would be a hit
  by_contra hle
  let low := m.quarters * den / num
  have hmiss : ¬ m.isHit num den low ∧ ¬ m.isHit num den (low + 1) := by
    unfold pointOn? at h
    dsimp only at h
    split at h
    · split at h <;> cases h
    · next hbelow =>
        split at h
        · cases h
        · next habove => exact ⟨hbelow, habove⟩
  have hquarters : m.quarters * den < m.highEnd * den := by
    rw [highEnd_eq]
    exact Nat.mul_lt_mul_of_pos_right (Nat.lt_add_of_pos_right (Nat.two_pow_pos _)) hden
  have hlowEnd : m.lowEnd * den < m.quarters * den :=
    Nat.mul_lt_mul_of_pos_right (lowEnd_lt_quarters hm) hden
  have hbelow : low * num ≤ m.quarters * den := Nat.div_mul_le_self _ _
  have habove : m.quarters * den < (low + 1) * num :=
    Nat.lt_mul_of_div_lt (Nat.lt_succ_self low) hnum
  have hnext : (low + 1) * num = low * num + num := Nat.succ_mul low num
  have hhighEnd : m.highEnd * den = m.quarters * den + den * 2 ^ (m.scale + 1) := by
    rw [highEnd_eq]
    ring
  rcases Nat.lt_or_ge ((low + 1) * num) (m.highEnd * den) with hlt | hge
  · refine hmiss.2 ?_
    rw [isHit, Bool.and_eq_true, decide_eq_true_eq]
    exact ⟨Nat.succ_pos low, roundsHere_of_between (by omega) hlt⟩
  · -- the point above can only be the upper end, and then the point below is the magnitude
    refine hmiss.1 ?_
    have hself : low * num = m.quarters * den := by omega
    have hpos : 0 < low := by
      refine Nat.pos_of_ne_zero fun hzero => ?_
      rw [hzero, Nat.zero_mul] at hself
      exact (Nat.mul_pos hm hden).ne hself
    rw [isHit, Bool.and_eq_true, decide_eq_true_eq, hself]
    exact ⟨hpos, roundsHere_of_between hlowEnd hquarters⟩

/-! ## Grids -/

/-- The points of a grid are apart, however fine it is. -/
theorem spacing_pos (e : Int) : 0 < (spacing e).1 ∧ 0 < (spacing e).2 :=
  ⟨Nat.mul_pos (Nat.pow_pos (by decide)) quarterUnits_pos, Nat.pow_pos (by decide)⟩

/-- The next coarser grid is ten times as wide. -/
theorem spacing_succ (e : Int) :
    (spacing (e + 1)).1 * (spacing e).2 = 10 * ((spacing e).1 * (spacing (e + 1)).2) := by
  change 10 ^ (e + 1).toNat * quarterUnits * 10 ^ (-e).toNat =
    10 * (10 ^ e.toNat * quarterUnits * 10 ^ (-(e + 1)).toNat)
  rcases le_or_gt 0 e with hpos | hneg
  · have hsucc : (e + 1).toNat = e.toNat + 1 := by omega
    have hzero : (-e).toNat = 0 ∧ (-(e + 1)).toNat = 0 := by omega
    rw [hsucc, hzero.1, hzero.2]
    ring
  · have hsucc : (-e).toNat = (-(e + 1)).toNat + 1 := by omega
    have hzero : (e + 1).toNat = 0 ∧ e.toNat = 0 := by omega
    rw [hsucc, hzero.1, hzero.2]
    ring

/-! ## The shortest decimal -/

/-- The shortest decimal is a hit on its grid, and the next coarser grid has none, if that is one of
those that are searched. -/
theorem shortest_cases (m : Magnitude) :
    m.shortest = ⟨0, 0⟩ ∨
      m.isHit (spacing m.shortest.exponent).1 (spacing m.shortest.exponent).2 m.shortest.digits ∧
      (m.shortest.exponent = 310 ∨ m.onGrid? (m.shortest.exponent + 1) = none) := by
  cases hfound : gridExponents.findSome? m.onGrid? with
  | none =>
      left
      rw [shortest, hfound]
      rfl
  | some d =>
      right
      have hshortest : m.shortest = d := by
        rw [shortest, hfound]
        rfl
      obtain ⟨before, e, after, hsplit, hgrid, hnone⟩ := List.findSome?_eq_some_iff.mp hfound
      obtain ⟨point, hpoint, rfl⟩ := Option.map_eq_some_iff.mp hgrid
      rw [hshortest]
      refine ⟨isHit_of_pointOn? hpoint, ?_⟩
      -- the exponents go down one by one
      have hat (i : Nat) (h : i < gridExponents.length) : gridExponents[i] = 310 - (i : Int) := by
        simp [gridExponents]
      have hlength : before.length < gridExponents.length := by
        rw [hsplit, List.length_append, List.length_cons]
        omega
      have he : e = 310 - (before.length : Int) := by
        rw [← hat _ hlength]
        exact (List.getElem_of_append hsplit rfl).symm
      rcases Nat.eq_zero_or_pos before.length with hfirst | hlater
      · left
        change e = 310
        omega
      · right
        have hmem : before[before.length - 1] ∈ before := List.getElem_mem _
        have hprevious : before[before.length - 1] = e + 1 := by
          have hsame : before[before.length - 1] = gridExponents[before.length - 1] := by
            have hlast : before.length - 1 < before.length := by omega
            simp only [hsplit, List.getElem_append_left hlast]
          rw [hsame, hat, he]
          omega
        change m.onGrid? (e + 1) = none
        rw [← hprevious]
        exact hnone _ hmem

/-- The shortest decimal of nothing has no exponent. -/
theorem exponent_shortest_of_digits_eq_zero (h : m.shortest.digits = 0) :
    m.shortest.exponent = 0 := by
  rcases m.shortest_cases with hzero | ⟨hhit, -⟩
  · rw [hzero]
  · simp [isHit, h] at hhit

/-- Only so many grids are searched. -/
theorem exponent_shortest_bounds (m : Magnitude) :
    -349 ≤ m.shortest.exponent ∧ m.shortest.exponent ≤ 310 := by
  cases hfound : gridExponents.findSome? m.onGrid? with
  | none =>
      rw [shortest, hfound]
      exact ⟨by decide, by decide⟩
  | some d =>
      obtain ⟨e, he, hgrid⟩ := List.exists_of_findSome?_eq_some hfound
      obtain ⟨point, -, rfl⟩ := Option.map_eq_some_iff.mp hgrid
      obtain ⟨i, hi, rfl⟩ := List.mem_map.mp he
      rw [List.mem_range] at hi
      rw [shortest, hfound, Option.getD_some]
      dsimp only
      omega

/-- The shortest decimal does not lie above the interval of what rounds to the magnitude. -/
theorem shortest_le_highEnd (m : Magnitude) :
    m.shortest.digits * (spacing m.shortest.exponent).1 ≤
      m.highEnd * (spacing m.shortest.exponent).2 := by
  rcases m.shortest_cases with hzero | ⟨hhit, -⟩
  · rw [hzero, Nat.zero_mul]
    exact Nat.zero_le _
  · rw [isHit, Bool.and_eq_true] at hhit
    exact le_highEnd_of_roundsHere hhit.2

/-- The coarsest spacing is that of the greatest doubles. -/
theorem scale_le (m : Magnitude) : m.scale ≤ 2045 := by
  have hplace := m.place_lt
  unfold magnitudeCount at hplace
  unfold scale
  rw [octave_eq] at *
  omega

/-- The shortest decimal has few enough digits for 64 bits. -/
theorem digits_shortest_lt (hm : 0 < m.quarters) : m.shortest.digits < 10 * 2 ^ 54 := by
  rcases m.shortest_cases with hzero | ⟨-, hgrid⟩
  · rw [hzero]
    exact Nat.zero_lt_succ _
  · set e := m.shortest.exponent
    obtain ⟨hnum, hden⟩ := spacing_pos e
    have hle : m.shortest.digits * (spacing e).1 ≤ m.highEnd * (spacing e).2 :=
      m.shortest_le_highEnd
    have hhigh : m.highEnd < 2 ^ 54 * 2 ^ (m.scale + 1) := by
      rw [highEnd_eq_mul]
      have hlt := m.significand_lt
      exact Nat.mul_lt_mul_of_pos_right (by omega) (Nat.two_pow_pos _)
    -- half a spacing of the doubles is less than ten times the spacing of the grid
    have hcoarse : 2 ^ (m.scale + 1) * (spacing e).2 ≤ 10 * (spacing e).1 := by
      rcases hgrid with hfirst | hnone
      · rw [hfirst]
        have hall : (1 <<< 2046) * (spacing 310).2 ≤ 10 * (spacing 310).1 := by decide +kernel
        rw [Nat.one_shiftLeft] at hall
        have hscale := m.scale_le
        exact (Nat.mul_le_mul_right _ (Nat.pow_le_pow_right Nat.two_pos (by omega))).trans hall
      · obtain ⟨hnum', hden'⟩ := spacing_pos (e + 1)
        have hlt := spacing_lt_of_pointOn?_eq_none hm hnum' hden' (Option.map_eq_none_iff.mp hnone)
        refine Nat.le_of_mul_le_mul_right ?_ hden'
        calc 2 ^ (m.scale + 1) * (spacing e).2 * (spacing (e + 1)).2
            = (spacing (e + 1)).2 * 2 ^ (m.scale + 1) * (spacing e).2 := by ring
          _ ≤ (spacing (e + 1)).1 * (spacing e).2 := Nat.mul_le_mul_right _ hlt.le
          _ = 10 * (spacing e).1 * (spacing (e + 1)).2 := by rw [spacing_succ]; ring
    refine Nat.lt_of_mul_lt_mul_right (a := (spacing e).1) ?_
    calc m.shortest.digits * (spacing e).1 ≤ m.highEnd * (spacing e).2 := hle
      _ < 2 ^ 54 * 2 ^ (m.scale + 1) * (spacing e).2 := Nat.mul_lt_mul_of_pos_right hhigh hden
      _ = 2 ^ 54 * (2 ^ (m.scale + 1) * (spacing e).2) := by ring
      _ ≤ 2 ^ 54 * (10 * (spacing e).1) := Nat.mul_le_mul_left _ hcoarse
      _ = 10 * 2 ^ 54 * (spacing e).1 := by ring

end StreamWatch.Magnitude
