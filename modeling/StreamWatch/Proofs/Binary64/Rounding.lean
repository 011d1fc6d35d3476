import Mathlib.Data.Nat.Log
import StreamWatch.Proofs.Binary64.Order

/-!
# Rounding keeps the order

Of two quotients the smaller one is rounded to a lower place, or to the same: `placeOf_mono`. So
where a product or a quotient of doubles is a double, products of smaller ones are doubles too, and
so are quotients by greater ones.
-/

namespace StreamWatch

/-! ## Rounding to whole numbers -/

/-- A rounded quotient is at most a half away, and even if it is that far. -/
structure IsRounded (num den r : Nat) : Prop where
  low : 2 * (r * den) ≤ 2 * num + den
  low_even : 2 * (r * den) = 2 * num + den → r % 2 = 0
  high : 2 * num ≤ 2 * (r * den) + den
  high_even : 2 * num = 2 * (r * den) + den → r % 2 = 0

/-- Rounding half to even gives the nearest whole number, and the even one of two. -/
theorem isRounded_roundHalfEven (num : Nat) {den : Nat} (h : 0 < den) :
    IsRounded num den (roundHalfEven num den) := by
  have hsplit := Nat.div_add_mod' num den
  have hrest := Nat.mod_lt num h
  unfold roundHalfEven
  dsimp only
  generalize num / den = low at *
  have hnext : (low + 1) * den = low * den + den := Nat.succ_mul low den
  split
  · constructor <;> omega
  · split
    · constructor <;> omega
    · rcases Nat.mod_two_eq_zero_or_one low with heven | hodd
      · rw [heven, Nat.add_zero]
        constructor <;> omega
      · rw [hodd]
        constructor <;> omega

/-- Of two quotients the smaller one is not rounded further up. -/
theorem IsRounded.le {num den num' den' r r' : Nat} (h : IsRounded num den r)
    (h' : IsRounded num' den' r') (hden : 0 < den) (hden' : 0 < den')
    (hle : num * den' ≤ num' * den) : r ≤ r' := by
  by_contra hlt
  have hpos : 0 < den * den' := Nat.mul_pos hden hden'
  -- both quotients lie where the rounded numbers meet, which would then both be even
  have hlow : (2 * r) * (den * den') ≤ 2 * (num * den') + den * den' :=
    calc (2 * r) * (den * den') = 2 * (r * den) * den' := by ring
      _ ≤ (2 * num + den) * den' := Nat.mul_le_mul_right _ h.low
      _ = 2 * (num * den') + den * den' := by ring
  have hhigh : 2 * (num' * den) ≤ (2 * r' + 1) * (den * den') :=
    calc 2 * (num' * den) = 2 * num' * den := by ring
      _ ≤ (2 * (r' * den') + den') * den := Nat.mul_le_mul_right _ h'.high
      _ = (2 * r' + 1) * (den * den') := by ring
  have hmeet : 2 * r = 2 * r' + 2 := by
    have hupper : 2 * r * (den * den') ≤ (2 * r' + 2) * (den * den') := by
      rw [Nat.add_mul] at hhigh ⊢
      omega
    have := Nat.le_of_mul_le_mul_right hupper hpos
    omega
  obtain rfl : r = r' + 1 := by omega
  have hsum : (2 * (r' + 1)) * (den * den') = (2 * r' + 1) * (den * den') + den * den' := by ring
  have heq : 2 * (num * den') + den * den' = (2 * (r' + 1)) * (den * den') := by omega
  have heq' : 2 * (num' * den) = (2 * r' + 1) * (den * den') := by omega
  have heven : (r' + 1) % 2 = 0 := by
    refine h.low_even (Nat.eq_of_mul_eq_mul_right hden' ?_)
    linarith
  have heven' : r' % 2 = 0 := by
    refine h'.high_even (Nat.eq_of_mul_eq_mul_right hden ?_)
    linarith
  omega

namespace Magnitude

/-! ## Rounding to doubles -/

/-- The scale at which a quotient is rounded. -/
def scaleOf (num den : Nat) : Nat := Nat.log2 (num * finest / den) - 52

/-- The place to which a quotient is rounded. -/
def placeOf (num den : Nat) : Nat :=
  scaleOf num den * octave + roundHalfEven (num * finest) (den <<< scaleOf num den)

/-- A ratio is a double if the place it rounds to is one. -/
theorem ofRatio?_eq (num den : Nat) :
    ofRatio? num den =
      if h : placeOf num den < magnitudeCount then some ⟨placeOf num den, h⟩ else none := rfl

variable {num den num' den' : Nat}

/-- The numbers that are rounded at a scale have at most 53 bits, and above the finest scale they
have no fewer. -/
theorem isRounded_placeOf (num : Nat) (hden : 0 < den) :
    ∃ r, placeOf num den = scaleOf num den * octave + r ∧
      IsRounded (num * finest) (den * 2 ^ scaleOf num den) r ∧ r ≤ 2 ^ 53 ∧
      (scaleOf num den ≠ 0 → 2 ^ 52 ≤ r) := by
  let s := scaleOf num den
  let q := num * finest / den
  have hpos : 0 < den * 2 ^ s := Nat.mul_pos hden (Nat.two_pow_pos s)
  have hrounded := isRounded_roundHalfEven (num * finest) hpos
  have hwhole (k : Nat) : IsRounded (k * (den * 2 ^ s)) (den * 2 ^ s) k := by
    have hk := isRounded_roundHalfEven (k * (den * 2 ^ s)) hpos
    rwa [roundHalfEven_mul k hpos] at hk
  have hs : s = Nat.log2 q - 52 := rfl
  refine ⟨roundHalfEven (num * finest) (den * 2 ^ s), ?_, hrounded, ?_, fun hscale => ?_⟩
  · rw [placeOf, Nat.shiftLeft_eq]
  · refine hrounded.le (hwhole _) hpos hpos (Nat.mul_le_mul_right _ ?_)
    have hq : q < 2 ^ (53 + s) :=
      Nat.lt_of_lt_of_le Nat.lt_log2_self (Nat.pow_le_pow_right Nat.two_pos (by omega))
    calc num * finest ≤ (q + 1) * den := (Nat.lt_mul_of_div_lt (Nat.lt_succ_self q) hden).le
      _ ≤ 2 ^ (53 + s) * den := Nat.mul_le_mul_right _ hq
      _ = 2 ^ 53 * (den * 2 ^ s) := by ring
  · refine (hwhole _).le hrounded hpos hpos (Nat.mul_le_mul_right _ ?_)
    have hq : 2 ^ (52 + s) ≤ q := by
      have hlog : Nat.log2 q = 52 + s := by
        change s ≠ 0 at hscale
        omega
      rw [← hlog]
      refine Nat.log2_self_le fun hzero => ?_
      rw [hzero, Nat.log2_zero] at hlog
      omega
    calc 2 ^ 52 * (den * 2 ^ s) = 2 ^ (52 + s) * den := by ring
      _ ≤ q * den := Nat.mul_le_mul_right _ hq
      _ ≤ num * finest := Nat.div_mul_le_self _ _

/-- Of two quotients the smaller one is not rounded to a higher place. -/
theorem placeOf_mono (hden : 0 < den) (hden' : 0 < den') (h : num * den' ≤ num' * den) :
    placeOf num den ≤ placeOf num' den' := by
  obtain ⟨r, hplace, hr, hhigh, -⟩ := isRounded_placeOf num hden
  obtain ⟨r', hplace', hr', -, hlow'⟩ := isRounded_placeOf num' hden'
  have hcross : num * finest * den' ≤ num' * finest * den := by
    rw [Nat.mul_right_comm, Nat.mul_right_comm num']
    exact Nat.mul_le_mul_right _ h
  have hscale : scaleOf num den ≤ scaleOf num' den' := by
    refine Nat.sub_le_sub_right ?_ _
    rw [Nat.log2_eq_log_two, Nat.log2_eq_log_two]
    refine Nat.log_mono_right ((Nat.le_div_iff_mul_le hden').mpr ?_)
    refine Nat.le_of_mul_le_mul_right ?_ hden
    calc num * finest / den * den' * den = num * finest / den * den * den' := by ring
      _ ≤ num * finest * den' := Nat.mul_le_mul_right _ (Nat.div_mul_le_self _ _)
      _ ≤ num' * finest * den := hcross
  rw [hplace, hplace']
  rcases hscale.eq_or_lt with heq | hlt
  · rw [heq] at hr ⊢
    refine Nat.add_le_add_left (hr.le hr' ?_ ?_ ?_) _
    · exact Nat.mul_pos hden (Nat.two_pow_pos _)
    · exact Nat.mul_pos hden' (Nat.two_pow_pos _)
    · rw [← Nat.mul_assoc, ← Nat.mul_assoc]
      exact Nat.mul_le_mul_right _ hcross
  · -- a finer scale ends where the next one begins
    have hlow := hlow' (Nat.ne_zero_of_lt hlt)
    have hnext : (scaleOf num den + 1) * octave ≤ scaleOf num' den' * octave :=
      Nat.mul_le_mul_right _ hlt
    rw [octave_eq] at hnext ⊢
    omega

/-- What is smaller than a quotient that is rounded to a double is so, too. -/
theorem exists_ofRatio? (hden : 0 < den) (hden' : 0 < den') (h : num * den' ≤ num' * den)
    {m' : Magnitude} (hm' : ofRatio? num' den' = some m') :
    ∃ m, ofRatio? num den = some m ∧ m.place ≤ m'.place := by
  have hmono := placeOf_mono hden hden' h
  rw [ofRatio?_eq] at hm'
  split at hm'
  · next hlt =>
      cases hm'
      exact ⟨⟨_, Nat.lt_of_le_of_lt hmono hlt⟩, dif_pos _, hmono⟩
  · cases hm'

/-- So are the products of smaller doubles, -/
theorem exists_mul? {a b a' b' p' : Magnitude} (ha : a.place ≤ a'.place) (hb : b.place ≤ b'.place)
    (h : a'.mul? b' = some p') : ∃ p, a.mul? b = some p ∧ p.place ≤ p'.place := by
  have hpos := Nat.mul_pos finest_pos finest_pos
  refine exists_ofRatio? hpos hpos (Nat.mul_le_mul_right _ ?_) h
  exact Nat.mul_le_mul (units_le_units_iff.mpr ha) (units_le_units_iff.mpr hb)

/-- and the quotient of a double by one that is no smaller than one. -/
theorem exists_div? {a b : Magnitude} (hb : finest ≤ b.units) :
    ∃ q, a.div? b = some q ∧ q.place ≤ a.place := by
  have hself : ofRatio? a.units finest = some a := ofRatio?_eq_some finest_pos rfl
  refine exists_ofRatio? (Nat.lt_of_lt_of_le finest_pos hb) finest_pos ?_ hself
  exact Nat.mul_le_mul_left _ hb

end Magnitude

end StreamWatch
