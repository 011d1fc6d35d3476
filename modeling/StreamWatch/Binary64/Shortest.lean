import StreamWatch.Binary64

/-!
# The shortest decimal that reads back

Among the decimals that round to a given magnitude, the one written here lies on the coarsest grid
of powers of ten that has such a decimal at all; of two on the same grid the nearer is taken, and
the even one if both are equally near. On the coarsest grid no digit can be dropped, so the digits
never end in zero.
-/

namespace StreamWatch

/-- The decimal `digits * 10 ^ exponent`. -/
structure Decimal where
  digits : Nat
  exponent : Int
deriving DecidableEq

namespace Magnitude

/-! ## The decimals that round to a magnitude -/

/-- A quarter of the finest spacing: small enough to write the ends of the interval of reals that
round to a magnitude as whole numbers. -/
def quarterUnits : Nat := 4 * finest

/-- The magnitude in quarter units. -/
def quarters (m : Magnitude) : Nat := 4 * m.units

/-- The lower end of the interval, in quarter units. Below a power of two the spacing halves. -/
def lowEnd (m : Magnitude) : Nat :=
  m.quarters - (if m.significand = octave ∧ 0 < m.scale then 1 else 2) <<< m.scale

/-- The upper end of the interval, in quarter units. -/
def highEnd (m : Magnitude) : Nat := m.quarters + 2 <<< m.scale

/-- Whether `num / den` quarter units round to the magnitude: the ends count when the significand
is even. -/
def roundsHere (m : Magnitude) (num den : Nat) : Bool :=
  if m.significand % 2 = 0 then m.lowEnd * den ≤ num && num ≤ m.highEnd * den
  else m.lowEnd * den < num && num < m.highEnd * den

/-! ## Grids of powers of ten -/

/-- The spacing `10 ^ exponent` in quarter units, as a quotient. -/
def spacing (exponent : Int) : Nat × Nat :=
  (Nat.pow 10 exponent.toNat * quarterUnits, Nat.pow 10 (-exponent).toNat)

/-- Whether a point of a grid rounds to the magnitude. -/
def isHit (m : Magnitude) (num den point : Nat) : Bool :=
  0 < point && m.roundsHere (point * num) den

/-- The nearer of a point below the magnitude and the next one, the even one if both are equally
near. -/
def nearer (m : Magnitude) (num den low : Nat) : Nat :=
  let below := m.quarters * den - low * num
  let above := (low + 1) * num - m.quarters * den
  if below < above then low else if above < below then low + 1 else low + low % 2

/-- The points of one grid next to the magnitude that round to it, the better one. -/
def pointOn? (m : Magnitude) (num den : Nat) : Option Nat :=
  let low := m.quarters * den / num
  if m.isHit num den low then
    if m.isHit num den (low + 1) then some (m.nearer num den low) else some low
  else if m.isHit num den (low + 1) then some (low + 1)
  else none

/-- The best decimal on one grid that rounds to the magnitude. -/
def onGrid? (m : Magnitude) (exponent : Int) : Option Decimal :=
  (m.pointOn? (spacing exponent).1 (spacing exponent).2).map (⟨·, exponent⟩)

/-- The exponents of the grids from the coarsest that can hold a double down to one that is finer
than any needs. -/
def gridExponents : List Int := (List.range 660).map fun (i : Nat) => 310 - (i : Int)

/-- The shortest decimal that rounds to a positive magnitude. -/
def shortest (m : Magnitude) : Decimal :=
  (gridExponents.findSome? m.onGrid?).getD ⟨0, 0⟩

end Magnitude

end StreamWatch
