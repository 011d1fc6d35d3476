/-!
# Double-precision numbers in exact arithmetic

Emission times and numeric settings are IEEE 754 doubles. This module holds them as data, so that
reading, scaling, comparing and truncating them are ordinary functions on natural numbers.

A finite double is a sign and a `Magnitude`, and a magnitude is known by its place in the order of
the finite non-negative doubles: zero has place 0, the smallest positive double has place 1, and so
on. The place is at once the bit pattern of the magnitude, so comparing magnitudes is comparing
places, and `Magnitude.ofRatio?` is the one spot where rounding happens.
-/

namespace StreamWatch

/-! ## Magnitudes -/

/-- How many doubles there are from one power of two up to the next. -/
def octave : Nat := 1 <<< 52

/-- The number of finite non-negative doubles. -/
def magnitudeCount : Nat := 2047 * octave

/-- A finite non-negative double, by its place in their order. -/
structure Magnitude where
  place : Nat
  place_lt : place < magnitudeCount
deriving DecidableEq

/-- The quotient rounded to the nearest natural number, a half going to the even neighbour. -/
def roundHalfEven (num den : Nat) : Nat :=
  let low := num / den
  let twice := 2 * (num % den)
  if twice < den then low
  else if den < twice then low + 1
  else low + low % 2

namespace Magnitude

/-- All doubles are whole multiples of `2 ^ -1074`. -/
def finest : Nat := 1 <<< 1074

/-- The binary exponent of a magnitude above the finest one. -/
def scale (m : Magnitude) : Nat := m.place / octave - 1

/-- The whole number that a magnitude scales by a power of two. -/
def significand (m : Magnitude) : Nat := m.place - m.scale * octave

/-- The magnitude counted in multiples of `2 ^ -1074`. -/
def units (m : Magnitude) : Nat := m.significand <<< m.scale

/-- Zero. -/
def zero : Magnitude := ⟨0, by decide⟩

/-- The magnitude nearest to a quotient, ties to even; nothing when the quotient is too large for a
finite double. -/
def ofRatio? (num den : Nat) : Option Magnitude :=
  let count := num * finest
  let scale := Nat.log2 (count / den) - 52
  let place := scale * octave + roundHalfEven count (den <<< scale)
  if h : place < magnitudeCount then some ⟨place, h⟩ else none

/-- The magnitude nearest to a natural number. -/
def ofNat? (n : Nat) : Option Magnitude := ofRatio? n 1

/-- The rounded product. -/
def mul? (a b : Magnitude) : Option Magnitude :=
  ofRatio? (a.units * b.units) (finest * finest)

/-- The rounded quotient by a positive magnitude. -/
def div? (a b : Magnitude) : Option Magnitude := ofRatio? a.units b.units

/-- The magnitude without its fraction. -/
def truncate (m : Magnitude) : Nat := m.units / finest

end Magnitude

/-! ## Signed doubles -/

/-- A double. All not-a-number patterns are one value. -/
inductive Binary64 where
  | finite (negative : Bool) (magnitude : Magnitude)
  | infinite (negative : Bool)
  | nan
deriving DecidableEq

namespace Binary64

/-- Positive zero. -/
def zero : Binary64 := .finite false .zero

instance : Inhabited Binary64 := ⟨zero⟩

/-- Gives a magnitude a sign; one that is too large is infinite. -/
def signed (negative : Bool) : Option Magnitude → Binary64
  | some m => .finite negative m
  | none => .infinite negative

/-- The double nearest to an integer. -/
def ofInt (n : Int) : Binary64 := signed (n < 0) (Magnitude.ofNat? n.natAbs)

/-- Whether the double is a number and not infinite. -/
def isFinite : Binary64 → Bool
  | .finite _ _ => true
  | _ => false

/-- Whether the double is one of the two zeros. -/
def isZero : Binary64 → Bool
  | .finite _ m => m.place = 0
  | _ => false

/-- The bit that says that a double is negative. -/
def signBit : Nat := 1 <<< 63

/-- The IEEE 754 bit pattern. -/
def bits : Binary64 → Nat
  | .finite negative m => m.place + if negative then signBit else 0
  | .infinite negative => magnitudeCount + if negative then signBit else 0
  | .nan => magnitudeCount + octave / 2

/-- The place of a double that is a number in the order of all of them; the two zeros share one. -/
def rank? : Binary64 → Option Int
  | .finite negative m => some (if negative then -(m.place : Int) else m.place)
  | .infinite negative => some (if negative then -(magnitudeCount : Int) else magnitudeCount)
  | .nan => none

/-- The larger of two doubles, the first if they are equal; not-a-number loses to any number. -/
def max (a b : Binary64) : Binary64 :=
  match a.rank?, b.rank? with
  | some i, some j => if i < j then b else a
  | some _, none => a
  | none, _ => b

/-- Clamps an integer into the range of 64-bit integers. -/
def clampToInt64 (n : Int) : Int64 :=
  if n < Int64.minValue.toInt then Int64.minValue
  else if Int64.maxValue.toInt < n then Int64.maxValue
  else Int64.ofInt n

/-- The double without its fraction, clamped into the range of 64-bit integers; not-a-number
counts as zero. -/
def toInt64 : Binary64 → Int64
  | .finite negative m => clampToInt64 (if negative then -(m.truncate : Int) else m.truncate)
  | .infinite negative => if negative then Int64.minValue else Int64.maxValue
  | .nan => 0

/-- The double nearest to `digits * 10 ^ exponent`, ties to even. Exponents far outside the range
of doubles are answered without computing the power. -/
def ofDecimal (negative : Bool) (digits : Nat) (exponent : Int) : Binary64 :=
  if digits = 0 then .finite negative .zero
  else
    let leading := exponent + Nat.log2 digits
    if 1100 < exponent then .infinite negative
    else if leading < -1100 then .finite negative .zero
    else if 0 ≤ exponent then
      signed negative (Magnitude.ofRatio? (digits * Nat.pow 10 exponent.toNat) 1)
    else signed negative (Magnitude.ofRatio? digits (Nat.pow 10 (-exponent).toNat))

end Binary64

end StreamWatch
