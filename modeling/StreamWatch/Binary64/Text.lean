import StreamWatch.Binary64.Shortest

/-!
# Doubles as text

The digits of a double are those of its shortest decimal. How they are laid out differs between
the texts of this library, so the layout is a record: JSON documents switch to an exponent for very
large and very small numbers, settings never do, and some texts keep a fraction of `.0`.
-/

namespace StreamWatch

/-- How the digits of a double are laid out. -/
structure DoubleLayout where
  /-- The exponents of the leading digit, first and last, that are written without an exponent
  part; nothing means all. -/
  positional : Option (Int × Int)
  /-- Whether a whole number keeps a fraction of one zero. -/
  keepsPoint : Bool

namespace DoubleLayout

/-- JSON: positional from `0.00001` to below `10 ^ 16`, always with a fraction or an exponent. -/
def json : DoubleLayout := ⟨some (-5, 15), true⟩

/-- Settings as text: always positional, whole numbers without a fraction. -/
def plain : DoubleLayout := ⟨none, false⟩

/-- Numbers quoted in settings errors: always positional, whole numbers with a fraction. -/
def pointed : DoubleLayout := ⟨none, true⟩

/-- Writes digits without an exponent part; `exponent` is that of the last digit. -/
def writePositional (layout : DoubleLayout) (digits : List Char) (exponent : Int) : List Char :=
  if 0 ≤ exponent then
    digits ++ List.replicate exponent.toNat '0' ++ if layout.keepsPoint then ['.', '0'] else []
  else
    let places := (-exponent).toNat
    if places < digits.length then
      digits.take (digits.length - places) ++ '.' :: digits.drop (digits.length - places)
    else '0' :: '.' :: List.replicate (places - digits.length) '0' ++ digits

/-- Writes digits with an exponent part; `leading` is the exponent of the first digit. -/
def writeScientific (digits : List Char) (leading : Int) : List Char :=
  let mantissa := match digits with
    | d :: e :: rest => d :: '.' :: e :: rest
    | short => short
  let sign := if leading < 0 then '-' else '+'
  mantissa ++ 'e' :: sign :: Nat.toDigits 10 leading.natAbs

/-- Writes a magnitude. -/
def writeMagnitude (layout : DoubleLayout) (m : Magnitude) : List Char :=
  if m.place = 0 then layout.writePositional ['0'] 0
  else
    let shortest := m.shortest
    let digits := Nat.toDigits 10 shortest.digits
    let leading := shortest.exponent + digits.length - 1
    match layout.positional with
    | some (first, last) =>
      if first ≤ leading ∧ leading ≤ last then layout.writePositional digits shortest.exponent
      else writeScientific digits leading
    | none => layout.writePositional digits shortest.exponent

/-- Writes a double. -/
def write (layout : DoubleLayout) : Binary64 → List Char
  | .finite negative m => (if negative then ['-'] else []) ++ layout.writeMagnitude m
  | .infinite negative => (if negative then ['-'] else []) ++ ['i', 'n', 'f']
  | .nan => ['N', 'a', 'N']

end DoubleLayout

end StreamWatch
