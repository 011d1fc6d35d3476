import StreamWatch.Binary64
import StreamWatch.Text.Blank
import StreamWatch.Text.Hex

/-!
# Numerals

Integers and doubles as people write them in settings: with either sign, leading zeros, a point
without digits on one of its sides, and words for what no digits can say. Integers have 64 bits; a
text that stands for a larger one is no integer, though it may be a double.
-/

namespace StreamWatch.Numeral

/-- Whether an integer fits into 64 bits. -/
def fitsInt64 (n : Int) : Bool := Int64.minValue.toInt ≤ n && n ≤ Int64.maxValue.toInt

/-- The number that digits of a base write after those already read. -/
def digits? (base soFar : Nat) : List Char → Option Nat
  | [] => some soFar
  | c :: rest => do
    let d ← Hex.value? c
    if d < base then digits? base (base * soFar + d) rest else none

/-- The number that digits of a base write; there must be one. -/
def natural? (base : Nat) : List Char → Option Nat
  | [] => none
  | cs => digits? base 0 cs

/-- A sign, if there is one, and what follows it: whether the text is negative. -/
def sign : List Char → Bool × List Char
  | '-' :: rest => (true, rest)
  | '+' :: rest => (false, rest)
  | cs => (false, cs)

/-- An integer of any size in a base, with a sign or without. -/
def signed? (base : Nat) (cs : List Char) : Option Int := do
  let (negative, rest) := sign cs
  let n ← natural? base rest
  return if negative then -n else n

/-- An integer of 64 bits in a base, with a sign or without. -/
def integer? (base : Nat) (cs : List Char) : Option Int := (signed? base cs).filter fitsInt64

/-- The exponent at the end of a decimal. -/
def exponent? : List Char → Option Int
  | [] => some 0
  | 'e' :: rest | 'E' :: rest => signed? 10 rest
  | _ => none

/-- The digits behind a point, if there is a point, and what follows them. -/
def fraction : List Char → List Char × List Char
  | '.' :: rest => rest.span Char.isDigit
  | cs => ([], cs)

/-- A decimal without sign: digits before a point, behind it or both, and maybe an exponent. -/
def decimal? (negative : Bool) (cs : List Char) : Option Binary64 := do
  let (whole, rest) := cs.span Char.isDigit
  let (part, rest) := fraction rest
  let significand ← natural? 10 (whole ++ part)
  return .ofDecimal negative significand ((← exponent? rest) - part.length)

/-- A double: a decimal, or a word for infinity or not-a-number in any case. -/
def real? (cs : List Char) : Option Binary64 :=
  let (negative, rest) := sign cs
  match String.ofList (rest.map Char.toLower) with
  | "inf" | "infinity" => some (.infinite negative)
  | "nan" => some .nan
  | _ => decimal? negative rest

end StreamWatch.Numeral
