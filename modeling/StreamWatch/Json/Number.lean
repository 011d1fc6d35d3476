import StreamWatch.Json.Reader

/-!
# JSON numbers

A number without fraction and exponent is an integer as long as it fits into 64 bits, signed or
unsigned; every other number is a double. The double is computed from the leading digits that fit
into 64 bits and one multiplication or division by a power of ten, each step rounded, so its last
bits may differ from those of the decimal that is written.
-/

namespace StreamWatch.Json

/-- A number as JSON tells them apart. -/
inductive Number where
  | integer (value : Int)
  | real (value : Binary64)
deriving DecidableEq

/-! ## Digits -/

/-- The value of a decimal digit. -/
def digit? (c : Char) : Option Nat := if c.isDigit then some (c.toNat - '0'.toNat) else none

/-- Whether a text goes on with a digit. -/
def startsWithDigit (cs : List Char) : Bool := cs.head?.any Char.isDigit

/-- Appends digits to a number as long as the result is at most `limit`: the number, how many
digits were taken, and the rest of the text. -/
def takeDigits (limit : Nat) : Nat → Nat → List Char → Nat × Nat × List Char
  | n, taken, [] => (n, taken, [])
  | n, taken, c :: rest =>
    match digit? c with
    | some d =>
      if limit < n * 10 + d then (n, taken, c :: rest)
      else takeDigits limit (n * 10 + d) (taken + 1) rest
    | none => (n, taken, c :: rest)

/-- The largest significand. -/
def significandLimit : Nat := UInt64.size - 1

/-- The largest exponent that is computed with. -/
def exponentLimit : Nat := 0x7fffffff

/-! ## Powers of ten -/

/-- The double nearest to a power of ten. -/
def powerOfTen (k : Nat) : Magnitude := (Magnitude.ofNat? (Nat.pow 10 k)).getD .zero

/-- The exponent of the largest power of ten that a double can hold. -/
def largestPower : Nat := 308

/-- Divides so many times by the largest power of ten that a double can hold. -/
def divideByLargest : Nat → Magnitude → Option Magnitude
  | 0, m => some m
  | times + 1, m =>
    if m.place = 0 then some m
    else (m.div? (powerOfTen largestPower)).bind (divideByLargest times)

/-- Divides by a power of ten, in steps that are powers a double can hold. -/
def scaleDown (m : Magnitude) (k : Nat) : Option Magnitude :=
  let times := (k - 1) / largestPower
  (divideByLargest times m).bind (·.div? (powerOfTen (k - times * largestPower)))

/-- Multiplies by a power of ten; nothing when the result is too large for a double. -/
def scaleByTen (m : Magnitude) (exponent : Int) : Option Magnitude :=
  if exponent < 0 then scaleDown m (-exponent).toNat
  else if exponent ≤ largestPower then m.mul? (powerOfTen exponent.toNat)
  else if m.place = 0 then some m
  else none

/-- The double that a significand and a decimal exponent stand for. -/
def scaled (negative : Bool) (significand : Nat) (exponent : Int) : Except Fault Number :=
  match (Magnitude.ofNat? significand).bind (scaleByTen · exponent) with
  | some m => .ok (.real (.finite negative m))
  | none => .error .numberOutOfRange

/-! ## Reading -/

/-- A number that starts with these digits and goes on with its exponent: the text after the letter
`e`. -/
def exponentPart (negative : Bool) (significand : Nat) (start : Int) (cs : List Char) :
    Except Fault (Number × List Char) :=
  let (down, cs) := match cs with
    | '+' :: rest => (false, rest)
    | '-' :: rest => (true, rest)
    | _ => (false, cs)
  match cs with
  | [] => .error .endsInValue
  | c :: _ =>
    if !c.isDigit then .error .invalidNumber
    else
      let (exponent, _, rest) := takeDigits exponentLimit 0 0 cs
      if startsWithDigit rest then
        if significand ≠ 0 ∧ !down then .error .numberOutOfRange
        else .ok (.real (.finite negative .zero), rest.dropWhile Char.isDigit)
      else do
        let number ←
          scaled negative significand (if down then start - exponent else start + exponent)
        return (number, rest)

/-- A number that starts with these digits and may go on with an exponent. -/
def maybeExponent (negative : Bool) (significand : Nat) (exponent : Int) (cs : List Char) :
    Except Fault (Number × List Char) :=
  match cs with
  | 'e' :: rest | 'E' :: rest => exponentPart negative significand exponent rest
  | _ => do return (← scaled negative significand exponent, cs)

/-- A number that starts with these digits and goes on with its fraction: the text after the
point. Digits that no longer fit are passed over. -/
def fractionPart (negative : Bool) (significand : Nat) (exponent : Int) (cs : List Char) :
    Except Fault (Number × List Char) :=
  let (significand, taken, rest) := takeDigits significandLimit significand 0 cs
  if startsWithDigit rest then
    maybeExponent negative significand (exponent - taken) (rest.dropWhile Char.isDigit)
  else if taken = 0 then .error (if rest.isEmpty then .endsInValue else .invalidNumber)
  else maybeExponent negative significand (exponent - taken) rest

/-- The number that a sign and digits write when nothing follows them. -/
def wholeNumber (negative : Bool) (significand : Nat) : Number :=
  if !negative then .integer significand
  else if significand = 0 ∨ -(significand : Int) < Int64.minValue.toInt then
    .real (Binary64.signed true (Magnitude.ofNat? significand))
  else .integer (-significand)

/-- A number that starts with these digits. -/
def afterDigits (negative : Bool) (significand : Nat) (cs : List Char) :
    Except Fault (Number × List Char) :=
  match cs with
  | '.' :: rest => fractionPart negative significand 0 rest
  | 'e' :: rest | 'E' :: rest => exponentPart negative significand 0 rest
  | _ => .ok (wholeNumber negative significand, cs)

/-- A number whose digits no longer fit: the others only raise the exponent. -/
def afterLongDigits (negative : Bool) (significand : Nat) (cs : List Char) :
    Except Fault (Number × List Char) :=
  let rest := cs.dropWhile Char.isDigit
  let exponent : Int := cs.length - rest.length
  match rest with
  | '.' :: rest => fractionPart negative significand exponent rest
  | _ => maybeExponent negative significand exponent rest

/-- Reads a number after its sign. -/
def unsignedNumber (negative : Bool) : List Char → Except Fault (Number × List Char)
  | [] => .error .endsInValue
  | '0' :: rest =>
    if startsWithDigit rest then .error .invalidNumber else afterDigits negative 0 rest
  | c :: rest =>
    if !c.isDigit then .error .invalidNumber
    else
      let (significand, _, rest) := takeDigits significandLimit 0 0 (c :: rest)
      if startsWithDigit rest then afterLongDigits negative significand rest
      else afterDigits negative significand rest

/-- Reads a number whose first character, a minus or a digit, was looked at. -/
def Reader.number : Reader Number := fun cs =>
  match cs with
  | '-' :: rest => unsignedNumber true rest
  | _ => unsignedNumber false cs

/-- Whether a character can start a number. -/
def startsNumber (c : Char) : Bool := c = '-' || c.isDigit

/-! ## Writing -/

/-- Writes an integer. -/
def writeInt (n : Int) : List Char :=
  (if n < 0 then ['-'] else []) ++ Nat.toDigits 10 n.natAbs

/-- Writes a number. -/
def Number.write : Number → List Char
  | .integer value => writeInt value
  | .real value => DoubleLayout.json.write value

end StreamWatch.Json
