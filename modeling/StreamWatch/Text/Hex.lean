/-!
# Hexadecimal digits

Numbers in base sixteen: letters are read in either case and written in lower case.
-/

namespace StreamWatch.Hex

/-- The value of a hexadecimal digit. -/
def value? (c : Char) : Option Nat :=
  if '0' ≤ c ∧ c ≤ '9' then some (c.toNat - '0'.toNat)
  else if 'a' ≤ c ∧ c ≤ 'f' then some (c.toNat - 'a'.toNat + 10)
  else if 'A' ≤ c ∧ c ≤ 'F' then some (c.toNat - 'A'.toNat + 10)
  else none

/-- The number that digits write after those already read. -/
def read? (soFar : Nat) : List Char → Option Nat
  | [] => some soFar
  | c :: rest => do read? (16 * soFar + (← value? c)) rest

/-- The last `count` digits of a number. -/
def write (n : Nat) : Nat → List Char
  | 0 => []
  | count + 1 => write (n / 16) count ++ [Nat.digitChar (n % 16)]

end StreamWatch.Hex
