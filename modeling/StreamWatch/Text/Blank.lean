/-!
# Blank characters

The characters that Unicode calls white space, and texts without the blanks at their ends.
-/

namespace StreamWatch

/-- Whether a character is white space in the sense of Unicode. -/
def isBlank (c : Char) : Bool :=
  let n := c.toNat
  (0x9 ≤ n && n ≤ 0xd) || n = 0x20 || n = 0x85 || n = 0xa0 || n = 0x1680 ||
    (0x2000 ≤ n && n ≤ 0x200a) || n = 0x2028 || n = 0x2029 || n = 0x202f || n = 0x205f ||
    n = 0x3000

/-- Whether a text holds nothing but blanks. -/
def isAllBlank (cs : List Char) : Bool := cs.all isBlank

/-- A text without the blanks at its ends. -/
def trimBlanks (cs : List Char) : List Char :=
  ((cs.dropWhile isBlank).reverse.dropWhile isBlank).reverse

/-- A string without the blanks at its ends. -/
def trimmed (s : String) : String := String.ofList (trimBlanks s.toList)

/-- Whether two strings agree when ASCII letters are read without their case. -/
def sameIgnoringCase (s t : String) : Bool :=
  s.toList.map Char.toLower == t.toList.map Char.toLower

end StreamWatch
