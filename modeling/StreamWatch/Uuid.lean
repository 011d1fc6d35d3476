import StreamWatch.Text.Hex

/-!
# Universally unique identifiers

An identifier is 128 bits. It is written in one form, lower-case hexadecimal digits in five groups,
and read in four: that form, the 32 digits alone, the grouped form in braces, and the grouped form
after `urn:uuid:`, letters in either case.
-/

namespace StreamWatch

/-- A universally unique identifier. -/
structure Uuid where
  value : BitVec 128
deriving DecidableEq, Hashable

namespace Uuid

instance : Inhabited Uuid := ⟨⟨0⟩⟩

/-! ## Groups of digits -/

/-- The sizes of the five groups. -/
def groupSizes : List Nat := [8, 4, 4, 4, 12]

/-- Writes digits in groups. -/
def hyphenate : List Nat → List Char → List Char
  | [], _ => []
  | [size], cs => cs.take size
  | size :: sizes, cs => cs.take size ++ '-' :: hyphenate sizes (cs.drop size)

/-- The digits of a grouped text, if the hyphens stand where they belong. -/
def ungroup? : List Nat → List Char → Option (List Char)
  | [], cs => if cs.isEmpty then some [] else none
  | [size], cs => if cs.length = size then some cs else none
  | size :: sizes, cs =>
    match cs.drop size with
    | '-' :: rest => (ungroup? sizes rest).map (cs.take size ++ ·)
    | _ => none

/-! ## Reading and writing -/

/-- The word before the digits of an identifier written as a uniform resource name. -/
def urnWord : List Char := ['u', 'r', 'n', ':', 'u', 'u', 'i', 'd', ':']

/-- The digits of an identifier in one of its four forms. -/
def digits? (cs : List Char) : Option (List Char) :=
  if cs.length = 32 then some cs
  else if cs.length = 36 then ungroup? groupSizes cs
  else if cs.length = 38 then
    if cs.head? = some '{' ∧ cs.getLast? = some '}' then ungroup? groupSizes (cs.drop 1).dropLast
    else none
  else if cs.length = 45 then
    if (cs.take 9).map Char.toLower = urnWord then ungroup? groupSizes (cs.drop 9) else none
  else none

/-- Reads an identifier. -/
def ofChars? (cs : List Char) : Option Uuid := do
  let n ← Hex.read? 0 (← digits? cs)
  return ⟨BitVec.ofNat 128 n⟩

/-- Reads an identifier. -/
def ofString? (s : String) : Option Uuid := ofChars? s.toList

/-- The grouped form. -/
def toChars (id : Uuid) : List Char := hyphenate groupSizes (Hex.write id.value.toNat 32)

/-- The grouped form. -/
protected def toString (id : Uuid) : String := String.ofList id.toChars

instance : ToString Uuid := ⟨Uuid.toString⟩

end Uuid

end StreamWatch
