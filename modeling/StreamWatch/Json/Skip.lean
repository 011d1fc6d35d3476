import StreamWatch.Json.Number

/-!
# Passing over values nobody asked for

The value of a member that no field is named after is passed over. Only its syntax counts: numbers
of any size, lone surrogates and any depth are fine. The open lists and objects are kept on a stack,
innermost first, so that depth costs nothing.
-/

namespace StreamWatch.Json

/-- A list or an object that is still open. -/
inductive Bracket where
  | list
  | object
deriving DecidableEq

namespace Bracket

/-- The fault of a text that ends inside a list or an object. -/
def ends : Bracket → Fault
  | .list => .endsInList
  | .object => .endsInObject

/-- The fault of a text that goes on with neither a comma nor the closing bracket. -/
def wantsComma : Bracket → Fault
  | .list => .expectedCommaOrBracket
  | .object => .expectedCommaOrBrace

/-- Whether a character closes a bracket. -/
def closedBy : Bracket → Char → Bool
  | .list, c => c = ']'
  | .object, c => c = '}'

end Bracket

namespace Reader

/-! ## Single values -/

/-- Passes over the text of a string up to its closing quote. The first argument counts the
characters of an escape that are still to be passed over. -/
def skipStringBody : Nat → List Char → Except Fault (List Char)
  | _, [] => .error .endsInString
  | taken + 1, _ :: rest => skipStringBody taken rest
  | 0, c :: rest =>
    if c = '"' then .ok rest
    else if c = '\\' then
      match rest with
      | [] => .error .endsInString
      | 'u' :: hex => do
        let _ ← hexQuad hex
        skipStringBody 5 rest
      | d :: _ =>
        if d ∈ ['"', '\\', '/', 'b', 'f', 'n', 'r', 't'] then skipStringBody 1 rest
        else .error .invalidEscape
    else if c.toNat < 0x20 then .error .controlCharacter
    else skipStringBody 0 rest

/-- Passes over a string whose opening quote was looked at. -/
def skipString : Reader Unit := fun cs => (skipStringBody 0 (cs.drop 1)).map ((), ·)

/-- Passes over an exponent, after the letter `e`. -/
def skipExponent (cs : List Char) : Except Fault (List Char) :=
  let cs := match cs with
    | '+' :: rest | '-' :: rest => rest
    | _ => cs
  if startsWithDigit cs then .ok (cs.dropWhile Char.isDigit) else .error .invalidNumber

/-- Passes over the fraction and the exponent that a number may have. -/
def skipAfterDigits : List Char → Except Fault (List Char)
  | '.' :: rest =>
    if !startsWithDigit rest then .error .invalidNumber
    else
      match rest.dropWhile Char.isDigit with
      | 'e' :: rest | 'E' :: rest => skipExponent rest
      | rest => .ok rest
  | 'e' :: rest | 'E' :: rest => skipExponent rest
  | cs => .ok cs

/-- Passes over a number after its sign. -/
def skipUnsigned : List Char → Except Fault (List Char)
  | '0' :: rest => if startsWithDigit rest then .error .invalidNumber else skipAfterDigits rest
  | cs => if startsWithDigit cs then skipAfterDigits (cs.dropWhile Char.isDigit)
    else .error .invalidNumber

/-- Passes over a number whose first character was looked at. -/
def skipNumber : Reader Unit := fun cs =>
  let cs := match cs with
    | '-' :: rest => rest
    | _ => cs
  (skipUnsigned cs).map ((), ·)

/-- Passes over one value, or over an opening bracket, which is given back. -/
def skipOpening : Reader (Option Bracket) := do
  match ← peekValue with
  | 'n' => word nullTail; return none
  | 't' => word trueTail; return none
  | 'f' => word falseTail; return none
  | '"' => skipString; return none
  | '[' => advance; return some .list
  | '{' => advance; return some .object
  | c => if startsNumber c then skipNumber; return none else throw .expectedValue

/-! ## Nested values -/

/-- Passes over closing brackets and at most one comma behind them: the brackets that are open
where the next value begins, none when the outermost is closed. `settled` tells whether a value has
just ended, so that a comma may follow. The first argument bounds the number of brackets. -/
def skipClosing : Nat → Bool → List Bracket → Reader (List Bracket)
  | 0, _, _ => throw .endsInValue
  | _, _, [] => return []
  | bound + 1, settled, bracket :: outer => do
    match ← peek? with
    | none => throw bracket.ends
    | some c =>
      if settled ∧ c = ',' then advance; return bracket :: outer
      else if bracket.closedBy c then advance; skipClosing bound true outer
      else if settled then throw bracket.wantsComma
      else return bracket :: outer

/-- Passes over the key and the colon before a member of an object. -/
def skipKey : Reader Unit := do
  match ← peek? with
  | some '"' => skipString
  | some _ => throw .keyNotString
  | none => throw .endsInObject
  colon

/-- Passes over values until no bracket is open. The first argument bounds their number, and that of
the brackets behind them. -/
def skipValues : Nat → List Bracket → Reader Unit
  | 0, _ => throw .endsInValue
  | bound + 1, opened => do
    let opening ← skipOpening
    let opened ← match opening with
      | some bracket => skipClosing (bound + 1) false (bracket :: opened)
      | none => skipClosing (bound + 1) true opened
    match opened with
    | [] => return ()
    | .list :: _ => skipValues bound opened
    | .object :: _ => do
      skipKey
      skipValues bound opened

/-- Passes over a value. Every part of it takes at least one character, so the length of the text
bounds their number. -/
def skipValue : Reader Unit := do skipValues ((← get).length + 1) []

end Reader

end StreamWatch.Json
