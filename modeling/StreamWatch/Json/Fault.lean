import StreamWatch.Binary64.Text
import StreamWatch.Text.Quoted

/-!
# What can be wrong with a JSON document

Reading stops at the first thing that is wrong, be it the syntax of the document or a value that
does not fit where it stands. `Fault` names the cause; `Fault.message` is the one place where it is
put into words, and `Fault.isTruncation` tells the documents that merely end too early.
-/

namespace StreamWatch.Json

/-- A value that was found where another kind of value belongs. -/
inductive Found where
  | null
  | flag (value : Bool)
  | integer (value : Int)
  | real (value : Binary64)
  | text (value : String)
  | sequence
  | map
deriving DecidableEq

/-- The first thing wrong with a document. -/
inductive Fault where
  /-- The document ends where a value, a list, an object or a string goes on. -/
  | endsInValue
  | endsInList
  | endsInObject
  | endsInString
  /-- Characters stand where the syntax wants others. -/
  | expectedValue
  | expectedWord
  | expectedColon
  | expectedCommaOrBrace
  | expectedCommaOrBracket
  | keyNotString
  | trailingComma
  | trailingCharacters
  | invalidNumber
  | numberOutOfRange
  | invalidEscape
  | loneSurrogate
  | cutSurrogatePair
  | controlCharacter
  | tooDeep
  /-- A value is well written and does not fit. -/
  | missingField (field : String)
  | duplicateField (field : String)
  | unknownVariant (variant : String) (known : List String)
  | wrongType (found : Found) (expected : String)
  | outOfRange (value : Int) (expected : String)
  | wrongLength (length : Nat) (expected : String)
  | notUuid
deriving DecidableEq

/-- The words for a value that was found. -/
def Found.describe : Found → String
  | .null => "null"
  | .flag value => s!"boolean `{value}`"
  | .integer value => s!"integer `{value}`"
  | .real value => "floating point `" ++ String.ofList (DoubleLayout.json.write value) ++ "`"
  | .text value => "string " ++ Quoted.encode value
  | .sequence => "sequence"
  | .map => "map"

/-- The choice among known names. -/
def describeChoice : List String → String
  | [] => "there are no variants"
  | [a] => s!"expected `{a}`"
  | [a, b] => s!"expected `{a}` or `{b}`"
  | names => "expected one of " ++ ", ".intercalate (names.map fun name => s!"`{name}`")

/-- What is wrong, in words. -/
def Fault.message : Fault → String
  | .endsInValue => "EOF while parsing a value"
  | .endsInList => "EOF while parsing a list"
  | .endsInObject => "EOF while parsing an object"
  | .endsInString => "EOF while parsing a string"
  | .expectedValue => "expected value"
  | .expectedWord => "expected ident"
  | .expectedColon => "expected `:`"
  | .expectedCommaOrBrace => "expected `,` or `\x7d`"
  | .expectedCommaOrBracket => "expected `,` or `]`"
  | .keyNotString => "key must be a string"
  | .trailingComma => "trailing comma"
  | .trailingCharacters => "trailing characters"
  | .invalidNumber => "invalid number"
  | .numberOutOfRange => "number out of range"
  | .invalidEscape => "invalid escape"
  | .loneSurrogate => "lone leading surrogate in hex escape"
  | .cutSurrogatePair => "unexpected end of hex escape"
  | .controlCharacter => "control character (\\u0000-\\u001F) found while parsing a string"
  | .tooDeep => "recursion limit exceeded"
  | .missingField field => s!"missing field `{field}`"
  | .duplicateField field => s!"duplicate field `{field}`"
  | .unknownVariant variant known => s!"unknown variant `{variant}`, " ++ describeChoice known
  | .wrongType found expected => s!"invalid type: {found.describe}, expected {expected}"
  | .outOfRange value expected => s!"invalid value: integer `{value}`, expected {expected}"
  | .wrongLength length expected => s!"invalid length {length}, expected {expected}"
  | .notUuid => "UUID parsing failed"

/-- Whether the document ends too early and nothing else is wrong with it. -/
def Fault.isTruncation : Fault → Bool
  | .endsInValue | .endsInList | .endsInObject | .endsInString => true
  | _ => false

end StreamWatch.Json
