import StreamWatch.Json.Skip
import StreamWatch.Json.Value
import StreamWatch.Uuid

/-!
# Typed values in JSON

A `Codec` reads and writes the values of one type. Values of records are read member by member, in
the order in which the document gives them, straight into the type of each field; so of two faults
the one that comes first in the document is found first, whether it lies in the syntax or in a
value. A record may also be given as a list of its fields in their own order.
-/

namespace StreamWatch.Json

/-- Reads and writes the values of one type. -/
structure Codec (α : Type) where
  read : Reader α
  write : α → List Char
  /-- The value of a field that a record does not mention, if there is one. -/
  absent : Option α := none

namespace Codec

/-- Reads a document that is one value of the type. -/
def ofChars {α : Type} (codec : Codec α) (text : List Char) : Except Fault α :=
  Reader.document codec.read text

/-- Reads a document that is one value of the type. -/
def ofString {α : Type} (codec : Codec α) (text : String) : Except Fault α :=
  codec.ofChars text.toList

/-! ## Values that do not fit -/

/-- Reads enough of a value to tell what it is, and reports that it does not fit. -/
def mismatch {α : Type} (expected : String) : Reader α := do
  let wrong (found : Found) : Reader α := throw (.wrongType found expected)
  match ← Reader.peekValue with
  | 'n' => Reader.word Reader.nullTail; wrong .null
  | 't' => Reader.word Reader.trueTail; wrong (.flag true)
  | 'f' => Reader.word Reader.falseTail; wrong (.flag false)
  | '"' => wrong (.text (← Reader.string))
  | '[' => wrong .sequence
  | '{' => wrong .map
  | c =>
    if startsNumber c then
      match ← Reader.number with
      | .integer n => wrong (.integer n)
      | .real x => wrong (.real x)
    else throw .expectedValue

/-! ## Single values -/

/-- Truth values. -/
def flag : Codec Bool where
  read := do
    match ← Reader.peekValue with
    | 't' => Reader.word Reader.trueTail; return true
    | 'f' => Reader.word Reader.falseTail; return false
    | _ => mismatch "a boolean"
  write b := Value.write (.flag b)

/-- Reads a string that is described by `expected`. -/
def readText (expected : String) : Reader String := do
  match ← Reader.peekValue with
  | '"' => Reader.string
  | _ => mismatch expected

/-- Strings. -/
def text : Codec String where
  read := readText "a string"
  write := Value.writeText

/-- Identifiers. -/
def uuid : Codec Uuid where
  read := do
    match Uuid.ofString? (← readText "a formatted UUID string") with
    | some id => return id
    | none => throw .notUuid
  write id := '"' :: id.toChars ++ ['"']

/-- Reads a number that is described by `expected`. -/
def readNumber (expected : String) : Reader Number := do
  if startsNumber (← Reader.peekValue) then Reader.number else mismatch expected

/-- Reads an integer between two bounds. -/
def readInteger (expected : String) (least greatest : Int) : Reader Int := do
  match ← readNumber expected with
  | .integer n =>
    if least ≤ n ∧ n ≤ greatest then return n else throw (.outOfRange n expected)
  | .real x => throw (.wrongType (.real x) expected)

/-- Signed 64-bit integers. -/
def int64 : Codec Int64 where
  read := do return Int64.ofInt (← readInteger "i64" Int64.minValue.toInt Int64.maxValue.toInt)
  write n := writeInt n.toInt

/-- Unsigned 32-bit integers. -/
def uint32 : Codec UInt32 where
  read := do return UInt32.ofNat (← readInteger "u32" 0 (UInt32.size - 1)).toNat
  write n := writeInt n.toNat

/-- Doubles. Any number will do; an integer goes to the nearest double. -/
def real : Codec Binary64 where
  read := do
    match ← readNumber "f64" with
    | .integer n => return Binary64.ofInt n
    | .real x => return x
  write x := DoubleLayout.json.write x

/-! ## Names of a few alternatives -/

/-- Reads a name and looks up what it stands for. -/
def readName {α : Type} (names : List (String × α)) : Reader α := do
  let name ← readText "variant identifier"
  match names.find? fun (known, _) => known == name with
  | some (_, a) => return a
  | none => throw (.unknownVariant name (names.map (·.1)))

/-- Reads `null`. -/
def readNull : Reader Unit := do
  match ← Reader.peekValue with
  | 'n' => Reader.word Reader.nullTail
  | _ => mismatch "unit"

/-- Alternatives, each written by its name: as a string, or as the key of an object whose one member
is null. -/
def named {α : Type} [BEq α] (names : List (String × α)) : Codec α where
  read := do
    match ← Reader.peekValue with
    | '"' => readName names
    | '{' =>
      Reader.advance
      let a ← readName names
      Reader.colon
      readNull
      match ← Reader.peek? with
      | some '}' => Reader.advance; return a
      | some _ => throw .expectedValue
      | none => throw .endsInObject
    | _ => throw .expectedValue
  write a := Value.writeText (((names.find? fun (_, b) => a == b).map (·.1)).getD "")

/-! ## Values made of values -/

/-- Values that may be missing; a missing one is written as null. -/
def optional {α : Type} (codec : Codec α) : Codec (Option α) where
  read := do
    match ← Reader.peek? with
    | some 'n' => Reader.word Reader.nullTail; return none
    | _ => return some (← codec.read)
  write
    | none => Value.write .null
    | some a => codec.write a
  absent := some none

/-- Writes texts with commas between them. -/
def withCommas : List (List Char) → List Char
  | [] => []
  | [cs] => cs
  | cs :: rest => cs ++ ',' :: withCommas rest

/-- Lists. -/
def list {α : Type} (codec : Codec α) : Codec (List α) where
  read := do
    match ← Reader.peekValue with
    | '[' => Reader.list codec.read
    | _ => mismatch "a sequence"
  write values := '[' :: withCommas (values.map codec.write) ++ [']']

end Codec

/-! ## Records -/

/-- A field of a record. -/
structure Field (α : Type) where
  name : String
  codec : Codec α
  /-- The value of the field where it is not given, also at the end of a list of fields. -/
  default : Option α := none

/-- The fields of a record in their order. The values of all fields make a nested pair; the second
index is the same pair with each value still to be found. -/
inductive Fields : Type → Type → Type 1 where
  | nil : Fields Unit Unit
  | cons {α τ δ : Type} (field : Field α) (rest : Fields τ δ) : Fields (α × τ) (Option α × δ)

namespace Fields

/-- How many fields there are. -/
def count {τ δ : Type} : Fields τ δ → Nat
  | .nil => 0
  | .cons _ rest => rest.count + 1

/-- The draft in which no value has been found. -/
def empty {τ δ : Type} : Fields τ δ → δ
  | .nil => ()
  | .cons _ rest => (none, rest.empty)

/-- Reads the value of a member into the draft, once its key is read. A member that no field is
named after is passed over. -/
def readMember {τ δ : Type} : Fields τ δ → String → δ → Reader δ
  | .nil, _, draft => do
    Reader.colon
    Reader.skipValue
    return draft
  | .cons field rest, key, (slot, others) =>
    if key = field.name then
      match slot with
      | some _ => throw (.duplicateField field.name)
      | none => do
        Reader.colon
        return (some (← field.codec.read), others)
    else do return (slot, ← rest.readMember key others)

/-- The values of all fields, once the object has ended. -/
def finish {τ δ : Type} : Fields τ δ → δ → Except Fault τ
  | .nil, _ => .ok ()
  | .cons field rest, (slot, others) =>
    match slot <|> field.default <|> field.codec.absent with
    | some a => do return (a, ← rest.finish others)
    | none => .error (.missingField field.name)

/-- Reads the fields from a list, the first one being the field of this index. -/
def readElements {τ δ : Type} (expected : String) : Nat → Fields τ δ → Reader τ
  | _, .nil => return ()
  | index, .cons field rest => do
    if ← Reader.nextElement (index == 0) then
      let a ← field.codec.read
      return (a, ← readElements expected (index + 1) rest)
    else
      match field.default with
      | some a => return (a, ← readElements expected (index + 1) rest)
      | none => throw (.wrongLength index expected)

/-- The text of every member. -/
def writeMembers {τ δ : Type} : Fields τ δ → τ → List (List Char)
  | .nil, _ => []
  | .cons field rest, (a, others) =>
    (Value.writeText field.name ++ ':' :: field.codec.write a) :: rest.writeMembers others

end Fields

/-- What a list of the fields of a record is called. -/
def describeFields (name : String) (count : Nat) : String :=
  s!"struct {name} with {count} " ++ if count = 1 then "element" else "elements"

/-- Records, as objects or as lists of their fields. -/
def Codec.record {τ δ α : Type} (name : String) (fields : Fields τ δ) (make : τ → α)
    (parts : α → τ) : Codec α where
  read := do
    match ← Reader.peekValue with
    | '{' =>
      let draft ← Reader.object fields.readMember fields.empty
      match fields.finish draft with
      | .ok values => return make values
      | .error fault => throw fault
    | '[' =>
      Reader.advance
      let values ← fields.readElements (describeFields name fields.count) 0
      Reader.closeList
      return make values
    | _ => Codec.mismatch s!"struct {name}"
  write a := '{' :: Codec.withCommas (fields.writeMembers (parts a)) ++ ['}']

end StreamWatch.Json
