import StreamWatch.Json.Number

/-!
# JSON documents as values

A document of any shape is read into a `Value`. The members of an object are kept in the order of
their keys, each key once: a later member of the same key replaces an earlier one. Writing gives
the compact text, without space.
-/

namespace StreamWatch.Json

/-- A JSON document. -/
inductive Value where
  | null
  | flag (value : Bool)
  | number (value : Number)
  | text (value : String)
  | list (elements : List Value)
  | object (members : List (String × Value))

instance : Inhabited Value := ⟨.null⟩

namespace Value

/-! ## Members -/

/-- Puts a member in its place among members that are in the order of their keys. -/
def insertMember (key : String) (value : Value) :
    List (String × Value) → List (String × Value)
  | [] => [(key, value)]
  | (k, v) :: rest =>
    if key < k then (key, value) :: (k, v) :: rest
    else if key = k then (key, value) :: rest
    else (k, v) :: insertMember key value rest

/-- The object with these members, later ones replacing earlier ones of the same key. -/
def ofMembers (members : List (String × Value)) : Value :=
  .object (members.foldl (fun sorted (k, v) => insertMember k v sorted) [])

/-- The value of a member. -/
def member? (key : String) : Value → Option Value
  | .object members => (members.find? fun (k, _) => k == key).map (·.2)
  | _ => none

/-! ## Reading -/

/-- How many lists and objects may be open at once. -/
def deepest : Nat := 127

/-- Reads a value, the values inside it by `inner`; without that, no list or object may begin. -/
def readerOver (inner : Option (Reader Value)) : Reader Value := do
  match ← Reader.peekValue with
  | 'n' => Reader.word Reader.nullTail; return .null
  | 't' => Reader.word Reader.trueTail; return .flag true
  | 'f' => Reader.word Reader.falseTail; return .flag false
  | '"' => return .text (← Reader.string)
  | '[' =>
    match inner with
    | none => throw .tooDeep
    | some read => return .list (← Reader.list read)
  | '{' =>
    match inner with
    | none => throw .tooDeep
    | some read =>
      let member (key : String) (members : List (String × Value)) :
          Reader (List (String × Value)) := do
        Reader.colon
        return insertMember key (← read) members
      return .object (← Reader.object member [])
  | c => if startsNumber c then return .number (← Reader.number) else throw .expectedValue

/-- Reads a value in which at most so many lists and objects are open at once. -/
def reader : Nat → Reader Value
  | 0 => readerOver none
  | depth + 1 => readerOver (some (reader depth))

/-- Reads a document. -/
def ofChars (text : List Char) : Except Fault Value := Reader.document (reader deepest) text

/-! ## Writing -/

/-- One character of a string: quotes, backslashes and control characters are escaped. -/
def writeChar (c : Char) : List Char :=
  match c with
  | '"' => ['\\', '"']
  | '\\' => ['\\', '\\']
  | '\x08' => ['\\', 'b']
  | '\x0c' => ['\\', 'f']
  | '\n' => ['\\', 'n']
  | '\r' => ['\\', 'r']
  | '\t' => ['\\', 't']
  | _ => if c.toNat < 0x20 then '\\' :: 'u' :: Hex.write c.toNat 4 else [c]

/-- Writes a string. -/
def writeText (s : String) : List Char := '"' :: s.toList.flatMap writeChar ++ ['"']

mutual

/-- Writes a value without space. -/
def write : Value → List Char
  | .null => ['n', 'u', 'l', 'l']
  | .flag true => ['t', 'r', 'u', 'e']
  | .flag false => ['f', 'a', 'l', 's', 'e']
  | .number value => value.write
  | .text value => writeText value
  | .list elements => '[' :: writeElements elements ++ [']']
  | .object members => '{' :: writeMembers members ++ ['}']

/-- Writes values with commas between them. -/
def writeElements : List Value → List Char
  | [] => []
  | [v] => write v
  | v :: rest => write v ++ ',' :: writeElements rest

/-- Writes members with commas between them. -/
def writeMembers : List (String × Value) → List Char
  | [] => []
  | [(k, v)] => writeText k ++ ':' :: write v
  | (k, v) :: rest => writeText k ++ ':' :: write v ++ ',' :: writeMembers rest

end

/-- The compact text of a value. -/
protected def toString (v : Value) : String := String.ofList v.write

end Value

end StreamWatch.Json
