import StreamWatch.Json.Fault
import StreamWatch.Text.Hex

/-!
# Reading the parts of a JSON document

A `Reader` takes the rest of a document and gives a value and what follows it, or the first fault.
Here are the parts that every other reader is made of: space, words, strings, and the punctuation
of lists and objects.
-/

namespace StreamWatch.Json

/-- Reads a value off the front of a text, or says what is wrong with the text. -/
abbrev Reader := StateT (List Char) (Except Fault)

/-- Whether a character may stand between the parts of a document. -/
def isSpace (c : Char) : Bool := c = ' ' || c = '\n' || c = '\t' || c = '\r'

namespace Reader

/-- Passes over space and looks at the next character. -/
def peek? : Reader (Option Char) := fun cs =>
  let rest := cs.dropWhile isSpace
  .ok (rest.head?, rest)

/-- Passes over the character that was looked at. -/
def advance : Reader Unit := fun cs => .ok ((), cs.drop 1)

/-- Looks at the first character of a value. -/
def peekValue : Reader Char := do
  match ← peek? with
  | some c => return c
  | none => throw .endsInValue

/-- Passes over the letters of a word. -/
def letters : List Char → Reader Unit
  | [] => fun cs => .ok ((), cs)
  | w :: ws => fun cs =>
    match cs with
    | [] => .error .endsInValue
    | c :: rest => if c = w then letters ws rest else .error .expectedWord

/-- The letters after the first one of `null`, `true` and `false`. -/
def nullTail : List Char := ['u', 'l', 'l']
/-- The letters after the first one of `true`. -/
def trueTail : List Char := ['r', 'u', 'e']
/-- The letters after the first one of `false`. -/
def falseTail : List Char := ['a', 'l', 's', 'e']

/-- Passes over a word whose first character was looked at. -/
def word (tail : List Char) : Reader Unit := do
  advance
  letters tail

end Reader

/-! ## Strings -/

/-- The number that four hexadecimal digits write. The digits are counted in bytes, so that a text
with fewer than four bytes left is cut short, whatever they are. -/
def hexQuad (cs : List Char) : Except Fault Nat :=
  if (cs.take 4).foldl (fun size c => size + c.utf8Size) 0 < 4 then .error .endsInString
  else
    match cs with
    | a :: b :: c :: d :: _ =>
      match Hex.read? 0 [a, b, c, d] with
      | some n => .ok n
      | none => .error .invalidEscape
    | _ => .error .invalidEscape

/-- Whether a code unit opens a surrogate pair. -/
def opensPair (n : Nat) : Bool := 0xd800 ≤ n && n ≤ 0xdbff

/-- Whether a code unit closes a surrogate pair. -/
def closesPair (n : Nat) : Bool := 0xdc00 ≤ n && n ≤ 0xdfff

/-- The character that a surrogate pair stands for. -/
def joinPair (high low : Nat) : Char :=
  Char.ofNat ((high - 0xd800) * 0x400 + (low - 0xdc00) + 0x10000)

/-- Reads the text after a backslash and the letter `u`: the character, and how many characters of
the text it takes. -/
def numberEscape (cs : List Char) : Except Fault (Char × Nat) := do
  let high ← hexQuad cs
  if closesPair high then throw .loneSurrogate
  if !opensPair high then return (Char.ofNat high, 4)
  match cs.drop 4 with
  | [] => throw .endsInString
  | '\\' :: [] => throw .endsInString
  | '\\' :: 'u' :: rest =>
    let low ← hexQuad rest
    if closesPair low then return (joinPair high low, 10) else throw .loneSurrogate
  | _ => throw .cutSurrogatePair

/-- Reads the text after a backslash: the character, and how many characters of the text it
takes. -/
def escape : List Char → Except Fault (Char × Nat)
  | [] => .error .endsInString
  | '"' :: _ => .ok ('"', 1)
  | '\\' :: _ => .ok ('\\', 1)
  | '/' :: _ => .ok ('/', 1)
  | 'b' :: _ => .ok ('\x08', 1)
  | 'f' :: _ => .ok ('\x0c', 1)
  | 'n' :: _ => .ok ('\n', 1)
  | 'r' :: _ => .ok ('\r', 1)
  | 't' :: _ => .ok ('\t', 1)
  | 'u' :: rest => (numberEscape rest).map fun (c, taken) => (c, taken + 1)
  | _ => .error .invalidEscape

/-- Reads a string up to its closing quote. The first argument counts the characters of an escape
that are still to be passed over. -/
def stringBody : Nat → List Char → Except Fault (List Char × List Char)
  | _, [] => .error .endsInString
  | taken + 1, _ :: rest => stringBody taken rest
  | 0, c :: rest =>
    if c = '"' then .ok ([], rest)
    else if c = '\\' then do
      let (d, taken) ← escape rest
      let (text, rest) ← stringBody taken rest
      return (d :: text, rest)
    else if c.toNat < 0x20 then .error .controlCharacter
    else do
      let (text, rest) ← stringBody 0 rest
      return (c :: text, rest)

/-- Reads a string whose opening quote was looked at. -/
def Reader.string : Reader String := do
  advance
  let text : List Char ← stringBody 0
  return String.ofList text

/-! ## Lists -/

/-- Goes to the next element of a list; `false` at the closing bracket. -/
def Reader.nextElement (first : Bool) : Reader Bool := do
  match ← peek? with
  | none => throw .endsInList
  | some ']' => return false
  | some c =>
    if first then return true
    if c ≠ ',' then throw .expectedCommaOrBracket
    advance
    match ← peek? with
    | some ']' => throw .trailingComma
    | some _ => return true
    | none => throw .endsInValue

/-- Passes over the closing bracket of a list. -/
def Reader.closeList : Reader Unit := do
  match ← peek? with
  | some ']' => advance
  | some ',' =>
    advance
    match ← peek? with
    | some ']' => throw .trailingComma
    | _ => throw .trailingCharacters
  | some _ => throw .trailingCharacters
  | none => throw .endsInList

/-- Reads the elements up to the closing bracket. The first argument bounds their number. -/
def Reader.elements {α : Type} (read : Reader α) : Nat → Bool → Reader (List α)
  | 0, _ => throw .endsInList
  | bound + 1, first => do
    if ← nextElement first then
      let a ← read
      return a :: (← elements read bound false)
    else return []

/-- Reads a list whose opening bracket was looked at. An element takes at least one character, so
the length of the text bounds their number. -/
def Reader.list {α : Type} (read : Reader α) : Reader (List α) := do
  advance
  let values ← elements read ((← get).length + 1) true
  closeList
  return values

/-! ## Objects -/

/-- Goes to the next member of an object and reads its key; nothing at the closing brace. -/
def Reader.nextKey? (first : Bool) : Reader (Option String) := do
  match ← peek? with
  | none => throw .endsInObject
  | some '}' => return none
  | some c =>
    if first then
      if c = '"' then return some (← string) else throw .keyNotString
    if c ≠ ',' then throw .expectedCommaOrBrace
    advance
    match ← peek? with
    | some '"' => return some (← string)
    | some '}' => throw .trailingComma
    | some _ => throw .keyNotString
    | none => throw .endsInValue

/-- Passes over the colon between a key and its value. -/
def Reader.colon : Reader Unit := do
  match ← peek? with
  | some ':' => advance
  | some _ => throw .expectedColon
  | none => throw .endsInObject

/-- Passes over the closing brace of an object. -/
def Reader.closeObject : Reader Unit := do
  match ← peek? with
  | some '}' => advance
  | some ',' => throw .trailingComma
  | some _ => throw .trailingCharacters
  | none => throw .endsInObject

/-- Reads the members up to the closing brace, each by `member` once its key is read, carrying a
state along. The second argument bounds their number. -/
def Reader.members {σ : Type} (member : String → σ → Reader σ) : Nat → Bool → σ → Reader σ
  | 0, _, _ => throw .endsInObject
  | bound + 1, first, state => do
    match ← nextKey? first with
    | none => return state
    | some key => members member bound false (← member key state)

/-- Reads an object whose opening brace was looked at. -/
def Reader.object {σ : Type} (member : String → σ → Reader σ) (start : σ) : Reader σ := do
  advance
  let state ← members member ((← get).length + 1) true start
  closeObject
  return state

/-! ## Whole documents -/

/-- Reads a document that is one value, with nothing but space after it. -/
def Reader.document {α : Type} (read : Reader α) (text : List Char) : Except Fault α := do
  let (a, rest) ← read text
  if (rest.dropWhile isSpace).isEmpty then return a else throw .trailingCharacters

end StreamWatch.Json
