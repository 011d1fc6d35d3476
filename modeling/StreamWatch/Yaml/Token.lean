import StreamWatch.Yaml.Scalar

/-!
# YAML tokens

A document is read as tokens first. Where a block starts and ends follows from columns, and that a
token is a key from the colon behind it, so while tokens are read the columns of the open blocks are
kept, and which token may turn out to be a key. `none` stands for text that is malformed, and also
for text that is well-formed but not read here: with anchors, aliases, tags, directives, or scalars
that are blocks of lines.
-/

namespace StreamWatch.Yaml

/-- A token. -/
inductive Token where
  /-- A line of dashes, which a document begins with. -/
  | dashes
  /-- A line of points, which a document ends with. -/
  | points
  | blockList
  | blockMap
  | blockEnd
  /-- The dash of an element. -/
  | element
  | key
  | value
  | openList
  | closeList
  | openMap
  | closeMap
  | comma
  | scalar (value : Scalar)
deriving DecidableEq

/-! ## The state of reading -/

/-- A column that what follows has to reach. -/
structure Level where
  column : Nat
  /-- Whether a block starts in this column; otherwise something that belongs to the block around it
  has to. -/
  isBlock : Bool
deriving DecidableEq

/-- A token that may turn out to be a key. -/
structure KeyMark where
  position : Position
  /-- How many tokens come before. -/
  index : Nat
  /-- Whether nothing else can stand in its place. -/
  isRequired : Bool

/-- How far the tokens of a text have been read. -/
structure Reading where
  rest : Cursor
  /-- The tokens, last first. -/
  tokens : List Token := []
  /-- The levels, innermost first. -/
  levels : List Level := []
  /-- The last token that may turn out to be a key. -/
  key? : Option KeyMark := none
  /-- The same for the text around each open bracket, innermost first. -/
  outerKeys : List (Option KeyMark) := []
  /-- Whether a key may start here. -/
  allowsKey : Bool := true
  /-- The offset at which a colon needs no space behind it, since what a quote or a bracket ends
  comes before it. -/
  tightColon? : Option Nat := none
  /-- Whether a colon belongs to a map that was opened before. -/
  inMap : Bool := false
  /-- For each open list in brackets, innermost first, how many brackets are open around the entry
  without braces that is being read, if there is one. -/
  entries : List (Option Nat) := []

namespace Reading

/-- How many brackets are open. -/
def depth (r : Reading) : Nat := r.outerKeys.length

/-- Whether any bracket is open. -/
def inFlow (r : Reading) : Bool := !r.outerKeys.isEmpty

/-- The column that what follows has to reach. -/
def margin (r : Reading) : Nat := r.levels.head?.elim 0 Level.column

/-- The first column behind the one that the innermost level is in. -/
def innerMargin (r : Reading) : Nat := r.levels.head?.elim 0 (·.column + 1)

/-- Adds a token. -/
def push (t : Token) (r : Reading) : Reading := { r with tokens := t :: r.tokens }

/-- Adds a token at a place among the others. -/
def insert (index : Nat) (t : Token) (r : Reading) : Reading :=
  let later := r.tokens.take (r.tokens.length - index)
  { r with tokens := later ++ t :: r.tokens.drop (r.tokens.length - index) }

/-! ## Blocks -/

/-- Ends the blocks that start behind a column, or all of them. -/
def endBlocks (column? : Option Nat) (r : Reading) : Reading :=
  if r.inFlow then r
  else
    let isOver (l : Level) : Bool := column?.all (· < l.column)
    let ends := ((r.levels.takeWhile isOver).filter Level.isBlock).map fun _ => Token.blockEnd
    { r with tokens := ends ++ r.tokens, levels := r.levels.dropWhile isOver }

/-- Starts a block in a column, if none has started there yet. Its first token goes to the place
`index` among the tokens. -/
def startBlock (t : Token) (column index : Nat) (r : Reading) : Reading :=
  if r.inFlow then r
  else
    let levels := match r.levels with
      | l :: outer => if l.isBlock || column < l.column then l :: outer else outer
      | [] => []
    if levels.head?.all (·.column < column) then
      { r.insert index t with levels := ⟨column, true⟩ :: levels }
    else { r with levels := levels }

/-- What follows belongs to the innermost block, and has to stand behind its column. -/
def indent (r : Reading) : Reading :=
  match r.inFlow, r.levels with
  | false, ⟨column, true⟩ :: _ => { r with levels := ⟨column + 1, false⟩ :: r.levels }
  | _, _ => r

/-! ## Keys -/

/-- Notes that the token that comes next may be a key. -/
def markKey (p : Position) (r : Reading) : Reading :=
  if r.allowsKey then
    let isRequired := !r.inFlow && r.levels.head? = some ⟨p.column, true⟩
    { r with key? := some ⟨p, r.tokens.length, isRequired⟩ }
  else r

/-- The last token that could be a key is none. -/
def dropKey? (r : Reading) : Option Reading :=
  if r.key?.any KeyMark.isRequired then none else some { r with key? := none }

/-- The most characters between the start of a key outside of brackets and its colon. -/
def longestKey : Nat := 1024

/-- A token is no key outside of brackets if its line has ended, or if it is too far away. -/
def dropOldKey? (p : Position) (r : Reading) : Option Reading :=
  let isOld := r.key?.any fun k =>
    k.position.line < p.line || k.position.offset + longestKey < p.offset
  if !r.inFlow && isOld then r.dropKey? else some r

/-- Ends the entry without braces that is being read. -/
def endEntry (r : Reading) : Reading :=
  match r.entries with
  | some depth :: outer =>
    if depth = r.depth then { r.push .closeMap with inMap := false, entries := none :: outer }
    else r
  | _ => r

/-! ## One token -/

/-- The most brackets that may be open. -/
def deepestBracket : Nat := 255

/-- Reads an opening bracket, which the text `rest` follows. -/
def openBracket? (t : Token) (p : Position) (rest : Cursor) (r : Reading) : Option Reading := do
  let r := (r.markKey p).indent
  if deepestBracket ≤ r.depth then none
  let isMap := t = .openMap
  return { r.push t with
    rest := ← rest.skipInLine?
    key? := none
    outerKeys := r.key? :: r.outerKeys
    allowsKey := true
    inMap := isMap || r.inMap
    entries := if isMap then r.entries else none :: r.entries }

/-- Reads a closing bracket. -/
def closeBracket? (t : Token) (rest : Cursor) (r : Reading) : Option Reading := do
  let r ← r.dropKey?
  let rest ← rest.skipInLine?
  let r := if t = .closeList then { r.endEntry with entries := r.entries.drop 1 } else r
  match r.outerKeys with
  | [] => none
  | key? :: outerKeys =>
    let r := { r.push t with rest, key?, outerKeys, allowsKey := false }
    return if r.inFlow then { r with tightColon? := rest.head?.map (·.2.offset) } else r

/-- Reads a comma. -/
def comma? (rest : Cursor) (r : Reading) : Option Reading := do
  let r ← r.dropKey?
  if r.inFlow then
    return { r.endEntry.push .comma with rest := ← rest.skipInLine?, allowsKey := true }
  else none

/-- Reads the dash of an element. -/
def element? (p : Position) (rest : Cursor) (r : Reading) : Option Reading := do
  if r.inFlow || !r.allowsKey then none
  let r := r.startBlock .blockList p.column r.tokens.length
  let next ← rest.skipInLine?
  if rest.blanks.contains '\t' && next.isAt '-' && Cursor.isAtSpace (next.drop 1) then none
  let r := if next.isAt '\n' || next.isAtAny flowMarks then r.indent else r
  let r ← r.dropKey?
  return { r.push .element with rest := next, allowsKey := true }

/-- Reads the question mark of a key. -/
def question? (p : Position) (rest : Cursor) (r : Reading) : Option Reading := do
  let r ← if r.inFlow then some { r with inMap := true }
    else if r.allowsKey then some (r.startBlock .blockMap p.column r.tokens.length)
    else none
  let r ← r.dropKey?
  let next := rest.skipSpaces false
  if rest.isEmpty || next.isAt '\t' then none
  return { r.push .key with rest := next, allowsKey := !r.inFlow }

/-- The text behind the blanks that follow a colon. Tabs alone do not set it apart from a word or
a dash. -/
def skipBehindColon? (rest : Cursor) : Option Cursor := do
  if rest.isAt '\t' then
    let next ← rest.skipInLine?
    let isWord := next.head?.any fun (c, _) => c.isAlphanum || c = '_' || c = '-'
    if isWord && !rest.blanks.contains ' ' then none else some next
  else some rest

/-- Reads the colon of an entry. In a bracketed list an entry without braces is a map by itself. -/
def colon? (p : Position) (rest : Cursor) (r : Reading) : Option Reading := do
  let isAlone := !r.entries.isEmpty && !r.inMap
  let r := if isAlone then { r with entries := some r.depth :: r.entries.drop 1 } else r
  let r := { r with rest := ← skipBehindColon? rest }
  match r.key? with
  | some key =>
    if isAlone && key.position.line < p.line then none
    let r := r.insert key.index .key
    let r := if isAlone then r.insert key.index .openMap else r
    let r := (r.startBlock .blockMap key.position.column key.index).indent
    return { r.push .value with key? := none, allowsKey := false }
  | none =>
    if r.inFlow then
      let r := if isAlone then r.push .openMap else r
      return { r.push .value with allowsKey := false }
    else if r.allowsKey then
      return ((r.startBlock .blockMap p.column r.tokens.length).indent).push .value
    else none

/-- Reads a quoted scalar, and the gap behind it. -/
def quoted? (p : Position) (r : Reading) : Option Reading := do
  let r := { r.markKey p with allowsKey := false }
  let (text, rest) ← Yaml.quoted? r.inFlow r.margin r.rest
  let (ended, rest) ← rest.skipGap? r.margin .space false
  return { r.push (.scalar (.text (String.ofList text))) with
    rest
    allowsKey := ended && !r.inFlow
    tightColon? := rest.head?.map (·.2.offset) }

/-- Reads a plain scalar. A key may start behind it if its line has ended. -/
def plain? (p : Position) (r : Reading) : Option Reading := do
  let r := r.markKey p
  let r := { r with levels := r.levels.dropWhile (!·.isBlock) }
  let (text, rest) ← Yaml.plain? r.inFlow r.innerMargin r.rest
  return { r.push (.scalar (.ofPlain text)) with
    rest
    allowsKey := rest.head?.any (·.2.leads) }

/-- Reads a line that separates documents. -/
def separator? (t : Token) (r : Reading) : Option Reading := do
  let r ← (r.endBlocks none).dropKey?
  return { r.push t with rest := r.rest.drop 3, allowsKey := false }

/-- Reads the token that starts with a character; the text `rest` follows the character. Anchors,
aliases, tags, directives and blocks of lines are left out. -/
def token? (c : Char) (p : Position) (rest : Cursor) (r : Reading) : Option Reading := do
  let r ← r.dropOldKey? p
  let r := r.endBlocks (some p.column)
  if r.rest.isAtSeparator '-' then return ← r.separator? .dashes
  if r.rest.isAtSeparator '.' then
    let r ← r.separator? .points
    let rest ← r.rest.skipInLine?
    return ← if rest.isAtLineEnd then some { r with rest } else none
  if p.column < r.margin then none
  let isTight := rest.isAtAny flowMarks || r.tightColon? = some p.offset
  match c with
  | '[' => r.openBracket? .openList p rest
  | '{' => r.openBracket? .openMap p rest
  | ']' => r.closeBracket? .closeList rest
  | '}' => r.closeBracket? .closeMap rest
  | ',' => r.comma? rest
  | '\'' | '"' => r.quoted? p
  -- an anchor, an alias, a tag or a directive
  | '&' | '*' | '!' | '%' => none
  -- no token starts with these
  | '@' | '\x60' => none
  -- outside of brackets a block of lines
  | '|' | '>' => if r.inFlow then r.plain? p else none
  | '-' => if rest.isAtSpace then r.element? p rest else r.plain? p
  | '?' => if rest.isAtSpace then r.question? p rest else r.plain? p
  | ':' => if rest.isAtSpace || r.inFlow && isTight then r.colon? p rest else r.plain? p
  | _ => r.plain? p

/-! ## All tokens -/

/-- The end of the text, where all brackets have to be closed. -/
def finish? (r : Reading) : Option (List Token) :=
  if r.inFlow then none else do return (← (r.endBlocks none).dropKey?).tokens.reverse

/-- Reads up to so many tokens, and up to the end of the text. -/
def tokens? : Nat → Reading → Option (List Token)
  | 0, _ => none
  | count + 1, r => do
    let (ended, rest) ← r.rest.skipGap? r.margin .space false
    let r := { r with rest, allowsKey := r.allowsKey || ended && !r.inFlow }
    match rest with
    | [] => r.finish?
    | (c, p) :: rest => tokens? count (← r.token? c p rest)

end Reading

/-- The tokens of a text. No token is empty, so there are no more of them than characters. -/
def tokens? (text : List Char) : Option (List Token) :=
  Reading.tokens? (text.length + 1) { rest := Cursor.ofChars .start text }

end StreamWatch.Yaml
