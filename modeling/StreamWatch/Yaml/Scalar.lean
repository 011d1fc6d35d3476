import StreamWatch.Text.Hex
import StreamWatch.Yaml
import StreamWatch.Yaml.Cursor

/-!
# Reading YAML scalars

A scalar is plain or stands in quotes, and may go on over several lines: the line end and the blanks
around it are one space, or as many line ends as there are empty lines. No line but the first starts
before the margin.
-/

namespace StreamWatch.Yaml

/-! ## Between the words of a scalar -/

/-- What the lines of a scalar are joined by when so many lines ended. -/
def joint : Nat → List Char
  | 0 => []
  | 1 => [' ']
  | ends + 2 => List.replicate (ends + 1) '\n'

/-- What lies between the last character of a scalar and the next. -/
inductive Break where
  | blanks (chars : List Char)
  /-- So many lines ended. -/
  | lines (ends : Nat)
  /-- A line ended behind a backslash, and so many more lines. -/
  | escaped (ends : Nat)

namespace Break

/-- Nothing. -/
def none : Break := blanks []

/-- Adds a blank or a line end. -/
def add (c : Char) : Break → Break
  | blanks chars => if c = '\n' then lines 1 else blanks (chars ++ [c])
  | lines ends => if c = '\n' then lines (ends + 1) else lines ends
  | escaped ends => if c = '\n' then escaped (ends + 1) else escaped ends

/-- What stands in the scalar for this. -/
def chars : Break → List Char
  | blanks chars => chars
  | lines ends => joint ends
  | escaped ends => List.replicate ends '\n'

end Break

/-! ## Plain scalars -/

/-- The characters that delimit the parts of a flow list or map. -/
def flowMarks : List Char := [',', '[', ']', '{', '}']

/-- Whether a character of a plain scalar comes next. A colon ends the scalar where a space follows
it, and inside brackets the characters that delimit their parts do. -/
def isAtPlain (inFlow : Bool) : Cursor → Bool
  | [] => false
  | (c, p) :: rest =>
    if Cursor.isAtSpace ((c, p) :: rest) || inFlow && flowMarks.contains c then false
    else c ≠ ':' || !(Cursor.isAtSpace rest || inFlow && Cursor.isAtAny flowMarks rest)

/-- Whether a dash comes next that no word inside brackets starts with. -/
def isAtFlowDash : Cursor → Bool
  | [] => false
  | (c, _) :: rest => c = '-' && Cursor.isAtAny flowMarks rest

/-- The part of a plain scalar that is being read. -/
inductive PlainPart where
  | word
  | gap (pause : Break)
  /-- In a gap behind a tab before the margin, where no word may follow. -/
  | tabbed (pause : Break)
  /-- In a comment behind such a tab. Its line does not count. -/
  | comment (pause : Break)

/-- What a plain scalar goes on with, and the text behind it and the gap that ends it. -/
def plainRest? (inFlow : Bool) (margin : Nat) (part : PlainPart) :
    Cursor → Option (List Char × Cursor)
  | [] => some ([], [])
  | (c, p) :: rest =>
    let here : Cursor := (c, p) :: rest
    let readOn (pause : Break) : Option (List Char × Cursor) := do
      if isAtPlain inFlow here then
        let (more, after) ← plainRest? inFlow margin .word rest
        return (pause.chars ++ c :: more, after)
      else return ([], here)
    match part with
    | .word =>
      if here.isAtSpace then plainRest? inFlow margin (.gap (Break.none.add c)) rest
      else readOn .none
    | .gap pause =>
      if c = '\n' then plainRest? inFlow margin (.gap (pause.add c)) rest
      else if c = '\t' && p.leads && p.column < margin then
        plainRest? inFlow margin (.tabbed pause) rest
      else if isLineBlank c then plainRest? inFlow margin (.gap (pause.add c)) rest
      else if !inFlow && p.column < margin || here.isAtAnySeparator || c = '#' then some ([], here)
      else if inFlow && isAtFlowDash here then none
      else readOn pause
    | .tabbed pause =>
      if c = '\n' then plainRest? inFlow margin (.gap (pause.add c)) rest
      else if isLineBlank c then plainRest? inFlow margin (.tabbed pause) rest
      else if c = '#' then plainRest? inFlow margin (.comment pause) rest
      else none
    | .comment pause =>
      if c = '\n' then plainRest? inFlow margin (.gap pause) rest
      else plainRest? inFlow margin (.comment pause) rest

/-- The plain scalar that starts here, and the text behind it and the gap that ends it. Inside
brackets the first line does not start before the margin either. -/
def plain? (inFlow : Bool) (margin : Nat) : Cursor → Option (List Char × Cursor)
  | [] => none
  | (c, p) :: rest =>
    let here : Cursor := (c, p) :: rest
    if inFlow && (p.column < margin || isAtFlowDash here) || !isAtPlain inFlow here then none
    else do
      let (more, after) ← plainRest? inFlow margin .word rest
      return (c :: more, after)

/-! ## Quoted scalars -/

/-- Whether a line of a quoted scalar starts here before the margin, or separates documents. -/
def isOutside (margin : Nat) : Cursor → Bool
  | [] => false
  | (c, p) :: rest =>
    c ≠ ' ' && c ≠ '\n' && p.leads &&
      (p.column < margin || Cursor.isAtAnySeparator ((c, p) :: rest))

/-- What single-quoted text goes on with, and the text behind the quote that ends it. Two quotes are
one. -/
def singleQuoted? (margin : Nat) (pause : Break) : Cursor → Option (List Char × Cursor)
  | [] => none
  | ('\'', _) :: ('\'', _) :: rest => do
    let (more, after) ← singleQuoted? margin .none rest
    return (pause.chars ++ '\'' :: more, after)
  | ('\'', _) :: rest => some (pause.chars, rest)
  | (c, _) :: rest =>
    if isLineBlank c || c = '\n' then
      if isOutside margin rest then none else singleQuoted? margin (pause.add c) rest
    else do
      let (more, after) ← singleQuoted? margin .none rest
      return (pause.chars ++ c :: more, after)

/-- The escapes of one letter. -/
def escapes : List (Char × Char) :=
  [('0', '\x00'), ('a', '\x07'), ('b', '\x08'), ('t', '\t'), ('\t', '\t'), ('n', '\n'),
    ('v', '\x0b'), ('f', '\x0c'), ('r', '\r'), ('e', '\x1b'), (' ', ' '), ('"', '"'), ('/', '/'),
    ('\\', '\\'), ('N', '\u0085'), ('_', '\u00a0'), ('L', '\u2028'), ('P', '\u2029')]

/-- The character with a number. -/
def charOf? (n : Nat) : Option Char := if n.isValidChar then some (Char.ofNat n) else none

/-- The character that hexadecimal digits name. -/
def hexChar? (digits : Cursor) : Option Char := do
  charOf? (← Hex.read? 0 (digits.map (·.1)))

/-- What double-quoted text goes on with, and the text behind the quote that ends it. -/
def doubleQuoted? (margin : Nat) (pause : Break) : Cursor → Option (List Char × Cursor)
  | [] => none
  | ('"', _) :: rest => some (pause.chars, rest)
  | ('\\', _) :: ('\n', _) :: ('"', _) :: rest => some (pause.chars, rest)
  | ('\\', _) :: ('\n', _) :: rest => do
    if isOutside margin rest then none
    let (more, after) ← doubleQuoted? margin (.escaped 0) rest
    return (pause.chars ++ more, after)
  | ('\\', _) :: ('x', _) :: a :: b :: rest => do
    let c ← hexChar? [a, b]
    let (more, after) ← doubleQuoted? margin .none rest
    return (pause.chars ++ c :: more, after)
  | ('\\', _) :: ('u', _) :: a :: b :: c :: d :: rest => do
    let c ← hexChar? [a, b, c, d]
    let (more, after) ← doubleQuoted? margin .none rest
    return (pause.chars ++ c :: more, after)
  | ('\\', _) :: ('U', _) :: a :: b :: c :: d :: e :: f :: g :: h :: rest => do
    let c ← hexChar? [a, b, c, d, e, f, g, h]
    let (more, after) ← doubleQuoted? margin .none rest
    return (pause.chars ++ c :: more, after)
  | ('\\', _) :: (letter, _) :: rest => do
    let (_, c) ← escapes.find? (·.1 = letter)
    let (more, after) ← doubleQuoted? margin .none rest
    return (pause.chars ++ c :: more, after)
  | (c, _) :: rest =>
    if isLineBlank c || c = '\n' then
      if isOutside margin rest then none else doubleQuoted? margin (pause.add c) rest
    else do
      let (more, after) ← doubleQuoted? margin .none rest
      return (pause.chars ++ c :: more, after)

/-- Whether the line may go on like this behind a quoted scalar: it ends, or the scalar is a key
that began on the same line, or a part of a flow list or map. -/
def mayFollowQuoted (inFlow sameLine : Bool) (cs : Cursor) : Bool :=
  cs.isAtLineEnd || cs.isAt ':' && (inFlow || sameLine) || inFlow && cs.isAtAny [',', ']', '}']

/-- The quoted scalar that starts here, and the text behind it and the blanks and the comment that
follow it on its line. -/
def quoted? (inFlow : Bool) (margin : Nat) : Cursor → Option (List Char × Cursor)
  | [] => none
  | (quote, p) :: rest => do
    let (text, after) ← if quote = '\'' then singleQuoted? margin .none rest
      else doubleQuoted? margin .none rest
    let after ← after.skipInLine?
    let sameLine := after.head?.any fun (_, q) => q.line = p.line
    if mayFollowQuoted inFlow sameLine after then some (text, after) else none

end StreamWatch.Yaml
