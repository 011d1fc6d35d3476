/-!
# Text with positions

Where a line of a document begins decides what it belongs to, so a document is read as characters
that know their positions. Between two tokens there may be a gap of blanks, comments and line ends.
-/

namespace StreamWatch.Yaml

/-- Where a character stands; everything is counted from zero. -/
structure Position where
  line : Nat
  column : Nat
  /-- How many characters come before. -/
  offset : Nat
  /-- Whether nothing but blanks comes before on the line. -/
  leads : Bool
deriving DecidableEq

/-- Where a text begins. -/
def Position.start : Position := ⟨0, 0, 0, true⟩

/-- Whether a character is a blank inside a line. -/
def isLineBlank (c : Char) : Bool := c = ' ' || c = '\t'

/-- The position behind a character. -/
def Position.behind (p : Position) (c : Char) : Position :=
  if c = '\n' then ⟨p.line + 1, 0, p.offset + 1, true⟩
  else ⟨p.line, p.column + 1, p.offset + 1, p.leads && isLineBlank c⟩

/-- What is left to read of a document. -/
abbrev Cursor := List (Char × Position)

namespace Cursor

/-- Characters from a position on. -/
def ofChars (p : Position) : List Char → Cursor
  | [] => []
  | c :: rest => (c, p) :: ofChars (p.behind c) rest

/-! ## What comes next -/

/-- Whether this character comes next. -/
def isAt (c : Char) (cs : Cursor) : Bool := cs.head?.any (·.1 = c)

/-- Whether one of these characters comes next. -/
def isAtAny (chars : List Char) (cs : Cursor) : Bool := cs.head?.any fun (c, _) => chars.contains c

/-- Whether the line ends here. -/
def isAtLineEnd (cs : Cursor) : Bool := cs.head?.all (·.1 = '\n')

/-- Whether a blank comes next, or the line ends. -/
def isAtSpace (cs : Cursor) : Bool := cs.head?.all fun (c, _) => isLineBlank c || c = '\n'

/-- Whether a line that separates documents starts here: three times this character, and a space. -/
def isAtSeparator (mark : Char) : Cursor → Bool
  | (a, p) :: (b, _) :: (c, _) :: rest =>
    p.column = 0 && a = mark && b = mark && c = mark && isAtSpace rest
  | _ => false

/-- Whether any line that separates documents starts here. -/
def isAtAnySeparator (cs : Cursor) : Bool := cs.isAtSeparator '-' || cs.isAtSeparator '.'

/-! ## Gaps -/

/-- The blanks that come next. -/
def blanks (cs : Cursor) : List Char := (cs.map (·.1)).takeWhile isLineBlank

/-- The text behind the blanks and the comment that come next on the line. A comment does not begin
right behind a token. -/
def skipInLine? (cs : Cursor) : Option Cursor :=
  let next : Cursor := cs.dropWhile fun (c, _) => isLineBlank c
  if cs.isAt '#' then none
  else if next.isAt '#' then some (next.dropWhile (·.1 ≠ '\n'))
  else some next

/-- The text behind spaces, line ends and comments. -/
def skipSpaces (inComment : Bool) : Cursor → Cursor
  | [] => []
  | (c, p) :: rest =>
    if c = '\n' then skipSpaces false rest
    else if inComment || c = ' ' then skipSpaces inComment rest
    else if c = '#' then skipSpaces true rest
    else (c, p) :: rest

end Cursor

/-- The part of a gap that is being read. -/
inductive GapPart where
  | space
  | comment
  /-- Behind a tab that stands before the margin, where nothing but a comment may follow. -/
  | tabbed
deriving DecidableEq

/-- The text behind a gap, and whether a line ended in the gap or before it. Before the margin a
line is not indented with tabs. -/
def Cursor.skipGap? (margin : Nat) (part : GapPart) (ended : Bool) :
    Cursor → Option (Bool × Cursor)
  | [] => some (ended, [])
  | (c, p) :: rest =>
    if c = '\n' then skipGap? margin .space true rest
    else if part = .comment then skipGap? margin .comment ended rest
    else if c = ' ' then skipGap? margin part ended rest
    else if c = '\t' then
      skipGap? margin (if p.leads && p.column < margin then .tabbed else part) ended rest
    else if c = '#' then skipGap? margin .comment ended rest
    else if part = .tabbed then none
    else some (ended, (c, p) :: rest)

end StreamWatch.Yaml
