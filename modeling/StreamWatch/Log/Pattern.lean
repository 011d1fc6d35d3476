/-!
# Patterns of texts

A pattern is written as a regular expression. Where it is found in a text is settled by preference:
as far to the left as possible, then by the earlier alternative, and by more repetitions unless a
question mark asks for fewer.
-/

namespace StreamWatch

/-- A pattern of texts. -/
inductive Pattern where
  | empty
  /-- A character that lies in one of the runs, or in none of them. -/
  | char (isOutside : Bool) (runs : List (Char × Char))
  | textStart
  | textEnd
  | append (first second : Pattern)
  | either (first second : Pattern)
  | many (isGreedy : Bool) (body : Pattern)
deriving DecidableEq

namespace Pattern

/-! ## Finding a pattern -/

/-- For a text and what is left of it behind each of its characters: where repetitions of a step
from there end, the preferred end first. A step that passes no character is the last one. -/
def repeated (isGreedy : Bool) (step : List Char → List (List Char)) :
    List Char → List (List Char × List (List Char))
  | [] => [([], [[]])]
  | c :: rest =>
    let later := repeated isGreedy step rest
    let text := c :: rest
    let onward := (step text).flatMap fun next =>
      if next.length < text.length then (later.lookup next).getD [] else [text]
    (text, (if isGreedy then onward ++ [text] else text :: onward).eraseDups) :: later

/-- What is left behind a pattern that starts here, the preferred end first; `size` is the length of
the whole text. -/
def ends (size : Nat) : Pattern → List Char → List (List Char)
  | empty, text => [text]
  | char _ _, [] => []
  | char isOutside runs, c :: rest =>
    if (runs.any fun (first, last) => first ≤ c && c ≤ last) = !isOutside then [rest] else []
  | textStart, text => if text.length = size then [text] else []
  | textEnd, text => if text.isEmpty then [text] else []
  | append first second, text => ((ends size first text).flatMap (ends size second)).eraseDups
  | either first second, text => (ends size first text ++ ends size second text).eraseDups
  | many isGreedy body, text => ((repeated isGreedy (ends size body) text).lookup text).getD []

/-- What is left behind the pattern where it is found. -/
def find? (size : Nat) (p : Pattern) : List Char → Option (List Char)
  | [] => (p.ends size []).head?
  | c :: rest =>
    match p.ends size (c :: rest) with
    | after :: _ => some after
    | [] => find? size p rest

/-- Whether the pattern reaches to the end of a text where it is found. -/
def closes (p : Pattern) (text : List Char) : Bool := p.find? text.length text = some []

/-! ## Reading a pattern -/

/-- This character. -/
def one (c : Char) : Pattern := char false [(c, c)]

/-- The runs of digits. -/
def digitRuns : List (Char × Char) := [('0', '9')]

/-- The runs of characters that words consist of. -/
def wordRuns : List (Char × Char) := [('0', '9'), ('A', 'Z'), ('_', '_'), ('a', 'z')]

/-- The runs of blanks. -/
def blankRuns : List (Char × Char) := [('\t', '\r'), (' ', ' ')]

/-- The class of characters that a letter behind a backslash names. -/
def classOf? : Char → Option (Bool × List (Char × Char))
  | 'd' => some (false, digitRuns)
  | 'D' => some (true, digitRuns)
  | 'w' => some (false, wordRuns)
  | 'W' => some (true, wordRuns)
  | 's' => some (false, blankRuns)
  | 'S' => some (true, blankRuns)
  | _ => none

/-- The character that a character behind a backslash stands for. -/
def escaped? : Char → Option Char
  | 'a' => some '\x07'
  | 'f' => some '\x0c'
  | 'n' => some '\n'
  | 'r' => some '\r'
  | 't' => some '\t'
  | 'v' => some '\x0b'
  | c => if c.toNat < 0x80 && !c.isAlphanum && c ≠ '<' && c ≠ '>' then some c else none

/-- What a backslash and the character behind it stand for. -/
def escape? : Char → Option Pattern
  | 'A' => some textStart
  | 'z' => some textEnd
  | c =>
    match classOf? c with
    | some (isOutside, runs) => some (char isOutside runs)
    | none => (escaped? c).map one

/-- The runs that a class in brackets goes on with, and the text behind it. -/
def runs? (soFar : List (Char × Char)) : List Char → Option (List (Char × Char) × List Char)
  | [] => none
  | ']' :: rest => some (soFar, rest)
  | '\\' :: c :: rest =>
    match classOf? c with
    | some (isOutside, runs) => if isOutside then none else runs? (soFar ++ runs) rest
    | none => do runs? (soFar ++ [(← escaped? c, ← escaped? c)]) rest
  | '[' :: _ => none
  | first :: '-' :: last :: rest =>
    if last = ']' then some (soFar ++ [(first, first), ('-', '-')], rest)
    else if last = '\\' || last = '[' || last < first then none
    else runs? (soFar ++ [(first, last)]) rest
  | c :: rest => runs? (soFar ++ [(c, c)]) rest

/-- A class in brackets, and the text behind it. A closing bracket may be its first character. -/
def class? (text : List Char) : Option (Pattern × List Char) := do
  let (isOutside, text) := match text with
    | '^' :: rest => (true, rest)
    | _ => (false, text)
  let (runs, rest) ← match text with
    | ']' :: rest => runs? [(']', ']')] rest
    | _ => runs? [] text
  return (char isOutside runs, rest)

/-- How often a pattern is repeated is written behind it. -/
def repetitions (p : Pattern) : List Char → Pattern × List Char
  | '*' :: '?' :: rest => repetitions (many false p) rest
  | '+' :: '?' :: rest => repetitions (append p (many false p)) rest
  | '?' :: '?' :: rest => repetitions (either empty p) rest
  | '*' :: rest => repetitions (many true p) rest
  | '+' :: rest => repetitions (append p (many true p)) rest
  | '?' :: rest => repetitions (either p empty) rest
  | rest => (p, rest)

mutual

/-- Alternatives, and the text behind them. -/
def alternatives? : Nat → List Char → Option (Pattern × List Char)
  | 0, _ => none
  | fuel + 1, text => do
    let (first, rest) ← sequence? fuel .empty text
    match rest with
    | '|' :: rest =>
      let (second, rest) ← alternatives? fuel rest
      return (either first second, rest)
    | _ => return (first, rest)

/-- What follows a pattern up to the end of an alternative, and the text behind it. -/
def sequence? : Nat → Pattern → List Char → Option (Pattern × List Char)
  | 0, _, _ => none
  | fuel + 1, before, text =>
    match text with
    | [] | '|' :: _ | ')' :: _ => some (before, text)
    | _ => do
      let (next, rest) ← atom? fuel text
      let (next, rest) := repetitions next rest
      sequence? fuel (append before next) rest

/-- One part of a sequence, and the text behind it. -/
def atom? : Nat → List Char → Option (Pattern × List Char)
  | 0, _ => none
  | fuel + 1, text =>
    match text with
    | '(' :: rest => do
      let inside ← match rest with
        | '?' :: ':' :: inside => some inside
        | '?' :: _ => none
        | _ => some rest
      match ← alternatives? fuel inside with
      | (p, ')' :: rest) => return (p, rest)
      | _ => none
    | '[' :: rest => class? rest
    | '\\' :: c :: rest => do return (← escape? c, rest)
    | '.' :: rest => some (char true [('\n', '\n')], rest)
    | '^' :: rest => some (textStart, rest)
    | '$' :: rest => some (textEnd, rest)
    | [] | '\\' :: _ | '*' :: _ | '+' :: _ | '?' :: _ | '\x7b' :: _ => none
    | c :: rest => some (one c, rest)

end

/-- Reads a pattern. -/
def ofChars? (text : List Char) : Option Pattern :=
  match alternatives? (4 * text.length + 4) text with
  | some (p, []) => some p
  | _ => none

end Pattern

end StreamWatch
