import StreamWatch.Log
import StreamWatch.Log.Pattern
import StreamWatch.Numeral
import StreamWatch.Text.Alphanumeric

/-!
# Directives for the log

A directive says up to which level lines are written. It is about all lines, or those of some
targets, and may be narrowed to the lines inside a span of a name, or one with a field. A directive
that names no span and no value of a field is also about the lines that have the field themselves.
-/

namespace StreamWatch

/-- The levels up to this one; nothing is no level at all. -/
abbrev LevelLimit := Option Level

/-- Whether lines of a level are let through. -/
def Level.passes (level : Level) (limit : LevelLimit) : Bool :=
  limit.any fun most => level.verbosity ≤ most.verbosity

namespace LevelLimit

/-- How many levels are let through. -/
def breadth (limit : LevelLimit) : Nat := limit.elim 0 Level.verbosity

/-- The larger of two limits. -/
def wider (a b : LevelLimit) : LevelLimit := if a.breadth < b.breadth then b else a

/-- The largest of some limits. -/
def widest (limits : List LevelLimit) : LevelLimit := limits.foldl wider none

end LevelLimit

/-- A stretch of the program that lines can belong to. -/
structure LogScope where
  name : String
  level : Level
  target : Target
  fields : List (String × FieldValue)
deriving DecidableEq

/-! ## What a directive is about -/

/-- What the value of a field has to be. -/
inductive ValueTest where
  | flag (value : Bool)
  | integer (value : Int)
  /-- A number that is no integer, which no field has. -/
  | real (written : List Char)
  | pattern (written : List Char) (pattern : Pattern)
deriving DecidableEq

/-- Whether a value passes. -/
def ValueTest.accepts : ValueTest → FieldValue → Bool
  | flag wanted, .flag value => wanted = value
  | integer wanted, .number value => wanted = value
  | pattern _ p, .text value => p.closes value.toList
  | pattern _ p, .shown value => p.closes value.toList
  | _, _ => false

/-- A field, and what its value has to be if that matters. -/
structure FieldTest where
  name : List Char
  value? : Option ValueTest
deriving DecidableEq

/-- What a directive is about. -/
structure LogSubject where
  /-- How the targets begin. -/
  target : List Char := []
  /-- The name of the spans; nothing means lines in any span or none. -/
  span? : Option (List Char) := none
  field? : Option FieldTest := none
deriving DecidableEq

namespace LogSubject

/-- Whether it covers a target. -/
def coversTarget (s : LogSubject) (target : Target) : Bool :=
  s.target.isPrefixOf target.word.toList

/-- Whether it names a field that is not among these. -/
def lacksField (s : LogSubject) (names : List String) : Bool :=
  s.field?.any fun f => !names.any fun name => name.toList = f.name

/-- Whether it is about lines as such: about targets and the names of fields alone. -/
def isPlain (s : LogSubject) : Bool := s.span?.isNone && (s.field?.bind FieldTest.value?).isNone

/-- Whether it is about spans. -/
def isForSpans (s : LogSubject) : Bool := s.span?.isSome || s.field?.isSome

/-- Whether it is about a span. -/
def coversScope (s : LogSubject) (scope : LogScope) : Bool :=
  s.isForSpans && s.coversTarget scope.target && s.span?.all (· = scope.name.toList) &&
    !s.lacksField (scope.fields.map (·.1))

/-- Whether the fields of a span have the values that it asks for. -/
def acceptsFields (s : LogSubject) (fields : List (String × FieldValue)) : Bool :=
  s.field?.all fun f => f.value?.all fun test =>
    fields.any fun (name, value) => name.toList = f.name && test.accepts value

/-- Whether another one is at least as narrow: its target is longer, or equally long and it names
a field, or a field that comes later in the alphabet. -/
def isNarrowedBy (s other : LogSubject) : Bool :=
  s.target.length < other.target.length ||
    s.target.length = other.target.length &&
      match s.field?, other.field? with
      | none, _ => true
      | some _, none => false
      | some f, some g => !List.lex g.name f.name

end LogSubject

/-- A directive. -/
structure LogDirective where
  subject : LogSubject
  limit : LevelLimit
deriving DecidableEq

/-! ## Reading a directive -/

/-- The names of the limits, in lower case. -/
def LevelLimit.names : List (String × LevelLimit) :=
  [("off", none), ("error", some .error), ("warn", some .warn), ("info", some .info),
    ("debug", some .debug), ("trace", some .trace)]

/-- The limits by number. -/
def LevelLimit.byNumber : List LevelLimit := names.map (·.2)

/-- Reads a limit: a name in any case, or a number. -/
def LevelLimit.ofChars? (cs : List Char) : Option LevelLimit :=
  let digits := if cs.head? = some '+' then cs.drop 1 else cs
  if !digits.isEmpty && digits.all Char.isDigit then
    byNumber[digits.foldl (fun n c => 10 * n + (c.toNat - '0'.toNat)) 0]?
  else (names.find? fun (name, _) => name.toList = cs.map Char.toLower).map (·.2)

/-- Reads what the value of a field has to be: a truth value, a number, or else a pattern. -/
def ValueTest.ofChars? (cs : List Char) : Option ValueTest :=
  match String.ofList cs with
  | "true" => some (.flag true)
  | "false" => some (.flag false)
  | _ =>
    match Numeral.integer? 10 cs, Numeral.real? cs with
    | some n, _ => some (.integer n)
    | none, some _ => some (.real cs)
    | none, none => (Pattern.ofChars? cs).map (.pattern cs)

/-- Reads a field: its name, and behind an equals sign what its value has to be. -/
def FieldTest.ofChars? (cs : List Char) : Option FieldTest :=
  let name := cs.takeWhile (· ≠ '=')
  match cs.drop name.length with
  | [] => if name.isEmpty then none else some ⟨name, none⟩
  | _ :: rest => do return ⟨name, some (← ValueTest.ofChars? (rest.takeWhile (· ≠ '=')))⟩

namespace LogDirective

/-- Reads the limit of a directive, which lets everything through if there is no text for it. -/
def limit? (cs : List Char) : Option LevelLimit :=
  if cs.isEmpty then some (some .trace) else LevelLimit.ofChars? cs

/-- Whether a character can begin the name of a target. -/
def beginsTarget (c : Char) : Bool := isAlphanumeric c || c = '-' || c = ':' || c = '_'

/-- The part of a text between two places. -/
def between (text : List Char) (first behind : Nat) : List Char :=
  (text.drop first).take (behind - first)

/-- Where in a text one of some characters comes next. -/
def nextOf (chars : List Char) (text : List Char) (first : Nat) : Nat :=
  first + ((text.drop first).takeWhile fun c => !chars.contains c).length

/-- Reads a directive on spans from the place behind its opening bracket. The parts of a directive
are found in the text without the blanks at its ends, and are cut from the text with them, at the
same places. -/
def forSpans? (text bare target : List Char) (first : Nat) : Option LogDirective := do
  let nameEnd := nextOf [']', '\x7b'] bare first
  let name := between text first nameEnd
  let hasField := bare[nameEnd]? = some '\x7b'
  let fieldEnd := if hasField then nextOf ['\x7d'] bare (nameEnd + 1) else nameEnd
  let field? ← if hasField then (FieldTest.ofChars? (between text (nameEnd + 1) fieldEnd)).map some
    else some none
  let subject : LogSubject := ⟨target, if hasField && name.isEmpty then none else some name, field?⟩
  match bare.drop (if hasField then fieldEnd + 1 else fieldEnd) with
  | [']'] => return ⟨subject, some .trace⟩
  | ']' :: '=' :: rest => return ⟨subject, ← limit? (text.drop (bare.length - rest.length))⟩
  | _ => none

/-- Reads a directive. -/
def ofChars? (text : List Char) : Option LogDirective := do
  let bare := trimBlanks text
  let nameEnd := nextOf ['=', '['] bare 0
  if !(bare.head?.any fun c => c = '[' || beginsTarget c) then none
  match bare.drop nameEnd with
  | '[' :: _ => forSpans? text bare (between text 0 nameEnd) (nameEnd + 1)
  | '=' :: _ => return ⟨{ target := between text 0 nameEnd }, ← limit? (text.drop (nameEnd + 1))⟩
  | _ =>
    match LevelLimit.ofChars? text with
    | some limit => return ⟨{}, limit⟩
    | none => return ⟨{ target := text }, some .trace⟩

end LogDirective

end StreamWatch
