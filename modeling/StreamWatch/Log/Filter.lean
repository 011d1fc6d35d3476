import StreamWatch.Deployment
import StreamWatch.Log.Directive
import StreamWatch.Text.Separated

/-!
# Which log lines are written

A filter is a list of directives. Of those about a line as such the narrowest counts; what a span
lets through is written whatever the others say. Of two directives about the same the later one
counts.
-/

namespace StreamWatch

/-- What is written to the log. -/
abbrev LogFilter := List LogDirective

namespace LogFilter

/-! ## Lines as such -/

/-- Of two directives the one that is narrower, the second if they are equally narrow. -/
def narrower (best? : Option LogDirective) (d : LogDirective) : Option LogDirective :=
  match best? with
  | some best => if best.subject.isNarrowedBy d.subject then d else best
  | none => d

/-- The levels that the narrowest directive lets through among those on a target that pass a
test. -/
def plainLimit (filter : LogFilter) (target : Target) (covers : LogSubject → Bool) : LevelLimit :=
  let fitting := filter.filter fun d =>
    d.subject.isPlain && d.subject.coversTarget target && covers d.subject
  (fitting.foldl narrower none).bind LogDirective.limit

/-- The levels that are let through of lines with a target and fields; every line has a message. -/
def lineLimit (filter : LogFilter) (line : LogLine) : LevelLimit :=
  filter.plainLimit line.target fun s => !s.lacksField ("message" :: line.fields.map (·.1))

/-! ## Spans -/

/-- The directives that no later one replaces. -/
def current : LogFilter → LogFilter
  | [] => []
  | d :: rest => if rest.any (·.subject = d.subject) then current rest else d :: current rest

/-- The levels that spans may have; any level will do if the value of a field matters. -/
def spanLevels (filter : LogFilter) : LevelLimit :=
  if filter.any fun d => (d.subject.field?.bind FieldTest.value?).isSome then some .trace
  else LevelLimit.widest (filter.map LogDirective.limit)

/-- Whether a span is shown. One that a directive is about is shown whatever the level that this
directive sets, as long as spans of its level are let through at all. -/
def showsScope (filter : LogFilter) (scope : LogScope) : Bool :=
  scope.level.passes (filter.plainLimit scope.target fun _ => true) ||
    filter.any (·.subject.coversScope scope) && scope.level.passes filter.spanLevels

/-- The levels that the directives about a span let through inside it. -/
def scopeLimit (filter : LogFilter) (scope : LogScope) : LevelLimit :=
  let fitting := filter.current.filter fun d =>
    d.subject.coversScope scope && d.subject.acceptsFields scope.fields
  if filter.showsScope scope then LevelLimit.widest (fitting.map LogDirective.limit) else none

/-- Whether a line is written that belongs to a span or to none. -/
def allows (filter : LogFilter) (scope? : Option LogScope) (line : LogLine) : Bool :=
  line.level.passes (filter.lineLimit line) || line.level.passes (scope?.bind filter.scopeLimit)

/-! ## Reading a filter -/

/-- The filter that lets lines of all targets through up to a level. -/
def upTo (level : Level) : LogFilter := [⟨{}, some level⟩]

/-- Reads a filter: directives with commas between them. Without any, errors are let through. -/
def ofString? (text : String) : Option LogFilter := do
  let parts := (Separated.split ',' text.toList).filter (!·.isEmpty)
  if parts.isEmpty then return upTo .error
  parts.mapM LogDirective.ofChars?

/-- The variable that holds the filter. -/
def variableName : String := "RUST_LOG"

/-- The filter that the variables ask for. -/
def ofVariables (vars : Variables) : LogFilter :=
  ((vars.get? variableName).bind ofString?).getD (upTo .info)

end LogFilter

end StreamWatch
