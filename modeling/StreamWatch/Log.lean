import StreamWatch.Text.Quoted

/-!
# Log lines

A log line has a level, a target that says which part of the program wrote it, a message, and fields
with names. Values know whether they are texts, numbers or truth values, since the layouts of the
log treat these differently.
-/

namespace StreamWatch

/-- How serious a line is. -/
inductive Level where
  | error
  | warn
  | info
  | debug
  | trace
deriving DecidableEq

/-- The level in capitals. -/
def Level.word : Level → String
  | error => "ERROR"
  | warn => "WARN"
  | info => "INFO"
  | debug => "DEBUG"
  | trace => "TRACE"

/-- The levels up to this one, counted from the most serious. -/
def Level.verbosity : Level → Nat
  | error => 1
  | warn => 2
  | info => 3
  | debug => 4
  | trace => 5

/-- The part of the program that writes a line. -/
inductive Target where
  | program
  | replay
  | tracker
  | archive
  | panic
deriving DecidableEq

/-- The name of a target. -/
def Target.word : Target → String
  | program => "status_replayer"
  | replay => "status_replayer::core"
  | tracker => "status_tracker::tracker"
  | archive => "status_tracker::clients::memory"
  | panic => "status_telemetry::tracing"

/-- The value of a field. -/
inductive FieldValue where
  /-- A text, quoted where layouts quote. -/
  | text (value : String)
  /-- A value of another kind, shown by this text in every layout. -/
  | shown (value : String)
  | number (value : Int)
  | flag (value : Bool)
deriving DecidableEq

/-- The value without quotes. -/
def FieldValue.bare : FieldValue → String
  | text value => value
  | shown value => value
  | number value => toString value
  | flag value => toString value

/-- The value with quotes if it is a text. -/
def FieldValue.quoted : FieldValue → String
  | text value => Quoted.encode value
  | value => value.bare

/-- A line of the log. -/
structure LogLine where
  level : Level
  target : Target
  message : String
  fields : List (String × FieldValue) := []
deriving DecidableEq

/-- The line as one text: the level, the message, and the fields behind it. -/
def LogLine.summary (l : LogLine) : String :=
  " ".intercalate (l.level.word :: l.message ::
    l.fields.map fun (name, value) => name ++ "=" ++ value.bare)

end StreamWatch
