import StreamWatch.Event
import StreamWatch.Log.Filter
import StreamWatch.Log.Tag

/-!
# Layouts of the log

A line of the log is laid out as one line of JSON, for files, or as text, for the console. While an
event is tracked its lines belong to a span that says which event it is.
-/

namespace StreamWatch

/-- The span that the lines of an event belong to, with what it says about the event. -/
def Event.logScope (e : Event) : LogScope :=
  ⟨"track_stream_status", .info, .tracker,
    [("connection_id", .shown e.context.connection.toString),
      ("job_id", .number e.context.job.toInt), ("attempt", .number e.context.attempt.toNat),
      ("origin", .shown e.origin.word), ("status", .shown e.status.word)]⟩

/-! ## JSON -/

/-- The value in JSON. -/
def FieldValue.json : FieldValue → Json.Value
  | text value => .text value
  | shown value => .text value
  | number value => .number (.integer value)
  | flag value => .flag value

/-- Fields in JSON. -/
def fieldMembers (fields : List (String × FieldValue)) : List (String × Json.Value) :=
  fields.map fun (name, value) => (name, value.json)

/-- A span in JSON. -/
def LogScope.json (scope : LogScope) : Json.Value :=
  .ofMembers (("name", .text scope.name) :: fieldMembers scope.fields)

/-- A line in JSON, with the event whose span it belongs to. -/
def LogLine.json (within? : Option Event) (l : LogLine) : Json.Value :=
  let fields := .ofMembers (("message", .text l.message) :: fieldMembers l.fields)
  let scope := match within? with
    | some event => [("span", event.logScope.json), ("spans", .list [event.logScope.json])]
    | none => []
  .ofMembers ([("level", .text l.level.word), ("fields", fields)] ++ scope)

/-- A line as it is written to a file, tagged with the connection if there is a single one. -/
def LogLine.fileText (connection? : Option String) (within? : Option Event) (l : LogLine) :
    List Char :=
  let text := (l.json within?).write ++ ['\n']
  (tagLine? connection? (Utf8.encode text)).getD text

/-! ## Console -/

/-- A character of a message on the console. Those that a terminal could take for commands are
spelled out. -/
def consoleChar (c : Char) : List Char :=
  let n := c.toNat
  if n = 0x1b || n = 0x7 || n = 0x8 || n = 0xc || n = 0x7f then '\\' :: 'x' :: Hex.write n 2
  else if 0x80 ≤ n && n ≤ 0x9f then Quoted.byNumber c
  else [c]

/-- A line as it is written to the console. -/
def LogLine.consoleText (l : LogLine) : String :=
  let message := String.ofList (l.message.toList.flatMap consoleChar)
  s!"{l.level.word} {l.target.word}: " ++
    ", ".intercalate (message :: l.fields.map fun (name, value) => name ++ ": " ++ value.quoted)

end StreamWatch
