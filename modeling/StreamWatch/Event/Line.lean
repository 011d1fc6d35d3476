import StreamWatch.Event.Codec
import StreamWatch.Failure

/-!
# Event lines

An event file holds one event a line. A line must hold one whole document, the time of the event
must be a number, and a connector must name the stream it speaks of.
-/

namespace StreamWatch

/-- Checks what the document of an event cannot express. -/
def Event.check (event : Event) : Except Failure Event :=
  if !event.message.emittedAt.isFinite then .error (.timeNotFinite event.message.emittedAt)
  else if event.origin ≠ .internal ∧ event.message.stream.name = none then
    .error (.unnamedStream event.origin)
  else .ok event

/-- Reads the event on a line. -/
def Event.ofLine (line : List Char) : Except Failure Event :=
  match Event.codec.ofChars line with
  | .ok event => event.check
  | .error fault => .error (.ofFault fault)

/-- Writes an event as a line, without the newline. -/
def Event.toLine (event : Event) : List Char := Event.codec.write event

end StreamWatch
