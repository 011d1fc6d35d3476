import StreamWatch.Binary64
import StreamWatch.Stream

/-!
# Events

An event says what one part of a replication reports about a stream, and in which run. An internal
event without a descriptor speaks of every stream of its run.
-/

namespace StreamWatch

/-- The kind of reason that a message may carry. -/
inductive ReasonKind where
  | rateLimited
deriving DecidableEq

/-- The reasons under their tags. -/
def ReasonKind.tags : List (String × ReasonKind) := [("RATE_LIMITED", rateLimited)]

/-- Additional information about a status. -/
structure Reason where
  kind : ReasonKind
  limit : Option RateLimit := none
deriving DecidableEq

/-- A status of a stream, with the time of the report. -/
structure Message where
  stream : Descriptor
  status : Status
  /-- Milliseconds. -/
  emittedAt : Binary64
  reasons : List Reason := []
deriving DecidableEq

/-- The run that an event belongs to, and the connectors that take part in it. -/
structure RunContext where
  isReset : Bool
  connection : Uuid
  source : Uuid
  destination : Uuid
  job : Int64
  attempt : UInt32
  workspace : Uuid
  sourceImage : String := ""
  destinationImage : String := ""
  sourceDefinition : Uuid
  destinationDefinition : Uuid
deriving DecidableEq

/-- What one part of a replication reports. -/
structure Event where
  origin : Origin
  message : Message
  context : RunContext
  /-- Why the stream is incomplete, if that is known. -/
  cause? : Option Cause := none
deriving DecidableEq

namespace Message

/-- The time of the report in whole milliseconds. -/
def time (m : Message) : Int64 := m.emittedAt.toInt64

/-- The rate limit that a running stream is under, if its message gives that as a reason. -/
def limit? (m : Message) : Option RateLimit :=
  if m.status = .running then
    (m.reasons.find? fun r => r.kind = .rateLimited).map fun r =>
      ⟨r.limit.bind (·.quotaReset)⟩
  else none

end Message

namespace RunContext

/-- What identifies the run; the connectors do not. -/
def run (c : RunContext) : RunId := ⟨c.workspace, c.connection, c.job, c.attempt⟩

/-- The kind of job the run is for. -/
def jobKind (c : RunContext) : JobKind := if c.isReset then .reset else .sync

end RunContext

namespace Event

/-- The run of the event. -/
def run (e : Event) : RunId := e.context.run

/-- The stream that the event names. -/
def key? (e : Event) : Option StreamKey := StreamKey.of? e.message.stream e.run

/-- The status that the event reports. -/
def status (e : Event) : Status := e.message.status

/-- The time of the event in whole milliseconds. -/
def time (e : Event) : Int64 := e.message.time

/-- Why the stream is incomplete; it failed unless the event says otherwise. -/
def cause (e : Event) : Cause := e.cause?.getD .failed

/-- Whether the event speaks of every stream of its run. -/
def isRunWide (e : Event) : Bool := e.origin = .internal && e.message.stream.isEmpty

end Event

end StreamWatch
