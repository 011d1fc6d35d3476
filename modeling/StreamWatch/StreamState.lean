import StreamWatch.Event

/-!
# The state of a watched stream

The source and the destination of a replication report about a stream independently. Each side
keeps the last status it reported, until that is a terminal one: the first terminal status of a side
stays. From both sides, and from what has been told to the status API, follows the state of the
stream.
-/

namespace StreamWatch

/-- The last status of one side. A rate-limited side is running. -/
inductive SideStatus where
  | started
  | running
  | complete
  | incomplete (cause : Cause)
deriving DecidableEq

namespace SideStatus

/-- Whether the side has nothing more to report. -/
def isTerminal : SideStatus → Bool
  | complete | incomplete _ => true
  | started | running => false

/-- The status without its cause. -/
def status : SideStatus → Status
  | started => .started
  | running => .running
  | complete => .complete
  | incomplete _ => .incomplete

end SideStatus

/-- What is known about a watched stream. -/
structure StreamState where
  source : Option SideStatus := none
  destination : Option SideStatus := none
  /-- The identifier of the stream's record, unless creating the record failed. -/
  id? : Option Uuid := none
  jobKind : JobKind
  runState : RunState := .running
  /-- The time of the last transition in milliseconds. -/
  changedAt : Int64
  limit? : Option RateLimit := none
  /-- Whether the end of the stream has been reported. -/
  ended : Bool := false
deriving DecidableEq

/-- What a side holds after it reports a status. -/
def SideStatus.hear (status : SideStatus) : Option SideStatus → Option SideStatus
  | some current => if current.isTerminal then some current else some status
  | none => some status

/-- Whether a side changes when it reports a status: it does not if it has nothing more to report,
or if it repeats itself. -/
def SideStatus.changes (status : SideStatus) : Option SideStatus → Bool
  | some current => !(current.isTerminal || current = status)
  | none => true

namespace StreamState

/-- What the state becomes when an origin reports a status; internal reports belong to no side. -/
def hear (s : StreamState) (origin : Origin) (status : SideStatus) : StreamState :=
  match origin with
  | .source => { s with source := status.hear s.source }
  | .destination => { s with destination := status.hear s.destination }
  | .internal => s

/-- Whether a report changes the state; internal reports belong to no side. -/
def changes (s : StreamState) (origin : Origin) (status : SideStatus) : Bool :=
  match origin with
  | .source => status.changes s.source
  | .destination => status.changes s.destination
  | .internal => false

/-- Whether both sides have completed. -/
def isComplete (s : StreamState) : Bool :=
  s.source = some .complete && s.destination = some .complete

/-- Whether both sides have nothing more to report. -/
def isTerminated (s : StreamState) : Bool :=
  s.source.any SideStatus.isTerminal && s.destination.any SideStatus.isTerminal

/-- The status of the stream as a whole: that of the destination, or else of the source. -/
def status? (s : StreamState) : Option Status := (s.destination <|> s.source).map SideStatus.status

/-- Whether the stream is rate limited. -/
def isRateLimited (s : StreamState) : Bool := s.runState = .rateLimited

/-- Whether a report at this time that the stream runs, under no limit, only repeats the last
transition. -/
def repeatsRunning (s : StreamState) (origin : Origin) (time : Int64) : Bool :=
  !s.changes origin .running && s.changedAt = time && s.runState = .running

/-- Whether a report at this time that the stream runs under a limit only repeats the last
transition. -/
def repeatsLimit (s : StreamState) (origin : Origin) (limit : RateLimit) (time : Int64) : Bool :=
  !s.changes origin .running && s.changedAt = time && s.isRateLimited && s.limit? = some limit

/-- The state of a stream that just started. -/
def opened (event : Event) : StreamState :=
  StreamState.hear { jobKind := event.context.jobKind, changedAt := event.time } event.origin
    .started

/-- The state of a stream that runs, under a rate limit or without one. -/
def resumed (s : StreamState) (limit? : Option RateLimit) (time : Int64) : StreamState :=
  { s with
    runState := if limit?.isSome then .rateLimited else .running
    limit? := limit?
    changedAt := time }

/-- The state of a stream whose end is reported. -/
def closed (s : StreamState) (runState : RunState) (time : Int64) : StreamState :=
  { s with runState, limit? := none, changedAt := time, ended := true }

end StreamState

end StreamWatch
