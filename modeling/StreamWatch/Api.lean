import StreamWatch.Failure

/-!
# The status API

The status API records how streams of runs are doing. A stream is registered once, which gives its
record an identifier, and updated under that identifier. What answers the requests is a value: any
state with two functions, so that the behaviour of a caller can be stated for every way in which the
API may answer.
-/

namespace StreamWatch

/-- What the status API is told about a stream. -/
structure Report where
  key : StreamKey
  jobKind : JobKind
  runState : RunState
  /-- The time of the transition in milliseconds. -/
  time : Int64
  cause? : Option Cause := none
  limit? : Option RateLimit := none
deriving DecidableEq

/-- What the status API has recorded about a stream. -/
structure Record where
  id : Uuid
  report : Report
deriving DecidableEq

/-- A call of the status API. -/
inductive Request where
  /-- Asks for a record of a stream. -/
  | create (report : Report)
  /-- Asks for a transition to be recorded. -/
  | update (id : Uuid) (report : Report)
deriving DecidableEq

/-- What a request says about its stream. -/
def Request.report : Request → Report
  | create report => report
  | update _ report => report

/-- What a call is answered with. -/
abbrev Answer := Except Failure Record

/-- A status API whose state is of type `σ`. -/
structure StatusApi (σ : Type) where
  answer : Request → σ → Answer × σ

end StreamWatch
