/-!
# The words for how a stream is doing

What connectors say about a stream, what the status API records about it, and the words for both.
Each alternative has a tag, under which documents name it, and a word for messages.
-/

namespace StreamWatch

/-- The part of a replication that an event comes from. -/
inductive Origin where
  | source
  | destination
  /-- The replication itself. -/
  | internal
deriving DecidableEq

/-- The status of a stream as a connector reports it. -/
inductive Status where
  | started
  | running
  | complete
  | incomplete
deriving DecidableEq

/-- The state of a stream as the status API records it. -/
inductive RunState where
  | running
  | rateLimited
  | complete
  | incomplete
deriving DecidableEq

/-- Why a stream ended without completing. -/
inductive Cause where
  | failed
  | canceled
deriving DecidableEq

/-- The kind of job that a replication runs for. -/
inductive JobKind where
  | sync
  | reset
deriving DecidableEq

/-- What is known about the rate limit of a stream. -/
structure RateLimit where
  /-- The time at which the quota is expected to reset, in milliseconds. -/
  quotaReset : Option Int64 := none
deriving DecidableEq

namespace Origin

/-- The origins under their tags. -/
def tags : List (String × Origin) :=
  [("SOURCE", source), ("DESTINATION", destination), ("INTERNAL", internal)]

/-- The word for messages. -/
def word : Origin → String
  | source => "source"
  | destination => "destination"
  | internal => "internal"

end Origin

namespace Status

/-- The statuses under their tags. -/
def tags : List (String × Status) :=
  [("STARTED", started), ("RUNNING", running), ("COMPLETE", complete), ("INCOMPLETE", incomplete)]

/-- The word for messages. -/
def word : Status → String
  | started => "started"
  | running => "running"
  | complete => "complete"
  | incomplete => "incomplete"

end Status

namespace RunState

/-- The run states, in the order in which they are counted. -/
def all : List RunState := [running, rateLimited, complete, incomplete]

/-- The run states under their tags. -/
def tags : List (String × RunState) :=
  [("RUNNING", running), ("RATE_LIMITED", rateLimited), ("COMPLETE", complete),
    ("INCOMPLETE", incomplete)]

/-- The word for messages. -/
def word : RunState → String
  | running => "running"
  | rateLimited => "rate_limited"
  | complete => "complete"
  | incomplete => "incomplete"

/-- Whether nothing is reported after this state. -/
def isTerminal : RunState → Bool
  | complete | incomplete => true
  | running | rateLimited => false

end RunState

namespace Cause

/-- The causes under their tags. -/
def tags : List (String × Cause) := [("FAILED", failed), ("CANCELED", canceled)]

end Cause

namespace JobKind

/-- The kinds of jobs under their tags. -/
def tags : List (String × JobKind) := [("SYNC", sync), ("RESET", reset)]

end JobKind

end StreamWatch
