import StreamWatch.Api
import StreamWatch.Log

/-!
# What watching streams writes to the log

Every event leaves at least a call of the status API or a notice. A notice that a call failed or was
left out is the only trace of the transition that got lost, and is a warning or an error.
-/

namespace StreamWatch

/-- Something worth a line in the log. -/
inductive Notice where
  /-- A connector reports a status and names no stream. -/
  | unnamed (status : Status)
  /-- An internal event names a namespace and no stream. -/
  | unnamedInternal
  /-- An internal event has no meaning for any stream. -/
  | meaninglessInternal (status : Status)
  | alreadyStarted (key : StreamKey)
  | created (id : Uuid) (key : StreamKey)
  | createFailed (key : StreamKey) (failure : Failure)
  /-- A report about a stream that is not watched. -/
  | unwatched (status : Status) (key : StreamKey)
  /-- Reports about a stream whose end was reported before. -/
  | runningAfterEnd (key : StreamKey)
  | completeAfterEnd (key : StreamKey) (origin : Origin)
  | incompleteAfterEnd (key : StreamKey) (origin : Origin)
  /-- Reports that change nothing. -/
  | repeatedLimit (key : StreamKey)
  | repeatedRunning (key : StreamKey)
  /-- One side has completed and the other has not. -/
  | halfComplete (key : StreamKey) (origin : Origin)
  /-- Every stream of a run is cleared. -/
  | clearingRun (count : Nat) (connection : Uuid) (runState : RunState)
  /-- A stream to be cleared is not watched. -/
  | nothingToClear (key : StreamKey)
  /-- A stream is cleared whose end was reported before. -/
  | clearedEnded (key : StreamKey)
  /-- A transition is not reported, because the stream has no record. -/
  | updateSkipped (runState : RunState) (key : StreamKey)
  | updateFailed (key : StreamKey) (runState : RunState) (failure : Failure)
deriving DecidableEq

namespace Notice

/-- How serious the notice is. -/
def level : Notice → Level
  | unnamed _ | unnamedInternal | updateSkipped _ _ => .warn
  | createFailed _ _ | updateFailed _ _ _ => .error
  | created _ _ | clearingRun _ _ _ => .info
  | _ => .debug

/-- The words of the notice. -/
def text : Notice → String
  | unnamed status => s!"ignoring {status.word} stream status event without a stream name"
  | unnamedInternal => "ignoring internal stream status event without a stream name"
  | meaninglessInternal status => s!"ignoring internal {status.word} status"
  | alreadyStarted key => s!"stream {key.toString} was already started"
  | created id key => s!"created stream status {id} for stream {key.toString}"
  | createFailed key failure =>
    s!"failed to create stream status for stream {key.toString}: {failure.message}"
  | unwatched status key => s!"ignoring {status.word} status for untracked stream {key.toString}"
  | runningAfterEnd key => s!"stream {key.toString} already ended, ignoring running status"
  | completeAfterEnd key origin =>
    s!"stream {key.toString} already ended, recorded {origin.word} completion"
  | incompleteAfterEnd key origin =>
    s!"stream {key.toString} already ended, recorded {origin.word} failure"
  | repeatedLimit key => s!"ignoring duplicate rate limited status for stream {key.toString}"
  | repeatedRunning key => s!"ignoring duplicate running status for stream {key.toString}"
  | halfComplete key origin =>
    s!"stream {key.toString} completed on the {origin.word} side only, waiting for the other side"
  | clearingRun count connection runState =>
    s!"finalizing {count} tracked streams of connection {connection} as {runState.word}"
  | nothingToClear key => s!"no tracked stream {key.toString} to finalize"
  | clearedEnded key => s!"stream {key.toString} already ended, clearing it"
  | updateSkipped runState key =>
    s!"skipping {runState.word} update of stream {key.toString}, " ++
      "its stream status was never created"
  | updateFailed key runState failure =>
    s!"failed to update stream status of stream {key.toString} to {runState.word}: " ++
      failure.message

/-- The line of the notice. -/
def line (n : Notice) : LogLine := ⟨n.level, .tracker, n.text, []⟩

end Notice

end StreamWatch
