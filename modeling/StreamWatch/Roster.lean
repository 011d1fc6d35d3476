import StreamWatch.Roster.Notice
import StreamWatch.StreamState
import StreamWatch.Table

/-!
# The roster of watched streams

A stream is watched from its first `started` report until an internal event clears it. What an event
means for one stream is a `Move`: a function of the event and of what is known about that stream,
and of nothing else. Performing a move remembers the state and tells the status API; a failing API
is written to the log and changes nothing but the identifier that a new stream does not get.
-/

namespace StreamWatch

/-! ## What an event means for one stream -/

/-- What becomes of a stream's place among the rate-limited ones. -/
inductive LimitChange where
  | keep
  | enter
  | leave
deriving DecidableEq

/-- What is done apart from remembering the state. -/
inductive Act where
  /-- Only a line is written. -/
  | note (notice : Notice)
  /-- The status API is asked for a record of the stream. -/
  | create (state : StreamState)
  /-- The status API is told of a transition to this state. -/
  | report (state : StreamState) (cause? : Option Cause)
deriving DecidableEq

/-- What an event does to one stream. -/
structure Move where
  /-- The state afterwards, none if the stream is not watched. -/
  next : Option StreamState
  change : LimitChange
  act : Act
deriving DecidableEq

namespace Move

/-- A running report about a watched stream. One that only repeats the last transition is not
reported again. -/
def ofRunning (key : StreamKey) (event : Event) (state : StreamState) : Move :=
  let heard := state.hear event.origin .running
  if heard.ended then ⟨some heard, .keep, .note (.runningAfterEnd key)⟩
  else
    let next := heard.resumed event.message.limit? event.time
    match event.message.limit? with
    | some limit =>
      ⟨some next, .enter,
        if state.repeatsLimit event.origin limit event.time then .note (.repeatedLimit key)
        else .report next none⟩
    | none =>
      ⟨some next, .leave,
        if state.repeatsRunning event.origin event.time then .note (.repeatedRunning key)
        else .report next none⟩

/-- A complete report about a watched stream. The stream ends when both sides have completed. -/
def ofComplete (key : StreamKey) (event : Event) (state : StreamState) : Move :=
  let heard := state.hear event.origin .complete
  if heard.ended then ⟨some heard, .keep, .note (.completeAfterEnd key event.origin)⟩
  else if !heard.isComplete then ⟨some heard, .keep, .note (.halfComplete key event.origin)⟩
  else
    let next := heard.closed .complete event.time
    ⟨some next, .leave, .report next none⟩

/-- An incomplete report about a watched stream. The first one ends the stream. -/
def ofIncomplete (key : StreamKey) (event : Event) (state : StreamState) : Move :=
  let heard := state.hear event.origin (.incomplete event.cause)
  if heard.ended then ⟨some heard, .keep, .note (.incompleteAfterEnd key event.origin)⟩
  else
    let next := heard.closed .incomplete event.time
    ⟨some next, .leave, .report next (some event.cause)⟩

/-- What a connector's event means for its stream. -/
def ofReport (key : StreamKey) (event : Event) : Option StreamState → Move
  | none =>
    match event.status with
    | .started =>
      let state := StreamState.opened event
      ⟨some state, .keep, .create state⟩
    | status => ⟨none, .keep, .note (.unwatched status key)⟩
  | some state =>
    match event.status with
    | .started => ⟨some state, .keep, .note (.alreadyStarted key)⟩
    | .running => ofRunning key event state
    | .complete => ofComplete key event state
    | .incomplete => ofIncomplete key event state

/-- Clears a stream, reporting its end unless that was done before. -/
def ofClearing (key : StreamKey) (runState : RunState) (cause? : Option Cause) (time : Int64) :
    Option StreamState → Move
  | none => ⟨none, .leave, .note (.nothingToClear key)⟩
  | some state =>
    if state.ended then ⟨none, .leave, .note (.clearedEnded key)⟩
    else ⟨none, .leave, .report (state.closed runState time) cause?⟩

end Move

/-! ## What an event addresses -/

/-- The streams that an event is about, and what it does to each of them. -/
inductive Scope where
  /-- No stream at all. -/
  | none (notice : Notice)
  /-- One stream, by its connector. -/
  | report (key : StreamKey)
  /-- One stream, which is cleared. -/
  | clear (key : StreamKey) (runState : RunState) (cause? : Option Cause)
  /-- Every watched stream of a run, all of which are cleared. -/
  | clearRun (run : RunId) (runState : RunState) (cause? : Option Cause)
deriving DecidableEq

/-- How an internal event ends the streams it addresses, if it ends them. -/
def Event.ending? (e : Event) : Option (RunState × Option Cause) :=
  match e.status with
  | .complete => some (.complete, none)
  | .incomplete => some (.incomplete, some e.cause)
  | .started | .running => none

/-- What an event is about. -/
def Event.scope (e : Event) : Scope :=
  if e.origin = .internal then
    match e.ending? with
    | none => .none (.meaninglessInternal e.status)
    | some (runState, cause?) =>
      if e.isRunWide then .clearRun e.run runState cause?
      else
        match e.key? with
        | some key => .clear key runState cause?
        | none => .none .unnamedInternal
  else
    match e.key? with
    | some key => .report key
    | none => .none (.unnamed e.status)

/-! ## Performing moves -/

/-- What watching did, in order. -/
inductive Effect where
  | call (request : Request) (answer : Answer)
  | note (notice : Notice)

/-- The watched streams, and which of them are rate limited. -/
structure Roster where
  streams : Table StreamKey StreamState := .empty
  limited : List StreamKey := []

instance : Inhabited Roster := ⟨{}⟩

/-- A roster and the state of the status API, with what was done to get there. -/
structure Turn (σ : Type) where
  roster : Roster
  api : σ
  effects : List Effect

/-- What the status API is told about a stream in this state. -/
def StreamState.report (s : StreamState) (key : StreamKey) (cause? : Option Cause) : Report :=
  ⟨key, s.jobKind, s.runState, s.changedAt, cause?, s.limit?⟩

namespace Roster

/-- The stream's place among the rate-limited ones after a change. -/
def changeLimit (key : StreamKey) (limited : List StreamKey) : LimitChange → List StreamKey
  | .keep => limited
  | .enter => if key ∈ limited then limited else limited ++ [key]
  | .leave => limited.filter (· ≠ key)

/-- Remembers the state of a stream and its place among the rate-limited ones. -/
def remember (r : Roster) (key : StreamKey) (next : Option StreamState) (change : LimitChange) :
    Roster :=
  ⟨r.streams.set key next, changeLimit key r.limited change⟩

/-- Performs a move of one stream. -/
def perform {σ : Type} (api : StatusApi σ) (key : StreamKey) (move : Move) (r : Roster) (s : σ) :
    Turn σ :=
  match move.act with
  | .note notice => ⟨r.remember key move.next move.change, s, [.note notice]⟩
  | .create state =>
    let request := Request.create (state.report key none)
    match api.answer request s with
    | (.ok record, s) =>
      ⟨r.remember key (some { state with id? := some record.id }) move.change, s,
        [.call request (.ok record), .note (.created record.id key)]⟩
    | (.error failure, s) =>
      ⟨r.remember key (some state) move.change, s,
        [.call request (.error failure), .note (.createFailed key failure)]⟩
  | .report state cause? =>
    let next := r.remember key move.next move.change
    match state.id? with
    | none => ⟨next, s, [.note (.updateSkipped state.runState key)]⟩
    | some id =>
      let request := Request.update id (state.report key cause?)
      match api.answer request s with
      | (.ok record, s) => ⟨next, s, [.call request (.ok record)]⟩
      | (.error failure, s) =>
        ⟨next, s, [.call request (.error failure),
          .note (.updateFailed key state.runState failure)]⟩

/-- Clears streams, one after the other. -/
def clearAll {σ : Type} (api : StatusApi σ) (runState : RunState) (cause? : Option Cause)
    (time : Int64) : List StreamKey → Roster → σ → Turn σ
  | [], r, s => ⟨r, s, []⟩
  | key :: rest, r, s =>
    let move := Move.ofClearing key runState cause? time (r.streams.get? key)
    let turn := r.perform api key move s
    let last := clearAll api runState cause? time rest turn.roster turn.api
    { last with effects := turn.effects ++ last.effects }

/-- The watched streams of a run, in the order in which they started. -/
def keysOf (r : Roster) (run : RunId) : List StreamKey := r.streams.keys.filter (·.run = run)

/-- Takes an event into account. -/
def track {σ : Type} (api : StatusApi σ) (event : Event) (r : Roster) (s : σ) : Turn σ :=
  match event.scope with
  | .none notice => ⟨r, s, [.note notice]⟩
  | .report key => r.perform api key (Move.ofReport key event (r.streams.get? key)) s
  | .clear key runState cause? =>
    let move := Move.ofClearing key runState cause? event.time (r.streams.get? key)
    r.perform api key move s
  | .clearRun run runState cause? =>
    let keys := r.keysOf run
    let turn := clearAll api runState cause? event.time keys r s
    { turn with
      effects := .note (.clearingRun keys.length run.connection runState) :: turn.effects }

/-- Takes events into account, one after the other. -/
def trackAll {σ : Type} (api : StatusApi σ) : List Event → Roster → σ → Turn σ
  | [], r, s => ⟨r, s, []⟩
  | event :: rest, r, s =>
    let turn := r.track api event s
    let last := trackAll api rest turn.roster turn.api
    { last with effects := turn.effects ++ last.effects }

/-! ## Asking the roster -/

/-- The status of a watched stream. -/
def status? (r : Roster) (key : StreamKey) : Option Status :=
  (r.streams.get? key).bind StreamState.status?

/-- The descriptors of the rate-limited streams of all runs, each once. -/
def limitedDescriptors (r : Roster) : List Descriptor :=
  (r.limited.map StreamKey.descriptor).eraseDups

end Roster

end StreamWatch
