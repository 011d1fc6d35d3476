import StreamWatch.Event.Line
import StreamWatch.Roster
import StreamWatch.Text.Blank
import StreamWatch.Text.Utf8

/-!
# Replaying an event file

A replay reads an input line by line and lets a roster track the events of the selected connections,
in order. Blank lines do not count, malformed ones are skipped with a warning, and only a line that
is no text at all ends the replay. At the end of the input every run that was seen can be completed:
one internal event for each, at the latest time of its events.
-/

namespace StreamWatch

/-- What to replay, and what to do at the end. -/
structure ReplayOptions where
  /-- Whether the runs that were seen are completed at the end of the input. -/
  completesAtEnd : Bool := true
  /-- The connections whose events count; none means all. -/
  connections : List String := []
deriving DecidableEq

/-- Whether events of a connection count. -/
def ReplayOptions.selects (o : ReplayOptions) (connection : String) : Bool :=
  o.connections.isEmpty || o.connections.any fun id => sameIgnoringCase (trimmed id) connection

/-- The connection that is replayed, if it is a single one. -/
def ReplayOptions.singleConnection? (o : ReplayOptions) : Option String :=
  match o.connections with
  | [id] => some (trimmed id)
  | _ => none

/-- Counts of a replay. -/
structure ReplaySummary where
  events : Nat := 0
  /-- Malformed lines. -/
  skipped : Nat := 0
  /-- Events of connections that were not selected. -/
  filtered : Nat := 0
  runs : Nat := 0
deriving DecidableEq

/-- A run that was seen, with the latest time of its events. -/
structure SeenRun where
  context : RunContext
  latest : Binary64
deriving DecidableEq

/-- What a replay writes to the log besides what tracking writes. -/
inductive ReplayNotice where
  | malformed (line : Nat) (failure : Failure)
  | completing (run : RunId)
deriving DecidableEq

/-- The line of a notice. -/
def ReplayNotice.line : ReplayNotice → LogLine
  | malformed line failure =>
    ⟨.warn, .replay, s!"skipping malformed event on line {line}: {failure.message}", []⟩
  | completing run =>
    ⟨.info, .replay, "force completing replication run",
      [("connection_id", .shown run.connection.toString), ("job_id", .number run.job.toInt),
        ("attempt", .number run.attempt.toNat)]⟩

/-- What a replay did, in order. -/
inductive ReplayEntry where
  | note (notice : ReplayNotice)
  | tracked (event : Event) (effects : List Effect)

namespace Replay

/-! ## Runs -/

/-- Notes an event of a run: a new run comes last, an old one may get a later time. -/
def remember (event : Event) : List SeenRun → List SeenRun
  | [] => [⟨event.context, event.message.emittedAt⟩]
  | seen :: rest =>
    if seen.context.run = event.run then
      { seen with latest := seen.latest.max event.message.emittedAt } :: rest
    else seen :: remember event rest

/-- The event that completes a run. -/
def completion (seen : SeenRun) : Event where
  origin := .internal
  message := { stream := {}, status := .complete, emittedAt := seen.latest }
  context := seen.context

/-! ## Lines -/

/-- What a line of the input means. -/
inductive LineMeaning where
  | blank
  | malformed (failure : Failure)
  /-- An event of a connection that does not count. -/
  | unselected (event : Event)
  | event (event : Event)
deriving DecidableEq

/-- Makes out what a line means. -/
def meaning (options : ReplayOptions) (line : List Char) : LineMeaning :=
  if isAllBlank line then .blank
  else
    match Event.ofLine line with
    | .error failure => .malformed failure
    | .ok event =>
      if options.selects event.context.connection.toString then .event event
      else .unselected event

/-- How far a replay has come. -/
structure Progress (σ : Type) where
  roster : Roster
  api : σ
  summary : ReplaySummary := {}
  runs : List SeenRun := []
  entries : Array ReplayEntry := #[]

namespace Progress

variable {σ : Type}

/-- Tracks an event. -/
def track (api : StatusApi σ) (event : Event) (p : Progress σ) : Progress σ :=
  let turn := p.roster.track api event p.api
  { p with
    roster := turn.roster
    api := turn.api
    entries := p.entries.push (.tracked event turn.effects) }

/-- Takes the line of this number into account. -/
def takeLine (api : StatusApi σ) (number : Nat) (p : Progress σ) : LineMeaning → Progress σ
  | .blank => p
  | .malformed failure =>
    { p with
      summary := { p.summary with skipped := p.summary.skipped + 1 }
      entries := p.entries.push (.note (.malformed number failure)) }
  | .unselected _ =>
    { p with summary := { p.summary with filtered := p.summary.filtered + 1 } }
  | .event event =>
    let p := p.track api event
    { p with
      summary := { p.summary with events := p.summary.events + 1 }
      runs := remember event p.runs }

/-- Takes lines into account up to the first that is no text. -/
def takeLines (api : StatusApi σ) (options : ReplayOptions) :
    Nat → List (Except Utf8.Fault (List Char)) → Progress σ → Progress σ × Option Utf8.Fault
  | _, [], p => (p, none)
  | _, .error fault :: _, p => (p, some fault)
  | number, .ok line :: rest, p =>
    takeLines api options (number + 1) rest (p.takeLine api number (meaning options line))

/-- Completes a run. -/
def complete (api : StatusApi σ) (p : Progress σ) (seen : SeenRun) : Progress σ :=
  let p := { p with entries := p.entries.push (.note (.completing seen.context.run)) }
  p.track api (completion seen)

end Progress

/-- Where a replay ended: with a summary, or at a line that is no text. -/
structure Outcome (σ : Type) where
  progress : Progress σ
  result : Except Utf8.Fault ReplaySummary

/-- Replays an input. -/
def run {σ : Type} (api : StatusApi σ) (options : ReplayOptions) (input : List UInt8)
    (roster : Roster) (state : σ) : Outcome σ :=
  match Progress.takeLines api options 1 (Utf8.lines input) { roster, api := state } with
  | (p, some fault) => ⟨p, .error fault⟩
  | (p, none) =>
    let summary := { p.summary with runs := p.runs.length }
    let p := { p with summary }
    ⟨if options.completesAtEnd then p.runs.foldl (Progress.complete api) p else p, .ok summary⟩

end Replay

end StreamWatch
