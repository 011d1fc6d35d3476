import StreamWatch.Proofs.Roster.Step
import StreamWatch.Proofs.Text.Utf8
import StreamWatch.Replay

/-!
# The events of a replay

Replaying a text is tracking the events on its lines, in order, and then the completions of their
runs if these are asked for: `run_encode`. What the lines in between are makes no difference to the
roster or to the status API.
-/

namespace StreamWatch.Replay

/-- The event on a line, if it counts. -/
def LineMeaning.event? : LineMeaning → Option Event
  | .event e => some e
  | .blank | .malformed _ | .unselected _ => none

/-- The events on some lines that count, in order. -/
def eventsOf (options : ReplayOptions) (lines : List (List Char)) : List Event :=
  lines.filterMap fun line => (meaning options line).event?

/-- Notes the runs of events. -/
def rememberAll (events : List Event) (runs : List SeenRun) : List SeenRun :=
  events.foldl (fun runs event => remember event runs) runs

/-- The events that a replay tracks: those on its lines, and then the completions of their runs. -/
def trackedEvents (options : ReplayOptions) (lines : List (List Char)) : List Event :=
  let events := eventsOf options lines
  events ++ if options.completesAtEnd then (rememberAll events []).map completion else []

namespace Progress

variable {σ : Type} {api : StatusApi σ}

/-- `p.Tracks api events p'`: on the way from `p` to `p'` a replay tracked these events. -/
structure Tracks (api : StatusApi σ) (events : List Event) (p p' : Progress σ) : Prop where
  roster : p'.roster = (Roster.trackAll api events p.roster p.api).roster
  api : p'.api = (Roster.trackAll api events p.roster p.api).api

/-- Nothing was tracked on the way to where the roster and the API are the same. -/
theorem Tracks.nil {p p' : Progress σ} (hroster : p'.roster = p.roster) (hapi : p'.api = p.api) :
    p.Tracks api [] p' :=
  ⟨hroster, hapi⟩

/-- One way after the other. -/
theorem Tracks.append {first second : List Event} {p p' p'' : Progress σ}
    (h : p.Tracks api first p') (h' : p'.Tracks api second p'') :
    p.Tracks api (first ++ second) p'' := by
  constructor
  · rw [h'.roster, Roster.trackAll_append, h.roster, h.api]
  · rw [h'.api, Roster.trackAll_append, h.roster, h.api]

variable (api)

/-- A line tracks its event, if it counts, and notes its run. -/
theorem takeLine_tracks (number : Nat) (p : Progress σ) (m : LineMeaning) :
    p.Tracks api m.event?.toList (p.takeLine api number m) ∧
      (p.takeLine api number m).runs = rememberAll m.event?.toList p.runs := by
  cases m with
  | blank | malformed | unselected => exact ⟨.nil rfl rfl, rfl⟩
  | event => exact ⟨⟨rfl, rfl⟩, rfl⟩

/-- Lines of text are all taken into account, and they track their events and note their runs. -/
theorem takeLines_tracks (options : ReplayOptions) (number : Nat) (lines : List (List Char))
    (p : Progress σ) :
    ∃ p', takeLines api options number (lines.map .ok) p = (p', none) ∧
      p.Tracks api (eventsOf options lines) p' ∧
      p'.runs = rememberAll (eventsOf options lines) p.runs := by
  induction lines generalizing number p with
  | nil => exact ⟨p, rfl, .nil rfl rfl, rfl⟩
  | cons line rest ih =>
      obtain ⟨hline, hruns⟩ := takeLine_tracks api number p (meaning options line)
      obtain ⟨p', htake, hrest, hruns'⟩ :=
        ih (number + 1) (p.takeLine api number (meaning options line))
      have hevents : eventsOf options (line :: rest) =
          (meaning options line).event?.toList ++ eventsOf options rest := by
        rw [eventsOf, List.filterMap_cons]
        cases (meaning options line).event? <;> rfl
      rw [hevents]
      refine ⟨p', htake, hline.append hrest, ?_⟩
      rw [hruns', hruns, rememberAll, rememberAll, rememberAll, List.foldl_append]

/-- Completing runs tracks the completion of each. -/
theorem foldl_complete_tracks (runs : List SeenRun) (p : Progress σ) :
    p.Tracks api (runs.map completion) (runs.foldl (complete api) p) := by
  induction runs generalizing p with
  | nil => exact .nil rfl rfl
  | cons seen rest ih =>
      have hfirst : p.Tracks api [completion seen] (p.complete api seen) := ⟨rfl, rfl⟩
      exact hfirst.append (ih (p.complete api seen))

end Progress

variable {σ : Type} (api : StatusApi σ)

/-- Replaying a text comes to its end, and tracks its events and the completions of their runs. -/
theorem run_encode (options : ReplayOptions) (text : List Char) (roster : Roster) (s : σ) :
    let turn := Roster.trackAll api (trackedEvents options (Utf8.textLines text)) roster s
    let outcome := run api options (Utf8.encode text) roster s
    outcome.progress.roster = turn.roster ∧ outcome.progress.api = turn.api ∧
      ∃ summary, outcome.result = .ok summary := by
  intro turn outcome
  obtain ⟨p, htake, htracks, hruns⟩ :=
    Progress.takeLines_tracks api options 1 (Utf8.textLines text) { roster, api := s }
  let summary : ReplaySummary := { p.summary with runs := p.runs.length }
  have houtcome : outcome = ⟨if options.completesAtEnd then p.runs.foldl (Progress.complete api)
      { p with summary } else { p with summary }, .ok summary⟩ := by
    simp only [outcome, run, Utf8.lines_encode, htake, summary]
  have hall : Progress.Tracks api (trackedEvents options (Utf8.textLines text))
      { roster, api := s } outcome.progress := by
    have hlines : Progress.Tracks api (eventsOf options (Utf8.textLines text))
        { roster, api := s } { p with summary } := ⟨htracks.roster, htracks.api⟩
    rw [houtcome, trackedEvents]
    refine hlines.append ?_
    split
    · rw [hruns]
      exact Progress.foldl_complete_tracks api _ _
    · exact .nil rfl rfl
  exact ⟨hall.roster, hall.api, summary, by rw [houtcome]⟩

end StreamWatch.Replay
