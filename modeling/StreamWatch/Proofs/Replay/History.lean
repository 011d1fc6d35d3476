import StreamWatch.Proofs.Replay.Account
import StreamWatch.Proofs.Roster.Isolation

/-!
# A replay, event by event

A replay of a text tracks the events that count and then, if that is asked for, the completions of
their runs. What it did for each of them is what tracking all of them, one after the other, does for
that one: `run_history`.
-/

namespace StreamWatch

/-- A history is that of the first events and then that of the others. -/
theorem Roster.history_append {σ : Type} (api : StatusApi σ) (first second : List Event)
    (r : Roster) (s : σ) :
    history api (first ++ second) r s =
      let before := trackAll api first r s
      history api first r s ++ history api second before.roster before.api := by
  induction first generalizing r s with
  | nil => rfl
  | cons event rest ih => simp [history, trackAll, ih]

/-- The event of an entry, with what was done for it. -/
def Entry.told (entry : Entry) : Event × List Effect := (entry.event, entry.effects)

namespace Replay

namespace Progress

variable {σ : Type} {api : StatusApi σ}

/-- `p.Recounts api events p'`: on the way from `p` to `p'` a replay tracked these events, one after
the other. -/
structure Recounts (api : StatusApi σ) (events : List Event) (p p' : Progress σ) : Prop where
  tracks : p.Tracks api events p'
  tracked : p'.tracked = p.tracked ++ (Roster.history api events p.roster p.api).map Entry.told

/-- Nothing was tracked on the way to where nothing is different. -/
theorem Recounts.nil {p p' : Progress σ} (hroster : p'.roster = p.roster) (hapi : p'.api = p.api)
    (htracked : p'.tracked = p.tracked) : p.Recounts api [] p' :=
  ⟨.nil hroster hapi, htracked.trans (List.append_nil _).symm⟩

/-- One way after the other. -/
theorem Recounts.append {first second : List Event} {p p' p'' : Progress σ}
    (h : p.Recounts api first p') (h' : p'.Recounts api second p'') :
    p.Recounts api (first ++ second) p'' where
  tracks := h.tracks.append h'.tracks
  tracked := by
    rw [h'.tracked, h.tracked, h.tracks.roster, h.tracks.api, Roster.history_append,
      List.map_append, List.append_assoc]

variable (api)

/-- Tracking an event. -/
theorem track_recounts (event : Event) (p : Progress σ) :
    p.Recounts api [event] (p.track api event) := by
  refine ⟨⟨rfl, rfl⟩, ?_⟩
  simp [tracked, track, Roster.history, Entry.told]

/-- A line tracks its event, if that counts. -/
theorem takeLine_recounts (options : ReplayOptions) (number : Nat) (line : List Char)
    (p : Progress σ) :
    p.Recounts api (selected options (reading? number line).toList)
      (p.takeLine api number (meaning options line)) := by
  unfold reading? meaning
  split
  · exact .nil rfl rfl rfl
  · cases Event.ofLine line with
    | error failure =>
        refine .nil rfl rfl ?_
        simp [tracked, takeLine]
    | ok event =>
        cases h : options.selects event.context.connection.toString with
        | false =>
            have hselected : selected options [⟨number, .ok event⟩] = [] :=
              List.filter_cons_of_neg (by simp [h])
            simp only [h, Bool.false_eq_true, if_false, Option.toList_some, hselected]
            exact .nil rfl rfl rfl
        | true =>
            have hselected : selected options [⟨number, .ok event⟩] = [event] :=
              List.filter_cons_of_pos h
            simp only [h, if_true, Option.toList_some, hselected]
            have htrack := track_recounts api event p
            exact ⟨⟨htrack.tracks.roster, htrack.tracks.api⟩, htrack.tracked⟩

/-- Lines of text track their events that count. -/
theorem takeLines_recounts (options : ReplayOptions) (number : Nat) (lines : List (List Char))
    (p : Progress σ) :
    ∃ p', takeLines api options number (lines.map .ok) p = (p', none) ∧
      p.Recounts api (selected options (readings number lines)) p' := by
  induction lines generalizing number p with
  | nil => exact ⟨p, rfl, .nil rfl rfl rfl⟩
  | cons line rest ih =>
      obtain ⟨p', htake, hrest⟩ := ih (number + 1) (p.takeLine api number (meaning options line))
      rw [readings_cons, selected_append]
      exact ⟨p', htake, (takeLine_recounts api options number line p).append hrest⟩

/-- Completing runs tracks the completion of each. -/
theorem foldl_complete_recounts (runs : List SeenRun) (p : Progress σ) :
    p.Recounts api (runs.map completion) (runs.foldl (complete api) p) := by
  induction runs generalizing p with
  | nil => exact .nil rfl rfl rfl
  | cons seen rest ih =>
      let noted : Progress σ :=
        { p with entries := p.entries.push (.note (.completing seen.context.run)) }
      have hnoted : p.Recounts api [] noted := .nil rfl rfl (by simp [noted, tracked])
      have hfirst : p.Recounts api [completion seen] (p.complete api seen) :=
        hnoted.append (track_recounts api (completion seen) noted)
      exact hfirst.append (ih (p.complete api seen))

end Progress

/-- The completions at the end of a replay that tracked these events. -/
def completions (options : ReplayOptions) (events : List Event) : List Event :=
  if options.completesAtEnd then (rememberAll events []).map completion else []

/-- Replaying a text tracks the events that count and then the completions of their runs, counts the
lines by what they hold, and counts the runs. -/
theorem run_history {σ : Type} (api : StatusApi σ) (options : ReplayOptions) (text : List Char)
    (roster : Roster) (s : σ) :
    let rs := readings 1 (Utf8.textLines text)
    let events := selected options rs
    let all := events ++ completions options events
    let turn := Roster.trackAll api all roster s
    let outcome := run api options (Utf8.encode text) roster s
    outcome.progress.roster = turn.roster ∧ outcome.progress.api = turn.api ∧
      outcome.progress.tracked = (Roster.history api all roster s).map Entry.told ∧
      outcome.result = .ok
        { events := events.length
          skipped := (warnings rs).length
          filtered := (unselected options rs).length
          runs := (rememberAll events []).length } := by
  intro rs events all turn outcome
  obtain ⟨p, htake, hrecounts⟩ :=
    Progress.takeLines_recounts api options 1 (Utf8.textLines text) { roster, api := s }
  obtain ⟨p', htake', haccounts⟩ := @Progress.takeLines_accounts σ api options 1
    (Utf8.textLines text) { roster, api := s }
  obtain rfl : p = p' := (Prod.mk.inj (htake.symm.trans htake')).1
  rw [← Utf8.lines_encode] at htake
  let summary : ReplaySummary := { p.summary with runs := p.runs.length }
  have hrun : outcome = ⟨Progress.finish api options { p with summary }, .ok summary⟩ :=
    run_of_takeLines htake
  -- first the lines, then the completions that come after them
  have hlines : Progress.Recounts api events { roster, api := s } { p with summary } :=
    ⟨⟨hrecounts.tracks.roster, hrecounts.tracks.api⟩, hrecounts.tracked⟩
  have hall : Progress.Recounts api all { roster, api := s } outcome.progress := by
    rw [hrun]
    refine hlines.append ?_
    unfold Progress.finish completions
    split
    · have hruns : p.runs = rememberAll events [] := haccounts.runs
      rw [← hruns]
      exact Progress.foldl_complete_recounts api _ _
    · exact .nil rfl rfl rfl
  refine ⟨hall.tracks.roster, hall.tracks.api, hall.tracked, ?_⟩
  rw [hrun]
  simp only [summary, haccounts.summary, haccounts.runs, Nat.zero_add]
  rfl

end Replay

end StreamWatch
