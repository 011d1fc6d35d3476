import StreamWatch.Proofs.Event.RoundTrip
import StreamWatch.Proofs.Replay.Malformed

/-!
# Replaying what was written

Events that are written line by line and replayed are tracked as if they had been passed to the
roster one after the other: `run_toLines`. Nothing is lost on the way, since each line is read back
as the event it was written for, and no line is taken for two or for none.
-/

namespace StreamWatch.Replay

variable {σ : Type} {options : ReplayOptions}

/-- The line of an event means that event, if its connection counts. -/
theorem meaning_toLine {event : Event} (h : event.IsPlain)
    (hselects : options.selects event.context.connection.toString) :
    meaning options event.toLine = .event event := by
  have hblank : isAllBlank event.toLine = false := rfl
  rw [meaning, hblank, if_neg (by simp), Event.ofLine_toLine h]
  simp only [hselects, if_true]

/-- The events on lines that all hold events are these events. -/
theorem eventsOf_toLines {events : List Event}
    (h : ∀ event ∈ events, meaning options event.toLine = .event event) :
    eventsOf options (events.map Event.toLine) = events := by
  induction events with
  | nil => rfl
  | cons event rest ih =>
      rw [List.forall_mem_cons] at h
      rw [eventsOf, List.map_cons, List.filterMap_cons, h.1]
      exact congrArg (event :: ·) (ih h.2)

namespace Progress

/-- The effects of the events that were tracked, in order. -/
def effects (p : Progress σ) : List Effect := p.tracked.flatMap (·.2)

/-- Lines that all hold events are all counted, and have the effects of their events. -/
theorem takeLines_events (api : StatusApi σ) {events : List Event}
    (h : ∀ event ∈ events, meaning options event.toLine = .event event) (number : Nat)
    (p : Progress σ) :
    ∃ p', takeLines api options number ((events.map Event.toLine).map .ok) p = (p', none) ∧
      p'.summary = { p.summary with events := p.summary.events + events.length } ∧
      p'.effects = p.effects ++ (Roster.trackAll api events p.roster p.api).effects := by
  induction events generalizing number p with
  | nil => exact ⟨p, rfl, rfl, by simp [Roster.trackAll]⟩
  | cons event rest ih =>
      rw [List.forall_mem_cons] at h
      obtain ⟨p', htake, hsummary, heffects⟩ :=
        ih h.2 (number + 1) (p.takeLine api number (.event event))
      have hfirst : (p.takeLine api number (.event event)).effects =
          p.effects ++ (p.roster.track api event p.api).effects := by
        simp [effects, tracked, takeLine, track]
      refine ⟨p', ?_, ?_, ?_⟩
      · rw [← htake, ← h.1]
        rfl
      · rw [hsummary]
        simp only [takeLine, track, List.length_cons]
        rw [Nat.add_right_comm, Nat.add_assoc]
      · rw [heffects, hfirst, List.append_assoc]
        rfl

end Progress

/-- Events that were written line by line are read back one by one, and a replay of their lines
skips nothing and does what tracking the events does. -/
theorem run_toLines {events : List Event} (h : ∀ event ∈ events, event.IsPlain) {text : List Char}
    (htext : Utf8.HoldsLines (events.map Event.toLine) text) (api : StatusApi σ) (roster : Roster)
    (s : σ) :
    let turn := Roster.trackAll api events roster s
    let outcome := run api { completesAtEnd := false } (Utf8.encode text) roster s
    (∀ event ∈ events, Event.ofLine event.toLine = .ok event) ∧
      outcome.result =
        .ok { events := events.length, runs := (rememberAll events []).length } ∧
      outcome.progress.effects = turn.effects ∧ outcome.progress.roster = turn.roster ∧
      outcome.progress.api = turn.api := by
  intro turn outcome
  let options : ReplayOptions := { completesAtEnd := false }
  have hmeaning : ∀ event ∈ events, meaning options event.toLine = .event event :=
    fun event hevent => meaning_toLine (h event hevent) rfl
  have hlines : Utf8.textLines text = events.map Event.toLine := by
    refine htext.textLines ?_
    rw [List.forall_mem_map]
    exact fun event hevent => Event.isLine_toLine (h event hevent)
  -- the counts and the effects on the one hand, the roster on the other, come from the same walk
  obtain ⟨p, htake, hsummary, heffects⟩ :=
    Progress.takeLines_events api hmeaning 1 { roster, api := s }
  obtain ⟨p', htake', htracks, hruns⟩ :=
    Progress.takeLines_tracks api options 1 (events.map Event.toLine) { roster, api := s }
  obtain rfl : p = p' := (Prod.mk.inj (htake.symm.trans htake')).1
  rw [eventsOf_toLines hmeaning] at htracks hruns
  rw [← hlines, ← Utf8.lines_encode] at htake
  have hrun : outcome = ⟨{ p with summary := { p.summary with runs := p.runs.length } },
      .ok { p.summary with runs := p.runs.length }⟩ := run_of_takeLines htake
  rw [hrun]
  refine ⟨fun event hevent => Event.ofLine_toLine (h event hevent), ?_, ?_, htracks.roster,
    htracks.api⟩
  · rw [hsummary, hruns]
    simp
  · exact heffects

/-- Two streams with odd names start in the same run. -/
theorem run_toLines_of_odd_names :
    let started (name : String) (time : Int) : Event :=
      { origin := .source
        message := { stream := { name := some name }, status := .started, emittedAt := .ofInt time }
        context := Sample.context }
    let events := [started "the \"orders\"" 1500, started "two\nlines" (-20)]
    let lines := events.map Event.toLine
    let text := lines.flatMap (· ++ ['\n'])
    let turn := Roster.trackAll Sample.granting events {} ()
    let outcome := run Sample.granting { completesAtEnd := false } (Utf8.encode text) {} ()
    (∀ event ∈ events, event.IsPlain) ∧ Utf8.HoldsLines lines text ∧
      outcome.result = .ok { events := 2, runs := 1 } ∧
      outcome.progress.effects = turn.effects ∧ outcome.progress.roster = turn.roster := by
  intro started events lines text turn outcome
  have hplain : ∀ event ∈ events, event.IsPlain := by
    have hstarted (name : String) {time : Int} (htime : time.natAbs ≤ 10 ^ 15) :
        (started name time).IsPlain :=
      ⟨fun _ => Option.some_ne_none name, Binary64.isWholeUpTo_ofInt htime (by decide)⟩
    simp only [events, List.forall_mem_cons]
    exact ⟨hstarted _ (by decide), hstarted _ (by decide), List.forall_mem_nil _⟩
  have htext : Utf8.HoldsLines lines text := .ended lines
  obtain ⟨-, hrun⟩ := run_toLines hplain htext Sample.granting {} ()
  have hruns : (rememberAll events []).length = 1 := rfl
  rw [hruns] at hrun
  dsimp only [turn, outcome]
  generalize run Sample.granting { completesAtEnd := false } (Utf8.encode text) {} () = outcome
    at *
  generalize Roster.trackAll Sample.granting events {} () = turn at *
  exact ⟨hplain, htext, hrun.1, hrun.2.1, hrun.2.2.1⟩

end StreamWatch.Replay
