import Mathlib.Data.List.Induction
import StreamWatch.Proofs.Roster.Sound

/-!
# The outcome of a stream and its two sides

The first terminal status of a side stays with that side, and the first incomplete report ends the
stream. The two rules agree unless a side takes its own completion back: it keeps its completion,
and the stream is incomplete all the same. `runState_iff_of_isTerminated` says that this is the only
case in which the run state is not read off the sides.
-/

namespace StreamWatch.Roster

variable {σ : Type} (api : StatusApi σ) (s : σ) (key : StreamKey)

/-- Since the stream was last cleared, a side that had completed reported it incomplete, while not
both sides had completed. -/
def TakenBack (events : List Event) : Prop :=
  ∃ earlier event later state, events = earlier ++ event :: later ∧
    (trackAll api earlier {} s).roster.streams.get? key = some state ∧
    state.side event.origin = some .complete ∧ ¬ state.isComplete ∧
    event.Reports key ∧ event.status = .incomplete ∧ ∀ e ∈ later, ¬ e.Clears key

variable {api s key}

/-- A completion that was taken back stays so until the stream is cleared. -/
theorem TakenBack.concat {events : List Event} (h : TakenBack api s key events) {event : Event}
    (hclears : ¬ event.Clears key) : TakenBack api s key (events ++ [event]) := by
  obtain ⟨earlier, taking, later, state, rfl, hstate, hside, hboth, hreports, hstatus, hlater⟩ := h
  refine ⟨earlier, taking, later ++ [event], state, by simp, hstate, hside, hboth, hreports,
    hstatus, ?_⟩
  intro e he
  rcases List.mem_append.mp he with he | he
  · exact hlater e he
  · rw [List.mem_singleton.mp he]
    exact hclears

/-- An incomplete stream has an incomplete side, or a completion was taken back. -/
theorem hasIncomplete_or_takenBack {events : List Event} {state : StreamState}
    (h : (trackAll api events {} s).roster.streams.get? key = some state)
    (hrun : state.runState = .incomplete) :
    state.HasIncomplete ∨ TakenBack api s key events := by
  induction events using List.reverseRecOn generalizing state with
  | nil => cases h
  | append_singleton events event ih =>
      rw [trackAll_concat] at h
      rcases track_watched_cases api h with ⟨-, hclears, hsame⟩ | ⟨-, -, id?, rfl⟩ |
        ⟨hreports, before, m, hbefore, htakes, hnext⟩
      · exact (ih hsame hrun).imp_right (·.concat hclears)
      · simp [StreamState.opened] at hrun
      · have hclears : ¬ event.Clears key := hreports.not_clears
        -- what was incomplete before stays so, and only a failure makes a stream incomplete
        cases htakes with
        | again =>
            cases hnext
            exact (ih hbefore hrun).imp_right (·.concat hclears)
        | late | half =>
            cases hnext
            rw [StreamState.hear_runState] at hrun
            exact (ih hbefore hrun).imp (·.hear event.origin event.side) (·.concat hclears)
        | repeated _ _ _ _ hm | resumed _ _ _ _ hm =>
            cases hnext
            rw [hm, StreamState.resumed] at hrun
            cases hlimit : event.message.limit? <;> simp [hlimit] at hrun
        | completed _ _ _ hm =>
            cases hnext
            rw [hm] at hrun
            cases hrun
        | failed hstatus hended hm =>
            cases hnext
            have hsound := sound_of_watched api events s hbefore
            obtain ⟨y, hy, hterminal⟩ := StreamState.exists_isTerminal_hear before hreports.1
              (x := event.side) (by rw [Event.side, hstatus]; rfl)
            rcases StreamState.of_side_hear_eq_some hy with hold | hheard
            · -- the side was through before, and not incomplete, since the stream had not ended
              have hcomplete : before.side event.origin = some .complete := by
                cases y with
                | complete => exact hold
                | incomplete cause =>
                    exact absurd ⟨_, cause, hold⟩ (hsound.not_hasIncomplete hended)
                | started => cases hterminal
                | running => cases hterminal
              have hboth : ¬ before.isComplete := fun hc =>
                hended (hsound.ended_of_isTerminated (StreamState.isTerminated_of_isComplete hc))
              exact Or.inr ⟨events, event, [], before, rfl, hbefore, hcomplete, hboth, hreports,
                hstatus, by simp⟩
            · refine Or.inl ⟨event.origin, event.cause, ?_⟩
              rw [hm, StreamState.side_closed, hy, ← hheard, Event.side, hstatus]

/-- A stream with a completion taken back is incomplete. -/
theorem TakenBack.runState_eq {events : List Event} (ht : TakenBack api s key events)
    {state : StreamState} (h : (trackAll api events {} s).roster.streams.get? key = some state) :
    state.runState = .incomplete := by
  obtain ⟨earlier, event, later, before, rfl, hbefore, -, hboth, hreports, hstatus, hlater⟩ := ht
  -- right after the incomplete report the stream is incomplete and has ended
  obtain ⟨middle, hmiddle, hended, hrun⟩ : ∃ middle,
      (trackAll api (earlier ++ [event]) {} s).roster.streams.get? key = some middle ∧
        middle.ended ∧ middle.runState = .incomplete := by
    rw [trackAll_concat]
    rcases track_watched api hbefore event (trackAll api earlier {} s).api with
      ⟨-, m, htakes, hy⟩ | ⟨hclears, -⟩ | ⟨hnot, -⟩
    · have hnext := htakes.eq_next hy
      cases htakes with
      | again h => simp [hstatus] at h
      | half h => simp [hstatus] at h
      | repeated h => simp [hstatus] at h
      | resumed h => simp [hstatus] at h
      | completed h => simp [hstatus] at h
      | late _ hended =>
          refine ⟨_, hnext, by simpa using hended, ?_⟩
          have hsound := sound_of_watched api earlier s hbefore
          rcases hsound.runState_of_ended hended with hrun | hrun
          · exact absurd (hsound.isComplete hrun) hboth
          · simpa using hrun
      | failed _ _ hm => exact ⟨_, hnext, by rw [hm]; rfl, by rw [hm]; rfl⟩
    · exact absurd hclears hreports.not_clears
    · exact absurd hreports hnot
  obtain ⟨after, hafter, hfrozen⟩ := trackAll_of_ended api later hlater hmiddle hended
    (trackAll api (earlier ++ [event]) {} s).api
  have hsplit : earlier ++ event :: later = (earlier ++ [event]) ++ later := by simp
  rw [hsplit, trackAll_append, hafter] at h
  cases h
  rw [hfrozen.runState_eq, hrun]

/-- Once both sides of a stream are through, its run state follows from the sides and from whether
a completion was taken back. -/
theorem runState_iff_of_isTerminated {events : List Event} {state : StreamState}
    (h : (trackAll api events {} s).roster.streams.get? key = some state)
    (hterm : state.isTerminated) :
    (state.runState = .complete ↔ state.isComplete ∧ ¬ TakenBack api s key events) ∧
      (state.runState = .incomplete ↔ state.HasIncomplete ∨ TakenBack api s key events) := by
  have hsound := sound_of_watched api events s h
  have hend := hsound.runState_of_ended (hsound.ended_of_isTerminated hterm)
  have hincomplete : state.runState = .incomplete ↔
      state.HasIncomplete ∨ TakenBack api s key events := by
    constructor
    · exact hasIncomplete_or_takenBack h
    · rintro (hinc | ht)
      · exact hsound.incomplete hinc
      · exact ht.runState_eq h
  refine ⟨⟨fun hrun => ⟨hsound.isComplete hrun, fun ht => ?_⟩, fun ⟨hboth, hnot⟩ => ?_⟩,
    hincomplete⟩
  · rw [ht.runState_eq h] at hrun
    cases hrun
  · rcases hend with hrun | hrun
    · exact hrun
    · rcases hincomplete.mp hrun with hinc | ht
      · exact absurd hboth hinc.not_isComplete
      · exact absurd ht hnot

/-- A source that completes and then fails takes its completion back, so that both sides of an
incomplete stream end up complete. -/
theorem runState_of_completion_takenBack :
    let events := [Sample.event .source .started, Sample.event .source .complete,
      Sample.event .source .incomplete, Sample.event .destination .complete]
    ∃ state : StreamState,
      (trackAll Sample.granting events {} ()).roster.streams.get? Sample.orders = some state ∧
        state.isTerminated ∧ state.isComplete ∧ state.runState = .incomplete ∧
        TakenBack Sample.granting () Sample.orders events := by
  intro events
  have hstate : (trackAll Sample.granting events {} ()).roster.streams.get? Sample.orders = some
      { source := some .complete, destination := some .complete, id? := some ⟨7⟩, jobKind := .sync
        runState := .incomplete, changedAt := 0, ended := true } := by decide
  refine ⟨_, hstate, by decide, by decide, by decide, ?_⟩
  rcases (runState_iff_of_isTerminated hstate (by decide)).2.mp (by decide) with hinc | ht
  · exact absurd (by decide) hinc.not_isComplete
  · exact ht

/-- The run state does not follow from the sides alone. -/
theorem not_runState_iff_sides :
    ¬ ∀ {σ : Type} (api : StatusApi σ) (s : σ) (events : List Event) (key : StreamKey)
        (state : StreamState),
      (trackAll api events {} s).roster.streams.get? key = some state → state.isTerminated →
      (state.runState = .complete ↔ state.isComplete) ∧
        (state.runState = .incomplete ↔ state.HasIncomplete) := by
  intro h
  have hsides := h Sample.granting () [Sample.event .source .started,
    Sample.event .source .complete, Sample.event .source .incomplete,
    Sample.event .destination .complete] Sample.orders _ rfl (by decide)
  exact absurd (hsides.1.mpr (by decide)) (by decide)

end StreamWatch.Roster
