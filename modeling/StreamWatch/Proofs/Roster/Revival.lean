import StreamWatch.Proofs.Roster.Sound

/-!
# Streams that come back to life

A started report leaves a watched stream alone. A running report does not: the side it comes from
hears it even after the end of the stream was reported. `track_ended_iff` says when that shows, in
the state of the stream and in its status as a whole.
-/

namespace StreamWatch.Roster

/-- A stream that was through is not any more. -/
def Revives (before after : Option Status) : Prop :=
  (before = some .complete ∨ before = some .incomplete) ∧
    (after = some .started ∨ after = some .running)

instance (before after : Option Status) : Decidable (Revives before after) :=
  inferInstanceAs (Decidable (_ ∧ _))

/-- Keeping a status revives nothing. -/
theorem not_revives_self (status : Option Status) : ¬ Revives status status := by
  rintro ⟨rfl | rfl, h | h⟩ <;> cases h

/-- The status of a side that is through is an end. -/
theorem status_of_isTerminal {x : SideStatus} (h : x.isTerminal) :
    x.status = .complete ∨ x.status = .incomplete := by
  cases x with
  | complete => exact Or.inl rfl
  | incomplete => exact Or.inr rfl
  | started => cases h
  | running => cases h

/-- A destination that has spoken speaks for the stream. -/
theorem status?_of_destination {state : StreamState} {x : SideStatus}
    (h : state.destination = some x) : state.status? = some x.status := by
  rw [StreamState.status?, h]
  rfl

/-- While the destination is silent the source speaks for the stream. -/
theorem status?_of_source {state : StreamState} {x : SideStatus} (h : state.destination = none)
    (hsource : state.source = some x) : state.status? = some x.status := by
  rw [StreamState.status?, h, hsource]
  rfl

/-- When a running report revives a stream whose end was reported: the destination speaks for the
first time. -/
theorem revives_hear_running_iff {state : StreamState} (hsound : state.Sound)
    (hended : state.ended) {origin : Origin} (h : origin ≠ .internal) :
    Revives state.status? (state.hear origin .running).status? ↔
      origin = .destination ∧ state.destination = none := by
  obtain ⟨other, x, hside, hx⟩ := hsound.exists_isTerminal hended
  cases hdest : state.destination with
  | none =>
      -- then it is the source that is through
      have hsource : state.source = some x := by
        cases other with
        | source => exact hside
        | destination => rw [StreamState.side, hdest] at hside; cases hside
        | internal => cases hside
      cases origin with
      | internal => exact absurd rfl h
      | source =>
          have hsame : state.hear .source .running = state :=
            (StreamState.hear_eq_self_iff h _).mpr ⟨x, hsource, Or.inl hx⟩
          rw [hsame]
          exact iff_of_false (not_revives_self _) (fun hd => by cases hd.1)
      | destination =>
          have hheard : (state.hear .destination .running).destination = some .running := by
            rw [StreamState.hear, hdest]
            rfl
          rw [status?_of_source hdest hsource, status?_of_destination hheard]
          refine iff_of_true ⟨?_, Or.inr rfl⟩ ⟨rfl, rfl⟩
          exact (status_of_isTerminal hx).imp (congrArg some) (congrArg some)
  | some y =>
      refine iff_of_false ?_ (fun hd => by cases hd.2)
      rw [status?_of_destination hdest]
      cases origin with
      | internal => exact absurd rfl h
      | source =>
          have hheard : (state.hear .source .running).destination = some y := hdest
          rw [status?_of_destination hheard]
          exact not_revives_self _
      | destination =>
          by_cases hy : y.isTerminal
          · have hsame : state.hear .destination .running = state :=
              (StreamState.hear_eq_self_iff h _).mpr ⟨y, hdest, Or.inl hy⟩
            rw [hsame, status?_of_destination hdest]
            exact not_revives_self _
          · rintro ⟨hstatus, -⟩
            cases y <;> simp [SideStatus.isTerminal, SideStatus.status] at hy hstatus

variable {σ : Type} {api : StatusApi σ} {s : σ} {key : StreamKey}

/-- A started or running report about a stream whose end was reported makes no call, and at most the
side it comes from hears it. The state of the stream stays as it was unless it is a running report
of a side that is neither through nor said to run, and the stream is revived exactly by the first
word of its destination. -/
theorem track_ended_iff {events : List Event} {state : StreamState} {event : Event}
    (h : (trackAll api events {} s).roster.streams.get? key = some state) (hended : state.ended)
    (hreports : event.Reports key) (hstatus : event.status = .started ∨ event.status = .running) :
    let before := trackAll api events {} s
    let turn := before.roster.track api event before.api
    callsAbout key turn.effects = [] ∧
    ∃ after, turn.roster.streams.get? key = some after ∧
      after = (if event.status = .running then state.hear event.origin .running else state) ∧
      (after = state ↔ (event.status = .running →
        ∃ x, state.side event.origin = some x ∧ (x.isTerminal ∨ x = .running))) ∧
      (Revives (before.roster.status? key) (turn.roster.status? key) ↔
        event.status = .running ∧ event.origin = .destination ∧ state.destination = none) := by
  intro before turn
  have hsound := sound_of_watched api events s h
  have hbefore : before.roster.status? key = state.status? := by
    rw [Roster.status?, h]
    rfl
  rcases track_watched api h event before.api with ⟨-, m, htakes, hy⟩ | ⟨hclears, -⟩ | ⟨hnot, -⟩
  · have hnext := htakes.eq_next hy
    -- a stream that has ended makes one of two moves, and neither is told
    obtain ⟨notice, ⟨hstarted, rfl⟩ | ⟨hstarted, rfl⟩⟩ := htakes.of_ended hended
    · have hnot : event.status ≠ .running := by simp [hstarted]
      have hafter : turn.roster.status? key = state.status? := by
        rw [Roster.status?, hnext]
        rfl
      refine ⟨(hy.of_note rfl).2, state, hnext, (if_neg hnot).symm, ?_, ?_⟩
      · exact iff_of_true rfl (fun hr => absurd hr hnot)
      · rw [hbefore, hafter]
        exact iff_of_false (not_revives_self _) (fun hr => hnot hr.1)
    · have hrunning : event.status = .running := hstatus.resolve_left hstarted
      have hx : event.side = .running := by rw [Event.side, hrunning]
      rw [hx] at hnext
      have hafter : turn.roster.status? key = (state.hear event.origin .running).status? := by
        rw [Roster.status?, hnext]
        rfl
      refine ⟨(hy.of_note rfl).2, _, hnext, (if_pos hrunning).symm, ?_, ?_⟩
      · rw [StreamState.hear_eq_self_iff hreports.1]
        exact ⟨fun hside _ => hside, fun hside => hside hrunning⟩
      · rw [hbefore, hafter, revives_hear_running_iff hsound hended hreports.1]
        exact ⟨fun hd => ⟨hrunning, hd⟩, fun hd => hd.2⟩
  · exact absurd hclears hreports.not_clears
  · exact absurd hreports hnot

/-- The first word of the destination revives a stream that its source has ended. -/
theorem revives_of_first_word :
    let before := trackAll Sample.granting
      [Sample.event .source .started, Sample.event .source .incomplete] {} ()
    let turn := before.roster.track Sample.granting (Sample.event .destination .running) before.api
    Revives (before.roster.status? Sample.orders) (turn.roster.status? Sample.orders) := by
  intro before turn
  have hstate : before.roster.streams.get? Sample.orders = some
      { source := some (.incomplete .failed), id? := some ⟨7⟩, jobKind := .sync
        runState := .incomplete, changedAt := 0, ended := true } := by decide
  have hreports : (Sample.event .destination .running).Reports Sample.orders := by decide
  obtain ⟨-, after, -, -, -, hrevives⟩ := track_ended_iff hstate rfl hreports (Or.inr rfl)
  exact hrevives.mpr ⟨rfl, rfl, rfl⟩

/-- Neither the state nor the status of a stream is frozen by the report of its end. -/
theorem not_frozen_of_ended :
    ¬ (∀ {σ : Type} (api : StatusApi σ) (s : σ) (events : List Event) (key : StreamKey)
        (state : StreamState) (event : Event),
      (trackAll api events {} s).roster.streams.get? key = some state → state.ended →
      event.Reports key → event.status = .started ∨ event.status = .running →
      ((trackAll api events {} s).roster.track api event
        (trackAll api events {} s).api).roster.streams.get? key = some state) ∧
    ¬ (∀ {σ : Type} (api : StatusApi σ) (s : σ) (events : List Event) (key : StreamKey)
        (state : StreamState) (event : Event),
      (trackAll api events {} s).roster.streams.get? key = some state → state.ended →
      event.Reports key → event.status = .started ∨ event.status = .running →
      ¬ Revives ((trackAll api events {} s).roster.status? key)
        (((trackAll api events {} s).roster.track api event
          (trackAll api events {} s).api).roster.status? key)) := by
  constructor
  · intro h
    have hsame := h Sample.granting ()
      [Sample.event .source .started, Sample.event .source .incomplete] Sample.orders _
      (Sample.event .destination .running) rfl rfl (by decide) (by decide)
    exact absurd hsame (by decide)
  · intro h
    have hnot := h Sample.granting ()
      [Sample.event .source .started, Sample.event .source .incomplete] Sample.orders _
      (Sample.event .destination .running) rfl rfl (by decide) (by decide)
    exact absurd hnot (by decide)

end StreamWatch.Roster
