import StreamWatch.Proofs.Roster.Limited

/-!
# Streams whose end was reported

Once the end of a stream was reported, nothing more is said about it. Events still reach it until
one clears it, and they change no more of it than what a side says that was not through; nor does
the event that clears it say anything: `silent_of_ended`.
-/

namespace StreamWatch.Roster

variable {σ : Type} (api : StatusApi σ) {key : StreamKey} {state : StreamState}

/-- After the report of its end no call is made about a stream until an event clears it. -/
theorem callsAbout_trackAll_of_ended (events : List Event)
    (hclears : ∀ event ∈ events, ¬ event.Clears key) {r : Roster}
    (h : r.streams.get? key = some state) (hended : state.ended) (s : σ) :
    callsAbout key (trackAll api events r s).effects = [] := by
  induction events generalizing r s state with
  | nil => rfl
  | cons event rest ih =>
      rw [List.forall_mem_cons] at hclears
      obtain ⟨middle, hmiddle, hfrozen⟩ := track_of_ended api h hended hclears.1 s
      rw [trackAll, callsAbout_append, callsAbout_track_of_ended api h hended hclears.1 s,
        List.nil_append]
      exact ih hclears.2 hmiddle (hfrozen.ended_eq ▸ hended) _

/-- The event that clears a stream is silent about it if its end was reported before. -/
theorem track_of_ended_of_clears {event : Event} {r : Roster}
    (h : r.streams.get? key = some state) (hended : state.ended) (hclears : event.Clears key)
    (s : σ) :
    (r.track api event s).roster.streams.get? key = none ∧
      callsAbout key (r.track api event s).effects = [] := by
  rcases track_watched api h event s with ⟨hreports, -⟩ | ⟨-, _, _, -, hy⟩ | ⟨-, hnot, -⟩
  · exact absurd hclears hreports.not_clears
  · obtain ⟨hnext, ⟨hcalls, -⟩ | ⟨_, _, _, hstate, hopen, -⟩⟩ := clearing_yields hy
    · exact ⟨hnext, hcalls⟩
    · obtain rfl := Option.some.inj hstate
      exact absurd hended hopen
  · exact absurd hclears hnot

/-- Once the end of a stream was reported, and as long as no event clears it, no call is made about
it and it is not listed as rate limited. Its record, its job, its run state with the time and the
rate limit, and the mark of its end stay as they are, and so does a side that is through. The event
that clears it makes no call about it either, whatever end and cause it tells of. -/
theorem silent_of_ended {events later : List Event} {s : σ}
    (h : (trackAll api events {} s).roster.streams.get? key = some state) (hended : state.ended)
    (hclears : ∀ event ∈ later, ¬ event.Clears key) :
    let before := trackAll api events {} s
    let turn := trackAll api later before.roster before.api
    callsAbout key turn.effects = [] ∧ key ∉ turn.roster.limited ∧
    (∃ after, turn.roster.streams.get? key = some after ∧
      after.runState = state.runState ∧ after.changedAt = state.changedAt ∧
      after.limit? = state.limit? ∧ after.jobKind = state.jobKind ∧ after.id? = state.id? ∧
      after.ended ∧
      (∀ x, state.source = some x → x.isTerminal → after.source = some x) ∧
      ∀ x, state.destination = some x → x.isTerminal → after.destination = some x) ∧
    ∀ last : Event, last.Clears key →
      let final := turn.roster.track api last turn.api
      callsAbout key final.effects = [] ∧ final.roster.streams.get? key = none ∧
        key ∉ final.roster.limited := by
  intro before turn
  obtain ⟨after, hafter, hfrozen⟩ := trackAll_of_ended api later hclears h hended before.api
  have hend : after.ended := hfrozen.ended_eq ▸ hended
  -- the turn, and the one that clears the stream, are turns of whole runs
  have hturn : turn.roster = (trackAll api (events ++ later) {} s).roster := by
    rw [trackAll_append]
  refine ⟨callsAbout_trackAll_of_ended api later hclears h hended before.api, ?_,
    ⟨after, hafter, ?_⟩, fun last hlast => ?_⟩
  · rw [hturn]
    refine not_mem_limited api _ s fun state' hstate' => ?_
    rw [← hturn] at hstate'
    obtain rfl := Option.some.inj (hafter.symm.trans hstate')
    exact hend
  · obtain ⟨source, destination, rfl⟩ := hfrozen.eq_but_sides
    exact ⟨rfl, rfl, rfl, rfl, rfl, hend, hfrozen.side_eq .source, hfrozen.side_eq .destination⟩
  · intro final
    obtain ⟨hnone, hcalls⟩ := track_of_ended_of_clears api hafter hend hlast turn.api
    refine ⟨hcalls, hnone, ?_⟩
    have hfinal : final.roster = (trackAll api (events ++ later ++ [last]) {} s).roster := by
      rw [trackAll_concat, trackAll_append]
    rw [hfinal]
    refine not_mem_limited api _ s fun state' hstate' => ?_
    rw [← hfinal, hnone] at hstate'
    cases hstate'

/-- A stream that failed hears its destination run under a rate limit and complete, is started
again, and is cleared by an incomplete end of its run: none of this is told. -/
theorem silent_of_ended_of_orders :
    let limited : Event :=
      { Sample.event .destination .running with
        message.reasons := [{ kind := .rateLimited, limit := some { quotaReset := some 5 } }] }
    let canceled : Event :=
      { Sample.event .internal .incomplete with message.stream := {}, cause? := some .canceled }
    let before := trackAll Sample.granting
      [Sample.event .source .started, Sample.event .source .incomplete] {} ()
    let turn := trackAll Sample.granting
      [limited, Sample.event .destination .complete, Sample.event .source .started]
      before.roster before.api
    let final := turn.roster.track Sample.granting canceled turn.api
    callsAbout Sample.orders turn.effects = [] ∧ Sample.orders ∉ turn.roster.limited ∧
      (∃ after, turn.roster.streams.get? Sample.orders = some after ∧
        after.runState = .incomplete ∧ after.source = some (.incomplete .failed)) ∧
      callsAbout Sample.orders final.effects = [] := by
  intro limited canceled before turn final
  have hstate : before.roster.streams.get? Sample.orders = some
      { source := some (.incomplete .failed), id? := some ⟨7⟩, jobKind := .sync
        runState := .incomplete, changedAt := 0, ended := true } := by decide
  have hlater : ∀ event ∈ [limited, Sample.event .destination .complete,
      Sample.event .source .started], ¬ event.Clears Sample.orders := by decide
  obtain ⟨hcalls, hlimited, ⟨after, hafter, hrun, -, -, -, -, -, hsource, -⟩, hlast⟩ :=
    silent_of_ended Sample.granting hstate rfl hlater
  exact ⟨hcalls, hlimited, ⟨after, hafter, hrun, hsource _ rfl rfl⟩, (hlast canceled (by decide)).1⟩

end StreamWatch.Roster
