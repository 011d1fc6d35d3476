import StreamWatch.Proofs.Roster.Watched

/-!
# How the parts of a watched stream belong together

Every watched stream is `Sound`: its two sides, its run state, its rate limit and the mark of its
end tell one story. So a report that is kept back as a repetition changes nothing of the stream:
`StreamState.Sound.repeats_iff`. Once the end is reported only the sides of a stream still change,
until it is cleared: `trackAll_of_ended`.
-/

namespace StreamWatch

/-- Two run states are terminal. -/
theorem RunState.isTerminal_iff {s : RunState} :
    s.isTerminal ↔ s = .complete ∨ s = .incomplete := by
  cases s <;> simp [isTerminal]

/-- The parts of a stream's state tell one story. -/
structure StreamState.Sound (s : StreamState) : Prop where
  /-- The end has been reported exactly if the run state is an end. -/
  ended_iff : s.ended ↔ s.runState.isTerminal
  /-- There is a rate limit exactly if the run state says so. -/
  limit_iff : s.limit?.isSome ↔ s.runState = .rateLimited
  /-- Streams that completed did so on both sides. -/
  isComplete : s.runState = .complete → s.isComplete
  /-- One incomplete side makes an incomplete stream. -/
  incomplete : s.HasIncomplete → s.runState = .incomplete
  /-- When both sides are through, the end has been reported. -/
  ended_of_isTerminated : s.isTerminated → s.ended
  /-- When the end has been reported, one side is through. -/
  exists_isTerminal : s.ended → ∃ origin x, s.side origin = some x ∧ x.isTerminal
  /-- Some side has spoken. -/
  exists_side : ∃ origin x, s.side origin = some x

namespace StreamState

/-- A side that heard something holds something. -/
theorem exists_side_hear (s : StreamState) {origin : Origin} (h : origin ≠ .internal)
    (x : SideStatus) : ∃ y, (s.hear origin x).side origin = some y := by
  rw [side_hear_self s h]
  unfold SideStatus.hear
  split
  · split
    · exact ⟨_, rfl⟩
    · exact ⟨_, rfl⟩
  · exact ⟨_, rfl⟩

/-- A side that heard a terminal status holds one, if not the same. -/
theorem exists_isTerminal_hear (s : StreamState) {origin : Origin} (h : origin ≠ .internal)
    {x : SideStatus} (hx : x.isTerminal) :
    ∃ y, (s.hear origin x).side origin = some y ∧ y.isTerminal := by
  rw [side_hear_self s h]
  unfold SideStatus.hear
  split
  · split
    · next hcurrent => exact ⟨_, rfl, hcurrent⟩
    · exact ⟨_, rfl, hx⟩
  · exact ⟨_, rfl, hx⟩

/-- When both sides are through after a side said that it runs, they were through before. -/
theorem isTerminated_of_hear {s : StreamState} {origin : Origin} {x : SideStatus}
    (hx : ¬ x.isTerminal) (h : (s.hear origin x).isTerminated) : s.isTerminated := by
  rw [isTerminated_iff] at h ⊢
  intro other ho
  obtain ⟨y, hy, hterminal⟩ := h other ho
  rcases of_side_hear_eq_some hy with hy | rfl
  · exact ⟨y, hy, hterminal⟩
  · exact absurd hterminal hx

/-- Both sides through and none incomplete: both have completed. -/
theorem isComplete_of_isTerminated {s : StreamState} (h : s.isTerminated)
    (hnot : ¬ s.HasIncomplete) : s.isComplete := by
  rw [isComplete_iff]
  intro origin ho
  obtain ⟨x, hx, hterminal⟩ := isTerminated_iff.mp h origin ho
  cases x with
  | complete => exact hx
  | incomplete cause => exact absurd ⟨origin, cause, hx⟩ hnot
  | started => cases hterminal
  | running => cases hterminal

/-- A record has no part in what the sides said. -/
theorem side_with_id? (s : StreamState) (id? : Option Uuid) (origin : Origin) :
    { s with id? }.side origin = s.side origin := by
  cases origin <;> rfl

/-- Only the opening report has been heard of a stream that has just been opened. -/
theorem eq_started_of_side_opened {event : Event} {id? : Option Uuid} {origin : Origin}
    {x : SideStatus} (h : { opened event with id? }.side origin = some x) : x = .started := by
  rw [side_with_id?] at h
  rcases of_side_hear_eq_some h with hbefore | hheard
  · cases origin <;> cases hbefore
  · exact hheard.symm

/-- A stream that has just been opened is sound. -/
theorem sound_opened (event : Event) (id? : Option Uuid) (h : event.origin ≠ .internal) :
    { opened event with id? }.Sound where
  ended_iff := by simp [opened, RunState.isTerminal]
  limit_iff := by simp [opened]
  isComplete hrun := by simp [opened] at hrun
  incomplete hinc := by
    obtain ⟨origin, cause, hside⟩ := hinc
    cases eq_started_of_side_opened hside
  ended_of_isTerminated hterm := by
    obtain ⟨x, hside, hx⟩ := isTerminated_iff.mp hterm event.origin h
    rw [eq_started_of_side_opened hside] at hx
    cases hx
  exists_isTerminal hended := by simp [opened] at hended
  exists_side := by
    obtain ⟨x, hx⟩ := exists_side_hear
      { jobKind := event.context.jobKind, changedAt := event.time } h .started
    exact ⟨event.origin, x, (side_with_id? _ id? event.origin).trans hx⟩

namespace Sound

variable {s : StreamState}

/-- The end has been reported as one of the two. -/
theorem runState_of_ended (h : s.Sound) (hended : s.ended) :
    s.runState = .complete ∨ s.runState = .incomplete :=
  RunState.isTerminal_iff.mp (h.ended_iff.mp hended)

/-- Some side has a status to tell. -/
theorem isSome_source_or_destination (h : s.Sound) :
    s.source.isSome ∨ s.destination.isSome := by
  obtain ⟨origin, x, hside⟩ := h.exists_side
  cases origin with
  | source => exact Or.inl (Option.isSome_of_eq_some hside)
  | destination => exact Or.inr (Option.isSome_of_eq_some hside)
  | internal => cases hside

/-- So the stream has a status as a whole. -/
theorem status?_ne_none (h : s.Sound) : s.status? ≠ none := by
  intro hnone
  have hsides : s.destination = none ∧ s.source = none := by
    cases hd : s.destination <;> cases hs : s.source <;>
      simp [StreamState.status?, hd, hs] at hnone ⊢
  have hsome := h.isSome_source_or_destination
  rw [hsides.1, hsides.2] at hsome
  exact hsome.elim (fun h => by cases h) (fun h => by cases h)

/-- While the end has not been reported, no side is incomplete. -/
theorem not_hasIncomplete (h : s.Sound) (hended : ¬ s.ended) : ¬ s.HasIncomplete := by
  intro hinc
  have hrun := h.incomplete hinc
  exact hended (h.ended_iff.mpr (by rw [hrun]; rfl))

/-- Hearing a side after the end keeps a stream sound. -/
theorem hear_of_ended (h : s.Sound) (hended : s.ended) (origin : Origin) (x : SideStatus) :
    (s.hear origin x).Sound where
  ended_iff := by simpa using h.ended_iff
  limit_iff := by simpa using h.limit_iff
  isComplete hrun := isComplete_hear (h.isComplete (by simpa using hrun)) origin x
  incomplete hinc := by
    rw [hear_runState]
    -- a completed stream has no side left that could become incomplete
    rcases h.runState_of_ended hended with hrun | hrun
    · exact absurd (isComplete_hear (h.isComplete hrun) origin x) hinc.not_isComplete
    · exact hrun
  ended_of_isTerminated _ := by simpa using hended
  exists_isTerminal _ := by
    obtain ⟨other, y, hside, hy⟩ := h.exists_isTerminal hended
    exact ⟨other, y, side_hear_of_isTerminal hside hy origin x, hy⟩
  exists_side := by
    obtain ⟨other, y, hside, hy⟩ := h.exists_isTerminal hended
    exact ⟨other, y, side_hear_of_isTerminal hside hy origin x⟩

/-- A report repeats the last transition of a sound stream exactly if it changes nothing: neither
what the side said, nor whether the stream runs under a limit, under which, and since when. -/
theorem repeats_iff (h : s.Sound) (e : Event) :
    s.repeats e ↔ s.hear e.origin .running = s ∧ s.resumed e.message.limit? e.time = s := by
  have hheard := (s.changes_iff e.origin .running).not.trans not_not
  rw [Bool.not_eq_true] at hheard
  rw [← hheard, resumed_eq_self_iff, repeats]
  cases hlimit : e.message.limit? with
  | none =>
      -- a sound stream that runs has no limit, which is not looked at here
      have hfree (hrun : s.runState = .running) : s.limit? = none := by
        rw [← Option.not_isSome_iff_eq_none, h.limit_iff, hrun]
        decide
      simp only [repeatsRunning, Bool.and_eq_true, Bool.not_eq_true', decide_eq_true_eq]
      constructor
      · rintro ⟨⟨hside, htime⟩, hrun⟩
        exact ⟨hside, hrun, hfree hrun, htime⟩
      · rintro ⟨hside, hrun, -, htime⟩
        exact ⟨⟨hside, htime⟩, hrun⟩
  | some limit =>
      simp only [repeatsLimit, isRateLimited, Bool.and_eq_true, Bool.not_eq_true',
        decide_eq_true_eq]
      constructor
      · rintro ⟨⟨⟨hside, htime⟩, hrun⟩, hsame⟩
        exact ⟨hside, hrun, hsame, htime⟩
      · rintro ⟨hside, hrun, hsame, htime⟩
        exact ⟨⟨⟨hside, htime⟩, hrun⟩, hsame⟩

/-- A report that repeats the last transition of a sound stream leaves it as it was. -/
theorem resumed_of_repeats (h : s.Sound) {e : Event} (hstatus : e.status = .running)
    (hrepeats : s.repeats e) :
    (s.hear e.origin e.side).resumed e.message.limit? e.time = s := by
  obtain ⟨hheard, hruns⟩ := (h.repeats_iff e).mp hrepeats
  have hside : e.side = .running := by rw [Event.side, hstatus]
  rw [hside, hheard, hruns]

/-- A stream that runs on is sound if no side has ended it. -/
theorem sound_resumed {s : StreamState} {limit? : Option RateLimit} {time : Int64}
    (hended : ¬ s.ended) (hinc : ¬ s.HasIncomplete) (hterm : ¬ s.isTerminated)
    (hside : ∃ origin x, s.side origin = some x) : (s.resumed limit? time).Sound where
  ended_iff := by
    rw [resumed]
    cases limit? <;> simp [RunState.isTerminal, hended]
  limit_iff := by
    rw [resumed]
    cases limit? <;> simp
  isComplete hrun := by
    rw [resumed] at hrun
    cases limit? <;> simp at hrun
  incomplete h := absurd (by simpa using h) hinc
  ended_of_isTerminated h := absurd h hterm
  exists_isTerminal h := absurd h hended
  exists_side := by simpa using hside

/-- A stream whose end is reported is sound if the end agrees with the sides. -/
theorem sound_closed {s : StreamState} {runState : RunState} {time : Int64}
    (hend : runState.isTerminal) (hcomplete : runState = .complete → s.isComplete)
    (hinc : s.HasIncomplete → runState = .incomplete)
    (hside : ∃ origin x, s.side origin = some x ∧ x.isTerminal) :
    (s.closed runState time).Sound where
  ended_iff := by simp [closed, hend]
  limit_iff := by
    rw [closed]
    cases runState <;> simp [RunState.isTerminal] at hend ⊢
  isComplete hrun := hcomplete hrun
  incomplete h := hinc (by simpa using h)
  ended_of_isTerminated _ := rfl
  exists_isTerminal _ := by simpa using hside
  exists_side := by
    obtain ⟨origin, x, hx, -⟩ := hside
    exact ⟨origin, x, by simpa using hx⟩

/-- Taking a report keeps a stream sound. -/
theorem takes (h : s.Sound) {key : StreamKey} {e : Event} {m : Move} {next : StreamState}
    (horigin : e.origin ≠ .internal) (ht : s.Takes key e m) (hnext : m.next = some next) :
    next.Sound := by
  cases ht with
  | again =>
      cases hnext
      exact h
  | late _ hended =>
      cases hnext
      exact h.hear_of_ended hended e.origin e.side
  | half hstatus hended hboth =>
      cases hnext
      have hx : e.side = .complete := by rw [Event.side, hstatus]
      -- an incomplete side would be one from before, and would have ended the stream
      have hnot : ¬ (s.hear e.origin e.side).HasIncomplete := by
        intro hinc
        rcases hinc.of_hear with hinc | ⟨cause, hcause⟩
        · exact h.not_hasIncomplete hended hinc
        · rw [hx] at hcause
          cases hcause
      refine ⟨by simpa using h.ended_iff, by simpa using h.limit_iff, fun hrun => ?_,
        fun hinc => absurd hinc hnot, fun hterm => ?_, fun he => ?_, ?_⟩
      · exact isComplete_hear (h.isComplete (by simpa using hrun)) e.origin e.side
      · exact absurd (isComplete_of_isTerminated hterm hnot) hboth
      · exact absurd (by simpa using he) hended
      · exact ⟨e.origin, exists_side_hear s horigin e.side⟩
  | repeated hstatus hended _ _ hm | resumed hstatus hended _ _ hm =>
      cases hnext
      rw [hm]
      have hx : e.side = .running := by rw [Event.side, hstatus]
      refine sound_resumed (by simpa using hended) (fun hinc => ?_) (fun hterm => ?_)
        ⟨e.origin, exists_side_hear s horigin e.side⟩
      · rcases hinc.of_hear with hinc | ⟨cause, hcause⟩
        · exact h.not_hasIncomplete hended hinc
        · rw [hx] at hcause
          cases hcause
      · refine hended (h.ended_of_isTerminated (isTerminated_of_hear ?_ hterm))
        rw [hx]
        decide
  | completed hstatus hended hboth hm =>
      cases hnext
      rw [hm]
      exact sound_closed rfl (fun _ => hboth) (fun hinc => absurd hboth hinc.not_isComplete)
        ⟨e.origin, .complete, isComplete_iff.mp hboth e.origin horigin, rfl⟩
  | failed hstatus hended hm =>
      cases hnext
      rw [hm]
      have hx : e.side.isTerminal := by
        rw [Event.side, hstatus]
        rfl
      exact sound_closed rfl (fun hrun => by cases hrun) (fun _ => rfl)
        ⟨e.origin, exists_isTerminal_hear s horigin hx⟩

end Sound

end StreamState

namespace Roster

variable {σ : Type} (api : StatusApi σ)

/-- What a notice keeps, and every move in a roster of sound streams, tracking events keeps. -/
theorem trackAll_induction_of_sound {P : Roster → σ → List Effect → Prop}
    (note : ∀ r s effects notice, P r s effects → P r s (effects ++ [.note notice]))
    (move : ∀ (event : Event) key r s effects m, r.AllWatched StreamState.Sound →
      event.Makes key (r.streams.get? key) m → P r s effects →
      let turn := r.perform api key m s
      P turn.roster turn.api (effects ++ turn.effects))
    (events : List Event) (effects : List Effect) {r : Roster} {s : σ}
    (hsound : r.AllWatched StreamState.Sound) (h : P r s effects) :
    let turn := trackAll api events r s
    turn.roster.AllWatched StreamState.Sound ∧ P turn.roster turn.api (effects ++ turn.effects) :=
  trackAll_induction api
    (P := fun r s effects => r.AllWatched StreamState.Sound ∧ P r s effects)
    (fun r s effects notice h => ⟨h.1, note r s effects notice h.2⟩)
    (fun event key r s effects m hm h =>
      ⟨h.1.perform api StreamState.sound_opened
        (fun _ _ _ _ _ horigin hs ht hnext => hs.takes horigin ht hnext) hm s,
        move event key r s effects m h.1 hm h.2⟩)
    events ⟨hsound, h⟩

/-- Nothing is tracked at the start. -/
theorem allWatched_empty (P : StreamState → Prop) : AllWatched P {} := fun _ _ hget => nomatch hget

/-- Every watched stream is sound. -/
theorem sound_of_watched (events : List Event) (s : σ) {key : StreamKey} {state : StreamState}
    (h : (trackAll api events {} s).roster.streams.get? key = some state) : state.Sound :=
  (trackAll_induction_of_sound api (P := fun _ _ _ => True) (fun _ _ _ _ h => h)
    (fun _ _ _ _ _ _ _ _ h => h) events [] (allWatched_empty _) trivial).1 key state h

/-- The mark of its end, the run state, the rate limit and the sides of every watched stream agree,
and the roster has a status to tell of exactly the watched streams. -/
theorem parts_agree_of_run (events : List Event) (s : σ) (key : StreamKey) :
    let roster := (trackAll api events {} s).roster
    (∀ state, roster.streams.get? key = some state →
      (state.ended ↔ state.runState = .complete ∨ state.runState = .incomplete) ∧
      (state.limit?.isSome ↔ state.runState = .rateLimited) ∧
      (state.isTerminated → state.ended) ∧
      (state.runState = .complete →
        state.source = some .complete ∧ state.destination = some .complete) ∧
      (∀ cause, state.source = some (.incomplete cause) ∨
        state.destination = some (.incomplete cause) → state.runState = .incomplete) ∧
      (state.source.isSome ∨ state.destination.isSome)) ∧
    (roster.status? key = none ↔ roster.streams.get? key = none) := by
  intro roster
  constructor
  · intro state hstate
    have hsound := sound_of_watched api events s hstate
    refine ⟨hsound.ended_iff.trans RunState.isTerminal_iff, hsound.limit_iff,
      hsound.ended_of_isTerminated, fun hrun => ?_, fun cause hside => ?_,
      hsound.isSome_source_or_destination⟩
    · have hboth := StreamState.isComplete_iff.mp (hsound.isComplete hrun)
      exact ⟨hboth .source (by decide), hboth .destination (by decide)⟩
    · refine hsound.incomplete ?_
      rcases hside with hside | hside
      · exact ⟨.source, cause, hside⟩
      · exact ⟨.destination, cause, hside⟩
  · rw [Roster.status?]
    cases hstate : roster.streams.get? key with
    | none => exact iff_of_true rfl rfl
    | some state =>
        exact iff_of_false (sound_of_watched api events s hstate).status?_ne_none
          (Option.some_ne_none state)

/-- A stream that fails on one side while it is rate limited is incomplete as a whole. -/
theorem parts_agree_of_orders :
    let limited : Event :=
      { Sample.event .destination .running with
        message.reasons := [{ kind := .rateLimited, limit := some { quotaReset := some 5 } }] }
    let events := [Sample.event .source .started, limited, Sample.event .source .incomplete]
    let roster := (trackAll Sample.granting events {} ()).roster
    ∃ state, roster.streams.get? Sample.orders = some state ∧
      state.source = some (.incomplete .failed) ∧ state.runState = .incomplete ∧ state.ended ∧
      roster.status? Sample.orders ≠ none := by
  intro limited events roster
  obtain ⟨hparts, hstatus⟩ := parts_agree_of_run Sample.granting events () Sample.orders
  have hstate : roster.streams.get? Sample.orders = some
      { source := some (.incomplete .failed), destination := some .running, id? := some ⟨7⟩
        jobKind := .sync, runState := .incomplete, changedAt := 0, ended := true } := by decide
  obtain ⟨hended, -, -, -, hincomplete, -⟩ := hparts _ hstate
  have hrun := hincomplete .failed (Or.inl rfl)
  refine ⟨_, hstate, rfl, hrun, hended.mpr (Or.inr hrun), fun hnone => ?_⟩
  rw [hstatus.mp hnone] at hstate
  cases hstate

end Roster

/-! ## After the end -/

/-- `before.Frozen after`: `after` differs from `before` at most in sides that were not through. -/
structure StreamState.Frozen (before after : StreamState) : Prop where
  /-- All but the sides is the same. -/
  eq_but_sides : ∃ source destination, after = { before with source, destination }
  /-- Sides that were through keep their status. -/
  side_eq : ∀ origin x, before.side origin = some x → x.isTerminal → after.side origin = some x

namespace StreamState.Frozen

theorem refl (s : StreamState) : s.Frozen s := ⟨⟨_, _, rfl⟩, fun _ _ h _ => h⟩

theorem trans {a b c : StreamState} (hab : a.Frozen b) (hbc : b.Frozen c) : a.Frozen c := by
  obtain ⟨source, destination, rfl⟩ := hab.eq_but_sides
  obtain ⟨source', destination', rfl⟩ := hbc.eq_but_sides
  exact ⟨⟨source', destination', rfl⟩, fun origin x h hx =>
    hbc.side_eq origin x (hab.side_eq origin x h hx) hx⟩

/-- What a side reports leaves the rest of a stream frozen. -/
theorem hear (s : StreamState) (origin : Origin) (x : SideStatus) : s.Frozen (s.hear origin x) := by
  refine ⟨?_, fun _ _ h hy => side_hear_of_isTerminal h hy origin x⟩
  cases origin with
  | source => exact ⟨_, _, rfl⟩
  | destination => exact ⟨_, _, rfl⟩
  | internal => exact ⟨_, _, rfl⟩

theorem id?_eq {before after : StreamState} (h : before.Frozen after) : after.id? = before.id? := by
  obtain ⟨_, _, rfl⟩ := h.eq_but_sides
  rfl

theorem runState_eq {before after : StreamState} (h : before.Frozen after) :
    after.runState = before.runState := by
  obtain ⟨_, _, rfl⟩ := h.eq_but_sides
  rfl

theorem ended_eq {before after : StreamState} (h : before.Frozen after) :
    after.ended = before.ended := by
  obtain ⟨_, _, rfl⟩ := h.eq_but_sides
  rfl

end StreamState.Frozen

namespace Roster

variable {σ : Type} (api : StatusApi σ)

/-- A stream whose end was reported only hears its sides, as long as it is not cleared. -/
theorem track_of_ended {key : StreamKey} {event : Event} {r : Roster} {state : StreamState}
    (h : r.streams.get? key = some state) (hended : state.ended) (hclears : ¬ event.Clears key)
    (s : σ) :
    ∃ after, (r.track api event s).roster.streams.get? key = some after ∧ state.Frozen after := by
  rcases track_watched api h event s with ⟨-, m, htakes, hy⟩ | ⟨hc, -⟩ | ⟨-, -, hsame, -⟩
  · have hafter := htakes.eq_next hy
    obtain ⟨notice, ⟨-, rfl⟩ | ⟨-, rfl⟩⟩ := htakes.of_ended hended
    · exact ⟨state, hafter, .refl state⟩
    · exact ⟨_, hafter, .hear state event.origin event.side⟩
  · exact absurd hc hclears
  · exact ⟨state, hsame, .refl state⟩

/-- No call is made about it either. -/
theorem callsAbout_track_of_ended {key : StreamKey} {event : Event} {r : Roster}
    {state : StreamState} (h : r.streams.get? key = some state) (hended : state.ended)
    (hclears : ¬ event.Clears key) (s : σ) :
    callsAbout key (r.track api event s).effects = [] := by
  rcases track_watched api h event s with ⟨-, m, htakes, hy⟩ | ⟨hc, -⟩ | ⟨-, -, -, hcalls⟩
  · obtain ⟨notice, ⟨-, rfl⟩ | ⟨-, rfl⟩⟩ := htakes.of_ended hended
    · exact (hy.of_note rfl).2
    · exact (hy.of_note rfl).2
  · exact absurd hc hclears
  · exact hcalls

/-- After the report of its end a stream is frozen until an event clears it. -/
theorem trackAll_of_ended {key : StreamKey} {state : StreamState} (events : List Event)
    (hclears : ∀ event ∈ events, ¬ event.Clears key) {r : Roster}
    (h : r.streams.get? key = some state) (hended : state.ended) (s : σ) :
    ∃ after, (trackAll api events r s).roster.streams.get? key = some after ∧
      state.Frozen after := by
  induction events generalizing r s state with
  | nil => exact ⟨state, h, .refl state⟩
  | cons event rest ih =>
      rw [List.forall_mem_cons] at hclears
      obtain ⟨middle, hmiddle, hfrozen⟩ := track_of_ended api h hended hclears.1 s
      obtain ⟨after, hafter, hfrozen'⟩ :=
        ih hclears.2 hmiddle (by rw [hfrozen.ended_eq]; exact hended)
          (r.track api event s).api
      exact ⟨after, hafter, hfrozen.trans hfrozen'⟩

end Roster

end StreamWatch
