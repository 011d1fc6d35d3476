import StreamWatch.Proofs.Roster.Isolation

/-!
# Events that are delivered twice

An event that has been tracked says nothing new when it is tracked again. A watched stream `Knows`
what a report says once it has taken it. Of its start and of an end it knows for as long as it is
watched, of a running report until another event addresses it, and an event that ends streams finds
none of them until one starts again. In all these cases the second delivery writes a line and does
nothing else: `redelivered_writes_nothing`.
-/

namespace StreamWatch

/-! ## Moves that do nothing -/

/-- The move leaves a stream as it is and makes no call. -/
def Move.Idle (m : Move) (state? : Option StreamState) : Prop :=
  m.next = state? ∧ ∃ notice, m.act = .note notice

/-- The event is tracked by writing a line. -/
def Roster.Ignores (r : Roster) (e : Event) : Prop :=
  ∀ (σ : Type) (api : StatusApi σ) (s : σ), ∃ notice, r.track api e s = ⟨r, s, [.note notice]⟩

namespace Roster

/-- The list stays as it is where a change agrees with it. -/
theorem changeLimit_eq_self {key : StreamKey} {limited : List StreamKey} {change : LimitChange}
    (h : change.apply (key ∈ limited) ↔ key ∈ limited) :
    changeLimit key limited change = limited := by
  cases change with
  | keep => rfl
  | enter => exact if_pos (h.mp trivial)
  | leave =>
      refine List.filter_eq_self.mpr fun other hother => decide_eq_true ?_
      rintro rfl
      exact h.mpr hother

variable {r : Roster} {e : Event}

/-- An idle move changes nothing, also not in the list of the rate-limited streams. -/
theorem perform_of_idle {σ : Type} (api : StatusApi σ) (hlists : r.ListsLimited) {key : StreamKey}
    {m : Move} (hm : e.Makes key (r.streams.get? key) m) (hidle : m.Idle (r.streams.get? key))
    (s : σ) : ∃ notice, r.perform api key m s = ⟨r, s, [.note notice]⟩ := by
  obtain ⟨hnext, notice, hact⟩ := hidle
  have hstreams : r.streams.set key m.next = r.streams := by
    rw [hnext]
    exact r.streams.set_get? key
  have hlimited : changeLimit key r.limited m.change = r.limited := by
    refine changeLimit_eq_self ?_
    rw [hlists key, hm.isRateLimited_next, hnext]
  refine ⟨notice, ?_⟩
  rw [perform, hact]
  simp only [remember, hstreams, hlimited]

/-- A report is ignored where its move is idle. -/
theorem ignores_of_reports (hlists : r.ListsLimited) {key : StreamKey} (h : e.Reports key)
    (hidle : (Move.ofReport key e (r.streams.get? key)).Idle (r.streams.get? key)) :
    r.Ignores e := by
  intro σ api s
  have hscope : e.scope = .report key := by
    rw [Event.scope, if_neg h.1, h.2]
  rw [track_of_report api hscope]
  exact perform_of_idle api hlists (.report h) hidle s

/-- An event that ends streams is ignored where none of them is watched. -/
theorem ignores_of_unwatched (hlists : r.ListsLimited) (horigin : e.origin = .internal)
    (h : ∀ key, e.Clears key → r.streams.get? key = none) : r.Ignores e := by
  intro σ api s
  rcases e.scope_cases with ⟨notice, hscope, -⟩ | ⟨key, -, hreports⟩ |
    ⟨key, runState, cause?, hscope, hclears, -, -, hend⟩ |
    ⟨runState, cause?, hscope, -, hwide, hend⟩
  · exact ⟨notice, track_of_none api hscope r s⟩
  · exact absurd horigin hreports.1
  · rw [track_of_clear api hscope]
    refine perform_of_idle api hlists (.clearing hclears hend) ?_ s
    rw [h key hclears]
    exact ⟨rfl, _, rfl⟩
  · -- a run without watched streams has none to visit
    have hkeys : r.keysOf e.run = [] := by
      refine List.eq_nil_iff_forall_not_mem.mpr fun key hkey => ?_
      obtain ⟨hwatched, hrun⟩ := mem_keysOf.mp hkey
      exact hwatched (h key ⟨horigin, (Event.ending?_eq_some hend).imp And.left And.left,
        Or.inr ⟨hwide, hrun.symm⟩⟩)
    obtain ⟨notice, -, htrack⟩ := track_of_clearRun api hscope r s
    rw [hkeys] at htrack
    exact ⟨notice, htrack⟩

end Roster

/-! ## What a stream knows -/

/-- A side holds something terminal or what it has just heard. -/
theorem SideStatus.exists_hear (x : SideStatus) (before : Option SideStatus) :
    ∃ y, x.hear before = some y ∧ (y.isTerminal ∨ y = x) := by
  unfold hear
  split
  · split
    · next hterminal => exact ⟨_, rfl, Or.inl hterminal⟩
    · exact ⟨x, rfl, Or.inr rfl⟩
  · exact ⟨x, rfl, Or.inr rfl⟩

/-- `s.Knows e`: a stream in state `s` learns nothing from the report `e`. -/
structure StreamState.Knows (s : StreamState) (e : Event) : Prop where
  /-- The side has said so or is through. -/
  side : e.status ≠ .started → ∃ x, s.side e.origin = some x ∧ (x.isTerminal ∨ x = e.side)
  /-- If the report ends the stream, it has ended. -/
  ended : e.status = .incomplete → s.ended
  /-- If the stream runs on, it does so at this time and under this limit. -/
  running : e.status = .running → ¬ s.ended → s.resumed e.message.limit? e.time = s

namespace StreamState

variable {s next : StreamState} {key : StreamKey} {e : Event} {m : Move}

namespace Takes

/-- A report that is no start is heard by its side. -/
theorem side_next (h : s.Takes key e m) (hstatus : e.status ≠ .started) (hnext : m.next = some next)
    (origin : Origin) : next.side origin = (s.hear e.origin e.side).side origin := by
  cases h with
  | again hstarted => exact absurd hstarted hstatus
  | late | half =>
      cases hnext
      rfl
  | repeated _ _ _ _ hm | resumed _ _ _ _ hm =>
      cases hnext
      rw [hm, side_resumed]
  | completed _ _ _ hm | failed _ _ hm =>
      cases hnext
      rw [hm, side_closed]

/-- Terminal sides stay. -/
theorem side_of_isTerminal (h : s.Takes key e m) (hnext : m.next = some next) {origin : Origin}
    {x : SideStatus} (hside : s.side origin = some x) (hx : x.isTerminal) :
    next.side origin = some x := by
  by_cases hstatus : e.status = .started
  · cases h with
    | again =>
        cases hnext
        exact hside
    | late hne => exact absurd hstatus hne
    | half h | repeated h | resumed h | completed h | failed h =>
        rw [hstatus] at h
        cases h
  · rw [h.side_next hstatus hnext]
    exact side_hear_of_isTerminal hside hx e.origin e.side

/-- What has ended stays so. -/
theorem ended_next (h : s.Takes key e m) (hnext : m.next = some next) (hended : s.ended) :
    next.ended := by
  obtain ⟨notice, ⟨-, rfl⟩ | ⟨-, rfl⟩⟩ := h.of_ended hended
  · cases hnext
    exact hended
  · cases hnext
    rw [hear_ended, hended]

/-- A stream knows the report that it has taken. -/
theorem knows (h : s.Takes key e m) (horigin : e.origin ≠ .internal) (hnext : m.next = some next) :
    next.Knows e where
  side hstatus := by
    rw [h.side_next hstatus hnext, side_hear_self s horigin]
    exact e.side.exists_hear (s.side e.origin)
  ended hstatus := by
    cases h with
    | late _ hended =>
        cases hnext
        rw [hear_ended, hended]
    | failed _ _ hm =>
        cases hnext
        rw [hm]
        rfl
    | again h | half h | repeated h | resumed h | completed h =>
        rw [hstatus] at h
        cases h
  running hstatus hopen := by
    cases h with
    | late _ hended =>
        cases hnext
        rw [hear_ended] at hopen
        exact absurd hended hopen
    | repeated _ _ _ _ hm | resumed _ _ _ _ hm =>
        cases hnext
        rw [hm]
        rfl
    | again h | half h | completed h | failed h =>
        rw [hstatus] at h
        cases h

end Takes

namespace Knows

/-- Every watched stream knows that it started. -/
theorem of_started (s : StreamState) (h : e.status = .started) : s.Knows e where
  side hne := absurd h hne
  ended hstatus := by
    rw [h] at hstatus
    cases hstatus
  running hstatus := by
    rw [h] at hstatus
    cases hstatus

/-- Of its start and of an end a stream knows for as long as it is watched. -/
theorem takes {other : Event} (hknows : s.Knows e) (hstatus : e.status ≠ .running)
    (h : s.Takes key other m) (hnext : m.next = some next) : next.Knows e where
  side hstarted := by
    obtain ⟨x, hside, hx⟩ := hknows.side hstarted
    have hterminal : x.isTerminal := by
      refine hx.elim id fun hx => ?_
      rw [hx, Event.side]
      cases hs : e.status with
      | started => exact absurd hs hstarted
      | running => exact absurd hs hstatus
      | complete | incomplete => rfl
    exact ⟨x, h.side_of_isTerminal hnext hside hterminal, Or.inl hterminal⟩
  ended hincomplete := h.ended_next hnext (hknows.ended hincomplete)
  running hrunning := absurd hrunning hstatus

/-- A report that a stream knows does not move it. -/
theorem idle (hknows : s.Knows e) (hsound : s.Sound) (horigin : e.origin ≠ .internal) :
    (Move.ofReport key e (some s)).Idle (some s) := by
  have hhear (hstarted : e.status ≠ .started) : s.hear e.origin e.side = s :=
    (hear_eq_self_iff horigin e.side).mpr (hknows.side hstarted)
  rw [Move.ofReport]
  cases hstatus : e.status with
  | started => exact ⟨rfl, _, rfl⟩
  | running =>
      have hsame : s.hear e.origin .running = s := by
        simpa [Event.side, hstatus] using hhear (by simp [hstatus])
      simp only [Move.ofRunning, hsame]
      split
      · exact ⟨rfl, _, rfl⟩
      · next hopen =>
          have hrun := hknows.running hstatus hopen
          have hrepeats := (hsound.repeats_iff e).mpr ⟨hsame, hrun⟩
          rw [hrun]
          rw [repeats] at hrepeats
          cases hlimit : e.message.limit? with
          | none =>
              rw [hlimit] at hrepeats
              exact ⟨rfl, _, if_pos hrepeats⟩
          | some limit =>
              rw [hlimit] at hrepeats
              exact ⟨rfl, _, if_pos hrepeats⟩
  | complete =>
      have hsame : s.hear e.origin .complete = s := by
        simpa [Event.side, hstatus] using hhear (by simp [hstatus])
      simp only [Move.ofComplete, hsame]
      split
      · exact ⟨rfl, _, rfl⟩
      · next hopen =>
          -- both sides complete would have ended the stream
          have hhalf : ¬ s.isComplete := fun hboth =>
            hopen (hsound.ended_of_isTerminated (isTerminated_of_isComplete hboth))
          rw [if_pos (by simpa using hhalf)]
          exact ⟨rfl, _, rfl⟩
  | incomplete =>
      have hsame : s.hear e.origin (.incomplete e.cause) = s := by
        simpa [Event.side, hstatus] using hhear (by simp [hstatus])
      simp only [Move.ofIncomplete, hsame, if_pos (hknows.ended hstatus)]
      exact ⟨rfl, _, rfl⟩

end Knows

end StreamState

/-! ## Runs -/

namespace Roster

variable {σ : Type} (api : StatusApi σ) {key : StreamKey} {e : Event} {r : Roster}

/-- A watched stream knows the report that was just tracked. -/
theorem knows_of_track {next : StreamState} {s : σ} (h : e.Reports key)
    (hnext : (r.track api e s).roster.streams.get? key = some next) : next.Knows e := by
  rcases track_watched_cases api hnext with ⟨hnot, -⟩ | ⟨hopens, -⟩ |
    ⟨-, state, m, -, htakes, hm⟩
  · exact absurd h hnot
  · exact .of_started next hopens.2
  · exact htakes.knows h.1 hm

/-- It knows of its start or its end until it is cleared. -/
theorem knows_of_trackAll {state : StreamState} (hstate : r.streams.get? key = some state)
    (hknows : state.Knows e) (hstatus : e.status ≠ .running) (between : List Event)
    (hclears : ∀ e' ∈ between, ¬ e'.Clears key) (s : σ) :
    ∃ after, (trackAll api between r s).roster.streams.get? key = some after ∧ after.Knows e := by
  induction between generalizing r s state with
  | nil => exact ⟨state, hstate, hknows⟩
  | cons first rest ih =>
      rw [List.forall_mem_cons] at hclears
      rcases track_watched api hstate first s with ⟨-, m, htakes, hy⟩ | ⟨hc, -⟩ | ⟨-, -, hsame, -⟩
      · obtain ⟨next, hm, -, -⟩ := htakes.exists_next
        exact ih ((htakes.eq_next hy).trans hm) (hknows.takes hstatus htakes hm) hclears.2 _
      · exact absurd hc hclears.1
      · exact ih hsame hknows hclears.2 _

/-- An event that clears a stream leaves it unwatched. -/
theorem get?_track_of_clears (h : e.Clears key) (r : Roster) (s : σ) :
    (r.track api e s).roster.streams.get? key = none := by
  rcases track_seen_from api key e r s with ⟨m, hm, hy⟩ | ⟨-, hnot, -⟩
  · cases hm with
    | report hreports => exact absurd h hreports.not_clears
    | clearing => exact (clearing_yields hy).1
  · exact absurd h hnot

/-- A stream stays unwatched until it starts. -/
theorem get?_trackAll_of_not_opens (h : r.streams.get? key = none) (events : List Event)
    (hopens : ∀ e' ∈ events, ¬ e'.Opens key) (s : σ) :
    (trackAll api events r s).roster.streams.get? key = none := by
  induction events generalizing r s with
  | nil => exact h
  | cons first rest ih =>
      rw [List.forall_mem_cons] at hopens
      rcases track_unwatched api h first s with ⟨hfirst, -⟩ | ⟨-, hnone, -⟩
      · exact absurd hfirst hopens.1
      · exact ih hnone hopens.2 _

/-- A report that the stream knows, if it is watched, is ignored by the roster of a run, unless it
would open the stream. -/
theorem ignores_of_knows {events : List Event} {s : σ} (h : e.Reports key)
    (hknows : ∀ state, (trackAll api events {} s).roster.streams.get? key = some state →
      state.Knows e)
    (hstarted : (trackAll api events {} s).roster.streams.get? key = none → e.status ≠ .started) :
    (trackAll api events {} s).roster.Ignores e := by
  refine ignores_of_reports (mem_limited_iff api events s) h ?_
  cases hstate : (trackAll api events {} s).roster.streams.get? key with
  | none =>
      rcases Move.ofReport_none key e with ⟨hopens, -⟩ | ⟨-, notice, hm⟩
      · exact absurd hopens (hstarted hstate)
      · rw [hm]
        exact ⟨rfl, notice, rfl⟩
  | some state => exact (hknows state hstate).idle (sound_of_watched api events s hstate) h.1

/-- A stream stays as a running report left it until another event addresses it. -/
theorem get?_of_running {events between : List Event} {s : σ} (h : e.Reports key)
    (hstatus : e.status = .running) (hothers : ∀ e' ∈ between, e'.Addresses key → e' = e) :
    (trackAll api (events ++ [e] ++ between) {} s).roster.streams.get? key =
        (trackAll api (events ++ [e]) {} s).roster.streams.get? key ∧
      (trackAll api (events ++ [e] ++ between) {} s).roster.Ignores e := by
  have hignores {later : List Event} (hsame :
      (trackAll api later {} s).roster.streams.get? key =
        (trackAll api (events ++ [e]) {} s).roster.streams.get? key) :
      (trackAll api later {} s).roster.Ignores e := by
    refine ignores_of_knows api h (fun state hstate => ?_) fun _ => by simp [hstatus]
    rw [hsame, trackAll_concat] at hstate
    exact knows_of_track api h hstate
  induction between using List.reverseRecOn with
  | nil =>
      rw [List.append_nil]
      exact ⟨rfl, hignores rfl⟩
  | append_singleton between e' ih =>
      obtain ⟨hsame, hignored⟩ := ih fun e' he' => hothers e' (List.mem_append_left _ he')
      have hnext :
          (trackAll api (events ++ [e] ++ (between ++ [e'])) {} s).roster.streams.get? key =
            (trackAll api (events ++ [e]) {} s).roster.streams.get? key := by
        simp only [← List.append_assoc, trackAll_concat api (events ++ [e] ++ between) e']
        by_cases haddresses : e'.Addresses key
        · obtain rfl := hothers e' (by simp) haddresses
          obtain ⟨notice, htrack⟩ := hignored σ api _
          rw [htrack]
          exact hsame
        · exact (track_of_not_addresses api haddresses _ _).1.trans hsame
      exact ⟨hnext, hignores hnext⟩

/-- A start or an end is ignored for as long as its stream is watched. -/
theorem ignores_until_cleared {events between : List Event} {s : σ} (h : e.Reports key)
    (hstatus : e.status ≠ .running)
    (hwatched : (trackAll api (events ++ [e]) {} s).roster.streams.get? key ≠ none)
    (hclears : ∀ e' ∈ between, ¬ e'.Clears key) :
    (trackAll api (events ++ [e] ++ between) {} s).roster.Ignores e := by
  obtain ⟨state, hstate⟩ := Option.ne_none_iff_exists'.mp hwatched
  have hknows : state.Knows e := by
    rw [trackAll_concat] at hstate
    exact knows_of_track api h hstate
  obtain ⟨last, hlast, hknows⟩ := knows_of_trackAll api hstate hknows hstatus between hclears
    (trackAll api (events ++ [e]) {} s).api
  have hlater : (trackAll api (events ++ [e] ++ between) {} s).roster.streams.get? key =
      some last := by
    rw [trackAll_append]
    exact hlast
  refine ignores_of_knows api h (fun state' hstate' => ?_) fun hnone => ?_
  · rw [hlater] at hstate'
    exact Option.some.inj hstate' ▸ hknows
  · rw [hlater] at hnone
    cases hnone

/-- An event that ends streams is ignored until one of them starts. -/
theorem ignores_until_opened {events between : List Event} {s : σ} (horigin : e.origin = .internal)
    (hopens : ∀ key, e.Addresses key → ∀ e' ∈ between, ¬ e'.Opens key) :
    (trackAll api (events ++ [e] ++ between) {} s).roster.Ignores e := by
  refine ignores_of_unwatched (mem_limited_iff api _ s) horigin fun key hclears => ?_
  have hcleared : (trackAll api (events ++ [e]) {} s).roster.streams.get? key = none := by
    rw [trackAll_concat]
    exact get?_track_of_clears api hclears _ _
  rw [trackAll_append]
  exact get?_trackAll_of_not_opens api hcleared between (hopens key hclears.addresses) _

/-- Tracking an event again changes nothing and makes no call. A start or an end that a connector
reports may come again at any time in the same lifetime of its stream, a running report until
another event addresses the stream, and an internal event that ends streams until one of them
starts. -/
theorem redelivered_writes_nothing (events : List Event) (e : Event) (between : List Event)
    (s : σ) :
    let after := trackAll api (events ++ [e]) {} s
    let later := trackAll api between after.roster after.api
    let again := later.roster.track api e later.api
    let NothingNew := again.roster = later.roster ∧ again.api = later.api ∧
      callsOf again.effects = []
    (∀ key, e.Reports key → e.status ≠ .running → after.roster.streams.get? key ≠ none →
      (∀ e' ∈ between, ¬ e'.Clears key) → NothingNew) ∧
    (e.origin ≠ .internal → e.status = .running →
      (∀ key, e.key? = some key → ∀ e' ∈ between, e'.Addresses key → e' = e) → NothingNew) ∧
    (e.origin = .internal → e.status = .complete ∨ e.status = .incomplete →
      (∀ key, e.Addresses key → ∀ e' ∈ between, ¬ e'.Opens key) → NothingNew) := by
  intro after later again NothingNew
  have hnothing (h : (trackAll api (events ++ [e] ++ between) {} s).roster.Ignores e) :
      NothingNew := by
    obtain ⟨notice, htrack⟩ := h σ api later.api
    rw [trackAll_append] at htrack
    simp only [NothingNew, again, later, after, htrack, callsOf_note_cons, callsOf_nil, and_self]
  refine ⟨fun key hreports hstatus hwatched hclears =>
      hnothing (ignores_until_cleared api hreports hstatus hwatched hclears),
    fun horigin hstatus hothers => hnothing ?_,
    fun horigin _ hopens => hnothing (ignores_until_opened api horigin hopens)⟩
  cases hkey : e.key? with
  | none =>
      -- a report that names no stream is of no stream
      intro σ' api' s'
      have hscope : e.scope = .none (.unnamed e.status) := by
        rw [Event.scope, if_neg horigin, hkey]
      exact ⟨_, track_of_none api' hscope _ s'⟩
  | some key => exact (get?_of_running api ⟨horigin, hkey⟩ hstatus (hothers key hkey)).2

/-- A failure comes again after the other side has gone on, a rate limit after another stream has
started, and the completion of a run after a late report. -/
theorem redelivered_writes_nothing_of_orders :
    let failed := Sample.event .source .incomplete
    let limited : Event :=
      { Sample.event .source .running with
        message.reasons := [{ kind := .rateLimited, limit := some { quotaReset := some 5 } }] }
    let completion : Event :=
      { Sample.event .internal .complete with
        message := { stream := {}, status := .complete, emittedAt := .zero } }
    let other (event : Event) : Event :=
      { event with message.stream := { name := some "customers" } }
    let late := Sample.event .destination .running
    let later (e : Event) (between : List Event) :=
      let after := trackAll Sample.granting ([Sample.event .source .started] ++ [e]) {} ()
      trackAll Sample.granting between after.roster after.api
    let NothingNew (e : Event) (between : List Event) :=
      let again := (later e between).roster.track Sample.granting e (later e between).api
      again.roster = (later e between).roster ∧ callsOf again.effects = []
    NothingNew failed [late] ∧ NothingNew limited [other (Sample.event .source .started)] ∧
      NothingNew completion [late] := by
  intro failed limited completion other late later NothingNew
  have hagain := redelivered_writes_nothing Sample.granting [Sample.event .source .started]
  refine ⟨?_, ?_, ?_⟩
  · obtain ⟨hroster, -, hcalls⟩ :=
      (hagain failed [late] ()).1 Sample.orders (by decide) (by decide) (by decide) (by decide)
    exact ⟨hroster, hcalls⟩
  · obtain ⟨hroster, -, hcalls⟩ := (hagain limited [other (Sample.event .source .started)] ()).2.1
      (by decide) rfl fun key hkey e' he' haddresses => by
        cases hkey
        cases List.mem_singleton.mp he'
        exact absurd haddresses (by decide)
    exact ⟨hroster, hcalls⟩
  · obtain ⟨hroster, -, hcalls⟩ := (hagain completion [late] ()).2.2 rfl (Or.inl rfl)
      fun key _ e' he' hopens => by
        cases List.mem_singleton.mp he'
        exact absurd hopens.2 (by decide)
    exact ⟨hroster, hcalls⟩

end Roster

end StreamWatch
