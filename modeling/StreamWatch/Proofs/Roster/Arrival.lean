import Mathlib.Data.List.Induction
import StreamWatch.Proofs.Roster.Sound

/-!
# Reports in any order

How an open stream ends depends on which connectors report its end and not on when they do. The
first incomplete report ends it, or else the later one of two complete reports, and whatever else is
reported in between changes nothing about that. The event that ends the stream is the one of which
the status API is told: `ends_in_any_order`. No side may report both ends, since a side that takes
its completion back is heard only if the other side has not completed in the meantime.
-/

namespace StreamWatch

/-! ## Reports of an end -/

namespace Event

/-- A connector reports that the stream is complete on its side. -/
def Completes (e : Event) (key : StreamKey) : Prop := e.Reports key ∧ e.status = .complete

/-- A connector reports that the stream is incomplete on its side. -/
def Fails (e : Event) (key : StreamKey) : Prop := e.Reports key ∧ e.status = .incomplete

instance (e : Event) (key : StreamKey) : Decidable (e.Completes key) :=
  inferInstanceAs (Decidable (_ ∧ _))

instance (e : Event) (key : StreamKey) : Decidable (e.Fails key) :=
  inferInstanceAs (Decidable (_ ∧ _))

/-- No event both completes and fails a stream. -/
theorem Completes.not_fails {e : Event} {key : StreamKey} (h : e.Completes key) : ¬ e.Fails key :=
  fun hf => by cases h.2.symm.trans hf.2

/-- A side completes only by the status of that name. -/
theorem side_eq_complete_iff {e : Event} : e.side = .complete ↔ e.status = .complete := by
  unfold side
  cases e.status <;> simp

end Event

/-- Both connectors report among the events that the stream is complete on their sides. -/
def CompletedBy (key : StreamKey) (events : List Event) : Prop :=
  ∀ origin, origin ≠ .internal → ∃ e ∈ events, e.Completes key ∧ e.origin = origin

/-- No side reports both ends of the stream. -/
def Consistent (key : StreamKey) (events : List Event) : Prop :=
  ∀ e ∈ events, ∀ e' ∈ events, e.Completes key → e'.Fails key → e.origin ≠ e'.origin

/-- The calls about a stream that tell of its end, in order. -/
def endReports (key : StreamKey) (effects : List Effect) : List Call :=
  (callsAbout key effects).filter fun c => c.request.report.runState.isTerminal

/-- The calls are one update of the stream's record, or none if it has no record. -/
def StreamState.Tells (s : StreamState) (report : Report) (calls : List Call) : Prop :=
  s.id? = none ∧ calls = [] ∨
    ∃ id answer, s.id? = some id ∧ calls = [⟨.update id report, answer⟩]

/-- An update that tells of an end is not left out. -/
theorem StreamState.Tells.filter_of_isTerminal {s : StreamState} {report : Report}
    {calls : List Call} (h : s.Tells report calls) (hend : report.runState.isTerminal) :
    s.Tells report (calls.filter fun c => c.request.report.runState.isTerminal) := by
  rcases h with ⟨hid, rfl⟩ | ⟨id, answer, hid, rfl⟩
  · exact Or.inl ⟨hid, rfl⟩
  · refine Or.inr ⟨id, answer, hid, ?_⟩
    exact List.filter_cons_of_pos hend

/-- Any other update is. -/
theorem StreamState.Tells.filter_of_not_isTerminal {s : StreamState} {report : Report}
    {calls : List Call} (h : s.Tells report calls) (hend : ¬ report.runState.isTerminal) :
    (calls.filter fun c => c.request.report.runState.isTerminal) = [] := by
  rcases h with ⟨-, rfl⟩ | ⟨id, answer, -, rfl⟩
  · rfl
  · simpa [Request.report] using hend

/-- A stream that no side has ended holds a completion if it held one or has just heard it. -/
theorem StreamState.side_hear_eq_complete_iff {s : StreamState} (h : ¬ s.HasIncomplete)
    {origin : Origin} (horigin : origin ≠ .internal) (x : SideStatus) (other : Origin) :
    (s.hear origin x).side other = some .complete ↔
      s.side other = some .complete ∨ x = .complete ∧ origin = other := by
  constructor
  · intro hside
    by_cases hne : origin = other
    · exact (of_side_hear_eq_some hside).imp_right fun hx => ⟨hx, hne⟩
    · rw [side_hear_of_ne s hne] at hside
      exact Or.inl hside
  · rintro (hside | ⟨rfl, rfl⟩)
    · exact side_hear_of_isTerminal hside rfl origin x
    · obtain ⟨y, hy, hterminal⟩ := exists_isTerminal_hear s horigin (x := .complete) rfl
      rcases of_side_hear_eq_some hy with hold | rfl
      · cases y with
        | complete => exact hy
        | incomplete cause => exact absurd ⟨origin, cause, hold⟩ h
        | started | running => cases hterminal
      · exact hy

/-! ## What becomes of an open stream -/

/-- `Awaits key start past s`: a stream that was open in `start` has heard the events `past`, is in
state `s`, and waits for the end. -/
structure Awaits (key : StreamKey) (start : StreamState) (past : List Event) (s : StreamState) :
    Prop where
  sound : s.Sound
  not_ended : ¬ s.ended
  id?_eq : s.id? = start.id?
  jobKind_eq : s.jobKind = start.jobKind
  not_fails : ∀ e ∈ past, ¬ e.Fails key
  /-- The sides remember which of them have completed. -/
  side_iff : ∀ origin,
    s.side origin = some .complete ↔ ∃ e ∈ past, e.Completes key ∧ e.origin = origin

/-- `Fate key start past s reports`: what became of a stream that was open in `start`, has heard the
events `past` and is in state `s`, where the calls `reports` told of its end. -/
inductive Fate (key : StreamKey) (start : StreamState) (past : List Event) (s : StreamState)
    (reports : List Call) : Prop
  /-- It is still open. -/
  | awaits : Awaits key start past s → reports = [] → Fate key start past s reports
  /-- The first incomplete report has ended it. -/
  | failed {first : Event} : past.find? (·.Fails key) = some first →
      s.ended → s.runState = .incomplete → s.changedAt = first.time →
      start.Tells ⟨key, start.jobKind, .incomplete, first.time, some first.cause, none⟩ reports →
      Fate key start past s reports
  /-- Both sides have completed it. -/
  | completed : (∀ e ∈ past, ¬ e.Fails key) → CompletedBy key past →
      s.ended → s.runState = .complete →
      start.Tells ⟨key, start.jobKind, .complete, s.changedAt, none, none⟩ reports →
      Fate key start past s reports

variable {key : StreamKey} {start s next : StreamState} {past : List Event} {event : Event}
  {reports : List Call}

namespace Awaits

/-- At first nothing has been heard. -/
theorem refl (hsound : start.Sound)
    (hopen : ∀ origin x, start.side origin = some x → ¬ x.isTerminal) :
    Awaits key start [] start where
  sound := hsound
  not_ended hended := by
    obtain ⟨origin, x, hside, hx⟩ := hsound.exists_isTerminal hended
    exact hopen origin x hside hx
  id?_eq := rfl
  jobKind_eq := rfl
  not_fails := by simp
  side_iff origin := iff_of_false (fun hside => hopen origin _ hside rfl) (by simp)

/-- One side at least has not completed. -/
theorem not_completedBy (h : Awaits key start past s) : ¬ CompletedBy key past := by
  intro hboth
  have hcomplete : s.isComplete :=
    StreamState.isComplete_iff.mpr fun origin ho => (h.side_iff origin).mpr (hboth origin ho)
  exact h.not_ended
    (h.sound.ended_of_isTerminated (StreamState.isTerminated_of_isComplete hcomplete))

/-- An event that is not about the stream changes nothing. -/
theorem skip (h : Awaits key start past s) (hreports : ¬ event.Reports key) :
    Awaits key start (past ++ [event]) s where
  sound := h.sound
  not_ended := h.not_ended
  id?_eq := h.id?_eq
  jobKind_eq := h.jobKind_eq
  not_fails e he := by
    rcases List.mem_append.mp he with he | he
    · exact h.not_fails e he
    · rw [List.mem_singleton.mp he]
      exact fun hf => hreports hf.1
  side_iff origin := by
    rw [h.side_iff]
    simp only [List.mem_append, List.mem_singleton, or_and_right, exists_or, exists_eq_left]
    exact ⟨Or.inl, fun hor => hor.resolve_right fun hc => hreports hc.1.1⟩

/-- A stream that hears a report and stays open goes on waiting, if the report is not an incomplete
one and the sides remember completions as if they had heard it. -/
theorem heard (h : Awaits key start past s) (hreports : event.Reports key)
    (hstatus : event.status ≠ .incomplete) (hsound : next.Sound) (hended : ¬ next.ended)
    (hid : next.id? = s.id?) (hkind : next.jobKind = s.jobKind)
    (hside : ∀ origin, next.side origin = some .complete ↔
      (s.hear event.origin event.side).side origin = some .complete) :
    Awaits key start (past ++ [event]) next where
  sound := hsound
  not_ended := hended
  id?_eq := hid.trans h.id?_eq
  jobKind_eq := hkind.trans h.jobKind_eq
  not_fails e he := by
    rcases List.mem_append.mp he with he | he
    · exact h.not_fails e he
    · rw [List.mem_singleton.mp he]
      exact fun hf => hstatus hf.2
  side_iff origin := by
    have hnot := h.sound.not_hasIncomplete h.not_ended
    rw [hside, StreamState.side_hear_eq_complete_iff hnot hreports.1, h.side_iff,
      Event.side_eq_complete_iff]
    simp only [List.mem_append, List.mem_singleton, or_and_right, exists_or, exists_eq_left]
    refine or_congr_right ⟨fun hc => ⟨⟨hreports, hc.1⟩, hc.2⟩, fun hc => ⟨hc.1.2, hc.2⟩⟩

/-- The sides remember completions as if they had heard a report that is none. -/
theorem side_iff_of_ne_complete (h : Awaits key start past s) (hreports : event.Reports key)
    (hstatus : event.status ≠ .complete) (origin : Origin) :
    s.side origin = some .complete ↔
      (s.hear event.origin event.side).side origin = some .complete := by
  have hnot := h.sound.not_hasIncomplete h.not_ended
  rw [StreamState.side_hear_eq_complete_iff hnot hreports.1, Event.side_eq_complete_iff]
  exact ⟨Or.inl, fun hor => hor.resolve_right fun hc => hstatus hc.1⟩

/-- A stream that runs on goes on waiting. -/
theorem resumed (h : Awaits key start past s) (hreports : event.Reports key)
    (hstatus : event.status = .running) (hsound : next.Sound)
    (hnext : next = (s.hear event.origin event.side).resumed event.message.limit? event.time) :
    Awaits key start (past ++ [event]) next := by
  refine h.heard hreports (by simp [hstatus]) hsound ?_ ?_ ?_ fun origin => ?_
  · rw [hnext]
    simpa [StreamState.resumed] using h.not_ended
  · simp [hnext, StreamState.resumed]
  · simp [hnext, StreamState.resumed]
  · rw [hnext, StreamState.side_resumed]

/-- A report decides what becomes of a stream that waits for its end. -/
theorem takes {σ : Type} {api : StatusApi σ} (h : Awaits key start past s)
    (hreports : event.Reports key) {m : Move} (ht : s.Takes key event m)
    {after? : Option StreamState} {calls : List Call} (hy : m.Yields api key after? calls) :
    ∃ after, after? = some after ∧ Fate key start (past ++ [event]) after
      (calls.filter fun c => c.request.report.runState.isTerminal) := by
  obtain ⟨after, hafter, hid, hkind⟩ := ht.exists_next
  have hsound := h.sound.takes hreports.1 ht hafter
  refine ⟨after, (ht.eq_next hy).trans hafter, ?_⟩
  -- a report that ends nothing leaves the stream waiting; only the last two cases end it
  cases ht with
  | again hstatus =>
      cases hafter
      rw [(hy.of_note rfl).2]
      exact .awaits (h.heard hreports (by simp [hstatus]) hsound h.not_ended hid hkind
        (h.side_iff_of_ne_complete hreports (by simp [hstatus]))) rfl
  | late _ hended => exact absurd hended h.not_ended
  | half hstatus hended _ =>
      cases hafter
      rw [(hy.of_note rfl).2]
      exact .awaits (h.heard hreports (by simp [hstatus]) hsound (by simpa using hended) hid hkind
        fun _ => Iff.rfl) rfl
  | repeated hstatus _ _ _ hm =>
      cases hafter
      rw [(hy.of_note rfl).2]
      exact .awaits (h.resumed hreports hstatus hsound hm) rfl
  | resumed hstatus _ _ _ hm =>
      cases hafter
      have hawaits := h.resumed hreports hstatus hsound hm
      have hrun : ¬ (after.report key none).runState.isTerminal :=
        fun hend => hawaits.not_ended (hsound.ended_iff.mpr hend)
      rw [StreamState.Tells.filter_of_not_isTerminal (hy.of_report rfl).2 hrun]
      exact .awaits hawaits rfl
  | completed hstatus hended hboth hm =>
      cases hafter
      have hcompletes : event.Completes key := ⟨hreports, hstatus⟩
      have htold := (hy.of_report rfl).2
      rw [hid, h.id?_eq] at htold
      refine .completed ?_ ?_ (by rw [hm]; rfl) (by rw [hm]; rfl) ?_
      · intro e he
        rcases List.mem_append.mp he with he | he
        · exact h.not_fails e he
        · rw [List.mem_singleton.mp he]
          exact hcompletes.not_fails
      · intro origin ho
        -- the side was complete before, by one of the past reports, or is by this one
        have hside := StreamState.isComplete_iff.mp hboth origin ho
        rw [StreamState.side_hear_eq_complete_iff (h.sound.not_hasIncomplete h.not_ended)
          hreports.1, h.side_iff] at hside
        rcases hside with ⟨e, he, hcomplete, rfl⟩ | ⟨-, rfl⟩
        · exact ⟨e, List.mem_append_left _ he, hcomplete, rfl⟩
        · exact ⟨event, by simp, hcompletes, rfl⟩
      · have hreport : after.report key none =
            ⟨key, start.jobKind, .complete, after.changedAt, none, none⟩ := by
          rw [← h.jobKind_eq, ← hkind, hm]
          rfl
        rw [hreport] at htold
        exact StreamState.Tells.filter_of_isTerminal htold rfl
  | failed hstatus hended hm =>
      cases hafter
      have hfails : event.Fails key := ⟨hreports, hstatus⟩
      -- no report before this one failed, so it is the first that does
      have htold := (hy.of_report rfl).2
      rw [hid, h.id?_eq] at htold
      have hfirst : (past ++ [event]).find? (·.Fails key) = some event := by
        have hnone : past.find? (·.Fails key) = none :=
          List.find?_eq_none.mpr fun e he => by simpa using h.not_fails e he
        rw [List.find?_append, hnone, Option.none_or, List.find?_singleton,
          if_pos (decide_eq_true hfails)]
      have hreport : after.report key (some event.cause) =
          ⟨key, start.jobKind, .incomplete, event.time, some event.cause, none⟩ := by
        rw [← h.jobKind_eq, ← hkind, hm]
        rfl
      rw [hreport] at htold
      exact .failed hfirst (by rw [hm]; rfl) (by rw [hm]; rfl) (by rw [hm]; rfl)
        (StreamState.Tells.filter_of_isTerminal htold rfl)

end Awaits

namespace Fate

/-- The end of a stream is the end of it, if its sides do not contradict themselves. -/
theorem concat_of_ended (h : Fate key start past s reports) (hended : s.ended)
    (hconsistent : Consistent key (past ++ [event])) (hfrozen : s.Frozen next) :
    Fate key start (past ++ [event]) next reports := by
  have hchanged : next.changedAt = s.changedAt := by
    obtain ⟨_, _, rfl⟩ := hfrozen.eq_but_sides
    rfl
  cases h with
  | awaits hawaits => exact absurd hended hawaits.not_ended
  | failed hfirst _ hrun hat htold =>
      refine .failed ?_ (hfrozen.ended_eq ▸ hended) (hfrozen.runState_eq.trans hrun)
        (hchanged.trans hat) htold
      rw [List.find?_append, hfirst, Option.some_or]
  | completed hnot hboth _ hrun htold =>
      refine .completed (fun e he hfails => ?_) (fun origin ho => ?_)
        (hfrozen.ended_eq ▸ hended) (hfrozen.runState_eq.trans hrun) (hchanged ▸ htold)
      · rcases List.mem_append.mp he with hmem | hmem
        · exact hnot e hmem hfails
        · -- the side that fails has completed before
          obtain ⟨e', he', hcompletes, horigin⟩ := hboth e.origin hfails.1.1
          exact hconsistent e' (List.mem_append_left _ he') e he hcompletes hfails horigin
      · obtain ⟨e, he, hcompletes⟩ := hboth origin ho
        exact ⟨e, List.mem_append_left _ he, hcompletes⟩

/-- Which end a stream takes depends on the reports of its end alone. -/
theorem runState_iff (h : Fate key start past s reports) :
    (s.runState = .incomplete ↔ ∃ e ∈ past, e.Fails key) ∧
      (s.runState = .complete ↔ (∀ e ∈ past, ¬ e.Fails key) ∧ CompletedBy key past) := by
  cases h with
  | awaits hawaits =>
      have hopen : ¬ (s.runState = .complete ∨ s.runState = .incomplete) := fun hend =>
        hawaits.not_ended (hawaits.sound.ended_iff.mpr (RunState.isTerminal_iff.mpr hend))
      rw [not_or] at hopen
      exact ⟨iff_of_false hopen.2 fun ⟨e, he, hfails⟩ => hawaits.not_fails e he hfails,
        iff_of_false hopen.1 fun hboth => hawaits.not_completedBy hboth.2⟩
  | @failed first hfirst _ hrun =>
      have hmem : ∃ e ∈ past, e.Fails key :=
        ⟨first, List.mem_of_find?_eq_some hfirst, by simpa using List.find?_some hfirst⟩
      refine ⟨iff_of_true hrun hmem, iff_of_false (by simp [hrun]) fun hboth => ?_⟩
      obtain ⟨e, he, hfails⟩ := hmem
      exact hboth.1 e he hfails
  | completed hnot hboth _ hrun =>
      exact ⟨iff_of_false (by simp [hrun]) fun ⟨e, he, hfails⟩ => hnot e he hfails,
        iff_of_true hrun ⟨hnot, hboth⟩⟩

end Fate

/-! ## Runs -/

namespace Roster

variable {σ : Type} (api : StatusApi σ)

/-- One more event continues what became of a stream. -/
theorem Fate.track (h : Fate key start past s reports)
    (hconsistent : Consistent key (past ++ [event])) (hclears : ¬ event.Clears key) {r : Roster}
    (hstate : r.streams.get? key = some s) (t : σ) :
    ∃ after, (r.track api event t).roster.streams.get? key = some after ∧
      Fate key start (past ++ [event]) after
        (reports ++ endReports key (r.track api event t).effects) := by
  by_cases hended : s.ended
  · obtain ⟨after, hafter, hfrozen⟩ := track_of_ended api hstate hended hclears t
    refine ⟨after, hafter, ?_⟩
    rw [endReports, callsAbout_track_of_ended api hstate hended hclears, List.filter_nil,
      List.append_nil]
    exact h.concat_of_ended hended hconsistent hfrozen
  · cases h with
    | failed _ he => exact absurd he hended
    | completed _ _ he => exact absurd he hended
    | awaits hawaits hnone =>
        rw [hnone]
        rcases track_watched api hstate event t with ⟨hreports, m, htakes, hy⟩ | ⟨hc, -⟩ |
          ⟨hreports, -, hsame, hcalls⟩
        · exact hawaits.takes hreports htakes hy
        · exact absurd hc hclears
        · rw [endReports, hcalls]
          exact ⟨s, hsame, .awaits (hawaits.skip hreports) rfl⟩

/-- What becomes of an open stream in the course of some events. -/
theorem fate_of_run {r : Roster} (hstart : r.streams.get? key = some start) (hsound : start.Sound)
    (hopen : ∀ origin x, start.side origin = some x → ¬ x.isTerminal) (t : σ) (later : List Event)
    (hclears : ∀ e ∈ later, ¬ e.Clears key) (hconsistent : Consistent key later) :
    ∃ after, (trackAll api later r t).roster.streams.get? key = some after ∧
      Fate key start later after (endReports key (trackAll api later r t).effects) := by
  induction later using List.reverseRecOn with
  | nil => exact ⟨start, hstart, .awaits (.refl hsound hopen) rfl⟩
  | append_singleton past event ih =>
      obtain ⟨middle, hmiddle, hfate⟩ := ih (fun e he => hclears e (List.mem_append_left _ he))
        fun e he e' he' => hconsistent e (List.mem_append_left _ he) e' (List.mem_append_left _ he')
      rw [trackAll_concat]
      simp only [endReports, callsAbout_append, List.filter_append]
      exact Fate.track api hfate hconsistent (hclears event (by simp)) hmiddle _

/-- What becomes of an open stream, in the course of events that do not clear it and among which no
side reports both ends. The first incomplete report ends it; if there is none, it completes if both
sides do; and otherwise it stays open. The end is told in one update, if the stream has a record. In
any order of the events the stream takes the same end. -/
theorem ends_in_any_order {events later : List Event} {t : σ} {state : StreamState}
    (h : (trackAll api events {} t).roster.streams.get? key = some state)
    (hopen : ∀ origin x, state.side origin = some x → ¬ x.isTerminal)
    (hclears : ∀ e ∈ later, ¬ e.Clears key) (hconsistent : Consistent key later) :
    let before := trackAll api events {} t
    let turn := trackAll api later before.roster before.api
    ∃ after, turn.roster.streams.get? key = some after ∧
      (∀ first, later.find? (·.Fails key) = some first →
        after.runState = .incomplete ∧ after.changedAt = first.time ∧
        state.Tells ⟨key, state.jobKind, .incomplete, first.time, some first.cause, none⟩
          (endReports key turn.effects)) ∧
      ((∀ e ∈ later, ¬ e.Fails key) → CompletedBy key later →
        after.runState = .complete ∧
        state.Tells ⟨key, state.jobKind, .complete, after.changedAt, none, none⟩
          (endReports key turn.effects)) ∧
      ((∀ e ∈ later, ¬ e.Fails key) → ¬ CompletedBy key later →
        (after.runState = .running ∨ after.runState = .rateLimited) ∧
        endReports key turn.effects = []) ∧
      ∀ later' : List Event, later'.Perm later →
        ∃ after', (trackAll api later' before.roster before.api).roster.streams.get? key =
            some after' ∧
          (after'.runState = .complete ↔ after.runState = .complete) ∧
          (after'.runState = .incomplete ↔ after.runState = .incomplete) := by
  intro before turn
  have hsound := sound_of_watched api events t h
  obtain ⟨after, hafter, hfate⟩ :=
    fate_of_run api h hsound hopen before.api later hclears hconsistent
  refine ⟨after, hafter, fun first hfirst => ?_, fun hnot hboth => ?_, fun hnot hboth => ?_,
    fun later' hperm => ?_⟩
  · have hfails : first.Fails key := by simpa using List.find?_some hfirst
    have hmem := List.mem_of_find?_eq_some hfirst
    cases hfate with
    | awaits hawaits => exact absurd hfails (hawaits.not_fails first hmem)
    | completed hnot => exact absurd hfails (hnot first hmem)
    | failed hfirst' _ hrun hat htold =>
        obtain rfl := Option.some.inj (hfirst.symm.trans hfirst')
        exact ⟨hrun, hat, htold⟩
  · have hrun := hfate.runState_iff.2.mpr ⟨hnot, hboth⟩
    cases hfate with
    | awaits hawaits => exact absurd hboth hawaits.not_completedBy
    | failed _ _ hrun' => cases hrun.symm.trans hrun'
    | completed _ _ _ _ htold => exact ⟨hrun, htold⟩
  · cases hfate with
    | awaits hawaits hnone =>
        refine ⟨?_, hnone⟩
        have hend : ¬ after.runState.isTerminal := fun hterminal =>
          hawaits.not_ended (hawaits.sound.ended_iff.mpr hterminal)
        cases hrun : after.runState with
        | running => exact Or.inl rfl
        | rateLimited => exact Or.inr rfl
        | complete | incomplete =>
            rw [hrun] at hend
            exact absurd rfl hend
    | failed hfirst =>
        exact absurd (by simpa using List.find?_some hfirst)
          (hnot _ (List.mem_of_find?_eq_some hfirst))
    | completed _ hboth' => exact absurd hboth' hboth
  · -- the same reports in another order are as consistent, and clear as little
    have hmem (e : Event) : e ∈ later' ↔ e ∈ later := hperm.mem_iff
    obtain ⟨after', hafter', hfate'⟩ := fate_of_run api h hsound hopen before.api later'
      (fun e he => hclears e ((hmem e).mp he))
      (fun e he e' he' => hconsistent e ((hmem e).mp he) e' ((hmem e').mp he'))
    refine ⟨after', hafter', ?_, ?_⟩
    · rw [hfate'.runState_iff.2, hfate.runState_iff.2, CompletedBy, CompletedBy]
      simp only [hmem]
    · rw [hfate'.runState_iff.1, hfate.runState_iff.1]
      simp only [hmem]

/-- A source that completes, a destination that is canceled: the stream is incomplete, told once,
and would be so if everything had been reported the other way round. -/
theorem ends_in_any_order_of_orders :
    let canceled : Event :=
      { Sample.event .destination .incomplete with cause? := some .canceled }
    let later := [Sample.event .source .complete, Sample.event .destination .running, canceled,
      Sample.event .source .running, Sample.event .source .complete]
    let before := trackAll Sample.granting [Sample.event .source .started] {} ()
    let turn := trackAll Sample.granting later before.roster before.api
    let reversed := trackAll Sample.granting later.reverse before.roster before.api
    (∃ answer, endReports Sample.orders turn.effects =
      [⟨.update ⟨7⟩ ⟨Sample.orders, .sync, .incomplete, 0, some .canceled, none⟩, answer⟩]) ∧
    ∃ after, reversed.roster.streams.get? Sample.orders = some after ∧
      after.runState = .incomplete := by
  intro canceled later before turn reversed
  have hstate : before.roster.streams.get? Sample.orders = some
      { source := some .started, id? := some ⟨7⟩, jobKind := .sync, changedAt := 0 } := by decide
  have hconsistent : Consistent Sample.orders later := by
    unfold Consistent
    decide
  have hopen (origin : Origin) (x : SideStatus) (hside : StreamState.side
      { source := some .started, id? := some ⟨7⟩, jobKind := .sync, changedAt := 0 } origin =
        some x) : ¬ x.isTerminal := by
    cases origin with
    | source =>
        cases hside
        decide
    | destination | internal => cases hside
  obtain ⟨after, -, hfailed, -, -, hperm⟩ :=
    ends_in_any_order Sample.granting hstate hopen (by decide) hconsistent
  obtain ⟨hrun, -, htold⟩ := hfailed canceled (by decide)
  obtain ⟨after', hafter', -, hsame⟩ := hperm later.reverse later.reverse_perm
  refine ⟨?_, after', hafter', hsame.mpr hrun⟩
  rcases htold with ⟨hid, -⟩ | ⟨id, answer, hid, hcalls⟩
  · cases hid
  · cases hid
    exact ⟨answer, hcalls⟩

end Roster

end StreamWatch
