import StreamWatch.Proofs.Basic
import StreamWatch.Proofs.Binary64.Order
import StreamWatch.Proofs.Replay.Completion
import StreamWatch.Proofs.Replay.History
import StreamWatch.Proofs.Roster.Requests

/-!
# Runs at their latest times

What a replay notes of a run is its first context and the latest time of its events, however late
that event stands in the input. So the completions at the end are one for each run, in the order in
which the runs appeared, and none of their updates is dated before anything else that the status API
was told about its run: `run_completes_at_latest`.
-/

namespace StreamWatch

/-! ## When the status API is told -/

/-- A request speaks of a stream of its event's run at the time of the event, and an internal event
asks for no record. -/
theorem Event.Makes.request {e : Event} {key : StreamKey} {state? : Option StreamState} {m : Move}
    {request : Request} (h : e.Makes key state? m) (hrequest : m.request? key = some request) :
    request.report.key.run = e.run ∧ request.report.time = e.time ∧
      (e.origin = .internal → ∃ id, request = .update id request.report) := by
  have hrun : key.run = e.run := by
    rcases h.addresses with hkey | ⟨-, hrun⟩
    · obtain ⟨name, -, rfl⟩ := Option.map_eq_some_iff.mp hkey
      rfl
    · exact hrun.symm
  have hupdate {state : StreamState} {cause? : Option Cause} (htime : state.changedAt = e.time)
      (hreport : (state.id?.map fun id => Request.update id (state.report key cause?)) =
        some request) :
      request.report.key.run = e.run ∧ request.report.time = e.time ∧
        (e.origin = .internal → ∃ id, request = .update id request.report) := by
    obtain ⟨id, -, rfl⟩ := Option.map_eq_some_iff.mp hreport
    exact ⟨hrun, htime, fun _ => ⟨id, rfl⟩⟩
  cases h.does with
  | misses | drops => cases hrequest
  | ends => exact hupdate rfl hrequest
  | opens hopens =>
      cases hrequest
      refine ⟨hrun, ?_, fun hinternal => absurd hinternal hopens.1.1⟩
      rw [StreamState.opened]
      cases e.origin <;> rfl
  | reports _ htakes =>
      cases htakes with
      | again | late | half | repeated => cases hrequest
      | resumed _ _ _ _ hnext | completed _ _ _ hnext | failed _ _ hnext =>
          exact hupdate (by rw [hnext]; rfl) hrequest

namespace Roster

variable {σ : Type} {api : StatusApi σ}

/-- The calls of an event speak of its run at its time, and those of an internal one are updates. -/
theorem call_of_track {event : Event} {r : Roster} {s : σ} {call : Call}
    (h : call ∈ callsOf (r.track api event s).effects) :
    call.key.run = event.run ∧ call.request.report.time = event.time ∧
      (event.origin = .internal → ∃ id, call.request = .update id call.request.report) := by
  have habout : call ∈ callsAbout call.key (r.track api event s).effects :=
    List.mem_filter.mpr ⟨h, decide_eq_true rfl⟩
  obtain ⟨m, hmakes, hrequest⟩ := exists_makes_of_call api habout
  exact hmakes.request hrequest

/-- So do the calls of the entries of a history. -/
theorem call_of_mem_history {events : List Event} {r : Roster} {s : σ} {entry : Entry}
    (h : entry ∈ history api events r s) {call : Call} (hcall : call ∈ callsOf entry.effects) :
    call.key.run = entry.event.run ∧ call.request.report.time = entry.event.time ∧
      (entry.event.origin = .internal → ∃ id, call.request = .update id call.request.report) := by
  induction events generalizing r s with
  | nil => cases h
  | cons event rest ih =>
      rcases List.mem_cons.mp h with rfl | h
      · exact call_of_track hcall
      · exact ih h

end Roster

/-- The time of an event on a line is a number. -/
theorem Event.isFinite_of_ofLine {line : List Char} {event : Event}
    (h : Event.ofLine line = .ok event) : event.message.emittedAt.isFinite := by
  obtain ⟨event', -, hcheck⟩ := Event.ofLine_eq_ok_iff.mp h
  unfold Event.check at hcheck
  split at hcheck
  · cases hcheck
  · next hfinite =>
      split at hcheck
      · cases hcheck
      · cases hcheck
        simpa using hfinite

namespace Replay

/-- So are the times of the events that count. -/
theorem isFinite_of_mem_selected {options : ReplayOptions} {number : Nat}
    {lines : List (List Char)} {event : Event}
    (h : event ∈ selected options (readings number lines)) :
    event.message.emittedAt.isFinite := by
  obtain ⟨line, hline⟩ := exists_ofLine_of_mem_selected h
  exact Event.isFinite_of_ofLine hline

/-! ## What is noted of a run -/

/-- The times of the events of a run. -/
def timesOf (run : RunId) (events : List Event) : Set ℚ :=
  {x | ∃ e ∈ events, e.run = run ∧ e.message.emittedAt.value = x}

/-- One more event is noted after the others. -/
theorem rememberAll_concat (events : List Event) (event : Event) (runs : List SeenRun) :
    rememberAll (events ++ [event]) runs = remember event (rememberAll events runs) :=
  List.foldl_append

/-- The runs that are noted are those of the events, in the order in which they appeared. -/
theorem runsOf_rememberAll (events : List Event) :
    runsOf (rememberAll events []) = (events.map Event.run).eraseDups := by
  induction events using List.reverseRecOn with
  | nil => rfl
  | append_singleton events event ih =>
      rw [rememberAll_concat, runsOf_remember, ih, List.map_append, List.map_singleton,
        eraseDups_concat]
      simp only [List.mem_eraseDups]

/-- What is noted after an event is what was noted of other runs, what was noted of its run with the
later time, or its own run. -/
theorem mem_remember {event : Event} {runs : List SeenRun} {seen : SeenRun}
    (hdistinct : (runsOf runs).Nodup) (h : seen ∈ remember event runs) :
    (seen ∈ runs ∧ seen.context.run ≠ event.run) ∨
    (∃ old ∈ runs, old.context.run = event.run ∧
      seen = { old with latest := old.latest.max event.message.emittedAt }) ∨
    (event.run ∉ runsOf runs ∧ seen = ⟨event.context, event.message.emittedAt⟩) := by
  induction runs with
  | nil => exact Or.inr (Or.inr ⟨List.not_mem_nil, List.mem_singleton.mp h⟩)
  | cons first rest ih =>
      obtain ⟨hfirst, hrest⟩ := List.nodup_cons.mp hdistinct
      unfold remember at h
      split at h
      · next hrun =>
          rcases List.mem_cons.mp h with rfl | h
          · exact Or.inr (Or.inl ⟨first, List.mem_cons_self, hrun, rfl⟩)
          · have hother : seen.context.run ≠ first.context.run :=
              fun hseen => hfirst (List.mem_map.mpr ⟨seen, h, hseen⟩)
            exact Or.inl ⟨List.mem_cons_of_mem _ h, hrun ▸ hother⟩
      · next hrun =>
          rcases List.mem_cons.mp h with rfl | h
          · exact Or.inl ⟨List.mem_cons_self, hrun⟩
          · rcases ih hrest h with ⟨hmem, hne⟩ | ⟨old, hold, heq⟩ | ⟨hnew, heq⟩
            · exact Or.inl ⟨List.mem_cons_of_mem _ hmem, hne⟩
            · exact Or.inr (Or.inl ⟨old, List.mem_cons_of_mem _ hold, heq⟩)
            · refine Or.inr (Or.inr ⟨fun hmem => ?_, heq⟩)
              rcases List.mem_cons.mp hmem with heq | hmem
              · exact hrun heq.symm
              · exact hnew hmem

/-- `seen.SumsUp events`: this is what some events say about their run, a context of one of them and
the latest of their times. -/
structure SumsUp (seen : SeenRun) (events : List Event) : Prop where
  context : ∃ e ∈ events, e.context = seen.context
  finite : seen.latest.isFinite
  latest : IsGreatest (timesOf seen.context.run events) seen.latest.value

/-- The times of a run with one more event. -/
theorem timesOf_concat (run : RunId) (events : List Event) (event : Event) :
    timesOf run (events ++ [event]) =
      if event.run = run then insert event.message.emittedAt.value (timesOf run events)
      else timesOf run events := by
  ext x
  split
  · next h => simp [timesOf, or_and_right, exists_or, h, or_comm, eq_comm]
  · next h => simp [timesOf, or_and_right, exists_or, h]

/-- What is noted of a run sums up its events. -/
theorem sumsUp_of_mem_rememberAll {events : List Event}
    (hfinite : ∀ e ∈ events, e.message.emittedAt.isFinite) {seen : SeenRun}
    (h : seen ∈ rememberAll events []) : SumsUp seen events := by
  induction events using List.reverseRecOn generalizing seen with
  | nil => cases h
  | append_singleton events event ih =>
      rw [rememberAll_concat] at h
      have hevent : event ∈ events ++ [event] := by simp
      have hrest : ∀ e ∈ events, e.message.emittedAt.isFinite :=
        fun e he => hfinite e (List.mem_append_left _ he)
      have hdistinct : (runsOf (rememberAll events [])).Nodup := by
        rw [runsOf_rememberAll]
        exact nodup_eraseDups _
      rcases mem_remember hdistinct h with ⟨hmem, hne⟩ | ⟨old, hold, hrun, rfl⟩ | ⟨hnew, rfl⟩
      · obtain ⟨⟨e, he, hcontext⟩, hlatest, hgreatest⟩ := ih hrest hmem
        refine ⟨⟨e, List.mem_append_left _ he, hcontext⟩, hlatest, ?_⟩
        rwa [timesOf_concat, if_neg hne.symm]
      · obtain ⟨⟨e, he, hcontext⟩, hlatest, hgreatest⟩ := ih hrest hold
        obtain ⟨hmax, hvalue⟩ := Binary64.value_max hlatest (hfinite event hevent)
        refine ⟨⟨e, List.mem_append_left _ he, hcontext⟩, hmax, ?_⟩
        rw [timesOf_concat, if_pos hrun.symm, hvalue, max_comm]
        exact hgreatest.insert _
      · refine ⟨⟨event, hevent, rfl⟩, hfinite event hevent, ?_⟩
        have hnone : timesOf event.run events = ∅ := by
          refine Set.eq_empty_iff_forall_notMem.mpr fun x hx => hnew ?_
          obtain ⟨e, he, hrun, -⟩ := hx
          rw [runsOf_rememberAll, List.mem_eraseDups, ← hrun]
          exact List.mem_map_of_mem he
        change IsGreatest (timesOf event.run _) _
        rw [timesOf_concat, if_pos rfl, hnone, insert_empty_eq]
        exact isGreatest_singleton

/-! ## Completions -/

/-- The completions of what is noted are one for each run, in the order in which the runs appeared,
each at the latest time of its run. -/
theorem completions_of_rememberAll {events : List Event}
    (hfinite : ∀ e ∈ events, e.message.emittedAt.isFinite) :
    let ends := (rememberAll events []).map completion
    ends.map Event.run = (events.map Event.run).eraseDups ∧
      ∀ c ∈ ends, (c.isRunWide ∧ c.status = .complete) ∧ (∃ e ∈ events, e.context = c.context) ∧
        c.message.emittedAt.isFinite ∧
        IsGreatest (timesOf c.run events) c.message.emittedAt.value := by
  intro ends
  constructor
  · rw [← runsOf_rememberAll, List.map_map]
    rfl
  · intro c hc
    obtain ⟨seen, hseen, rfl⟩ := List.mem_map.mp hc
    obtain ⟨hcontext, hlatest, hgreatest⟩ := sumsUp_of_mem_rememberAll hfinite hseen
    exact ⟨⟨rfl, rfl⟩, hcontext, hlatest, hgreatest⟩

/-- The time of an event that is tracked is the latest of its run, in whole milliseconds. -/
theorem isGreatest_time {run : RunId} {events : List Event} {c : Event}
    (hfinite : c.message.emittedAt.isFinite)
    (h : IsGreatest (timesOf run events) c.message.emittedAt.value) :
    IsGreatest ((fun x => clamp (truncate x)) '' timesOf run events) c.time.toInt := by
  rw [Event.time, Message.time, Binary64.toInt_toInt64 hfinite]
  have hmono : Monotone fun x => clamp (truncate x) :=
    fun _ _ h => clamp_le_clamp (truncate_le_truncate h)
  exact hmono.map_isGreatest h

/-- The calls of some entries are those of one of them. -/
theorem exists_of_mem_callsOf {entries : List Entry} {call : Call}
    (h : call ∈ callsOf ((entries.map Entry.told).flatMap Prod.snd)) :
    ∃ entry ∈ entries, call ∈ callsOf entry.effects := by
  obtain ⟨effect, heffect, hcall⟩ := List.mem_filterMap.mp h
  obtain ⟨told, htold, heffect⟩ := List.mem_flatMap.mp heffect
  obtain ⟨entry, hentry, rfl⟩ := List.mem_map.mp htold
  exact ⟨entry, hentry, List.mem_filterMap.mpr ⟨effect, heffect, hcall⟩⟩

/-- A replay that completes the runs it has seen ends with one completion of each, in the order in
which the runs appeared: a run-wide one, at the latest time of the events of the run. Every call
that a completion causes is an update of a stream of its run, at the latest of these times in whole
milliseconds, and so at a time that is no earlier than that of any call about the run before. -/
theorem run_completes_at_latest {σ : Type} (api : StatusApi σ) {options : ReplayOptions}
    (hcompletes : options.completesAtEnd) (text : List Char) (roster : Roster) (s : σ) :
    let events := selected options (readings 1 (Utf8.textLines text))
    let outcome := run api options (Utf8.encode text) roster s
    ∃ ends summary, outcome.result = .ok summary ∧ summary.runs = ends.length ∧
      outcome.progress.tracked.map Prod.fst = events ++ ends ∧
      ends.map Event.run = (events.map Event.run).eraseDups ∧
      (∀ e ∈ events ++ ends, e.message.emittedAt.isFinite) ∧
      (∀ c ∈ ends, (c.isRunWide ∧ c.status = .complete) ∧ (∃ e ∈ events, e.context = c.context) ∧
        IsGreatest (timesOf c.run events) c.message.emittedAt.value) ∧
      ∀ earlier c effects later,
        outcome.progress.tracked = earlier ++ (c, effects) :: later →
        events.length ≤ earlier.length → ∀ call ∈ callsOf effects,
          (∃ id, call.request = .update id call.request.report) ∧ call.key.run = c.run ∧
          IsGreatest ((fun x => clamp (truncate x)) '' timesOf c.run events)
            call.request.report.time.toInt ∧
          ∀ before ∈ callsOf (earlier.flatMap Prod.snd), before.key.run = c.run →
            before.request.report.time ≤ call.request.report.time := by
  intro events outcome
  obtain ⟨-, -, htracked, hresult⟩ := run_history api options text roster s
  let ends := (rememberAll events []).map completion
  have hends : completions options events = ends := if_pos hcompletes
  rw [hends] at htracked
  have hfinite : ∀ e ∈ events, e.message.emittedAt.isFinite := fun e => isFinite_of_mem_selected
  obtain ⟨hruns, hcompletions⟩ := completions_of_rememberAll hfinite
  refine ⟨ends, _, hresult, (List.length_map _).symm, ?_, hruns,
    List.forall_mem_append.mpr ⟨hfinite, fun c hc => (hcompletions c hc).2.2.1⟩,
    fun c hc => ⟨(hcompletions c hc).1, (hcompletions c hc).2.1, (hcompletions c hc).2.2.2⟩, ?_⟩
  · rw [htracked, List.map_map]
    exact Roster.map_event_history api _ _ _
  intro earlier c effects later hsplit hlength call hcall
  -- the split of what was tracked is one of the history
  rw [htracked] at hsplit
  obtain ⟨first, last, hhistory, rfl, hlast⟩ := List.map_eq_append_iff.mp hsplit
  obtain ⟨entry, last, rfl, hentry, rfl⟩ := List.map_eq_cons_iff.mp hlast
  obtain ⟨rfl, rfl⟩ := Prod.mk.inj hentry
  have hall : events ++ ends = first.map (·.event) ++ entry.event :: last.map (·.event) := by
    rw [← Roster.map_event_history api (events ++ ends) roster s, hhistory, List.map_append,
      List.map_cons]
  have hmem : entry.event ∈ ends := by
    rw [List.length_map] at hlength
    exact mem_of_append_eq hall (by rwa [List.length_map])
  obtain ⟨-, -, hc, hgreatest⟩ := hcompletions _ hmem
  have htime := isGreatest_time hc hgreatest
  have hinternal : entry.event.origin = .internal := by
    obtain ⟨seen, -, heq⟩ := List.mem_map.mp hmem
    rw [← heq]
    rfl
  obtain ⟨hrun, hdated, hupdate⟩ :=
    Roster.call_of_mem_history (hhistory ▸ List.mem_append_right _ List.mem_cons_self) hcall
  refine ⟨hupdate hinternal, hrun, hdated ▸ htime, fun before hbefore hsame => ?_⟩
  obtain ⟨entry', hentry', hbefore⟩ := exists_of_mem_callsOf hbefore
  obtain ⟨hrun', hdated', -⟩ :=
    Roster.call_of_mem_history (hhistory ▸ List.mem_append_left _ hentry') hbefore
  rw [hdated, hdated', Int64.le_iff_toInt_le]
  -- an earlier event of the run is one of the input, or a completion at the same latest time
  have hmem' : entry'.event ∈ events ++ ends := by
    rw [hall]
    exact List.mem_append_left _ (List.mem_map_of_mem hentry')
  have hruns' : entry'.event.run = entry.event.run := hrun'.symm.trans hsame
  rcases List.mem_append.mp hmem' with hevent | hend
  · refine htime.2 ⟨_, ⟨_, hevent, hruns', rfl⟩, ?_⟩
    rw [Event.time, Message.time, Binary64.toInt_toInt64 (hfinite _ hevent)]
  · obtain ⟨-, -, hc', hgreatest'⟩ := hcompletions _ hend
    rw [hruns'] at hgreatest'
    exact htime.2 (isGreatest_time hc' hgreatest').1

/-- The first event of a run is its latest one, and its stream is completed at that time. -/
theorem run_completes_at_latest_of_orders :
    let report (origin : Origin) (status : Status) (time : Int) : Event :=
      { origin
        message := { stream := Sample.orders.descriptor, status, emittedAt := .ofInt time }
        context := Sample.context }
    let events := [report .source .started 9, report .destination .running 2]
    let options : ReplayOptions := { completesAtEnd := true }
    let text := (events.map Event.toLine).flatMap (· ++ ['\n'])
    let outcome := run Sample.granting options (Utf8.encode text) {} ()
    ∃ ends summary, outcome.result = .ok summary ∧ summary.runs = 1 ∧
      ends.map Event.run = [Sample.context.run] ∧
      outcome.progress.tracked.map Prod.fst = events ++ ends ∧
      (callsOf outcome.progress.effects).map (·.request.report.time.toInt) = [9, 2, 9] := by
  intro report events options text outcome
  have hcompletes : options.completesAtEnd := rfl
  have hplain : ∀ event ∈ events, event.IsPlain := by
    have hreport (origin : Origin) (status : Status) {time : Int}
        (htime : time.natAbs ≤ 10 ^ 15) : (report origin status time).IsPlain :=
      ⟨fun _ => Option.some_ne_none _, Binary64.isWholeUpTo_ofInt htime (by decide)⟩
    simp only [events, List.forall_mem_cons]
    exact ⟨hreport _ _ (by decide), hreport _ _ (by decide), List.forall_mem_nil _⟩
  have hlines : Utf8.textLines text = events.map Event.toLine :=
    (Utf8.HoldsLines.ended _).textLines <| List.forall_mem_map.mpr
      fun event hevent => Event.isLine_toLine (hplain event hevent)
  have hevents : selected options (readings 1 (Utf8.textLines text)) = events := by
    rw [hlines, selected_readings]
    exact eventsOf_toLines fun event hevent => meaning_toLine (hplain event hevent) rfl
  obtain ⟨ends, summary, hresult, hcount, htracked, hruns, -⟩ :=
    run_completes_at_latest Sample.granting hcompletes text {} ()
  obtain ⟨-, -, hhistory, -⟩ := run_history Sample.granting options text {} ()
  rw [hevents] at htracked hruns hhistory
  have hone : ends.map Event.run = [Sample.context.run] := hruns.trans (by decide)
  have hcalls : (callsOf (((Roster.history Sample.granting (events ++ completions options events)
      {} ()).map Entry.told).flatMap Prod.snd)).map (·.request.report.time.toInt) = [9, 2, 9] := by
    decide +kernel
  dsimp only [outcome]
  generalize run Sample.granting options (Utf8.encode text) {} () = outcome at *
  refine ⟨ends, summary, hresult, ?_, hone, htracked, ?_⟩
  · rw [hcount, ← List.length_map Event.run, hone]
    rfl
  · rw [Progress.effects, hhistory]
    exact hcalls

end Replay

end StreamWatch
