import StreamWatch.Proofs.Replay.Events
import StreamWatch.Proofs.Roster.RunWide
import StreamWatch.Proofs.Roster.Settlement

/-!
# Completing the runs that were seen

A stream is watched because an event of its run was tracked, and the runs of all tracked events are
seen. So when every run that was seen is completed, no stream is left, and every record of an
archive is settled: `run_drains`.
-/

namespace StreamWatch

namespace Replay

/-! ## Runs that were seen -/

/-- The runs of what was seen. -/
def runsOf (seen : List SeenRun) : List RunId := seen.map (·.context.run)

/-- A run is noted once, where it was first seen. -/
theorem runsOf_remember (event : Event) (seen : List SeenRun) :
    runsOf (remember event seen) =
      if event.run ∈ runsOf seen then runsOf seen else runsOf seen ++ [event.run] := by
  induction seen with
  | nil => rfl
  | cons first rest ih =>
      unfold runsOf at ih ⊢
      by_cases hrun : first.context.run = event.run
      · simp [remember, hrun]
      · rw [remember, if_neg hrun, List.map_cons, ih]
        by_cases hmem : event.run ∈ rest.map (·.context.run)
        · simp [hmem]
        · simp [hmem, Ne.symm hrun]

/-- The runs of all events are seen. -/
theorem mem_runsOf_rememberAll {run : RunId} (events : List Event) (seen : List SeenRun) :
    run ∈ runsOf (rememberAll events seen) ↔
      run ∈ runsOf seen ∨ ∃ event ∈ events, event.run = run := by
  induction events generalizing seen with
  | nil => simp [rememberAll]
  | cons event rest ih =>
      have hfirst : run ∈ runsOf (remember event seen) ↔ run ∈ runsOf seen ∨ event.run = run := by
        rw [runsOf_remember]
        split
        · next hmem => exact ⟨Or.inl, fun h => h.elim id fun hrun => hrun ▸ hmem⟩
        · rw [List.mem_append, List.mem_singleton, eq_comm (a := run)]
      rw [rememberAll, List.foldl_cons, ← rememberAll, ih, hfirst, or_assoc]
      simp only [List.mem_cons, exists_eq_or_imp]

end Replay

namespace Roster

variable {σ : Type} (api : StatusApi σ)

/-- A watched stream belongs to the run of an event that was tracked. -/
theorem exists_run_of_watched (events : List Event) (s : σ) {key : StreamKey}
    (h : (trackAll api events {} s).roster.streams.get? key ≠ none) :
    ∃ event ∈ events, event.run = key.run := by
  induction events using List.reverseRecOn with
  | nil => exact absurd rfl h
  | append_singleton events event ih =>
      rw [trackAll_concat] at h
      obtain ⟨state, hstate⟩ := Option.ne_none_iff_exists'.mp h
      have hreports (h : event.Reports key) : event.run = key.run := by
        obtain ⟨name, -, hkey⟩ := Option.map_eq_some_iff.mp h.2
        rw [← hkey]
      rcases track_watched_cases api hstate with ⟨-, -, hbefore⟩ | ⟨hopens, -⟩ | ⟨hevent, -⟩
      · obtain ⟨earlier, hmem, hrun⟩ := ih (by simp [hbefore])
        exact ⟨earlier, List.mem_append_left _ hmem, hrun⟩
      · exact ⟨event, by simp, hreports hopens.1⟩
      · exact ⟨event, by simp, hreports hevent⟩

/-! ## Completions -/

/-- The completion of a run leaves none of its streams watched, and all others alone. -/
theorem get?_track_completion (seen : SeenRun) (r : Roster) (s : σ) (key : StreamKey) :
    (r.track api (Replay.completion seen) s).roster.streams.get? key =
      if key.run = seen.context.run then none else r.streams.get? key := by
  have horigin : (Replay.completion seen).origin = .internal := rfl
  obtain ⟨hroster, -⟩ := track_runWide api horigin rfl rfl r s
  rw [hroster, get?_without]
  have hrun : (Replay.completion seen).run = seen.context.run := rfl
  by_cases hmem : key ∈ r.keysOf (Replay.completion seen).run
  · rw [if_pos hmem, if_pos ((mem_keysOf.mp hmem).2.trans hrun)]
  · rw [if_neg hmem]
    split
    · next hkey =>
        -- a stream of the run that is not visited was not watched
        by_contra hsome
        exact hmem (mem_keysOf.mpr ⟨hsome, hkey⟩)
    · rfl

/-- The completions of some runs leave none of their streams watched, and all others alone. -/
theorem get?_trackAll_completions (runs : List SeenRun) (r : Roster) (s : σ) (key : StreamKey) :
    (trackAll api (runs.map Replay.completion) r s).roster.streams.get? key =
      if key.run ∈ Replay.runsOf runs then none else r.streams.get? key := by
  induction runs generalizing r s with
  | nil => simp [trackAll, Replay.runsOf]
  | cons seen rest ih =>
      have hmem : key.run ∈ Replay.runsOf (seen :: rest) ↔
          key.run = seen.context.run ∨ key.run ∈ Replay.runsOf rest := List.mem_cons
      simp only [List.map_cons, trackAll, ih, get?_track_completion, hmem]
      by_cases hrest : key.run ∈ Replay.runsOf rest <;> simp [hrest]

/-- Events and the completions of their runs leave no stream watched. -/
theorem get?_trackAll_completed (events : List Event) (s : σ) (key : StreamKey) :
    (trackAll api (events ++ (Replay.rememberAll events []).map Replay.completion) {}
      s).roster.streams.get? key = none := by
  rw [trackAll_append]
  simp only [get?_trackAll_completions]
  split
  · rfl
  · next hrun =>
      by_contra hsome
      exact hrun ((Replay.mem_runsOf_rememberAll events []).mpr
        (Or.inr (exists_run_of_watched api events s hsome)))

end Roster

namespace Replay

/-- With the runs completed at the end, replaying a text leaves no stream watched and none listed as
rate limited, whatever the status API answers. If that is an archive that does not give out an
identifier twice, each of its records says how its stream ended, after one update that reports an
end, and there are as many records as were asked for and as are counted by their run states. -/
theorem run_drains {options : ReplayOptions} (hcompletes : options.completesAtEnd)
    (text : List Char) :
    (∀ {σ : Type} (api : StatusApi σ) (s : σ),
      let outcome := run api options (Utf8.encode text) {} s
      (∃ summary, outcome.result = .ok summary) ∧
        outcome.progress.roster.streams.size = 0 ∧ outcome.progress.roster.limited = []) ∧
    ∀ supply : Nat → Uuid,
      let archive := (run (Archive.api supply) options (Utf8.encode text) {} {}).progress.api
      (Set.Iio archive.creates.size).InjOn supply →
        (∀ record ∈ archive.all,
          (record.report.runState = .complete ∨ record.report.runState = .incomplete) ∧
          (archive.endings record.id).length = 1) ∧
        archive.all.length = archive.creates.size ∧
        ((Archive.countRunStates archive.all).map (·.2)).sum = archive.creates.size := by
  let events := eventsOf options (Utf8.textLines text)
  have htracked : trackedEvents options (Utf8.textLines text) =
      events ++ (rememberAll events []).map completion := by
    rw [trackedEvents, if_pos hcompletes]
  constructor
  · intro σ api s outcome
    obtain ⟨hroster, -, hresult⟩ := run_encode api options text {} s
    rw [htracked] at hroster
    refine ⟨hresult, ?_, ?_⟩
    · have hkeys : outcome.progress.roster.streams.keys = [] := by
        refine List.eq_nil_iff_forall_not_mem.mpr fun key hkey => Table.mem_keys.mp hkey ?_
        rw [hroster]
        exact Roster.get?_trackAll_completed api events s key
      exact List.length_eq_zero_iff.mpr (List.map_eq_nil_iff.mp hkeys)
    · refine List.eq_nil_iff_forall_not_mem.mpr fun key hkey => ?_
      rw [hroster, Roster.mem_limited_iff, Roster.get?_trackAll_completed] at hkey
      cases hkey
  · intro supply archive hdistinct
    have harchive : archive = _ := (run_encode (Archive.api supply) options text {} {}).2.1
    rw [htracked] at harchive
    rw [harchive] at hdistinct ⊢
    -- no stream is watched in the end, so all records are settled
    obtain ⟨hsettled, hsize⟩ := (Roster.settles_of_run supply _ hdistinct).settled
      (Roster.get?_trackAll_completed _ events _)
    refine ⟨fun record hrecord => ?_, hsize, (Archive.sum_countRunStates _).trans hsize⟩
    obtain ⟨hend, hcount⟩ := hsettled record hrecord
    exact ⟨RunState.isTerminal_iff.mp hend, hcount⟩

/-- A stream of which only the start is on record is completed at the end. -/
theorem run_drains_of_orders :
    let supply (n : Nat) : Uuid := ⟨BitVec.ofNat 128 n⟩
    let options : ReplayOptions := { completesAtEnd := true }
    let text := (Sample.event .source .started).toLine
    let outcome := run (Archive.api supply) options (Utf8.encode text) {} {}
    let archive := outcome.progress.api
    archive.creates.size = 1 ∧ archive.all.length = 1 ∧
      (∀ record ∈ archive.all, (archive.endings record.id).length = 1) ∧
      outcome.progress.roster.streams.size = 0 := by
  intro supply options text
  have hcompletes : options.completesAtEnd := rfl
  obtain ⟨hdrained, hsettled⟩ := run_drains hcompletes text
  have hdrained := hdrained (Archive.api supply) {}
  have hsettled := hsettled supply
  have hsize : (run (Archive.api supply) options (Utf8.encode text) {}
      {}).progress.api.creates.size = 1 := by decide +kernel
  dsimp only at hdrained hsettled ⊢
  generalize run (Archive.api supply) options (Utf8.encode text) {} {} = outcome at *
  have hdistinct : (Set.Iio outcome.progress.api.creates.size).InjOn supply := by
    rw [hsize]
    intro i hi j hj _
    rw [Set.mem_Iio] at hi hj
    omega
  obtain ⟨hrecords, hall, -⟩ := hsettled hdistinct
  exact ⟨hsize, hall.trans hsize, fun record hrecord => (hrecords record hrecord).2, hdrained.2.1⟩

end Replay

end StreamWatch
