import StreamWatch.Proofs.Replay.Latest
import StreamWatch.Proofs.Text.Lines
import StreamWatch.Proofs.Text.Uuid

/-!
# Selecting connections

Replaying the events of some connections is replaying all events of a text from which the lines of
the others were deleted: `run_deletes`. An event that does not count leaves no trace but its count,
neither in the roster nor among the runs that are completed at the end. Connections are told apart
by their identifiers and not by how these are written: `selects_iff`.
-/

namespace StreamWatch

/-! ## Which connections count -/

namespace ReplayOptions

/-- The options that select every connection. -/
def unfiltered (o : ReplayOptions) : ReplayOptions := { o with connections := [] }

/-- Without a selection every connection counts. -/
@[simp] theorem selects_unfiltered (o : ReplayOptions) (connection : String) :
    o.unfiltered.selects connection := by
  rw [selects, unfiltered, List.isEmpty_nil, Bool.true_or]

/-- A connection counts if none is configured, or one that is its grouped form but for blanks around
it and the case of letters. -/
theorem selects_iff (o : ReplayOptions) (id : Uuid) :
    o.selects id.toString ↔
      o.connections = [] ∨
        ∃ configured ∈ o.connections,
          (trimBlanks configured.toList).map Char.toLower = id.toChars := by
  have hsame (configured : String) : sameIgnoringCase (trimmed configured) id.toString ↔
      (trimBlanks configured.toList).map Char.toLower = id.toChars := by
    rw [sameIgnoringCase, trimmed, Uuid.toString, String.toList_ofList, String.toList_ofList,
      Uuid.map_toLower_toChars, beq_iff_eq]
  simp only [selects, Bool.or_eq_true, List.isEmpty_iff, List.any_eq_true, hsame]

/-- The only connection that counts is the one configured. -/
theorem eq_of_singleConnection? {o : ReplayOptions} {only : String}
    (h : o.singleConnection? = some only) {id : Uuid} (hselects : o.selects id.toString) :
    id.toChars = only.toList.map Char.toLower := by
  unfold singleConnection? at h
  split at h
  · next configured heq =>
      obtain rfl := Option.some.inj h
      rcases (selects_iff o id).mp hselects with hnone | ⟨configured', hmem, hsame⟩
      · rw [heq] at hnone
        cases hnone
      · rw [heq, List.mem_singleton] at hmem
        rw [← hsame, hmem, trimmed, String.toList_ofList]
  · cases h

end ReplayOptions

namespace Replay

/-! ## Lines of events that do not count -/

/-- Whether a line holds an event that does not count. -/
def holdsUnselected (options : ReplayOptions) (line : List Char) : Bool :=
  match Event.ofLine line with
  | .ok event => !options.selects event.context.connection.toString
  | .error _ => false

variable (options : ReplayOptions)

/-- The readings of a line and what is left of it, if the line is deleted that holds an event that
does not count. -/
theorem reading?_unfiltered (number number' : Nat) (line : List Char) :
    let before := (reading? number line).toList
    let after := if holdsUnselected options line then [] else (reading? number' line).toList
    selected options.unfiltered after = selected options before ∧
      (warnings after).length = (warnings before).length ∧
      (unselected options before).length = if holdsUnselected options line then 1 else 0 := by
  intro before after
  cases hline : Event.ofLine line with
  | error failure =>
      have hholds : holdsUnselected options line = false := by rw [holdsUnselected, hline]
      simp only [before, after, hholds, reading?, hline, Bool.false_eq_true, if_false]
      cases isAllBlank line with
      | true => exact ⟨rfl, rfl, rfl⟩
      | false => exact ⟨rfl, rfl, rfl⟩
  | ok event =>
      have hblank := Event.not_isAllBlank_of_ofLine hline
      simp only [before, after, holdsUnselected, hline, reading?, hblank]
      have hread (k : Nat) : [Reading.mk k (.ok event)].filterMap Reading.event? = [event] := rfl
      have hquiet (k : Nat) : warnings [⟨k, .ok event⟩] = [] := rfl
      cases h : options.selects event.context.connection.toString with
      | true => simp [selected, unselected, hread, hquiet, h]
      | false =>
          have hnone : warnings [] = [] := rfl
          simp [selected, unselected, hread, hquiet, hnone, h]

/-- What is read of some lines, and what is left when those are deleted that hold events that do not
count. -/
theorem readings_unfiltered (number number' : Nat) (lines : List (List Char)) :
    let before := readings number lines
    let after := readings number' (lines.filter fun line => !holdsUnselected options line)
    selected options.unfiltered after = selected options before ∧
      (warnings after).length = (warnings before).length ∧
      (unselected options before).length = (lines.filter (holdsUnselected options)).length := by
  induction lines generalizing number number' with
  | nil => exact ⟨rfl, rfl, rfl⟩
  | cons line rest ih =>
      obtain ⟨hselected, hwarnings, hunselected⟩ := reading?_unfiltered options number number' line
      cases h : holdsUnselected options line with
      | true =>
          obtain ⟨hselected', hwarnings', hunselected'⟩ := ih (number + 1) number'
          simp only [h, if_true] at hselected hwarnings hunselected
          simp only [readings_cons, selected_append, warnings_append, unselected_append,
            List.length_append, List.filter_cons, h, Bool.not_true, Bool.false_eq_true, if_false,
            if_true, List.length_cons, ← hselected, ← hwarnings, hunselected, hselected',
            hwarnings', hunselected']
          exact ⟨rfl, (Nat.zero_add _).symm, Nat.add_comm _ _⟩
      | false =>
          obtain ⟨hselected', hwarnings', hunselected'⟩ := ih (number + 1) (number' + 1)
          simp only [h, Bool.false_eq_true, if_false] at hselected hwarnings hunselected
          simp only [readings_cons, selected_append, warnings_append, unselected_append,
            List.length_append, List.filter_cons, h, Bool.not_false, Bool.false_eq_true, if_false,
            if_true, hselected, hwarnings, hunselected, hselected', hwarnings', hunselected',
            Nat.zero_add]
          exact ⟨trivial, trivial, trivial⟩

variable {options}

/-- A tracked event is one that counts, or the completion of a run with such an event. -/
theorem exists_event_of_mem_tracked {events : List Event}
    (hfinite : ∀ e ∈ events, e.message.emittedAt.isFinite) {c : Event}
    (h : c ∈ events ++ completions options events) : ∃ e ∈ events, e.context = c.context := by
  rcases List.mem_append.mp h with hevent | hend
  · exact ⟨c, hevent, rfl⟩
  · unfold completions at hend
    split at hend
    · exact ((completions_of_rememberAll hfinite).2 c hend).2.1
    · cases hend

/-- Replaying the events of selected connections is replaying, without a selection, the text from
which the lines of the other events were deleted. The same is tracked with the same effects, roster
and status API come out the same, and but for the deleted lines, which are counted, so do the
counts. Connections count by their identifiers, each of which is read from its four forms and from
nothing else, so that it makes no difference in which form an event was written. If a single
connection is selected, nothing is tracked about any other. -/
theorem run_deletes {σ : Type} (api : StatusApi σ) (options : ReplayOptions) (text : List Char)
    (roster : Roster) (s : σ) :
    let drops := holdsUnselected options
    let rest := Utf8.deleteLines drops text
    let outcome := run api options (Utf8.encode text) roster s
    let outcome' := run api options.unfiltered (Utf8.encode rest) roster s
    (outcome.progress.tracked = outcome'.progress.tracked ∧
      outcome.progress.roster = outcome'.progress.roster ∧
      outcome.progress.api = outcome'.progress.api) ∧
    (∃ summary, outcome'.result = .ok summary ∧ summary.filtered = 0 ∧
      outcome.result =
        .ok { summary with filtered := ((Utf8.textLines text).filter drops).length }) ∧
    (∀ id : Uuid, options.selects id.toString ↔ options.connections = [] ∨
      ∃ configured ∈ options.connections,
        (trimBlanks configured.toList).map Char.toLower = id.toChars) ∧
    (∀ written id, Uuid.ofString? written = some id ↔ id.IsForm written.toList) ∧
    ∀ only, options.singleConnection? = some only →
      ∀ told ∈ outcome.progress.tracked,
        told.1.context.connection.toChars = only.toList.map Char.toLower := by
  intro drops rest outcome outcome'
  obtain ⟨hroster, hapi, htracked, hresult⟩ := run_history api options text roster s
  obtain ⟨hroster', hapi', htracked', hresult'⟩ := run_history api options.unfiltered rest roster s
  have hlines : Utf8.textLines rest =
      (Utf8.textLines text).filter fun line => !holdsUnselected options line :=
    Utf8.textLines_deleteLines drops text
  obtain ⟨hselected, hwarnings, hunselected⟩ :=
    readings_unfiltered options 1 1 (Utf8.textLines text)
  rw [← hlines] at hselected hwarnings
  -- the same events count, so the same runs are completed
  have hcompletions (events : List Event) :
      completions options.unfiltered events = completions options events := rfl
  simp only [hselected, hcompletions] at hroster' hapi' htracked' hresult'
  have hnone (rs : List Reading) : unselected options.unfiltered rs = [] :=
    List.filter_eq_nil_iff.mpr fun e _ => by simp
  rw [hnone, hwarnings] at hresult'
  rw [hunselected] at hresult
  refine ⟨⟨htracked.trans htracked'.symm, hroster.trans hroster'.symm, hapi.trans hapi'.symm⟩,
    ⟨_, hresult', rfl, hresult⟩, options.selects_iff, fun written id => Uuid.ofChars?_eq_some_iff,
    fun only honly told htold => ?_⟩
  rw [htracked] at htold
  obtain ⟨entry, hentry, rfl⟩ := List.mem_map.mp htold
  have hevent := List.mem_map_of_mem (f := Entry.event) hentry
  rw [Roster.map_event_history] at hevent
  obtain ⟨e, he, hcontext⟩ :=
    exists_event_of_mem_tracked (fun e => isFinite_of_mem_selected) hevent
  rw [show entry.told.1.context = e.context from hcontext.symm]
  exact ReplayOptions.eq_of_singleConnection? honly (List.mem_filter.mp he).2

/-- A connection that is configured with blanks around it and in capital letters. -/
example :
    let options : ReplayOptions := { connections := [" 00000000-0000-0000-0000-00000000000B"] }
    (options.selects (Uuid.toString ⟨11⟩), options.selects (Uuid.toString ⟨12⟩)) =
      (true, false) := by
  decide +kernel

end Replay

end StreamWatch
