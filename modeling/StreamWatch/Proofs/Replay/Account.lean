import StreamWatch.Proofs.Replay.RoundTrip

/-!
# What becomes of every line

Every line of a text that is not blank has a `Reading`: an event, or the failure to read one. A
replay accounts for all of them. It tracks the events of the selected connections in their order,
counts those of the others, and counts the failures and writes a warning for each: `run_accounts`.
-/

namespace StreamWatch

/-- A connector's event that was read from a line names its stream. -/
theorem Event.name_ne_none_of_ofLine {line : List Char} {event : Event}
    (h : Event.ofLine line = .ok event) (horigin : event.origin ≠ .internal) :
    event.message.stream.name ≠ none := by
  obtain ⟨event', -, hcheck⟩ := Event.ofLine_eq_ok_iff.mp h
  unfold Event.check at hcheck
  split at hcheck
  · cases hcheck
  · split at hcheck
    · cases hcheck
    · next hnamed =>
        cases hcheck
        exact fun hname => hnamed ⟨horigin, hname⟩

namespace Replay

/-! ## Readings -/

/-- What is read from a line that is not blank, with the number of the line. -/
structure Reading where
  number : Nat
  result : Except Failure Event

namespace Reading

/-- The event that was read, if one was. -/
def event? (r : Reading) : Option Event := r.result.toOption

/-- What is written to the log if no event was read. -/
def warning? (r : Reading) : Option ReplayNotice :=
  match r.result with
  | .error failure => some (.malformed r.number failure)
  | .ok _ => none

end Reading

/-- The reading of the line of this number, unless it is blank. -/
def reading? (number : Nat) (line : List Char) : Option Reading :=
  if isAllBlank line then none else some ⟨number, Event.ofLine line⟩

/-- The readings of lines, the first of which has this number. -/
def readings (number : Nat) (lines : List (List Char)) : List Reading :=
  (lines.zipIdx number).filterMap fun numbered => reading? numbered.2 numbered.1

/-- The events that were read and count. -/
def selected (options : ReplayOptions) (rs : List Reading) : List Event :=
  (rs.filterMap Reading.event?).filter fun e => options.selects e.context.connection.toString

/-- The events that were read and do not count. -/
def unselected (options : ReplayOptions) (rs : List Reading) : List Event :=
  (rs.filterMap Reading.event?).filter fun e => !options.selects e.context.connection.toString

/-- The warnings about lines from which no event was read. -/
def warnings (rs : List Reading) : List ReplayNotice := rs.filterMap Reading.warning?

section Readings

variable (options : ReplayOptions) (rs rs' : List Reading)

/-- Readings are selected one by one. -/
@[simp] theorem selected_append :
    selected options (rs ++ rs') = selected options rs ++ selected options rs' := by
  simp [selected]

@[simp] theorem unselected_append :
    unselected options (rs ++ rs') = unselected options rs ++ unselected options rs' := by
  simp [unselected]

@[simp] theorem warnings_append : warnings (rs ++ rs') = warnings rs ++ warnings rs' := by
  simp [warnings]

/-- Every reading is an event that counts, one that does not, or a warning. -/
theorem length_selected_add :
    (selected options rs).length + (warnings rs).length + (unselected options rs).length =
      rs.length := by
  have hread : (rs.filterMap Reading.event?).length + (warnings rs).length = rs.length := by
    unfold warnings
    induction rs with
    | nil => rfl
    | cons r rs ih =>
        obtain ⟨number, result⟩ := r
        cases result with
        | error failure =>
            change _ + (_ + 1) = _ + 1
            rw [← Nat.add_assoc, ← ih]
            rfl
        | ok event =>
            change _ + 1 + _ = _ + 1
            rw [Nat.add_right_comm, ← ih]
            rfl
  have hselect : (selected options rs).length + (unselected options rs).length =
      (rs.filterMap Reading.event?).length :=
    (List.length_eq_length_filter_add _).symm
  omega

/-- Lines are read one by one, and numbered on the way. -/
theorem readings_cons (number : Nat) (line : List Char) (rest : List (List Char)) :
    readings number (line :: rest) =
      (reading? number line).toList ++ readings (number + 1) rest := by
  rw [readings, List.zipIdx_cons, List.filterMap_cons]
  cases h : reading? number line with
  | none => rfl
  | some r => rfl

/-- The events that were read and count are those on lines that mean such an event. -/
theorem selected_readings (number : Nat) (lines : List (List Char)) :
    selected options (readings number lines) = eventsOf options lines := by
  induction lines generalizing number with
  | nil => rfl
  | cons line rest ih =>
      rw [readings_cons, selected_append, ih, eventsOf, eventsOf, List.filterMap_cons, reading?,
        meaning]
      cases isAllBlank line with
      | true => rfl
      | false =>
          cases Event.ofLine line with
          | error failure => rfl
          | ok event =>
              cases h : options.selects event.context.connection.toString <;>
                simp [selected, Reading.event?, Except.toOption, LineMeaning.event?, h]

/-- There is a reading for each line that is not blank. -/
theorem length_readings (number : Nat) (lines : List (List Char)) :
    (readings number lines).length = (lines.filter fun line => !isAllBlank line).length := by
  induction lines generalizing number with
  | nil => rfl
  | cons line rest ih =>
      rw [readings_cons, List.length_append, ih, List.filter_cons, reading?]
      cases isAllBlank line with
      | true => simp
      | false => simp [Nat.add_comm]

/-- A reading is that of the line with its number. -/
theorem exists_line_of_mem_readings {number : Nat} {lines : List (List Char)} {r : Reading}
    (h : r ∈ readings number lines) :
    ∃ line, (number ≤ r.number ∧ lines[r.number - number]? = some line) ∧
      isAllBlank line = false ∧ r.result = Event.ofLine line := by
  obtain ⟨⟨line, k⟩, hmem, hreading⟩ := List.mem_filterMap.mp h
  unfold reading? at hreading
  split at hreading
  · cases hreading
  · next hblank =>
      cases hreading
      exact ⟨line, List.mk_mem_zipIdx_iff_le_and_getElem?_sub.mp hmem,
        Bool.eq_false_of_not_eq_true hblank, rfl⟩

end Readings

namespace Progress

variable {σ : Type} {api : StatusApi σ} {options : ReplayOptions}

/-- The notices that were written, in order. -/
def notices (p : Progress σ) : List ReplayNotice :=
  p.entries.toList.filterMap fun
    | .note notice => some notice
    | .tracked _ _ => none

/-- `p.Accounts api options rs p'`: on the way from `p` to `p'` a replay accounted for these
readings. -/
structure Accounts (api : StatusApi σ) (options : ReplayOptions) (rs : List Reading)
    (p p' : Progress σ) : Prop where
  tracks : p.Tracks api (selected options rs) p'
  runs : p'.runs = rememberAll (selected options rs) p.runs
  tracked : p'.tracked.map Prod.fst = p.tracked.map Prod.fst ++ selected options rs
  effects : p'.effects =
    p.effects ++ (Roster.trackAll api (selected options rs) p.roster p.api).effects
  notices : p'.notices = p.notices ++ warnings rs
  summary : p'.summary =
    { p.summary with
      events := p.summary.events + (selected options rs).length
      skipped := p.summary.skipped + (warnings rs).length
      filtered := p.summary.filtered + (unselected options rs).length }

theorem Accounts.refl (p : Progress σ) : p.Accounts api options [] p where
  tracks := .nil rfl rfl
  runs := rfl
  tracked := (List.append_nil _).symm
  effects := (List.append_nil _).symm
  notices := (List.append_nil _).symm
  summary := rfl

/-- One way after the other. -/
theorem Accounts.append {rs rs' : List Reading} {p p' p'' : Progress σ}
    (h : p.Accounts api options rs p') (h' : p'.Accounts api options rs' p'') :
    p.Accounts api options (rs ++ rs') p'' where
  tracks := by
    rw [selected_append]
    exact h.tracks.append h'.tracks
  runs := by
    rw [h'.runs, h.runs, selected_append, rememberAll, rememberAll, rememberAll,
      List.foldl_append]
  tracked := by rw [h'.tracked, h.tracked, selected_append, List.append_assoc]
  effects := by
    rw [h'.effects, h.effects, h.tracks.roster, h.tracks.api, selected_append,
      Roster.trackAll_append, List.append_assoc]
  notices := by rw [h'.notices, h.notices, warnings_append, List.append_assoc]
  summary := by
    rw [h'.summary, h.summary]
    simp only [selected_append, unselected_append, warnings_append, List.length_append,
      Nat.add_assoc]

/-- A line that holds no event costs a warning. -/
theorem takeLine_malformed_accounts (number : Nat) (failure : Failure) (p : Progress σ) :
    p.Accounts api options [⟨number, .error failure⟩]
      (p.takeLine api number (.malformed failure)) where
  tracks := .nil rfl rfl
  runs := rfl
  tracked := by
    change _ = p.tracked.map Prod.fst ++ []
    simp [Progress.tracked, takeLine]
  effects := by
    change _ = p.effects ++ []
    simp [Progress.effects, Progress.tracked, takeLine]
  notices := by
    change _ = p.notices ++ [.malformed number failure]
    simp [Progress.notices, takeLine]
  summary := rfl

/-- A line with an event that does not count is counted as such. -/
theorem takeLine_unselected_accounts (number : Nat) {event : Event}
    (h : options.selects event.context.connection.toString = false) (p : Progress σ) :
    p.Accounts api options [⟨number, .ok event⟩] (p.takeLine api number (.unselected event)) := by
  have hselected : selected options [⟨number, .ok event⟩] = [] :=
    List.filter_cons_of_neg (by simp [h])
  have hunselected : unselected options [⟨number, .ok event⟩] = [event] :=
    List.filter_cons_of_pos (by simp [h])
  refine ⟨?_, ?_, ?_, ?_, (List.append_nil _).symm, ?_⟩
  · rw [hselected]
    exact .nil rfl rfl
  · rw [hselected]
    rfl
  · rw [hselected]
    exact (List.append_nil _).symm
  · rw [hselected]
    exact (List.append_nil _).symm
  · rw [hselected, hunselected]
    rfl

/-- A line with an event that counts is tracked. -/
theorem takeLine_event_accounts (number : Nat) {event : Event}
    (h : options.selects event.context.connection.toString) (p : Progress σ) :
    p.Accounts api options [⟨number, .ok event⟩] (p.takeLine api number (.event event)) := by
  have hselected : selected options [⟨number, .ok event⟩] = [event] :=
    List.filter_cons_of_pos h
  have hunselected : unselected options [⟨number, .ok event⟩] = [] :=
    List.filter_cons_of_neg (by simp [h])
  obtain ⟨htracks, hruns⟩ := takeLine_tracks api number p (.event event)
  have htracked : (p.takeLine api number (.event event)).tracked =
      p.tracked ++ [(event, (p.roster.track api event p.api).effects)] := by
    simp [Progress.tracked, takeLine, track]
  refine ⟨?_, ?_, ?_, ?_, ?_, ?_⟩
  · rw [hselected]
    exact htracks
  · rw [hselected]
    exact hruns
  · rw [hselected, htracked, List.map_append]
    rfl
  · rw [hselected, Progress.effects, htracked, List.flatMap_append]
    rfl
  · change _ = p.notices ++ []
    simp [Progress.notices, takeLine, track]
  · rw [hselected, hunselected]
    rfl

/-- Every line is accounted for. -/
theorem takeLine_accounts (number : Nat) (line : List Char) (p : Progress σ) :
    p.Accounts api options (reading? number line).toList
      (p.takeLine api number (meaning options line)) := by
  unfold reading? meaning
  split
  · exact .refl p
  · cases Event.ofLine line with
    | error failure => exact takeLine_malformed_accounts number failure p
    | ok event =>
        cases h : options.selects event.context.connection.toString with
        | false => simpa [h] using takeLine_unselected_accounts number h p
        | true => simpa [h] using takeLine_event_accounts number h p

/-- All lines of a text are accounted for. -/
theorem takeLines_accounts (number : Nat) (lines : List (List Char)) (p : Progress σ) :
    ∃ p', takeLines api options number (lines.map .ok) p = (p', none) ∧
      p.Accounts api options (readings number lines) p' := by
  induction lines generalizing number p with
  | nil => exact ⟨p, rfl, .refl p⟩
  | cons line rest ih =>
      obtain ⟨p', htake, hrest⟩ := ih (number + 1) (p.takeLine api number (meaning options line))
      rw [readings_cons]
      exact ⟨p', htake, (takeLine_accounts number line p).append hrest⟩

end Progress

/-! ## Replays -/

/-- An event that counts was read from a line. -/
theorem exists_ofLine_of_mem_selected {options : ReplayOptions} {number : Nat}
    {lines : List (List Char)} {event : Event}
    (h : event ∈ selected options (readings number lines)) :
    ∃ line, Event.ofLine line = .ok event := by
  obtain ⟨hread, -⟩ := List.mem_filter.mp h
  obtain ⟨⟨k, result⟩, hr, hevent⟩ := List.mem_filterMap.mp hread
  obtain ⟨line, -, -, rfl⟩ := exists_line_of_mem_readings hr
  unfold Reading.event? at hevent
  cases hline : Event.ofLine line with
  | error failure =>
      rw [hline] at hevent
      cases hevent
  | ok event' =>
      rw [hline] at hevent
      exact ⟨line, hline.trans (congrArg _ (Option.some.inj hevent))⟩

/-- A warning says on which line there is no event, and why. -/
theorem exists_line_of_mem_warnings {number : Nat} {lines : List (List Char)}
    {notice : ReplayNotice} (h : notice ∈ warnings (readings number lines)) :
    ∃ k line failure, (number ≤ k ∧ lines[k - number]? = some line) ∧ isAllBlank line = false ∧
      Event.ofLine line = .error failure ∧ notice.line =
        ⟨.warn, .replay, s!"skipping malformed event on line {k}: {failure.message}", []⟩ := by
  obtain ⟨⟨k, result⟩, hr, hwarning⟩ := List.mem_filterMap.mp h
  obtain ⟨line, hline, hblank, rfl⟩ := exists_line_of_mem_readings hr
  unfold Reading.warning? at hwarning
  cases hread : Event.ofLine line with
  | error failure =>
      simp only [hread] at hwarning
      cases hwarning
      exact ⟨k, line, failure, hline, hblank, hread, rfl⟩
  | ok event =>
      simp only [hread] at hwarning
      cases hwarning

/-- A replay that completes no runs accounts for all lines of a text. It tracks the events that were
read and selected, in their order, and does nothing else to the roster and the status API. Each line
that is not blank is counted once: as an event, as one that was not selected, or as a failure, about
which there is a warning with the number of the line. An event of a connector that is tracked names
its stream. -/
theorem run_accounts {σ : Type} (api : StatusApi σ) (connections : List String) (text : List Char)
    (roster : Roster) (s : σ) :
    let options : ReplayOptions := { completesAtEnd := false, connections }
    let lines := Utf8.textLines text
    let rs := readings 1 lines
    let events := selected options rs
    let turn := Roster.trackAll api events roster s
    let outcome := run api options (Utf8.encode text) roster s
    Utf8.SplitsInto text lines ∧
      outcome.result = .ok
        { events := events.length
          skipped := (warnings rs).length
          filtered := (unselected options rs).length
          runs := (rememberAll events []).length } ∧
      events.length + (warnings rs).length + (unselected options rs).length =
        (lines.filter fun line => !isAllBlank line).length ∧
      outcome.progress.tracked.map Prod.fst = events ∧
      outcome.progress.effects = turn.effects ∧ outcome.progress.roster = turn.roster ∧
      outcome.progress.api = turn.api ∧
      outcome.progress.notices = warnings rs ∧
      (∀ notice ∈ warnings rs, ∃ number line failure,
        (1 ≤ number ∧ lines[number - 1]? = some line) ∧ isAllBlank line = false ∧
        Event.ofLine line = .error failure ∧ notice.line =
          ⟨.warn, .replay, s!"skipping malformed event on line {number}: {failure.message}", []⟩) ∧
      ∀ event ∈ events, event.origin ≠ .internal → event.message.stream.name ≠ none := by
  intro options lines rs events turn outcome
  -- the lines of the text are those of its bytes, and no runs are completed after them
  obtain ⟨p, htake, haccounts⟩ := @Progress.takeLines_accounts σ api options 1 lines
    { roster, api := s }
  rw [← Utf8.lines_encode] at htake
  have hrun : outcome = ⟨{ p with summary := { p.summary with runs := p.runs.length } },
      .ok { p.summary with runs := p.runs.length }⟩ := run_of_takeLines htake
  rw [hrun]
  refine ⟨Utf8.splitsInto_textLines text, ?_, ?_, haccounts.tracked, haccounts.effects,
    haccounts.tracks.roster, haccounts.tracks.api, haccounts.notices,
    fun _ => exists_line_of_mem_warnings, fun event hevent => ?_⟩
  · rw [haccounts.summary, haccounts.runs]
    simp only [Nat.zero_add]
    rfl
  · rw [length_selected_add, length_readings]
  · obtain ⟨line, hline⟩ := exists_ofLine_of_mem_selected hevent
    exact Event.name_ne_none_of_ofLine hline

/-- A blank line, one that breaks off, an event, and an event of another connection. -/
example :
    let started := Sample.event .source .started
    let other : Event := { started with context := { Sample.context with connection := ⟨9⟩ } }
    let text := [' ', '\n', '\x7b', '\r', '\n'] ++ started.toLine ++ ['\n'] ++ other.toLine
    let options : ReplayOptions :=
      { completesAtEnd := false, connections := [Sample.context.connection.toString] }
    (run Sample.granting options (Utf8.encode text) {} ()).result =
      .ok { events := 1, skipped := 1, filtered := 1, runs := 1 } := by
  decide +kernel

end Replay

end StreamWatch
