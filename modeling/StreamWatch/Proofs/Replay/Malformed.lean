import StreamWatch.Proofs.Event.Trailing
import StreamWatch.Proofs.Replay.Events
import StreamWatch.Proofs.Text.Lines

/-!
# Lines that are no events

A line of text that holds no event costs a replay nothing but a count and a note, wherever it
stands: `run_inserts_text`. A line that is no text ends the replay instead.
-/

namespace StreamWatch.Replay

open Json (isSpace)

/-! ## What a line means -/

/-- Two lines mean the same, but that malformed ones may be so for different reasons. -/
inductive LineMeaning.Alike : LineMeaning → LineMeaning → Prop
  | same (m : LineMeaning) : Alike m m
  | malformed (failure failure' : Failure) : Alike (.malformed failure) (.malformed failure')

namespace LineMeaning.Alike

variable {m m' m'' : LineMeaning}

theorem symm (h : m.Alike m') : m'.Alike m := by
  cases h with
  | same => exact .same _
  | malformed => exact .malformed _ _

theorem trans (h : m.Alike m') (h' : m'.Alike m'') : m.Alike m'' := by
  cases h with
  | same => exact h'
  | malformed =>
      cases h' with
      | same => exact .malformed _ _
      | malformed => exact .malformed _ _

/-- A line that means like a malformed one is malformed. -/
theorem exists_malformed {failure : Failure} (h : (LineMeaning.malformed failure).Alike m) :
    ∃ failure', m = .malformed failure' := by
  cases h with
  | same => exact ⟨failure, rfl⟩
  | malformed _ failure' => exact ⟨failure', rfl⟩

end LineMeaning.Alike

/-- White space at the end of a line makes no difference to what it means. -/
theorem meaning_concat (options : ReplayOptions) {c : Char} (hc : isSpace c) (line : List Char) :
    (meaning options line).Alike (meaning options (line ++ [c])) := by
  have hblank : isAllBlank (line ++ [c]) = isAllBlank line := by
    have hc' : isBlank c := by
      rcases Json.Reader.eq_of_isSpace hc with rfl | rfl | rfl | rfl <;> rfl
    simp [isAllBlank, hc']
  unfold meaning
  rw [hblank]
  split
  · exact .same _
  · cases hline : Event.ofLine line with
    | ok event =>
        rw [(Event.ofLine_concat hc line event).mpr hline]
        exact .same _
    | error failure =>
        cases hline' : Event.ofLine (line ++ [c]) with
        | ok event =>
            rw [(Event.ofLine_concat hc line event).mp hline'] at hline
            cases hline
        | error failure' => exact .malformed _ _

/-- Nor does the end of the line itself. -/
theorem meaning_dropEnding (options : ReplayOptions) (line : List Char) :
    (meaning options (Utf8.dropEnding line)).Alike (meaning options line) := by
  have hnewline := meaning_concat options (c := '\n') rfl
  unfold Utf8.dropEnding
  split
  · next rest hline =>
      have hline : line = rest.reverse ++ ['\r'] ++ ['\n'] := by
        rw [← List.reverse_reverse line, hline]
        simp
      rw [hline]
      exact (meaning_concat options rfl _).trans (hnewline _)
  · next rest _ hline =>
      have hline : line = rest.reverse ++ ['\n'] := by
        rw [← List.reverse_reverse line, hline]
        simp
      rw [hline]
      exact hnewline _
  · exact .same _

/-- The text of a line. -/
def lineText (line : List UInt8) : Except Utf8.Fault (List Char) :=
  (Utf8.decode line).map Utf8.dropEnding

/-- A line that gets a newline stays text and means the same. -/
theorem exists_lineText_of_endedAs (options : ReplayOptions) {line line' : List UInt8}
    (h : Utf8.EndedAs line line') {text : List Char} (hline : lineText line = .ok text) :
    ∃ text', lineText line' = .ok text' ∧ (meaning options text).Alike (meaning options text') := by
  rcases h with rfl | rfl
  · exact ⟨text, hline, .same _⟩
  · cases hdecode : Utf8.decode line with
    | error fault =>
        rw [lineText, hdecode] at hline
        cases hline
    | ok cs =>
        rw [lineText, hdecode] at hline
        cases hline
        have htext : lineText (line ++ [Utf8.newline]) = .ok (Utf8.dropEnding (cs ++ ['\n'])) := by
          rw [lineText, Utf8.decode_concat_newline hdecode]
          rfl
        have hdrop := meaning_dropEnding options
        exact ⟨_, htext, (hdrop cs).trans ((meaning_concat options rfl cs).trans (hdrop _).symm)⟩

/-- A line that is no text stays none with a newline. -/
theorem exists_fault_of_endedAs {line line' : List UInt8} (h : Utf8.EndedAs line line')
    {fault : Utf8.Fault} (hline : Utf8.decode line = .error fault) :
    ∃ fault', lineText line' = .error fault' := by
  rcases h with rfl | rfl
  · exact ⟨fault, by rw [lineText, hline]; rfl⟩
  · obtain ⟨fault', hdecode⟩ := Utf8.exists_decode_concat_newline hline
    exact ⟨fault', by rw [lineText, hdecode]; rfl⟩

namespace Progress

variable {σ : Type} {api : StatusApi σ}

/-! ## Progress but for skipped lines -/

/-- The events that were tracked, each with its effects. -/
def tracked (p : Progress σ) : List (Event × List Effect) :=
  p.entries.toList.filterMap fun
    | .tracked event effects => some (event, effects)
    | .note _ => none

/-- `p.Skips count p'`: the replay that came to `p'` differs from the one that came to `p` in that
it skipped so many lines more, and maybe in its notes. -/
structure Skips (count : Nat) (p p' : Progress σ) : Prop where
  roster : p'.roster = p.roster
  api : p'.api = p.api
  runs : p'.runs = p.runs
  summary : p'.summary = { p.summary with skipped := p.summary.skipped + count }
  tracked : p'.tracked = p.tracked

variable {count : Nat} {p p' : Progress σ}

theorem Skips.refl (p : Progress σ) : p.Skips 0 p := ⟨rfl, rfl, rfl, rfl, rfl⟩

/-- A line that holds no event is one more line that is skipped. -/
theorem Skips.malformed (h : p.Skips count p') (api : StatusApi σ) (number : Nat)
    (failure : Failure) : p.Skips (count + 1) (p'.takeLine api number (.malformed failure)) where
  roster := h.roster
  api := h.api
  runs := h.runs
  summary := by
    simp only [takeLine, h.summary]
    rfl
  tracked := by
    simpa [Progress.tracked, takeLine] using h.tracked

/-- A line skipped before an event stays skipped after it. -/
theorem Skips.track (h : p.Skips count p') (api : StatusApi σ) (event : Event) :
    (p.track api event).Skips count (p'.track api event) where
  roster := by simp only [Progress.track, h.roster, h.api]
  api := by simp only [Progress.track, h.roster, h.api]
  runs := h.runs
  summary := h.summary
  tracked := by
    have htracked := h.tracked
    simp only [Progress.tracked] at htracked
    simp [Progress.tracked, Progress.track, h.roster, h.api, htracked]

/-- Lines that mean the same are skipped or tracked alike. -/
theorem Skips.takeLine (h : p.Skips count p') (api : StatusApi σ) {m m' : LineMeaning}
    (hm : m.Alike m') (number number' : Nat) :
    (p.takeLine api number m).Skips count (p'.takeLine api number' m') := by
  cases hm with
  | malformed failure failure' =>
      refine ⟨h.roster, h.api, h.runs, ?_, ?_⟩
      · simp only [Progress.takeLine, h.summary, Nat.add_right_comm]
      · simpa [Progress.tracked, Progress.takeLine] using h.tracked
  | same =>
      cases m with
      | blank => exact h
      | malformed failure =>
          refine ⟨h.roster, h.api, h.runs, ?_, ?_⟩
          · simp only [Progress.takeLine, h.summary, Nat.add_right_comm]
          · simpa [Progress.tracked, Progress.takeLine] using h.tracked
      | unselected event =>
          exact ⟨h.roster, h.api, h.runs, by simp only [Progress.takeLine, h.summary], h.tracked⟩
      | event event =>
          have htrack := h.track api event
          refine ⟨htrack.roster, htrack.api, ?_, ?_, htrack.tracked⟩
          · exact congrArg (remember event) htrack.runs
          · simp only [Progress.takeLine, htrack.summary]

/-- A line skipped before a run is completed stays skipped after it. -/
theorem Skips.complete (h : p.Skips count p') (api : StatusApi σ) (seen : SeenRun) :
    (p.complete api seen).Skips count (p'.complete api seen) := by
  let noted (p : Progress σ) : Progress σ :=
    { p with entries := p.entries.push (.note (.completing seen.context.run)) }
  have hnoted : (noted p).Skips count (noted p') :=
    ⟨h.roster, h.api, h.runs, h.summary, by simpa [noted, Progress.tracked] using h.tracked⟩
  exact hnoted.track api _

/-- A line skipped before all runs are completed stays skipped after that. -/
theorem Skips.foldl_complete (h : p.Skips count p') (api : StatusApi σ) (runs : List SeenRun) :
    (runs.foldl (Progress.complete api) p).Skips count
      (runs.foldl (Progress.complete api) p') := by
  induction runs generalizing p p' with
  | nil => exact h
  | cons seen runs ih => exact ih (h.complete api seen)

/-- The end of a replay: the runs that were seen are completed if that is asked for. -/
def finish (api : StatusApi σ) (options : ReplayOptions) (p : Progress σ) : Progress σ :=
  if options.completesAtEnd then p.runs.foldl (Progress.complete api) p else p

/-- A line skipped before the end of the text stays skipped after the replay is finished. -/
theorem Skips.finish (h : p.Skips count p') (api : StatusApi σ) (options : ReplayOptions) :
    (p.finish api options).Skips count (p'.finish api options) := by
  unfold Progress.finish
  rw [h.runs]
  split
  · exact h.foldl_complete api p.runs
  · exact h

/-! ## Lines up to the first that is no text -/

variable (api) (options : ReplayOptions)

/-- Lines are taken into account after those in front of them. -/
theorem takeLines_append (number : Nat) (front back : List (Except Utf8.Fault (List Char)))
    (p : Progress σ) :
    takeLines api options number (front ++ back) p =
      match takeLines api options number front p with
      | (p', some fault) => (p', some fault)
      | (p', none) => takeLines api options (number + front.length) back p' := by
  induction front generalizing number p with
  | nil => rfl
  | cons line front ih =>
      cases line with
      | error fault => rfl
      | ok text =>
          have hnumber : number + (front.length + 1) = number + 1 + front.length := by omega
          rw [List.cons_append, takeLines, ih, List.length_cons, hnumber]
          rfl

/-- Lines that are all taken into account are those in front and then the others. -/
theorem exists_takeLines_of_append {number : Nat}
    {front back : List (Except Utf8.Fault (List Char))} {p q : Progress σ}
    (h : takeLines api options number (front ++ back) p = (q, none)) :
    ∃ p', takeLines api options number front p = (p', none) ∧
      takeLines api options (number + front.length) back p' = (q, none) := by
  rw [takeLines_append] at h
  split at h
  · cases h
  · next p' hfront => exact ⟨p', hfront, h⟩

/-- Lines one of which is no text are not all taken into account. -/
theorem exists_fault_of_takeLines (number : Nat) {lines : List (Except Utf8.Fault (List Char))}
    {fault : Utf8.Fault} (h : .error fault ∈ lines) (p : Progress σ) :
    ∃ p' fault', takeLines api options number lines p = (p', some fault') := by
  induction lines generalizing number p with
  | nil => cases h
  | cons line lines ih =>
      cases line with
      | error fault' => exact ⟨p, fault', rfl⟩
      | ok text => exact ih _ (by simpa using h) _

variable {api options}

/-- Lines that differ only in newlines at their ends are taken into account alike. -/
theorem Skips.takeLines {lines lines' : List (List UInt8)}
    (hlines : List.Forall₂ Utf8.EndedAs lines lines') (h : p.Skips count p') {number : Nat}
    {q : Progress σ} (htake : takeLines api options number (lines.map lineText) p = (q, none))
    (number' : Nat) :
    ∃ q', Progress.takeLines api options number' (lines'.map lineText) p' = (q', none) ∧
      q.Skips count q' := by
  induction hlines generalizing p p' number number' with
  | nil =>
      cases htake
      exact ⟨p', rfl, h⟩
  | @cons line line' lines lines' hline hlines ih =>
      cases htext : lineText line with
      | error fault =>
          rw [List.map_cons, htext] at htake
          cases htake
      | ok text =>
          obtain ⟨text', htext', halike⟩ := exists_lineText_of_endedAs options hline htext
          rw [List.map_cons, htext] at htake
          rw [List.map_cons, htext']
          exact ih (h.takeLine api halike number number') htake (number' + 1)

end Progress

/-! ## Replays -/

variable {σ : Type} {api : StatusApi σ} {options : ReplayOptions}

/-- A replay whose lines are all taken into account comes to its end. -/
theorem run_of_takeLines {input : List UInt8} {roster : Roster} {s : σ} {p : Progress σ}
    (h : Progress.takeLines api options 1 (Utf8.lines input) { roster, api := s } = (p, none)) :
    let summary := { p.summary with runs := p.runs.length }
    run api options input roster s =
      ⟨Progress.finish api options { p with summary }, .ok summary⟩ := by
  simp only [run, h]
  rfl

/-- A replay that comes to its end has taken all lines into account. -/
theorem exists_takeLines_of_run {input : List UInt8} {roster : Roster} {s : σ}
    {summary : ReplaySummary} (h : (run api options input roster s).result = .ok summary) :
    ∃ p, Progress.takeLines api options 1 (Utf8.lines input) { roster, api := s } = (p, none) ∧
      { p.summary with runs := p.runs.length } = summary := by
  unfold run at h
  split at h
  · cases h
  · next p htake => exact ⟨p, htake, Except.ok.inj h⟩

/-- A replay whose lines are not all taken into account fails. -/
theorem run_of_takeLines_fault {input : List UInt8} {roster : Roster} {s : σ} {p : Progress σ}
    {fault : Utf8.Fault}
    (h : Progress.takeLines api options 1 (Utf8.lines input) { roster, api := s } =
      (p, some fault)) : run api options input roster s = ⟨p, .error fault⟩ := by
  simp only [run, h]

/-- Bytes that could be a line, and are neither blank nor an event. -/
structure IsMalformed (line : List UInt8) : Prop where
  newline_not_mem : Utf8.newline ∉ line
  not_blank : ∀ text, Utf8.decode line = .ok text → isAllBlank text = false
  not_event : ∀ text, Utf8.decode line = .ok text → ∀ event, Event.ofLine text ≠ .ok event

/-- A malformed line is not empty. -/
theorem IsMalformed.ne_nil {line : List UInt8} (h : IsMalformed line) : line ≠ [] := by
  rintro rfl
  cases h.not_blank [] rfl

/-- Text that is neither blank nor an event is malformed. -/
theorem IsMalformed.exists_meaning {line : List UInt8} (h : IsMalformed line)
    (options : ReplayOptions) {text : List Char} (htext : Utf8.decode line = .ok text) :
    ∃ failure, meaning options text = .malformed failure := by
  unfold meaning
  rw [if_neg (by simp [h.not_blank text htext])]
  cases hline : Event.ofLine text with
  | error failure => exact ⟨failure, rfl⟩
  | ok event => exact absurd hline (h.not_event text htext event)

/-- A malformed line of text is skipped, and changes nothing else. -/
theorem exists_malformed_of_endedAs {line line' : List UInt8} (hline : IsMalformed line)
    (h : Utf8.EndedAs line line') {text : List Char} (htext : Utf8.decode line = .ok text)
    (options : ReplayOptions) :
    ∃ text', lineText line' = .ok text' ∧
      ∃ failure, meaning options text' = .malformed failure := by
  have hdrop : lineText line = .ok (Utf8.dropEnding text) := by
    rw [lineText, htext]
    rfl
  obtain ⟨text', htext', halike⟩ := exists_lineText_of_endedAs options h hdrop
  obtain ⟨failure, hmeaning⟩ := hline.exists_meaning options htext
  have halike := (meaning_dropEnding options text).symm.trans halike
  rw [hmeaning] at halike
  exact ⟨text', htext', halike.exists_malformed⟩

/-- A malformed line of text at a boundary between two lines costs one count and one warning. What
is tracked before and after it, and what comes of that, stays the same. -/
theorem run_inserts_text {line input input' : List UInt8} (hline : IsMalformed line)
    (hinserts : Utf8.Inserts line input input') {text : List Char}
    (htext : Utf8.decode line = .ok text) {roster : Roster} {s : σ} {summary : ReplaySummary}
    (hresult : (run api options input roster s).result = .ok summary) :
    let outcome := run api options input roster s
    let outcome' := run api options input' roster s
    outcome'.result = .ok { summary with skipped := summary.skipped + 1 } ∧
      outcome.progress.Skips 1 outcome'.progress := by
  intro outcome outcome'
  obtain ⟨front, front', own, back, hcut, hcut', hfront, hown⟩ :=
    hinserts.cutLines hline.newline_not_mem hline.ne_nil
  have hlines : Utf8.lines input = front.map lineText ++ back.map lineText := by
    rw [← List.map_append, ← hcut]
    rfl
  have hlines' : Utf8.lines input' = front'.map lineText ++ lineText own :: back.map lineText := by
    rw [← List.map_cons, ← List.map_append, ← hcut']
    rfl
  obtain ⟨q, htake, rfl⟩ := exists_takeLines_of_run hresult
  have hrun := run_of_takeLines htake
  rw [hlines] at htake
  obtain ⟨p, htakeFront, htakeBack⟩ := Progress.exists_takeLines_of_append api options htake
  -- the lines in front of the new one, then that line, then the lines behind it
  obtain ⟨p', htakeFront', hskips⟩ := (Progress.Skips.refl _).takeLines hfront htakeFront 1
  obtain ⟨text', htext', hmeaning⟩ := exists_malformed_of_endedAs hline hown htext options
  obtain ⟨failure, hmeaning⟩ := hmeaning
  obtain ⟨q', htakeBack', hskips⟩ := (hskips.malformed api (1 + front'.length) failure).takeLines
    (Utf8.forall₂_endedAs_refl back) htakeBack (1 + front'.length + 1)
  have htake' : Progress.takeLines api options 1 (Utf8.lines input') { roster, api := s } =
      (q', none) := by
    rw [hlines', Progress.takeLines_append, htakeFront', htext', ← htakeBack', ← hmeaning,
      List.length_map]
    rfl
  have hrun' := run_of_takeLines htake'
  have hruns := hskips.runs
  have hsummary : ({ q'.summary with runs := q'.runs.length } : ReplaySummary) =
      { q.summary with runs := q.runs.length, skipped := q.summary.skipped + 1 } := by
    rw [hskips.summary, hruns]
  have hnoted : Progress.Skips 1 { q with summary := { q.summary with runs := q.runs.length } }
      { q' with summary := { q'.summary with runs := q'.runs.length } } :=
    ⟨hskips.roster, hskips.api, hruns, hsummary, hskips.tracked⟩
  simp only [outcome, outcome', hrun, hrun']
  exact ⟨congrArg _ hsummary, hnoted.finish api options⟩

/-- A line that is no text ends a replay. -/
theorem run_inserts_bytes {line input input' : List UInt8} (hline : IsMalformed line)
    (hinserts : Utf8.Inserts line input input') {fault : Utf8.Fault}
    (hfault : Utf8.decode line = .error fault) (roster : Roster) (s : σ) :
    ∃ fault', (run api options input' roster s).result = .error fault' := by
  obtain ⟨front, front', own, back, -, hcut, -, hown⟩ :=
    hinserts.cutLines hline.newline_not_mem hline.ne_nil
  obtain ⟨fault', hown⟩ := exists_fault_of_endedAs hown hfault
  have hmem : .error fault' ∈ Utf8.lines input' := by
    have hlines : Utf8.lines input' = (front' ++ own :: back).map lineText := by
      rw [← hcut]
      rfl
    simp [hlines, hown]
  obtain ⟨p, fault'', htake⟩ :=
    Progress.exists_fault_of_takeLines api options 1 hmem { roster, api := s }
  exact ⟨fault'', by rw [run_of_takeLines_fault htake]⟩

/-- One more line that holds no event and is not blank: if it is text, a replay that came to its end
comes to the same end, having skipped one line more, and if it is no text, the replay fails. -/
theorem run_inserts {line input input' : List UInt8} (hline : IsMalformed line)
    (hinserts : Utf8.Inserts line input input') (api : StatusApi σ) (options : ReplayOptions)
    (roster : Roster) (s : σ) :
    let outcome := run api options input roster s
    let outcome' := run api options input' roster s
    (∀ text, Utf8.decode line = .ok text → ∀ summary, outcome.result = .ok summary →
      outcome'.result = .ok { summary with skipped := summary.skipped + 1 } ∧
      outcome'.progress.tracked = outcome.progress.tracked ∧
      outcome'.progress.api = outcome.progress.api ∧
      outcome'.progress.roster = outcome.progress.roster) ∧
    ∀ fault, Utf8.decode line = .error fault → ∃ fault', outcome'.result = .error fault' := by
  refine ⟨fun text htext summary hresult => ?_, fun fault hfault =>
    run_inserts_bytes hline hinserts hfault roster s⟩
  obtain ⟨hresult', hskips⟩ := run_inserts_text hline hinserts htext hresult
  exact ⟨hresult', hskips.tracked, hskips.api, hskips.roster⟩

/-- A replay of the start of a stream. -/
theorem run_start :
    (run Sample.granting {} (Utf8.encode ((Sample.event .source .started).toLine ++ ['\n'])) {}
      ()).result = .ok { events := 1, runs := 1 } := by
  decide +kernel

/-- An object that breaks off, put in front of the start of a stream, is skipped. -/
theorem run_inserts_of_orders :
    let start := Utf8.encode ((Sample.event .source .started).toLine ++ ['\n'])
    let line : List UInt8 := [0x7b]
    let outcome := run Sample.granting {} start {} ()
    let outcome' := run Sample.granting {} (line ++ [Utf8.newline] ++ start) {} ()
    IsMalformed line ∧ Utf8.Inserts line start (line ++ [Utf8.newline] ++ start) ∧
      outcome.result = .ok { events := 1, runs := 1 } ∧
      outcome'.result = .ok { events := 1, skipped := 1, runs := 1 } ∧
      outcome'.progress.tracked = outcome.progress.tracked ∧
      outcome'.progress.roster = outcome.progress.roster := by
  intro start line outcome outcome'
  have hdecode : Utf8.decode line = .ok ['{'] := rfl
  have hevent : Event.ofLine ['{'] = .error (.ofFault .endsInObject) := rfl
  have hline : IsMalformed line := by
    refine ⟨by decide, fun text h => ?_, fun text h event => ?_⟩
    · cases hdecode.symm.trans h
      rfl
    · cases hdecode.symm.trans h
      simp [hevent]
  have hinserts : Utf8.Inserts line start (line ++ [Utf8.newline] ++ start) :=
    @Utf8.Inserts.before line [] (Or.inl rfl) start
  obtain ⟨htext, -⟩ := run_inserts hline hinserts Sample.granting {} {} ()
  have hresult := run_start
  dsimp only [outcome, outcome'] at htext ⊢
  generalize run Sample.granting {} start {} () = first at *
  generalize run Sample.granting {} (line ++ [Utf8.newline] ++ start) {} () = second at *
  obtain ⟨hresult', htracked, -, hroster⟩ := htext _ hdecode _ hresult
  exact ⟨hline, hinserts, hresult, hresult', htracked, hroster⟩

/-- A line that is neither blank nor an event is not always skipped. -/
theorem not_run_inserts_skips :
    ¬ ∀ {σ : Type} (api : StatusApi σ) (options : ReplayOptions) (line input input' : List UInt8)
        (roster : Roster) (s : σ) (summary : ReplaySummary),
      IsMalformed line → Utf8.Inserts line input input' →
      (run api options input roster s).result = .ok summary →
      (run api options input' roster s).result =
          .ok { summary with skipped := summary.skipped + 1 } ∧
        (run api options input' roster s).progress.tracked =
          (run api options input roster s).progress.tracked ∧
        (run api options input' roster s).progress.api =
          (run api options input roster s).progress.api ∧
        (run api options input' roster s).progress.roster =
          (run api options input roster s).progress.roster := by
  intro h
  let start := Utf8.encode ((Sample.event .source .started).toLine ++ ['\n'])
  let line : List UInt8 := [0xff, 0xfe]
  have hdecode : Utf8.decode line = .error (.invalid 1 0) := rfl
  have hline : IsMalformed line :=
    ⟨by decide, fun text h => (by cases hdecode.symm.trans h),
      fun text h => (by cases hdecode.symm.trans h)⟩
  have hinserts : Utf8.Inserts line start (start ++ line) :=
    .last (Or.inr ⟨_, Utf8.encode_concat _ _⟩)
  obtain ⟨hresult, -⟩ := h Sample.granting {} line start (start ++ line) {} () _ hline hinserts
    run_start
  obtain ⟨fault, hfault⟩ := run_inserts_bytes hline hinserts hdecode {} ()
  cases hresult.symm.trans hfault

end StreamWatch.Replay
