import StreamWatch.Proofs.Roster.Step

/-!
# How a watched stream takes reports

`StreamState.Takes` lists every way in which a watched stream may take a connector's report. What
opening a stream establishes and each of these ways keeps, every move keeps of all watched streams:
`Roster.AllWatched.perform`.
-/

namespace StreamWatch

/-! ## The sides of a stream -/

/-- A terminal side keeps its status. -/
theorem SideStatus.hear_of_isTerminal {current : SideStatus} (h : current.isTerminal)
    (status : SideStatus) : status.hear (some current) = some current :=
  if_pos h

/-- A terminal status that a side holds was held before or has just been heard. -/
theorem SideStatus.of_hear_eq_some {status held : SideStatus} {before : Option SideStatus}
    (h : status.hear before = some held) : before = some held ∨ status = held := by
  unfold hear at h
  split at h
  · split at h
    · exact Or.inl h
    · exact Or.inr (Option.some.inj h)
  · exact Or.inr (Option.some.inj h)

namespace StreamState

/-- What an origin last said; internal reports belong to no side. -/
def side (s : StreamState) : Origin → Option SideStatus
  | .source => s.source
  | .destination => s.destination
  | .internal => none

/-- At least one side is incomplete. -/
def HasIncomplete (s : StreamState) : Prop :=
  ∃ origin cause, s.side origin = some (.incomplete cause)

/-- A stream is complete when both sides are. -/
theorem isComplete_iff {s : StreamState} :
    s.isComplete ↔ ∀ origin, origin ≠ .internal → s.side origin = some .complete := by
  simp only [isComplete, Bool.and_eq_true, decide_eq_true_eq]
  constructor
  · rintro ⟨hs, hd⟩ origin ho
    cases origin with
    | source => exact hs
    | destination => exact hd
    | internal => exact absurd rfl ho
  · exact fun h => ⟨h .source (by decide), h .destination (by decide)⟩

/-- A stream is terminated when both sides have a terminal status. -/
theorem isTerminated_iff {s : StreamState} :
    s.isTerminated ↔
      ∀ origin, origin ≠ .internal → ∃ x, s.side origin = some x ∧ x.isTerminal := by
  simp only [isTerminated, Bool.and_eq_true, Option.any_eq_true]
  constructor
  · rintro ⟨hs, hd⟩ origin ho
    cases origin with
    | source => exact hs
    | destination => exact hd
    | internal => exact absurd rfl ho
  · exact fun h => ⟨h .source (by decide), h .destination (by decide)⟩

/-- A stream that is complete is terminated. -/
theorem isTerminated_of_isComplete {s : StreamState} (h : s.isComplete) : s.isTerminated :=
  isTerminated_iff.mpr fun origin ho => ⟨.complete, isComplete_iff.mp h origin ho, rfl⟩

/-! ### Hearing -/

/-- Closing a stream leaves its sides. -/
@[simp] theorem side_closed (s : StreamState) (runState : RunState) (time : Int64)
    (origin : Origin) : (s.closed runState time).side origin = s.side origin := by
  cases origin <;> rfl

@[simp] theorem side_resumed (s : StreamState) (limit? : Option RateLimit) (time : Int64)
    (origin : Origin) : (s.resumed limit? time).side origin = s.side origin := by
  cases origin <;> rfl

/-- Closing a stream does not change whether a side failed. -/
@[simp] theorem hasIncomplete_closed (s : StreamState) (runState : RunState) (time : Int64) :
    (s.closed runState time).HasIncomplete ↔ s.HasIncomplete := by
  simp [HasIncomplete]

@[simp] theorem hasIncomplete_resumed (s : StreamState) (limit? : Option RateLimit)
    (time : Int64) : (s.resumed limit? time).HasIncomplete ↔ s.HasIncomplete := by
  simp [HasIncomplete]

@[simp] theorem hear_id? (s : StreamState) (origin : Origin) (x : SideStatus) :
    (s.hear origin x).id? = s.id? := by
  cases origin <;> rfl

@[simp] theorem hear_jobKind (s : StreamState) (origin : Origin) (x : SideStatus) :
    (s.hear origin x).jobKind = s.jobKind := by
  cases origin <;> rfl

@[simp] theorem hear_runState (s : StreamState) (origin : Origin) (x : SideStatus) :
    (s.hear origin x).runState = s.runState := by
  cases origin <;> rfl

@[simp] theorem hear_limit? (s : StreamState) (origin : Origin) (x : SideStatus) :
    (s.hear origin x).limit? = s.limit? := by
  cases origin <;> rfl

@[simp] theorem hear_ended (s : StreamState) (origin : Origin) (x : SideStatus) :
    (s.hear origin x).ended = s.ended := by
  cases origin <;> rfl

/-- The side that reports hears the report. -/
theorem side_hear_self (s : StreamState) {origin : Origin} (h : origin ≠ .internal)
    (x : SideStatus) : (s.hear origin x).side origin = x.hear (s.side origin) := by
  cases origin with
  | source => rfl
  | destination => rfl
  | internal => exact absurd rfl h

/-- The other side does not. -/
theorem side_hear_of_ne (s : StreamState) {origin other : Origin} (h : origin ≠ other)
    (x : SideStatus) : (s.hear origin x).side other = s.side other := by
  cases origin <;> cases other <;> first | rfl | exact absurd rfl h

/-- Terminal sides stay. -/
theorem side_hear_of_isTerminal {s : StreamState} {other : Origin} {y : SideStatus}
    (h : s.side other = some y) (hy : y.isTerminal) (origin : Origin) (x : SideStatus) :
    (s.hear origin x).side other = some y := by
  by_cases hne : origin = other
  · subst hne
    have hi : origin ≠ .internal := by
      rintro rfl
      cases h
    rw [side_hear_self s hi, h]
    exact SideStatus.hear_of_isTerminal hy x
  · rw [side_hear_of_ne s hne, h]

/-- Hearing a status changes nothing exactly if the side is through or said so before. -/
theorem hear_eq_self_iff {s : StreamState} {origin : Origin} (h : origin ≠ .internal)
    (x : SideStatus) :
    s.hear origin x = s ↔ ∃ y, s.side origin = some y ∧ (y.isTerminal ∨ y = x) := by
  have hself : s.hear origin x = s ↔ x.hear (s.side origin) = s.side origin := by
    constructor
    · intro heq
      rw [← side_hear_self s h, heq]
    · intro heq
      cases origin with
      | source => exact congrArg (fun y => { s with source := y }) heq
      | destination => exact congrArg (fun y => { s with destination := y }) heq
      | internal => exact absurd rfl h
  rw [hself]
  cases s.side origin with
  | none => simp [SideStatus.hear]
  | some y =>
      by_cases hy : y.isTerminal
      · simp [SideStatus.hear, hy]
      · simp only [SideStatus.hear, hy, if_false, Option.some.injEq, exists_eq_left', false_or,
          Bool.false_eq_true]
        exact eq_comm

/-- A report changes the state exactly if it says so. -/
theorem changes_iff (s : StreamState) (origin : Origin) (status : SideStatus) :
    s.changes origin status ↔ s.hear origin status ≠ s := by
  have hside (current? : Option SideStatus) :
      status.changes current? = true ↔ ¬ ∃ y, current? = some y ∧ (y.isTerminal ∨ y = status) := by
    cases current? with
    | none => simp [SideStatus.changes]
    | some current => simp [SideStatus.changes]
  have hsource : Origin.source ≠ .internal := by decide
  have hdestination : Origin.destination ≠ .internal := by decide
  cases origin with
  | source => exact (hside s.source).trans (hear_eq_self_iff hsource status).not.symm
  | destination => exact (hside s.destination).trans (hear_eq_self_iff hdestination status).not.symm
  | internal => simp [changes, hear]

/-- What a side holds it held before or has just heard. -/
theorem of_side_hear_eq_some {s : StreamState} {origin other : Origin} {x y : SideStatus}
    (h : (s.hear origin x).side other = some y) : s.side other = some y ∨ x = y := by
  by_cases hne : origin = other
  · subst hne
    have hi : origin ≠ .internal := by
      rintro rfl
      cases h
    rw [side_hear_self s hi] at h
    exact SideStatus.of_hear_eq_some h
  · rw [side_hear_of_ne s hne] at h
    exact Or.inl h

/-- A stream that is complete stays so, since terminal statuses are kept. -/
theorem isComplete_hear {s : StreamState} (h : s.isComplete) (origin : Origin) (x : SideStatus) :
    (s.hear origin x).isComplete :=
  isComplete_iff.mpr fun other ho =>
    side_hear_of_isTerminal (isComplete_iff.mp h other ho) rfl origin x

/-- A side that failed has failed for good. -/
theorem HasIncomplete.hear {s : StreamState} (h : s.HasIncomplete) (origin : Origin)
    (x : SideStatus) : (s.hear origin x).HasIncomplete := by
  obtain ⟨other, cause, hside⟩ := h
  exact ⟨other, cause, side_hear_of_isTerminal hside rfl origin x⟩

/-- A side fails only by what it reports. -/
theorem HasIncomplete.of_hear {s : StreamState} {origin : Origin} {x : SideStatus}
    (h : (s.hear origin x).HasIncomplete) : s.HasIncomplete ∨ ∃ cause, x = .incomplete cause := by
  obtain ⟨other, cause, hside⟩ := h
  rcases of_side_hear_eq_some hside with h | h
  · exact Or.inl ⟨other, cause, h⟩
  · exact Or.inr ⟨cause, h⟩

/-- A side that is incomplete and one that is complete do not make a complete stream. -/
theorem HasIncomplete.not_isComplete {s : StreamState} (h : s.HasIncomplete) : ¬ s.isComplete := by
  obtain ⟨origin, cause, hside⟩ := h
  intro hc
  have hi : origin ≠ .internal := by
    rintro rfl
    cases hside
  rw [isComplete_iff.mp hc origin hi] at hside
  cases hside

end StreamState

/-- A stream runs on as it was exactly if it ran in this way since this time. -/
theorem StreamState.resumed_eq_self_iff (s : StreamState) (limit? : Option RateLimit)
    (time : Int64) :
    s.resumed limit? time = s ↔
      s.runState = (if limit?.isSome then .rateLimited else .running) ∧ s.limit? = limit? ∧
        s.changedAt = time := by
  obtain ⟨source, destination, id?, jobKind, runState, changedAt, limit, ended⟩ := s
  simp only [resumed, mk.injEq, true_and, and_true]
  exact ⟨fun ⟨hrun, htime, hlimit⟩ => ⟨hrun.symm, hlimit.symm, htime.symm⟩,
    fun ⟨hrun, hlimit, htime⟩ => ⟨hrun.symm, htime.symm, hlimit.symm⟩⟩

/-! ## The ways of taking a report -/

/-- What the side of the event hears. -/
def Event.side (e : Event) : SideStatus :=
  match e.status with
  | .started => .started
  | .running => .running
  | .complete => .complete
  | .incomplete => .incomplete e.cause

/-- Whether a running report only repeats the last transition of the stream, which says so of the
limit as well if the report is about one. -/
def StreamState.repeats (s : StreamState) (e : Event) : Bool :=
  match e.message.limit? with
  | some limit => s.repeatsLimit e.origin limit e.time
  | none => s.repeatsRunning e.origin e.time

/-- `s.Takes key e m`: the stream `key`, watched in state `s`, takes the report `e` by the move
`m`. -/
inductive StreamState.Takes (s : StreamState) (key : StreamKey) (e : Event) : Move → Prop
  /-- It started before. -/
  | again : e.status = .started → Takes s key e ⟨some s, .keep, .note (.alreadyStarted key)⟩
  /-- Its end was reported before. -/
  | late {notice : Notice} : e.status ≠ .started → s.ended →
      Takes s key e ⟨some (s.hear e.origin e.side), .keep, .note notice⟩
  /-- One side has completed. -/
  | half : e.status = .complete → ¬ s.ended → ¬ (s.hear e.origin e.side).isComplete →
      Takes s key e ⟨some (s.hear e.origin e.side), .keep, .note (.halfComplete key e.origin)⟩
  /-- It runs, which is a repetition and not reported again. -/
  | repeated {next : StreamState} {change : LimitChange} {notice : Notice} :
      e.status = .running → ¬ s.ended → s.repeats e →
      change = (if e.message.limit?.isSome then .enter else .leave) →
      next = (s.hear e.origin e.side).resumed e.message.limit? e.time →
      Takes s key e ⟨some next, change, .note notice⟩
  /-- It runs, and something about that is new. -/
  | resumed {next : StreamState} {change : LimitChange} :
      e.status = .running → ¬ s.ended → ¬ s.repeats e →
      change = (if e.message.limit?.isSome then .enter else .leave) →
      next = (s.hear e.origin e.side).resumed e.message.limit? e.time →
      Takes s key e ⟨some next, change, .report next none⟩
  /-- Both sides have completed. -/
  | completed {next : StreamState} : e.status = .complete → ¬ s.ended →
      (s.hear e.origin e.side).isComplete →
      next = (s.hear e.origin e.side).closed .complete e.time →
      Takes s key e ⟨some next, .leave, .report next none⟩
  /-- It is the first end of the stream that a side reports, and not a good one. -/
  | failed {next : StreamState} : e.status = .incomplete → ¬ s.ended →
      next = (s.hear e.origin e.side).closed .incomplete e.time →
      Takes s key e ⟨some next, .leave, .report next (some e.cause)⟩

/-- A watched stream takes a report in one of these ways. -/
theorem Move.ofReport_takes (key : StreamKey) (e : Event) (s : StreamState) :
    s.Takes key e (Move.ofReport key e (some s)) := by
  unfold Move.ofReport
  have hside : e.side = match e.status with
    | .started => .started
    | .running => .running
    | .complete => .complete
    | .incomplete => .incomplete e.cause := rfl
  cases hstatus : e.status with
  | started => exact .again hstatus
  | running =>
      simp only [hstatus] at hside
      simp only [Move.ofRunning, ← hside, StreamState.hear_ended]
      by_cases hended : s.ended
      · rw [if_pos hended]
        exact .late (by simp [hstatus]) hended
      · rw [if_neg hended]
        -- with a limit or without one, a report is new unless it is a repetition
        cases hlimit : e.message.limit? with
        | none =>
            have hrepeats : s.repeats e = s.repeatsRunning e.origin e.time := by
              rw [StreamState.repeats, hlimit]
            dsimp only
            rw [← hrepeats]
            split
            · next h => exact .repeated hstatus hended h (by simp [hlimit]) (by rw [hlimit])
            · next h => exact .resumed hstatus hended h (by simp [hlimit]) (by rw [hlimit])
        | some limit =>
            have hrepeats : s.repeats e = s.repeatsLimit e.origin limit e.time := by
              rw [StreamState.repeats, hlimit]
            dsimp only
            rw [← hrepeats]
            split
            · next h => exact .repeated hstatus hended h (by simp [hlimit]) (by rw [hlimit])
            · next h => exact .resumed hstatus hended h (by simp [hlimit]) (by rw [hlimit])
  | complete =>
      simp only [hstatus] at hside
      simp only [Move.ofComplete, ← hside, StreamState.hear_ended]
      by_cases hended : s.ended
      · rw [if_pos hended]
        exact .late (by simp [hstatus]) hended
      · rw [if_neg hended]
        by_cases hboth : (s.hear e.origin e.side).isComplete
        · rw [if_neg (by simp [hboth])]
          exact .completed hstatus hended hboth rfl
        · rw [if_pos (by simp [hboth])]
          exact .half hstatus hended hboth
  | incomplete =>
      simp only [hstatus] at hside
      simp only [Move.ofIncomplete, ← hside, StreamState.hear_ended]
      by_cases hended : s.ended
      · rw [if_pos hended]
        exact .late (by simp [hstatus]) hended
      · rw [if_neg hended]
        exact .failed hstatus hended rfl

namespace StreamState.Takes

variable {s : StreamState} {key : StreamKey} {e : Event} {m : Move}

/-- A watched stream that takes a report stays watched, as the same record for the same job. -/
theorem exists_next (h : s.Takes key e m) :
    ∃ next, m.next = some next ∧ next.id? = s.id? ∧ next.jobKind = s.jobKind := by
  cases h with
  | again => exact ⟨_, rfl, rfl, rfl⟩
  | late => exact ⟨_, rfl, by simp, by simp⟩
  | half => exact ⟨_, rfl, by simp, by simp⟩
  | repeated _ _ _ _ hnext | resumed _ _ _ _ hnext =>
      exact ⟨_, rfl, by simp [hnext, StreamState.resumed], by simp [hnext, StreamState.resumed]⟩
  | completed _ _ _ hnext =>
      exact ⟨_, rfl, by simp [hnext, StreamState.closed], by simp [hnext, StreamState.closed]⟩
  | failed _ _ hnext =>
      exact ⟨_, rfl, by simp [hnext, StreamState.closed], by simp [hnext, StreamState.closed]⟩

/-- What is remembered does not depend on any answer. -/
theorem settled (h : s.Takes key e m) (answer : Answer) : m.settled answer = m.next := by
  cases h <;> rfl

/-- Whatever is answered, the move leaves its next state. -/
theorem eq_next {σ : Type} {api : StatusApi σ} {next : Option StreamState} {calls : List Call}
    (h : s.Takes key e m) (hy : m.Yields api key next calls) : next = m.next := by
  cases hy with
  | silent => rfl
  | call => exact h.settled _

/-- A stream whose end was reported is left alone by a started report, and otherwise hears its
side. -/
theorem of_ended (h : s.Takes key e m) (hended : s.ended) :
    ∃ notice, e.status = .started ∧ m = ⟨some s, .keep, .note notice⟩ ∨
      e.status ≠ .started ∧ m = ⟨some (s.hear e.origin e.side), .keep, .note notice⟩ := by
  cases h with
  | again hstatus => exact ⟨_, Or.inl ⟨hstatus, rfl⟩⟩
  | late hstatus => exact ⟨_, Or.inr ⟨hstatus, rfl⟩⟩
  | half _ hnot => exact absurd hended hnot
  | repeated _ hnot => exact absurd hended hnot
  | resumed _ hnot => exact absurd hended hnot
  | completed _ hnot => exact absurd hended hnot
  | failed _ hnot => exact absurd hended hnot

end StreamState.Takes

/-- A stream that is not watched is opened by a started report, and by no other. -/
theorem Move.ofReport_none (key : StreamKey) (e : Event) :
    e.status = .started ∧ Move.ofReport key e none =
      ⟨some (StreamState.opened e), .keep, .create (StreamState.opened e)⟩ ∨
    e.status ≠ .started ∧ ∃ notice, Move.ofReport key e none = ⟨none, .keep, .note notice⟩ := by
  cases hstatus : e.status with
  | started => exact Or.inl ⟨rfl, by rw [Move.ofReport, hstatus]⟩
  | _ => exact Or.inr ⟨by decide, _, by rw [Move.ofReport, hstatus]⟩

/-- `e.Does key state? m`: the event `e` moves the stream `key`, known as `state?`, in one of these
ways. -/
inductive Event.Does (e : Event) (key : StreamKey) : Option StreamState → Move → Prop
  /-- It opens a stream that is not watched. -/
  | opens : e.Opens key →
      Does e key none ⟨some (StreamState.opened e), .keep, .create (StreamState.opened e)⟩
  /-- It finds no stream to move. -/
  | misses {change : LimitChange} {notice : Notice} : change ≠ .enter →
      Does e key none ⟨none, change, .note notice⟩
  /-- A watched stream takes its report. -/
  | reports {s : StreamState} {m : Move} : e.Reports key → s.Takes key e m → Does e key (some s) m
  /-- It drops a stream whose end was reported before. -/
  | drops {s : StreamState} {notice : Notice} : e.Clears key → s.ended →
      Does e key (some s) ⟨none, .leave, .note notice⟩
  /-- It ends a stream, and drops it. -/
  | ends {s : StreamState} {runState : RunState} {cause? : Option Cause} : e.Clears key →
      ¬ s.ended → runState.isTerminal →
      Does e key (some s) ⟨none, .leave, .report (s.closed runState e.time) cause?⟩

/-- An event moves streams in no other way. -/
theorem Event.Makes.does {e : Event} {key : StreamKey} {state? : Option StreamState} {m : Move}
    (h : e.Makes key state? m) : e.Does key state? m := by
  cases h with
  | report hreports =>
      cases state? with
      | none =>
          rcases Move.ofReport_none key e with ⟨hstarted, hm⟩ | ⟨-, notice, hm⟩
          · rw [hm]
            exact .opens ⟨hreports, hstarted⟩
          · rw [hm]
            exact .misses (by decide)
      | some state => exact .reports hreports (Move.ofReport_takes key e state)
  | clearing hclears hend =>
      unfold Move.ofClearing
      split
      · exact .misses (by decide)
      · split
        · next hended => exact .drops hclears hended
        · next hended => exact .ends hclears hended (isTerminal_of_ending? hend)

/-! ## Runs -/

namespace Roster

variable {σ : Type} (api : StatusApi σ)

/-- An event opens a stream that is not watched by one call for a record, or leaves it alone. -/
theorem track_unwatched {key : StreamKey} {r : Roster} (h : r.streams.get? key = none)
    (event : Event) (s : σ) :
    (event.Opens key ∧ ∃ call,
      call.request = .create ((StreamState.opened event).report key none) ∧
      (r.track api event s).roster.streams.get? key =
        some { StreamState.opened event with id? := call.id? } ∧
      callsAbout key (r.track api event s).effects = [call]) ∨
    (¬ event.Opens key ∧ (r.track api event s).roster.streams.get? key = none ∧
      callsAbout key (r.track api event s).effects = []) := by
  rcases track_seen_from api key event r s with ⟨m, hmakes, hy⟩ | ⟨hreports, -, hsame, hcalls⟩
  · rw [h] at hmakes
    cases hmakes with
    | clearing hclears =>
        obtain ⟨hnext, ⟨hcalls, -⟩ | ⟨state, -, -, hstate, -⟩⟩ := clearing_yields hy
        · exact Or.inr ⟨fun ho => ho.1.not_clears hclears, hnext, hcalls⟩
        · cases hstate
    | report hreports =>
        rcases Move.ofReport_none key event with ⟨hstarted, hm⟩ | ⟨hstarted, notice, hm⟩
        · rw [hm] at hy
          have hid : (StreamState.opened event).id? = none := by
            rw [StreamState.opened, StreamState.hear_id?]
          obtain ⟨call, hrequest, hcalls, hnext⟩ := hy.of_create rfl hid
          exact Or.inl ⟨⟨hreports, hstarted⟩, call, hrequest, hnext, hcalls⟩
        · rw [hm] at hy
          obtain ⟨hnext, hcalls⟩ := hy.of_note rfl
          exact Or.inr ⟨fun ho => hstarted ho.2, hnext, hcalls⟩
  · exact Or.inr ⟨fun ho => hreports ho.1, hsame.trans h, hcalls⟩

/-- A watched stream takes a report, is cleared, or is left alone. -/
theorem track_watched {key : StreamKey} {r : Roster} {state : StreamState}
    (h : r.streams.get? key = some state) (event : Event) (s : σ) :
    (event.Reports key ∧ ∃ m, state.Takes key event m ∧
      m.Yields api key ((r.track api event s).roster.streams.get? key)
        (callsAbout key (r.track api event s).effects)) ∨
    (event.Clears key ∧ ∃ runState cause?, event.ending? = some (runState, cause?) ∧
      (Move.ofClearing key runState cause? event.time (some state)).Yields api key
        ((r.track api event s).roster.streams.get? key)
        (callsAbout key (r.track api event s).effects)) ∨
    (¬ event.Reports key ∧ ¬ event.Clears key ∧
      (r.track api event s).roster.streams.get? key = some state ∧
      callsAbout key (r.track api event s).effects = []) := by
  rcases track_seen_from api key event r s with ⟨m, hmakes, hy⟩ | ⟨hreports, hclears, hsame, hcalls⟩
  · rw [h] at hmakes
    cases hmakes with
    | report hreports =>
        exact Or.inl ⟨hreports, _, Move.ofReport_takes key event state, hy⟩
    | clearing hclears hend => exact Or.inr (Or.inl ⟨hclears, _, _, hend, hy⟩)
  · exact Or.inr (Or.inr ⟨hreports, hclears, hsame.trans h, hcalls⟩)

/-- How a stream comes to be watched in its state: the event left it alone, opened it, or was a
report that it took. -/
theorem track_watched_cases {key : StreamKey} {event : Event} {r : Roster} {s : σ}
    {next : StreamState} (h : (r.track api event s).roster.streams.get? key = some next) :
    (¬ event.Reports key ∧ ¬ event.Clears key ∧ r.streams.get? key = some next) ∨
    (event.Opens key ∧ r.streams.get? key = none ∧
      ∃ id?, next = { StreamState.opened event with id? }) ∨
    (event.Reports key ∧ ∃ state m, r.streams.get? key = some state ∧ state.Takes key event m ∧
      m.next = some next) := by
  cases hbefore : r.streams.get? key with
  | none =>
      rcases track_unwatched api hbefore event s with ⟨hopens, call, -, hnext, -⟩ | ⟨-, hnext, -⟩
      · rw [h] at hnext
        exact Or.inr (Or.inl ⟨hopens, rfl, call.id?, Option.some.inj hnext⟩)
      · rw [h] at hnext
        cases hnext
  | some state =>
      rcases track_watched api hbefore event s with ⟨hreports, m, htakes, hy⟩ |
        ⟨-, _, _, -, hy⟩ | ⟨hreports, hclears, hnext, -⟩
      · rw [h] at hy
        exact Or.inr (Or.inr ⟨hreports, state, m, rfl, htakes, (htakes.eq_next hy).symm⟩)
      · rw [h] at hy
        cases (clearing_yields hy).1
      · rw [h] at hnext
        exact Or.inl ⟨hreports, hclears, hnext.symm⟩

/-- `r.AllWatched P`: every stream watched by `r` is in a state with `P`. -/
def AllWatched (P : StreamState → Prop) (r : Roster) : Prop :=
  ∀ key state, r.streams.get? key = some state → P state

/-- What opening a stream establishes and taking a report keeps, every move keeps of all watched
streams. -/
theorem AllWatched.perform {P : StreamState → Prop}
    (opened : ∀ (event : Event) id?, event.origin ≠ .internal →
      P { StreamState.opened event with id? })
    (takes : ∀ (state : StreamState) key (event : Event) m next, event.origin ≠ .internal →
      P state → state.Takes key event m → m.next = some next → P next)
    {r : Roster} (h : r.AllWatched P) {event : Event} {key : StreamKey} {m : Move}
    (hm : event.Makes key (r.streams.get? key) m) (s : σ) :
    (r.perform api key m s).roster.AllWatched P := by
  intro other state hstate
  by_cases hne : key = other
  · subst hne
    have hy := perform_yields api r key m s
    rw [hstate] at hy
    generalize hbefore : r.streams.get? key = before? at hm
    cases hm.does with
    | opens hopens =>
        have hid : (StreamState.opened event).id? = none := by
          rw [StreamState.opened, StreamState.hear_id?]
        obtain ⟨call, -, -, hnext⟩ := hy.of_create rfl hid
        cases hnext
        exact opened event call.id? hopens.1.1
    | reports hreports htakes =>
        exact takes _ key event m state hreports.1 (h key _ hbefore) htakes (htakes.eq_next hy).symm
    | misses | drops => cases (hy.of_note rfl).1
    | ends => cases (hy.of_report rfl).1
  · rw [(perform_of_ne api hne r m s).1] at hstate
    exact h other state hstate

end Roster

end StreamWatch
