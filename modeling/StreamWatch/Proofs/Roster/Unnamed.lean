import StreamWatch.Proofs.Roster.Honest

/-!
# Streams but for their identifiers

What a stream does next depends on the identifier of its record in one way only: without a record
there is nothing to update. So two runs that know the same of a stream but for the identifier make
the same move of it but for the identifier, which is `Event.Makes.withId`, and go on knowing the
same.
-/

namespace StreamWatch

/-! ## States -/

namespace StreamState

/-- The state under another identifier, or under none. -/
def withId (s : StreamState) (id? : Option Uuid) : StreamState := { s with id? }

/-- The state but for its identifier. -/
def unnamed (s : StreamState) : StreamState := s.withId none

section WithId

variable (s : StreamState) (x : Option Uuid)

@[simp] theorem withId_id? : (s.withId x).id? = x := rfl

@[simp] theorem withId_self : s.withId s.id? = s := rfl

@[simp] theorem withId_withId (y : Option Uuid) : (s.withId x).withId y = s.withId y := rfl

@[simp] theorem withId_runState : (s.withId x).runState = s.runState := rfl

@[simp] theorem withId_ended : (s.withId x).ended = s.ended := rfl

@[simp] theorem withId_isComplete : (s.withId x).isComplete = s.isComplete := rfl

@[simp] theorem unnamed_withId : (s.withId x).unnamed = s.unnamed := rfl

/-- What a side reports is heard without regard to the identifier. -/
@[simp] theorem hear_withId (origin : Origin) (status : SideStatus) :
    (s.withId x).hear origin status = (s.hear origin status).withId x := by
  cases origin <;> rfl

@[simp] theorem resumed_withId (limit? : Option RateLimit) (time : Int64) :
    (s.withId x).resumed limit? time = (s.resumed limit? time).withId x := rfl

/-- Whether a report repeats the last one does not depend on the identifier. -/
@[simp] theorem repeatsRunning_withId (origin : Origin) (time : Int64) :
    (s.withId x).repeatsRunning origin time = s.repeatsRunning origin time := by
  cases origin <;> rfl

@[simp] theorem repeatsLimit_withId (origin : Origin) (limit : RateLimit) (time : Int64) :
    (s.withId x).repeatsLimit origin limit time = s.repeatsLimit origin limit time := by
  cases origin <;> rfl

@[simp] theorem closed_withId (runState : RunState) (time : Int64) :
    (s.withId x).closed runState time = (s.closed runState time).withId x := rfl

/-- The status API is told the same under every identifier. -/
@[simp] theorem report_withId (key : StreamKey) (cause? : Option Cause) :
    (s.withId x).report key cause? = s.report key cause? := rfl

end WithId

/-- States that differ in their identifiers at most. -/
theorem eq_withId_of_unnamed_eq {s t : StreamState} (h : s.unnamed = t.unnamed) :
    t = s.withId t.id? := by
  have hwith : s.unnamed.withId t.id? = t.unnamed.withId t.id? := by rw [h]
  exact hwith.symm

/-- The state that some state but for its identifier is. -/
theorem map_unnamed_bind {state? state?' : Option StreamState}
    (h : state?.map unnamed = state?'.map unnamed) :
    state?' = state?.map (·.withId (state?'.bind (·.id?))) := by
  cases state? with
  | none =>
      rw [Option.map_none, eq_comm, Option.map_eq_none_iff] at h
      exact h
  | some s =>
      obtain ⟨t, rfl, ht⟩ := Option.map_eq_some_iff.mp h.symm
      exact congrArg some (eq_withId_of_unnamed_eq ht.symm)

end StreamState

/-! ## Requests -/

/-- Which of the two calls a request is. -/
inductive Request.Kind where
  | create
  | update
deriving DecidableEq

namespace Request

/-- Which of the two calls the request is. -/
def kind : Request → Kind
  | create _ => .create
  | update _ _ => .update

/-- The request but for the identifier of the record it updates. -/
def unnamed (r : Request) : Kind × Report := (r.kind, r.report)

end Request

/-- A call has an identifier to tell exactly if it succeeded. -/
theorem Call.isSome_id? (c : Call) : c.id?.isSome = c.succeeded := by
  unfold id? succeeded
  cases c.answer <;> rfl

/-! ## Moves -/

/-- The act for a stream under another identifier. A stream to be created has none yet. -/
def Act.withId (x : Option Uuid) : Act → Act
  | .note notice => .note notice
  | .create state => .create state
  | .report state cause? => .report (state.withId x) cause?

namespace Move

/-- The move of a stream under another identifier. -/
def withId (m : Move) (x : Option Uuid) : Move :=
  ⟨m.next.map (·.withId x), m.change, m.act.withId x⟩

variable (key : StreamKey) (e : Event) (s : StreamState) (x : Option Uuid)

/-- A running report moves streams alike but for the identifier. -/
theorem ofRunning_withId : ofRunning key e (s.withId x) = (ofRunning key e s).withId x := by
  -- whether the report is a repetition does not depend on the identifier
  simp only [ofRunning, StreamState.hear_withId, StreamState.withId_ended,
    StreamState.resumed_withId, StreamState.repeatsRunning_withId, StreamState.repeatsLimit_withId]
  split
  · rfl
  · cases e.message.limit? <;> dsimp only <;> split <;> rfl

theorem ofComplete_withId : ofComplete key e (s.withId x) = (ofComplete key e s).withId x := by
  simp only [ofComplete, StreamState.hear_withId, StreamState.withId_ended,
    StreamState.withId_isComplete, StreamState.closed_withId]
  split
  · rfl
  · split <;> rfl

theorem ofIncomplete_withId :
    ofIncomplete key e (s.withId x) = (ofIncomplete key e s).withId x := by
  simp only [ofIncomplete, StreamState.hear_withId, StreamState.withId_ended,
    StreamState.closed_withId]
  split <;> rfl

/-- A report moves a stream in the same way under every identifier. -/
theorem ofReport_withId :
    ofReport key e (some (s.withId x)) = (ofReport key e (some s)).withId x := by
  simp only [ofReport]
  cases e.status with
  | started => rfl
  | running => exact ofRunning_withId key e s x
  | complete => exact ofComplete_withId key e s x
  | incomplete => exact ofIncomplete_withId key e s x

/-- A stream is cleared in the same way under every identifier. -/
theorem ofClearing_withId (runState : RunState) (cause? : Option Cause) (time : Int64) :
    ofClearing key runState cause? time (some (s.withId x)) =
      (ofClearing key runState cause? time (some s)).withId x := by
  cases hended : s.ended with
  | true => simp [ofClearing, withId, Act.withId, hended]
  | false => simp [ofClearing, withId, Act.withId, hended]

/-- A stream that is not watched has no identifier to change. -/
theorem ofReport_none_withId : (ofReport key e none).withId none = ofReport key e none := by
  rcases ofReport_none key e with ⟨-, hm⟩ | ⟨-, notice, hm⟩
  · have hopened : (StreamState.opened e).withId none = StreamState.opened e := by
      have hid : (StreamState.opened e).id? = none := by
        rw [StreamState.opened, StreamState.hear_id?]
      rw [← hid, StreamState.withId_self]
    rw [hm]
    simp only [withId, Act.withId, Option.map_some, hopened]
  · rw [hm]
    rfl

end Move

/-- Where the same is known of a stream but for its identifier, an event makes the same move of it
but for its identifier. -/
theorem Event.Makes.withId {e : Event} {key : StreamKey} {state? state?' : Option StreamState}
    {m : Move} (h : e.Makes key state? m)
    (hsame : state?.map StreamState.unnamed = state?'.map StreamState.unnamed) :
    e.Makes key state?' (m.withId (state?'.bind (·.id?))) := by
  rw [StreamState.map_unnamed_bind hsame]
  cases state? with
  | none =>
      cases h with
      | report hreports =>
          rw [Option.map_none, Option.bind_none, Move.ofReport_none_withId]
          exact .report hreports
      | clearing hclears hend => exact .clearing hclears hend
  | some state =>
      cases h with
      | report hreports =>
          rw [← Move.ofReport_withId]
          exact .report hreports
      | clearing hclears hend =>
          rw [← Move.ofClearing_withId]
          exact .clearing hclears hend

/-- An event makes no other move. -/
theorem Event.Makes.unique {e : Event} {key : StreamKey} {state? : Option StreamState}
    {m m' : Move} (h : e.Makes key state? m) (h' : e.Makes key state? m') : m = m' := by
  cases h with
  | report hreports =>
      cases h' with
      | report => rfl
      | clearing hclears => exact absurd hclears hreports.not_clears
  | clearing hclears hend =>
      cases h' with
      | report hreports => exact absurd hclears hreports.not_clears
      | clearing _ hend' =>
          cases hend.symm.trans hend'
          rfl

/-! ## What is remembered -/

/-- A record is asked for by the move that opens a stream, and by no other. -/
theorem Event.Makes.eq_of_create {e : Event} {key : StreamKey} {state? : Option StreamState}
    {m : Move} {state : StreamState} (h : e.Makes key state? m) (hact : m.act = .create state) :
    e.Opens key ∧ state? = none ∧ state = StreamState.opened e ∧
      m = ⟨some state, .keep, .create state⟩ := by
  cases h.does with
  | opens hopens =>
      cases hact
      exact ⟨hopens, rfl, rfl, rfl⟩
  | reports _ htakes => cases htakes <;> cases hact
  | misses => cases hact
  | drops => cases hact
  | ends => cases hact

namespace Roster

variable {σ : Type} (api : StatusApi σ)

/-- Performing a move remembers its next state but for the identifier, whatever is answered. -/
theorem perform_remembers {e : Event} {key : StreamKey} {r : Roster} {m : Move}
    (h : e.Makes key (r.streams.get? key) m) (s : σ) :
    ∃ next, (r.perform api key m s).roster = r.remember key next m.change ∧
      next.map StreamState.unnamed = m.next.map StreamState.unnamed := by
  cases hrequest : m.request? key with
  | none =>
      obtain ⟨notice, hp⟩ := perform_silent api hrequest r s
      exact ⟨m.next, by rw [hp], rfl⟩
  | some request =>
      obtain ⟨notices, hp⟩ := perform_call api hrequest r s
      refine ⟨m.settled (api.answer request s).1, by rw [hp], ?_⟩
      unfold Move.settled
      split
      · next state hact =>
          obtain ⟨-, -, -, rfl⟩ := h.eq_of_create hact
          split <;> rfl
      · rfl

end Roster

end StreamWatch
