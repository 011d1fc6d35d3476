import StreamWatch.Roster
import Mathlib.Tactic.ByContra
import Mathlib.Tactic.Set

/-!
# One event, seen from one stream

An event moves the streams it addresses and leaves all others alone. What it does to one of them
depends on the event, on what is known about that stream and on one answer of the status API, and on
nothing else: `track_seen_from`. What every move keeps, every run keeps: `trackAll_induction`.
-/

namespace StreamWatch

/-! ## Calls -/

/-- A request to the status API with the answer it got. -/
structure Call where
  request : Request
  answer : Answer

/-- The stream that a call is about. -/
def Call.key (c : Call) : StreamKey := c.request.report.key

/-- Whether the status API did what the call asked for. -/
def Call.succeeded (c : Call) : Bool := c.answer.isOk

/-- The identifier of the record that the call was answered with, if it succeeded. -/
def Call.id? (c : Call) : Option Uuid :=
  match c.answer with
  | .ok record => some record.id
  | .error _ => none

/-- The call that an effect is, if it is one. -/
def Effect.call? : Effect → Option Call
  | .call request answer => some ⟨request, answer⟩
  | .note _ => none

/-- The calls among some effects, in order. -/
def callsOf (effects : List Effect) : List Call := effects.filterMap Effect.call?

@[simp] theorem callsOf_nil : callsOf [] = [] := rfl

@[simp] theorem callsOf_append (first second : List Effect) :
    callsOf (first ++ second) = callsOf first ++ callsOf second :=
  List.filterMap_append

@[simp] theorem callsOf_note_cons (notice : Notice) (effects : List Effect) :
    callsOf (.note notice :: effects) = callsOf effects := rfl

@[simp] theorem callsOf_call_cons (request : Request) (answer : Answer) (effects : List Effect) :
    callsOf (.call request answer :: effects) = ⟨request, answer⟩ :: callsOf effects := rfl

@[simp] theorem callsOf_map_note (notices : List Notice) :
    callsOf (notices.map .note) = [] := by
  induction notices with
  | nil => rfl
  | cons notice rest ih => rw [List.map_cons, callsOf_note_cons, ih]

/-- The calls about a stream among some effects, in order. -/
def callsAbout (key : StreamKey) (effects : List Effect) : List Call :=
  (callsOf effects).filter (·.key = key)

@[simp] theorem callsAbout_nil (key : StreamKey) : callsAbout key [] = [] := rfl

@[simp] theorem callsAbout_append (key : StreamKey) (first second : List Effect) :
    callsAbout key (first ++ second) = callsAbout key first ++ callsAbout key second := by
  simp [callsAbout]

@[simp] theorem callsAbout_note_cons (key : StreamKey) (notice : Notice) (effects : List Effect) :
    callsAbout key (.note notice :: effects) = callsAbout key effects := rfl

/-- A call is about the stream that it reports. -/
@[simp] theorem callsAbout_call_cons (key : StreamKey) (request : Request) (answer : Answer)
    (effects : List Effect) :
    callsAbout key (.call request answer :: effects) =
      if request.report.key = key then ⟨request, answer⟩ :: callsAbout key effects
      else callsAbout key effects := by
  by_cases h : request.report.key = key <;> simp [callsAbout, Call.key, h]

@[simp] theorem callsAbout_map_note (key : StreamKey) (notices : List Notice) :
    callsAbout key (notices.map .note) = [] := by
  rw [callsAbout, callsOf_map_note, List.filter_nil]

/-! ## What a move does to its stream -/

namespace Move

/-- The request that a move makes of the status API. A transition of a stream without a record is
not reported. -/
def request? (key : StreamKey) (m : Move) : Option Request :=
  match m.act with
  | .note _ => none
  | .create state => some (.create (state.report key none))
  | .report state cause? => state.id?.map fun id => .update id (state.report key cause?)

/-- The state that is remembered once the request is answered: a new record gives its stream an
identifier. -/
def settled (m : Move) (answer : Answer) : Option StreamState :=
  match m.act with
  | .create state =>
    match answer with
    | .ok record => some { state with id? := some record.id }
    | .error _ => some state
  | _ => m.next

/-- A move speaks of its own stream only. -/
theorem key_of_request? {key : StreamKey} {m : Move} {request : Request}
    (h : m.request? key = some request) : request.report.key = key := by
  unfold request? at h
  split at h
  · cases h
  · cases h
    rfl
  · obtain ⟨id, -, rfl⟩ := Option.map_eq_some_iff.mp h
    rfl

/-- `m.Yields api key next calls`: performing `m` for the stream `key` leaves it in `next` and makes
`calls`, where the API answers in some state it may be in. -/
inductive Yields {σ : Type} (api : StatusApi σ) (key : StreamKey) (m : Move) :
    Option StreamState → List Call → Prop
  | silent : m.request? key = none → Yields api key m m.next []
  | call {request : Request} (s : σ) : m.request? key = some request →
      Yields api key m (m.settled (api.answer request s).1)
        [⟨request, (api.answer request s).1⟩]

section Yields

variable {σ : Type} {api : StatusApi σ} {key : StreamKey} {m : Move} {next : Option StreamState}
  {calls : List Call}

/-- A notice is no call. -/
theorem Yields.of_note {notice : Notice} (hact : m.act = .note notice)
    (h : m.Yields api key next calls) : next = m.next ∧ calls = [] := by
  cases h with
  | silent => exact ⟨rfl, rfl⟩
  | call s hrequest => simp [request?, hact] at hrequest

/-- A record is asked for in one call, and its identifier is remembered. -/
theorem Yields.of_create {state : StreamState} (hact : m.act = .create state)
    (hid : state.id? = none) (h : m.Yields api key next calls) :
    ∃ call, call.request = .create (state.report key none) ∧ calls = [call] ∧
      next = some { state with id? := call.id? } := by
  cases h with
  | silent hrequest => simp [request?, hact] at hrequest
  | @call request s hrequest =>
      obtain rfl : Request.create (state.report key none) = request := by
        simpa [request?, hact] using hrequest
      refine ⟨_, rfl, rfl, ?_⟩
      unfold settled Call.id?
      simp only [hact]
      split
      · rfl
      · rw [← hid]

/-- A transition is reported in one call, unless there is no record to update. -/
theorem Yields.of_report {state : StreamState} {cause? : Option Cause}
    (hact : m.act = .report state cause?) (h : m.Yields api key next calls) :
    next = m.next ∧
      (state.id? = none ∧ calls = [] ∨
        ∃ id answer, state.id? = some id ∧
          calls = [⟨.update id (state.report key cause?), answer⟩]) := by
  cases h with
  | silent hrequest => exact ⟨rfl, Or.inl ⟨by simpa [request?, hact] using hrequest, rfl⟩⟩
  | call s hrequest =>
      refine ⟨by simp only [settled, hact], Or.inr ?_⟩
      simp only [request?, hact, Option.map_eq_some_iff] at hrequest
      obtain ⟨id, hid, rfl⟩ := hrequest
      exact ⟨id, _, hid, rfl⟩

/-- The calls of a move are answered by the API. -/
theorem Yields.answered (h : m.Yields api key next calls) :
    ∀ c ∈ calls, ∃ s, c.answer = (api.answer c.request s).1 := by
  cases h with
  | silent => simp
  | call s =>
      intro c hc
      rw [List.mem_singleton.mp hc]
      exact ⟨s, rfl⟩

end Yields

end Move

namespace Roster

variable {σ : Type} (api : StatusApi σ)

/-- What is remembered of a stream changes no other. -/
theorem get?_remember (r : Roster) (key other : StreamKey) (next : Option StreamState)
    (change : LimitChange) :
    (r.remember key next change).streams.get? other =
      if key = other then next else r.streams.get? other :=
  Table.get?_set r.streams key other next

/-- A move without a request leaves a notice. -/
theorem perform_silent {key : StreamKey} {m : Move} (h : m.request? key = none) (r : Roster)
    (s : σ) :
    ∃ notice, r.perform api key m s = ⟨r.remember key m.next m.change, s, [.note notice]⟩ := by
  unfold Move.request? at h
  unfold perform
  cases hact : m.act with
  | note notice => exact ⟨notice, rfl⟩
  | create state => simp [hact] at h
  | report state cause? =>
      have hid : state.id? = none := by simpa [hact] using h
      simp only [hid]
      exact ⟨_, rfl⟩

/-- A move with a request makes that call, and notices follow it. -/
theorem perform_call {key : StreamKey} {m : Move} {request : Request}
    (h : m.request? key = some request) (r : Roster) (s : σ) :
    ∃ notices : List Notice, r.perform api key m s =
      ⟨r.remember key (m.settled (api.answer request s).1) m.change, (api.answer request s).2,
        .call request (api.answer request s).1 :: notices.map .note⟩ := by
  unfold Move.request? at h
  unfold perform Move.settled
  cases hact : m.act with
  | note notice => simp [hact] at h
  | create state =>
      obtain rfl : Request.create (state.report key none) = request := by simpa [hact] using h
      rcases hans : api.answer (.create (state.report key none)) s with ⟨answer, s'⟩
      cases answer with
      | ok record => exact ⟨[.created record.id key], by simp [hans]⟩
      | error failure => exact ⟨[.createFailed key failure], by simp [hans]⟩
  | report state cause? =>
      simp only [hact, Option.map_eq_some_iff] at h
      obtain ⟨id, hid, rfl⟩ := h
      rcases hans : api.answer (.update id (state.report key cause?)) s with ⟨answer, s'⟩
      cases answer with
      | ok record => exact ⟨[], by simp [hid, hans]⟩
      | error failure =>
          exact ⟨[.updateFailed key state.runState failure], by simp [hid, hans]⟩

/-- What performing a move does to its own stream. -/
theorem perform_yields (r : Roster) (key : StreamKey) (m : Move) (s : σ) :
    m.Yields api key ((r.perform api key m s).roster.streams.get? key)
      (callsAbout key (r.perform api key m s).effects) := by
  cases h : m.request? key with
  | none =>
      obtain ⟨notice, hp⟩ := perform_silent api h r s
      rw [hp, get?_remember, if_pos rfl]
      exact .silent h
  | some request =>
      obtain ⟨notices, hp⟩ := perform_call api h r s
      rw [hp, get?_remember, if_pos rfl, callsAbout_call_cons, if_pos (Move.key_of_request? h),
        callsAbout_map_note]
      exact .call s h

/-- All calls of a move are about its stream. -/
theorem callsAbout_perform (r : Roster) (key : StreamKey) (m : Move) (s : σ) :
    callsAbout key (r.perform api key m s).effects = callsOf (r.perform api key m s).effects := by
  cases h : m.request? key with
  | none =>
      obtain ⟨notice, hp⟩ := perform_silent api h r s
      rw [hp]
      rfl
  | some request =>
      obtain ⟨notices, hp⟩ := perform_call api h r s
      rw [hp, callsAbout_call_cons, if_pos (Move.key_of_request? h), callsAbout_map_note,
        callsOf_call_cons, callsOf_map_note]

/-- Performing a move leaves every other stream alone. -/
theorem perform_of_ne {key other : StreamKey} (hne : key ≠ other) (r : Roster) (m : Move) (s : σ) :
    (r.perform api key m s).roster.streams.get? other = r.streams.get? other ∧
      callsAbout other (r.perform api key m s).effects = [] := by
  cases h : m.request? key with
  | none =>
      obtain ⟨notice, hp⟩ := perform_silent api h r s
      rw [hp, get?_remember, if_neg hne]
      exact ⟨rfl, rfl⟩
  | some request =>
      obtain ⟨notices, hp⟩ := perform_call api h r s
      rw [hp, get?_remember, if_neg hne, callsAbout_call_cons, Move.key_of_request? h, if_neg hne,
        callsAbout_map_note]
      exact ⟨rfl, rfl⟩

end Roster

/-! ## What an event addresses -/

namespace Event

/-- A connector reports about the stream. -/
def Reports (e : Event) (key : StreamKey) : Prop := e.origin ≠ .internal ∧ e.key? = some key

/-- An internal event ends the stream, alone or with its whole run. -/
def Clears (e : Event) (key : StreamKey) : Prop :=
  e.origin = .internal ∧ (e.status = .complete ∨ e.status = .incomplete) ∧
    (e.key? = some key ∨ e.isRunWide ∧ e.run = key.run)

/-- A connector reports that the stream started. -/
def Opens (e : Event) (key : StreamKey) : Prop := e.Reports key ∧ e.status = .started

instance (e : Event) (key : StreamKey) : Decidable (e.Reports key) :=
  inferInstanceAs (Decidable (_ ∧ _))

instance (e : Event) (key : StreamKey) : Decidable (e.Clears key) :=
  inferInstanceAs (Decidable (_ ∧ _))

instance (e : Event) (key : StreamKey) : Decidable (e.Opens key) :=
  inferInstanceAs (Decidable (_ ∧ _))

/-- No event both reports and clears. -/
theorem Reports.not_clears {e : Event} {key other : StreamKey} (h : e.Reports key) :
    ¬ e.Clears other :=
  fun hc => h.1 hc.1

/-- `e.Makes key state? m`: the event `e` makes the move `m` of the stream `key` in `state?`. -/
inductive Makes (e : Event) (key : StreamKey) (state? : Option StreamState) : Move → Prop
  | report : e.Reports key → Makes e key state? (Move.ofReport key e state?)
  | clearing {runState : RunState} {cause? : Option Cause} : e.Clears key →
      e.ending? = some (runState, cause?) →
      Makes e key state? (Move.ofClearing key runState cause? e.time state?)

/-- An ending is the status of its event, and an incomplete one has the cause of the event. -/
theorem ending?_eq_some {e : Event} {runState : RunState} {cause? : Option Cause}
    (h : e.ending? = some (runState, cause?)) :
    e.status = .complete ∧ runState = .complete ∧ cause? = none ∨
      e.status = .incomplete ∧ runState = .incomplete ∧ cause? = some e.cause := by
  unfold ending? at h
  split at h <;> simp_all

/-- An ending is an end. -/
theorem isTerminal_of_ending? {e : Event} {runState : RunState} {cause? : Option Cause}
    (h : e.ending? = some (runState, cause?)) : runState.isTerminal := by
  rcases ending?_eq_some h with ⟨-, rfl, -⟩ | ⟨-, rfl, -⟩
  · rfl
  · rfl

/-- A run-wide event names no stream. -/
theorem key?_of_isRunWide {e : Event} (h : e.isRunWide) : e.key? = none := by
  have hname : e.message.stream.name = none := by
    simp only [isRunWide, Descriptor.isEmpty, Bool.and_eq_true, Option.isNone_iff_eq_none] at h
    exact h.2.1
  rw [key?, StreamKey.of?, hname, Option.map_none]

/-- What the scope of an event says about the streams it reports on or clears. -/
theorem scope_cases (e : Event) :
    (∃ notice, e.scope = .none notice ∧ ∀ key, ¬ e.Reports key ∧ ¬ e.Clears key) ∨
    (∃ key, e.scope = .report key ∧ e.Reports key) ∨
    (∃ key runState cause?, e.scope = .clear key runState cause? ∧ e.Clears key ∧
      e.key? = some key ∧ ¬ e.isRunWide ∧ e.ending? = some (runState, cause?)) ∨
    (∃ runState cause?, e.scope = .clearRun e.run runState cause? ∧ e.origin = .internal ∧
      e.isRunWide ∧ e.ending? = some (runState, cause?)) := by
  unfold scope
  by_cases horigin : e.origin = .internal
  · -- an internal event does something only if it ends streams: a whole run, or the one it names
    rw [if_pos horigin]
    cases hend : e.ending? with
    | none =>
        refine Or.inl ⟨_, rfl, fun key => ⟨fun h => h.1 horigin, fun h => ?_⟩⟩
        have hstatus := h.2.1
        unfold ending? at hend
        split at hend <;> simp_all
    | some ending =>
        obtain ⟨runState, cause?⟩ := ending
        by_cases hwide : e.isRunWide
        · simp only [hwide, if_true]
          exact Or.inr (Or.inr (Or.inr ⟨_, _, rfl, horigin, trivial, rfl⟩))
        · simp only [hwide]
          cases hkey : e.key? with
          | none =>
              refine Or.inl ⟨_, rfl, fun key => ⟨fun h => h.1 horigin, fun h => ?_⟩⟩
              rcases h.2.2 with h | ⟨h, -⟩
              · simp [hkey] at h
              · exact hwide h
          | some key =>
              have hstatus : e.status = .complete ∨ e.status = .incomplete :=
                (ending?_eq_some hend).imp And.left And.left
              exact Or.inr (Or.inr (Or.inl ⟨key, _, _, rfl, ⟨horigin, hstatus, Or.inl hkey⟩, rfl,
                by simp, rfl⟩))
  · rw [if_neg horigin]
    cases hkey : e.key? with
    | none =>
        refine Or.inl ⟨_, rfl, fun key => ⟨fun h => ?_, fun h => horigin h.1⟩⟩
        have := h.2
        simp [hkey] at this
    | some key => exact Or.inr (Or.inl ⟨key, rfl, horigin, hkey⟩)

end Event

/-! ## What an event does to a stream -/

namespace Roster

variable {σ : Type} (api : StatusApi σ)

/-! ### The four scopes -/

variable {event : Event}

/-- An event without a scope leaves a notice and nothing else. -/
theorem track_of_none {notice : Notice} (h : event.scope = .none notice) (r : Roster) (s : σ) :
    r.track api event s = ⟨r, s, [.note notice]⟩ := by
  rw [track, h]

/-- A report makes a move of its stream. -/
theorem track_of_report {key : StreamKey} (h : event.scope = .report key) (r : Roster) (s : σ) :
    r.track api event s = r.perform api key (Move.ofReport key event (r.streams.get? key)) s := by
  rw [track, h]

theorem track_of_clear {key : StreamKey} {runState : RunState} {cause? : Option Cause}
    (h : event.scope = .clear key runState cause?) (r : Roster) (s : σ) :
    r.track api event s = r.perform api key
      (Move.ofClearing key runState cause? event.time (r.streams.get? key)) s := by
  rw [track, h]

/-- A clearing event of a run clears its streams one after the other, and says so first. -/
theorem track_of_clearRun {run : RunId} {runState : RunState} {cause? : Option Cause}
    (h : event.scope = .clearRun run runState cause?) (r : Roster) (s : σ) :
    ∃ notice : Notice, notice.level = .info ∧ r.track api event s =
      let turn := clearAll api runState cause? event.time (r.keysOf run) r s
      { turn with effects := .note notice :: turn.effects } := by
  rw [track, h]
  exact ⟨_, rfl, rfl⟩

/-! ### Clearing -/

variable (runState : RunState) (cause? : Option Cause) (time : Int64)

/-- Clearing some streams leaves all others alone. -/
theorem clearAll_of_not_mem {key : StreamKey} (keys : List StreamKey) (h : key ∉ keys) (r : Roster)
    (s : σ) :
    (clearAll api runState cause? time keys r s).roster.streams.get? key = r.streams.get? key ∧
      callsAbout key (clearAll api runState cause? time keys r s).effects = [] := by
  induction keys generalizing r s with
  | nil => exact ⟨rfl, rfl⟩
  | cons first rest ih =>
      rw [List.mem_cons, not_or] at h
      have hfirst := perform_of_ne api (Ne.symm h.1) r
        (Move.ofClearing first runState cause? time (r.streams.get? first)) s
      have hrest := ih h.2
        (r.perform api first (Move.ofClearing first runState cause? time
          (r.streams.get? first)) s).roster
        (r.perform api first (Move.ofClearing first runState cause? time
          (r.streams.get? first)) s).api
      refine ⟨hrest.1.trans hfirst.1, ?_⟩
      rw [clearAll, callsAbout_append, hfirst.2, hrest.2, List.append_nil]

variable {api runState cause? time} in
/-- A cleared stream is not watched; its end is reported unless that was done before. -/
theorem clearing_yields {key : StreamKey} {state? next : Option StreamState} {calls : List Call}
    (h : (Move.ofClearing key runState cause? time state?).Yields api key next calls) :
    next = none ∧
      (calls = [] ∧ (∀ state, state? = some state → state.ended ∨ state.id? = none) ∨
        ∃ state id answer, state? = some state ∧ ¬ state.ended ∧ state.id? = some id ∧
          calls = [⟨.update id ((state.closed runState time).report key cause?), answer⟩]) := by
  unfold Move.ofClearing at h
  split at h
  · obtain ⟨hnext, hcalls⟩ := h.of_note rfl
    exact ⟨hnext, Or.inl ⟨hcalls, fun state hstate => by cases hstate⟩⟩
  · next state =>
      split at h
      · next hended =>
          obtain ⟨hnext, hcalls⟩ := h.of_note rfl
          exact ⟨hnext, Or.inl ⟨hcalls, fun _ hstate => Or.inl (Option.some.inj hstate ▸ hended)⟩⟩
      · next hended =>
          obtain ⟨hnext, ⟨hid, hcalls⟩ | ⟨id, answer, hid, hcalls⟩⟩ := h.of_report rfl
          · exact ⟨hnext, Or.inl ⟨hcalls, fun _ hstate => Or.inr (Option.some.inj hstate ▸ hid)⟩⟩
          · exact ⟨hnext, Or.inr ⟨state, id, answer, rfl, hended, hid, hcalls⟩⟩

/-- Clearing some streams clears each of them. -/
theorem clearAll_of_mem {key : StreamKey} (keys : List StreamKey) (h : key ∈ keys) (r : Roster)
    (s : σ) :
    (Move.ofClearing key runState cause? time (r.streams.get? key)).Yields api key
      ((clearAll api runState cause? time keys r s).roster.streams.get? key)
      (callsAbout key (clearAll api runState cause? time keys r s).effects) := by
  induction keys generalizing r s with
  | nil => cases h
  | cons first rest ih =>
      rw [clearAll, callsAbout_append]
      set turn := r.perform api first
        (Move.ofClearing first runState cause? time (r.streams.get? first)) s with hturn
      set last := clearAll api runState cause? time rest turn.roster turn.api
      by_cases hfirst : first = key
      · subst hfirst
        have hy := perform_yields api r first
          (Move.ofClearing first runState cause? time (r.streams.get? first)) s
        rw [← hturn] at hy
        have hnone := (clearing_yields hy).1
        -- a later visit finds the stream gone
        have hrest :
            last.roster.streams.get? first = none ∧ callsAbout first last.effects = [] := by
          by_cases hmem : first ∈ rest
          · have hr := ih hmem turn.roster turn.api
            rw [hnone] at hr
            obtain ⟨hnext, ⟨hcalls, -⟩ | ⟨state, -, -, hstate, -⟩⟩ := clearing_yields hr
            · exact ⟨hnext, hcalls⟩
            · cases hstate
          · have hr := clearAll_of_not_mem api runState cause? time rest hmem turn.roster turn.api
            exact ⟨hr.1.trans hnone, hr.2⟩
        rw [hrest.1, hrest.2, List.append_nil, ← hnone]
        exact hy
      · have hmem : key ∈ rest := (List.mem_cons.mp h).resolve_left (Ne.symm hfirst)
        have hp := perform_of_ne api hfirst r
          (Move.ofClearing first runState cause? time (r.streams.get? first)) s
        rw [← hturn] at hp
        have hr := ih hmem turn.roster turn.api
        rw [hp.1] at hr
        rw [hp.2, List.nil_append]
        exact hr

/-- The keys of a run are its watched streams. -/
theorem mem_keysOf {r : Roster} {run : RunId} {key : StreamKey} :
    key ∈ r.keysOf run ↔ r.streams.get? key ≠ none ∧ key.run = run := by
  rw [keysOf, List.mem_filter, Table.mem_keys, decide_eq_true_eq]

/-- What tracking an event does to one stream: it makes one of the event's moves of that stream, or
it leaves a stream alone that the event does not address. -/
theorem track_seen_from (key : StreamKey) (event : Event) (r : Roster) (s : σ) :
    (∃ m, event.Makes key (r.streams.get? key) m ∧
      m.Yields api key ((r.track api event s).roster.streams.get? key)
        (callsAbout key (r.track api event s).effects)) ∨
    (¬ event.Reports key ∧ ¬ event.Clears key ∧
      (r.track api event s).roster.streams.get? key = r.streams.get? key ∧
      callsAbout key (r.track api event s).effects = []) := by
  -- one case for each scope of an event: none, a report, one stream, a run
  rcases event.scope_cases with ⟨notice, hscope, hnot⟩ | ⟨named, hscope, hreports⟩ |
    ⟨named, runState, cause?, hscope, hclears, hkey, hwide, hend⟩ |
    ⟨runState, cause?, hscope, horigin, hwide, hend⟩
  · rw [track_of_none api hscope]
    exact Or.inr ⟨(hnot key).1, (hnot key).2, rfl, rfl⟩
  · rw [track_of_report api hscope]
    by_cases hn : named = key
    · subst hn
      exact Or.inl ⟨_, .report hreports, perform_yields api r named _ s⟩
    · refine Or.inr ⟨fun h => hn ?_, hreports.not_clears, perform_of_ne api hn r _ s⟩
      exact Option.some.inj (hreports.2.symm.trans h.2)
  · rw [track_of_clear api hscope]
    by_cases hn : named = key
    · subst hn
      exact Or.inl ⟨_, .clearing hclears hend, perform_yields api r named _ s⟩
    · refine Or.inr ⟨fun h => h.1 hclears.1, fun h => ?_, perform_of_ne api hn r _ s⟩
      rcases h.2.2 with h | ⟨h, -⟩
      · exact hn (Option.some.inj (hkey.symm.trans h))
      · exact hwide h
  · obtain ⟨notice, -, htrack⟩ := track_of_clearRun api hscope r s
    simp only [htrack, callsAbout_note_cons]
    by_cases hrun : event.run = key.run
    · have hstatus : event.status = .complete ∨ event.status = .incomplete :=
        (Event.ending?_eq_some hend).imp And.left And.left
      have hclears : event.Clears key := ⟨horigin, hstatus, Or.inr ⟨hwide, hrun⟩⟩
      refine Or.inl ⟨_, .clearing hclears hend, ?_⟩
      by_cases hmem : key ∈ r.keysOf event.run
      · exact clearAll_of_mem api runState cause? event.time _ hmem r s
      · -- a run-wide event visits watched streams only
        have hnone : r.streams.get? key = none := by
          by_contra hsome
          exact hmem (mem_keysOf.mpr ⟨hsome, hrun.symm⟩)
        have hother := clearAll_of_not_mem api runState cause? event.time _ hmem r s
        rw [hother.1, hother.2, hnone]
        exact .silent rfl
    · have hmem : key ∉ r.keysOf event.run := fun h => hrun (mem_keysOf.mp h).2.symm
      refine Or.inr ⟨fun h => h.1 horigin, fun h => ?_,
        clearAll_of_not_mem api runState cause? event.time _ hmem r s⟩
      rcases h.2.2 with h | ⟨-, h⟩
      · rw [Event.key?_of_isRunWide hwide] at h
        cases h
      · exact hrun h

/-! ## What every move keeps, every run keeps -/

section Induction

variable {P : Roster → σ → List Effect → Prop}

/-- What every clearing move keeps, clearing some streams keeps. -/
theorem clearAll_induction (keys : List StreamKey)
    (move : ∀ key ∈ keys, ∀ r s effects, P r s effects →
      let turn := r.perform api key
        (Move.ofClearing key runState cause? time (r.streams.get? key)) s
      P turn.roster turn.api (effects ++ turn.effects))
    {r : Roster} {s : σ} {effects : List Effect} (h : P r s effects) :
    let turn := clearAll api runState cause? time keys r s
    P turn.roster turn.api (effects ++ turn.effects) := by
  induction keys generalizing r s effects with
  | nil => simpa [clearAll] using h
  | cons first rest ih =>
      have hfirst := move first List.mem_cons_self r s effects h
      have hrest := ih (fun key hkey => move key (List.mem_cons_of_mem _ hkey)) hfirst
      simpa [clearAll, List.append_assoc] using hrest

/-- What a notice and every move of an event keep, tracking the event keeps. -/
theorem track_induction (event : Event)
    (note : ∀ r s effects notice, P r s effects → P r s (effects ++ [.note notice]))
    (move : ∀ key r s effects m, event.Makes key (r.streams.get? key) m → P r s effects →
      let turn := r.perform api key m s
      P turn.roster turn.api (effects ++ turn.effects))
    {r : Roster} {s : σ} {effects : List Effect} (h : P r s effects) :
    let turn := r.track api event s
    P turn.roster turn.api (effects ++ turn.effects) := by
  rcases event.scope_cases with ⟨notice, hscope, -⟩ | ⟨named, hscope, hreports⟩ |
    ⟨named, runState, cause?, hscope, hclears, -, -, hend⟩ |
    ⟨runState, cause?, hscope, horigin, hwide, hend⟩
  · rw [track_of_none api hscope]
    exact note r s effects notice h
  · rw [track_of_report api hscope]
    exact move named r s effects _ (.report hreports) h
  · rw [track_of_clear api hscope]
    exact move named r s effects _ (.clearing hclears hend) h
  · obtain ⟨notice, -, htrack⟩ := track_of_clearRun api hscope r s
    have hstatus : event.status = .complete ∨ event.status = .incomplete :=
      (Event.ending?_eq_some hend).imp And.left And.left
    have hall := clearAll_induction (P := P) api runState cause? event.time (r.keysOf event.run)
      (fun key hkey r s effects hP => move key r s effects _
        (.clearing ⟨horigin, hstatus, Or.inr ⟨hwide, (mem_keysOf.mp hkey).2.symm⟩⟩ hend) hP)
      (note r s effects notice h)
    simpa [htrack, List.append_assoc] using hall

/-- What a notice and every move keep, tracking events keeps. -/
theorem trackAll_induction
    (note : ∀ r s effects notice, P r s effects → P r s (effects ++ [.note notice]))
    (move : ∀ (event : Event) key r s effects m, event.Makes key (r.streams.get? key) m →
      P r s effects →
      let turn := r.perform api key m s
      P turn.roster turn.api (effects ++ turn.effects))
    (events : List Event) {r : Roster} {s : σ} {effects : List Effect} (h : P r s effects) :
    let turn := trackAll api events r s
    P turn.roster turn.api (effects ++ turn.effects) := by
  induction events generalizing r s effects with
  | nil => simpa [trackAll] using h
  | cons event rest ih =>
      have hrest := ih (track_induction api event note (move event) h)
      simpa [trackAll, List.append_assoc] using hrest

end Induction

/-! ## Runs -/

/-- Tracking events and then others. -/
theorem trackAll_append (first second : List Event) (r : Roster) (s : σ) :
    trackAll api (first ++ second) r s =
      let before := trackAll api first r s
      let after := trackAll api second before.roster before.api
      { after with effects := before.effects ++ after.effects } := by
  induction first generalizing r s with
  | nil => simp [trackAll]
  | cons event rest ih => simp [trackAll, ih, List.append_assoc]

/-- Tracking events and then one more. -/
theorem trackAll_concat (events : List Event) (event : Event) (r : Roster) (s : σ) :
    trackAll api (events ++ [event]) r s =
      let before := trackAll api events r s
      let turn := before.roster.track api event before.api
      { turn with effects := before.effects ++ turn.effects } := by
  simp [trackAll_append, trackAll]

end Roster

/-! ## A stream to look at -/

namespace Sample

/-- One attempt of one job. -/
def context : RunContext where
  isReset := false
  connection := ⟨1⟩
  source := ⟨2⟩
  destination := ⟨3⟩
  job := 10
  attempt := 0
  workspace := ⟨4⟩
  sourceDefinition := ⟨5⟩
  destinationDefinition := ⟨6⟩

/-- A stream of that attempt. -/
def orders : StreamKey := ⟨"orders", none, context.run⟩

/-- An event that names the stream. -/
def event (origin : Origin) (status : Status) : Event where
  origin
  message := { stream := orders.descriptor, status, emittedAt := .zero }
  context

/-- A status API that does what it is asked for. -/
def granting : StatusApi Unit where
  answer request s := (.ok ⟨⟨7⟩, request.report⟩, s)

end Sample

end StreamWatch
