import Mathlib.Data.List.Induction
import StreamWatch.Proofs.Roster.Watched
import Mathlib.Data.Set.Card

/-!
# The lifetimes of a stream

The events of a run divide into lifetimes of a stream: one begins when a connector reports that the
stream started, and lasts until an internal event ends the stream. What the status API is told about
the stream divides in the same way. A lifetime begins with the one call for a record; updates of
that record follow, of which only the last one reports an end: `calls_fall_into_lifetimes`.
-/

namespace StreamWatch

/-! ## Histories -/

/-- One event of a run, with the roster that it met and what it did. -/
structure Entry where
  event : Event
  before : Roster
  effects : List Effect

namespace Roster

variable {σ : Type} (api : StatusApi σ)

/-- A run, event by event. -/
def history : List Event → Roster → σ → List Entry
  | [], _, _ => []
  | event :: rest, r, s =>
    let turn := r.track api event s
    ⟨event, r, turn.effects⟩ :: history rest turn.roster turn.api

/-- The history of some events and then one more. -/
theorem history_concat (events : List Event) (event : Event) (r : Roster) (s : σ) :
    history api (events ++ [event]) r s =
      let before := trackAll api events r s
      history api events r s ++
        [⟨event, before.roster, (before.roster.track api event before.api).effects⟩] := by
  induction events generalizing r s with
  | nil => rfl
  | cons first rest ih => simp [history, trackAll, ih]

end Roster

/-! ## Lifetimes -/

/-- The entries of a history from the start of a stream until it is cleared. -/
structure Lifetime where
  opening : Entry
  body : List Entry := []
  /-- The entry of the event that cleared the stream, unless the stream is still watched. -/
  closing? : Option Entry := none

/-- The calls of a lifetime about its stream, in order. -/
def Lifetime.calls (key : StreamKey) (l : Lifetime) : List Call :=
  (l.opening :: (l.body ++ l.closing?.toList)).flatMap fun entry => callsAbout key entry.effects

/-- The lifetimes of a stream: those that are over, and the one that is not. -/
structure Chronicle where
  past : List Lifetime := []
  current? : Option Lifetime := none

namespace Chronicle

/-- All lifetimes, in order. -/
def lifetimes (c : Chronicle) : List Lifetime := c.past ++ c.current?.toList

/-- The calls of all lifetimes, in order. -/
def calls (key : StreamKey) (c : Chronicle) : List Call := c.lifetimes.flatMap (·.calls key)

/-- Continues a chronicle: an entry opens a lifetime, or else belongs to the one that is open and
may close it. -/
def add (key : StreamKey) (c : Chronicle) (entry : Entry) : Chronicle :=
  match c.current? with
  | none => if entry.event.Opens key then { c with current? := some { opening := entry } } else c
  | some l =>
    if entry.event.Clears key then ⟨c.past ++ [{ l with closing? := some entry }], none⟩
    else { c with current? := some { l with body := l.body ++ [entry] } }

section Add

variable {key : StreamKey} {c : Chronicle} {entry : Entry} {l : Lifetime}

/-- An opening event starts a lifetime where there is none. -/
theorem add_of_opens (h : c.current? = none) (hopens : entry.event.Opens key) :
    c.add key entry = ⟨c.past, some { opening := entry }⟩ := by
  simp only [add, h, if_pos hopens]

/-- Without a lifetime, only an opening event matters. -/
theorem add_of_not_opens (h : c.current? = none) (hopens : ¬ entry.event.Opens key) :
    c.add key entry = c := by
  simp only [add, h, if_neg hopens]

/-- A clearing event closes the lifetime, which is past then. -/
theorem add_of_clears (h : c.current? = some l) (hclears : entry.event.Clears key) :
    c.add key entry = ⟨c.past ++ [{ l with closing? := some entry }], none⟩ := by
  simp only [add, h, if_pos hclears]

/-- Any other event joins the body of the lifetime. -/
theorem add_of_not_clears (h : c.current? = some l) (hclears : ¬ entry.event.Clears key) :
    c.add key entry = ⟨c.past, some { l with body := l.body ++ [entry] }⟩ := by
  simp only [add, h, if_neg hclears]

end Add

/-- The chronicle of a stream in a history. -/
def of (key : StreamKey) (entries : List Entry) : Chronicle := entries.foldl (add key) {}

end Chronicle

/-! ## What the status API is told in a lifetime -/

/-- The run state that a call reports. -/
def Call.runState (c : Call) : RunState := c.request.report.runState

/-- The call updates a record. -/
def Call.Updates (c : Call) (id : Uuid) : Prop := c.request = .update id c.request.report

/-- `UpdatesOf id? ended calls`: the calls update the record `id?`, and `ended` says whether the
last of them reports an end, as none before it does. Without a record there are no calls. -/
inductive UpdatesOf : Option Uuid → Bool → List Call → Prop
  | unrecorded {ended : Bool} : UpdatesOf none ended []
  | running {id : Uuid} {calls : List Call} :
      (∀ c ∈ calls, c.Updates id ∧ ¬ c.runState.isTerminal) → UpdatesOf (some id) false calls
  | ended {id : Uuid} {calls : List Call} {last : Call} :
      (∀ c ∈ calls, c.Updates id ∧ ¬ c.runState.isTerminal) →
      last.Updates id → last.runState.isTerminal → UpdatesOf (some id) true (calls ++ [last])

namespace UpdatesOf

/-- At first there are no updates. -/
theorem start (id? : Option Uuid) : UpdatesOf id? false [] := by
  cases id? with
  | none => exact .unrecorded
  | some id => exact .running (by simp)

/-- A stream whose end has not been reported may report once more, if it has a record. -/
theorem report {id? : Option Uuid} {updates calls : List Call} {report : Report}
    (h : UpdatesOf id? false updates)
    (hcalls : id? = none ∧ calls = [] ∨
      ∃ id answer, id? = some id ∧ calls = [⟨.update id report, answer⟩]) :
    UpdatesOf id? report.runState.isTerminal (updates ++ calls) := by
  rcases hcalls with ⟨rfl, rfl⟩ | ⟨id, answer, rfl, rfl⟩
  · cases h
    exact .unrecorded
  · cases h with
    | running hrunning =>
        cases hend : report.runState.isTerminal with
        | true => exact .ended hrunning rfl hend
        | false =>
            refine .running fun c hc => ?_
            rcases List.mem_append.mp hc with hc | hc
            · exact hrunning c hc
            · rw [List.mem_singleton.mp hc]
              exact ⟨rfl, by simp [Call.runState, Request.report, hend]⟩

variable {σ : Type} {api : StatusApi σ} {key : StreamKey} {state after : StreamState}
  {updates calls : List Call} {next : Option StreamState} {m : Move}

/-- A move that reports a transition continues the updates. -/
theorem reported {cause? : Option Cause} (h : UpdatesOf state.id? state.ended updates)
    (hended : ¬ state.ended) (hact : m.act = .report after cause?) (hid : after.id? = state.id?)
    (hend : after.ended = after.runState.isTerminal) (hy : m.Yields api key next calls) :
    UpdatesOf state.id? after.ended (updates ++ calls) := by
  obtain ⟨-, hcalls⟩ := hy.of_report hact
  rw [hid] at hcalls
  rw [Bool.eq_false_of_not_eq_true hended] at h
  rw [hend]
  exact h.report hcalls

/-- Taking a report continues the updates. -/
theorem takes {e : Event} (h : UpdatesOf state.id? state.ended updates)
    (ht : state.Takes key e m) (hnext : m.next = some after) (hy : m.Yields api key next calls) :
    UpdatesOf state.id? after.ended (updates ++ calls) := by
  cases ht with
  | again | late | half =>
      cases hnext
      obtain ⟨-, rfl⟩ := hy.of_note rfl
      simpa using h
  | repeated _ _ _ _ hm =>
      cases hnext
      obtain ⟨-, rfl⟩ := hy.of_note rfl
      simpa [hm, StreamState.resumed] using h
  | resumed _ hended _ _ hm =>
      cases hnext
      refine h.reported hended rfl ?_ ?_ hy
      · rw [hm, StreamState.resumed, StreamState.hear_id?]
      · simp only [hm, StreamState.resumed, StreamState.hear_ended, hended]
        cases e.message.limit? <;> rfl
  | completed _ hended _ hm | failed _ hended hm =>
      cases hnext
      refine h.reported hended rfl ?_ ?_ hy
      · rw [hm, StreamState.closed, StreamState.hear_id?]
      · rw [hm]
        rfl

/-- Clearing the stream completes the updates. -/
theorem cleared {runState : RunState} {cause? : Option Cause} {time : Int64}
    (h : UpdatesOf state.id? state.ended updates) (hend : runState.isTerminal)
    (hy : (Move.ofClearing key runState cause? time (some state)).Yields api key next calls) :
    UpdatesOf state.id? true (updates ++ calls) := by
  obtain ⟨-, ⟨rfl, hsilent⟩ | ⟨_, id, answer, ⟨⟩, hended, hid, hcalls⟩⟩ := Roster.clearing_yields hy
  · rw [List.append_nil]
    rcases hsilent state rfl with hended | hid
    · rw [← hended]
      exact h
    · rw [hid] at h ⊢
      cases h
      exact .unrecorded
  · rw [Bool.eq_false_of_not_eq_true hended] at h
    have hlast : UpdatesOf state.id? runState.isTerminal (updates ++ calls) :=
      h.report (Or.inr ⟨id, answer, hid, hcalls⟩)
    rwa [hend] at hlast

end UpdatesOf

/-! ## Lifetimes as they should be -/

/-- `l.Proper key id? ended`: the lifetime `l` of the stream `key` has the record `id?`, if it has
one, and `ended` says whether the end was reported. -/
structure Lifetime.Proper (key : StreamKey) (id? : Option Uuid) (ended : Bool) (l : Lifetime) :
    Prop where
  /-- It begins with a started report of a connector. -/
  opens : l.opening.event.Opens key
  /-- The stream was not watched before. -/
  unwatched : l.opening.before.streams.get? key = none
  /-- No event inside clears the stream. -/
  body : ∀ entry ∈ l.body, ¬ entry.event.Clears key
  /-- The last event does, once the lifetime is over. -/
  closing : ∀ entry ∈ l.closing?, entry.event.Clears key
  /-- The first event asks for a record, in its only call, and all further calls update it. -/
  calls : ∃ create updates, callsAbout key l.opening.effects = [create] ∧
    create.request = .create create.request.report ∧ create.id? = id? ∧
    l.calls key = create :: updates ∧ UpdatesOf id? ended updates

namespace Lifetime.Proper

variable {key : StreamKey} {id? : Option Uuid} {ended : Bool} {l : Lifetime} {entry : Entry}

/-- An event that opens a stream begins a lifetime. -/
theorem opened {create : Call} (hopens : entry.event.Opens key)
    (hbefore : entry.before.streams.get? key = none)
    (hcalls : callsAbout key entry.effects = [create])
    (hrequest : create.request = .create create.request.report) :
    Lifetime.Proper key create.id? false { opening := entry } where
  opens := hopens
  unwatched := hbefore
  body := by simp
  closing := by simp
  calls := ⟨create, [], hcalls, hrequest, rfl, by simp [Lifetime.calls, hcalls], .start _⟩

/-- An event that does not clear the stream continues its lifetime. -/
theorem continued {ended' : Bool} (h : l.Proper key id? ended) (hopen : l.closing? = none)
    (hclears : ¬ entry.event.Clears key)
    (hupdates : ∀ updates, UpdatesOf id? ended updates →
      UpdatesOf id? ended' (updates ++ callsAbout key entry.effects)) :
    { l with body := l.body ++ [entry] }.Proper key id? ended' where
  opens := h.opens
  unwatched := h.unwatched
  body e he := by
    rcases List.mem_append.mp he with he | he
    · exact h.body e he
    · rw [List.mem_singleton.mp he]
      exact hclears
  closing := h.closing
  calls := by
    obtain ⟨create, updates, hcreate, hrequest, hid, hcalls, hu⟩ := h.calls
    refine ⟨create, _, hcreate, hrequest, hid, ?_, hupdates updates hu⟩
    rw [← List.cons_append, ← hcalls]
    simp [Lifetime.calls, hopen]

/-- An event that clears the stream ends its lifetime. -/
theorem closed (h : l.Proper key id? ended) (hopen : l.closing? = none)
    (hclears : entry.event.Clears key)
    (hupdates : ∀ updates, UpdatesOf id? ended updates →
      UpdatesOf id? true (updates ++ callsAbout key entry.effects)) :
    { l with closing? := some entry }.Proper key id? true where
  opens := h.opens
  unwatched := h.unwatched
  body := h.body
  closing e he := by
    obtain rfl : entry = e := by simpa using he
    exact hclears
  calls := by
    obtain ⟨create, updates, hcreate, hrequest, hid, hcalls, hu⟩ := h.calls
    refine ⟨create, _, hcreate, hrequest, hid, ?_, hupdates updates hu⟩
    rw [← List.cons_append, ← hcalls]
    simp [Lifetime.calls, hopen]

end Lifetime.Proper

/-! ## Chronicles of runs -/

namespace Chronicle

/-- `c.Tells key state?`: the chronicle `c` tells how the stream `key` came to be in `state?`. -/
structure Tells (key : StreamKey) (state? : Option StreamState) (c : Chronicle) : Prop where
  /-- Every lifetime that is over reported its end, if it had a record. -/
  past : ∀ l ∈ c.past, l.closing?.isSome ∧ ∃ id?, l.Proper key id? true
  /-- A watched stream is in the lifetime that is open, and no other stream is in one. -/
  current : c.current? = none ∧ state? = none ∨
    ∃ l state, c.current? = some l ∧ state? = some state ∧ l.closing? = none ∧
      l.Proper key state.id? state.ended

variable {σ : Type} {api : StatusApi σ} {key : StreamKey} {c : Chronicle}

/-- Adding an entry adds its calls, unless it makes calls outside of all lifetimes. -/
theorem calls_add {entry : Entry} (hopen : ∀ l ∈ c.current?, l.closing? = none)
    (hsilent : c.current? = none → ¬ entry.event.Opens key → callsAbout key entry.effects = []) :
    (c.add key entry).calls key = c.calls key ++ callsAbout key entry.effects := by
  cases hcurrent : c.current? with
  | none =>
      by_cases hopens : entry.event.Opens key
      · rw [add_of_opens hcurrent hopens]
        simp [calls, lifetimes, hcurrent, Lifetime.calls]
      · rw [add_of_not_opens hcurrent hopens, hsilent hcurrent hopens, List.append_nil]
  | some l =>
      have hclosing := hopen l hcurrent
      by_cases hclears : entry.event.Clears key
      · rw [add_of_clears hcurrent hclears]
        simp [calls, lifetimes, hcurrent, Lifetime.calls, hclosing]
      · rw [add_of_not_clears hcurrent hclears]
        simp [calls, lifetimes, hcurrent, Lifetime.calls, hclosing]

/-- One event continues the chronicle of a stream. -/
theorem Tells.track {r : Roster} (h : c.Tells key (r.streams.get? key)) (event : Event) (s : σ) :
    let turn := r.track api event s
    let after := c.add key ⟨event, r, turn.effects⟩
    after.Tells key (turn.roster.streams.get? key) ∧
      after.calls key = c.calls key ++ callsAbout key turn.effects := by
  intro turn after
  let entry : Entry := ⟨event, r, turn.effects⟩
  rcases h.current with ⟨hcurrent, hstate⟩ | ⟨l, state, hcurrent, hstate, hopen, hproper⟩
  · -- outside of all lifetimes the event opens one, or makes no call
    rcases Roster.track_unwatched api hstate event s with
      ⟨hopens, call, hrequest, hnext, hcalls⟩ | ⟨hopens, hnext, hcalls⟩
    · refine ⟨?_, calls_add (by simp [hcurrent]) fun _ hnot => absurd hopens hnot⟩
      have hafter : after = ⟨c.past, some { opening := entry }⟩ := add_of_opens hcurrent hopens
      have hproper : Lifetime.Proper key call.id? false { opening := entry } :=
        .opened hopens hstate hcalls (by rw [hrequest]; rfl)
      rw [hafter, hnext]
      exact ⟨h.past, Or.inr ⟨_, _, rfl, rfl, rfl, by simpa [StreamState.opened] using hproper⟩⟩
    · refine ⟨?_, calls_add (by simp [hcurrent]) fun _ _ => hcalls⟩
      have hafter : after = c := add_of_not_opens hcurrent hopens
      rw [hafter]
      exact ⟨h.past, Or.inl ⟨hcurrent, hnext⟩⟩
  · -- inside a lifetime the event belongs to it, whatever it does
    refine ⟨?_, calls_add (by simp [hcurrent, hopen]) (by simp [hcurrent])⟩
    rcases Roster.track_watched api hstate event s with ⟨hreports, m, htakes, hy⟩ |
      ⟨hclears, runState, cause?, hend, hy⟩ | ⟨-, hclears, hnext, hcalls⟩
    · have hafter : after = ⟨c.past, some { l with body := l.body ++ [entry] }⟩ :=
        add_of_not_clears hcurrent hreports.not_clears
      obtain ⟨next, hnext, hid, -⟩ := htakes.exists_next
      have hproper' : { l with body := l.body ++ [entry] }.Proper key next.id? next.ended := by
        rw [hid]
        exact hproper.continued hopen hreports.not_clears fun _ hu => hu.takes htakes hnext hy
      rw [hafter, (htakes.eq_next hy).trans hnext]
      exact ⟨h.past, Or.inr ⟨_, next, rfl, rfl, hopen, hproper'⟩⟩
    · have hafter : after = ⟨c.past ++ [{ l with closing? := some entry }], none⟩ :=
        add_of_clears hcurrent hclears
      have hproper' : { l with closing? := some entry }.Proper key state.id? true :=
        hproper.closed hopen hclears fun _ hu => hu.cleared (Event.isTerminal_of_ending? hend) hy
      rw [hafter]
      refine ⟨fun old hold => ?_, Or.inl ⟨rfl, (Roster.clearing_yields hy).1⟩⟩
      rcases List.mem_append.mp hold with hold | hold
      · exact h.past old hold
      · rw [List.mem_singleton.mp hold]
        exact ⟨rfl, state.id?, hproper'⟩
    · have hafter : after = ⟨c.past, some { l with body := l.body ++ [entry] }⟩ :=
        add_of_not_clears hcurrent hclears
      have hproper' : { l with body := l.body ++ [entry] }.Proper key state.id? state.ended :=
        hproper.continued hopen hclears fun _ hu => by
          rw [hcalls, List.append_nil]
          exact hu
      rw [hafter, hnext]
      exact ⟨h.past, Or.inr ⟨_, state, rfl, rfl, hopen, hproper'⟩⟩

variable (api) in
/-- A run continues the chronicle of a stream from the beginning. -/
theorem tells_of_run (events : List Event) (s : σ) (key : StreamKey) :
    let turn := Roster.trackAll api events {} s
    let c := of key (Roster.history api events {} s)
    c.Tells key (turn.roster.streams.get? key) ∧ c.calls key = callsAbout key turn.effects := by
  induction events using List.reverseRecOn with
  | nil => exact ⟨⟨by simp [of, Roster.history], Or.inl ⟨rfl, rfl⟩⟩, rfl⟩
  | append_singleton events event ih =>
      obtain ⟨htells, hcalls⟩ := ih
      obtain ⟨hafter, hcalls'⟩ := htells.track event (Roster.trackAll api events {} s).api
      rw [Roster.trackAll_concat, Roster.history_concat]
      simp only [of, List.foldl_append, List.foldl_cons, List.foldl_nil, callsAbout_append]
      refine ⟨hafter, ?_⟩
      rw [← hcalls]
      exact hcalls'

/-- A lifetime is open exactly while its stream is watched. -/
theorem Tells.exists_open_iff {state? : Option StreamState} (h : c.Tells key state?) :
    (∃ l ∈ c.lifetimes, l.closing? = none) ↔ state? ≠ none := by
  constructor
  · rintro ⟨l, hl, hopen⟩
    rcases List.mem_append.mp hl with hl | hl
    · have hclosed := (h.past l hl).1
      rw [hopen] at hclosed
      cases hclosed
    · rcases h.current with ⟨hcurrent, -⟩ | ⟨-, state, -, hstate, -⟩
      · simp [hcurrent] at hl
      · simp [hstate]
  · intro hstate
    rcases h.current with ⟨-, hnone⟩ | ⟨l, -, hcurrent, -, hopen, -⟩
    · exact absurd hnone hstate
    · exact ⟨l, by simp [lifetimes, hcurrent], hopen⟩

/-- The last call about a watched stream is one of its lifetime. -/
theorem Tells.getLast?_calls {state? : Option StreamState} (h : c.Tells key state?)
    (hstate : state? ≠ none) :
    ∃ l, c.current? = some l ∧ (l.calls key).getLast? = (c.calls key).getLast? := by
  rcases h.current with ⟨-, hnone⟩ | ⟨l, state, hcurrent, -, -, hproper⟩
  · exact absurd hnone hstate
  · obtain ⟨create, updates, -, -, -, hcalls, -⟩ := hproper.calls
    refine ⟨l, hcurrent, ?_⟩
    have hsplit : c.calls key = c.past.flatMap (·.calls key) ++ l.calls key := by
      simp [calls, lifetimes, hcurrent]
    rw [hsplit, hcalls, List.getLast?_append_of_ne_nil _ (List.cons_ne_nil _ _)]

/-- Every lifetime is as it should be, and those that are over reported their end. -/
theorem Tells.exists_proper {state? : Option StreamState} (h : c.Tells key state?) :
    ∀ l ∈ c.lifetimes, ∃ id? ended, l.Proper key id? ended ∧ (l.closing?.isSome → ended) := by
  intro l hl
  rcases List.mem_append.mp hl with hl | hl
  · obtain ⟨-, id?, hproper⟩ := h.past l hl
    exact ⟨id?, true, hproper, fun _ => rfl⟩
  · rcases h.current with ⟨hcurrent, -⟩ | ⟨current, state, hcurrent, -, hopen, hproper⟩
    · simp [hcurrent] at hl
    · obtain rfl : l = current := by simpa [hcurrent] using hl
      exact ⟨state.id?, state.ended, hproper, by simp [hopen]⟩

end Chronicle

namespace Roster

variable {σ : Type} (api : StatusApi σ)

/-- As many streams are watched as there are keys of watched streams. -/
theorem size_eq_encard (r : Roster) :
    (r.streams.size : ℕ∞) = {key | r.streams.get? key ≠ none}.encard := by
  have hkeys : {key | r.streams.get? key ≠ none} = (r.streams.keys.toFinset : Set StreamKey) := by
    ext key
    simp [Table.mem_keys]
  have hnodup : r.streams.keys.Nodup := r.streams.nodup
  rw [hkeys, Set.encard_coe_eq_coe_finsetCard, List.toFinset_card_of_nodup hnodup, Table.keys,
    List.length_map, Table.size]

/-- The calls about a stream fall into its lifetimes, each of which is as it should be: one call for
a record, made by a started report while the stream is not watched, and updates of that record, of
which the last one may, and after the lifetime must, report an end. As many streams are watched as
there are lifetimes that are open. -/
theorem calls_fall_into_lifetimes (events : List Event) (s : σ) :
    let turn := trackAll api events {} s
    let lifetimes key := (Chronicle.of key (history api events {} s)).lifetimes
    (∀ key, callsAbout key turn.effects = (lifetimes key).flatMap (·.calls key) ∧
      ∀ l ∈ lifetimes key, ∃ id? ended,
        l.Proper key id? ended ∧ (l.closing?.isSome → ended)) ∧
    (turn.roster.streams.size : ℕ∞) =
      {key | ∃ l ∈ lifetimes key, l.closing? = none}.encard := by
  intro turn lifetimes
  constructor
  · intro key
    obtain ⟨htells, hcalls⟩ := Chronicle.tells_of_run api events s key
    exact ⟨hcalls.symm, htells.exists_proper⟩
  · have hopen : {key | ∃ l ∈ lifetimes key, l.closing? = none} =
        {key | turn.roster.streams.get? key ≠ none} := by
      ext key
      exact (Chronicle.tells_of_run api events s key).1.exists_open_iff
    rw [hopen]
    exact size_eq_encard turn.roster

end Roster

end StreamWatch
