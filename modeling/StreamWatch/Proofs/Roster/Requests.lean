import StreamWatch.Proofs.Binary64.Truncate
import StreamWatch.Proofs.Roster.Isolation

/-!
# What requests say

A request to the status API takes each of its fields from one place: from the key of the stream,
from the report that opened its lifetime, or from the event that is being tracked. Nothing is left
over in it from what happened in between: `requests_well_formed`.
-/

namespace StreamWatch

/-! ## Requests as they should be -/

/-- `report.Conveys event`: the update says of a transition what the event says. -/
structure Report.Conveys (report : Report) (event : Event) : Prop where
  /-- An incomplete stream has the cause of the event, or has failed. No other one has a cause. -/
  cause : report.cause? =
    if report.runState = .incomplete then some (event.cause?.getD .failed) else none
  /-- A limit comes with the run state for it, -/
  limited : report.limit?.isSome ↔ report.runState = .rateLimited
  /-- and is that of the first such reason of the event. -/
  limit : ∀ limit ∈ report.limit?, ∃ reason,
    event.message.reasons.find? (·.kind = .rateLimited) = some reason ∧
      limit.quotaReset = reason.limit.bind (·.quotaReset)

/-- `request.WellFormed key opening event`: the request is one about the stream `key`, in the
lifetime that `opening` opened, when `event` is tracked. -/
structure Request.WellFormed (request : Request) (key : StreamKey) (opening event : Event) :
    Prop where
  /-- It names the stream that was opened and that the event addresses. -/
  key : request.report.key = key ∧ opening.key? = some key ∧ event.Addresses key
  /-- Its kind of job is that of the opening. -/
  jobKind : request.report.jobKind = if opening.context.isReset then .reset else .sync
  /-- Its time is that of the event, in whole milliseconds that fit into 64 bits. -/
  time : request.report.time.toInt = clamp (truncate event.message.emittedAt.value)
  /-- A record is asked for as running. -/
  create : ∀ report, request = .create report →
    report.runState = .running ∧ report.cause? = none ∧ report.limit? = none
  /-- An update says what the event says. -/
  update : ∀ id report, request = .update id report → report.Conveys event

/-! ## Transitions -/

/-- The limit of a message is that of its first reason for one. -/
theorem Message.exists_reason {m : Message} {limit : RateLimit} (h : m.limit? = some limit) :
    ∃ reason, m.reasons.find? (·.kind = .rateLimited) = some reason ∧
      limit.quotaReset = reason.limit.bind (·.quotaReset) := by
  unfold limit? at h
  split at h
  · obtain ⟨reason, hreason, rfl⟩ := Option.map_eq_some_iff.mp h
    exact ⟨reason, hreason, rfl⟩
  · cases h

namespace StreamState

variable {s next : StreamState} {key : StreamKey} {e : Event} {m : Move} {cause? : Option Cause}

/-- A stream that starts is reported as running, for the job and at the time of its event. -/
theorem report_opened (key : StreamKey) (e : Event) :
    (opened e).report key none = ⟨key, e.context.jobKind, .running, e.time, none, none⟩ := by
  rw [opened]
  cases e.origin <;> rfl

/-- A stream that runs on says under which limit. -/
theorem conveys_resumed (s : StreamState) (key : StreamKey) (e : Event) :
    ((s.resumed e.message.limit? e.time).report key none).Conveys e where
  cause := by cases h : e.message.limit? <;> rfl
  limited := by
    change e.message.limit?.isSome ↔ (if e.message.limit?.isSome then _ else _) = _
    cases e.message.limit?.isSome <;> simp
  limit _ h := Message.exists_reason h

/-- A stream that ends says why. -/
theorem conveys_closed (s : StreamState) (key : StreamKey) {runState : RunState}
    (h : runState = .complete ∧ cause? = none ∨ runState = .incomplete ∧ cause? = some e.cause)
    (time : Int64) : ((s.closed runState time).report key cause?).Conveys e := by
  rcases h with ⟨rfl, rfl⟩ | ⟨rfl, rfl⟩
  · exact ⟨rfl, ⟨nofun, nofun⟩, nofun⟩
  · exact ⟨rfl, ⟨nofun, nofun⟩, nofun⟩

/-- What a report makes known is what the event says, at its time, and for the same job. -/
theorem Takes.conveys (h : s.Takes key e m) (hact : m.act = .report next cause?) :
    (next.report key cause?).Conveys e ∧ next.changedAt = e.time ∧ next.jobKind = s.jobKind := by
  cases h with
  | again | late | half | repeated => cases hact
  | resumed _ _ _ _ hm =>
      cases hact
      rw [hm]
      exact ⟨conveys_resumed _ key e, rfl, hear_jobKind s _ _⟩
  | completed _ _ _ hm =>
      cases hact
      rw [hm]
      exact ⟨conveys_closed _ key (Or.inl ⟨rfl, rfl⟩) _, rfl, hear_jobKind s _ _⟩
  | failed _ _ hm =>
      cases hact
      rw [hm]
      exact ⟨conveys_closed _ key (Or.inr ⟨rfl, rfl⟩) _, rfl, hear_jobKind s _ _⟩

end StreamState

namespace Event.Makes

variable {e : Event} {key : StreamKey} {state? : Option StreamState} {m : Move} {next : StreamState}
  {cause? : Option Cause}

/-- A transition is that of a watched stream, and is reported as the event says. -/
theorem of_report (h : e.Makes key state? m) (hact : m.act = .report next cause?) :
    ∃ state, state? = some state ∧ (next.report key cause?).Conveys e ∧
      next.changedAt = e.time ∧ next.jobKind = state.jobKind := by
  cases h with
  | report hreports =>
      cases state? with
      | none =>
          rcases Move.ofReport_none key e with ⟨-, hm⟩ | ⟨-, notice, hm⟩
          all_goals
            rw [hm] at hact
            cases hact
      | some state => exact ⟨state, rfl, (Move.ofReport_takes key e state).conveys hact⟩
  | clearing _ hend =>
      unfold Move.ofClearing at hact
      split at hact
      · cases hact
      · next state =>
          split at hact
          · cases hact
          · cases hact
            refine ⟨state, rfl, StreamState.conveys_closed state key ?_ _, rfl, rfl⟩
            exact (ending?_eq_some hend).imp And.right And.right

/-- A request is well formed: one for a record by itself, and an update if its stream was opened for
the kind of job that it is remembered with. -/
theorem wellFormed {request : Request} (h : e.Makes key state? m)
    (hrequest : m.request? key = some request) (hfinite : e.message.emittedAt.isFinite) :
    (state? = none ∧ request.WellFormed key e e) ∨
      ∃ state, state? = some state ∧ ∀ opening : Event, opening.key? = some key →
        state.jobKind = opening.context.jobKind → request.WellFormed key opening e := by
  have htime : e.time.toInt = clamp (truncate e.message.emittedAt.value) :=
    Binary64.toInt_toInt64 hfinite
  unfold Move.request? at hrequest
  split at hrequest
  · cases hrequest
  · next hact =>
      cases hrequest
      obtain ⟨hopens, hstate, rfl, -⟩ := h.eq_of_create hact
      rw [StreamState.report_opened]
      refine Or.inl ⟨hstate, ⟨rfl, hopens.1.2, h.addresses⟩, rfl, htime, fun report heq => ?_,
        nofun⟩
      cases heq
      exact ⟨rfl, rfl, rfl⟩
  · next hact =>
      obtain ⟨id, -, rfl⟩ := Option.map_eq_some_iff.mp hrequest
      obtain ⟨state, hstate, hconveys, hchanged, hkind⟩ := h.of_report hact
      refine Or.inr ⟨state, hstate, fun opening hopening hjob =>
        ⟨⟨rfl, hopening, h.addresses⟩, hkind.trans hjob, ?_, nofun, fun _ report heq => ?_⟩⟩
      · rw [← htime, ← hchanged]
        rfl
      · cases heq
        exact hconveys

end Event.Makes

/-- The calls of a move make its request. -/
theorem Move.Yields.request?_eq {σ : Type} {api : StatusApi σ} {key : StreamKey} {m : Move}
    {next : Option StreamState} {calls : List Call} (h : m.Yields api key next calls) :
    ∀ call ∈ calls, m.request? key = some call.request := by
  intro call hcall
  cases h with
  | silent => cases hcall
  | call s hrequest =>
      rw [List.mem_singleton.mp hcall]
      exact hrequest

namespace Roster

variable {σ : Type} (api : StatusApi σ) {key : StreamKey} {r : Roster} {event : Event} {call : Call}

/-- A call makes the request of the move that its event makes. -/
theorem exists_makes_of_call {s : σ} (h : call ∈ callsAbout key (r.track api event s).effects) :
    ∃ m, event.Makes key (r.streams.get? key) m ∧ m.request? key = some call.request := by
  rcases track_seen_from api key event r s with ⟨m, hmakes, hy⟩ | ⟨-, -, -, hnone⟩
  · exact ⟨m, hmakes, hy.request?_eq call h⟩
  · rw [hnone] at h
    cases h

/-- A stream is watched for the kind of job of the event that opened it. -/
theorem jobKind_of_track {next : StreamState} {s : σ}
    (h : (r.track api event s).roster.streams.get? key = some next) :
    (r.streams.get? key = none ∧ next.jobKind = event.context.jobKind) ∨
      ∃ state, r.streams.get? key = some state ∧ next.jobKind = state.jobKind := by
  rcases track_watched_cases api h with ⟨-, -, hsame⟩ | ⟨-, hnone, id?, rfl⟩ |
    ⟨-, state, m, hstate, htakes, hm⟩
  · exact Or.inr ⟨next, hsame, rfl⟩
  · exact Or.inl ⟨hnone, StreamState.hear_jobKind _ _ _⟩
  · obtain ⟨next', hnext, -, hjob⟩ := htakes.exists_next
    rw [hm] at hnext
    cases hnext
    exact Or.inr ⟨state, hstate, hjob⟩

/-- An event that opens a stream makes a well formed request. -/
theorem wellFormed_of_unwatched (hfinite : event.message.emittedAt.isFinite)
    (h : r.streams.get? key = none) {s : σ}
    (hcall : call ∈ callsAbout key (r.track api event s).effects) :
    call.request.WellFormed key event event := by
  obtain ⟨m, hmakes, hrequest⟩ := exists_makes_of_call api hcall
  rcases hmakes.wellFormed hrequest hfinite with ⟨-, hformed⟩ | ⟨state, hstate, -⟩
  · exact hformed
  · rw [h] at hstate
    cases hstate

/-- So does one that comes later in its lifetime. -/
theorem wellFormed_of_watched (hfinite : event.message.emittedAt.isFinite) {state : StreamState}
    (h : r.streams.get? key = some state) {opening : Event} (hopening : opening.key? = some key)
    (hkind : state.jobKind = opening.context.jobKind) {s : σ}
    (hcall : call ∈ callsAbout key (r.track api event s).effects) :
    call.request.WellFormed key opening event := by
  obtain ⟨m, hmakes, hrequest⟩ := exists_makes_of_call api hcall
  rcases hmakes.wellFormed hrequest hfinite with ⟨hnone, -⟩ | ⟨state', hstate, hformed⟩
  · rw [h] at hnone
    cases hnone
  · rw [h] at hstate
    cases hstate
    exact hformed opening hopening hkind

end Roster

/-! ## Lifetimes -/

/-- The entries of a lifetime, in order. -/
def Lifetime.entries (l : Lifetime) : List Entry := l.opening :: (l.body ++ l.closing?.toList)

section Lifetime

variable {key : StreamKey} {l : Lifetime} {entry : Entry}

/-- An event that joins an open lifetime is its last one. -/
theorem Lifetime.entries_continued (hopen : l.closing? = none) :
    { l with body := l.body ++ [entry] }.entries = l.entries ++ [entry] := by
  simp [entries, hopen]

theorem Lifetime.entries_closed (hopen : l.closing? = none) :
    { l with closing? := some entry }.entries = l.entries ++ [entry] := by
  simp [entries, hopen]

/-- The requests of a lifetime about its stream are well formed. -/
def Lifetime.WellFormed (key : StreamKey) (l : Lifetime) : Prop :=
  ∀ entry ∈ l.entries, ∀ call ∈ callsAbout key entry.effects,
    call.request.WellFormed key l.opening.event entry.event

/-- One more entry of a lifetime adds its own requests. -/
theorem Lifetime.WellFormed.concat {l' : Lifetime} (h : l.WellFormed key)
    (hopening : l'.opening = l.opening) (hentries : l'.entries = l.entries ++ [entry])
    (hentry : ∀ call ∈ callsAbout key entry.effects,
      call.request.WellFormed key l.opening.event entry.event) : l'.WellFormed key := by
  unfold WellFormed
  rw [hentries, hopening]
  exact List.forall_mem_append.mpr ⟨h, List.forall_mem_singleton.mpr hentry⟩

end Lifetime

/-! ## Runs -/

namespace Chronicle

/-- `c.WellFormed key state?`: the requests in the chronicle `c` are well formed, and the next ones
of the stream `key` in `state?` will be. -/
structure WellFormed (key : StreamKey) (state? : Option StreamState) (c : Chronicle) : Prop where
  requests : ∀ l ∈ c.lifetimes, l.WellFormed key
  /-- The kind of job that is remembered is that of the opening. -/
  jobKind : ∀ l ∈ c.current?, ∀ state ∈ state?, state.jobKind = l.opening.event.context.jobKind

variable {σ : Type} {api : StatusApi σ} {key : StreamKey} {c : Chronicle}

/-- One event adds well formed requests. -/
theorem WellFormed.track {r : Roster} (h : c.WellFormed key (r.streams.get? key))
    (htells : c.Tells key (r.streams.get? key)) {event : Event}
    (hfinite : event.message.emittedAt.isFinite) (s : σ) :
    let turn := r.track api event s
    (c.add key ⟨event, r, turn.effects⟩).WellFormed key (turn.roster.streams.get? key) := by
  intro turn
  let entry : Entry := ⟨event, r, turn.effects⟩
  have hpast : ∀ l ∈ c.past, l.WellFormed key := fun l hl =>
    h.requests l (List.mem_append_left _ hl)
  -- outside of all lifetimes only an opening event makes a request; inside one, every request is
  -- compared with the opening, whose kind of job the stream has kept
  rcases htells.current with ⟨hcurrent, hstate⟩ | ⟨l, state, hcurrent, hstate, hopen, hproper⟩
  · by_cases hopens : event.Opens key
    · have hafter : c.add key entry = ⟨c.past, some { opening := entry }⟩ :=
        add_of_opens hcurrent hopens
      rw [hafter]
      refine ⟨List.forall_mem_append.mpr ⟨hpast, List.forall_mem_singleton.mpr ?_⟩,
        fun l hl next hnext => ?_⟩
      · exact List.forall_mem_singleton.mpr fun call hcall =>
          Roster.wellFormed_of_unwatched api hfinite hstate hcall
      · cases hl
        rcases Roster.jobKind_of_track api hnext with ⟨-, hjob⟩ | ⟨state, hsome, -⟩
        · exact hjob
        · rw [hstate] at hsome
          cases hsome
    · have hafter : c.add key entry = c := add_of_not_opens hcurrent hopens
      rw [hafter]
      exact ⟨h.requests, by simp [hcurrent]⟩
  · have hkind : state.jobKind = l.opening.event.context.jobKind :=
      h.jobKind l hcurrent state hstate
    have hl : l.WellFormed key := h.requests l (by simp [lifetimes, hcurrent])
    have hentry : ∀ call ∈ callsAbout key entry.effects,
        call.request.WellFormed key l.opening.event event := fun call hcall =>
      Roster.wellFormed_of_watched api hfinite hstate hproper.opens.1.2 hkind hcall
    by_cases hclears : event.Clears key
    · have hafter : c.add key entry = ⟨c.past ++ [{ l with closing? := some entry }], none⟩ :=
        add_of_clears hcurrent hclears
      rw [hafter]
      refine ⟨?_, by simp⟩
      rw [lifetimes, Option.toList_none, List.append_nil]
      exact List.forall_mem_append.mpr ⟨hpast, List.forall_mem_singleton.mpr <|
        hl.concat rfl (Lifetime.entries_closed hopen) hentry⟩
    · have hafter : c.add key entry = ⟨c.past, some { l with body := l.body ++ [entry] }⟩ :=
        add_of_not_clears hcurrent hclears
      rw [hafter]
      refine ⟨List.forall_mem_append.mpr ⟨hpast, List.forall_mem_singleton.mpr <|
        hl.concat rfl (Lifetime.entries_continued hopen) hentry⟩, fun l' hl' next hnext => ?_⟩
      cases hl'
      rcases Roster.jobKind_of_track api hnext with ⟨hnone, -⟩ | ⟨before, hbefore, hjob⟩
      · rw [hstate] at hnone
        cases hnone
      · rw [hstate] at hbefore
        cases hbefore
        exact hjob.trans hkind

variable (api) in
/-- A run makes well formed requests from the beginning. -/
theorem wellFormed_of_run (events : List Event) (s : σ) (key : StreamKey)
    (hfinite : ∀ event ∈ events, event.message.emittedAt.isFinite) :
    (of key (Roster.history api events {} s)).WellFormed key
      ((Roster.trackAll api events {} s).roster.streams.get? key) := by
  induction events using List.reverseRecOn with
  | nil => exact ⟨by simp [of, Roster.history, lifetimes], by simp [of, Roster.history]⟩
  | append_singleton events event ih =>
      have hbefore := ih fun e he => hfinite e (List.mem_append_left _ he)
      have htells := (tells_of_run api events s key).1
      rw [Roster.trackAll_concat, Roster.history_concat]
      simp only [of, List.foldl_append, List.foldl_cons, List.foldl_nil]
      exact hbefore.track htells (hfinite event (by simp)) _

end Chronicle

namespace Roster

variable {σ : Type} (api : StatusApi σ)

/-- All calls about a stream are those of its lifetimes, and in each of these they are as they
should be: they name the stream, have the kind of job of the report that opened the lifetime and the
time of the event that is tracked. The call for a record says that the stream runs, and nothing
else; an update gives the cause of this event if the stream is incomplete, and the first limit of
this event if the stream is rate limited. -/
theorem requests_well_formed (events : List Event) (s : σ)
    (hfinite : ∀ event ∈ events, event.message.emittedAt.isFinite) (key : StreamKey) :
    let lifetimes := (Chronicle.of key (history api events {} s)).lifetimes
    callsAbout key (trackAll api events {} s).effects = lifetimes.flatMap (·.calls key) ∧
    ∀ l ∈ lifetimes, l.opening.event.Opens key ∧
      (∀ entry ∈ l.body, ¬ entry.event.Clears key) ∧
      (∀ entry ∈ l.closing?, entry.event.Clears key) ∧
      ∀ entry ∈ l.entries, ∀ call ∈ callsAbout key entry.effects,
        call.request.WellFormed key l.opening.event entry.event := by
  intro lifetimes
  obtain ⟨htells, hcalls⟩ := Chronicle.tells_of_run api events s key
  refine ⟨hcalls.symm, fun l hl => ?_⟩
  obtain ⟨_, _, hproper, -⟩ := htells.exists_proper l hl
  exact ⟨hproper.opens, hproper.body, hproper.closing,
    (Chronicle.wellFormed_of_run api events s key hfinite).requests l hl⟩

/-- A reset is reported as one, also where later events do not say so: at a time with a fraction,
under a limit, and in a failure without a cause. -/
theorem requests_well_formed_of_reset :
    let started : Event :=
      { Sample.event .source .started with context := { Sample.context with isReset := true } }
    let limited : Event :=
      { Sample.event .source .running with
        message.emittedAt := .finite true ⟨1023 * octave + octave / 2, by decide⟩
        message.reasons := [{ kind := .rateLimited, limit := some { quotaReset := some 5 } }] }
    let events := [started, limited, Sample.event .destination .incomplete]
    let calls := callsAbout Sample.orders (trackAll Sample.granting events {} ()).effects
    calls.length = 3 ∧ ∀ call ∈ calls, call.request.report.jobKind = .reset := by
  intro started limited events calls
  refine ⟨by decide, fun call hcall => ?_⟩
  obtain ⟨hcalls, hformed⟩ :=
    requests_well_formed Sample.granting events () (by decide) Sample.orders
  change call ∈ callsAbout Sample.orders (trackAll Sample.granting events {} ()).effects at hcall
  rw [hcalls] at hcall
  obtain ⟨l, hl, hcall⟩ := List.mem_flatMap.mp hcall
  obtain ⟨entry, hentry, hcall⟩ := List.mem_flatMap.mp hcall
  have hopening : ∀ l ∈
      (Chronicle.of Sample.orders (history Sample.granting events {} ())).lifetimes,
      l.opening.event = started := by decide
  obtain ⟨-, -, -, hrequests⟩ := hformed l hl
  have hjob := (hrequests entry hentry call hcall).jobKind
  rw [hopening l hl] at hjob
  exact hjob

end Roster

end StreamWatch
