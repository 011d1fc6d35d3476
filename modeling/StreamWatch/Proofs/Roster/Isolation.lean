import StreamWatch.Api.Outage
import StreamWatch.Proofs.Roster.Lifetime
import StreamWatch.Proofs.Roster.Limited

/-!
# Streams by themselves

What is known about a stream depends on the events that address it, and of these on the ones since
it was opened. So a run that tracks nothing else, on a fresh roster, comes to know the same of the
stream and makes the same calls about it, but for identifiers: `seen_alone`. Events of other streams
and of other runs, reports from before the stream started and everything before it was last cleared
have no part in it.
-/

namespace StreamWatch

/-! ## The events of a stream -/

namespace Event

variable {e : Event} {key : StreamKey}

/-- The event names the stream, or speaks of every stream of its run. -/
def Addresses (e : Event) (key : StreamKey) : Prop :=
  e.key? = some key ∨ e.isRunWide ∧ e.run = key.run

instance (e : Event) (key : StreamKey) : Decidable (e.Addresses key) :=
  inferInstanceAs (Decidable (_ ∨ _))

theorem Reports.addresses (h : e.Reports key) : e.Addresses key := Or.inl h.2

/-- A clearing event addresses every stream that it clears. -/
theorem Clears.addresses (h : e.Clears key) : e.Addresses key := h.2.2

/-- Only events that report on a stream or clear it move it. -/
theorem Makes.reports_or_clears {state? : Option StreamState} {m : Move}
    (h : e.Makes key state? m) : e.Reports key ∨ e.Clears key := by
  cases h with
  | report hreports => exact Or.inl hreports
  | clearing hclears => exact Or.inr hclears

/-- A move is made by an event that addresses the stream. -/
theorem Makes.addresses {state? : Option StreamState} {m : Move} (h : e.Makes key state? m) :
    e.Addresses key :=
  h.reports_or_clears.elim Reports.addresses Clears.addresses

end Event

/-- The events of a lifetime, in order. -/
def Lifetime.events (l : Lifetime) : List Event :=
  (l.opening :: (l.body ++ l.closing?.toList)).map (·.event)

/-! ## The same but for identifiers -/

/-- Whether a call succeeds depends on its request, and not on the identifier in it. -/
def StatusApi.Blind {σ : Type} (api : StatusApi σ) : Prop :=
  ∀ request request' s s', request.unnamed = request'.unnamed →
    (api.answer request s).1.isOk = (api.answer request' s').1.isOk

/-- The call but for identifiers: what it asks, and whether it succeeded. -/
def Call.unnamed (c : Call) : (Request.Kind × Report) × Bool := (c.request.unnamed, c.succeeded)

/-- The same is known of a stream but for the identifier, and it has a record in both cases or in
neither. -/
structure KnownAlike (state? state?' : Option StreamState) : Prop where
  unnamed : state?.map StreamState.unnamed = state?'.map StreamState.unnamed
  isSome_id? : (state?.bind (·.id?)).isSome = (state?'.bind (·.id?)).isSome

section Move

variable {σ : Type} {api : StatusApi σ} {key : StreamKey}

/-- Calls for the same but for the identifier succeed or fail alike. -/
theorem StatusApi.Blind.unnamed_eq (hblind : api.Blind) {c c' : Call}
    (hrequest : c.request.unnamed = c'.request.unnamed)
    (hc : ∃ s, c.answer = (api.answer c.request s).1)
    (hc' : ∃ s, c'.answer = (api.answer c'.request s).1) : c.unnamed = c'.unnamed := by
  obtain ⟨s, hs⟩ := hc
  obtain ⟨s', hs'⟩ := hc'
  rw [Call.unnamed, Call.unnamed, Call.succeeded, Call.succeeded, hs, hs', hrequest,
    hblind _ _ s s' hrequest]

/-- An outage does not look at identifiers. -/
theorem StatusApi.Blind.applyTo (hblind : api.Blind) (o : Outage) : (o.applyTo api).Blind := by
  intro request request' s s' hsame
  have hfailure : o.failure? request = o.failure? request' := by
    cases request <;> cases request' <;> cases hsame <;> rfl
  simp only [Outage.applyTo, hfailure]
  cases o.failure? request' with
  | some failure => rfl
  | none => exact hblind _ _ s s' hsame

/-- Where the same is known but for the identifier, the same move leaves it so, and makes the same
call but for the identifier. -/
theorem Move.Yields.alike (hblind : api.Blind) {e : Event} {state? state?' : Option StreamState}
    (hknown : KnownAlike state? state?') {m : Move} (hm : e.Makes key state? m)
    {next next' : Option StreamState} {calls calls' : List Call}
    (hy : m.Yields api key next calls)
    (hy' : (m.withId (state?'.bind (·.id?))).Yields api key next' calls') :
    KnownAlike next next' ∧ calls.map Call.unnamed = calls'.map Call.unnamed := by
  have hanswered := hy.answered
  have hanswered' := hy'.answered
  have hsome := hknown.isSome_id?
  generalize state?'.bind (·.id?) = x at hy' hsome
  cases hm.honest with
  | @create state _ hnone hid =>
      obtain ⟨call, hrequest, rfl, rfl⟩ := hy.of_create rfl hid
      obtain ⟨call', hrequest', rfl, rfl⟩ := hy'.of_create rfl hid
      have hcall : call.unnamed = call'.unnamed :=
        hblind.unnamed_eq (by rw [hrequest, hrequest']) (hanswered call List.mem_cons_self)
          (hanswered' call' List.mem_cons_self)
      have hsucceeded : call.succeeded = call'.succeeded := congrArg Prod.snd hcall
      -- the identifiers may differ, but not whether there is one
      refine ⟨⟨rfl, ?_⟩, by rw [List.map_singleton, List.map_singleton, hcall]⟩
      rw [← Call.isSome_id?, ← Call.isSome_id?] at hsucceeded
      exact hsucceeded
  | @report state after _ _ cause? hstate hid _ hor =>
      rw [hstate, Option.bind_some, ← hid] at hsome
      obtain ⟨rfl, hcalls⟩ := hy.of_report rfl
      obtain ⟨rfl, hcalls'⟩ := hy'.of_report rfl
      constructor
      · rcases hor with rfl | rfl
        · exact ⟨rfl, hsome⟩
        · exact ⟨rfl, rfl⟩
      · -- both report the transition, or both have nothing to update
        rcases hcalls with ⟨hnone, rfl⟩ | ⟨id, answer, hid', rfl⟩
        · rcases hcalls' with ⟨-, rfl⟩ | ⟨id', answer', hid'', rfl⟩
          · rfl
          · rw [hnone, show x = some id' from hid''] at hsome
            cases hsome
        · rcases hcalls' with ⟨hnone, rfl⟩ | ⟨id', answer', -, rfl⟩
          · rw [hid', show x = none from hnone] at hsome
            cases hsome
          · rw [List.map_singleton, List.map_singleton]
            exact congrArg (fun c => [c]) (hblind.unnamed_eq rfl
              (hanswered _ List.mem_cons_self) (hanswered' _ List.mem_cons_self))
  | dropped =>
      obtain ⟨rfl, rfl⟩ := hy.of_note rfl
      obtain ⟨rfl, rfl⟩ := hy'.of_note rfl
      exact ⟨⟨rfl, rfl⟩, rfl⟩
  | kept hstate hid =>
      obtain ⟨rfl, rfl⟩ := hy.of_note rfl
      obtain ⟨rfl, rfl⟩ := hy'.of_note rfl
      rw [hstate, Option.bind_some, ← hid] at hsome
      exact ⟨⟨rfl, hsome⟩, rfl⟩

end Move

/-! ## Runs over the events of a stream -/

namespace Roster

section Filter

variable {σ : Type} {api : StatusApi σ} {key : StreamKey}

variable (api) in
/-- An event that does not address a stream leaves it alone. -/
theorem track_of_not_addresses {event : Event} (h : ¬ event.Addresses key) (r : Roster) (s : σ) :
    (r.track api event s).roster.streams.get? key = r.streams.get? key ∧
      callsAbout key (r.track api event s).effects = [] := by
  rcases track_seen_from api key event r s with ⟨m, hm, -⟩ | ⟨-, -, hsame, hcalls⟩
  · exact absurd hm.addresses h
  · exact ⟨hsame, hcalls⟩

/-- An event means the same to a stream of which the same is known but for the identifier. -/
theorem track_alike (hblind : api.Blind) {r r' : Roster}
    (h : KnownAlike (r.streams.get? key) (r'.streams.get? key)) (event : Event) (s s' : σ) :
    let turn := r.track api event s
    let turn' := r'.track api event s'
    KnownAlike (turn.roster.streams.get? key) (turn'.roster.streams.get? key) ∧
      (callsAbout key turn.effects).map Call.unnamed =
        (callsAbout key turn'.effects).map Call.unnamed := by
  intro turn turn'
  rcases track_seen_from api key event r s with ⟨m, hm, hy⟩ | ⟨hreports, hclears, hsame, hcalls⟩
  · rcases track_seen_from api key event r' s' with ⟨m', hm', hy'⟩ | ⟨hreports, hclears, -⟩
    · rw [hm'.unique (hm.withId h.unnamed)] at hy'
      exact hy.alike hblind h hm hy'
    · exact absurd hm.reports_or_clears (not_or.mpr ⟨hreports, hclears⟩)
  · rcases track_seen_from api key event r' s' with ⟨m', hm', -⟩ | ⟨-, -, hsame', hcalls'⟩
    · exact absurd hm'.reports_or_clears (not_or.mpr ⟨hreports, hclears⟩)
    · refine ⟨?_, by rw [hcalls, hcalls']⟩
      rw [hsame, hsame']
      exact h

/-- The events that address a stream mean to it what they mean among others. -/
theorem trackAll_filter_alike (hblind : api.Blind) (events : List Event) {r r' : Roster}
    (h : KnownAlike (r.streams.get? key) (r'.streams.get? key)) (s s' : σ) :
    let turn := trackAll api events r s
    let alone := trackAll api (events.filter (·.Addresses key)) r' s'
    KnownAlike (turn.roster.streams.get? key) (alone.roster.streams.get? key) ∧
      (callsAbout key turn.effects).map Call.unnamed =
        (callsAbout key alone.effects).map Call.unnamed := by
  induction events generalizing r r' s s' with
  | nil => exact ⟨h, rfl⟩
  | cons event rest ih =>
      by_cases haddresses : event.Addresses key
      · rw [List.filter_cons_of_pos (by simpa using haddresses)]
        obtain ⟨hfirst, hcalls⟩ := track_alike hblind h event s s'
        obtain ⟨hrest, hcalls'⟩ := ih hfirst (r.track api event s).api (r'.track api event s').api
        refine ⟨hrest, ?_⟩
        simp only [trackAll, callsAbout_append, List.map_append, hcalls, hcalls']
      · rw [List.filter_cons_of_neg (by simpa using haddresses)]
        obtain ⟨hsame, hnone⟩ := track_of_not_addresses api haddresses r s
        rw [← hsame] at h
        obtain ⟨hrest, hcalls⟩ := ih h (r.track api event s).api s'
        refine ⟨hrest, ?_⟩
        simpa only [trackAll, callsAbout_append, hnone, List.nil_append] using hcalls

end Filter

/-! ## Histories and lifetimes -/

section History

variable {σ : Type} (api : StatusApi σ)

/-- The history of a run has its events, in order. -/
theorem map_event_history (events : List Event) (r : Roster) (s : σ) :
    (history api events r s).map (·.event) = events := by
  induction events generalizing r s with
  | nil => rfl
  | cons event rest ih => rw [history, List.map_cons, ih]

/-- The calls about a stream in a history are those of the run. -/
theorem flatMap_calls_history (key : StreamKey) (events : List Event) (r : Roster) (s : σ) :
    (history api events r s).flatMap (fun entry => callsAbout key entry.effects) =
      callsAbout key (trackAll api events r s).effects := by
  induction events generalizing r s with
  | nil => rfl
  | cons event rest ih => rw [history, List.flatMap_cons, ih, trackAll, callsAbout_append]

variable {api} in
/-- What comes last in a history is the history of the last events. -/
theorem history_eq_append {events : List Event} {r : Roster} {s : σ} {first last : List Entry}
    (h : history api events r s = first ++ last) :
    ∃ earlier, events = earlier ++ last.map (·.event) ∧
      let before := trackAll api earlier r s
      last = history api (last.map (·.event)) before.roster before.api := by
  induction first generalizing events r s with
  | nil =>
      rw [List.nil_append] at h
      rw [← h, map_event_history]
      exact ⟨[], rfl, rfl⟩
  | cons entry first ih =>
      cases events with
      | nil => cases h
      | cons event rest =>
          rw [history, List.cons_append, List.cons.injEq] at h
          obtain ⟨earlier, hevents, hlast⟩ := ih h.2
          exact ⟨event :: earlier, by rw [List.cons_append, ← hevents], hlast⟩

end History

end Roster

/-- The lifetime that is open is what comes last in the history. -/
theorem Chronicle.exists_eq_append {key : StreamKey} {entries : List Entry} {l : Lifetime}
    (h : (Chronicle.of key entries).current? = some l) :
    (∃ first, entries = first ++ l.opening :: l.body) ∧ l.closing? = none := by
  induction entries using List.reverseRecOn generalizing l with
  | nil => cases h
  | append_singleton entries entry ih =>
      rw [Chronicle.of, List.foldl_append, List.foldl_cons, List.foldl_nil, ← Chronicle.of] at h
      cases hcurrent : (Chronicle.of key entries).current? with
      | none =>
          by_cases hopens : entry.event.Opens key
          · rw [add_of_opens hcurrent hopens] at h
            cases h
            exact ⟨⟨entries, rfl⟩, rfl⟩
          · rw [add_of_not_opens hcurrent hopens, hcurrent] at h
            cases h
      | some before =>
          by_cases hclears : entry.event.Clears key
          · rw [add_of_clears hcurrent hclears] at h
            cases h
          · rw [add_of_not_clears hcurrent hclears] at h
            cases h
            obtain ⟨⟨first, hfirst⟩, hopen⟩ := ih hcurrent
            exact ⟨⟨first, by simp [hfirst]⟩, hopen⟩

namespace Roster

variable {σ : Type} {api : StatusApi σ}

/-- The lifetime that is open began with an event that met the stream unwatched, and its calls are
those made since. -/
theorem exists_start {events : List Event} {s : σ} {key : StreamKey} {l : Lifetime}
    (h : (Chronicle.of key (history api events {} s)).current? = some l) :
    ∃ earlier, events = earlier ++ l.events ∧
      let before := trackAll api earlier {} s
      before.roster.streams.get? key = none ∧
        l.calls key = callsAbout key (trackAll api l.events before.roster before.api).effects := by
  obtain ⟨⟨first, hfirst⟩, hopen⟩ := Chronicle.exists_eq_append h
  obtain ⟨earlier, hevents, hlast⟩ := history_eq_append hfirst
  have hall : l.opening :: (l.body ++ l.closing?.toList) = l.opening :: l.body := by simp [hopen]
  refine ⟨earlier, ?_, ?_, ?_⟩
  · rw [Lifetime.events, hall]
    exact hevents
  · -- the first of these events met the roster that the earlier ones had left
    obtain ⟨htells, -⟩ := Chronicle.tells_of_run api events s key
    rcases htells.current with ⟨hnone, -⟩ | ⟨l', state, hcurrent, -, -, hproper⟩
    · rw [h] at hnone
      cases hnone
    · obtain rfl : l = l' := Option.some.inj (h.symm.trans hcurrent)
      simp only [List.map_cons, history, List.cons.injEq] at hlast
      have hunwatched := hproper.unwatched
      rw [hlast.1] at hunwatched
      exact hunwatched
  · rw [Lifetime.calls, Lifetime.events, hall, ← flatMap_calls_history, ← hlast]

/-- A stream is unknown while it has no lifetime that is open. Otherwise its state but for the
identifier, its place among the rate-limited streams and the calls of that lifetime but for the
identifiers are those of a run that tracks, on a fresh roster, nothing but the events of the
lifetime that address the stream. -/
theorem seen_alone (hblind : api.Blind) (events : List Event) (s s' : σ) (key : StreamKey) :
    let turn := trackAll api events {} s
    let current? := (Chronicle.of key (history api events {} s)).current?
    (current? = none → turn.roster.streams.get? key = none ∧ key ∉ turn.roster.limited) ∧
    ∀ l, current? = some l →
      (∃ earlier, events = earlier ++ l.events) ∧
      let alone := trackAll api (l.events.filter (·.Addresses key)) {} s'
      (∃ state state', turn.roster.streams.get? key = some state ∧
        alone.roster.streams.get? key = some state' ∧ state.unnamed = state'.unnamed ∧
        state.id?.isSome = state'.id?.isSome) ∧
      (key ∈ turn.roster.limited ↔ key ∈ alone.roster.limited) ∧
      (l.calls key).map Call.unnamed = (callsAbout key alone.effects).map Call.unnamed := by
  intro turn current?
  obtain ⟨htells, -⟩ := Chronicle.tells_of_run api events s key
  constructor
  · intro hnone
    rcases htells.current with ⟨-, hstate⟩ | ⟨l, state, hcurrent, -⟩
    · refine ⟨hstate, fun hlimited => ?_⟩
      rw [mem_limited_iff, hstate] at hlimited
      cases hlimited
    · exact absurd (hcurrent.symm.trans hnone) (Option.some_ne_none l)
  · intro l hcurrent
    obtain ⟨earlier, hevents, hbefore, hcalls⟩ := exists_start hcurrent
    refine ⟨⟨earlier, hevents⟩, ?_⟩
    intro alone
    -- both runs meet the stream unwatched
    let before := trackAll api earlier {} s
    have hstart : KnownAlike (before.roster.streams.get? key) (({} : Roster).streams.get? key) := by
      rw [hbefore]
      exact ⟨rfl, rfl⟩
    obtain ⟨hknown, hsame⟩ := trackAll_filter_alike hblind l.events hstart before.api s'
    have hturn : turn.roster = (trackAll api l.events before.roster before.api).roster := by
      rw [← congrArg Turn.roster (trackAll_append api earlier l.events {} s), ← hevents]
    rw [← hturn] at hknown
    refine ⟨?_, ?_, by rw [hcalls, hsame]⟩
    · rcases htells.current with ⟨hnone, -⟩ | ⟨-, state, -, hstate, -⟩
      · exact absurd (hcurrent.symm.trans hnone) (Option.some_ne_none l)
      · rw [hstate] at hknown
        obtain ⟨state', hstate', hunnamed⟩ := Option.map_eq_some_iff.mp hknown.unnamed.symm
        have hsome := hknown.isSome_id?
        rw [hstate'] at hsome
        exact ⟨state, state', hstate, hstate', hunnamed.symm, hsome⟩
    · rw [mem_limited_iff, mem_limited_iff, StreamState.isRateLimited_unnamed hknown.unnamed]

/-- Reports from before the start and the completion of another attempt have no part in a stream,
also where its updates fail. -/
theorem seen_alone_of_orders :
    let outage : Outage := { updates := .named ["orders"] }
    let api := outage.applyTo Sample.granting
    let completion : Event := { Sample.event .internal .complete with
      message := { stream := {}, status := .complete, emittedAt := .zero }
      context := { Sample.context with attempt := 1 } }
    let started := Sample.event .source .started
    let running := Sample.event .destination .running
    let turn := trackAll api [running, started, completion, running] {} ()
    let alone := trackAll api [started, running] {} ()
    api.Blind ∧ ∃ state state', turn.roster.streams.get? Sample.orders = some state ∧
      alone.roster.streams.get? Sample.orders = some state' ∧ state.unnamed = state'.unnamed ∧
      (callsOf turn.effects).map Call.succeeded = [true, false] := by
  intro outage api completion started running turn alone
  have hgranting : Sample.granting.Blind := fun _ _ _ _ _ => rfl
  have hblind : api.Blind := hgranting.applyTo outage
  refine ⟨hblind, ?_⟩
  let current? := (Chronicle.of Sample.orders
    (history api [running, started, completion, running] {} ())).current?
  obtain ⟨l, hl⟩ : ∃ l, current? = some l := Option.isSome_iff_exists.mp (by decide)
  have hevents : (current?.map fun l => l.events.filter (·.Addresses Sample.orders)) =
      some [started, running] := by decide
  rw [hl, Option.map_some, Option.some.injEq] at hevents
  obtain ⟨-, ⟨state, state', hstate, hstate', hsame, -⟩, -⟩ :=
    (seen_alone hblind [running, started, completion, running] () () Sample.orders).2 l hl
  rw [hevents] at hstate'
  exact ⟨state, state', hstate, hstate', hsame, by decide⟩

end Roster

end StreamWatch
