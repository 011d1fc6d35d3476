import StreamWatch.Proofs.Roster.Limited
import Mathlib.Data.List.Nodup
import Mathlib.Data.List.Perm.Basic

/-!
# Events that end a whole run

An internal event without a descriptor clears the watched streams of its run one after the other,
and leaves all others alone: `clearRun_exact`. Each stream is moved by what is known of it alone, so
that the order in which they are visited shows only in the order of the calls, and the event does
what internal events would do that name one of these streams each.
-/

namespace StreamWatch

/-! ## Clearing one stream -/

namespace Move

variable (key : StreamKey) (runState : RunState) (cause? : Option Cause) (time : Int64)

/-- A cleared stream is forgotten, whatever is answered. -/
theorem forgets_ofClearing (state? : Option StreamState) :
    let m := ofClearing key runState cause? time state?
    m.next = none ∧ m.change = .leave ∧ ∀ answer, m.settled answer = none := by
  unfold ofClearing
  split
  · exact ⟨rfl, rfl, fun _ => rfl⟩
  · split
    · exact ⟨rfl, rfl, fun _ => rfl⟩
    · exact ⟨rfl, rfl, fun _ => rfl⟩

/-- Clearing a stream reports its end if it has a record and its end was not reported before. -/
theorem request?_ofClearing {state? : Option StreamState} {request : Request} :
    (ofClearing key runState cause? time state?).request? key = some request ↔
      ∃ state id, state? = some state ∧ state.id? = some id ∧ ¬ state.ended ∧
        request = .update id ⟨key, state.jobKind, runState, time, cause?, none⟩ := by
  cases state? with
  | none => simp [ofClearing, request?]
  | some state =>
      cases hended : state.ended with
      | true => simp [ofClearing, request?, hended]
      | false =>
          have hm : ofClearing key runState cause? time (some state) =
              ⟨none, .leave, .report (state.closed runState time) cause?⟩ := by
            simp [ofClearing, hended]
          rw [hm]
          simp only [request?, Option.map_eq_some_iff]
          constructor
          · rintro ⟨id, hid, rfl⟩
            exact ⟨state, id, rfl, hid, by simp [hended], rfl⟩
          · rintro ⟨other, id, hother, hid, -, rfl⟩
            obtain rfl : state = other := Option.some.inj hother
            exact ⟨id, hid, rfl⟩

end Move

namespace Roster

variable {σ : Type} (api : StatusApi σ)

/-- The requests of a move. -/
theorem requests_perform (r : Roster) (key : StreamKey) (m : Move) (s : σ) :
    (callsOf (r.perform api key m s).effects).map (·.request) = (m.request? key).toList := by
  cases h : m.request? key with
  | none =>
      obtain ⟨notice, hp⟩ := perform_silent api h r s
      rw [hp]
      rfl
  | some request =>
      obtain ⟨notices, hp⟩ := perform_call api h r s
      rw [hp, callsOf_call_cons, callsOf_map_note]
      rfl

/-! ## Clearing streams -/

/-- The roster without some streams. -/
def without (r : Roster) (keys : List StreamKey) : Roster :=
  keys.foldl (fun r key => r.remember key none .leave) r

/-- Streams that are taken out are gone, and the others stay. -/
theorem get?_without (r : Roster) (keys : List StreamKey) (key : StreamKey) :
    (r.without keys).streams.get? key = if key ∈ keys then none else r.streams.get? key := by
  induction keys generalizing r with
  | nil => rfl
  | cons first rest ih =>
      rw [without, List.foldl_cons, ← without, ih, get?_remember]
      by_cases hfirst : first = key
      · subst hfirst
        simp
      · simp [hfirst, Ne.symm hfirst]

/-- Streams are taken out in any order. -/
theorem without_perm (r : Roster) {keys keys' : List StreamKey} (h : keys.Perm keys') :
    r.without keys = r.without keys' := by
  refine h.foldl_eq' (fun first _ second _ r => ?_) r
  have hstreams := r.streams.erase_comm first second
  have hlimited : changeLimit second (changeLimit first r.limited .leave) .leave =
      changeLimit first (changeLimit second r.limited .leave) .leave :=
    List.filter_comm _ _ _
  exact congrArg₂ Roster.mk hstreams hlimited

variable (runState : RunState) (cause? : Option Cause) (time : Int64)

/-- Clearing streams takes them out. -/
theorem clearAll_roster (keys : List StreamKey) (r : Roster) (s : σ) :
    (clearAll api runState cause? time keys r s).roster = r.without keys := by
  induction keys generalizing r s with
  | nil => rfl
  | cons key rest ih =>
      have hfirst : (r.perform api key (Move.ofClearing key runState cause? time
          (r.streams.get? key)) s).roster = r.remember key none .leave := by
        obtain ⟨hnext, hchange, hsettled⟩ :=
          Move.forgets_ofClearing key runState cause? time (r.streams.get? key)
        cases h : (Move.ofClearing key runState cause? time (r.streams.get? key)).request? key with
        | none =>
            obtain ⟨notice, hp⟩ := perform_silent api h r s
            rw [hp, hnext, hchange]
        | some request =>
            obtain ⟨notices, hp⟩ := perform_call api h r s
            rw [hp, hsettled, hchange]
      rw [clearAll, ih, hfirst]
      rfl

/-- The reports that are due when streams are cleared, in the order of the streams. -/
def dueReports (r : Roster) (keys : List StreamKey) : List Request :=
  keys.filterMap fun key =>
    (Move.ofClearing key runState cause? time (r.streams.get? key)).request? key

/-- Clearing streams makes the requests that are due. -/
theorem clearAll_requests {keys : List StreamKey} (hnodup : keys.Nodup) (r : Roster) (s : σ) :
    (callsOf (clearAll api runState cause? time keys r s).effects).map (·.request) =
      r.dueReports runState cause? time keys := by
  induction keys generalizing r s with
  | nil => rfl
  | cons first rest ih =>
      rw [List.nodup_cons] at hnodup
      rw [clearAll, callsOf_append, List.map_append, requests_perform, ih hnodup.2, dueReports,
        dueReports, List.filterMap_cons]
      -- clearing the first stream does not change what is known of the others
      have hothers : ∀ key ∈ rest, ((r.perform api first (Move.ofClearing first runState cause? time
          (r.streams.get? first)) s).roster.streams.get? key) = r.streams.get? key :=
        fun key hkey => (perform_of_ne api (ne_of_mem_of_not_mem hkey hnodup.1).symm r _ s).1
      rw [List.filterMap_congr fun key hkey => by rw [hothers key hkey]]
      cases (Move.ofClearing first runState cause? time (r.streams.get? first)).request? first <;>
        rfl

/-- No stream is reported twice. -/
theorem nodup_dueReports {keys : List StreamKey} (hnodup : keys.Nodup) (r : Roster) :
    ((r.dueReports runState cause? time keys).map (·.report.key)).Nodup := by
  rw [dueReports, List.map_filterMap]
  refine List.Nodup.filterMap (fun key key' about h h' => ?_) hnodup
  obtain ⟨request, hrequest, rfl⟩ := Option.map_eq_some_iff.mp h
  obtain ⟨request', hrequest', hsame⟩ := Option.map_eq_some_iff.mp h'
  rw [Move.key_of_request? hrequest, Move.key_of_request? hrequest'] at hsame
  exact hsame.symm

/-- The keys of a run are there once each. -/
theorem nodup_keysOf (r : Roster) (run : RunId) : (r.keysOf run).Nodup :=
  r.streams.nodup.filter _

/-- When a run is cleared, a report is due for each of its streams that has a record and whose end
was not reported. -/
theorem mem_dueReports_keysOf (r : Roster) (run : RunId) {request : Request} :
    request ∈ r.dueReports runState cause? time (r.keysOf run) ↔
      ∃ key state id, key.run = run ∧ r.streams.get? key = some state ∧ state.id? = some id ∧
        ¬ state.ended ∧
        request = .update id ⟨key, state.jobKind, runState, time, cause?, none⟩ := by
  rw [dueReports, List.mem_filterMap]
  constructor
  · rintro ⟨key, hkey, hrequest⟩
    obtain ⟨state, id, hstate, hid, hended, rfl⟩ :=
      (Move.request?_ofClearing key runState cause? time).mp hrequest
    exact ⟨key, state, id, (mem_keysOf.mp hkey).2, hstate, hid, hended, rfl⟩
  · rintro ⟨key, state, id, hrun, hstate, hid, hended, rfl⟩
    have hwatched : r.streams.get? key ≠ none := by
      rw [hstate]
      exact Option.some_ne_none state
    exact ⟨key, mem_keysOf.mpr ⟨hwatched, hrun⟩,
      (Move.request?_ofClearing key runState cause? time).mpr
        ⟨state, id, hstate, hid, hended, rfl⟩⟩

end Roster

/-! ## One event for each stream -/

/-- The event, about one stream. -/
def Event.naming (e : Event) (key : StreamKey) : Event :=
  { e with message := { e.message with stream := key.descriptor } }

/-- An event that ends a run ends one of its streams when it names that one. -/
theorem Event.scope_naming {e : Event} {key : StreamKey} {runState : RunState}
    {cause? : Option Cause} (horigin : e.origin = .internal)
    (hend : e.ending? = some (runState, cause?)) (hrun : key.run = e.run) :
    (e.naming key).scope = .clear key runState cause? := by
  have hkey : (e.naming key).key? = some key := by
    obtain ⟨name, space, run⟩ := key
    subst hrun
    rfl
  have hend' : (e.naming key).ending? = some (runState, cause?) := hend
  have hwide : ¬ (e.naming key).isRunWide := by
    simp [isRunWide, naming, StreamKey.descriptor, Descriptor.isEmpty]
  simp only [scope, hend', hkey, if_neg hwide]
  exact if_pos horigin

namespace Roster

variable {σ : Type} (api : StatusApi σ)

/-- Clearing streams of a run is tracking one event for each. -/
theorem trackAll_naming {e : Event} {runState : RunState} {cause? : Option Cause}
    (horigin : e.origin = .internal) (hend : e.ending? = some (runState, cause?))
    {keys : List StreamKey} (hrun : ∀ key ∈ keys, key.run = e.run) (r : Roster) (s : σ) :
    trackAll api (keys.map e.naming) r s = clearAll api runState cause? e.time keys r s := by
  induction keys generalizing r s with
  | nil => rfl
  | cons key rest ih =>
      rw [List.forall_mem_cons] at hrun
      have hfirst := track_of_clear api (e.scope_naming horigin hend hrun.1) r s
      simp only [List.map_cons, trackAll, hfirst, ih hrun.2]
      rfl

/-- What an internal event does that ends a run. -/
theorem track_runWide {event : Event} {runState : RunState} {cause? : Option Cause}
    (horigin : event.origin = .internal) (hempty : event.message.stream.isEmpty)
    (hend : event.ending? = some (runState, cause?)) (r : Roster) (s : σ) :
    let turn := r.track api event s
    let keys := r.keysOf event.run
    turn.roster = r.without keys ∧
      (callsOf turn.effects).map (·.request) = r.dueReports runState cause? event.time keys := by
  have hwide : event.isRunWide := by simp [Event.isRunWide, horigin, hempty]
  have hscope : event.scope = .clearRun event.run runState cause? := by
    simp only [Event.scope, hend, if_pos hwide]
    exact if_pos horigin
  obtain ⟨notice, -, htrack⟩ := track_of_clearRun api hscope r s
  simp only [htrack, callsOf_note_cons]
  exact ⟨clearAll_roster api runState cause? event.time _ r s,
    clearAll_requests api runState cause? event.time (r.nodup_keysOf event.run) r s⟩

/-- An internal event that ends a run leaves none of its streams watched or listed as rate limited,
and all others as they were. It makes one request for each watched stream of the run that has a
record and whose end was not reported before, and no other. The streams may be visited in any order,
and may be named by one event each, in any order: what is left is the same, and so are the requests
but for their order. -/
theorem clearRun_exact (events : List Event) (s : σ) {event : Event}
    (horigin : event.origin = .internal) (hempty : event.message.stream.isEmpty)
    (hstatus : event.status = .complete ∨ event.status = .incomplete) :
    let before := trackAll api events {} s
    let turn := before.roster.track api event before.api
    let requests (turn : Turn σ) := (callsOf turn.effects).map (·.request)
    ∃ runState cause?,
      (event.status = .complete ∧ runState = .complete ∧ cause? = none ∨
        event.status = .incomplete ∧ runState = .incomplete ∧
          cause? = some (event.cause?.getD .failed)) ∧
      (∀ key, key.run = event.run →
        turn.roster.streams.get? key = none ∧ key ∉ turn.roster.limited) ∧
      (∀ key, key.run ≠ event.run →
        turn.roster.streams.get? key = before.roster.streams.get? key ∧
        (key ∈ turn.roster.limited ↔ key ∈ before.roster.limited)) ∧
      ((requests turn).map (·.report.key)).Nodup ∧
      (∀ request, request ∈ requests turn ↔
        ∃ key state id, key.run = event.run ∧ before.roster.streams.get? key = some state ∧
          state.id? = some id ∧ ¬ state.ended ∧
          request = .update id ⟨key, state.jobKind, runState, event.time, cause?, none⟩) ∧
      ∀ keys, keys.Perm (before.roster.keysOf event.run) →
        let other := clearAll api runState cause? event.time keys before.roster before.api
        let named := trackAll api (keys.map event.naming) before.roster before.api
        other.roster = turn.roster ∧ (requests other).Perm (requests turn) ∧
        named.roster = turn.roster ∧ (requests named).Perm (requests turn) := by
  intro before turn requests
  obtain ⟨⟨runState, cause?⟩, hend⟩ : ∃ ending, event.ending? = some ending := by
    rcases hstatus with h | h <;> exact ⟨_, by rw [Event.ending?, h]⟩
  let keys := before.roster.keysOf event.run
  have hnodup : keys.Nodup := before.roster.nodup_keysOf event.run
  obtain ⟨hroster, hrequests⟩ : turn.roster = before.roster.without keys ∧
      requests turn = before.roster.dueReports runState cause? event.time keys :=
    track_runWide api horigin hempty hend before.roster before.api
  have hlimited (key : StreamKey) : key ∈ turn.roster.limited ↔
      (turn.roster.streams.get? key).any StreamState.isRateLimited := by
    have hconcat := mem_limited_iff api (events ++ [event]) s key
    rw [trackAll_concat] at hconcat
    exact hconcat
  refine ⟨runState, cause?, Event.ending?_eq_some hend, fun key hrun => ?_, fun key hrun => ?_, ?_,
    fun request => ?_, fun visited hperm => ?_⟩
  · -- a stream of the run is either visited or was not watched
    have hgone : turn.roster.streams.get? key = none := by
      rw [hroster, get?_without]
      split
      · rfl
      · next hmem =>
          by_contra hsome
          exact hmem (mem_keysOf.mpr ⟨hsome, hrun⟩)
    refine ⟨hgone, fun hlisted => ?_⟩
    rw [hlimited, hgone] at hlisted
    cases hlisted
  · have hsame : turn.roster.streams.get? key = before.roster.streams.get? key := by
      rw [hroster, get?_without, if_neg fun hmem => hrun (mem_keysOf.mp hmem).2]
    refine ⟨hsame, ?_⟩
    rw [hlimited, hsame]
    exact (mem_limited_iff api events s key).symm
  · rw [hrequests]
    exact nodup_dueReports runState cause? event.time hnodup before.roster
  · rw [hrequests]
    exact mem_dueReports_keysOf runState cause? event.time before.roster event.run
  · -- naming the streams one by one is visiting them, and visits may be put in any order
    have hvisited : ∀ key ∈ visited, key.run = event.run := fun key hkey =>
      (mem_keysOf.mp (hperm.mem_iff.mp hkey)).2
    intro other named
    have hnamed : named = other := trackAll_naming api horigin hend hvisited _ _
    have hother : other.roster = turn.roster := by
      rw [hroster, ← without_perm before.roster hperm]
      exact clearAll_roster api runState cause? event.time visited _ _
    have hsame : (requests other).Perm (requests turn) := by
      have hclear := clearAll_requests api runState cause? event.time (hperm.nodup_iff.mpr hnodup)
        before.roster before.api
      rw [hrequests, show requests other = _ from hclear]
      exact hperm.filterMap _
    rw [hnamed]
    exact ⟨hother, hsame, hother, hsame⟩

/-- Of two streams, one of which has failed before, the completion of their run reports the other
one. -/
theorem clearRun_exact_of_orders :
    let about (key : StreamKey) (status : Status) := (Sample.event .source status).naming key
    let completion : Event := { Sample.event .internal .complete with
      message := { stream := {}, status := .complete, emittedAt := .zero } }
    let customers : StreamKey := { Sample.orders with name := "customers" }
    let before := trackAll Sample.granting [about customers .started, about Sample.orders .started,
      about customers .incomplete] {} ()
    let turn := before.roster.track Sample.granting completion before.api
    completion.message.stream.isEmpty ∧ before.roster.streams.size = 2 ∧
      turn.roster.streams.get? Sample.orders = none ∧ turn.roster.streams.get? customers = none ∧
      Request.update ⟨7⟩ ⟨Sample.orders, .sync, .complete, 0, none, none⟩ ∈
        (callsOf turn.effects).map (·.request) ∧ (callsOf turn.effects).length = 1 := by
  intro about completion customers before turn
  have hstatus : completion.status = .complete ∨ completion.status = .incomplete := Or.inl rfl
  obtain ⟨runState, cause?, hending, hrun, -, -, hrequests, -⟩ :=
    clearRun_exact Sample.granting [about customers .started, about Sample.orders .started,
      about customers .incomplete] () (rfl : completion.origin = .internal) rfl hstatus
  obtain ⟨-, rfl, rfl⟩ := hending.resolve_right fun h => by cases h.1
  have hstate : before.roster.streams.get? Sample.orders = some
      { source := some .started, id? := some ⟨7⟩, jobKind := .sync, changedAt := 0 } := by decide
  refine ⟨rfl, by decide, (hrun _ rfl).1, (hrun _ rfl).1, ?_, by decide⟩
  exact (hrequests _).mpr ⟨Sample.orders, _, ⟨7⟩, rfl, hstate, rfl, by decide, rfl⟩

end Roster

end StreamWatch
