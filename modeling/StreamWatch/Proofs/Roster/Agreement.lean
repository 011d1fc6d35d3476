import StreamWatch.Archive
import StreamWatch.Api.Outage
import StreamWatch.Proofs.Roster.Honest
import StreamWatch.Proofs.Roster.Lifetime

/-!
# The archive and the watched streams

Calls of the status API may get lost, and reports about a stream may be kept back because they seem
to say nothing new. Neither makes the archive wrong: the record of a watched stream says of the
stream what the last call that got through said, which is what is known about the stream if that was
the last call at all: `record_agrees`.
-/

namespace StreamWatch

/-! ## Calls that get lost -/

/-- A status API that not every call reaches: the one after `n` others fails if `fails n` says
how. -/
def StatusApi.interrupted {σ : Type} (api : StatusApi σ) (fails : Nat → Option Failure) :
    StatusApi (σ × Nat) where
  answer request := fun (s, n) =>
    match fails n with
    | some failure => (.error failure, s, n + 1)
    | none => ((api.answer request s).1, (api.answer request s).2, n + 1)

section Interrupted

variable {σ : Type} (api : StatusApi σ) {fails : Nat → Option Failure} {n : Nat}

/-- A call that is interrupted changes nothing on the other end. -/
theorem StatusApi.interrupted_of_some {failure : Failure} (h : fails n = some failure)
    (request : Request) (s : σ) :
    (api.interrupted fails).answer request (s, n) = (.error failure, s, n + 1) := by
  simp only [interrupted, h]

/-- A call that is not interrupted is answered as it would be otherwise. -/
theorem StatusApi.interrupted_of_none (h : fails n = none) (request : Request) (s : σ) :
    (api.interrupted fails).answer request (s, n) =
      ((api.answer request s).1, (api.answer request s).2, n + 1) := by
  simp only [interrupted, h]

end Interrupted

/-! ## Events that make no call -/

/-- An event that makes no call about a sound stream with a record leaves the stream as it was,
except for what its sides said, or clears it after its end was reported. -/
theorem Roster.track_silent {σ : Type} (api : StatusApi σ) {key : StreamKey} {r : Roster}
    {state : StreamState} (h : r.streams.get? key = some state) (hsound : state.Sound)
    (hid : state.id? ≠ none) (event : Event) (s : σ)
    (hsilent : callsAbout key (r.track api event s).effects = []) :
    (∃ after, (r.track api event s).roster.streams.get? key = some after ∧ state.Frozen after) ∨
      (event.Clears key ∧ state.ended ∧ (r.track api event s).roster.streams.get? key = none) := by
  rcases track_watched api h event s with ⟨-, m, htakes, hy⟩ | ⟨hclears, _, _, -, hy⟩ |
    ⟨-, -, hsame, -⟩
  · have hnext := htakes.eq_next hy
    rw [hsilent] at hy
    obtain ⟨next, hm, hid', -⟩ := htakes.exists_next
    cases htakes with
    | again => exact Or.inl ⟨state, hnext, .refl state⟩
    | repeated hstatus _ hrepeats _ hafter =>
        rw [hsound.resumed_of_repeats hstatus hrepeats] at hafter
        cases hafter
        exact Or.inl ⟨_, hnext, .refl _⟩
    | late | half => exact Or.inl ⟨_, hnext, .hear state event.origin event.side⟩
    | resumed | completed | failed =>
        cases hm
        obtain ⟨-, ⟨hnone, -⟩ | ⟨id, answer, -, hcalls⟩⟩ := hy.of_report rfl
        · rw [hid'] at hnone
          exact absurd hnone hid
        · cases hcalls
  · obtain ⟨hnext, ⟨-, hended⟩ | ⟨_, id, answer, -, -, -, hcalls⟩⟩ := clearing_yields hy
    · exact Or.inr ⟨hclears, (hended state rfl).resolve_right hid, hnext⟩
    · rw [hsilent] at hcalls
      cases hcalls
  · exact Or.inl ⟨state, hsame, .refl state⟩

/-! ## Records -/

/-- `a.Holds supply key state id last?`: the archive `a` holds the record `id` of the stream `key`,
which is in `state`, where `last?` is the last call about it. -/
structure Archive.Holds (supply : Nat → Uuid) (a : Archive) (key : StreamKey) (state : StreamState)
    (id : Uuid) (last? : Option Call) : Prop where
  /-- The identifier has been given out. -/
  issued : ∃ i < a.creates.size, supply i = id
  /-- The record is about this stream, and what it says is the state of the stream if the last call
  succeeded. -/
  filed : ∃ report call, a.records.get? id = some report ∧ report.key = key ∧
    report.jobKind = state.jobKind ∧ last? = some call ∧
    (call.succeeded → ∃ cause?, report = state.report key cause?)

namespace Archive.Holds

variable {supply : Nat → Uuid} {a : Archive} {key : StreamKey} {state : StreamState} {id : Uuid}
  {last? : Option Call}

/-- A stream that only heard its sides has the same record. -/
theorem frozen {after : StreamState} (h : a.Holds supply key state id last?)
    (hfrozen : state.Frozen after) : a.Holds supply key after id last? := by
  obtain ⟨source, destination, rfl⟩ := hfrozen.eq_but_sides
  exact ⟨h.issued, h.filed⟩

/-- A call that fails tells the archive nothing. -/
theorem failed {after : StreamState} (h : a.Holds supply key state id last?)
    (hkind : after.jobKind = state.jobKind) {call : Call} (hcall : ¬ call.succeeded) :
    a.Holds supply key after id (some call) := by
  obtain ⟨report, -, hget, hkey, hjob, -⟩ := h.filed
  exact ⟨h.issued, report, call, hget, hkey, hjob.trans hkind.symm, rfl, fun hs => absurd hs hcall⟩

/-- A new record says what it was created with. -/
theorem created (report : Report) {call : Call} (hkey : report.key = key)
    (hjob : report.jobKind = state.jobKind) (hreport : ∃ cause?, report = state.report key cause?) :
    (a.create (supply a.creates.size) report).Holds supply key state (supply a.creates.size)
      (some call) := by
  refine ⟨⟨a.creates.size, ?_, rfl⟩, report, call, ?_, hkey, hjob, rfl, fun _ => hreport⟩
  · rw [Archive.create, Array.size_push]
    exact Nat.lt_succ_self _
  · rw [Archive.create, Table.get?_put, if_pos rfl]

/-- An updated record says what it was updated with. -/
theorem updated {after : StreamState} (h : a.Holds supply key state id last?)
    {cause? : Option Cause} {call : Call} :
    (a.update id (after.report key cause?)).Holds supply key after id (some call) := by
  refine ⟨h.issued, after.report key cause?, call, ?_, rfl, rfl, rfl, fun _ => ⟨cause?, rfl⟩⟩
  rw [Archive.update, Table.get?_put, if_pos rfl]

/-- A new record is none of those that are held. -/
theorem of_create (h : a.Holds supply key state id last?)
    (hdistinct : (Set.Iio (a.creates.size + 1)).InjOn supply) (report : Report) :
    (a.create (supply a.creates.size) report).Holds supply key state id last? := by
  obtain ⟨i, hi, rfl⟩ := h.issued
  have hne : supply a.creates.size ≠ supply i := by
    intro heq
    have hsame := hdistinct (Set.mem_Iio.mpr (Nat.lt_succ_self _))
      (Set.mem_Iio.mpr (Nat.lt_succ_of_lt hi)) heq
    exact absurd hsame (Nat.ne_of_gt hi)
  refine ⟨⟨i, ?_, rfl⟩, ?_⟩
  · rw [Archive.create, Array.size_push]
    exact Nat.lt_succ_of_lt hi
  · rw [Archive.create, Table.get?_put, if_neg hne]
    exact h.filed

/-- An update of the record of another stream leaves a record alone. -/
theorem of_update (h : a.Holds supply key state id last?) {other : StreamKey} {state' : StreamState}
    {id' : Uuid} {last?' : Option Call} (h' : a.Holds supply other state' id' last?')
    (hne : other ≠ key) (report : Report) :
    (a.update id' report).Holds supply key state id last? := by
  obtain ⟨mine, _, hmine, hkey, -⟩ := h.filed
  obtain ⟨theirs, _, htheirs, hother, -⟩ := h'.filed
  have hid : id' ≠ id := by
    rintro rfl
    obtain rfl : mine = theirs := Option.some.inj (hmine.symm.trans htheirs)
    exact hne (hother.symm.trans hkey)
  refine ⟨h.issued, ?_⟩
  rw [Archive.update, Table.get?_put, if_neg hid]
  exact h.filed

end Archive.Holds

/-! ## The invariant -/

namespace Roster

variable {supply : Nat → Uuid} {fails : Nat → Option Failure}

/-- What holds of the watched streams, the archive and the calls made so far. -/
structure Agrees (supply : Nat → Uuid) (fails : Nat → Option Failure) (r : Roster) (a : Archive)
    (effects : List Effect) : Prop where
  /-- The archive holds the record of every watched stream that has one. -/
  holds : ∀ {key state id}, r.streams.get? key = some state → state.id? = some id →
    a.Holds supply key state id (callsAbout key effects).getLast?
  /-- Every call that reaches the archive succeeds. -/
  reached : ∀ n call, (callsOf effects)[n]? = some call → (call.succeeded ↔ fails n = none)

namespace Agrees

variable {r : Roster} {a : Archive} {n : Nat} {effects : List Effect} {key : StreamKey} {m : Move}

/-- What is done without a call keeps the invariant if it leaves the stream without a record, or
with the record it had. -/
theorem silent (h : Agrees supply fails r a effects) {next : Option StreamState}
    (change : LimitChange) (notice : Notice)
    (hself : ∀ state id, next = some state → state.id? = some id →
      ∃ before, r.streams.get? key = some before ∧ before.Frozen state) :
    Agrees supply fails (r.remember key next change) a (effects ++ [.note notice]) := by
  refine ⟨fun {other state id} hget hid => ?_, fun n call hcall => ?_⟩
  · rw [callsAbout_append, callsAbout_note_cons, callsAbout_nil, List.append_nil]
    rw [get?_remember] at hget
    split at hget
    · next heq =>
        subst heq
        obtain ⟨before, hbefore, hfrozen⟩ := hself state id hget hid
        have hid' : before.id? = some id := by
          obtain ⟨_, _, rfl⟩ := hfrozen.eq_but_sides
          exact hid
        exact (h.holds hbefore hid').frozen hfrozen
    · exact h.holds hget hid
  · exact h.reached n call (by simpa using hcall)

/-- A call about a stream keeps the invariant if the archive holds the record of the stream
afterwards and has kept those of all others, and if the call succeeds when it gets there. -/
theorem called (h : Agrees supply fails r a effects) {request : Request}
    (hkey : request.report.key = key) {answer : Answer} {a' : Archive} {next : Option StreamState}
    (change : LimitChange) (notices : List Notice)
    (hreached : answer.isOk ↔ fails (callsOf effects).length = none)
    (hself : ∀ state id, next = some state → state.id? = some id →
      a'.Holds supply key state id (some ⟨request, answer⟩))
    (hothers : ∀ other state id last?, key ≠ other → a.Holds supply other state id last? →
      a'.Holds supply other state id last?) :
    Agrees supply fails (r.remember key next change) a'
      (effects ++ .call request answer :: notices.map .note) := by
  refine ⟨fun {other state id} hget hid => ?_, fun i call hcall => ?_⟩
  · rw [get?_remember] at hget
    rw [callsAbout_append, callsAbout_call_cons, callsAbout_map_note, hkey]
    by_cases hne : key = other
    · subst hne
      rw [if_pos rfl] at hget ⊢
      rw [List.getLast?_concat]
      exact hself state id hget hid
    · rw [if_neg hne] at hget ⊢
      rw [List.append_nil]
      exact hothers other state id _ hne (h.holds hget hid)
  · rw [callsOf_append, callsOf_call_cons, callsOf_map_note, List.getElem?_append] at hcall
    split at hcall
    · exact h.reached i call hcall
    · next hi =>
        -- it is the call that has just been made
        rw [List.getElem?_singleton] at hcall
        split at hcall
        · next hzero =>
            obtain rfl : i = (callsOf effects).length := by omega
            obtain rfl : ⟨request, answer⟩ = call := Option.some.inj hcall
            exact hreached
        · cases hcall

/-- An honest move that needs no call keeps the invariant if the streams are sound. -/
theorem perform_silent (h : Agrees supply fails r a effects)
    (hsound : r.AllWatched StreamState.Sound) (hm : m.Honest (r.streams.get? key))
    (hrequest : m.request? key = none) (notice : Notice) :
    Agrees supply fails (r.remember key m.next m.change) a (effects ++ [.note notice]) := by
  refine h.silent _ _ fun state id hnext hid => ?_
  cases hm with
  | create hbefore hnone =>
      cases hnext
      simp [hnone] at hid
  | report hbefore hsame _ hor =>
      rcases hor with rfl | rfl
      · cases hnext
        simp [Move.request?, hid] at hrequest
      · cases hnext
  | dropped => cases hnext
  | kept hbefore _ hfrozen =>
      cases hnext
      exact ⟨_, hbefore, hfrozen (hsound key _ hbefore)⟩

/-- An honest move keeps the invariant when its call gets lost. -/
theorem perform_lost (h : Agrees supply fails r a effects) (hm : m.Honest (r.streams.get? key))
    {request : Request} (hrequest : m.request? key = some request) {failure : Failure}
    (hfails : fails (callsOf effects).length = some failure) (notices : List Notice) :
    Agrees supply fails (r.remember key (m.settled (.error failure)) m.change) a
      (effects ++ .call request (.error failure) :: notices.map .note) := by
  refine h.called (Move.key_of_request? hrequest) _ _ ?_ (fun state id hnext hid => ?_)
    fun _ _ _ _ _ hheld => hheld
  · simp [hfails, Except.isOk, Except.toBool]
  · cases hm with
    | create hbefore hnone =>
        cases hnext
        simp [hnone] at hid
    | report hbefore hsame hkind hor =>
        rcases hor with rfl | rfl
        · cases hnext
          refine (h.holds hbefore (hsame ▸ hid)).failed hkind ?_
          simp [Call.succeeded, Except.isOk, Except.toBool]
        · cases hnext
    | dropped => cases hnext
    | kept => cases hrequest

/-- An honest move keeps the invariant when its call reaches the archive, as long as a new
identifier is new. -/
theorem perform_delivered
    (h : (Set.Iio a.creates.size).InjOn supply → Agrees supply fails r a effects)
    (hm : m.Honest (r.streams.get? key)) {request : Request}
    (hrequest : m.request? key = some request)
    (hfails : fails (callsOf effects).length = none) (notices : List Notice) :
    let answered := (Archive.api supply).answer request a
    (Set.Iio answered.2.creates.size).InjOn supply →
      Agrees supply fails (r.remember key (m.settled answered.1) m.change) answered.2
        (effects ++ .call request answered.1 :: notices.map .note) := by
  intro answered hdistinct
  cases hm with
  | @create state change hbefore hnone =>
      obtain rfl : Request.create (state.report key none) = request := by
        simpa [Move.request?] using hrequest
      have hsize : answered.2.creates.size = a.creates.size + 1 := Array.size_push _
      rw [hsize] at hdistinct
      -- what is distinct with the new identifier was distinct without it
      have hold := h (hdistinct.mono (Set.Iio_subset_Iio (Nat.le_succ _)))
      refine hold.called (Move.key_of_request? hrequest) _ _ ?_ (fun after id hnext hid => ?_)
        fun _ _ _ _ _ hheld => hheld.of_create hdistinct _
      · exact iff_of_true rfl hfails
      · cases hnext
        cases hid
        exact .created _ rfl rfl ⟨none, rfl⟩
  | @report state after next change cause? hbefore hsame _ hor =>
      obtain ⟨id, hid, rfl⟩ : ∃ id, after.id? = some id ∧
          .update id (after.report key cause?) = request := by
        simpa [Move.request?] using hrequest
      have hsize : answered.2.creates.size = a.creates.size := by
        simp only [answered, Archive.api]
        split <;> rfl
      rw [hsize] at hdistinct
      have hheld := (h hdistinct).holds hbefore (hsame ▸ hid)
      -- the record is there, so that the update is not refused
      obtain ⟨report, -, hget, -⟩ := hheld.filed
      have hanswered : answered = (.ok ⟨id, after.report key cause?⟩,
          a.update id (after.report key cause?)) := by
        simp only [answered, Archive.api, hget]
      rw [hanswered]
      refine (h hdistinct).called (Move.key_of_request? hrequest) _ _ ?_
        (fun last id' hnext hid' => ?_) fun _ _ _ _ hne hother => hother.of_update hheld hne _
      · exact iff_of_true rfl hfails
      · rcases hor with rfl | rfl
        · cases hnext
          obtain rfl : id = id' := Option.some.inj (hid.symm.trans hid')
          exact hheld.updated
        · cases hnext
  | dropped => cases hrequest
  | kept => cases hrequest

end Agrees

/-- What holds after some events. How many identifiers have to be distinct is known only then, so
that this is a condition of the invariant. -/
def AgreesIfDistinct (supply : Nat → Uuid) (fails : Nat → Option Failure) (r : Roster)
    (s : Archive × Nat) (effects : List Effect) : Prop :=
  (callsOf effects).length = s.2 ∧
    ((Set.Iio s.1.creates.size).InjOn supply → Agrees supply fails r s.1 effects)

/-- An honest move keeps the invariant if the streams are sound, whatever becomes of its call. -/
theorem AgreesIfDistinct.perform {r : Roster} {s : Archive × Nat} {effects : List Effect}
    (h : AgreesIfDistinct supply fails r s effects) (hsound : r.AllWatched StreamState.Sound)
    {key : StreamKey} {m : Move} (hm : m.Honest (r.streams.get? key)) :
    let turn := r.perform ((Archive.api supply).interrupted fails) key m s
    AgreesIfDistinct supply fails turn.roster turn.api (effects ++ turn.effects) := by
  obtain ⟨a, n⟩ := s
  obtain ⟨hcount, hagrees⟩ := h
  cases hrequest : m.request? key with
  | none =>
      obtain ⟨notice, hp⟩ :=
        perform_silent ((Archive.api supply).interrupted fails) hrequest r (a, n)
      rw [hp]
      exact ⟨by simpa using hcount, fun hd => (hagrees hd).perform_silent hsound hm hrequest notice⟩
  | some request =>
      obtain ⟨notices, hp⟩ :=
        perform_call ((Archive.api supply).interrupted fails) hrequest r (a, n)
      rw [hp]
      cases hfails : fails n with
      | some failure =>
          rw [StatusApi.interrupted_of_some _ hfails]
          refine ⟨by simp [hcount], fun hd => ?_⟩
          exact (hagrees hd).perform_lost hm hrequest (by rw [hcount]; exact hfails) notices
      | none =>
          rw [StatusApi.interrupted_of_none _ hfails]
          refine ⟨by simp [hcount], ?_⟩
          exact Agrees.perform_delivered hagrees hm hrequest (by rw [hcount]; exact hfails) notices

/-- Tracking events over an archive that not every call reaches keeps the invariant. -/
theorem agreesIfDistinct_of_run (supply : Nat → Uuid) (fails : Nat → Option Failure)
    (events : List Event) :
    let turn := trackAll ((Archive.api supply).interrupted fails) events {} ({}, 0)
    AgreesIfDistinct supply fails turn.roster turn.api turn.effects := by
  have hstart : AgreesIfDistinct supply fails {} ({}, 0) [] := by
    refine ⟨rfl, fun _ => ⟨fun {key state id} hget => ?_, fun n call hcall => ?_⟩⟩
    · cases hget
    · cases hcall
  refine (trackAll_induction_of_sound (P := AgreesIfDistinct supply fails) _ ?_ ?_ events []
    (allWatched_empty _) hstart).2
  · rintro r ⟨a, n⟩ effects notice ⟨hcount, hagrees⟩
    refine ⟨by simpa using hcount, fun hd => ⟨fun {key state id} hget hid => ?_, ?_⟩⟩
    · simpa using (hagrees hd).holds hget hid
    · simpa using (hagrees hd).reached
  · intro event key r s effects m hsound hmakes h
    exact h.perform hsound hmakes.honest

/-- While no identifier is given out twice, the archive holds the record of every watched stream
that has one, and it says what is known about the stream if the last call of its lifetime succeeded.
An event that makes no call about such a stream changes at most what its sides said, or clears it
after its end was reported. Every call that reaches the archive succeeds. -/
theorem record_agrees (supply : Nat → Uuid) (fails : Nat → Option Failure) (events : List Event)
    (hdistinct : (Set.Iio (trackAll ((Archive.api supply).interrupted fails) events {}
      ({}, 0)).api.1.creates.size).InjOn supply) :
    let api := (Archive.api supply).interrupted fails
    let turn := trackAll api events {} ({}, 0)
    (∀ key state id, turn.roster.streams.get? key = some state → state.id? = some id →
      (∃ l, (Chronicle.of key (history api events {} ({}, 0))).current? = some l ∧
        turn.api.1.Holds supply key state id (l.calls key).getLast?) ∧
      ∀ event,
        let next := turn.roster.track api event turn.api
        callsAbout key next.effects = [] →
          (∃ after, next.roster.streams.get? key = some after ∧ state.Frozen after) ∨
            (event.Clears key ∧ state.ended ∧ next.roster.streams.get? key = none)) ∧
    ∀ n call, (callsOf turn.effects)[n]? = some call → (call.succeeded ↔ fails n = none) := by
  intro api turn
  have hagrees := (agreesIfDistinct_of_run supply fails events).2 hdistinct
  refine ⟨fun key state id hget hid => ⟨?_, ?_⟩, hagrees.reached⟩
  · obtain ⟨htells, hcalls⟩ := Chronicle.tells_of_run api events ({}, 0) key
    obtain ⟨l, hcurrent, hlast⟩ := htells.getLast?_calls (hget ▸ Option.some_ne_none state)
    refine ⟨l, hcurrent, ?_⟩
    rw [hlast, hcalls]
    exact hagrees.holds hget hid
  · intro event next hsilent
    have hsound := sound_of_watched api events ({}, 0) hget
    exact track_silent api hget hsound (by simp [hid]) event turn.api hsilent

/-- An update that gets lost is made good by the next one. -/
theorem record_agrees_after_lost_update :
    let supply (n : Nat) : Uuid := ⟨BitVec.ofNat 128 n⟩
    let fails (n : Nat) := if n = 1 then some (Outage.failure "update") else none
    let turn := trackAll ((Archive.api supply).interrupted fails)
      [Sample.event .source .started, Sample.event .source .running,
        Sample.event .destination .running] {} ({}, 0)
    (callsOf turn.effects).map Call.succeeded = [true, false, true] ∧
    ∃ state report cause?, turn.roster.streams.get? Sample.orders = some state ∧
      turn.api.1.records.get? ⟨0⟩ = some report ∧ report = state.report Sample.orders cause? := by
  intro supply fails turn
  have hdistinct : (Set.Iio turn.api.1.creates.size).InjOn supply := by
    have hsize : turn.api.1.creates.size = 1 := by decide
    rw [hsize]
    intro i hi j hj _
    rw [Set.mem_Iio] at hi hj
    omega
  have hstate : turn.roster.streams.get? Sample.orders = some
      { source := some .running, destination := some .running, id? := some ⟨0⟩, jobKind := .sync
        runState := .running, changedAt := 0 } := by decide
  obtain ⟨hrecords, -⟩ := record_agrees supply fails _ hdistinct
  obtain ⟨⟨l, hcurrent, hholds⟩, -⟩ := hrecords Sample.orders _ ⟨0⟩ hstate rfl
  obtain ⟨report, call, hreport, -, -, hlast, hsays⟩ := hholds.filed
  have hcall : ((Chronicle.of Sample.orders (history ((Archive.api supply).interrupted fails)
      [Sample.event .source .started, Sample.event .source .running,
        Sample.event .destination .running] {} ({}, 0))).current?.bind
          fun l => (l.calls Sample.orders).getLast?).any Call.succeeded := by decide
  rw [hcurrent, Option.bind_some, hlast, Option.any_some] at hcall
  obtain ⟨cause?, heq⟩ := hsays hcall
  exact ⟨by decide, _, report, cause?, hstate, hreport, heq⟩

end Roster

end StreamWatch
