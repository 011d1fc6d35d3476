import StreamWatch.Proofs.Roster.Failures
import StreamWatch.Proofs.Roster.Lifetime

/-!
# Lost transitions

Tracking an event answers nothing, so the log is the only place that tells of a call that failed or
was left out. Two runs over the same events are compared, of which one has all its calls succeed.
Every call of that run is `Covered` in the other: it is made there and succeeds, or it is made and
one error names it, or one warning stands in its place; and no other warnings and errors are
written, but for those about events that name no stream: `losses_are_told`.
-/

namespace StreamWatch

/-! ## What is told of a loss -/

/-- Whether an effect is a call, a warning or an error. -/
def Effect.matters : Effect → Bool
  | .call _ _ => true
  | .note notice => notice.level = .warn ∨ notice.level = .error

/-- The calls, warnings and errors among some effects, in order. -/
def outcomesOf (effects : List Effect) : List Effect := effects.filter Effect.matters

@[simp] theorem outcomesOf_nil : outcomesOf [] = [] := rfl

@[simp] theorem outcomesOf_append (first second : List Effect) :
    outcomesOf (first ++ second) = outcomesOf first ++ outcomesOf second :=
  List.filter_append ..

@[simp] theorem outcomesOf_call_cons (request : Request) (answer : Answer)
    (effects : List Effect) :
    outcomesOf (.call request answer :: effects) = .call request answer :: outcomesOf effects :=
  rfl

/-- What is for information only does not matter. -/
theorem outcomesOf_note_cons {notice : Notice} (h : notice.level = .debug ∨ notice.level = .info)
    (effects : List Effect) : outcomesOf (.note notice :: effects) = outcomesOf effects := by
  rcases h with h | h <;> simp [outcomesOf, Effect.matters, h]

/-- Leaving out notes that tell no loss leaves out no call. -/
@[simp] theorem callsOf_outcomesOf (effects : List Effect) :
    callsOf (outcomesOf effects) = callsOf effects := by
  induction effects with
  | nil => rfl
  | cons effect rest ih =>
      cases effect with
      | call request answer => rw [outcomesOf_call_cons, callsOf_call_cons, callsOf_call_cons, ih]
      | note notice =>
          rw [callsOf_note_cons, outcomesOf, List.filter_cons]
          split
          · rw [callsOf_note_cons]
            exact ih
          · exact ih

/-- The words of a notice name the stream of a request, and the run state that an update asks
for. -/
def Notice.Names (notice : Notice) (request : Request) : Prop :=
  request.report.key.toString.toList <:+: notice.text.toList ∧
    (request.kind = .update → request.report.runState.word.toList <:+: notice.text.toList)

/-- What is written about a request that failed. -/
def Request.failed (failure : Failure) : Request → Notice
  | .create report => .createFailed report.key failure
  | .update _ report => .updateFailed report.key report.runState failure

/-- The line of a create that failed names the stream and the failure. -/
theorem text_createFailed (key : StreamKey) (failure : Failure) :
    (Notice.createFailed key failure).text =
      "failed to create stream status for stream " ++ key.toString ++ ": " ++ failure.message :=
  rfl

/-- The line of an update that failed names the stream, the run state and the failure. -/
theorem text_updateFailed (key : StreamKey) (runState : RunState) (failure : Failure) :
    (Notice.updateFailed key runState failure).text =
      "failed to update stream status of stream " ++ key.toString ++ " to " ++ runState.word ++
        ": " ++ failure.message :=
  rfl

theorem text_updateSkipped (runState : RunState) (key : StreamKey) :
    (Notice.updateSkipped runState key).text =
      "skipping " ++ runState.word ++ " update of stream " ++ key.toString ++ ", " ++
        "its stream status was never created" :=
  rfl

/-- A text is part of any text that it was put into. -/
theorem isInfix_toList_append (before part after : String) :
    part.toList <:+: (before ++ part ++ after).toList := by
  rw [String.toList_append, String.toList_append]
  exact List.infix_append _ _ _

/-- The error about a failed request names it. -/
theorem failed_names (request : Request) (failure : Failure) :
    (request.failed failure).Names request := by
  cases request with
  | create report =>
      refine ⟨?_, fun hkind => by cases hkind⟩
      rw [Request.failed, text_createFailed, String.append_assoc]
      exact isInfix_toList_append _ _ _
  | update id report =>
      refine ⟨?_, fun _ => ?_⟩
      · rw [Request.failed, text_updateFailed, String.append_assoc, String.append_assoc,
          String.append_assoc]
        exact isInfix_toList_append _ _ _
      · rw [Request.failed, text_updateFailed, String.append_assoc]
        exact isInfix_toList_append _ _ _

/-! ## What has to be told -/

/-- A record of the stream was asked for, and the last call for one failed. -/
def CreateFailed (key : StreamKey) (calls : List Call) : Prop :=
  (∃ call ∈ calls, call.request.kind = .create ∧ call.key = key) ∧ ¬ Recorded key calls

/-- `event.Matches before outcome outcome'`: where the run in which all calls succeed has `outcome`,
the other run has `outcome'`, after the calls `before`. -/
inductive Event.Matches (event : Event) (before : List Call) : List Effect → List Effect → Prop
  /-- The call is made and succeeds. -/
  | made {call call' : Call} : call.request.unnamed = call'.request.unnamed → call'.succeeded →
      Matches event before [.call call.request call.answer] [.call call'.request call'.answer]
  /-- The call is made and fails, and one error names it. -/
  | failed {call call' : Call} {notice : Notice} :
      call.request.unnamed = call'.request.unnamed → ¬ call'.succeeded →
      notice.level = .error → notice.Names call'.request →
      Matches event before [.call call.request call.answer]
        [.call call'.request call'.answer, .note notice]
  /-- The update is left out, since there is no record, and one warning stands in its place. -/
  | skipped {call : Call} {notice : Notice} : call.request.kind = .update →
      CreateFailed call.key before → notice.level = .warn →
      notice.text = "skipping " ++ call.request.report.runState.word ++ " update of stream " ++
        call.key.toString ++ ", " ++ "its stream status was never created" →
      Matches event before [.call call.request call.answer] [.note notice]
  /-- The event names no stream, and one warning says so. -/
  | unnamed {notice : Notice} : event.message.stream.name = none → notice.level = .warn →
      " stream status event without a stream name".toList <:+ notice.text.toList →
      Matches event before [.note notice] [.note notice]

/-- `event.Covered before outcomes outcomes'`: the outcomes of an event in two runs match one by
one, in order. -/
inductive Event.Covered (event : Event) (before : List Call) : List Effect → List Effect → Prop
  | nil : Covered event before [] []
  | concat {outcomes outcomes' outcome outcome' : List Effect} :
      Covered event before outcomes outcomes' →
      event.Matches (before ++ callsOf outcomes') outcome outcome' →
      Covered event before (outcomes ++ outcome) (outcomes' ++ outcome')

/-- `CoveredAll all left`: the outcomes of each event of one history match those of the same event
in the other. -/
inductive CoveredAll : List Entry → List Entry → Prop
  | nil : CoveredAll [] []
  | concat {all left : List Entry} {entry entry' : Entry} : CoveredAll all left →
      entry.event = entry'.event →
      entry.event.Covered (callsOf (left.flatMap (·.effects))) (outcomesOf entry.effects)
        (outcomesOf entry'.effects) →
      CoveredAll (all ++ [entry]) (left ++ [entry'])

/-! ## The notices of an event -/

/-- What is only noted of a stream does not matter. -/
theorem Event.Makes.level_of_note {e : Event} {key : StreamKey} {state? : Option StreamState}
    {m : Move} {notice : Notice} (h : e.Makes key state? m) (hact : m.act = .note notice) :
    notice.level = .debug := by
  cases h with
  | report =>
      unfold Move.ofReport at hact
      split at hact
      · split at hact <;> cases hact
        rfl
      · split at hact
        · cases hact
          rfl
        · unfold Move.ofRunning at hact
          grind [Notice.level]
        · unfold Move.ofComplete at hact
          grind [Notice.level]
        · unfold Move.ofIncomplete at hact
          grind [Notice.level]
  | clearing =>
      unfold Move.ofClearing at hact
      split at hact
      · cases hact
        rfl
      · split at hact <;> cases hact
        rfl

/-- An event that is about no stream is noted; if that matters, it names none. -/
theorem Event.level_of_scope_none {e : Event} {notice : Notice} (h : e.scope = .none notice) :
    notice.level = .debug ∨ e.message.stream.name = none ∧ notice.level = .warn ∧
      " stream status event without a stream name".toList <:+ notice.text.toList := by
  have hunnamed (hkey : e.key? = none) : e.message.stream.name = none := by
    simpa [key?, StreamKey.of?] using hkey
  unfold scope at h
  split at h
  · split at h
    · cases h
      exact Or.inl rfl
    · split at h
      · cases h
      · split at h
        · cases h
        · next hkey =>
            cases h
            refine Or.inr ⟨hunnamed hkey, rfl, "ignoring internal".toList, ?_⟩
            rw [← String.toList_append]
            rfl
  · split at h
    · cases h
    · next hkey =>
        cases h
        refine Or.inr ⟨hunnamed hkey, rfl, ("ignoring " ++ e.status.word).toList, ?_⟩
        rw [← String.toList_append]
        rfl

/-! ## The outcome of a move -/

/-- What is told of a call: the call, and an error if it failed. -/
def Call.told (c : Call) : List Effect :=
  .call c.request c.answer :: match c.answer with
    | .ok _ => []
    | .error failure => [.note (c.request.failed failure)]

namespace Roster

variable {σ τ υ : Type} (api : StatusApi σ)

/-- A move with a request makes that call, and an error follows it if it failed. -/
theorem outcomesOf_perform_call {key : StreamKey} {m : Move} {request : Request}
    (h : m.request? key = some request) (r : Roster) (s : σ) :
    outcomesOf (r.perform api key m s).effects =
      Call.told ⟨request, (api.answer request s).1⟩ := by
  unfold Move.request? at h
  unfold perform Call.told
  cases hact : m.act with
  | note notice => simp [hact] at h
  | create state =>
      obtain rfl : Request.create (state.report key none) = request := by simpa [hact] using h
      rcases hans : api.answer (.create (state.report key none)) s with ⟨answer, s'⟩
      cases answer with
      | ok record => simp only [hans]; rfl
      | error failure => simp only [hans]; rfl
  | report state cause? =>
      simp only [hact, Option.map_eq_some_iff] at h
      obtain ⟨id, hid, rfl⟩ := h
      rcases hans : api.answer (.update id (state.report key cause?)) s with ⟨answer, s'⟩
      cases answer with
      | ok record => simp only [hid, hans]; rfl
      | error failure => simp only [hid, hans]; rfl

/-- A stream without a record is not updated, and one warning says so. -/
theorem outcomesOf_perform_skipped {key : StreamKey} {m : Move} {state : StreamState}
    {cause? : Option Cause} (hact : m.act = .report state cause?) (hid : state.id? = none)
    (r : Roster) (s : σ) :
    outcomesOf (r.perform api key m s).effects =
      [.note (.updateSkipped state.runState key)] := by
  simp only [perform, hact, hid]
  rfl

end Roster

/-- Of a call that succeeded nothing more is told. -/
theorem Call.told_of_succeeded {call : Call} (h : call.succeeded) :
    call.told = [.call call.request call.answer] := by
  unfold told
  cases hanswer : call.answer with
  | ok record => rfl
  | error failure =>
      rw [succeeded, hanswer] at h
      cases h

/-- Of a call that failed one line is told. -/
theorem Call.told_of_not_succeeded {call : Call} (h : ¬ call.succeeded) :
    ∃ failure, call.told =
      [.call call.request call.answer, .note (call.request.failed failure)] := by
  unfold told
  cases hanswer : call.answer with
  | ok record =>
      rw [succeeded, hanswer] at h
      exact absurd rfl h
  | error failure => exact ⟨failure, rfl⟩

/-- What is told of two calls that ask for the same, the first of which succeeds. -/
theorem Call.matches_told {event : Event} {before : List Call} {call call' : Call}
    (hsame : call.request.unnamed = call'.request.unnamed) (h : call.succeeded) :
    event.Matches before call.told call'.told := by
  rw [told_of_succeeded h]
  by_cases h' : call'.succeeded
  · rw [told_of_succeeded h']
    exact .made hsame h'
  · obtain ⟨failure, htold⟩ := told_of_not_succeeded h'
    rw [htold]
    refine .failed hsame h' ?_ (failed_names call'.request failure)
    cases call'.request <;> rfl

namespace Roster

variable {σ υ : Type} {granting : StatusApi υ} {api : StatusApi σ} {g : Turn υ} {t : Turn σ}

/-- Every watched stream was announced. -/
def Announced (t : Turn σ) : Prop :=
  ∀ key state, t.roster.streams.get? key = some state →
    ∃ call ∈ callsOf t.effects, call.request.kind = .create ∧ call.key = key

/-- A move announces the stream that it opens. -/
theorem Announced.perform (h : Announced t) {e : Event} {key : StreamKey} {m : Move}
    (hm : e.Makes key (t.roster.streams.get? key) m) :
    Announced (t.andThen fun r s => r.perform api key m s) := by
  intro other state hstate
  rw [Turn.andThen, callsOf_append]
  -- a stream that was watched before was announced before; any other must have been opened now
  cases hbefore : t.roster.streams.get? other with
  | some before =>
      obtain ⟨call, hcall, hcreates⟩ := h other before hbefore
      exact ⟨call, List.mem_append_left _ hcall, hcreates⟩
  | none =>
      by_cases hne : key = other
      · subst hne
        have hy := perform_yields api t.roster key m t.api
        rw [callsAbout_perform] at hy
        rw [hbefore] at hm
        cases hm.does with
        | opens =>
            have hid : (StreamState.opened e).id? = none := by
              rw [StreamState.opened, StreamState.hear_id?]
            obtain ⟨call, hrequest, hcalls, -⟩ := hy.of_create rfl hid
            refine ⟨call, List.mem_append_right _ ?_, ?_, ?_⟩
            · rw [hcalls]
              exact List.mem_singleton_self call
            · rw [hrequest]
              rfl
            · rw [Call.key, hrequest]
              rfl
        | misses =>
            obtain ⟨hnext, -⟩ := hy.of_note rfl
            rw [Turn.andThen, hnext] at hstate
            cases hstate
      · rw [Turn.andThen, (perform_of_ne api hne _ _ _).1, hbefore] at hstate
        cases hstate

/-! ## Two runs -/

/-- `Accounts event past past' g t`: the run `t` follows the run `g`, and since the event came in,
when the two had done `past` and `past'`, its outcomes have matched those of `g`. -/
structure Accounts (event : Event) (past past' : List Effect) (g : Turn υ) (t : Turn σ) :
    Prop where
  follows : Follows g t
  announced : Announced t
  covered : ∃ now now', g.effects = past ++ now ∧ t.effects = past' ++ now' ∧
    event.Covered (callsOf past') (outcomesOf now) (outcomesOf now')

/-- Nothing has been done yet about the event. -/
theorem Accounts.start (h : Follows g t) (hannounced : Announced t) (event : Event) :
    Accounts event g.effects t.effects g t :=
  ⟨h, hannounced, [], [], (List.append_nil _).symm, (List.append_nil _).symm, .nil⟩

/-- A notice is accounted for if it is for information only, or says in both runs that the event
names no stream. -/
theorem Accounts.note {event : Event} {past past' : List Effect}
    (h : Accounts event past past' g t) {notice notice' : Notice}
    (hor : event.scope = .none notice ∧ notice = notice' ∨
      notice.level = .info ∧ notice'.level = .info) :
    Accounts event past past' (g.andThen (Turn.note notice)) (t.andThen (Turn.note notice')) where
  follows := h.follows.note notice notice'
  announced key state hstate := by
    rw [Turn.andThen, callsOf_append]
    obtain ⟨call, hcall, hcreates⟩ := h.announced key state hstate
    exact ⟨call, List.mem_append_left _ hcall, hcreates⟩
  covered := by
    obtain ⟨now, now', hg, ht, hcovered⟩ := h.covered
    refine ⟨now ++ [.note notice], now' ++ [.note notice'], ?_, ?_, ?_⟩
    · rw [← List.append_assoc, ← hg]
      rfl
    · rw [← List.append_assoc, ← ht]
      rfl
    · rw [outcomesOf_append, outcomesOf_append]
      rcases hor with ⟨hscope, rfl⟩ | ⟨hlevel, hlevel'⟩
      · rcases Event.level_of_scope_none hscope with hlevel | ⟨hname, hlevel, htext⟩
        · rw [outcomesOf_note_cons (Or.inl hlevel), outcomesOf_nil, List.append_nil,
            List.append_nil]
          exact hcovered
        · have hmatters : outcomesOf [.note notice] = [.note notice] := by
            simp [outcomesOf, Effect.matters, hlevel]
          rw [hmatters]
          exact hcovered.concat (.unnamed hname hlevel htext)
      · rw [outcomesOf_note_cons (Or.inr hlevel), outcomesOf_note_cons (Or.inr hlevel'),
          outcomesOf_nil, List.append_nil, List.append_nil]
        exact hcovered

section Granting

variable (hgrants : ∀ request s, (granting.answer request s).1.isOk)

include hgrants

/-- What a move of one stream tells in both runs: nothing that matters, or one outcome that has its
match. -/
theorem Follows.outcomesOf_perform (h : Follows g t) (hannounced : Announced t) (event : Event)
    {e : Event} {key : StreamKey} {m : Move} (hm : e.Makes key (g.roster.streams.get? key) m)
    {x : Option Uuid} (hx : x = (t.roster.streams.get? key).bind (·.id?)) :
    let outcome := outcomesOf (g.roster.perform granting key m g.api).effects
    let outcome' := outcomesOf (t.roster.perform api key (m.withId x) t.api).effects
    outcome = [] ∧ outcome' = [] ∨ event.Matches (callsOf t.effects) outcome outcome' := by
  intro outcome outcome'
  cases hact : m.act with
  | note notice =>
      have hquiet := Or.inl (b := notice.level = .info) (hm.level_of_note hact)
      have hact' : (m.withId x).act = .note notice := by rw [Move.withId, hact]; rfl
      refine Or.inl ⟨?_, ?_⟩
      · simp only [outcome, Roster.perform, hact, outcomesOf_note_cons hquiet, outcomesOf_nil]
      · simp only [outcome', Roster.perform, hact', outcomesOf_note_cons hquiet, outcomesOf_nil]
  | create state =>
      have hrequest : m.request? key = some (.create (state.report key none)) := by
        rw [Move.request?, hact]
      have hrequest' : (m.withId x).request? key = some (.create (state.report key none)) := by
        simp only [Move.request?, Move.withId, hact, Act.withId]
      refine Or.inr ?_
      simp only [outcome, outcome', outcomesOf_perform_call granting hrequest,
        outcomesOf_perform_call api hrequest']
      exact Call.matches_told rfl (hgrants _ _)
  | report after cause? =>
      obtain ⟨state, hstate, -, hid, -⟩ := hm.transition_of_report hact
      have hother := StreamState.map_unnamed_bind (h.alike.states key)
      rw [hstate, ← hx, Option.map_some] at hother
      obtain ⟨id, hsome⟩ := Option.isSome_iff_exists.mp (h.named hstate)
      have hrequest : m.request? key = some (.update id (after.report key cause?)) := by
        simp only [Move.request?, hact, hid, hsome, Option.map_some]
      have hact' : (m.withId x).act = .report (after.withId x) cause? := by
        rw [Move.withId, hact]
        rfl
      refine Or.inr ?_
      simp only [outcome, outcome', outcomesOf_perform_call granting hrequest]
      cases x with
      | none =>
          -- there is no record here, since it could not be made
          have hnot : ¬ Recorded key (callsOf t.effects) := fun hrecorded => by
            cases (h.recorded hother).mpr hrecorded
          have hsucceeds : Call.succeeded ⟨.update id (after.report key cause?),
            (granting.answer (.update id (after.report key cause?)) g.api).1⟩ := hgrants _ _
          rw [outcomesOf_perform_skipped api hact' rfl, Call.told_of_succeeded hsucceeds]
          exact .skipped rfl ⟨hannounced _ _ hother, hnot⟩ rfl (text_updateSkipped _ _)
      | some id' =>
          have hrequest' : (m.withId (some id')).request? key =
              some (.update id' (after.report key cause?)) := by
            simp only [Move.request?, hact', StreamState.withId_id?, Option.map_some,
              StreamState.report_withId]
          rw [outcomesOf_perform_call api hrequest']
          exact Call.matches_told rfl (hgrants _ _)

/-- A move that both runs make is accounted for. -/
theorem Accounts.perform {e event : Event} {past past' : List Effect}
    (h : Accounts event past past' g t) {key : StreamKey} {m : Move}
    (hm : e.Makes key (g.roster.streams.get? key) m) :
    Accounts event past past' (g.andThen fun r s => r.perform granting key m s)
      (t.andThen fun r s => r.perform api key
        (m.withId ((t.roster.streams.get? key).bind (·.id?))) s) where
  follows := h.follows.perform hgrants hm
  announced := h.announced.perform (hm.withId (h.follows.alike.states key))
  covered := by
    obtain ⟨now, now', hg, ht, hcovered⟩ := h.covered
    refine ⟨now ++ (g.roster.perform granting key m g.api).effects,
      now' ++ (t.roster.perform api key
        (m.withId ((t.roster.streams.get? key).bind (·.id?))) t.api).effects, ?_, ?_, ?_⟩
    · rw [← List.append_assoc, ← hg]
      rfl
    · rw [← List.append_assoc, ← ht]
      rfl
    · rw [outcomesOf_append, outcomesOf_append]
      rcases h.follows.outcomesOf_perform hgrants h.announced event hm rfl with
        ⟨hnone, hnone'⟩ | hmatches
      · rw [hnone, hnone', List.append_nil, List.append_nil]
        exact hcovered
      · refine hcovered.concat ?_
        rw [callsOf_outcomesOf, ← callsOf_append, ← ht]
        exact hmatches

/-- A run accounts for its moves. -/
theorem keepsMoves_accounts (api : StatusApi σ) (event : Event) (past past' : List Effect) :
    KeepsMoves granting api (Accounts event past past') where
  alike h := h.follows.alike
  move hm h := h.perform hgrants hm

/-- A run accounts for an event. -/
theorem Accounts.track (api : StatusApi σ) (h : Follows g t) (hannounced : Announced t)
    (event : Event) : Accounts event g.effects t.effects (g.andThen (Roster.track granting event))
      (t.andThen (Roster.track api event)) :=
  (keepsMoves_accounts hgrants api event _ _).track event (fun hor h => h.note hor)
    (.start h hannounced event)

end Granting

/-- The calls in a history are those of the run. -/
theorem callsOf_flatMap_history (api : StatusApi σ) (events : List Event) (r : Roster) (s : σ) :
    callsOf ((history api events r s).flatMap (·.effects)) =
      callsOf (trackAll api events r s).effects := by
  induction events generalizing r s with
  | nil => rfl
  | cons event rest ih =>
      rw [history, List.flatMap_cons, callsOf_append, ih, trackAll, callsOf_append]

/-- No transition is lost silently. Where all calls of a run succeed, each of them is made in every
other run over the same events and succeeds, or it is made and the tracking of that event writes one
error that names the stream, and the run state of an update; or it is an update of a stream for
which the call for a record failed, and the tracking of that event writes one warning instead.
Besides, the only warnings and errors are those about events that name no stream. -/
theorem losses_are_told {granting : StatusApi υ}
    (hgrants : ∀ request s, (granting.answer request s).1.isOk) (api : StatusApi σ)
    (events : List Event) (u : υ) (s : σ) :
    CoveredAll (history granting events {} u) (history api events {} s) := by
  suffices hall : CoveredAll (history granting events {} u) (history api events {} s) ∧
      Follows (trackAll granting events {} u) (trackAll api events {} s) ∧
      Announced (trackAll api events {} s) from hall.1
  induction events using List.reverseRecOn with
  | nil =>
      refine ⟨.nil, ⟨.refl {}, fun hget => ?_, fun hget => ?_, .nil⟩, fun _ _ hget => ?_⟩
      · cases hget
      · cases hget
      · cases hget
  | append_singleton events event ih =>
      obtain ⟨hcovered, hfollows, hannounced⟩ := ih
      have haccounts := Accounts.track hgrants api hfollows hannounced event
      rw [history_concat, history_concat, trackAll_concat, trackAll_concat]
      refine ⟨hcovered.concat rfl ?_, haccounts.follows, haccounts.announced⟩
      obtain ⟨now, now', hg, ht, hnow⟩ := haccounts.covered
      obtain rfl := List.append_cancel_left hg
      obtain rfl := List.append_cancel_left ht
      rw [callsOf_flatMap_history]
      exact hnow

/-- One event ends two streams: one has no record, and the update of the other fails. -/
theorem losses_are_told_of_two_streams :
    let started (name : String) : Event := { Sample.event .source .started with
      message := { stream := ⟨some name, none⟩, status := .started, emittedAt := .zero } }
    let ending : Event := { Sample.event .internal .complete with
      message := { stream := {}, status := .complete, emittedAt := .zero } }
    let events := [started "orders", started "users", ending]
    let outage : Outage := { creates := .named ["orders"], updates := .named ["users"] }
    let left := history (outage.applyTo Sample.granting) events {} ()
    (left.map fun entry => (outcomesOf entry.effects).map fun
        | .call request _ => (request.report.key.name, none)
        | .note notice => (notice.line.target.word, some notice.level)) =
      [[("orders", none), ("status_tracker::tracker", some .error)], [("users", none)],
        [("status_tracker::tracker", some .warn), ("users", none),
          ("status_tracker::tracker", some .error)]] ∧
      CoveredAll (history Sample.granting events {} ()) left := by
  intro started ending events outage left
  have hgrants : ∀ request s, (Sample.granting.answer request s).1.isOk := fun _ _ => rfl
  exact ⟨by decide, losses_are_told hgrants (outage.applyTo Sample.granting) events () ()⟩

end Roster

end StreamWatch
