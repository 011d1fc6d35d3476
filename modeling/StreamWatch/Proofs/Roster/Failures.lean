import StreamWatch.Api.Outage
import StreamWatch.Proofs.Roster.Unnamed

/-!
# Calls that fail

Two runs over the same events differ in what their calls are answered with. That shows nowhere but
in the identifiers: both rosters are `Alike`, whatever fails. The calls show it in one way only. A
stream for which no record could be made has nothing to update, so that its updates are missing, and
no others: `failures_cost_updates`.
-/

namespace StreamWatch

/-! ## Two rosters -/

/-- Two rosters know the same but for the identifiers of records. -/
structure Roster.Alike (r r' : Roster) : Prop where
  /-- They watch the same streams, in the same order. -/
  keys : r.streams.keys = r'.streams.keys
  /-- They know the same of each. -/
  states : ∀ key, (r.streams.get? key).map StreamState.unnamed =
    (r'.streams.get? key).map StreamState.unnamed
  /-- They list the same streams as rate limited. -/
  limited : r.limited = r'.limited

namespace Roster.Alike

variable {r r' : Roster}

theorem refl (r : Roster) : r.Alike r := ⟨rfl, fun _ => rfl, rfl⟩

theorem symm (h : r.Alike r') : r'.Alike r :=
  ⟨h.keys.symm, fun key => (h.states key).symm, h.limited.symm⟩

theorem trans {r'' : Roster} (h : r.Alike r') (h' : r'.Alike r'') : r.Alike r'' :=
  ⟨h.keys.trans h'.keys, fun key => (h.states key).trans (h'.states key),
    h.limited.trans h'.limited⟩

/-- What is remembered alike leaves two rosters alike. -/
theorem remember (h : r.Alike r') (key : StreamKey) {next next' : Option StreamState}
    (hnext : next.map StreamState.unnamed = next'.map StreamState.unnamed)
    (change : LimitChange) : (r.remember key next change).Alike (r'.remember key next' change) where
  keys := by
    refine Table.keys_set_congr h.keys key ?_
    rw [← Option.isSome_map (f := StreamState.unnamed), hnext, Option.isSome_map]
  states other := by
    rw [get?_remember, get?_remember]
    split
    · exact hnext
    · exact h.states other
  limited := congrArg (changeLimit key · change) h.limited

/-- Alike rosters watch the same streams of a run. -/
theorem keysOf_eq (h : r.Alike r') (run : RunId) : r.keysOf run = r'.keysOf run :=
  congrArg (List.filter _) h.keys

end Roster.Alike

/-! ## Two runs -/

/-- What was done so far, and then one thing more. -/
def Turn.andThen {σ : Type} (t : Turn σ) (step : Roster → σ → Turn σ) : Turn σ :=
  let next := step t.roster t.api
  { next with effects := t.effects ++ next.effects }

/-- Three turns are taken one after another, whichever two are put together first. -/
theorem Turn.andThen_assoc {σ : Type} (t : Turn σ) (first second : Roster → σ → Turn σ) :
    (t.andThen first).andThen second = t.andThen fun r s => (first r s).andThen second := by
  simp [andThen, List.append_assoc]

/-- A turn is followed by what follows from where it ends. -/
theorem Turn.andThen_congr {σ : Type} {t next : Turn σ} {step : Roster → σ → Turn σ}
    (h : step t.roster t.api = next) : t.andThen step = t.andThen fun _ _ => next := by
  simp only [andThen, h]

/-- One thing is a notice. -/
def Turn.note {σ : Type} (notice : Notice) (r : Roster) (s : σ) : Turn σ := ⟨r, s, [.note notice]⟩

namespace Roster

variable {σ τ : Type} (api : StatusApi σ) (api' : StatusApi τ) {P : Turn σ → Turn τ → Prop}

/-- `KeepsMoves api api' P`: where `P` holds of two runs their rosters are alike, and it goes on
holding when both make the same move of a stream but for the identifier. -/
structure KeepsMoves (P : Turn σ → Turn τ → Prop) : Prop where
  alike : ∀ {t t'}, P t t' → t.roster.Alike t'.roster
  move : ∀ {t t'} {e : Event} {key m}, e.Makes key (t.roster.streams.get? key) m → P t t' →
    P (t.andThen fun r s => r.perform api key m s)
      (t'.andThen fun r s => r.perform api' key
        (m.withId ((t'.roster.streams.get? key).bind (·.id?))) s)

/-- `Keeps api api' P`: besides, `P` goes on holding when both runs write a notice. -/
structure Keeps (P : Turn σ → Turn τ → Prop) : Prop extends KeepsMoves api api' P where
  note : ∀ {t t'} notice notice', P t t' →
    P (t.andThen (Turn.note notice)) (t'.andThen (Turn.note notice'))

namespace KeepsMoves

variable {api api'} {t : Turn σ} {t' : Turn τ} (keeps : KeepsMoves api api' P)

include keeps

/-- Two runs that make a move of the same event each make the same move. -/
theorem perform (h : P t t') {e : Event} {key : StreamKey} {m m' : Move}
    (hm : e.Makes key (t.roster.streams.get? key) m)
    (hm' : e.Makes key (t'.roster.streams.get? key) m') :
    P (t.andThen fun r s => r.perform api key m s)
      (t'.andThen fun r s => r.perform api' key m' s) := by
  have hsame := hm.withId ((keeps.alike h).states key)
  rw [hm'.unique hsame]
  exact keeps.move hm h

/-- Two runs that clear the same streams. -/
theorem clearAll {e : Event} {runState : RunState} {cause? : Option Cause}
    (hend : e.ending? = some (runState, cause?)) (keys : List StreamKey)
    (hclears : ∀ key ∈ keys, e.Clears key) (h : P t t') :
    P (t.andThen (clearAll api runState cause? e.time keys))
      (t'.andThen (clearAll api' runState cause? e.time keys)) := by
  induction keys generalizing t t' with
  | nil => simpa [Turn.andThen, Roster.clearAll] using h
  | cons key rest ih =>
      rw [List.forall_mem_cons] at hclears
      have hm (state? : Option StreamState) :
          e.Makes key state? (Move.ofClearing key runState cause? e.time state?) :=
        .clearing hclears.1 hend
      have hfirst := keeps.perform h (hm _) (hm _)
      have hrest := ih hclears.2 hfirst
      rw [Turn.andThen_assoc, Turn.andThen_assoc] at hrest
      exact hrest

/-- Two runs that take the same event into account. What they write besides is the same, or it is
for information only. -/
theorem track (event : Event)
    (note : ∀ {t t'} {notice notice' : Notice},
      (event.scope = .none notice ∧ notice = notice' ∨
        notice.level = .info ∧ notice'.level = .info) → P t t' →
      P (t.andThen (Turn.note notice)) (t'.andThen (Turn.note notice')))
    (h : P t t') :
    P (t.andThen (Roster.track api event)) (t'.andThen (Roster.track api' event)) := by
  rcases event.scope_cases with ⟨notice, hscope, -⟩ | ⟨key, hscope, hreports⟩ |
    ⟨key, runState, cause?, hscope, hclears, -, -, hend⟩ |
    ⟨runState, cause?, hscope, horigin, hwide, hend⟩
  · rw [Turn.andThen_congr (track_of_none api hscope t.roster t.api),
      Turn.andThen_congr (track_of_none api' hscope t'.roster t'.api)]
    exact note (Or.inl ⟨hscope, rfl⟩) h
  · rw [Turn.andThen_congr (track_of_report api hscope t.roster t.api),
      Turn.andThen_congr (track_of_report api' hscope t'.roster t'.api)]
    exact keeps.perform h (.report hreports) (.report hreports)
  · rw [Turn.andThen_congr (track_of_clear api hscope t.roster t.api),
      Turn.andThen_congr (track_of_clear api' hscope t'.roster t'.api)]
    exact keeps.perform h (.clearing hclears hend) (.clearing hclears hend)
  · obtain ⟨notice, hlevel, htrack⟩ := track_of_clearRun api hscope t.roster t.api
    obtain ⟨notice', hlevel', htrack'⟩ := track_of_clearRun api' hscope t'.roster t'.api
    have hclears : ∀ key ∈ t.roster.keysOf event.run, event.Clears key := fun key hkey =>
      ⟨horigin, (Event.ending?_eq_some hend).imp And.left And.left,
        Or.inr ⟨hwide, (mem_keysOf.mp hkey).2.symm⟩⟩
    have hall := keeps.clearAll hend _ hclears (note (Or.inr ⟨hlevel, hlevel'⟩) h)
    rw [Turn.andThen_assoc, Turn.andThen_assoc] at hall
    -- both visit the same streams, since they watch the same
    rw [Turn.andThen_congr htrack, Turn.andThen_congr htrack', ← (keeps.alike h).keysOf_eq]
    exact hall

end KeepsMoves

namespace Keeps

variable {api api'} {t : Turn σ} {t' : Turn τ} (keeps : Keeps api api' P)

include keeps

/-- Two runs over the same events. -/
theorem trackAll (events : List Event) (h : P t t') :
    P (t.andThen (Roster.trackAll api events)) (t'.andThen (Roster.trackAll api' events)) := by
  induction events generalizing t t' with
  | nil => simpa [Turn.andThen, Roster.trackAll] using h
  | cons event rest ih =>
      have hrest := ih (keeps.toKeepsMoves.track event (fun _ => keeps.note _ _) h)
      rw [Turn.andThen_assoc, Turn.andThen_assoc] at hrest
      exact hrest

end Keeps

/-! ## Nothing but identifiers -/

/-- Performing the same move of alike rosters leaves them alike, whatever is answered. -/
theorem Alike.perform {r r' : Roster} (h : r.Alike r') {e : Event} {key : StreamKey} {m : Move}
    (hm : e.Makes key (r.streams.get? key) m) (s : σ) (s' : τ) :
    (r.perform api key m s).roster.Alike (r'.perform api' key
      (m.withId ((r'.streams.get? key).bind (·.id?))) s').roster := by
  obtain ⟨next, hnext, hsame⟩ := perform_remembers api hm s
  obtain ⟨next', hnext', hsame'⟩ := perform_remembers api' (hm.withId (h.states key)) s'
  rw [hnext, hnext']
  refine h.remember key ?_ m.change
  rw [hsame, hsame', Move.withId, Option.map_map]
  rfl

end Roster

/-! ## Updates that are missing -/

/-- The last request for a record of the stream succeeded. -/
def Recorded (key : StreamKey) (calls : List Call) : Prop :=
  ∃ call, (calls.filter fun c => c.request.kind = .create ∧ c.key = key).getLast? = some call ∧
    call.succeeded

/-- A stream is recorded after its create if and only if that succeeded. -/
theorem recorded_concat_create {call : Call} (hkind : call.request.kind = .create)
    (calls : List Call) : Recorded call.key (calls ++ [call]) ↔ call.succeeded := by
  simp [Recorded, hkind]

/-- A call for another stream does not change whether a stream is recorded. -/
theorem recorded_concat_of_ne {call : Call} {key : StreamKey} (hkey : call.key ≠ key)
    (calls : List Call) : Recorded key (calls ++ [call]) ↔ Recorded key calls := by
  simp [Recorded, hkey]

theorem recorded_concat_update {call : Call} (hkind : call.request.kind = .update)
    (key : StreamKey) (calls : List Call) :
    Recorded key (calls ++ [call]) ↔ Recorded key calls := by
  simp [Recorded, hkind]

/-- `Thinned all left`: the calls `left` are the calls `all` but for identifiers and answers, and
without the updates of every stream for which the last request for a record, among `left`,
failed. -/
inductive Thinned : List Call → List Call → Prop
  | nil : Thinned [] []
  /-- A request for a record, or an update of one that there is. -/
  | kept {all left : List Call} {call call' : Call} : Thinned all left →
      call.request.unnamed = call'.request.unnamed →
      (call'.request.kind = .update → Recorded call'.key left) →
      Thinned (all ++ [call]) (left ++ [call'])
  /-- An update of a record that could not be made. -/
  | missing {all left : List Call} {call : Call} : Thinned all left →
      call.request.kind = .update → ¬ Recorded call.key left → Thinned (all ++ [call]) left

/-- The calls of a move leave the records of all other streams alone. -/
theorem Move.Yields.recorded_of_ne {σ : Type} {api : StatusApi σ} {key other : StreamKey} {m : Move}
    {next : Option StreamState} {calls : List Call} (h : m.Yields api key next calls)
    (hne : key ≠ other) (before : List Call) :
    Recorded other (before ++ calls) ↔ Recorded other before := by
  cases h with
  | silent => rw [List.append_nil]
  | @call request s hrequest =>
      refine recorded_concat_of_ne ?_ before
      rw [Call.key, Move.key_of_request? hrequest]
      exact hne

namespace Roster

variable {σ τ υ : Type}

/-- `Follows g t`: the run `t` differs from the run `g`, all of whose calls succeeded, by
identifiers and by the updates of records that could not be made. -/
structure Follows (g : Turn υ) (t : Turn σ) : Prop where
  alike : g.roster.Alike t.roster
  /-- Where all calls succeed every watched stream has a record. -/
  named : ∀ {key state}, g.roster.streams.get? key = some state → state.id?.isSome
  /-- Elsewhere a watched stream has one if the last request for it succeeded. -/
  recorded : ∀ {key state}, t.roster.streams.get? key = some state →
    (state.id?.isSome ↔ Recorded key (callsOf t.effects))
  thinned : Thinned (callsOf g.effects) (callsOf t.effects)

namespace Follows

variable {granting : StatusApi υ} {api : StatusApi σ} {g : Turn υ} {t : Turn σ}

/-- Notices show in neither rosters nor calls. -/
theorem note (h : Follows g t) (notice notice' : Notice) :
    Follows (g.andThen (Turn.note notice)) (t.andThen (Turn.note notice')) := by
  refine ⟨h.alike, h.named, fun hget => ?_, ?_⟩
  · simpa [Turn.andThen, Turn.note] using h.recorded hget
  · simpa [Turn.andThen, Turn.note] using h.thinned

/-- What a move of one stream does to it in both runs. -/
theorem yields (hgrants : ∀ request s, (granting.answer request s).1.isOk) (h : Follows g t)
    {e : Event} {key : StreamKey} {m : Move} (hm : e.Makes key (g.roster.streams.get? key) m)
    {x : Option Uuid} (hx : x = (t.roster.streams.get? key).bind (·.id?))
    {next next' : Option StreamState} {calls calls' : List Call}
    (hy : m.Yields granting key next calls) (hy' : (m.withId x).Yields api key next' calls') :
    (∀ state, next = some state → state.id?.isSome) ∧
      (∀ state, next' = some state →
        (state.id?.isSome ↔ Recorded key (callsOf t.effects ++ calls'))) ∧
      Thinned (callsOf g.effects ++ calls) (callsOf t.effects ++ calls') := by
  -- a stream that is watched has a record here, and `x` there
  have hbefore {state : StreamState} (hstate : g.roster.streams.get? key = some state) :
      state.id?.isSome ∧ (x.isSome ↔ Recorded key (callsOf t.effects)) := by
    have hother := StreamState.map_unnamed_bind (h.alike.states key)
    rw [hstate, ← hx, Option.map_some] at hother
    exact ⟨h.named hstate, h.recorded hother⟩
  cases hm.honest with
  | create hnone hid =>
      have hanswered := hy.answered
      obtain ⟨call, hrequest, rfl, rfl⟩ := hy.of_create rfl hid
      have hsucceeds : call.succeeded := by
        obtain ⟨u, hu⟩ := hanswered call List.mem_cons_self
        rw [Call.succeeded, hu]
        exact hgrants call.request u
      obtain ⟨call', hrequest', rfl, rfl⟩ := hy'.of_create rfl hid
      have hkey : call'.key = key := by
        rw [Call.key, hrequest']
        rfl
      have hkind : call'.request.kind = .create := by rw [hrequest']; rfl
      refine ⟨fun state hstate => ?_, fun state hstate => ?_, h.thinned.kept ?_ ?_⟩
      · cases hstate
        exact call.isSome_id?.trans hsucceeds
      · cases hstate
        rw [← hkey, recorded_concat_create hkind, ← Call.isSome_id?]
      · rw [hrequest, hrequest']
      · rw [hkind]
        exact fun hupdate => by cases hupdate
  | @report state after _ _ cause? hstate hid _ hor =>
      obtain ⟨hnamed, hrecorded⟩ := hbefore hstate
      rw [← hid] at hnamed
      obtain ⟨rfl, hcalls⟩ := hy.of_report rfl
      obtain ⟨rfl, hcalls'⟩ := hy'.of_report rfl
      -- the update is made here
      obtain ⟨id, answer, rfl⟩ : ∃ id answer, calls =
          [⟨.update id (after.report key cause?), answer⟩] := by
        rcases hcalls with ⟨hnone, -⟩ | ⟨id, answer, -, rfl⟩
        · rw [hnone] at hnamed
          cases hnamed
        · exact ⟨id, answer, rfl⟩
      -- and there unless the record is missing
      have hboth : (x.isSome ↔ Recorded key (callsOf t.effects ++ calls')) ∧
          Thinned (callsOf g.effects ++ [⟨.update id (after.report key cause?), answer⟩])
            (callsOf t.effects ++ calls') := by
        rcases hcalls' with ⟨hnone, rfl⟩ | ⟨id', answer', hsome, rfl⟩
        · obtain rfl : x = none := hnone
          rw [List.append_nil]
          refine ⟨hrecorded, h.thinned.missing rfl fun hr => ?_⟩
          cases hrecorded.mpr hr
        · obtain rfl : x = some id' := hsome
          rw [recorded_concat_update rfl]
          exact ⟨hrecorded, h.thinned.kept rfl fun _ => hrecorded.mp rfl⟩
      refine ⟨fun last hlast => ?_, fun last hlast => ?_, hboth.2⟩
      · rcases hor with rfl | rfl
        · cases hlast
          exact hnamed
        · cases hlast
      · rcases hor with rfl | rfl
        · cases hlast
          exact hboth.1
        · cases hlast
  | dropped =>
      obtain ⟨rfl, rfl⟩ := hy.of_note rfl
      obtain ⟨rfl, rfl⟩ := hy'.of_note rfl
      rw [List.append_nil, List.append_nil]
      exact ⟨fun _ hnext => (by cases hnext), fun _ hnext => (by cases hnext), h.thinned⟩
  | kept hstate hid =>
      obtain ⟨rfl, rfl⟩ := hy.of_note rfl
      obtain ⟨rfl, rfl⟩ := hy'.of_note rfl
      obtain ⟨hnamed, hrecorded⟩ := hbefore hstate
      rw [← hid] at hnamed
      rw [List.append_nil, List.append_nil]
      refine ⟨fun _ hnext => ?_, fun _ hnext => ?_, h.thinned⟩
      · cases hnext
        exact hnamed
      · cases hnext
        exact hrecorded

/-- What is watched and called after a move follows what is watched and called before it. -/
theorem perform (hgrants : ∀ request s, (granting.answer request s).1.isOk) (h : Follows g t)
    {e : Event} {key : StreamKey} {m : Move} (hm : e.Makes key (g.roster.streams.get? key) m) :
    Follows (g.andThen fun r s => r.perform granting key m s)
      (t.andThen fun r s => r.perform api key
        (m.withId ((t.roster.streams.get? key).bind (·.id?))) s) := by
  have hy := perform_yields granting g.roster key m g.api
  have hy' := perform_yields api t.roster key
    (m.withId ((t.roster.streams.get? key).bind (·.id?))) t.api
  rw [callsAbout_perform] at hy hy'
  obtain ⟨hnamed, hrecorded, hthinned⟩ := h.yields hgrants hm rfl hy hy'
  refine ⟨h.alike.perform granting api hm _ _, ?_, ?_, ?_⟩
  · intro other state hstate
    by_cases hne : key = other
    · subst hne
      exact hnamed state hstate
    · rw [Turn.andThen, (perform_of_ne granting hne _ _ _).1] at hstate
      exact h.named hstate
  · intro other state hstate
    rw [Turn.andThen, callsOf_append]
    by_cases hne : key = other
    · subst hne
      exact hrecorded state hstate
    · rw [Turn.andThen, (perform_of_ne api hne _ _ _).1] at hstate
      rw [hy'.recorded_of_ne hne]
      exact h.recorded hstate
  · rw [Turn.andThen, Turn.andThen, callsOf_append, callsOf_append]
    exact hthinned

end Follows

/-- A run follows the run in which all calls succeed. -/
theorem keeps_follows {granting : StatusApi υ}
    (hgrants : ∀ request s, (granting.answer request s).1.isOk) (api : StatusApi σ) :
    Keeps granting api Follows where
  alike h := h.alike
  note notice notice' h := h.note notice notice'
  move hm h := h.perform hgrants hm

/-- However the calls of two runs over the same events are answered, both watch the same streams in
the same states but for the identifiers, and list the same of them as rate limited. The calls of
either are those of a run in which all calls succeed, but for the identifiers and without the
updates of every lifetime of a stream for which no record could be made. -/
theorem failures_cost_updates {granting : StatusApi υ}
    (hgrants : ∀ request s, (granting.answer request s).1.isOk) (api : StatusApi σ)
    (api' : StatusApi τ) (events : List Event) (u : υ) (s : σ) (s' : τ) :
    let granted := trackAll granting events {} u
    let turn := trackAll api events {} s
    let turn' := trackAll api' events {} s'
    turn.roster.Alike turn'.roster ∧ Thinned (callsOf granted.effects) (callsOf turn.effects) ∧
      Thinned (callsOf granted.effects) (callsOf turn'.effects) := by
  have hstart {ρ : Type} (s : ρ) : Follows (σ := ρ) ⟨{}, u, []⟩ ⟨{}, s, []⟩ :=
    ⟨.refl {}, fun hget => (by cases hget), fun hget => (by cases hget), .nil⟩
  have hturn := (keeps_follows hgrants api).trackAll events (hstart s)
  have hturn' := (keeps_follows hgrants api').trackAll events (hstart s')
  exact ⟨hturn.alike.symm.trans hturn'.alike, hturn.thinned, hturn'.thinned⟩

/-- A stream without a record is missing its update and its end. -/
theorem failures_cost_updates_of_orders :
    let events := [Sample.event .source .started, Sample.event .source .running,
      Sample.event .source .incomplete]
    let outage : Outage := { creates := .named ["orders"] }
    let granted := trackAll Sample.granting events {} ()
    let turn := trackAll (outage.applyTo Sample.granting) events {} ()
    (callsOf granted.effects).map (·.request.kind) = [.create, .update, .update] ∧
      (callsOf turn.effects).map (·.request.kind) = [.create] ∧
      turn.roster.Alike granted.roster ∧
      Thinned (callsOf granted.effects) (callsOf turn.effects) := by
  intro events outage granted turn
  have hgrants : ∀ request s, (Sample.granting.answer request s).1.isOk := fun _ _ => rfl
  obtain ⟨halike, hthinned, -⟩ := failures_cost_updates hgrants (outage.applyTo Sample.granting)
    Sample.granting events () () ()
  exact ⟨by decide, by decide, halike, hthinned⟩

end Roster

end StreamWatch
