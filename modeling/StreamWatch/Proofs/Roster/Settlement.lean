import StreamWatch.Archive
import StreamWatch.Proofs.Basic
import StreamWatch.Proofs.Roster.Agreement
import StreamWatch.Proofs.Roster.Unnamed

/-!
# Records that are settled

The record of a stream is settled by one update that reports an end. While a stream is watched its
record is settled exactly if its end was reported, and no stream is cleared before its record is
settled, so that with no stream watched all records are: `settles_of_run`.
-/

namespace StreamWatch

/-! ## The books of an archive -/

namespace Archive

/-- The updates of a record that the archive accepted and that report an end. -/
def endings (a : Archive) (id : Uuid) : List (Uuid × Report) :=
  a.updates.toList.filter fun update => update.1 = id ∧ update.2.runState.isTerminal

/-- Creating a record ends no lifetime. -/
theorem endings_create (a : Archive) (id : Uuid) (report : Report) (other : Uuid) :
    (a.create id report).endings other = a.endings other := rfl

/-- An update ends a lifetime if its run state is terminal. -/
theorem endings_update (a : Archive) (id : Uuid) (report : Report) (other : Uuid) :
    (a.update id report).endings other =
      a.endings other ++
        if id = other ∧ report.runState.isTerminal then [(id, report)] else [] := by
  rw [endings, update, Array.toList_push, List.filter_append, List.filter_singleton, endings]
  simp only [cond_eq_ite, decide_eq_true_eq]

/-- The books of an archive are in order. -/
structure Books (supply : Nat → Uuid) (a : Archive) : Prop where
  /-- Every record was asked for once. -/
  size : a.records.size = a.creates.size
  /-- Its identifier comes from the supply. -/
  issued : ∀ {id}, a.records.get? id ≠ none → ∃ i < a.creates.size, supply i = id
  /-- Only records were updated. -/
  known : ∀ update ∈ a.updates.toList, a.records.get? update.1 ≠ none
  /-- A record that reports an end got one update to that effect, and any other record none. -/
  tally : ∀ {id report}, a.records.get? id = some report →
    (a.endings id).length = if report.runState.isTerminal then 1 else 0

namespace Books

variable {supply : Nat → Uuid} {a : Archive}

/-- The books of a new archive are in order. -/
theorem empty : Books supply {} where
  size := rfl
  issued h := absurd rfl h
  known _ h := by cases h
  tally h := by cases h

/-- An identifier that was not given out has no record. -/
theorem get?_supply (h : a.Books supply) (hdistinct : (Set.Iio (a.creates.size + 1)).InjOn supply) :
    a.records.get? (supply a.creates.size) = none := by
  by_contra hsome
  obtain ⟨i, hi, heq⟩ := h.issued hsome
  have hsame := hdistinct (Set.mem_Iio.mpr (Nat.lt_succ_of_lt hi))
    (Set.mem_Iio.mpr (Nat.lt_succ_self _)) heq
  exact absurd hsame (Nat.ne_of_lt hi)

/-- A new record that does not report an end keeps the books in order. -/
theorem create (h : a.Books supply) (hdistinct : (Set.Iio (a.creates.size + 1)).InjOn supply)
    {report : Report} (hreport : ¬ report.runState.isTerminal) :
    (a.create (supply a.creates.size) report).Books supply := by
  have hnew := h.get?_supply hdistinct
  have hsize : (a.create (supply a.creates.size) report).creates.size = a.creates.size + 1 :=
    Array.size_push _
  refine ⟨?_, fun {id} hid => ?_, fun update hupdate => ?_, fun {id filed} hid => ?_⟩
  · rw [hsize, Archive.create, Table.size_put, if_pos hnew, h.size]
  · rw [hsize]
    rw [get?_create] at hid
    split at hid
    · next heq => exact ⟨_, Nat.lt_succ_self _, heq⟩
    · obtain ⟨i, hi, heq⟩ := h.issued hid
      exact ⟨i, Nat.lt_succ_of_lt hi, heq⟩
  · rw [get?_create]
    split
    · exact Option.some_ne_none report
    · exact h.known update hupdate
  · rw [get?_create] at hid
    rw [endings_create]
    split at hid
    · next heq =>
        -- nothing can have been said of the new record before
        cases hid
        rw [if_neg hreport, List.length_eq_zero_iff, endings, List.filter_eq_nil_iff]
        intro update hupdate hmine
        obtain ⟨hupdated, -⟩ := of_decide_eq_true hmine
        exact h.known update hupdate (by rw [hupdated, ← heq, hnew])
    · exact h.tally hid

/-- An update of a record that did not report an end keeps the books in order. -/
theorem update (h : a.Books supply) {id : Uuid} {before : Report}
    (hbefore : a.records.get? id = some before) (hend : ¬ before.runState.isTerminal)
    (report : Report) : (a.update id report).Books supply := by
  have hkept {other : Uuid} (h : a.records.get? other ≠ none) :
      (a.update id report).records.get? other ≠ none := by
    rw [get?_update]
    split
    · exact Option.some_ne_none report
    · exact h
  have hsome : a.records.get? id ≠ none := by simp [hbefore]
  refine ⟨?_, fun {other} hother => ?_, fun update hupdate => ?_, fun {other filed} hother => ?_⟩
  · rw [Archive.update, Table.size_put, if_neg hsome, h.size]
  · refine h.issued fun hnone => hother ?_
    rw [get?_update, if_neg, hnone]
    rintro rfl
    exact hsome hnone
  · rw [Archive.update, Array.toList_push, List.mem_append, List.mem_singleton] at hupdate
    rcases hupdate with hupdate | rfl
    · exact hkept (h.known update hupdate)
    · exact hkept hsome
  · rw [get?_update] at hother
    rw [endings_update, List.length_append]
    split at hother
    · next heq =>
        -- it is the first update of this record that may report an end
        subst heq
        cases hother
        rw [h.tally hbefore, if_neg hend]
        simp only [true_and]
        split <;> rfl
    · next hne =>
        rw [if_neg fun hand : id = other ∧ _ => hne hand.1, h.tally hother]
        rfl

end Books

end Archive

/-! ## The invariant -/

namespace Roster

variable {supply : Nat → Uuid}

/-- What holds of the watched streams and the archive when no call fails. -/
structure Settles (supply : Nat → Uuid) (r : Roster) (a : Archive) : Prop where
  books : a.Books supply
  /-- The end of a stream was reported exactly if its run state is an end. -/
  ended : ∀ {key state}, r.streams.get? key = some state →
    state.ended = state.runState.isTerminal
  /-- The archive holds the record of every watched stream, and was told of its state. -/
  holds : ∀ {key state}, r.streams.get? key = some state → ∃ id call, state.id? = some id ∧
    call.succeeded ∧ a.Holds supply key state id (some call)
  /-- A record that does not report an end is that of a watched stream. -/
  filed : ∀ {id report}, a.records.get? id = some report → ¬ report.runState.isTerminal →
    ∃ state, r.streams.get? report.key = some state ∧ state.id? = some id

namespace Settles

variable {r : Roster} {a : Archive} {key : StreamKey} {state : StreamState}

/-- The record of a watched stream says whether the stream has ended. -/
theorem exists_record (h : Settles supply r a) (hstate : r.streams.get? key = some state) :
    ∃ id report, state.id? = some id ∧ a.records.get? id = some report ∧ report.key = key ∧
      report.runState.isTerminal = state.ended := by
  obtain ⟨id, call, hid, hcall, hheld⟩ := h.holds hstate
  obtain ⟨report, last, hreport, hkey, -, hlast, htold⟩ := hheld.filed
  cases hlast
  obtain ⟨cause?, rfl⟩ := htold hcall
  exact ⟨id, _, hid, hreport, hkey, (h.ended hstate).symm⟩

/-- A record that is not settled is that of a watched stream which has not ended. -/
theorem not_ended (h : Settles supply r a) {id : Uuid} {report : Report}
    (hget : a.records.get? id = some report) (hopen : ¬ report.runState.isTerminal) :
    ∃ state, r.streams.get? report.key = some state ∧ state.id? = some id ∧ ¬ state.ended := by
  obtain ⟨state, hstate, hid⟩ := h.filed hget hopen
  obtain ⟨id', report', hid', hget', -, htold⟩ := h.exists_record hstate
  cases hid.symm.trans hid'
  cases hget.symm.trans hget'
  exact ⟨state, hstate, hid, by rwa [← htold]⟩

/-- At first no stream is watched and nothing is in the archive. -/
theorem start : Settles supply {} {} where
  books := .empty
  ended h := by cases h
  holds h := by cases h
  filed h := by cases h

/-- What is done with one stream and its record keeps the invariant if it holds of that stream and
its record afterwards, and if the archive has kept the records of all other streams. -/
theorem remember (h : Settles supply r a) {a' : Archive} {next : Option StreamState}
    (change : LimitChange) (hbooks : a'.Books supply)
    (hself : ∀ state, next = some state → state.ended = state.runState.isTerminal ∧
      ∃ id call, state.id? = some id ∧ call.succeeded ∧ a'.Holds supply key state id (some call))
    (hothers : ∀ other state id last?, key ≠ other → a.Holds supply other state id last? →
      a'.Holds supply other state id last?)
    (hfiled : ∀ id report, a'.records.get? id = some report → ¬ report.runState.isTerminal →
      key ≠ report.key ∧ a.records.get? id = some report ∨
        key = report.key ∧ ∃ state, next = some state ∧ state.id? = some id) :
    Settles supply (r.remember key next change) a' := by
  refine ⟨hbooks, fun {other state} hget => ?_, fun {other state} hget => ?_,
    fun {id report} hget hopen => ?_⟩
  · rw [get?_remember] at hget
    split at hget
    · exact (hself state hget).1
    · exact h.ended hget
  · rw [get?_remember] at hget
    split at hget
    · next heq => exact heq ▸ (hself state hget).2
    · next hne =>
        obtain ⟨id, call, hid, hcall, hheld⟩ := h.holds hget
        exact ⟨id, call, hid, hcall, hothers other state id _ hne hheld⟩
  · rw [get?_remember]
    rcases hfiled id report hget hopen with ⟨hne, hbefore⟩ | ⟨heq, hnext⟩
    · rw [if_neg hne]
      exact h.filed hbefore hopen
    · rw [if_pos heq]
      exact hnext

/-- A move that needs no call keeps the invariant if the streams are sound. -/
theorem perform_silent (h : Settles supply r a) (hsound : r.AllWatched StreamState.Sound)
    {m : Move} (hm : m.Honest (r.streams.get? key)) (hrequest : m.request? key = none) :
    Settles supply (r.remember key m.next m.change) a := by
  cases hm with
  | create => cases hrequest
  | report hbefore hsame =>
      obtain ⟨id, -, hid, -⟩ := h.holds hbefore
      simp [Move.request?, hsame, hid] at hrequest
  | dropped hended =>
      refine h.remember _ h.books (fun _ hnext => by cases hnext) (fun _ _ _ _ _ hheld => hheld)
        fun id report hget hopen => ?_
      -- a record that is not settled is not that of the stream which is dropped
      obtain ⟨state, hstate, -, hnot⟩ := h.not_ended hget hopen
      refine Or.inl ⟨?_, hget⟩
      rintro rfl
      exact hnot (hended state hstate)
  | @kept state after change notice hbefore _ hkept =>
      have hfrozen := hkept (hsound key state hbefore)
      refine h.remember _ h.books (fun state' hnext => ?_) (fun _ _ _ _ _ hheld => hheld)
        fun id report hget hopen => ?_
      · cases hnext
        obtain ⟨id, call, hid, hcall, hheld⟩ := h.holds hbefore
        refine ⟨by rw [hfrozen.ended_eq, hfrozen.runState_eq, h.ended hbefore], id, call, ?_, hcall,
          hheld.frozen hfrozen⟩
        rw [hfrozen.id?_eq, hid]
      · obtain ⟨watched, hstate, hid, -⟩ := h.not_ended hget hopen
        by_cases heq : key = report.key
        · subst heq
          cases hbefore.symm.trans hstate
          exact Or.inr ⟨rfl, after, rfl, hfrozen.id?_eq.trans hid⟩
        · exact Or.inl ⟨heq, hget⟩

/-- A new stream gets a record, if its identifier is new. -/
theorem created (h : Settles supply r a) (hnone : r.streams.get? key = none)
    (hdistinct : (Set.Iio (a.creates.size + 1)).InjOn supply) (e : Event) (change : LimitChange) :
    let id := supply a.creates.size
    let state := StreamState.opened e
    Settles supply (r.remember key (some { state with id? := some id }) change)
      (a.create id (state.report key none)) := by
  intro id state
  have hrunning : state.runState = .running := StreamState.hear_runState ..
  have hended : state.ended = false := StreamState.hear_ended ..
  have hreport : ¬ (state.report key none).runState.isTerminal := by
    simp [StreamState.report, hrunning, RunState.isTerminal]
  refine h.remember change (h.books.create hdistinct hreport) (fun after hnext => ?_)
    (fun _ _ _ _ _ hheld => hheld.of_create hdistinct _) fun other report hget hopen => ?_
  · cases hnext
    refine ⟨by simp [hended, hrunning, RunState.isTerminal], id,
      ⟨.create (state.report key none), .ok ⟨id, state.report key none⟩⟩, rfl, rfl, ?_⟩
    exact .created _ rfl rfl ⟨none, rfl⟩
  · rw [Archive.get?_create] at hget
    split at hget
    · next heq =>
        cases hget
        exact Or.inr ⟨rfl, _, rfl, congrArg some heq⟩
    · -- no older record that is not settled can be that of a stream which was not watched
      refine Or.inl ⟨?_, hget⟩
      obtain ⟨watched, hstate, -⟩ := h.filed hget hopen
      rintro rfl
      cases hnone.symm.trans hstate

/-- A transition of a stream that has not ended is filed in its record. -/
theorem updated (h : Settles supply r a) {after : StreamState} {next : Option StreamState}
    {id : Uuid} (hstate : r.streams.get? key = some state) (hopen : ¬ state.ended)
    (hsame : after.id? = state.id?) (hid : after.id? = some id)
    (hended : after.ended = after.runState.isTerminal)
    (hnext : next = some after ∨ next = none ∧ after.ended) (change : LimitChange)
    (cause? : Option Cause) :
    Settles supply (r.remember key next change) (a.update id (after.report key cause?)) := by
  obtain ⟨id', call, hid', -, hheld⟩ := h.holds hstate
  cases hid'.symm.trans (hsame.symm.trans hid)
  obtain ⟨id', before, hid'', hbefore, hkey, htold⟩ := h.exists_record hstate
  cases hid'.symm.trans hid''
  refine h.remember change (h.books.update hbefore (by rwa [htold]) _) (fun last hlast => ?_)
    (fun _ _ _ _ hne hother => hother.of_update hheld hne _) fun other report hget hreport => ?_
  · rcases hnext with rfl | ⟨rfl, -⟩
    · cases hlast
      exact ⟨hended, id, ⟨.update id (after.report key cause?), .ok ⟨id, after.report key cause?⟩⟩,
        hid, rfl, hheld.updated⟩
    · cases hlast
  · rw [Archive.get?_update] at hget
    split at hget
    · next heq =>
        cases hget
        rcases hnext with rfl | ⟨-, hend⟩
        · exact Or.inr ⟨rfl, after, rfl, hid.trans (congrArg some heq)⟩
        · exact absurd (hended.symm.trans hend) hreport
    · next hne =>
        -- the stream has one record that is not settled, which is the one that was updated
        refine Or.inl ⟨?_, hget⟩
        rintro rfl
        obtain ⟨watched, hwatched, hidentified⟩ := h.filed hget hreport
        cases hstate.symm.trans hwatched
        cases hid'.symm.trans hidentified
        exact hne rfl

/-- A move keeps the invariant if the streams are sound, as long as a new identifier is new. -/
theorem perform (h : (Set.Iio a.creates.size).InjOn supply → Settles supply r a)
    (hsound : r.AllWatched StreamState.Sound) {e : Event} {m : Move}
    (hm : e.Makes key (r.streams.get? key) m) :
    let turn := r.perform (Archive.api supply) key m a
    (Set.Iio turn.api.creates.size).InjOn supply → Settles supply turn.roster turn.api := by
  cases hrequest : m.request? key with
  | none =>
      obtain ⟨notice, hp⟩ := Roster.perform_silent (Archive.api supply) hrequest r a
      rw [hp]
      exact fun hdistinct => (h hdistinct).perform_silent hsound hm.honest hrequest
  | some request =>
      obtain ⟨notices, hp⟩ := perform_call (Archive.api supply) hrequest r a
      rw [hp]
      intro turn hdistinct
      cases hact : m.act with
      | note => simp [Move.request?, hact] at hrequest
      | create state =>
          obtain ⟨-, hnone, rfl, -⟩ := hm.eq_of_create hact
          obtain rfl : Request.create ((StreamState.opened e).report key none) = request := by
            simpa [Move.request?, hact] using hrequest
          rw [show turn.api.creates.size = a.creates.size + 1 from
            Archive.size_creates_create supply _ a] at hdistinct
          -- what is distinct with the new identifier was distinct without it
          have hold := h (hdistinct.mono (Set.Iio_subset_Iio (Nat.le_succ _)))
          have hnext (record : Record) : m.settled (.ok record) =
              some { StreamState.opened e with id? := some record.id } := by
            simp only [Move.settled, hact]
          simp only [turn, Archive.answer_create, hnext]
          exact hold.created hnone hdistinct e m.change
      | report after cause? =>
          obtain ⟨state, hstate, hopen, hsame, hended, hnext⟩ := hm.transition_of_report hact
          obtain ⟨id, hid, rfl⟩ : ∃ id, after.id? = some id ∧
              .update id (after.report key cause?) = request := by
            simpa [Move.request?, hact] using hrequest
          rw [show turn.api.creates.size = a.creates.size from
            Archive.size_creates_update supply id _ a] at hdistinct
          -- the record is there, so that the update is not refused
          obtain ⟨id', report, hid', hget, -⟩ := (h hdistinct).exists_record hstate
          cases hid'.symm.trans (hsame.symm.trans hid)
          have hsettled (answer : Answer) : m.settled answer = m.next := by
            simp only [Move.settled, hact]
          simp only [turn, Archive.answer_update _ hget, hsettled]
          exact (h hdistinct).updated hstate hopen hsame hid hended hnext m.change cause?

end Settles

/-- Tracking events over an archive keeps the invariant, while no identifier is given out twice. -/
theorem settles_of_run (supply : Nat → Uuid) (events : List Event) :
    let turn := trackAll (Archive.api supply) events {} {}
    (Set.Iio turn.api.creates.size).InjOn supply → Settles supply turn.roster turn.api :=
  (trackAll_induction_of_sound (Archive.api supply)
    (P := fun r a _ => (Set.Iio a.creates.size).InjOn supply → Settles supply r a)
    (fun _ _ _ _ h => h) (fun _ _ _ _ _ _ hsound hm h => Settles.perform h hsound hm) events []
    (allWatched_empty _) fun _ => .start).2

end Roster

/-! ## Archives of which every record is settled -/

/-- With no stream watched, every record got one update that reports an end, and there are as many
records as requests for one. -/
theorem Roster.Settles.settled {supply : Nat → Uuid} {r : Roster} {a : Archive}
    (h : r.Settles supply a) (hempty : ∀ key, r.streams.get? key = none) :
    (∀ record ∈ a.all, record.report.runState.isTerminal ∧ (a.endings record.id).length = 1) ∧
      a.all.length = a.creates.size := by
  constructor
  · intro record hrecord
    obtain ⟨⟨id, report⟩, hentry, rfl⟩ := List.mem_map.mp hrecord
    have hget := Table.mem_entries.mp hentry
    have hend : report.runState.isTerminal := by
      by_contra hopen
      obtain ⟨state, hstate, -⟩ := h.filed hget hopen
      cases (hempty report.key).symm.trans hstate
    exact ⟨hend, (h.books.tally hget).trans (if_pos hend)⟩
  · rw [Archive.all, List.length_map]
    exact h.books.size

namespace Archive

/-- Every record is counted once, under its run state. -/
theorem sum_countRunStates (records : List Record) :
    ((countRunStates records).map (·.2)).sum = records.length := by
  rw [countRunStates, sum_filter_pos, List.map_map]
  induction records with
  | nil => rfl
  | cons record rest ih =>
      rw [List.length_cons, ← ih]
      simp only [RunState.all, List.map_cons, List.map_nil, List.sum_cons, List.sum_nil,
        Function.comp_apply, List.filter_cons]
      cases record.report.runState
      all_goals
        simp only [reduceCtorEq, decide_true, decide_false, if_true, if_false, List.length_cons,
          Bool.false_eq_true]
        omega

end Archive

end StreamWatch
