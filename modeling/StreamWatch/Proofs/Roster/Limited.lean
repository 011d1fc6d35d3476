import StreamWatch.Proofs.Basic
import StreamWatch.Proofs.Roster.Unnamed

/-!
# The rate-limited streams

A roster lists the rate-limited streams beside the states of all watched ones. Every move changes
the two together, so that a stream is listed exactly while it is watched and its run state says that
it is rate limited: `mem_limited_iff`. Asked for the streams, the roster tells their descriptors,
each as long as the stream is limited in some run: `limited_exact`.
-/

namespace StreamWatch

/-! ## The list -/

/-- Whether a stream is listed after a change, where `listed` says whether it was before. -/
def LimitChange.apply (listed : Prop) : LimitChange → Prop
  | keep => listed
  | enter => True
  | leave => False

namespace Roster

variable {key other : StreamKey}

/-- Whether a stream is limited after a change is what the change makes of it. -/
theorem mem_changeLimit_self (limited : List StreamKey) (change : LimitChange) :
    key ∈ changeLimit key limited change ↔ change.apply (key ∈ limited) := by
  cases change with
  | keep => exact Iff.rfl
  | enter =>
      by_cases hmem : key ∈ limited <;> simp [changeLimit, LimitChange.apply, hmem]
  | leave => simp [changeLimit, LimitChange.apply]

/-- A change for one stream leaves the others limited or not. -/
theorem mem_changeLimit_of_ne (hne : key ≠ other) (limited : List StreamKey)
    (change : LimitChange) : other ∈ changeLimit key limited change ↔ other ∈ limited := by
  cases change with
  | keep => exact Iff.rfl
  | enter => by_cases hmem : key ∈ limited <;> simp [changeLimit, hmem, Ne.symm hne]
  | leave => simp [changeLimit, Ne.symm hne]

/-- No stream is listed twice. -/
theorem nodup_changeLimit {limited : List StreamKey} (h : limited.Nodup) (change : LimitChange) :
    (changeLimit key limited change).Nodup := by
  cases change with
  | keep => exact h
  | enter =>
      by_cases hmem : key ∈ limited
      · rwa [changeLimit, if_pos hmem]
      · rw [changeLimit, if_neg hmem]
        exact h.append (List.nodup_singleton key) (List.disjoint_singleton.mpr hmem)
  | leave => exact h.filter _

end Roster

/-! ## One move -/

/-- The run state does not depend on the identifier. -/
theorem StreamState.isRateLimited_unnamed {state? state?' : Option StreamState}
    (h : state?.map unnamed = state?'.map unnamed) :
    state?.any isRateLimited = state?'.any isRateLimited := by
  have hany (x : Option StreamState) : x.any isRateLimited = (x.map unnamed).any isRateLimited := by
    cases x <;> rfl
  rw [hany, h, ← hany]

/-- A stream that runs on is rate limited exactly if the report says so. -/
theorem StreamState.isRateLimited_resumed (s : StreamState) (limit? : Option RateLimit)
    (time : Int64) : (s.resumed limit? time).isRateLimited = limit?.isSome := by
  cases limit? <;> rfl

/-- A report changes the list as it changes the run state. -/
theorem StreamState.Takes.isRateLimited_next {s : StreamState} {key : StreamKey} {e : Event}
    {m : Move} (h : s.Takes key e m) :
    m.change.apply s.isRateLimited ↔ m.next.any StreamState.isRateLimited := by
  have happly : LimitChange.apply s.isRateLimited
      (if e.message.limit?.isSome then .enter else .leave) ↔ e.message.limit?.isSome := by
    cases e.message.limit? <;> simp [LimitChange.apply]
  cases h with
  | again => exact Iff.rfl
  | late | half => simp [LimitChange.apply, StreamState.isRateLimited]
  | repeated _ _ _ hchange hnext | resumed _ _ _ hchange hnext =>
      rw [hchange, happly, Option.any_some, hnext, StreamState.isRateLimited_resumed]
  | completed _ _ _ hnext | failed _ _ hnext =>
      simp [hnext, LimitChange.apply, StreamState.isRateLimited, StreamState.closed]

/-- Every move changes the list as it changes the run state. -/
theorem Event.Makes.isRateLimited_next {e : Event} {key : StreamKey} {state? : Option StreamState}
    {m : Move} (h : e.Makes key state? m) :
    m.change.apply (state?.any StreamState.isRateLimited) ↔
      m.next.any StreamState.isRateLimited := by
  cases h.does with
  | opens => simp [LimitChange.apply, StreamState.isRateLimited, StreamState.opened]
  | @misses change _ hchange =>
      cases change with
      | keep => exact Iff.rfl
      | enter => exact absurd rfl hchange
      | leave => simp [LimitChange.apply]
  | reports _ htakes => exact htakes.isRateLimited_next
  | drops | ends => simp [LimitChange.apply]

/-! ## Runs -/

namespace Roster

variable {σ : Type} (api : StatusApi σ)

/-- A stream is listed exactly if it is watched and rate limited. -/
def ListsLimited (r : Roster) : Prop :=
  ∀ key, key ∈ r.limited ↔ (r.streams.get? key).any StreamState.isRateLimited

/-- Performing a move keeps the list right. -/
theorem ListsLimited.perform {r : Roster} (h : r.ListsLimited) {e : Event} {key : StreamKey}
    {m : Move} (hm : e.Makes key (r.streams.get? key) m) (s : σ) :
    (r.perform api key m s).roster.ListsLimited := by
  obtain ⟨next, hnext, hsame⟩ := perform_remembers api hm s
  rw [hnext]
  intro other
  rw [get?_remember]
  by_cases hne : key = other
  · subst hne
    rw [if_pos rfl, StreamState.isRateLimited_unnamed hsame, ← hm.isRateLimited_next, ← h key]
    exact mem_changeLimit_self r.limited m.change
  · rw [if_neg hne, ← h other]
    exact mem_changeLimit_of_ne hne r.limited m.change

/-- The list is right after every run. -/
theorem mem_limited_iff (events : List Event) (s : σ) (key : StreamKey) :
    key ∈ (trackAll api events {} s).roster.limited ↔
      ((trackAll api events {} s).roster.streams.get? key).any StreamState.isRateLimited := by
  have hstart : ListsLimited {} := fun key => by simp
  exact @trackAll_induction σ api (fun r _ _ => r.ListsLimited) (fun _ _ _ _ h => h)
    (fun _ _ _ s _ _ hm h => h.perform api hm s) events {} s [] hstart key

/-- A stream that is not watched is not listed, nor is one whose end was reported. -/
theorem not_mem_limited {key : StreamKey} (events : List Event) (s : σ)
    (hover : ∀ state, (trackAll api events {} s).roster.streams.get? key = some state →
      state.ended) : key ∉ (trackAll api events {} s).roster.limited := by
  rw [mem_limited_iff, Option.any_eq_true]
  rintro ⟨state, hstate, hlimited⟩
  have hend := (sound_of_watched api events s hstate).ended_iff.mp (hover state hstate)
  rw [of_decide_eq_true hlimited] at hend
  cases hend

/-- A stream is listed once. -/
theorem nodup_limited (events : List Event) (s : σ) :
    (trackAll api events {} s).roster.limited.Nodup := by
  refine @trackAll_induction σ api (fun r _ _ => r.limited.Nodup) (fun _ _ _ _ h => h) ?_ events
    {} s [] List.nodup_nil
  intro event key r s effects m hm h
  obtain ⟨next, hnext, -⟩ := perform_remembers api hm s
  simp only [hnext]
  exact nodup_changeLimit h m.change

/-! ## Asking for the streams -/

/-- A descriptor is told if it is that of a listed stream. -/
theorem mem_limitedDescriptors {r : Roster} {d : Descriptor} :
    d ∈ r.limitedDescriptors ↔ ∃ key ∈ r.limited, key.descriptor = d := by
  rw [limitedDescriptors, List.mem_eraseDups, List.mem_map]

/-- The streams that are listed are the watched ones whose run state says that they are rate
limited, and the descriptors that are told are theirs, each once. A descriptor is told as long as
the stream is limited in any of its runs. No stream is listed that is not watched or has ended, and
no descriptor is told of a stream of which that holds in all its runs. -/
theorem limited_exact (events : List Event) (s : σ) :
    let roster := (trackAll api events {} s).roster
    let Limited key := ∃ state, roster.streams.get? key = some state ∧ state.runState = .rateLimited
    let Over key := ∀ state, roster.streams.get? key = some state → state.ended
    (∀ key, key ∈ roster.limited ↔ Limited key) ∧ roster.limited.Nodup ∧
    (∀ d, d ∈ roster.limitedDescriptors ↔ ∃ key, key.descriptor = d ∧ Limited key) ∧
    roster.limitedDescriptors.Nodup ∧
    (∀ key, Over key → key ∉ roster.limited) ∧
    ∀ d, (∀ key, key.descriptor = d → Over key) → d ∉ roster.limitedDescriptors := by
  intro roster Limited Over
  have hlisted (key : StreamKey) : key ∈ roster.limited ↔ Limited key := by
    rw [mem_limited_iff, Option.any_eq_true]
    simp only [StreamState.isRateLimited, decide_eq_true_eq]
    rfl
  have hover (key : StreamKey) (h : Over key) : key ∉ roster.limited :=
    not_mem_limited api events s h
  refine ⟨hlisted, nodup_limited api events s, fun d => ?_, nodup_eraseDups _, hover,
    fun d h hmem => ?_⟩
  · rw [mem_limitedDescriptors]
    simp only [hlisted, and_comm]
  · obtain ⟨key, hkey, hd⟩ := mem_limitedDescriptors.mp hmem
    exact hover key (h key hd) hkey

/-- A stream that two attempts are limited on is told of until both have moved on: one runs again,
the other one fails. -/
theorem limited_exact_of_two_attempts :
    let attempt (n : UInt32) (event : Event) : Event :=
      { event with context := { event.context with attempt := n } }
    let limited : Event :=
      { Sample.event .source .running with
        message.reasons := [{ kind := .rateLimited, limit := some { quotaReset := some 5 } }] }
    let both := [attempt 0 (Sample.event .source .started), attempt 0 limited,
      attempt 1 (Sample.event .source .started), attempt 1 limited]
    let one := both ++ [attempt 0 (Sample.event .source .running)]
    let roster (events : List Event) := (trackAll Sample.granting events {} ()).roster
    Sample.orders.descriptor ∈ (roster both).limitedDescriptors ∧
      Sample.orders.descriptor ∈ (roster one).limitedDescriptors ∧
      Sample.orders.descriptor ∉
        (roster (one ++ [attempt 1 (Sample.event .source .incomplete)])).limitedDescriptors := by
  intro attempt limited both one roster
  let second : StreamKey := { Sample.orders with run := { Sample.orders.run with attempt := 1 } }
  have htold {events : List Event} (h : second ∈ (roster events).limited) :
      Sample.orders.descriptor ∈ (roster events).limitedDescriptors := by
    obtain ⟨hlisted, -, hdescriptors, -⟩ := limited_exact Sample.granting events ()
    exact (hdescriptors _).mpr ⟨second, rfl, (hlisted second).mp h⟩
  exact ⟨htold (by decide), htold (by decide), by decide⟩

end Roster

end StreamWatch
