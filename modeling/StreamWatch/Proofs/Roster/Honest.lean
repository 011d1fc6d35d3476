import StreamWatch.Proofs.Roster.Sound

/-!
# Moves that keep nothing back

A move is `Honest` if it announces a new stream, reports every transition of a watched one, and
drops a stream silently only after its end was reported. Every move that an event makes is honest:
`Event.Makes.honest`.
-/

namespace StreamWatch

/-- `m.Honest state?`: what the move `m` changes of a stream in `state?`, apart from what its sides
said, it reports. -/
inductive Move.Honest (state? : Option StreamState) : Move → Prop
  /-- A new stream is announced. -/
  | create {state : StreamState} {change : LimitChange} : state? = none → state.id? = none →
      Honest state? ⟨some state, change, .create state⟩
  /-- A transition is reported. -/
  | report {state after : StreamState} {next : Option StreamState} {change : LimitChange}
      {cause? : Option Cause} : state? = some state → after.id? = state.id? →
      after.jobKind = state.jobKind → (next = some after ∨ next = none) →
      Honest state? ⟨next, change, .report after cause?⟩
  /-- Nothing is lost with a stream whose end was reported. -/
  | dropped {change : LimitChange} {notice : Notice} :
      (∀ state, state? = some state → state.ended) → Honest state? ⟨none, change, .note notice⟩
  /-- The stream stays the same record, and at most a side of a sound one is heard. -/
  | kept {state after : StreamState} {change : LimitChange} {notice : Notice} :
      state? = some state → after.id? = state.id? → (state.Sound → state.Frozen after) →
      Honest state? ⟨some after, change, .note notice⟩

/-- Every way of taking a report is honest. -/
theorem StreamState.Takes.honest {s : StreamState} {key : StreamKey} {e : Event} {m : Move}
    (h : s.Takes key e m) : m.Honest (some s) := by
  obtain ⟨next, hnext, hid, hkind⟩ := h.exists_next
  cases h with
  | again => exact .kept rfl rfl fun _ => .refl s
  | late | half =>
      cases hnext
      exact .kept rfl hid fun _ => .hear s e.origin e.side
  | repeated hstatus _ hrepeats _ hafter =>
      cases hnext
      refine .kept rfl hid fun hsound => ?_
      rw [hafter, hsound.resumed_of_repeats hstatus hrepeats]
      exact .refl s
  | resumed | completed | failed =>
      cases hnext
      exact .report rfl hid hkind (Or.inl rfl)

/-- Every move that an event makes is honest. -/
theorem Event.Makes.honest {e : Event} {key : StreamKey} {state? : Option StreamState} {m : Move}
    (h : e.Makes key state? m) : m.Honest state? := by
  cases h.does with
  | opens => exact .create rfl (by rw [StreamState.opened, StreamState.hear_id?])
  | misses => exact .dropped fun _ hstate => by cases hstate
  | reports _ htakes => exact htakes.honest
  | drops _ hended => exact .dropped fun _ hstate => Option.some.inj hstate ▸ hended
  | ends => exact .report rfl rfl rfl (Or.inr rfl)

/-- A transition is reported while the end has not been reported, and it is the end exactly if it
says so. The stream stays watched or has ended. -/
theorem Event.Makes.transition_of_report {e : Event} {key : StreamKey} {state? : Option StreamState}
    {m : Move} (h : e.Makes key state? m) {after : StreamState} {cause? : Option Cause}
    (hact : m.act = .report after cause?) :
    ∃ state, state? = some state ∧ ¬ state.ended ∧ after.id? = state.id? ∧
      after.ended = after.runState.isTerminal ∧
      (m.next = some after ∨ m.next = none ∧ after.ended) := by
  cases h.does with
  | opens => cases hact
  | misses => cases hact
  | drops => cases hact
  | @ends state _ _ _ hended hend =>
      cases hact
      exact ⟨state, rfl, hended, rfl, hend.symm, Or.inr ⟨rfl, rfl⟩⟩
  | @reports state _ _ htakes =>
      obtain ⟨next, hnext, hid, -⟩ := htakes.exists_next
      cases htakes with
      | again | late | half | repeated => cases hact
      | resumed _ hended _ _ heq =>
          cases hact
          cases hnext
          refine ⟨state, rfl, hended, hid, ?_, Or.inl rfl⟩
          simp only [heq, StreamState.resumed, StreamState.hear_ended, hended]
          cases e.message.limit? <;> rfl
      | completed _ hended _ heq | failed _ hended heq =>
          cases hact
          cases hnext
          refine ⟨state, rfl, hended, hid, ?_, Or.inl rfl⟩
          rw [heq]
          rfl

end StreamWatch
