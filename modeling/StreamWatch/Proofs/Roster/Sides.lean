import Mathlib.Data.List.Induction
import StreamWatch.Proofs.Roster.Watched

/-!
# What the sides of a stream hold

A side holds the first terminal status that it reported, or else the last status. It does not matter
how the reports of the two sides are mixed, and internal reports do not matter at all:
`hearAll_new`.
-/

namespace StreamWatch

/-! ## One side -/

/-- What a side holds after everything it said: the first terminal status, or else the last
status. -/
def SideStatus.lasting (said : List SideStatus) : Option SideStatus :=
  said.find? isTerminal <|> said.getLast?

/-- A side goes on from what it holds as if it remembered everything it said. -/
theorem SideStatus.lasting_concat (said : List SideStatus) (status : SideStatus) :
    lasting (said ++ [status]) = status.hear (lasting said) := by
  unfold lasting
  rw [List.find?_append, List.getLast?_concat]
  cases hfirst : said.find? isTerminal with
  | some first => exact (hear_of_isTerminal (List.find?_some hfirst) status).symm
  | none =>
      -- nothing so far was terminal, what was said last included
      have hlast : status.hear said.getLast? = some status := by
        cases hlast : said.getLast? with
        | none => rfl
        | some last =>
            have hnot := List.find?_eq_none.mp hfirst last (List.mem_of_getLast? hlast)
            exact if_neg hnot
      by_cases hstatus : status.isTerminal
      · simp [hstatus, hlast]
      · simp [hstatus, hlast]

/-! ## Both sides -/

/-- What an origin said, in order. -/
def saidBy (origin : Origin) (reports : List (Origin × SideStatus)) : List SideStatus :=
  (reports.filter (·.1 = origin)).map (·.2)

/-- A report of a side is the last one of that side. -/
theorem saidBy_concat_self (origin : Origin) (reports : List (Origin × SideStatus))
    (status : SideStatus) :
    saidBy origin (reports ++ [(origin, status)]) = saidBy origin reports ++ [status] := by
  simp [saidBy]

/-- A report of one side says nothing of another. -/
theorem saidBy_concat_of_ne {origin other : Origin} (h : origin ≠ other)
    (reports : List (Origin × SideStatus)) (status : SideStatus) :
    saidBy other (reports ++ [(origin, status)]) = saidBy other reports := by
  simp [saidBy, h]

namespace StreamState

/-- The state after reports, one after the other, and of each whether it changed the state. -/
def hearAll (s : StreamState) : List (Origin × SideStatus) → StreamState × List Bool
  | [] => (s, [])
  | (origin, status) :: rest =>
    let last := (s.hear origin status).hearAll rest
    (last.1, s.changes origin status :: last.2)

/-- The last report is heard last. -/
theorem hearAll_concat (s : StreamState) (reports : List (Origin × SideStatus)) (origin : Origin)
    (status : SideStatus) :
    (s.hearAll (reports ++ [(origin, status)])).1 = (s.hearAll reports).1.hear origin status := by
  induction reports generalizing s with
  | nil => rfl
  | cons report rest ih => exact ih (s.hear report.1 report.2)

/-- The state after reports differs from the one before in what the sides hold, and nowhere else. -/
theorem hearAll_new_fst (jobKind : JobKind) (time : Int64)
    (reports : List (Origin × SideStatus)) :
    (hearAll { jobKind, changedAt := time } reports).1 =
      { jobKind, changedAt := time, source := SideStatus.lasting (saidBy .source reports),
        destination := SideStatus.lasting (saidBy .destination reports) } := by
  induction reports using List.reverseRecOn with
  | nil => rfl
  | append_singleton reports report ih =>
      obtain ⟨origin, status⟩ := report
      rw [hearAll_concat, ih]
      cases origin with
      | source =>
          rw [saidBy_concat_self, SideStatus.lasting_concat, saidBy_concat_of_ne (by decide)]
          rfl
      | destination =>
          rw [saidBy_concat_self, SideStatus.lasting_concat, saidBy_concat_of_ne (by decide)]
          rfl
      | internal =>
          rw [saidBy_concat_of_ne (by decide), saidBy_concat_of_ne (by decide)]
          rfl

/-- Each report is answered with whether the state after it differs from the one before. -/
theorem getElem?_hearAll_snd (s : StreamState) (reports : List (Origin × SideStatus)) (n : Nat) :
    (s.hearAll reports).2[n]? = reports[n]?.map fun _ =>
      decide ((s.hearAll (reports.take (n + 1))).1 ≠ (s.hearAll (reports.take n)).1) := by
  induction reports generalizing s n with
  | nil => rfl
  | cons report rest ih =>
      obtain ⟨origin, status⟩ := report
      cases n with
      | zero =>
          refine congrArg some ?_
          rw [Bool.eq_iff_iff, decide_eq_true_eq]
          exact s.changes_iff origin status
      | succ n => exact ih (s.hear origin status) n

/-- After any reports about a new stream each side holds the first terminal status that it reported,
or else the last status, or nothing if it reported none; nothing else about the stream has changed.
Each report is answered with whether it changed the state. Whether the stream is complete or
terminated, and its status as a whole, follow from what either side said, however that was mixed. -/
theorem hearAll_new (jobKind : JobKind) (time : Int64) (reports : List (Origin × SideStatus)) :
    let new : StreamState := { jobKind, changedAt := time }
    let last := new.hearAll reports
    let source := SideStatus.lasting (saidBy .source reports)
    let destination := SideStatus.lasting (saidBy .destination reports)
    last.1 = { new with source, destination } ∧
      (∀ n, last.2[n]? = reports[n]?.map fun _ =>
        decide ((new.hearAll (reports.take (n + 1))).1 ≠ (new.hearAll (reports.take n)).1)) ∧
      (last.1.isComplete ↔ source = some .complete ∧ destination = some .complete) ∧
      (last.1.isTerminated ↔ source.any SideStatus.isTerminal ∧
        destination.any SideStatus.isTerminal) ∧
      last.1.status? = (destination <|> source).map SideStatus.status := by
  intro new last source destination
  have hlast : last.1 = { new with source, destination } := hearAll_new_fst jobKind time reports
  refine ⟨hlast, new.getElem?_hearAll_snd reports, ?_, ?_, ?_⟩
  · rw [hlast]
    simp [isComplete]
  · rw [hlast]
    simp [isTerminated]
  · rw [hlast]
    rfl

/-- A source that failed, was heard to complete and to run, and a destination that runs. -/
example :
    (hearAll { jobKind := .sync, changedAt := 0 }
      [(.source, .started), (.destination, .running), (.source, .incomplete .failed),
        (.internal, .complete), (.destination, .running), (.source, .complete)]).2 =
      [true, true, true, false, false, false] := by
  decide

end StreamState

end StreamWatch
