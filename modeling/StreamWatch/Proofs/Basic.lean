import Mathlib.Algebra.GroupWithZero.Nat
import Mathlib.Data.List.Nodup

/-!
# Lists and results

Facts about lists and about results that may be faults, for the proofs about the rest of the
library. They are not about streams.
-/

namespace StreamWatch

/-! ## Lists -/

section Lists

variable {α : Type}

/-- Without its repetitions a list has none. -/
theorem nodup_eraseDups [BEq α] [LawfulBEq α] : ∀ xs : List α, xs.eraseDups.Nodup
  | [] => List.nodup_nil
  | x :: xs => by
      rw [List.eraseDups_cons, List.nodup_cons, List.mem_eraseDups]
      exact ⟨by simp, nodup_eraseDups (xs.filter fun y => !y == x)⟩
termination_by xs => xs.length
decreasing_by exact Nat.lt_succ_of_le (List.length_filter_le _ xs)

/-- One more element is a repetition or comes last. -/
theorem eraseDups_concat [DecidableEq α] (xs : List α) (x : α) :
    (xs ++ [x]).eraseDups = if x ∈ xs then xs.eraseDups else xs.eraseDups ++ [x] := by
  rw [List.eraseDups_append, List.removeAll, List.filter_singleton]
  by_cases h : x ∈ xs <;> simp [h, List.eraseDups_cons]

/-- What stands behind the elements of a first list is an element of the second. -/
theorem mem_of_append_eq {first second earlier later : List α} {x : α}
    (h : first ++ second = earlier ++ x :: later) (hlength : first.length ≤ earlier.length) :
    x ∈ second := by
  rcases List.append_eq_append_iff.mp h with ⟨between, -, hsecond⟩ | ⟨between, rfl, hlast⟩
  · rw [hsecond]
    simp
  · have hnil : between = [] := by
      rw [List.length_append] at hlength
      exact List.length_eq_zero_iff.mp (by omega)
    rw [hnil, List.nil_append] at hlast
    rw [← hlast]
    exact List.mem_cons_self

/-- Leaving out those that are zero makes no difference to a sum. -/
theorem sum_filter_pos (counts : List (α × Nat)) :
    ((counts.filter fun p => 0 < p.2).map (·.2)).sum = (counts.map (·.2)).sum := by
  induction counts with
  | nil => rfl
  | cons first rest ih =>
      by_cases h : 0 < first.2
      · rw [List.filter_cons_of_pos (by simpa using h), List.map_cons, List.sum_cons, ih,
          List.map_cons, List.sum_cons]
      · rw [List.filter_cons_of_neg (by simpa using h), ih, List.map_cons, List.sum_cons,
          Nat.eq_zero_of_not_pos h, Nat.zero_add]

end Lists

/-! ## Results that may be faults -/

section Results

variable {ε ε' α β : Type}

/-- What is done in two steps succeeds if both do. -/
theorem bind_eq_ok_iff {x : Except ε α} {f : α → Except ε β} {b : β} :
    x >>= f = .ok b ↔ ∃ a, x = .ok a ∧ f a = .ok b := by
  cases x with
  | error fault => exact ⟨nofun, nofun⟩
  | ok a => exact ⟨fun h => ⟨a, rfl, h⟩, fun ⟨_, ha, h⟩ => by cases ha; exact h⟩

/-- A result that is put in other words succeeds if it did. -/
theorem map_eq_ok_iff {x : Except ε α} {f : α → β} {b : β} :
    x.map f = .ok b ↔ ∃ a, x = .ok a ∧ f a = b := by
  cases x with
  | error fault => exact ⟨nofun, nofun⟩
  | ok a => exact ⟨fun h => ⟨a, rfl, by cases h; rfl⟩, fun ⟨_, ha, h⟩ => by cases ha; cases h; rfl⟩

/-- What is said of a fault otherwise succeeds as before. -/
theorem mapError_eq_ok_iff {x : Except ε α} {f : ε → ε'} {a : α} :
    x.mapError f = .ok a ↔ x = .ok a := by
  cases x with
  | error fault => exact ⟨nofun, nofun⟩
  | ok b => exact ⟨fun h => by cases h; rfl, fun h => by cases h; rfl⟩

end Results

end StreamWatch
