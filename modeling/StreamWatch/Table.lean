/-!
# Tables

A `Table` gives every key at most one value and keeps the keys in the order in which they came in.
What it holds is seen through `get?`; each operation comes with the equation that says what it does
to that view.
-/

namespace StreamWatch

/-- Keys with one value each, in order of arrival. -/
@[ext]
structure Table (κ υ : Type) where
  entries : List (κ × υ)
  nodup : (entries.map (·.1)).Nodup

namespace Table

variable {κ υ : Type}

/-- The table without keys. -/
def empty : Table κ υ := ⟨[], List.nodup_nil⟩

instance : Inhabited (Table κ υ) := ⟨empty⟩

/-- The keys, in order of arrival. -/
def keys (t : Table κ υ) : List κ := t.entries.map (·.1)

/-- The values, in the order of their keys. -/
def values (t : Table κ υ) : List υ := t.entries.map (·.2)

/-- How many keys there are. -/
def size (t : Table κ υ) : Nat := t.entries.length

variable [DecidableEq κ]

/-- The value of a key in a list of entries. -/
def find? (k : κ) : List (κ × υ) → Option υ
  | [] => none
  | (key, v) :: rest => if key = k then some v else find? k rest

/-- The value of a key. -/
def get? (t : Table κ υ) (k : κ) : Option υ := find? k t.entries

/-- Gives a key a value in a list of entries: in its place if it is there, else at the end. -/
def putIn (k : κ) (v : υ) : List (κ × υ) → List (κ × υ)
  | [] => [(k, v)]
  | (key, w) :: rest => if key = k then (k, v) :: rest else (key, w) :: putIn k v rest

/-- A list of entries without a key. -/
def eraseFrom (k : κ) (entries : List (κ × υ)) : List (κ × υ) :=
  entries.filter fun e => e.1 ≠ k

/-! ## Lists of entries -/

/-- A key is there if it was put in or was there before. -/
theorem mem_keys_putIn (k : κ) (v : υ) (entries : List (κ × υ)) (j : κ) :
    j ∈ (putIn k v entries).map (·.1) ↔ j = k ∨ j ∈ entries.map (·.1) := by
  induction entries with
  | nil => simp [putIn]
  | cons e rest ih =>
    by_cases h : e.1 = k
    · simp [putIn, h]
    · simp only [putIn, h, if_false, List.map_cons, List.mem_cons, ih]
      grind

/-- A key that is new comes last, and any other keeps its place. -/
theorem keys_putIn (k : κ) (v : υ) (entries : List (κ × υ)) :
    (putIn k v entries).map (·.1) =
      if k ∈ entries.map (·.1) then entries.map (·.1) else entries.map (·.1) ++ [k] := by
  induction entries with
  | nil => simp [putIn]
  | cons e rest ih =>
    by_cases hk : e.1 = k
    · simp [putIn, hk]
    · simp only [putIn, hk, if_false, List.map_cons, ih, List.mem_cons, Ne.symm hk, false_or]
      split <;> rfl

theorem nodup_keys_putIn (k : κ) (v : υ) (entries : List (κ × υ))
    (h : (entries.map (·.1)).Nodup) : ((putIn k v entries).map (·.1)).Nodup := by
  induction entries with
  | nil => simp [putIn]
  | cons e rest ih =>
    rw [List.map_cons, List.nodup_cons] at h
    by_cases hk : e.1 = k
    · simpa [putIn, hk] using ⟨by simpa [hk] using h.1, h.2⟩
    · simp only [putIn, hk, if_false, List.map_cons, List.nodup_cons]
      refine ⟨?_, ih h.2⟩
      rw [mem_keys_putIn]
      exact fun hor => hor.elim hk h.1

theorem nodup_keys_eraseFrom (k : κ) (entries : List (κ × υ))
    (h : (entries.map (·.1)).Nodup) : ((eraseFrom k entries).map (·.1)).Nodup :=
  h.sublist ((List.filter_sublist).map _)

/-- What was put in is found, and everything else as before. -/
theorem find?_putIn (k j : κ) (v : υ) (entries : List (κ × υ)) :
    find? j (putIn k v entries) = if k = j then some v else find? j entries := by
  induction entries with
  | nil => simp [putIn, find?]
  | cons e rest ih =>
    by_cases hk : e.1 = k
    · subst hk
      by_cases hj : e.1 = j <;> simp [putIn, find?, hj]
    · simp only [putIn, hk, if_false, find?, ih]
      by_cases hj : e.1 = j
      · subst hj
        simp [Ne.symm hk]
      · simp [hj]

/-- What was taken out is not found, and everything else as before. -/
theorem find?_eraseFrom (k j : κ) (entries : List (κ × υ)) :
    find? j (eraseFrom k entries) = if k = j then none else find? j entries := by
  induction entries with
  | nil => simp [eraseFrom, find?]
  | cons e rest ih =>
    unfold eraseFrom at ih ⊢
    by_cases hk : e.1 = k
    · subst hk
      by_cases hj : e.1 = j <;> simp_all [find?]
    · by_cases hj : e.1 = j
      · subst hj
        simp [find?, hk, Ne.symm hk]
      · simp_all [find?]

/-- A key is there if and only if a value is found for it. -/
theorem mem_keys_iff_find? (k : κ) (entries : List (κ × υ)) :
    k ∈ entries.map (·.1) ↔ find? k entries ≠ none := by
  induction entries with
  | nil => simp [find?]
  | cons e rest ih =>
    by_cases hk : e.1 = k
    · simp [find?, hk]
    · simp [find?, hk, Ne.symm hk, ← ih]

/-- What has its value stays as it is. -/
theorem putIn_of_find? {k : κ} {v : υ} {entries : List (κ × υ)} (h : find? k entries = some v) :
    putIn k v entries = entries := by
  induction entries with
  | nil => cases h
  | cons e rest ih =>
    unfold find? at h
    unfold putIn
    split at h
    · next hk =>
      cases h
      rw [if_pos hk, ← hk]
    · next hk => rw [if_neg hk, ih h]

/-- What is not there need not be taken out. -/
theorem eraseFrom_of_find? {k : κ} {entries : List (κ × υ)} (h : find? k entries = none) :
    eraseFrom k entries = entries := by
  refine List.filter_eq_self.mpr fun e he => decide_eq_true fun hk => ?_
  exact (mem_keys_iff_find? k entries).mp (List.mem_map.mpr ⟨e, he, hk⟩) h

/-- With keys that differ, an entry is there if and only if its value is found. -/
theorem mem_iff_find? {k : κ} {v : υ} {entries : List (κ × υ)} (h : (entries.map (·.1)).Nodup) :
    (k, v) ∈ entries ↔ find? k entries = some v := by
  induction entries with
  | nil => simp [find?]
  | cons e rest ih =>
    rw [List.map_cons, List.nodup_cons] at h
    by_cases hk : e.1 = k
    · subst hk
      have hnot : (e.1, v) ∉ rest := fun hmem => h.1 (List.mem_map.mpr ⟨_, hmem, rfl⟩)
      rw [find?, if_pos rfl, List.mem_cons, or_iff_left hnot, Option.some.injEq]
      exact ⟨fun heq => heq ▸ rfl, fun heq => heq ▸ rfl⟩
    · rw [find?, if_neg hk, ← ih h.2, List.mem_cons, or_iff_right]
      rintro rfl
      exact hk rfl

/-! ## Operations -/

/-- Gives a key a value: in its place if it is there, else at the end. -/
def put (t : Table κ υ) (k : κ) (v : υ) : Table κ υ :=
  ⟨putIn k v t.entries, nodup_keys_putIn k v t.entries t.nodup⟩

/-- The table without a key. -/
def erase (t : Table κ υ) (k : κ) : Table κ υ :=
  ⟨eraseFrom k t.entries, nodup_keys_eraseFrom k t.entries t.nodup⟩

/-- Gives a key a value, or takes it out. -/
def set (t : Table κ υ) (k : κ) : Option υ → Table κ υ
  | some v => t.put k v
  | none => t.erase k

/-! ## What the operations do to the view -/

@[simp] theorem get?_empty (k : κ) : (empty : Table κ υ).get? k = none := rfl

/-- What was put in is found, and everything else as before. -/
theorem get?_put (t : Table κ υ) (k j : κ) (v : υ) :
    (t.put k v).get? j = if k = j then some v else t.get? j :=
  find?_putIn k j v t.entries

/-- What was taken out is not found, and everything else as before. -/
theorem get?_erase (t : Table κ υ) (k j : κ) :
    (t.erase k).get? j = if k = j then none else t.get? j :=
  find?_eraseFrom k j t.entries

/-- A key has the value that it was given, if any, and all others have theirs. -/
theorem get?_set (t : Table κ υ) (k j : κ) (v : Option υ) :
    (t.set k v).get? j = if k = j then v else t.get? j := by
  cases v with
  | none => exact get?_erase t k j
  | some v => exact get?_put t k j v

/-- Giving a key what it has changes nothing. -/
theorem set_get? (t : Table κ υ) (k : κ) : t.set k (t.get? k) = t := by
  cases h : t.get? k with
  | none => exact Table.ext (eraseFrom_of_find? h)
  | some v => exact Table.ext (putIn_of_find? h)

/-- Keys are taken out in any order. -/
theorem erase_comm (t : Table κ υ) (k j : κ) : (t.erase k).erase j = (t.erase j).erase k := by
  simp only [erase, eraseFrom, List.filter_filter, Bool.and_comm]

theorem mem_keys {t : Table κ υ} {k : κ} : k ∈ t.keys ↔ t.get? k ≠ none :=
  mem_keys_iff_find? k t.entries

theorem mem_entries {t : Table κ υ} {k : κ} {v : υ} : (k, v) ∈ t.entries ↔ t.get? k = some v :=
  mem_iff_find? t.nodup

/-! ## What the operations do to the keys -/

/-- A key that is new comes last, and any other keeps its place. -/
theorem keys_put (t : Table κ υ) (k : κ) (v : υ) :
    (t.put k v).keys = if k ∈ t.keys then t.keys else t.keys ++ [k] :=
  keys_putIn k v t.entries

theorem keys_erase (t : Table κ υ) (k : κ) : (t.erase k).keys = t.keys.filter (· ≠ k) := by
  simp only [erase, keys, eraseFrom, List.filter_map]
  rfl

theorem size_put (t : Table κ υ) (k : κ) (v : υ) :
    (t.put k v).size = if t.get? k = none then t.size + 1 else t.size := by
  have hlength (t : Table κ υ) : t.size = t.keys.length := (List.length_map _).symm
  rw [hlength, hlength, keys_put]
  by_cases h : t.get? k = none
  · rw [if_pos h, if_neg fun hmem => mem_keys.mp hmem h, List.length_append, List.length_singleton]
  · rw [if_neg h, if_pos (mem_keys.mpr h)]

/-- The keys after an operation depend on those before. -/
theorem keys_set_congr {υ' : Type} {t : Table κ υ} {t' : Table κ υ'} (h : t.keys = t'.keys) (k : κ)
    {v : Option υ} {v' : Option υ'} (hv : v.isSome = v'.isSome) :
    (t.set k v).keys = (t'.set k v').keys := by
  cases v with
  | none =>
    cases v' with
    | none => rw [set, set, keys_erase, keys_erase, h]
    | some w' => cases hv
  | some w =>
    cases v' with
    | none => cases hv
    | some w' => rw [set, set, keys_put, keys_put, h]

end Table

end StreamWatch
