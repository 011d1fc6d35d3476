import Mathlib.Tactic.Ring
import StreamWatch.Uuid

/-!
# Hexadecimal digits and identifiers

Reading hexadecimal digits undoes writing them, and so reading an identifier undoes writing it:
`Uuid.ofChars?_toChars`.
-/

namespace StreamWatch

namespace Hex

/-- Reading a digit undoes writing it. -/
theorem value?_digitChar {d : Nat} (h : d < 16) : value? (Nat.digitChar d) = some d := by
  have hall : ∀ d : Fin 16, value? (Nat.digitChar d) = some d.val := by decide
  exact hall ⟨d, h⟩

/-- A number is written with as many digits as it should have. -/
theorem length_write (n count : Nat) : (write n count).length = count := by
  induction count generalizing n with
  | zero => rfl
  | succ count ih => rw [write, List.length_append, ih, List.length_singleton]

/-- The first digit that is written is the highest. -/
theorem write_succ' (n count : Nat) :
    write n (count + 1) = Nat.digitChar (n / 16 ^ count % 16) :: write n count := by
  induction count generalizing n with
  | zero => simp [write]
  | succ count ih =>
      rw [write, ih, Nat.div_div_eq_div_mul, ← Nat.pow_succ', List.cons_append, write]

/-- What is written is digits. -/
theorem exists_of_mem_write {n count : Nat} {c : Char} (h : c ∈ write n count) :
    ∃ d < 16, c = Nat.digitChar d := by
  induction count generalizing n with
  | zero => cases h
  | succ count ih =>
      rw [write, List.mem_append, List.mem_singleton] at h
      rcases h with h | h
      · exact ih h
      · exact ⟨n % 16, Nat.mod_lt _ (by decide), h⟩

/-- Reading digits appends them to what was read. -/
theorem read?_write (soFar n count : Nat) (rest : List Char) :
    read? soFar (write n count ++ rest) = read? (soFar * 16 ^ count + n % 16 ^ count) rest := by
  induction count generalizing n rest with
  | zero => simp [write, Nat.mod_one]
  | succ count ih =>
      have hvalue : 16 * (soFar * 16 ^ count + n / 16 % 16 ^ count) + n % 16 =
          soFar * 16 ^ (count + 1) + n % 16 ^ (count + 1) := by
        rw [Nat.pow_succ', Nat.mod_mul]
        ring
      rw [write, List.append_assoc, ih, List.singleton_append, read?,
        value?_digitChar (Nat.mod_lt _ (by decide))]
      exact congrArg (read? · rest) hvalue

/-- A digit in either case is written in lower case. -/
theorem digitChar_of_value? {c : Char} {d : Nat} (h : value? c = some d) :
    d < 16 ∧ Nat.digitChar d = c.toLower := by
  have hsmall : c.toNat < 128 := by
    unfold value? at h
    simp only [Char.le_def, UInt32.le_iff_toNat_le] at h
    change c.val.toNat < 128
    have h9 : '9'.val.toNat = 57 := rfl
    have hf : 'f'.val.toNat = 102 := rfl
    have hF : 'F'.val.toNat = 70 := rfl
    split at h
    · omega
    · split at h
      · omega
      · split at h
        · omega
        · cases h
  have hall : ∀ n : Fin 128, ∀ d ∈ value? (Char.ofNat n),
      d < 16 ∧ Nat.digitChar d = (Char.ofNat n).toLower := by decide
  have hd := hall ⟨c.toNat, hsmall⟩ d
  rw [Char.ofNat_toNat] at hd
  exact hd h

/-- What digits were read as is written with the same digits, in lower case. -/
theorem write_of_read? {soFar n : Nat} {cs : List Char} (h : read? soFar cs = some n) :
    soFar = n / 16 ^ cs.length ∧ write n cs.length = cs.map Char.toLower := by
  induction cs generalizing soFar with
  | nil =>
      cases h
      simp [write]
  | cons c rest ih =>
      obtain ⟨d, hd, hrest⟩ := Option.bind_eq_some_iff.mp h
      obtain ⟨hlt, hdigit⟩ := digitChar_of_value? hd
      obtain ⟨hfront, hwrite⟩ := ih hrest
      have hquotient : n / 16 ^ (rest.length + 1) = soFar := by
        rw [Nat.pow_succ, ← Nat.div_div_eq_div_mul, ← hfront]
        omega
      refine ⟨hquotient.symm, ?_⟩
      rw [List.length_cons, write_succ', hwrite, List.map_cons, ← hdigit, ← hfront]
      congr 2
      omega

end Hex

namespace Uuid

/-- Writing text in groups and undoing it. -/
theorem ungroup?_hyphenate {sizes : List Nat} (hsizes : sizes ≠ []) {cs : List Char}
    (h : cs.length = sizes.sum) : ungroup? sizes (hyphenate sizes cs) = some cs := by
  induction sizes generalizing cs with
  | nil => exact absurd rfl hsizes
  | cons size sizes ih =>
      cases sizes with
      | nil =>
          have hlength : cs.length = size := by simpa using h
          rw [hyphenate, List.take_of_length_le hlength.le, ungroup?, if_pos hlength]
      | cons next sizes =>
          rw [List.sum_cons] at h
          have htake : (cs.take size).length = size := by
            rw [List.length_take]
            omega
          have hrest : (cs.drop size).length = (next :: sizes).sum := by
            rw [List.length_drop]
            omega
          have hcons : hyphenate (size :: next :: sizes) cs =
              cs.take size ++ '-' :: hyphenate (next :: sizes) (cs.drop size) := rfl
          simp only [hcons, ungroup?, List.drop_left' htake, List.take_left' htake,
            ih (by simp) hrest, Option.map_some, List.take_append_drop]

/-- Text in groups has as many characters as the groups have. -/
theorem length_of_ungroup? {sizes : List Nat} {cs digits : List Char}
    (h : ungroup? sizes cs = some digits) : digits.length = sizes.sum := by
  fun_induction ungroup? sizes cs generalizing digits with
  | case1 =>
      cases h
      rfl
  | case2 => cases h
  | case3 cs =>
      cases h
      exact (List.sum_singleton).symm
  | case4 => cases h
  | case5 size sizes cs hne rest hrest ih =>
      obtain ⟨others, hothers, rfl⟩ := Option.map_eq_some_iff.mp h
      have hlength : size ≤ cs.length := by
        by_contra hshort
        rw [List.drop_eq_nil_of_le (by omega)] at hrest
        cases hrest
      rw [List.length_append, List.length_take, ih hothers, List.sum_cons]
      omega
  | case6 => cases h

/-- Every form of an identifier has 32 digits. -/
theorem length_of_digits? {cs digits : List Char} (h : digits? cs = some digits) :
    digits.length = 32 := by
  unfold digits? at h
  split at h
  · next hlength =>
      cases h
      exact hlength
  · repeat' split at h
    all_goals
      first
      | exact length_of_ungroup? h
      | cases h

/-- Whichever form an identifier was read from has its digits, in either case. -/
theorem digits_of_ofChars? {cs : List Char} {id : Uuid} (h : ofChars? cs = some id) :
    ∃ digits, digits? cs = some digits ∧ digits.map Char.toLower = Hex.write id.value.toNat 32 := by
  obtain ⟨digits, hdigits, h⟩ := Option.bind_eq_some_iff.mp h
  obtain ⟨n, hread, h⟩ := Option.bind_eq_some_iff.mp h
  cases h
  have hlength := length_of_digits? hdigits
  obtain ⟨hfront, hwrite⟩ := Hex.write_of_read? hread
  rw [hlength] at hfront hwrite
  have hlt : n < 16 ^ 32 :=
    (Nat.div_eq_zero_iff_lt (Nat.pow_pos (by decide))).mp hfront.symm
  have hsize : 16 ^ 32 = 2 ^ 128 := by decide
  refine ⟨digits, hdigits, ?_⟩
  rw [BitVec.toNat_ofNat, Nat.mod_eq_of_lt (hsize ▸ hlt), hwrite]

/-- Hyphenating adds a character between each two groups. -/
theorem length_hyphenate_groupSizes {ds : List Char} (h : ds.length = 32) :
    (hyphenate groupSizes ds).length = 36 := by
  simp [groupSizes, hyphenate, h]

theorem length_toChars (id : Uuid) : id.toChars.length = 36 :=
  length_hyphenate_groupSizes (Hex.length_write _ _)

/-- Writing text in groups adds nothing but hyphens. -/
theorem eq_or_mem_of_mem_hyphenate {sizes : List Nat} {cs : List Char} {c : Char}
    (h : c ∈ hyphenate sizes cs) : c = '-' ∨ c ∈ cs := by
  fun_induction hyphenate sizes cs with
  | case1 => cases h
  | case2 => exact Or.inr (List.mem_of_mem_take h)
  | case3 size sizes cs hne ih =>
      rw [List.mem_append, List.mem_cons] at h
      rcases h with h | h | h
      · exact Or.inr (List.mem_of_mem_take h)
      · exact Or.inl h
      · exact (ih h).imp_right List.mem_of_mem_drop

/-- An identifier is written in digits and hyphens. -/
theorem eq_of_mem_toChars {id : Uuid} {c : Char} (h : c ∈ id.toChars) :
    c = '-' ∨ ∃ d < 16, c = Nat.digitChar d :=
  (eq_or_mem_of_mem_hyphenate h).imp_right Hex.exists_of_mem_write

/-- An identifier is written in lower case. -/
theorem map_toLower_toChars (id : Uuid) : id.toChars.map Char.toLower = id.toChars := by
  refine (List.map_congr_left fun c hc => ?_).trans (List.map_id _)
  rcases eq_of_mem_toChars hc with rfl | ⟨d, hd, rfl⟩
  · rfl
  · have hall : ∀ d : Fin 16, (Nat.digitChar d).toLower = Nat.digitChar d := by decide
    exact hall ⟨d, hd⟩

/-- An identifier is its digits. -/
theorem ofChars?_of_digits? {id : Uuid} {cs : List Char}
    (h : digits? cs = some (Hex.write id.value.toNat 32)) : ofChars? cs = some id := by
  have hread := Hex.read?_write 0 id.value.toNat 32 []
  rw [List.append_nil, Nat.zero_mul, Nat.zero_add, Hex.read?, Nat.mod_eq_of_lt] at hread
  · simp [ofChars?, h, hread]
  · exact id.value.isLt

/-- Reading an identifier undoes writing it. -/
theorem ofChars?_toChars (id : Uuid) : ofChars? id.toChars = some id := by
  have hlength : (Hex.write id.value.toNat 32).length = groupSizes.sum := Hex.length_write _ _
  refine ofChars?_of_digits? ?_
  have hlength' := length_toChars id
  rw [digits?, if_neg (by omega), if_pos hlength']
  exact ungroup?_hyphenate (by decide) hlength

end Uuid

end StreamWatch
