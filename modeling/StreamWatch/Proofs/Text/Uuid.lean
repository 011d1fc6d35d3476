import StreamWatch.Proofs.Text.Hex

/-!
# The forms of identifiers

An identifier is read from the four forms that it has, letters in either case, and from nothing
else: `Uuid.ofChars?_eq_some_iff`.
-/

namespace StreamWatch

/-! ## Letters in either case -/

/-- Only letters in upper case change. -/
theorem toLower_of_le {c : Char} (h : 128 ≤ c.toNat) : c.toLower = c := by
  have hZ : 'Z'.val.toNat = 90 := rfl
  change 128 ≤ c.val.toNat at h
  refine dif_neg ?_
  simp only [UInt32.le_iff_toNat_le, ge_iff_le, not_and]
  omega

/-- What holds of all small characters and of all that are not changed holds of all. -/
theorem toLower_induction {P : Char → Prop} (small : ∀ n : Fin 128, P (Char.ofNat n))
    (unchanged : ∀ c : Char, c.toLower = c → P c) (c : Char) : P c := by
  rcases Nat.lt_or_ge c.toNat 128 with hlt | hle
  · have h := small ⟨c.toNat, hlt⟩
    rwa [Char.ofNat_toNat] at h
  · exact unchanged c (toLower_of_le hle)

/-- A character in lower case stays as it is in lower case. -/
theorem toLower_toLower (c : Char) : c.toLower.toLower = c.toLower := by
  induction c using toLower_induction with
  | small n =>
      revert n
      decide
  | unchanged c hc => rw [hc, hc]

theorem map_toLower_map_toLower (cs : List Char) :
    (cs.map Char.toLower).map Char.toLower = cs.map Char.toLower := by
  rw [List.map_map]
  exact List.map_congr_left fun c _ => toLower_toLower c

namespace Hex

/-- A hexadecimal digit has the same value in either case. -/
theorem value?_toLower (c : Char) : value? c.toLower = value? c := by
  induction c using toLower_induction with
  | small n =>
      revert n
      decide
  | unchanged c hc => rw [hc]

/-- Hexadecimal digits stand for the same number in either case. -/
theorem read?_map_toLower (soFar : Nat) (cs : List Char) :
    read? soFar (cs.map Char.toLower) = read? soFar cs := by
  induction cs generalizing soFar with
  | nil => rfl
  | cons c cs ih => simp only [List.map_cons, read?, value?_toLower, ih]

end Hex

namespace Uuid

/-- Hyphens and braces are the same in either case, and are no other character in lower case. -/
theorem toLower_eq_iff {d : Char} (hd : d ∈ ['-', '{', '}']) (c : Char) :
    c.toLower = d ↔ c = d := by
  induction c using toLower_induction with
  | small n =>
      simp only [List.mem_cons, List.not_mem_nil, or_false] at hd
      rcases hd with rfl | rfl | rfl <;>
        · revert n
          decide
  | unchanged c hc => rw [hc]

/-- A group ends with a hyphen if another one follows. -/
theorem ungroup?_cons_cons (size next : Nat) (sizes : List Nat) (cs : List Char) :
    ungroup? (size :: next :: sizes) cs =
      match cs.drop size with
      | '-' :: rest => (ungroup? (next :: sizes) rest).map (cs.take size ++ ·)
      | _ => none := rfl

/-- Groups are told apart in either case. -/
theorem ungroup?_map_toLower (sizes : List Nat) (cs : List Char) :
    ungroup? sizes (cs.map Char.toLower) = (ungroup? sizes cs).map (·.map Char.toLower) := by
  induction sizes generalizing cs with
  | nil => cases cs <;> rfl
  | cons size sizes ih =>
      cases sizes with
      | nil =>
          simp only [ungroup?, List.length_map]
          split <;> rfl
      | cons next sizes =>
          rw [ungroup?_cons_cons, ungroup?_cons_cons, ← List.map_drop]
          cases cs.drop size with
          | nil => rfl
          | cons c rest =>
              by_cases hc : c = '-'
              · subst hc
                have hlower : ('-' :: rest).map Char.toLower = '-' :: rest.map Char.toLower := rfl
                rw [hlower]
                simp [ih, Function.comp_def]
              · have hlower : c.toLower ≠ '-' := mt (toLower_eq_iff (by decide) c).mp hc
                simp [hc, hlower]

/-- An identifier is read in either case. -/
theorem digits?_map_toLower (cs : List Char) :
    digits? (cs.map Char.toLower) = (digits? cs).map (·.map Char.toLower) := by
  have hurn : ((cs.map Char.toLower).take 9).map Char.toLower = (cs.take 9).map Char.toLower := by
    rw [← List.map_take, map_toLower_map_toLower]
  have hbrace : (cs.map Char.toLower).head? = some '{' ∧
        (cs.map Char.toLower).getLast? = some '}' ↔
      cs.head? = some '{' ∧ cs.getLast? = some '}' := by
    simp [toLower_eq_iff]
  have hinner : ((cs.drop 1).map Char.toLower).dropLast =
      ((cs.drop 1).dropLast).map Char.toLower := List.map_dropLast.symm
  simp only [digits?, List.length_map, hurn, hbrace, ← List.map_drop, hinner, ungroup?_map_toLower]
  split_ifs <;> rfl

/-- An identifier is the same in either case. -/
theorem ofChars?_map_toLower (cs : List Char) : ofChars? (cs.map Char.toLower) = ofChars? cs := by
  rw [ofChars?, ofChars?, digits?_map_toLower]
  cases digits? cs with
  | none => rfl
  | some digits => simp [Hex.read?_map_toLower]

/-- Taking text apart into groups and putting it together again. -/
theorem hyphenate_of_ungroup? {sizes : List Nat} {cs digits : List Char}
    (h : ungroup? sizes cs = some digits) : hyphenate sizes digits = cs := by
  induction sizes generalizing cs digits with
  | nil =>
      cases cs with
      | nil => rfl
      | cons => cases h
  | cons size sizes ih =>
      cases sizes with
      | nil =>
          obtain ⟨hlength, rfl⟩ : cs.length = size ∧ cs = digits := by simpa [ungroup?] using h
          rw [hyphenate, List.take_of_length_le hlength.le]
      | cons next sizes =>
          rw [ungroup?_cons_cons] at h
          split at h
          · next rest hrest =>
              obtain ⟨others, hothers, rfl⟩ := Option.map_eq_some_iff.mp h
              have htake : (cs.take size).length = size := by
                have hlength := congrArg List.length hrest
                simp only [List.length_drop, List.length_cons] at hlength
                rw [List.length_take]
                omega
              have hcons (ds : List Char) : hyphenate (size :: next :: sizes) ds =
                  ds.take size ++ '-' :: hyphenate (next :: sizes) (ds.drop size) := rfl
              rw [hcons, List.take_left' htake, List.drop_left' htake, ih hothers, ← hrest,
                List.take_append_drop]
          · cases h

/-- A text is cut into groups exactly if it is the digits with hyphens between them. -/
theorem ungroup?_eq_some_iff {ds : List Char} (h : ds.length = 32) {cs : List Char} :
    ungroup? groupSizes cs = some ds ↔ cs = hyphenate groupSizes ds := by
  refine ⟨fun hcs => (hyphenate_of_ungroup? hcs).symm, ?_⟩
  rintro rfl
  exact ungroup?_hyphenate (by decide) h

/-- The texts with the digits of an identifier: the four forms. -/
theorem digits?_eq_some_iff {cs ds : List Char} (hds : ds.length = 32) :
    digits? cs = some ds ↔
      cs = ds ∨ cs = hyphenate groupSizes ds ∨
        cs = '{' :: (hyphenate groupSizes ds ++ ['}']) ∨
          ∃ word, word.map Char.toLower = urnWord ∧ cs = word ++ hyphenate groupSizes ds := by
  have hlength := length_hyphenate_groupSizes hds
  have hungroup {inner : List Char} : ungroup? groupSizes inner = some ds ↔
      inner = hyphenate groupSizes ds := ungroup?_eq_some_iff hds
  generalize hyphenate groupSizes ds = grouped at *
  refine ⟨fun h => ?_, ?_⟩
  -- the length of the text tells which of the forms it can be
  · unfold digits? at h
    split at h
    · exact Or.inl (Option.some.inj h)
    split at h
    · exact Or.inr (Or.inl (hungroup.mp h))
    split at h
    · split at h
      · next hcount hbraces =>
          refine Or.inr (Or.inr (Or.inl ?_))
          cases cs with
          | nil => cases hbraces.1
          | cons c tail =>
              obtain ⟨hopen, hclose⟩ := hbraces
              cases hopen
              have hne : tail ≠ [] := by
                rintro rfl
                cases hcount
              rw [List.getLast?_cons_of_ne_nil hne] at hclose
              obtain ⟨inner, rfl⟩ := List.getLast?_eq_some_iff.mp hclose
              rw [List.drop_one, List.tail_cons, List.dropLast_concat] at h
              rw [hungroup.mp h]
      · cases h
    split at h
    · split at h
      · next hurn =>
          refine Or.inr (Or.inr (Or.inr ⟨cs.take 9, hurn, ?_⟩))
          rw [← hungroup.mp h, List.take_append_drop]
      · cases h
    · cases h
  -- the other way round, each form is told by its length
  · rintro (rfl | rfl | rfl | ⟨word, hword, rfl⟩)
    · rw [digits?, if_pos hds]
    · rw [digits?, if_neg (by omega), if_pos hlength, hungroup.mpr rfl]
    · have hbraces : ('{' :: (grouped ++ ['}'])).length = 38 := by simp [hlength]
      have hlast : ('{' :: (grouped ++ ['}'])).getLast? = some '}' :=
        List.getLast?_concat (l := '{' :: grouped)
      rw [digits?, hbraces, hlast]
      simp [hungroup.mpr rfl]
    · have hnine : word.length = 9 := by
        rw [← List.length_map (f := Char.toLower), hword]
        rfl
      have hurn : (word ++ grouped).length = 45 := by simp [hlength, hnine]
      rw [digits?, hurn, List.take_left' hnine, List.drop_left' hnine]
      simp [hungroup.mpr rfl, hword]

/-- The text is one of the four forms of the identifier, in either case. -/
def IsForm (id : Uuid) (cs : List Char) : Prop :=
  cs.map Char.toLower ∈ [Hex.write id.value.toNat 32, id.toChars,
    '{' :: (id.toChars ++ ['}']), urnWord ++ id.toChars]

/-- What is read as the identifier is its forms, and nothing else. -/
theorem ofChars?_eq_some_iff {id : Uuid} {cs : List Char} :
    ofChars? cs = some id ↔ id.IsForm cs := by
  have hdigits : (Hex.write id.value.toNat 32).length = 32 := Hex.length_write _ _
  have hread : ofChars? cs = some id ↔
      digits? (cs.map Char.toLower) = some (Hex.write id.value.toNat 32) := by
    refine ⟨fun h => ?_, fun h => ?_⟩
    · obtain ⟨digits, hdigits, hwrite⟩ := digits_of_ofChars? h
      rw [digits?_map_toLower, hdigits, Option.map_some, hwrite]
    · rw [← ofChars?_map_toLower]
      exact ofChars?_of_digits? h
  have hurn : (∃ word, word.map Char.toLower = urnWord ∧
        cs.map Char.toLower = word ++ id.toChars) ↔
      cs.map Char.toLower = urnWord ++ id.toChars := by
    refine ⟨?_, fun h => ⟨urnWord, rfl, h⟩⟩
    rintro ⟨word, hword, h⟩
    rw [← map_toLower_map_toLower, h, List.map_append, hword, map_toLower_toChars]
  rw [hread, digits?_eq_some_iff hdigits]
  simp only [IsForm, List.mem_cons, List.not_mem_nil, or_false, ← hurn]
  rfl

end Uuid

end StreamWatch
