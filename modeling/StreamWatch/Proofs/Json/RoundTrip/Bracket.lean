import StreamWatch.Json.Codec
import StreamWatch.Proofs.Json.RoundTrip.Number
import StreamWatch.Proofs.Json.RoundTrip.Text

/-!
# Lists and objects read back

Values with commas between them read back one by one, as the elements of a list or as the members of
an object, as long as each of them reads back on its own. A value is followed by a comma or by the
closing bracket, and there are never more values than characters.
-/

namespace StreamWatch.Json

variable {α β σ : Type}

/-- A character that values start with: neither space nor a bracket that closes a list. -/
structure Opens (c : Char) : Prop where
  not_space : isSpace c = false
  ne_bracket : c ≠ ']'

/-- The text starts as a value does, and stays on one line. -/
structure IsCompact (text : List Char) : Prop where
  opens : ∃ c rest, text = c :: rest ∧ Opens c
  newline_not_mem : '\n' ∉ text

/-! ## Commas -/

/-- What is left of texts with commas between them: before the first of all, or behind a text that
was read, where a comma comes next. -/
def remaining : Bool → List (List Char) → List Char
  | _, [] => []
  | first, text :: texts => (if first then [] else [',']) ++ (text ++ remaining false texts)

/-- Texts with commas between them are what remains of a list at its start. -/
theorem withCommas_eq (texts : List (List Char)) :
    Codec.withCommas texts = remaining true texts := by
  induction texts with
  | nil => rfl
  | cons text texts ih =>
      cases texts with
      | nil => simp [Codec.withCommas, remaining]
      | cons next texts =>
          rw [Codec.withCommas, ih]
          · rfl
          · simp

/-- There are hardly more texts than characters. -/
theorem length_le_length_remaining (first : Bool) (texts : List (List Char)) :
    texts.length ≤ (remaining first texts).length + 1 := by
  have hbehind (texts : List (List Char)) : texts.length ≤ (remaining false texts).length := by
    induction texts with
    | nil => exact Nat.le_refl _
    | cons text texts ih =>
        simp only [remaining, Bool.false_eq_true, if_false, List.length_append, List.length_cons,
          List.length_nil]
        omega
  cases texts with
  | nil => exact Nat.zero_le _
  | cons text texts =>
      have hrest := hbehind texts
      simp only [remaining, List.length_append, List.length_cons]
      omega

/-- A comma or the closing bracket is what follows a value. -/
theorem delimits_remaining (texts : List (List Char)) {close : Char}
    (hclose : close = ']' ∨ close = '}') (rest : List Char) :
    Delimits (remaining false texts ++ close :: rest) := by
  intro c hc
  cases texts with
  | nil =>
      cases hc
      exact Or.inr hclose
  | cons text texts =>
      cases hc
      exact Or.inl rfl

/-- Texts on one line are on one line with commas between them. -/
theorem newline_not_mem_withCommas {texts : List (List Char)} (h : ∀ text ∈ texts, '\n' ∉ text) :
    '\n' ∉ Codec.withCommas texts := by
  have hremaining (first : Bool) : '\n' ∉ remaining first texts := by
    induction texts generalizing first with
    | nil => exact List.not_mem_nil
    | cons text texts ih =>
        rw [List.forall_mem_cons] at h
        cases first <;> simp [remaining, h.1, ih h.2]
  rw [withCommas_eq]
  exact hremaining true

namespace Reader

/-! ## Lists -/

section List

variable {c : Char} (rest : List Char)

/-- A closing bracket ends the list, be it empty or not. -/
theorem nextElement_close (first : Bool) :
    nextElement first (']' :: rest) = .ok (false, ']' :: rest) := by
  rw [nextElement, bind_of_ok (peek?_cons rfl rest)]
  rfl

/-- Behind a comma an element has to come. -/
theorem elementAfterComma_cons (h : Opens c) :
    elementAfterComma (c :: rest) = .ok (true, c :: rest) := by
  rw [elementAfterComma, bind_of_ok (peek?_cons h.not_space rest)]
  simp [h.ne_bracket]
  rfl

/-- The next element is found behind its comma, and the first one at once. -/
theorem nextElement_cons (h : Opens c) (first : Bool) :
    nextElement first ((if first then [] else [',']) ++ c :: rest) = .ok (true, c :: rest) := by
  cases first with
  | false => exact elementAfterComma_cons rest h
  | true =>
      rw [if_pos rfl, List.nil_append, nextElement, bind_of_ok (peek?_cons h.not_space rest)]
      simp [h.ne_bracket]
      rfl

theorem closeList_close : closeList (']' :: rest) = .ok ((), rest) := rfl

variable {read : Reader β} {write : α → List Char} {back : α → β}

/-- Elements are read one by one. -/
theorem elements_remaining {values : List α}
    (hread : ∀ a ∈ values, ∀ {rest}, Delimits rest → read (write a ++ rest) = .ok (back a, rest))
    (hwrite : ∀ a ∈ values, IsCompact (write a)) {bound : Nat} (hbound : values.length < bound)
    (first : Bool) :
    elements read bound first (remaining first (values.map write) ++ ']' :: rest) =
      .ok (values.map back, ']' :: rest) := by
  induction values generalizing bound first with
  | nil =>
      obtain ⟨bound, rfl⟩ := Nat.exists_eq_add_one.mpr hbound
      exact bind_of_ok (nextElement_close rest first) _
  | cons a values ih =>
      obtain ⟨bound, rfl⟩ := Nat.exists_eq_add_one.mpr (Nat.zero_lt_of_lt hbound)
      rw [List.forall_mem_cons] at hread hwrite
      have hnext : nextElement first (remaining first ((a :: values).map write) ++ ']' :: rest) =
          .ok (true, write a ++ (remaining false (values.map write) ++ ']' :: rest)) := by
        obtain ⟨c, text, htext, hopens⟩ := hwrite.1.opens
        simp only [List.map_cons, remaining, List.append_assoc, htext, List.cons_append]
        exact nextElement_cons _ hopens first
      have htail := delimits_remaining (values.map write) (Or.inl rfl) rest
      rw [elements, bind_of_ok hnext, if_pos rfl, bind_of_ok (hread.1 htail),
        bind_of_ok (ih hread.2 hwrite.2 (by simpa using hbound) false)]
      rfl

/-- A list is read back, with what its elements are read back as. -/
theorem list_write {values : List α}
    (hread : ∀ a ∈ values, ∀ {rest}, Delimits rest → read (write a ++ rest) = .ok (back a, rest))
    (hwrite : ∀ a ∈ values, IsCompact (write a)) :
    list read ('[' :: Codec.withCommas (values.map write) ++ ']' :: rest) =
      .ok (values.map back, rest) := by
  have hlist (cs : List Char) : list read ('[' :: cs) =
      (elements read (cs.length + 1) true >>= fun values => closeList >>= fun _ =>
        pure values) cs := rfl
  have hlength := length_le_length_remaining true (values.map write)
  rw [List.length_map] at hlength
  rw [List.cons_append, withCommas_eq, hlist,
    bind_of_ok (elements_remaining rest hread hwrite (by simp; omega) true),
    bind_of_ok (closeList_close rest)]
  rfl

end List

/-! ## Objects -/

section Object

variable {member : String → σ → Reader σ}

/-- The text of a member. -/
def memberText (item : String × List Char) : List Char :=
  Value.writeText item.1 ++ ':' :: item.2

/-- The members take the state from the first to the second, one after the other. -/
inductive Takes (member : String → σ → Reader σ) : σ → List (String × List Char) → σ → Prop
  | nil (s : σ) : Takes member s [] s
  | cons {s s' s'' : σ} {key : String} {value : List Char} {items : List (String × List Char)}
      (hmember : ∀ {rest}, Delimits rest →
        member key s (':' :: value ++ rest) = .ok (s', rest))
      (hitems : Takes member s' items s'') : Takes member s ((key, value) :: items) s''

variable {s s' : σ} {items : List (String × List Char)} (rest : List Char)

theorem nextKey?_close (first : Bool) :
    nextKey? first ('}' :: rest) = .ok (none, '}' :: rest) := by
  rw [nextKey?, bind_of_ok (peek?_cons rfl rest)]
  rfl

/-- The next key is found behind its comma, and the first one at once. -/
theorem nextKey?_writeText (first : Bool) (key : String) :
    nextKey? first ((if first then [] else [',']) ++ (Value.writeText key ++ rest)) =
      .ok (some key, rest) := by
  have hkey : nextKey? first ((if first then [] else [',']) ++ (Value.writeText key ++ rest)) =
      (string >>= fun key => pure (some key)) (Value.writeText key ++ rest) := by
    cases first <;> rfl
  rw [hkey, bind_of_ok (string_writeText key rest)]
  rfl

theorem colon_colon : colon (':' :: rest) = .ok ((), rest) := rfl

theorem closeObject_close : closeObject ('}' :: rest) = .ok ((), rest) := rfl

/-- Members are taken one by one. -/
theorem members_remaining (h : Takes member s items s') {bound : Nat}
    (hbound : items.length < bound) (first : Bool) :
    members member bound first s (remaining first (items.map memberText) ++ '}' :: rest) =
      .ok (s', '}' :: rest) := by
  induction h generalizing bound first with
  | nil s =>
      obtain ⟨bound, rfl⟩ := Nat.exists_eq_add_one.mpr hbound
      exact bind_of_ok (nextKey?_close rest first) _
  | @cons s s' s'' key value items hmember _ ih =>
      obtain ⟨bound, rfl⟩ := Nat.exists_eq_add_one.mpr (Nat.zero_lt_of_lt hbound)
      let tail := remaining false (items.map memberText) ++ '}' :: rest
      have hnext : nextKey? first
          (remaining first (((key, value) :: items).map memberText) ++ '}' :: rest) =
          .ok (some key, ':' :: value ++ tail) := by
        simp only [List.map_cons, remaining, memberText, List.append_assoc, List.cons_append]
        exact nextKey?_writeText _ first key
      have htail := delimits_remaining (items.map memberText) (Or.inr rfl) rest
      rw [members, bind_of_ok hnext]
      exact (bind_of_ok (hmember htail) _).trans (ih (by simpa using hbound) false)

/-- An object is read back. -/
theorem object_write (h : Takes member s items s') :
    object member s ('{' :: Codec.withCommas (items.map memberText) ++ '}' :: rest) =
      .ok (s', rest) := by
  have hobject (cs : List Char) : object member s ('{' :: cs) =
      (members member (cs.length + 1) true s >>= fun state => closeObject >>= fun _ =>
        pure state) cs := rfl
  have hlength := length_le_length_remaining true (items.map memberText)
  rw [List.length_map] at hlength
  rw [List.cons_append, withCommas_eq, hobject,
    bind_of_ok (members_remaining rest h (by simp; omega) true),
    bind_of_ok (closeObject_close rest)]
  rfl

end Object

end Reader

end StreamWatch.Json
