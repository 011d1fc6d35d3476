import StreamWatch.Json.Reader

/-!
# Readers that do not mind space at the end

White space after a document makes no difference to what is read from it, nor to whether anything is
read. A reader is `Lenient` to a character if one more of it at the end of the text changes at most
the end of what the reader leaves. Every part of a document is read leniently to white space,
wherever the text breaks off.
-/

namespace StreamWatch.Json

variable {α β σ : Type} {c : Char}

/-! ## Lenient readers -/

/-- Two results that differ at most in faults and in a character at the end of what is left. -/
inductive Alike (c : Char) (r r' : Except Fault (α × List Char)) : Prop
  | failed {fault fault' : Fault} : r = .error fault → r' = .error fault' → Alike c r r'
  | read {a : α} {rest rest' : List Char} : r = .ok (a, rest) → r' = .ok (a, rest') →
      (rest' = rest ∨ rest' = rest ++ [c]) → Alike c r r'

theorem Alike.refl (r : Except Fault (α × List Char)) : Alike c r r := by
  cases r with
  | error fault => exact .failed rfl rfl
  | ok p => exact .read rfl rfl (Or.inl rfl)

/-- The reader does not care for one more character `c` at the end of the text, and never leaves
more text than there was. -/
structure Reader.Lenient (c : Char) (read : Reader α) : Prop where
  alike : ∀ cs, Alike c (read cs) (read (cs ++ [c]))
  length_le : ∀ {cs a rest}, read cs = .ok (a, rest) → rest.length ≤ cs.length

/-- Alike results are read on from alike. -/
theorem Alike.bind {r r' : Except Fault (α × List Char)} {f : α → Reader β} (h : Alike c r r')
    (hf : ∀ a, (f a).Lenient c) :
    Alike c (r.bind fun p => f p.1 p.2) (r'.bind fun p => f p.1 p.2) := by
  cases h with
  | failed h h' =>
      rw [h, h']
      exact .failed rfl rfl
  | @read a rest _ h h' hrest =>
      rw [h, h']
      rcases hrest with rfl | rfl
      · exact .refl _
      · exact (hf a).alike rest

namespace Reader

/-- One reader after another reads what the first one leaves. -/
theorem bind_apply (x : Reader α) (f : α → Reader β) (cs : List Char) :
    (x >>= f) cs = (x cs).bind fun p => f p.1 p.2 := rfl

/-- Looking at a character passes over the space before it. -/
theorem peek?_apply (cs : List Char) :
    peek? cs = .ok ((cs.dropWhile isSpace).head?, cs.dropWhile isSpace) := rfl

/-- What one reader after another gives, the second one gives after what the first one gives. -/
theorem bind_ok {x : Reader α} {f : α → Reader β} {cs rest : List Char} {b : β}
    (h : (x >>= f) cs = .ok (b, rest)) :
    ∃ a rest', x cs = .ok (a, rest') ∧ f a rest' = .ok (b, rest) := by
  rw [bind_apply] at h
  cases hcs : x cs with
  | error fault =>
      rw [hcs] at h
      cases h
  | ok p =>
      rw [hcs] at h
      exact ⟨p.1, p.2, rfl, h⟩

/-- Readers that agree on what the first one leaves agree after it. -/
theorem bind_congr {x : Reader α} {f g : α → Reader β} {cs : List Char}
    (h : ∀ a rest, x cs = .ok (a, rest) → f a rest = g a rest) : (x >>= f) cs = (x >>= g) cs := by
  rw [bind_apply, bind_apply]
  cases hcs : x cs with
  | error fault => rfl
  | ok p => exact h p.1 p.2 hcs

namespace Lenient

theorem pure (a : α) : (Pure.pure a : Reader α).Lenient c where
  alike _ := .read rfl rfl (Or.inr rfl)
  length_le h := by
    cases h
    exact Nat.le_refl _

theorem throw (fault : Fault) : (MonadExcept.throw fault : Reader α).Lenient c where
  alike _ := .failed rfl rfl
  length_le h := by cases h

/-- Two lenient readers one after the other are lenient. -/
theorem bind {x : Reader α} {f : α → Reader β} (hx : x.Lenient c) (hf : ∀ a, (f a).Lenient c) :
    (x >>= f).Lenient c where
  alike cs := (hx.alike cs).bind hf
  length_le h := by
    obtain ⟨a, rest', hx', hf'⟩ := bind_ok h
    exact Nat.le_trans ((hf a).length_le hf') (hx.length_le hx')

/-- A reader that takes as many steps as the text is long may take more. -/
theorem get_bind {f : Nat → Reader α} (hf : ∀ n, (f n).Lenient c)
    (henough : ∀ cs, f cs.length cs = f (cs.length + 1) cs) :
    (get >>= fun cs : List Char => f cs.length : Reader α).Lenient c where
  alike cs := by
    have hread (cs : List Char) : (get >>= fun cs : List Char => f cs.length : Reader α) cs =
        f cs.length cs := rfl
    rw [hread, hread, henough, List.length_append, List.length_singleton]
    exact (hf _).alike cs
  length_le {cs _ _} h := (hf cs.length).length_le h

/-- A reader that takes the first character of the text into account. -/
theorem of_cases {read : Reader α} (hnil : Alike c (read []) (read [c]))
    (hcons : ∀ d cs, Alike c (read (d :: cs)) (read (d :: cs ++ [c])))
    (hlength : ∀ {cs a rest}, read cs = .ok (a, rest) → rest.length ≤ cs.length) :
    read.Lenient c where
  alike cs := by
    cases cs with
    | nil => exact hnil
    | cons d cs => exact hcons d cs
  length_le := hlength

end Lenient

/-! ## White space -/

/-- White space is one of four characters. -/
theorem eq_of_isSpace (h : isSpace c) : c = ' ' ∨ c = '\n' ∨ c = '\t' ∨ c = '\r' := by
  simpa [isSpace, or_assoc] using h

/-- Passing over a character leaves the character behind the text where it is. -/
theorem lenient_advance : advance.Lenient c where
  alike cs := by
    cases cs with
    | nil => exact .read rfl rfl (Or.inl rfl)
    | cons d rest => exact .read rfl rfl (Or.inr rfl)
  length_le h := by
    cases h
    simp

/-- Whatever is read after a character leaves less text. -/
theorem length_lt_of_advance {f : Unit → Reader α} (hf : ∀ u, (f u).Lenient c) {d : Char}
    {cs rest : List Char} {a : α} (h : (advance >>= f) (d :: cs) = .ok (a, rest)) :
    rest.length < (d :: cs).length :=
  Nat.lt_succ_of_le ((hf ()).length_le h)

/-- The letters of a word that does not hold the character are found without it. -/
theorem lenient_letters {ws : List Char} (h : c ∉ ws) : (letters ws).Lenient c := by
  induction ws with
  | nil => exact .pure ()
  | cons w ws ih =>
      rw [List.mem_cons, not_or] at h
      constructor
      · intro cs
        cases cs with
        | nil => exact .failed rfl (if_neg h.1)
        | cons d rest =>
            by_cases hd : d = w
            · simpa only [letters, List.cons_append, hd, if_true] using (ih h.2).alike rest
            · exact .failed (if_neg hd) (if_neg hd)
      · intro cs a rest hread
        cases cs with
        | nil => cases hread
        | cons d cs =>
            change (if d = w then letters ws cs else .error .expectedWord) = _ at hread
            split at hread
            · exact Nat.le_succ_of_le ((ih h.2).length_le hread)
            · cases hread

section

variable (hc : isSpace c)
include hc

/-- Looking for a character passes over space, also at the end of the text. -/
theorem lenient_peek? : peek?.Lenient c where
  alike cs := by
    rw [peek?_apply, peek?_apply, List.dropWhile_append]
    cases hrest : cs.dropWhile isSpace with
    | nil => exact .read rfl (by simp [hc]) (Or.inl rfl)
    | cons d rest => exact .read rfl rfl (Or.inr rfl)
  length_le h := by
    cases h
    exact (List.dropWhile_suffix _).length_le

theorem lenient_peekValue : peekValue.Lenient c := by
  refine (lenient_peek? hc).bind fun d? => ?_
  cases d? with
  | some d => exact .pure d
  | none => exact .throw _

omit hc in
/-- The character that was looked at is next. -/
theorem exists_of_peekValue {cs rest : List Char} {d : Char} (h : peekValue cs = .ok (d, rest)) :
    (∃ rest', rest = d :: rest') ∧ rest.length ≤ cs.length := by
  obtain ⟨d?, rest', hpeek, h⟩ := bind_ok h
  cases hpeek
  have hle := (List.dropWhile_suffix isSpace (l := cs)).length_le
  cases hcs : cs.dropWhile isSpace with
  | nil =>
      rw [hcs] at h
      cases h
  | cons e rest' =>
      rw [hcs] at h hle
      cases h
      exact ⟨⟨rest', rfl⟩, hle⟩

/-- A word without a space in it is read without regard to space behind it. -/
theorem lenient_word {tail : List Char} (h : ∀ d ∈ tail, ¬ isSpace d) : (word tail).Lenient c :=
  lenient_advance.bind fun _ => lenient_letters fun hmem => h c hmem hc

end

end Reader

/-! ## Strings -/

/-- Two results that differ at most in faults. -/
inductive Agree (r r' : Except Fault α) : Prop
  | failed {fault fault' : Fault} : r = .error fault → r' = .error fault' → Agree r r'
  | same : r = r' → Agree r r'

/-- Parts of a string that agree are read on from in agreement. -/
theorem Agree.bind {x x' : Except Fault α} {f f' : α → Except Fault β} (h : Agree x x')
    (hf : ∀ a, x = .ok a → Agree (f a) (f' a)) : Agree (x.bind f) (x'.bind f') := by
  cases h with
  | failed h h' =>
      rw [h, h']
      exact .failed rfl rfl
  | same h =>
      subst h
      cases x with
      | error fault => exact .same rfl
      | ok a => exact hf a rfl

section Strings

variable (hc : isSpace c)
include hc

/-- White space is no hexadecimal digit. -/
theorem value?_of_isSpace : Hex.value? c = none := by
  rcases Reader.eq_of_isSpace hc with rfl | rfl | rfl | rfl <;> rfl

omit hc in
/-- A number takes four digits. -/
theorem exists_of_hexQuad {cs : List Char} {n : Nat} (h : hexQuad cs = .ok n) :
    ∃ a b d e rest, cs = a :: b :: d :: e :: rest := by
  unfold hexQuad at h
  split at h
  · cases h
  · split at h
    · exact ⟨_, _, _, _, _, rfl⟩
    · cases h

/-- White space does not complete a number that lacks digits. -/
theorem hexQuad_concat (cs : List Char) : Agree (hexQuad cs) (hexQuad (cs ++ [c])) := by
  have hshort (cs : List Char) (h : ∀ a b d e rest, cs ≠ a :: b :: d :: e :: rest) :
      ∃ fault, hexQuad cs = .error fault := by
    cases hcs : hexQuad cs with
    | error fault => exact ⟨fault, rfl⟩
    | ok n =>
        obtain ⟨a, b, d, e, rest, heq⟩ := exists_of_hexQuad hcs
        exact absurd heq (h a b d e rest)
  match cs with
  | a :: b :: d :: e :: rest => exact .same rfl
  | [] =>
      obtain ⟨fault, hfault⟩ := hshort [c] (by simp)
      exact .failed rfl hfault
  | [a] =>
      obtain ⟨fault, hfault⟩ := hshort [a] (by simp)
      obtain ⟨fault', hfault'⟩ := hshort [a, c] (by simp)
      exact .failed hfault hfault'
  | [a, b] =>
      obtain ⟨fault, hfault⟩ := hshort [a, b] (by simp)
      obtain ⟨fault', hfault'⟩ := hshort [a, b, c] (by simp)
      exact .failed hfault hfault'
  | [a, b, d] =>
      obtain ⟨fault, hfault⟩ := hshort [a, b, d] (by simp)
      have hnone : Hex.read? 0 [a, b, d, c] = none := by simp [Hex.read?, value?_of_isSpace hc]
      have hfault' : ∃ fault', hexQuad ([a, b, d] ++ [c]) = .error fault' := by
        simp only [hexQuad, List.cons_append, List.nil_append, hnone]
        split
        · exact ⟨_, rfl⟩
        · exact ⟨_, rfl⟩
      obtain ⟨fault', hfault'⟩ := hfault'
      exact .failed hfault hfault'

/-- White space does not complete the escape of a character. -/
theorem numberEscape_concat (cs : List Char) :
    Agree (numberEscape cs) (numberEscape (cs ++ [c])) := by
  refine (hexQuad_concat hc cs).bind fun high hhigh => ?_
  obtain ⟨a, b, d, e, rest, rfl⟩ := exists_of_hexQuad hhigh
  have hne : c ≠ '\\' ∧ c ≠ 'u' := by
    rcases Reader.eq_of_isSpace hc with rfl | rfl | rfl | rfl <;> decide
  cases hcloses : closesPair high with
  | true => exact .failed rfl rfl
  | false =>
    cases hopens : opensPair high with
    | false => exact .same rfl
    | true =>
      -- what follows the first code unit tells the cases apart
      simp only [List.cons_append, List.drop_succ_cons, List.drop_zero, Bool.not_true,
        Bool.false_eq_true, if_false]
      split
      · exact .failed rfl (by simp [hne.1]; rfl)
      · exact .failed rfl (by simp [hne.2]; rfl)
      · next rest => exact (hexQuad_concat hc rest).bind fun low _ => .same rfl
      · next hnil hopen hpair =>
          match rest with
          | [] => exact absurd rfl hnil
          | [d] =>
              have hd : d ≠ '\\' := by simpa using hopen
              exact .failed rfl (by simp [hd]; rfl)
          | d :: e :: rest =>
              have hpair' (rest' : List Char) : d :: e :: (rest ++ [c]) ≠ '\\' :: 'u' :: rest' := by
                intro h
                obtain ⟨rfl, rfl, -⟩ : d = '\\' ∧ e = 'u' ∧ rest ++ [c] = rest' := by simpa using h
                exact hpair rest rfl
              exact .failed rfl (by simp; rfl)

/-- White space does not complete an escape. -/
theorem escape_concat (cs : List Char) : Agree (escape cs) (escape (cs ++ [c])) := by
  match cs with
  | [] =>
      have hspace : escape [c] = .error .invalidEscape := by
        rcases Reader.eq_of_isSpace hc with rfl | rfl | rfl | rfl <;> rfl
      exact .failed rfl hspace
  | d :: rest =>
      by_cases hu : d = 'u'
      · subst hu
        have hmap (cs : List Char) : escape ('u' :: cs) =
            (numberEscape cs).bind fun p => .ok (p.1, p.2 + 1) := by
          cases h : numberEscape cs <;> simp [escape, h, Except.map, Except.bind]
        rw [List.cons_append, hmap, hmap]
        exact (numberEscape_concat hc rest).bind fun _ _ => .same rfl
      · refine .same ?_
        rw [List.cons_append]
        unfold escape
        split <;> simp_all

/-- The text up to a closing quote. -/
theorem alike_stringBody (taken : Nat) (cs : List Char) :
    Alike c (stringBody taken cs) (stringBody taken (cs ++ [c])) := by
  induction cs generalizing taken with
  | nil =>
      have hspace : ∃ fault, stringBody taken [c] = .error fault := by
        cases taken with
        | zero => rcases Reader.eq_of_isSpace hc with rfl | rfl | rfl | rfl <;> exact ⟨_, rfl⟩
        | succ taken => exact ⟨_, rfl⟩
      obtain ⟨fault, hfault⟩ := hspace
      exact .failed rfl hfault
  | cons d rest ih =>
      cases taken with
      | succ taken => exact ih taken
      | zero =>
          rw [List.cons_append, stringBody, stringBody]
          split
          · exact .read rfl rfl (Or.inr rfl)
          · split
            · cases escape_concat hc rest with
              | failed h h' =>
                  rw [h, h']
                  exact .failed rfl rfl
              | same h =>
                  rw [← h]
                  cases escape rest with
                  | error fault => exact .failed rfl rfl
                  | ok p => exact (ih p.2).bind fun text => .pure (p.1 :: text)
            · split
              · exact .failed rfl rfl
              · exact (ih 0).bind fun text => .pure (d :: text)

omit hc in
/-- Reading to the end of a string leaves no more text than there was. -/
theorem length_le_of_stringBody {taken : Nat} {cs text rest : List Char}
    (h : stringBody taken cs = .ok (text, rest)) : rest.length ≤ cs.length := by
  induction cs generalizing taken text with
  | nil => cases taken <;> cases h
  | cons d cs ih =>
      refine Nat.le_succ_of_le ?_
      cases taken with
      | succ taken => exact ih h
      | zero =>
          rw [stringBody] at h
          split at h
          · cases h
            exact Nat.le_refl _
          · split at h
            · cases hescape : escape cs with
              | error fault =>
                  rw [hescape] at h
                  cases h
              | ok p =>
                  rw [hescape] at h
                  obtain ⟨text', rest', hbody, hpure⟩ := Reader.bind_ok (x := stringBody p.2)
                    (f := fun text => pure (p.1 :: text)) h
                  cases hpure
                  exact ih hbody
            · split at h
              · cases h
              · obtain ⟨text', rest', hbody, hpure⟩ := Reader.bind_ok (x := stringBody 0)
                  (f := fun text => pure (d :: text)) h
                cases hpure
                exact ih hbody

/-- A string. -/
theorem lenient_string : Reader.string.Lenient c :=
  have hbody : Reader.Lenient c (stringBody 0) :=
    ⟨alike_stringBody hc 0, length_le_of_stringBody⟩
  Reader.lenient_advance.bind fun _ => hbody.bind fun _ => .pure _

end Strings

/-! ## Lists -/

namespace Reader

/-- Makes sure that another element comes, after a comma. -/
def elementAfterComma : Reader Bool := do
  match ← peek? with
  | some ']' => throw .trailingComma
  | some _ => return true
  | none => throw .endsInValue

section Lists

variable (hc : isSpace c)
include hc

/-- A comma before an element is read without regard to space behind it. -/
theorem lenient_elementAfterComma : elementAfterComma.Lenient c := by
  refine (lenient_peek? hc).bind fun d? => ?_
  split
  · exact .throw _
  · exact .pure _
  · exact .throw _

/-- The start of the next element of a list is looked for past any space. -/
theorem lenient_nextElement (first : Bool) : (nextElement first).Lenient c := by
  refine (lenient_peek? hc).bind fun d? => ?_
  have hcomma := lenient_advance.bind fun _ => lenient_elementAfterComma hc
  split
  · exact .throw _
  · exact .pure _
  · split
    · exact .pure _
    · split
      · exact (Lenient.throw _).bind fun _ => hcomma
      · exact hcomma

/-- The end of a list is looked for past any space. -/
theorem lenient_closeList : closeList.Lenient c := by
  refine (lenient_peek? hc).bind fun d? => ?_
  split
  · exact lenient_advance
  · refine lenient_advance.bind fun _ => (lenient_peek? hc).bind fun d? => ?_
    split
    · exact .throw _
    · exact .throw _
  · exact .throw _
  · exact .throw _

/-- Going on to another element takes a comma. -/
theorem length_lt_of_nextElement {cs rest : List Char}
    (h : nextElement false cs = .ok (true, rest)) : rest.length < cs.length := by
  obtain ⟨d?, rest', hpeek, h⟩ := bind_ok h
  cases hpeek
  refine Nat.lt_of_lt_of_le ?_ (List.dropWhile_suffix isSpace).length_le
  cases hcs : cs.dropWhile isSpace with
  | nil =>
      rw [hcs] at h
      cases h
  | cons d cs =>
      rw [hcs] at h
      by_cases hcomma : d = ','
      · subst hcomma
        exact length_lt_of_advance (fun _ => lenient_elementAfterComma hc) h
      · by_cases hclose : d = ']'
        · subst hclose
          cases h
        · simp [hcomma] at h
          cases h

/-- The elements of a list are read leniently if each one is, by induction on how many there may
be. -/
theorem lenient_elements {read : Reader α} (hread : read.Lenient c) (bound : Nat) (first : Bool) :
    (elements read bound first).Lenient c := by
  induction bound generalizing first with
  | zero => exact .throw _
  | succ bound ih =>
      refine (lenient_nextElement hc first).bind fun more => ?_
      split
      · exact hread.bind fun a => (ih false).bind fun _ => .pure _
      · exact .pure _

/-- The length of the text is enough to read the elements that come after the first. -/
theorem elements_enough {read : Reader α} (hread : read.Lenient c) {bound : Nat} {cs : List Char}
    (h : cs.length ≤ bound) :
    elements read bound false cs = elements read (bound + 1) false cs := by
  induction bound generalizing cs with
  | zero =>
      obtain rfl : cs = [] := List.length_eq_zero_iff.mp (Nat.le_zero.mp h)
      rfl
  | succ bound ih =>
      refine bind_congr fun more rest hmore => ?_
      cases more with
      | false => rfl
      | true =>
          refine bind_congr fun a rest' hread' => ?_
          have hlt := length_lt_of_nextElement hc hmore
          have hle := hread.length_le hread'
          rw [bind_apply, bind_apply, ih (by omega)]

/-- A list is read leniently if its elements are. -/
theorem lenient_list {read : Reader α} (hread : read.Lenient c) : (list read).Lenient c := by
  refine lenient_advance.bind fun _ => .get_bind
    (f := fun n => do
      let values ← elements read (n + 1) true
      closeList
      return values) (fun n => ?_) fun cs => ?_
  · exact (lenient_elements hc hread _ _).bind fun _ => (lenient_closeList hc).bind fun _ => .pure _
  · -- the first element may take nothing, so one more step is needed than there are characters
    have henough :
        elements read (cs.length + 1) true cs = elements read (cs.length + 2) true cs := by
      refine bind_congr fun more rest hmore => ?_
      cases more with
      | false => rfl
      | true =>
          refine bind_congr fun a rest' hread' => ?_
          have hle := (lenient_nextElement hc true).length_le hmore
          have hle' := hread.length_le hread'
          rw [bind_apply, bind_apply, elements_enough hc hread (Nat.le_trans hle' hle)]
    rw [bind_apply, bind_apply, henough]

end Lists

/-! ## Objects -/

/-- Reads the key that must come after a comma. -/
def keyAfterComma : Reader (Option String) := do
  match ← peek? with
  | some '"' => return some (← string)
  | some '}' => throw .trailingComma
  | some _ => throw .keyNotString
  | none => throw .endsInValue

section Objects

variable (hc : isSpace c)
include hc

/-- A comma before a key is read without regard to space behind it. -/
theorem lenient_keyAfterComma : keyAfterComma.Lenient c := by
  refine (lenient_peek? hc).bind fun d? => ?_
  split
  · exact (lenient_string hc).bind fun _ => .pure _
  · exact .throw _
  · exact .throw _
  · exact .throw _

/-- The next key of an object is looked for past any space. -/
theorem lenient_nextKey? (first : Bool) : (nextKey? first).Lenient c := by
  refine (lenient_peek? hc).bind fun d? => ?_
  have hcomma := lenient_advance.bind fun _ => lenient_keyAfterComma hc
  split
  · exact .throw _
  · exact .pure _
  · dsimp only
    cases first with
    | true =>
        rw [if_pos rfl]
        split
        · exact (lenient_string hc).bind fun _ => .pure _
        · exact ⟨fun _ => .failed rfl rfl, fun h => by cases h⟩
    | false =>
        rw [if_neg Bool.false_ne_true]
        split
        · exact (Lenient.throw _).bind fun _ => hcomma
        · exact hcomma

/-- The colon behind a key is looked for past any space. -/
theorem lenient_colon : colon.Lenient c := by
  refine (lenient_peek? hc).bind fun d? => ?_
  split
  · exact lenient_advance
  · exact .throw _
  · exact .throw _

theorem lenient_closeObject : closeObject.Lenient c := by
  refine (lenient_peek? hc).bind fun d? => ?_
  split
  · exact lenient_advance
  · exact .throw _
  · exact .throw _
  · exact .throw _

/-- Going on to another member takes a comma. -/
theorem length_lt_of_nextKey? {cs rest : List Char} {key : String}
    (h : nextKey? false cs = .ok (some key, rest)) : rest.length < cs.length := by
  obtain ⟨d?, rest', hpeek, h⟩ := bind_ok h
  cases hpeek
  refine Nat.lt_of_lt_of_le ?_ (List.dropWhile_suffix isSpace).length_le
  cases hcs : cs.dropWhile isSpace with
  | nil =>
      rw [hcs] at h
      cases h
  | cons d cs =>
      rw [hcs] at h
      by_cases hcomma : d = ','
      · subst hcomma
        exact length_lt_of_advance (fun _ => lenient_keyAfterComma hc) h
      · by_cases hclose : d = '}'
        · subst hclose
          cases h
        · simp [hcomma] at h
          cases h

variable {member : String → σ → Reader σ} (hmember : ∀ key state, (member key state).Lenient c)
include hmember

/-- The members of an object are read leniently if each one is, by induction on how many there may
be. -/
theorem lenient_members (bound : Nat) (first : Bool) (state : σ) :
    (members member bound first state).Lenient c := by
  induction bound generalizing first state with
  | zero => exact .throw _
  | succ bound ih =>
      refine (lenient_nextKey? hc first).bind fun key? => ?_
      split
      · exact .pure _
      · exact (hmember _ _).bind fun state => ih false state

/-- The length of the text is enough to read the members that come after the first. -/
theorem members_enough {bound : Nat} {state : σ} {cs : List Char} (h : cs.length ≤ bound) :
    members member bound false state cs = members member (bound + 1) false state cs := by
  induction bound generalizing state cs with
  | zero =>
      obtain rfl : cs = [] := List.length_eq_zero_iff.mp (Nat.le_zero.mp h)
      rfl
  | succ bound ih =>
      refine bind_congr fun key? rest hkey => ?_
      cases key? with
      | none => rfl
      | some key =>
          refine bind_congr fun state' rest' hread => ?_
          have hlt := length_lt_of_nextKey? hc hkey
          have hle := (hmember key state).length_le hread
          exact ih (by omega)

/-- An object is read leniently if each of its members is. -/
theorem lenient_object (start : σ) : (object member start).Lenient c := by
  refine lenient_advance.bind fun _ => .get_bind
    (f := fun n => do
      let state ← members member (n + 1) true start
      closeObject
      return state) (fun n => ?_) fun cs => ?_
  · exact (lenient_members hc hmember _ _ _).bind fun _ =>
      (lenient_closeObject hc).bind fun _ => .pure _
  · have henough : members member (cs.length + 1) true start cs =
        members member (cs.length + 2) true start cs := by
      refine bind_congr fun key? rest hkey => ?_
      cases key? with
      | none => rfl
      | some key =>
          refine bind_congr fun state rest' hread => ?_
          have hle := (lenient_nextKey? hc true).length_le hkey
          have hle' := (hmember key start).length_le hread
          exact members_enough hc hmember (Nat.le_trans hle' hle)
    rw [bind_apply, bind_apply, henough]

end Objects

end Reader

end StreamWatch.Json
