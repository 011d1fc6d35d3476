import StreamWatch.Proofs.Json.Presentation.Grammar

/-!
# Numbers and strings, whatever follows them

A number or a string is read alike whatever follows it, be it white space, punctuation or the end of
the text. A reader is `Constant` on a text if that is so.
-/

namespace StreamWatch.Json

variable {α β : Type}

namespace Reader

/-- The reader reads the value from the text and leaves what follows. -/
def Reads (read : Reader α) (text : List Char) (a : α) : Prop :=
  ∀ ⦃rest⦄, Ends rest → read (text ++ rest) = .ok (a, rest)

/-- What follows the text makes no difference to what is read from it, nor to what is wrong with
it. -/
def Constant (read : Reader α) (text : List Char) : Prop :=
  ∃ result : Except Fault α, ∀ {rest}, Ends rest →
    read (text ++ rest) = result.map fun a => (a, rest)

/-- A reader does the same on a text as another one on what it takes that text for. -/
theorem Constant.of_eq {read : Reader α} {read' : Reader α} {text text' : List Char}
    (h : read'.Constant text')
    (heq : ∀ {rest}, Ends rest → read (text ++ rest) = read' (text' ++ rest)) :
    read.Constant text := by
  obtain ⟨result, hresult⟩ := h
  exact ⟨result, fun hrest => (heq hrest).trans (hresult hrest)⟩

end Reader

open Reader

/-! ## Digits -/

section Digits

variable {ds rest : List Char}

/-- Where no digit comes first, none is dropped. -/
theorem dropWhile_of_not_digit (h : startsWithDigit rest = false) :
    rest.dropWhile Char.isDigit = rest := by
  cases rest with
  | nil => rfl
  | cons c rest =>
      have hc : c.isDigit = false := h
      rw [List.dropWhile_cons, hc]
      rfl

/-- Digits are dropped up to where they end. -/
theorem dropWhile_digits (hds : ∀ d ∈ ds, d.isDigit) (h : startsWithDigit rest = false) :
    (ds ++ rest).dropWhile Char.isDigit = rest := by
  rw [List.dropWhile_append_of_pos hds, dropWhile_of_not_digit h]

/-- Digits before a text make it start with a digit, unless there are none. -/
theorem startsWithDigit_digits (hds : ∀ d ∈ ds, d.isDigit) (h : startsWithDigit rest = false) :
    startsWithDigit (ds ++ rest) = !ds.isEmpty := by
  cases ds with
  | nil => exact h
  | cons d ds => exact hds d List.mem_cons_self

/-- Digits are taken alike whatever follows them. -/
theorem takeDigits_append (limit n taken : Nat) (h : startsWithDigit rest = false) :
    takeDigits limit n taken (ds ++ rest) =
      ((takeDigits limit n taken ds).1, (takeDigits limit n taken ds).2.1,
        (takeDigits limit n taken ds).2.2 ++ rest) := by
  fun_induction takeDigits limit n taken ds with
  | case1 n taken => simp [takeDigits_of_not_digit h]
  | case2 n taken d ds digit hdigit hlimit => simp [takeDigits, hdigit, hlimit]
  | case3 n taken d ds digit hdigit hlimit ih => simp [takeDigits, hdigit, hlimit, ih]
  | case4 n taken d ds hdigit => simp [takeDigits, hdigit]

/-- What is left over of digits is digits. -/
theorem isDigit_of_mem_takeDigits (limit n taken : Nat) (hds : ∀ d ∈ ds, d.isDigit) :
    ∀ d ∈ (takeDigits limit n taken ds).2.2, d.isDigit := by
  fun_induction takeDigits limit n taken ds with
  | case1 => exact hds
  | case2 => exact hds
  | case3 n taken d ds digit hdigit hlimit ih =>
      exact ih fun d hd => hds d (List.mem_cons_of_mem _ hd)
  | case4 => exact hds

/-- The count of digits taken does not go down. -/
theorem le_taken (limit n taken : Nat) (cs : List Char) :
    taken ≤ (takeDigits limit n taken cs).2.1 := by
  fun_induction takeDigits limit n taken cs with
  | case1 => exact Nat.le_refl _
  | case2 => exact Nat.le_refl _
  | case3 n taken d ds digit hdigit hlimit ih => exact Nat.le_of_succ_le ih
  | case4 => exact Nat.le_refl _

/-- Digits that are all taken are counted. -/
theorem taken_ne_zero {limit n : Nat} {d : Char} {ds : List Char} (hdigit : d.isDigit)
    (h : (takeDigits limit n 0 (d :: ds)).2.2 = []) : (takeDigits limit n 0 (d :: ds)).2.1 ≠ 0 := by
  have hvalue : digit? d = some (d.toNat - '0'.toNat) := if_pos hdigit
  rw [takeDigits, hvalue] at h ⊢
  dsimp only at h ⊢
  split at h
  · cases h
  · next hlimit =>
      rw [if_neg hlimit]
      exact Nat.ne_of_gt (le_taken _ _ 1 _)

end Digits

/-! ## Numbers -/

section Numbers

variable (negative : Bool) (n : Nat) {ds fraction exponent : List Char}

/-- What may follow a value is neither a point nor an exponent. -/
theorem Ends.ne_exponent {c : Char} {rest : List Char} (h : Ends (c :: rest)) :
    c ≠ '.' ∧ ¬ (c = 'e' ∨ c = 'E') := by
  rcases h c rfl with hc | hc
  · obtain ⟨-, -, hpoint, he, hE⟩ := ne_of_isSpace hc
    exact ⟨hpoint, by simp [he, hE]⟩
  · simp only [List.mem_cons, List.not_mem_nil, or_false] at hc
    rcases hc with rfl | rfl | rfl | rfl <;> decide

theorem constant_scaled (start : Int) :
    Constant (fun cs => do return (← scaled negative n start, cs)) [] := by
  refine ⟨scaled negative n start, fun {rest} _ => ?_⟩
  rw [List.nil_append]
  cases scaled negative n start <;> rfl

/-- The digits of an exponent are read in the same way whatever follows them. -/
theorem constant_exponentDigits (start : Int) (down : Bool) (hds : IsDigits ds) :
    Constant (exponentDigits negative n start down) ds := by
  obtain ⟨d, ds, rfl⟩ := List.exists_cons_of_ne_nil hds.ne_nil
  have hd : d.isDigit := hds.isDigit d List.mem_cons_self
  obtain ⟨left, hleft⟩ : ∃ left, (takeDigits exponentLimit 0 0 (d :: ds)).2.2 = left := ⟨_, rfl⟩
  have hdigits : ∀ c ∈ left, c.isDigit := hleft ▸ isDigit_of_mem_takeDigits _ _ _ hds.isDigit
  have hread {rest : List Char} (hrest : Ends rest) :
      exponentDigits negative n start down (d :: ds ++ rest) =
        if !left.isEmpty then
          if n ≠ 0 ∧ !down then .error .numberOutOfRange
          else .ok (.real (.finite negative .zero), rest)
        else do
          let number ← scaled negative n
            (if down then start - (takeDigits exponentLimit 0 0 (d :: ds)).1
            else start + (takeDigits exponentLimit 0 0 (d :: ds)).1)
          return (number, left ++ rest) := by
    rw [exponentDigits.eq_def]
    simp only [List.cons_append, hd, Bool.not_true, Bool.false_eq_true, if_false]
    rw [← List.cons_append, takeDigits_append _ _ _ hrest.not_digit]
    dsimp only
    rw [hleft, startsWithDigit_digits hdigits hrest.not_digit,
      dropWhile_digits hdigits hrest.not_digit]
  cases left with
  | nil => exact (constant_scaled negative n _).of_eq hread
  | cons c left =>
      have hmore : (!(c :: left).isEmpty) = true := rfl
      by_cases hrange : n ≠ 0 ∧ !down
      · refine ⟨.error .numberOutOfRange, fun hrest => ?_⟩
        rw [hread hrest, if_pos hmore, if_pos hrange]
        rfl
      · refine ⟨.ok (.real (.finite negative .zero)), fun hrest => ?_⟩
        rw [hread hrest, if_pos hmore, if_neg hrange]
        rfl

/-- A sign before the digits of an exponent is part of it. -/
theorem constant_exponentPart (start : Int) {sign : List Char}
    (hsign : sign = [] ∨ sign = ['+'] ∨ sign = ['-']) (hds : IsDigits ds) :
    Constant (exponentPart negative n start) (sign ++ ds) := by
  rcases hsign with rfl | rfl | rfl
  · refine (constant_exponentDigits negative n start false hds).of_eq fun {rest} _ => ?_
    obtain ⟨d, ds, rfl⟩ := List.exists_cons_of_ne_nil hds.ne_nil
    have hd : d.isDigit := hds.isDigit d List.mem_cons_self
    have hsign : exponentSign (d :: (ds ++ rest)) = (false, d :: (ds ++ rest)) := by
      unfold exponentSign
      split
      · next heq =>
          cases heq
          cases hd
      · next heq =>
          cases heq
          cases hd
      · rfl
    rw [exponentPart_eq, List.nil_append, List.cons_append, hsign]
  · exact (constant_exponentDigits negative n start false hds).of_eq fun _ => rfl
  · exact (constant_exponentDigits negative n start true hds).of_eq fun _ => rfl

/-- An exponent is read in the same way whatever follows, or found missing. -/
theorem constant_maybeExponent (start : Int) (h : IsExponent exponent) :
    Constant (maybeExponent negative n start) exponent := by
  cases h with
  | none =>
      refine (constant_scaled negative n start).of_eq fun {rest} hrest => ?_
      cases rest with
      | nil => rfl
      | cons c rest => rw [List.nil_append, maybeExponent_cons, if_neg hrest.ne_exponent.2]
  | digits he hsign hds =>
      refine (constant_exponentPart negative n start hsign hds).of_eq fun {rest} _ => ?_
      rw [List.cons_append, maybeExponent_cons, if_pos he]

/-- An exponent does not go on with a digit. -/
theorem IsExponent.not_digit (h : IsExponent exponent) {rest : List Char} (hrest : Ends rest) :
    startsWithDigit (exponent ++ rest) = false := by
  cases h with
  | none => exact hrest.not_digit
  | digits he _ _ => rcases he with rfl | rfl <;> rfl

/-- The digits of a fraction and an exponent are read in the same way whatever follows. -/
theorem constant_fractionPart (start : Int) (hds : IsDigits ds) (h : IsExponent exponent) :
    Constant (fractionPart negative n start) (ds ++ exponent) := by
  have hdigits := isDigit_of_mem_takeDigits significandLimit n 0 hds.isDigit
  refine (constant_maybeExponent negative (takeDigits significandLimit n 0 ds).1
    (start - (takeDigits significandLimit n 0 ds).2.1) h).of_eq fun {rest} hrest => ?_
  have htail := h.not_digit hrest
  rw [fractionPart, List.append_assoc, takeDigits_append _ _ _ htail]
  dsimp only
  rw [startsWithDigit_digits hdigits htail, dropWhile_digits hdigits htail]
  cases hleft : (takeDigits significandLimit n 0 ds).2.2 with
  | nil =>
      obtain ⟨d, ds, rfl⟩ := List.exists_cons_of_ne_nil hds.ne_nil
      have htaken := taken_ne_zero (hds.isDigit d List.mem_cons_self) hleft
      rw [if_neg (by simp), if_neg htaken]
      rfl
  | cons c left => rw [if_pos (by simp)]

/-- What follows the digits of an integer is read in the same way whatever follows it. -/
theorem constant_afterDigits (hfraction : IsFraction fraction) (h : IsExponent exponent) :
    Constant (afterDigits negative n) (fraction ++ exponent) := by
  cases hfraction with
  | digits hds => exact (constant_fractionPart negative n 0 hds h).of_eq fun _ => rfl
  | none =>
      rw [List.nil_append]
      cases h with
      | none =>
          refine ⟨.ok (wholeNumber negative n), fun {rest} hrest => ?_⟩
          cases rest with
          | nil => rfl
          | cons c rest =>
              rw [List.nil_append, afterDigits_cons, if_neg hrest.ne_exponent.1,
                if_neg hrest.ne_exponent.2]
              rfl
      | @digits e sign ds he hsign hds =>
          refine (constant_exponentPart negative n 0 hsign hds).of_eq fun {rest} _ => ?_
          have hpoint : e ≠ '.' := by rcases he with rfl | rfl <;> decide
          rw [List.cons_append, afterDigits_cons, if_neg hpoint, if_pos he]

/-- An exponent has no point. -/
theorem IsExponent.ne_point (h : IsExponent exponent) {c : Char} {rest tail : List Char}
    (hrest : Ends rest) (htext : exponent ++ rest = c :: tail) : c ≠ '.' := by
  cases h with
  | none =>
      rw [List.nil_append] at htext
      rw [htext] at hrest
      exact hrest.ne_exponent.1
  | digits he _ _ =>
      cases htext
      rcases he with rfl | rfl <;> decide

/-- A fraction or an exponent behind digits that no longer count is read in the same way as well. -/
theorem constant_pointOrExponent (start : Int) (hfraction : IsFraction fraction)
    (h : IsExponent exponent) :
    Constant (pointOrExponent negative n start) (fraction ++ exponent) := by
  cases hfraction with
  | digits hds => exact (constant_fractionPart negative n start hds h).of_eq fun _ => rfl
  | none =>
      refine (constant_maybeExponent negative n start h).of_eq fun {rest} hrest => ?_
      rw [List.nil_append]
      cases htext : exponent ++ rest with
      | nil => rfl
      | cons c tail =>
          rw [pointOrExponent_cons, if_neg (h.ne_point hrest htext)]

/-- Neither a fraction nor an exponent goes on with a digit. -/
theorem IsFraction.not_digit (hfraction : IsFraction fraction) (h : IsExponent exponent)
    {rest : List Char} (hrest : Ends rest) :
    startsWithDigit (fraction ++ exponent ++ rest) = false := by
  cases hfraction with
  | none => exact h.not_digit hrest
  | digits _ => rfl

/-- A number without its sign is read in the same way whatever follows it. -/
theorem constant_unsignedNumber {whole : List Char} (hwhole : IsDigits whole)
    (hzero : whole.head? = some '0' → whole = ['0']) (hfraction : IsFraction fraction)
    (h : IsExponent exponent) :
    Constant (unsignedNumber negative) (whole ++ (fraction ++ exponent)) := by
  obtain ⟨d, ds, rfl⟩ := List.exists_cons_of_ne_nil hwhole.ne_nil
  by_cases hd : d = '0'
  · subst hd
    obtain rfl : ds = [] := (List.cons.inj (hzero rfl)).2
    refine (constant_afterDigits negative 0 hfraction h).of_eq fun hrest => ?_
    rw [List.append_assoc, List.cons_append, List.nil_append, unsignedNumber_cons, if_pos rfl,
      hfraction.not_digit h hrest, if_neg (by decide)]
  · have hdigit := hwhole.isDigit d List.mem_cons_self
    have hdigits := isDigit_of_mem_takeDigits significandLimit 0 0 hwhole.isDigit
    obtain ⟨left, hleft⟩ : ∃ left, (takeDigits significandLimit 0 0 (d :: ds)).2.2 = left :=
      ⟨_, rfl⟩
    rw [hleft] at hdigits
    obtain ⟨significand, hsignificand⟩ :
        ∃ significand, (takeDigits significandLimit 0 0 (d :: ds)).1 = significand := ⟨_, rfl⟩
    have hread {rest : List Char} (hrest : Ends rest) :
        unsignedNumber negative (d :: ds ++ (fraction ++ exponent) ++ rest) =
          if !left.isEmpty then
            pointOrExponent negative significand left.length (fraction ++ exponent ++ rest)
          else afterDigits negative significand (fraction ++ exponent ++ rest) := by
      have htail := hfraction.not_digit h hrest
      rw [List.append_assoc, List.cons_append, unsignedNumber_cons, if_neg hd, hdigit,
        ← List.cons_append, takeDigits_append _ _ _ htail]
      simp only [Bool.not_true, Bool.false_eq_true, if_false]
      rw [hleft, hsignificand, startsWithDigit_digits hdigits htail, afterLongDigits_eq,
        dropWhile_digits hdigits htail]
      have hlength : ((left ++ (fraction ++ exponent ++ rest)).length : Int) -
          (fraction ++ exponent ++ rest).length = left.length := by
        rw [List.length_append]
        omega
      rw [hlength]
      cases left <;> rfl
    cases left with
    | nil => exact (constant_afterDigits negative significand hfraction h).of_eq hread
    | cons c left =>
        exact (constant_pointOrExponent negative significand _ hfraction h).of_eq hread

/-- A number is read alike whatever follows it. -/
theorem constant_number {text : List Char} (h : IsNumber text) : Constant Reader.number text := by
  cases h with
  | @parts negative whole fraction exponent hwhole hzero hfraction hexponent =>
      refine (constant_unsignedNumber negative hwhole hzero hfraction hexponent).of_eq
        fun {rest} _ => ?_
      cases negative with
      | true => rfl
      | false =>
          obtain ⟨d, ds, rfl⟩ := List.exists_cons_of_ne_nil hwhole.ne_nil
          have hne : d ≠ '-' := by
            rintro rfl
            cases hwhole.isDigit '-' List.mem_cons_self
          rw [if_neg (by decide), List.nil_append, List.append_assoc, List.cons_append, number_cons,
            if_neg hne]

end Numbers

/-! ## Strings -/

section Strings

variable {a b d e : Char} {cs text : List Char}

/-- A letter after a backslash stands for one character. -/
theorem exists_escape {c : Char} (hc : c ∈ ['"', '\\', '/', 'b', 'f', 'n', 'r', 't']) :
    ∃ d, ∀ tail, escape (c :: tail) = .ok (d, 1) := by
  simp only [List.mem_cons, List.not_mem_nil, or_false] at hc
  rcases hc with rfl | rfl | rfl | rfl | rfl | rfl | rfl | rfl <;> exact ⟨_, fun _ => rfl⟩

/-- Four hexadecimal digits are a number. -/
theorem exists_hexQuad (hdigits : ∀ c ∈ [a, b, d, e], (Hex.value? c).isSome) :
    ∃ n, ∀ tail, hexQuad (a :: b :: d :: e :: tail) = .ok n := by
  have hvalue {c : Char} (hc : c ∈ [a, b, d, e]) : ∃ k, Hex.value? c = some k :=
    Option.isSome_iff_exists.mp (hdigits c hc)
  obtain ⟨ka, hka⟩ := hvalue (c := a) (by simp)
  obtain ⟨kb, hkb⟩ := hvalue (c := b) (by simp)
  obtain ⟨kd, hkd⟩ := hvalue (c := d) (by simp)
  obtain ⟨ke, hke⟩ := hvalue (c := e) (by simp)
  have hread : ∃ n, Hex.read? 0 [a, b, d, e] = some n := by simp [Hex.read?, hka, hkb, hkd, hke]
  obtain ⟨n, hn⟩ := hread
  refine ⟨n, fun tail => ?_⟩
  have hsize : ¬ ((a :: b :: d :: e :: tail).take 4).foldl
      (fun size c => size + c.utf8Size) 0 < 4 := by
    have ha := a.utf8Size_pos
    have hb := b.utf8Size_pos
    have hd := d.utf8Size_pos
    have he := e.utf8Size_pos
    simp only [List.take_succ_cons, List.take_zero, List.foldl_cons, List.foldl_nil]
    omega
  rw [hexQuad, if_neg hsize]
  simp only [hn]

/-- A fault in an escape is a fault in its string. -/
theorem stringBody_of_escape_error {fault : Fault} (h : escape cs = .error fault) :
    stringBody 0 ('\\' :: cs) = .error fault := by
  rw [stringBody, if_neg (by decide), if_pos rfl, h]
  rfl

/-- What is read up to the closing quote, whatever follows that. -/
def Closes (text : List Char) : Prop :=
  ∃ result : Except Fault (List Char), ∀ rest,
    stringBody 0 (text ++ '"' :: rest) = result.map fun s => (s, rest)

/-- An escape goes before what is read up to the closing quote. -/
theorem Closes.escape (h : Closes cs) (escaped : List Char) {c : Char}
    (hescape : ∀ tail, Json.escape (escaped ++ tail) = .ok (c, escaped.length)) :
    Closes ('\\' :: (escaped ++ cs)) := by
  obtain ⟨result, hresult⟩ := h
  refine ⟨result.map (c :: ·), fun rest => ?_⟩
  rw [List.cons_append, List.append_assoc, stringBody_escape (hescape _), hresult]
  cases result <;> rfl

/-- A fault in an escape is found before the closing quote. -/
theorem Closes.of_error (fault : Fault)
    (h : ∀ rest, Json.escape (cs ++ '"' :: rest) = .error fault) : Closes ('\\' :: cs) :=
  ⟨.error fault, fun rest => stringBody_of_escape_error (h rest)⟩

/-- The second half of a surrogate pair, after the digits of the first. -/
def secondHalf (high : Nat) (tail : List Char) : Except Fault (Char × Nat) :=
  match tail with
  | [] => .error .endsInString
  | '\\' :: [] => .error .endsInString
  | '\\' :: 'u' :: rest => do
    let low ← hexQuad rest
    if closesPair low then return (joinPair high low, 10) else throw .loneSurrogate
  | _ => .error .cutSurrogatePair

/-- A second half starts with a backslash. -/
theorem secondHalf_of_ne {c : Char} (hc : c ≠ '\\') (high : Nat) (tail : List Char) :
    secondHalf high (c :: tail) = .error .cutSurrogatePair := by
  simp [secondHalf, hc]

theorem secondHalf_letter {c : Char} (hc : c ≠ 'u') (high : Nat) (tail : List Char) :
    secondHalf high ('\\' :: c :: tail) = .error .cutSurrogatePair := by
  simp [secondHalf, hc]

/-- A second half has to close the pair. -/
theorem secondHalf_unicode {n : Nat} (hn : ∀ tail, hexQuad (a :: b :: d :: e :: tail) = .ok n)
    (high : Nat) (tail : List Char) :
    secondHalf high ('\\' :: 'u' :: a :: b :: d :: e :: tail) =
      if closesPair n then .ok (joinPair high n, 10) else .error .loneSurrogate := by
  rw [secondHalf, hn]
  rfl

/-- The escape of a number stands for a character of its own or for the first half of a pair. -/
theorem numberEscape_eq {n : Nat} (hn : ∀ tail, hexQuad (a :: b :: d :: e :: tail) = .ok n)
    (tail : List Char) :
    numberEscape (a :: b :: d :: e :: tail) =
      if closesPair n then .error .loneSurrogate
      else if !opensPair n then .ok (Char.ofNat n, 4)
      else secondHalf n tail := by
  rw [numberEscape, hn]
  rfl

/-- The escape of a number takes one character more than its digits do. -/
theorem escape_unicode (tail : List Char) :
    Json.escape ('u' :: tail) = (numberEscape tail).map fun p => (p.1, p.2 + 1) := rfl

/-- What stands between quotes is read alike whatever follows them. -/
theorem closes_of_isStringText (h : IsStringText text) : Closes text := by
  -- a surrogate pair is two escapes, so the induction is on the length
  induction hlength : text.length using Nat.strong_induction_on generalizing text with
  | _ length ih =>
      subst hlength
      cases h with
      | nil => exact ⟨.ok [], fun _ => rfl⟩
      | @plain c cs hquote hbackslash hcontrol h =>
          obtain ⟨result, hresult⟩ := ih _ (Nat.lt_succ_self _) h rfl
          refine ⟨result.map (c :: ·), fun rest => ?_⟩
          rw [List.cons_append, stringBody_plain hquote hbackslash hcontrol, hresult]
          cases result <;> rfl
      | @letter c cs hc h =>
          obtain ⟨d, hd⟩ := exists_escape hc
          exact (ih _ (by simp only [List.length_cons]; omega) h rfl).escape [c] hd
      | @unicode a b d e cs hdigits h =>
          obtain ⟨n, hn⟩ := exists_hexQuad hdigits
          have hescape (tail : List Char) := (escape_unicode (a :: b :: d :: e :: tail)).trans
            (congrArg _ (numberEscape_eq hn tail))
          cases hcloses : closesPair n with
          | true =>
              simp only [hcloses, if_true] at hescape
              exact .of_error .loneSurrogate fun rest => hescape _
          | false =>
              cases hopens : opensPair n with
              | false =>
                  simp only [hcloses, hopens] at hescape
                  exact (ih _ (by simp; omega) h rfl).escape ['u', a, b, d, e] hescape
              | true =>
                  -- the second half of a pair must follow
                  simp only [hcloses, hopens, Bool.not_true, Bool.false_eq_true, if_false]
                    at hescape
                  have hfails {cs : List Char} (fault : Fault)
                      (h : ∀ rest, secondHalf n (cs ++ '"' :: rest) = .error fault) :
                      Closes ('\\' :: 'u' :: a :: b :: d :: e :: cs) :=
                    .of_error fault fun rest => (hescape _).trans (congrArg (Except.map _) (h rest))
                  cases h with
                  | nil => exact hfails .cutSurrogatePair fun rest => rfl
                  | plain hquote hbackslash hcontrol _ =>
                      exact hfails .cutSurrogatePair fun rest => secondHalf_of_ne hbackslash n _
                  | @letter c cs hc h =>
                      have hne : c ≠ 'u' := by
                        rintro rfl
                        revert hc
                        decide
                      exact hfails .cutSurrogatePair fun rest => secondHalf_letter hne n _
                  | @unicode a' b' d' e' cs hdigits' h =>
                      obtain ⟨low, hlow⟩ := exists_hexQuad hdigits'
                      have hsecond := secondHalf_unicode hlow n
                      cases hpair : closesPair low with
                      | true =>
                          simp only [hpair, if_true] at hsecond
                          exact (ih _ (by simp; omega) h rfl).escape
                            ['u', a, b, d, e, '\\', 'u', a', b', d', e'] fun tail =>
                              (hescape _).trans (congrArg (Except.map _) (hsecond tail))
                      | false =>
                          simp only [hpair] at hsecond
                          exact hfails .loneSurrogate fun rest => hsecond _

/-- A string is read up to its closing quote. -/
theorem string_quoted (text rest : List Char) :
    Reader.string (quoted text ++ rest) =
      (stringBody 0 (text ++ '"' :: rest)).map fun read => (String.ofList read.1, read.2) := by
  have hstring : Reader.string (quoted text ++ rest) =
      (stringBody 0 (text ++ '"' :: rest)).bind fun read =>
        .ok (String.ofList read.1, read.2) := by
    rw [quoted, List.cons_append, List.append_assoc]
    rfl
  rw [hstring]
  cases stringBody 0 (text ++ '"' :: rest) <;> rfl

/-- A string is read alike whatever follows it. -/
theorem constant_string (h : IsStringText text) : Constant Reader.string (quoted text) := by
  obtain ⟨result, hresult⟩ := closes_of_isStringText h
  refine ⟨result.map String.ofList, fun {rest} _ => ?_⟩
  rw [string_quoted, hresult]
  cases result <;> rfl

/-- The string that stands between the quotes, if what stands there is one. -/
def spelled? (text : List Char) : Option String :=
  match Reader.string (quoted text) with
  | .ok (s, _) => some s
  | .error _ => none

/-- A string is read as what its text spells. -/
theorem string_quoted_eq_ok_iff (h : IsStringText text) {rest r : List Char} {s : String} :
    Reader.string (quoted text ++ rest) = .ok (s, r) ↔ r = rest ∧ spelled? text = some s := by
  obtain ⟨result, hresult⟩ := closes_of_isStringText h
  have hread (rest : List Char) : Reader.string (quoted text ++ rest) =
      result.map fun cs => (String.ofList cs, rest) := by
    rw [string_quoted, hresult]
    cases result <;> rfl
  have hspelled : spelled? text = (result.map String.ofList).toOption := by
    have hquoted := hread []
    rw [List.append_nil] at hquoted
    rw [spelled?, hquoted]
    cases result <;> rfl
  rw [hread, hspelled]
  cases result with
  | error fault => simp [Except.map, Except.toOption]
  | ok cs => simp [Except.map, Except.toOption, and_comm, eq_comm]

end Strings

end StreamWatch.Json
