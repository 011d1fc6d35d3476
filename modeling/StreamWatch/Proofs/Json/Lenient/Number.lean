import StreamWatch.Json.Number
import StreamWatch.Proofs.Json.Lenient.Reader

/-!
# Numbers before white space

White space is no digit, no point and no letter of an exponent, so a number ends before it.
-/

namespace StreamWatch.Json

variable {c : Char}

/-! ## Digits -/

/-- Taking digits leaves no more text than there was. -/
theorem length_takeDigits_le (limit n taken : Nat) (cs : List Char) :
    (takeDigits limit n taken cs).2.2.length ≤ cs.length := by
  fun_induction takeDigits limit n taken cs with
  | case1 => exact Nat.le_refl _
  | case2 => exact Nat.le_refl _
  | case3 n taken d rest digit hdigit hlimit ih => exact Nat.le_succ_of_le ih
  | case4 => exact Nat.le_refl _

theorem length_dropWhile_le (p : Char → Bool) (cs : List Char) :
    (cs.dropWhile p).length ≤ cs.length :=
  (List.dropWhile_suffix p).length_le

section Digits

variable (hc : isSpace c)
include hc

theorem isDigit_of_isSpace : c.isDigit = false := by
  rcases Reader.eq_of_isSpace hc with rfl | rfl | rfl | rfl <;> rfl

/-- Digits are taken up to the space, which is left with the rest. -/
theorem takeDigits_concat (limit n taken : Nat) (cs : List Char) :
    takeDigits limit n taken (cs ++ [c]) =
      ((takeDigits limit n taken cs).1, (takeDigits limit n taken cs).2.1,
        (takeDigits limit n taken cs).2.2 ++ [c]) := by
  have hdigit : digit? c = none := by simp [digit?, isDigit_of_isSpace hc]
  fun_induction takeDigits limit n taken cs with
  | case1 n taken => simp [takeDigits, hdigit]
  | case2 n taken d rest digit h hlimit => simp [takeDigits, h, hlimit]
  | case3 n taken d rest digit h hlimit ih => simp [takeDigits, h, hlimit, ih]
  | case4 n taken d rest h => simp [takeDigits, h]

/-- Whether a text starts with a digit is not decided by space at its end. -/
theorem startsWithDigit_concat (cs : List Char) :
    startsWithDigit (cs ++ [c]) = startsWithDigit cs := by
  cases cs with
  | nil => simp [startsWithDigit, isDigit_of_isSpace hc]
  | cons d rest => rfl

/-- Digits are dropped up to the space, which is left with the rest. -/
theorem dropWhile_isDigit_concat (cs : List Char) :
    (cs ++ [c]).dropWhile Char.isDigit = cs.dropWhile Char.isDigit ++ [c] := by
  induction cs with
  | nil => simp [isDigit_of_isSpace hc]
  | cons d rest ih =>
      rw [List.cons_append, List.dropWhile_cons, List.dropWhile_cons]
      split
      · exact ih
      · rfl

end Digits

/-! ## Exponents -/

/-- The sign of an exponent, and what follows it. -/
def exponentSign (cs : List Char) : Bool × List Char :=
  match cs with
  | '+' :: rest => (false, rest)
  | '-' :: rest => (true, rest)
  | _ => (false, cs)

/-- The digits of an exponent. -/
def exponentDigits (negative : Bool) (significand : Nat) (start : Int) (down : Bool)
    (cs : List Char) : Except Fault (Number × List Char) :=
  match cs with
  | [] => .error .endsInValue
  | d :: _ =>
    if !d.isDigit then .error .invalidNumber
    else
      let (exponent, _, rest) := takeDigits exponentLimit 0 0 cs
      if startsWithDigit rest then
        if significand ≠ 0 ∧ !down then .error .numberOutOfRange
        else .ok (.real (.finite negative .zero), rest.dropWhile Char.isDigit)
      else do
        let number ←
          scaled negative significand (if down then start - exponent else start + exponent)
        return (number, rest)

/-- An exponent is a sign and digits. -/
theorem exponentPart_eq (negative : Bool) (significand : Nat) (start : Int) (cs : List Char) :
    exponentPart negative significand start cs =
      exponentDigits negative significand start (exponentSign cs).1 (exponentSign cs).2 := rfl

/-- Reading the sign of an exponent leaves no more text than there was. -/
theorem length_exponentSign_le (cs : List Char) : (exponentSign cs).2.length ≤ cs.length := by
  unfold exponentSign
  split
  · exact Nat.le_succ _
  · exact Nat.le_succ _
  · exact Nat.le_refl _

section Exponents

variable (hc : isSpace c) (negative : Bool) (significand : Nat)
include hc

omit negative significand in
/-- The sign of an exponent is not decided by space at the end of the text. -/
theorem exponentSign_concat (cs : List Char) :
    exponentSign (cs ++ [c]) = ((exponentSign cs).1, (exponentSign cs).2 ++ [c]) := by
  match cs with
  | [] => rcases Reader.eq_of_isSpace hc with rfl | rfl | rfl | rfl <;> rfl
  | d :: rest =>
    unfold exponentSign
    split <;> simp_all

omit hc in
/-- A number that is computed from its digits. -/
theorem lenient_scaled (exponent : Int) :
    Reader.Lenient c fun cs => do return (← scaled negative significand exponent, cs) := by
  cases h : scaled negative significand exponent with
  | error fault => exact .throw _
  | ok number => exact .pure number

/-- The digits of an exponent end before the space, whether or not there are any. -/
theorem lenient_exponentDigits (start : Int) (down : Bool) :
    Reader.Lenient c (exponentDigits negative significand start down) where
  alike cs := by
    cases cs with
    | nil =>
        have hspace : exponentDigits negative significand start down [c] =
            .error .invalidNumber := by simp [exponentDigits, isDigit_of_isSpace hc]
        exact .failed rfl hspace
    | cons d rest =>
        simp only [exponentDigits, List.cons_append]
        rw [← List.cons_append, takeDigits_concat hc]
        dsimp only
        rw [startsWithDigit_concat hc, dropWhile_isDigit_concat hc]
        split
        · exact .failed rfl rfl
        · split
          · split
            · exact .failed rfl rfl
            · exact .read rfl rfl (Or.inr rfl)
          · exact (lenient_scaled _ _ _).alike _
  length_le {cs a rest} h := by
    have htake := length_takeDigits_le exponentLimit 0 0 cs
    unfold exponentDigits at h
    split at h
    · cases h
    · split at h
      · cases h
      · dsimp only at h
        split at h
        · split at h
          · cases h
          · cases h
            exact Nat.le_trans (length_dropWhile_le _ _) htake
        · exact Nat.le_trans ((lenient_scaled (c := c) _ _ _).length_le h) htake

/-- An exponent is read leniently, being a sign and digits. -/
theorem lenient_exponentPart (start : Int) :
    Reader.Lenient c (exponentPart negative significand start) where
  alike cs := by
    rw [exponentPart_eq, exponentPart_eq, exponentSign_concat hc]
    exact (lenient_exponentDigits hc negative significand start _).alike _
  length_le {cs _ _} h :=
    Nat.le_trans ((lenient_exponentDigits hc negative significand start _).length_le h)
      (length_exponentSign_le cs)

end Exponents

/-! ## Numbers -/

section Numbers

variable (negative : Bool) (significand : Nat)

/-- An exponent follows one of two letters. -/
theorem maybeExponent_cons (exponent : Int) (d : Char) (rest : List Char) :
    maybeExponent negative significand exponent (d :: rest) =
      if d = 'e' ∨ d = 'E' then exponentPart negative significand exponent rest
      else do return (← scaled negative significand exponent, d :: rest) := by
  unfold maybeExponent
  by_cases he : d = 'e'
  · subst he
    rfl
  · by_cases hE : d = 'E'
    · subst hE
      rfl
    · simp [he, hE]

/-- What may follow digits that are left out. -/
def pointOrExponent (exponent : Int) (cs : List Char) : Except Fault (Number × List Char) :=
  match cs with
  | '.' :: rest => fractionPart negative significand exponent rest
  | _ => maybeExponent negative significand exponent cs

/-- A fraction follows a point. -/
theorem pointOrExponent_cons (exponent : Int) (d : Char) (rest : List Char) :
    pointOrExponent negative significand exponent (d :: rest) =
      if d = '.' then fractionPart negative significand exponent rest
      else maybeExponent negative significand exponent (d :: rest) := by
  by_cases hpoint : d = '.'
  · subst hpoint
    rfl
  · simp [pointOrExponent, hpoint]

/-- The digits that are left out raise the exponent. -/
theorem afterLongDigits_eq (cs : List Char) :
    afterLongDigits negative significand cs =
      pointOrExponent negative significand (cs.length - (cs.dropWhile Char.isDigit).length : Int)
        (cs.dropWhile Char.isDigit) := rfl

/-- A fraction follows a point, an exponent one of two letters. -/
theorem afterDigits_cons (d : Char) (rest : List Char) :
    afterDigits negative significand (d :: rest) =
      if d = '.' then fractionPart negative significand 0 rest
      else if d = 'e' ∨ d = 'E' then exponentPart negative significand 0 rest
      else .ok (wholeNumber negative significand, d :: rest) := by
  unfold afterDigits
  by_cases hpoint : d = '.'
  · subst hpoint
    rfl
  · by_cases he : d = 'e'
    · subst he
      rfl
    · by_cases hE : d = 'E'
      · subst hE
        rfl
      · simp [hpoint, he, hE]

/-- A zero is followed by no digit. -/
theorem unsignedNumber_cons (d : Char) (rest : List Char) :
    unsignedNumber negative (d :: rest) =
      if d = '0' then
        if startsWithDigit rest then .error .invalidNumber else afterDigits negative 0 rest
      else if !d.isDigit then .error .invalidNumber
      else
        let (significand, _, rest) := takeDigits significandLimit 0 0 (d :: rest)
        if startsWithDigit rest then afterLongDigits negative significand rest
        else afterDigits negative significand rest := by
  unfold unsignedNumber
  by_cases hzero : d = '0'
  · subst hzero
    rfl
  · simp [hzero]

omit negative significand in
/-- A sign goes before a number. -/
theorem number_cons (d : Char) (rest : List Char) :
    Reader.number (d :: rest) =
      if d = '-' then unsignedNumber true rest else unsignedNumber false (d :: rest) := by
  by_cases hd : d = '-'
  · subst hd
    simp only [Reader.number, if_true]
  · simp [Reader.number, hd]

variable (hc : isSpace c)
include hc

omit negative significand in
/-- White space is no part of a number. -/
theorem ne_of_isSpace : c ≠ '-' ∧ c ≠ '0' ∧ c ≠ '.' ∧ c ≠ 'e' ∧ c ≠ 'E' := by
  rcases Reader.eq_of_isSpace hc with rfl | rfl | rfl | rfl <;> decide

/-- A number may go on with an exponent, and goes on with none at a space. -/
theorem lenient_maybeExponent (exponent : Int) :
    Reader.Lenient c (maybeExponent negative significand exponent) := by
  obtain ⟨-, -, -, he, hE⟩ := ne_of_isSpace hc
  have hscaled := lenient_scaled (c := c) negative significand exponent
  refine .of_cases ?_ (fun d cs => ?_) fun h => ?_
  · rw [maybeExponent_cons, if_neg (by simp [he, hE])]
    exact hscaled.alike []
  · rw [List.cons_append, maybeExponent_cons, maybeExponent_cons]
    split
    · exact (lenient_exponentPart hc _ _ _).alike cs
    · exact hscaled.alike (d :: cs)
  · unfold maybeExponent at h
    split at h
    · exact Nat.le_succ_of_le ((lenient_exponentPart hc _ _ _).length_le h)
    · exact Nat.le_succ_of_le ((lenient_exponentPart hc _ _ _).length_le h)
    · exact hscaled.length_le h

/-- The digits behind the point end before the space, and there has to be one of them. -/
theorem lenient_fractionPart (exponent : Int) :
    Reader.Lenient c (fractionPart negative significand exponent) where
  alike cs := by
    unfold fractionPart
    rw [takeDigits_concat hc]
    dsimp only
    rw [startsWithDigit_concat hc, dropWhile_isDigit_concat hc]
    split
    · exact (lenient_maybeExponent _ _ hc _).alike _
    · split
      · exact .failed rfl rfl
      · exact (lenient_maybeExponent _ _ hc _).alike _
  length_le {cs _ _} h := by
    have htake := length_takeDigits_le significandLimit significand 0 cs
    unfold fractionPart at h
    dsimp only at h
    split at h
    · exact Nat.le_trans ((lenient_maybeExponent _ _ hc _).length_le h)
        (Nat.le_trans (length_dropWhile_le _ _) htake)
    · split at h
      · cases h
      · exact Nat.le_trans ((lenient_maybeExponent _ _ hc _).length_le h) htake

/-- At a space a number has neither a point nor an exponent. -/
theorem lenient_pointOrExponent (exponent : Int) :
    Reader.Lenient c (pointOrExponent negative significand exponent) := by
  obtain ⟨-, -, hpoint, -⟩ := ne_of_isSpace hc
  have hexponent := lenient_maybeExponent negative significand hc exponent
  refine .of_cases ?_ (fun d cs => ?_) fun h => ?_
  · rw [pointOrExponent_cons, if_neg hpoint]
    exact hexponent.alike []
  · rw [List.cons_append, pointOrExponent_cons, pointOrExponent_cons]
    split
    · exact (lenient_fractionPart _ _ hc _).alike cs
    · exact hexponent.alike (d :: cs)
  · unfold pointOrExponent at h
    split at h
    · exact Nat.le_succ_of_le ((lenient_fractionPart _ _ hc _).length_le h)
    · exact hexponent.length_le h

/-- What follows the digits of an integer is read without regard to space behind it. -/
theorem lenient_afterDigits : Reader.Lenient c (afterDigits negative significand) := by
  obtain ⟨-, -, hpoint, he, hE⟩ := ne_of_isSpace hc
  refine .of_cases ?_ (fun d cs => ?_) fun h => ?_
  · rw [afterDigits_cons, if_neg hpoint, if_neg (by simp [he, hE])]
    exact .read rfl rfl (Or.inr rfl)
  · rw [List.cons_append, afterDigits_cons, afterDigits_cons]
    split
    · exact (lenient_fractionPart _ _ hc _).alike cs
    · split
      · exact (lenient_exponentPart hc _ _ _).alike cs
      · exact .read rfl rfl (Or.inr rfl)
  · unfold afterDigits at h
    split at h
    · exact Nat.le_succ_of_le ((lenient_fractionPart _ _ hc _).length_le h)
    · exact Nat.le_succ_of_le ((lenient_exponentPart hc _ _ _).length_le h)
    · exact Nat.le_succ_of_le ((lenient_exponentPart hc _ _ _).length_le h)
    · cases h
      exact Nat.le_refl _

/-- Digits that no longer count are passed over up to the space. -/
theorem lenient_afterLongDigits : Reader.Lenient c (afterLongDigits negative significand) where
  alike cs := by
    have hlength : ((cs ++ [c]).length : Int) - (cs.dropWhile Char.isDigit ++ [c]).length =
        cs.length - (cs.dropWhile Char.isDigit).length := by
      rw [List.length_append, List.length_append]
      omega
    rw [afterLongDigits_eq, afterLongDigits_eq, dropWhile_isDigit_concat hc, hlength]
    exact (lenient_pointOrExponent _ _ hc _).alike _
  length_le h :=
    Nat.le_trans ((lenient_pointOrExponent _ _ hc _).length_le h) (length_dropWhile_le _ _)

omit significand in
/-- A number without its sign is read without regard to space behind it. -/
theorem lenient_unsignedNumber : Reader.Lenient c (unsignedNumber negative) := by
  obtain ⟨-, hzero, -⟩ := ne_of_isSpace hc
  refine .of_cases ?_ (fun d cs => ?_) fun {cs _ _} h => ?_
  · rw [unsignedNumber_cons, if_neg hzero, if_pos (by rw [isDigit_of_isSpace hc]; rfl)]
    exact .failed rfl rfl
  · rw [List.cons_append, unsignedNumber_cons, unsignedNumber_cons, ← List.cons_append,
      takeDigits_concat hc]
    dsimp only
    rw [startsWithDigit_concat hc, startsWithDigit_concat hc]
    split
    · split
      · exact .failed rfl rfl
      · exact (lenient_afterDigits _ _ hc).alike _
    · split
      · exact .failed rfl rfl
      · split
        · exact (lenient_afterLongDigits _ _ hc).alike _
        · exact (lenient_afterDigits _ _ hc).alike _
  · cases cs with
    | nil => cases h
    | cons d cs =>
        have htake := length_takeDigits_le significandLimit 0 0 (d :: cs)
        rw [unsignedNumber_cons] at h
        dsimp only at h
        split at h
        · split at h
          · cases h
          · exact Nat.le_succ_of_le ((lenient_afterDigits _ _ hc).length_le h)
        · split at h
          · cases h
          · split at h
            · exact Nat.le_trans ((lenient_afterLongDigits _ _ hc).length_le h) htake
            · exact Nat.le_trans ((lenient_afterDigits _ _ hc).length_le h) htake

omit negative significand in
/-- A number. -/
theorem lenient_number : Reader.number.Lenient c := by
  obtain ⟨hminus, -⟩ := ne_of_isSpace hc
  refine .of_cases ?_ (fun d cs => ?_) fun {cs _ _} h => ?_
  · rw [number_cons, if_neg hminus]
    exact (lenient_unsignedNumber false hc).alike []
  · rw [List.cons_append, number_cons, number_cons]
    split
    · exact (lenient_unsignedNumber true hc).alike cs
    · exact (lenient_unsignedNumber false hc).alike (d :: cs)
  · unfold Reader.number at h
    split at h
    · exact Nat.le_succ_of_le ((lenient_unsignedNumber true hc).length_le h)
    · exact (lenient_unsignedNumber false hc).length_le h

end Numbers

end StreamWatch.Json
