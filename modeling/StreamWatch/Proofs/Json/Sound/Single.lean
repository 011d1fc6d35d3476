import StreamWatch.Proofs.Json.Lenient.Skip
import StreamWatch.Proofs.Json.Presentation.Single

/-!
# What is read as a number or a string is one

What is read as a number or as a string is also passed over as one, and what is passed over stands
in the grammar: `IsNumber` and `IsStringText`.
-/

namespace StreamWatch.Json

open Reader

variable {cs rest : List Char}

/-! ## Digits -/

/-- Digits are what stands before the first character that is none. -/
theorem exists_digits (cs : List Char) :
    ∃ ds, (∀ d ∈ ds, d.isDigit) ∧ cs = ds ++ cs.dropWhile Char.isDigit :=
  ⟨cs.takeWhile Char.isDigit, List.all_eq_true.mp List.all_takeWhile,
    List.takeWhile_append_dropWhile.symm⟩

/-- A text that starts with a digit starts with digits. -/
theorem exists_isDigits (h : startsWithDigit cs) :
    ∃ ds, IsDigits ds ∧ cs = ds ++ cs.dropWhile Char.isDigit := by
  obtain ⟨ds, hds, hcs⟩ := exists_digits cs
  refine ⟨ds, ⟨?_, hds⟩, hcs⟩
  rintro rfl
  cases cs with
  | nil => cases h
  | cons c cs =>
      have hc : c.isDigit = true := h
      have hlength := (List.dropWhile_suffix Char.isDigit (l := cs)).length_le
      rw [List.dropWhile_cons, hc, if_pos rfl, List.nil_append] at hcs
      rw [← hcs, List.length_cons] at hlength
      exact absurd hlength (Nat.not_succ_le_self _)

/-- The digits that are left over are followed by what all the digits are followed by. -/
theorem dropWhile_takeDigits (limit n taken : Nat) (cs : List Char) :
    (takeDigits limit n taken cs).2.2.dropWhile Char.isDigit = cs.dropWhile Char.isDigit := by
  fun_induction takeDigits limit n taken cs with
  | case1 => rfl
  | case2 => rfl
  | case3 n taken d ds digit hdigit hlimit ih =>
      have hd : d.isDigit = true := by
        by_contra hd
        rw [digit?, if_neg hd] at hdigit
        cases hdigit
      rw [ih, List.dropWhile_cons, hd]
      rfl
  | case4 => rfl

/-- Digits that are counted or left over are there. -/
theorem startsWithDigit_of_takeDigits {limit n : Nat} {cs : List Char}
    (h : startsWithDigit (takeDigits limit n 0 cs).2.2 ∨ (takeDigits limit n 0 cs).2.1 ≠ 0) :
    startsWithDigit cs := by
  cases cs with
  | nil => simp [takeDigits, startsWithDigit] at h
  | cons c cs =>
      by_cases hc : c.isDigit
      · exact hc
      · have hnone : digit? c = none := if_neg hc
        simp [takeDigits, hnone, startsWithDigit, hc] at h

/-! ## Numbers -/

section Numbers

variable {negative : Bool} {n : Nat} {number : Number}

/-- Computing a number from its digits takes no text. -/
theorem eq_of_scaled {exponent : Int}
    (h : (do return (← scaled negative n exponent, cs) : Except Fault (Number × List Char)) =
      .ok (number, rest)) : rest = cs := by
  cases hscaled : scaled negative n exponent with
  | error fault =>
      rw [hscaled] at h
      cases h
  | ok number' =>
      rw [hscaled] at h
      cases h
      rfl

/-- What is read as an exponent is passed over as one. -/
theorem skipExponent_of_exponentPart {start : Int}
    (h : exponentPart negative n start cs = .ok (number, rest)) : skipExponent cs = .ok rest := by
  rw [exponentPart_eq] at h
  rw [skipExponent_eq]
  generalize (exponentSign cs).2 = ds at h ⊢
  cases ds with
  | nil => cases h
  | cons d ds =>
      rw [exponentDigits.eq_def] at h
      dsimp only at h
      by_cases hd : d.isDigit
      · have hdigit : startsWithDigit (d :: ds) = true := hd
        rw [hd, if_neg (by decide)] at h
        rw [if_pos hdigit, ← dropWhile_takeDigits exponentLimit 0 0]
        cases hmore : startsWithDigit (takeDigits exponentLimit 0 0 (d :: ds)).2.2 with
        | true =>
            rw [hmore, if_pos rfl] at h
            split at h
            · cases h
            · cases h
              rfl
        | false =>
            rw [hmore, if_neg (by decide)] at h
            rw [dropWhile_of_not_digit hmore, eq_of_scaled h]
      · simp [hd] at h

/-- What is read with an exponent or without is passed over so. -/
theorem skipMaybeExponent_of_maybeExponent {start : Int}
    (h : maybeExponent negative n start cs = .ok (number, rest)) :
    skipMaybeExponent cs = .ok rest := by
  cases cs with
  | nil =>
      obtain rfl : rest = [] := eq_of_scaled h
      rfl
  | cons c cs =>
      rw [maybeExponent_cons] at h
      rw [skipMaybeExponent_cons]
      split at h
      · next he => rw [if_pos he, skipExponent_of_exponentPart h]
      · next he => rw [if_neg he, eq_of_scaled h]

/-- A fraction has digits, and may be followed by an exponent. -/
theorem skipMaybeExponent_of_fractionPart {start : Int}
    (h : fractionPart negative n start cs = .ok (number, rest)) :
    startsWithDigit cs ∧ skipMaybeExponent (cs.dropWhile Char.isDigit) = .ok rest := by
  rw [fractionPart] at h
  dsimp only at h
  rw [← dropWhile_takeDigits significandLimit n 0 cs]
  split at h
  · next hmore =>
      exact ⟨startsWithDigit_of_takeDigits (.inl hmore), skipMaybeExponent_of_maybeExponent h⟩
  · next hmore =>
      split at h
      · cases h
      · next htaken =>
          rw [dropWhile_of_not_digit (Bool.eq_false_of_not_eq_true hmore)]
          exact ⟨startsWithDigit_of_takeDigits (.inr htaken), skipMaybeExponent_of_maybeExponent h⟩

/-- What is read behind a point is passed over with it. -/
theorem skipAfterDigits_point {start : Int}
    (h : fractionPart negative n start cs = .ok (number, rest)) :
    skipAfterDigits ('.' :: cs) = .ok rest := by
  obtain ⟨hdigit, hskip⟩ := skipMaybeExponent_of_fractionPart h
  rw [skipAfterDigits_cons, if_pos rfl, hdigit, hskip]
  rfl

/-- What is read behind the digits of an integer is passed over there. -/
theorem skipAfterDigits_of_afterDigits (h : afterDigits negative n cs = .ok (number, rest)) :
    skipAfterDigits cs = .ok rest := by
  cases cs with
  | nil =>
      cases h
      rfl
  | cons c cs =>
      rw [afterDigits_cons] at h
      split at h
      · next hpoint =>
          subst hpoint
          exact skipAfterDigits_point h
      · next hpoint =>
          rw [skipAfterDigits_cons, if_neg hpoint, skipMaybeExponent_cons]
          split at h
          · next he => rw [if_pos he, skipExponent_of_exponentPart h]
          · next he =>
              cases h
              rw [if_neg he]

/-- What is read behind digits that no longer count is passed over there. -/
theorem skipAfterDigits_of_pointOrExponent {start : Int}
    (h : pointOrExponent negative n start cs = .ok (number, rest)) :
    skipAfterDigits cs = .ok rest := by
  cases cs with
  | nil =>
      have hmaybe : maybeExponent negative n start [] = .ok (number, rest) := h
      exact skipMaybeExponent_of_maybeExponent hmaybe
  | cons c cs =>
      rw [pointOrExponent_cons] at h
      split at h
      · next hpoint =>
          subst hpoint
          exact skipAfterDigits_point h
      · next hpoint =>
          rw [skipAfterDigits_cons, if_neg hpoint, skipMaybeExponent_of_maybeExponent h]

/-- What is read as a number without its sign is passed over as one. -/
theorem skipUnsigned_of_unsignedNumber (h : unsignedNumber negative cs = .ok (number, rest)) :
    skipUnsigned cs = .ok rest := by
  cases cs with
  | nil => cases h
  | cons c cs =>
      rw [unsignedNumber_cons] at h
      rw [skipUnsigned_cons]
      split at h
      · next hzero =>
          rw [if_pos hzero]
          split at h
          · cases h
          · next hmore => rw [if_neg hmore, skipAfterDigits_of_afterDigits h]
      · next hzero =>
          rw [if_neg hzero]
          by_cases hc : c.isDigit
          · have hdrop : cs.dropWhile Char.isDigit = (c :: cs).dropWhile Char.isDigit := by
              rw [List.dropWhile_cons, hc]
              rfl
            rw [hc, if_neg (by decide)] at h
            rw [if_pos hc, hdrop, ← dropWhile_takeDigits significandLimit 0 0]
            dsimp only at h
            split at h
            · exact skipAfterDigits_of_pointOrExponent h
            · next hmore =>
                rw [dropWhile_of_not_digit (Bool.eq_false_of_not_eq_true hmore)]
                exact skipAfterDigits_of_afterDigits h
          · simp [hc] at h

/-- What is read as a number is passed over as one. -/
theorem skipNumber_of_number (h : Reader.number cs = .ok (number, rest)) :
    skipNumber cs = .ok ((), rest) := by
  cases cs with
  | nil => cases h
  | cons c cs =>
      rw [number_cons] at h
      rw [skipNumber_cons]
      split at h
      · next hc =>
          rw [if_pos hc, skipping, skipUnsigned_of_unsignedNumber h]
          rfl
      · next hc =>
          rw [if_neg hc, skipping, skipUnsigned_of_unsignedNumber h]
          rfl

/-- A sign is a plus, a minus or nothing. -/
theorem exists_exponentSign (cs : List Char) :
    ∃ sign, (sign = [] ∨ sign = ['+'] ∨ sign = ['-']) ∧ cs = sign ++ (exponentSign cs).2 := by
  unfold exponentSign
  split
  · exact ⟨['+'], .inr (.inl rfl), rfl⟩
  · exact ⟨['-'], .inr (.inr rfl), rfl⟩
  · exact ⟨[], .inl rfl, rfl⟩

/-- What is passed over as an exponent is one. -/
theorem exists_isExponent (h : skipMaybeExponent cs = .ok rest) :
    ∃ exponent, IsExponent exponent ∧ cs = exponent ++ rest := by
  cases cs with
  | nil =>
      cases h
      exact ⟨[], .none, rfl⟩
  | cons e cs =>
      rw [skipMaybeExponent_cons] at h
      split at h
      · next he =>
          rw [skipExponent_eq] at h
          split at h
          · next hdigit =>
              cases h
              obtain ⟨sign, hsign, hcs⟩ := exists_exponentSign cs
              obtain ⟨ds, hds, hdigits⟩ := exists_isDigits hdigit
              refine ⟨e :: (sign ++ ds), .digits he hsign hds, ?_⟩
              rw [List.cons_append, List.append_assoc, ← hdigits, ← hcs]
          · cases h
      · cases h
        exact ⟨[], .none, rfl⟩

/-- What is passed over behind the digits of an integer is a fraction and an exponent. -/
theorem exists_isFraction (h : skipAfterDigits cs = .ok rest) :
    ∃ fraction exponent, IsFraction fraction ∧ IsExponent exponent ∧
      cs = fraction ++ (exponent ++ rest) := by
  cases cs with
  | nil =>
      cases h
      exact ⟨[], [], .none, .none, rfl⟩
  | cons c cs =>
      rw [skipAfterDigits_cons] at h
      split at h
      · next hpoint =>
          subst hpoint
          cases hdigit : startsWithDigit cs with
          | false => simp [hdigit] at h
          | true =>
              rw [hdigit, if_neg (by decide)] at h
              obtain ⟨ds, hds, hcs⟩ := exists_isDigits hdigit
              obtain ⟨exponent, hexponent, hrest⟩ := exists_isExponent h
              refine ⟨'.' :: ds, exponent, .digits hds, hexponent, ?_⟩
              rw [← hrest, List.cons_append, ← hcs]
      · obtain ⟨exponent, hexponent, hrest⟩ := exists_isExponent h
        exact ⟨[], exponent, .none, hexponent, hrest⟩

/-- What is passed over as a number without its sign is one, with a sign before it or without. -/
theorem exists_isNumber_of_skipUnsigned (negative : Bool) (h : skipUnsigned cs = .ok rest) :
    ∃ text, IsNumber ((if negative then ['-'] else []) ++ text) ∧ cs = text ++ rest := by
  cases cs with
  | nil => cases h
  | cons c cs =>
      rw [skipUnsigned_cons] at h
      split at h
      · next hzero =>
          subst hzero
          split at h
          · cases h
          · obtain ⟨fraction, exponent, hfraction, hexponent, rfl⟩ := exists_isFraction h
            have hwhole : IsDigits ['0'] :=
              ⟨List.cons_ne_nil _ _, List.forall_mem_singleton.mpr rfl⟩
            refine ⟨['0'] ++ (fraction ++ exponent),
              .parts hwhole (fun _ => rfl) hfraction hexponent, ?_⟩
            simp
      · next hzero =>
          split at h
          · next hc =>
              obtain ⟨ds, hds, hcs⟩ := exists_digits cs
              obtain ⟨fraction, exponent, hfraction, hexponent, hrest⟩ := exists_isFraction h
              have hwhole : IsDigits (c :: ds) :=
                ⟨List.cons_ne_nil _ _, List.forall_mem_cons.mpr ⟨hc, hds⟩⟩
              refine ⟨c :: ds ++ (fraction ++ exponent), .parts hwhole (fun hhead => ?_) hfraction
                hexponent, ?_⟩
              · exact absurd (Option.some.inj hhead) hzero
              · rw [List.append_assoc, List.append_assoc, ← hrest, List.cons_append, ← hcs]
          · cases h

/-- What is passed over as a number is one. -/
theorem exists_isNumber {u : Unit} (h : skipNumber cs = .ok (u, rest)) :
    ∃ text, IsNumber text ∧ cs = text ++ rest := by
  cases cs with
  | nil => cases h
  | cons c cs =>
      rw [skipNumber_cons] at h
      split at h
      · next hc =>
          subst hc
          obtain ⟨text, htext, rfl⟩ := exists_isNumber_of_skipUnsigned true (skipping_apply h)
          exact ⟨_, htext, rfl⟩
      · obtain ⟨text, htext, hcs⟩ := exists_isNumber_of_skipUnsigned false (skipping_apply h)
        exact ⟨_, htext, hcs⟩

end Numbers

/-! ## Strings -/

/-- A number in an escape is made of hexadecimal digits. -/
theorem exists_digits_of_hexQuad {n : Nat} (h : hexQuad cs = .ok n) :
    ∃ a b d e tail, cs = a :: b :: d :: e :: tail ∧
      ∀ c ∈ [a, b, d, e], (Hex.value? c).isSome := by
  obtain ⟨a, b, d, e, tail, rfl⟩ := exists_of_hexQuad h
  refine ⟨a, b, d, e, tail, rfl, ?_⟩
  rw [hexQuad] at h
  split at h
  · cases h
  · cases ha : Hex.value? a <;> cases hb : Hex.value? b <;> cases hd : Hex.value? d <;>
      cases he : Hex.value? e <;> simp [Hex.read?, ha, hb, hd, he] at h ⊢

/-- The escape of a number takes the letter and four digits. -/
theorem skipEscape_unicode {n : Nat} (h : hexQuad cs = .ok n) : skipEscape ('u' :: cs) = .ok 5 := by
  rw [skipEscape, h]
  rfl

/-- The second half of a surrogate pair is an escape of its own. -/
theorem exists_of_secondHalf {high taken : Nat} {c : Char}
    (h : secondHalf high cs = .ok (c, taken)) :
    taken = 10 ∧ ∃ hex low, cs = '\\' :: 'u' :: hex ∧ hexQuad hex = .ok low := by
  unfold secondHalf at h
  split at h
  · cases h
  · cases h
  · next hex =>
      cases hquad : hexQuad hex with
      | error fault =>
          rw [hquad] at h
          cases h
      | ok low =>
          have hpair : (if closesPair low then .ok (joinPair high low, 10)
              else .error .loneSurrogate : Except Fault (Char × Nat)) = .ok (c, taken) := by
            rw [hquad] at h
            exact h
          split at hpair
          · obtain ⟨-, rfl⟩ := Prod.mk.inj (Except.ok.inj hpair)
            exact ⟨rfl, hex, low, rfl, hquad⟩
          · cases hpair
  · cases h

/-- A number that stands for a character is passed over, the halves of a pair one by one. -/
theorem skip_of_numberEscape {c : Char} {taken : Nat} (h : numberEscape cs = .ok (c, taken)) :
    ((skipEscape ('u' :: cs)).bind fun taken => skipStringBody taken ('u' :: cs)) =
      skipStringBody (taken + 1) ('u' :: cs) := by
  cases hquad : hexQuad cs with
  | error fault =>
      rw [numberEscape, hquad] at h
      cases h
  | ok n =>
      obtain ⟨a, b, d, e, tail, rfl, hdigits⟩ := exists_digits_of_hexQuad hquad
      obtain ⟨n, hn⟩ := exists_hexQuad hdigits
      rw [numberEscape_eq hn] at h
      rw [skipEscape_unicode hquad]
      split at h
      · cases h
      · split at h
        · cases h
          rfl
        · obtain ⟨rfl, hex, low, rfl, hlow⟩ := exists_of_secondHalf h
          have hpair : skipStringBody 0 ('\\' :: 'u' :: hex) = skipStringBody 4 hex := by
            rw [skipStringBody_cons, if_neg (by decide), if_pos rfl, skipEscape_unicode hlow]
            rfl
          exact hpair

/-- An escape that stands for a character is passed over. -/
theorem skip_of_escape {c : Char} {taken : Nat} (h : escape cs = .ok (c, taken)) :
    ((skipEscape cs).bind fun taken => skipStringBody taken cs) = skipStringBody taken cs := by
  unfold escape at h
  split at h
  case h_1 => cases h
  case h_10 rest =>
    cases hnumber : numberEscape rest with
    | error fault =>
        rw [hnumber] at h
        cases h
    | ok p =>
        rw [hnumber] at h
        cases h
        exact skip_of_numberEscape hnumber
  case h_11 => cases h
  all_goals
    cases h
    rfl

/-- What is read as the text of a string is passed over as one. -/
theorem skipStringBody_of_stringBody {taken : Nat} {text : List Char}
    (h : stringBody taken cs = .ok (text, rest)) : skipStringBody taken cs = .ok rest := by
  induction cs generalizing taken text with
  | nil => cases taken <;> cases h
  | cons c cs ih =>
      cases taken with
      | succ taken => exact ih h
      | zero =>
          rw [stringBody] at h
          rw [skipStringBody_cons]
          split at h
          · next hquote =>
              cases h
              rw [if_pos hquote]
          · next hquote =>
              rw [if_neg hquote]
              split at h
              · next hbackslash =>
                  rw [if_pos hbackslash]
                  cases hescape : escape cs with
                  | error fault =>
                      rw [hescape] at h
                      cases h
                  | ok p =>
                      rw [hescape] at h
                      obtain ⟨text', rest', hbody, hpure⟩ := bind_ok (x := stringBody p.2)
                        (f := fun text => pure (p.1 :: text)) h
                      cases hpure
                      rw [skip_of_escape hescape, ih hbody]
              · next hbackslash =>
                  rw [if_neg hbackslash]
                  split at h
                  · cases h
                  · next hcontrol =>
                      rw [if_neg hcontrol]
                      obtain ⟨text', rest', hbody, hpure⟩ := bind_ok (x := stringBody 0)
                        (f := fun text => pure (c :: text)) h
                      cases hpure
                      exact ih hbody

/-- What is passed over as an escape is one. -/
theorem exists_of_skipEscape {taken : Nat} (h : skipEscape cs = .ok taken) :
    ∃ escaped, cs = escaped ++ cs.drop taken ∧
      ∀ {text}, IsStringText text → IsStringText ('\\' :: (escaped ++ text)) := by
  unfold skipEscape at h
  split at h
  · cases h
  · next hex =>
      cases hquad : hexQuad hex with
      | error fault =>
          rw [hquad] at h
          cases h
      | ok n =>
          rw [hquad] at h
          cases h
          obtain ⟨a, b, d, e, tail, rfl, hdigits⟩ := exists_digits_of_hexQuad hquad
          exact ⟨['u', a, b, d, e], rfl, .unicode hdigits⟩
  · next d tail _ =>
      split at h
      · next hd =>
          cases h
          exact ⟨[d], rfl, .letter hd⟩
      · cases h

/-- What is passed over as the text of a string is one, with a quote behind it. -/
theorem exists_isStringText {taken : Nat} (h : skipStringBody taken cs = .ok rest) :
    ∃ text, IsStringText text ∧ cs.drop taken = text ++ '"' :: rest := by
  induction cs generalizing taken with
  | nil => cases taken <;> cases h
  | cons c cs ih =>
      cases taken with
      | succ taken => exact ih h
      | zero =>
          rw [skipStringBody_cons] at h
          rw [List.drop_zero]
          split at h
          · next hquote =>
              cases h
              exact ⟨[], .nil, congrArg (· :: rest) hquote⟩
          · next hquote =>
              split at h
              · next hbackslash =>
                  cases hescape : skipEscape cs with
                  | error fault =>
                      rw [hescape] at h
                      cases h
                  | ok taken =>
                      rw [hescape] at h
                      obtain ⟨text, htext, hdrop⟩ := ih h
                      obtain ⟨escaped, hcs, hescaped⟩ := exists_of_skipEscape hescape
                      refine ⟨_, hescaped htext, ?_⟩
                      rw [List.cons_append, List.append_assoc, ← hdrop, ← hcs, hbackslash]
              · next hbackslash =>
                  split at h
                  · cases h
                  · next hcontrol =>
                      obtain ⟨text, htext, hdrop⟩ := ih h
                      exact ⟨c :: text, .plain hquote hbackslash hcontrol htext,
                        congrArg (c :: ·) hdrop⟩

/-- What is passed over as a string stands between quotes. -/
theorem exists_quoted_of_skipString {u : Unit} (h : skipString ('"' :: cs) = .ok (u, rest)) :
    ∃ text, IsStringText text ∧ '"' :: cs = quoted text ++ rest := by
  have hbody : skipping (skipStringBody 0) cs = .ok (u, rest) := h
  obtain ⟨text, htext, hcs⟩ := exists_isStringText (skipping_apply hbody)
  refine ⟨text, htext, ?_⟩
  rw [← List.drop_zero (l := cs), hcs, quoted, List.cons_append, List.append_assoc]
  rfl

/-- What is read as a string stands between quotes. -/
theorem exists_quoted {s : String} (h : Reader.string ('"' :: cs) = .ok (s, rest)) :
    ∃ text, IsStringText text ∧ '"' :: cs = quoted text ++ rest := by
  have hread : Reader.string ('"' :: cs) =
      (stringBody 0 >>= fun text => pure (String.ofList text) : Reader String) cs := rfl
  obtain ⟨text, rest', hbody, hpure⟩ := bind_ok (hread.symm.trans h)
  cases hpure
  refine exists_quoted_of_skipString (u := ()) ?_
  have hskip : skipString ('"' :: cs) = (skipStringBody 0 cs).map ((), ·) := rfl
  rw [hskip, skipStringBody_of_stringBody hbody]
  rfl

/-! ## Words -/

/-- What is read letter by letter is the letters. -/
theorem eq_of_letters {ws : List Char} {u : Unit} (h : letters ws cs = .ok (u, rest)) :
    cs = ws ++ rest := by
  induction ws generalizing cs with
  | nil =>
      cases h
      rfl
  | cons w ws ih =>
      cases cs with
      | nil => cases h
      | cons c cs =>
          have hletters : (if c = w then letters ws cs else .error .expectedWord) =
              .ok (u, rest) := h
          split at hletters
          · next hc => rw [ih hletters, hc, List.cons_append]
          · cases hletters

/-- What is read as a word is the word. -/
theorem eq_of_word {tail : List Char} {c : Char} {u : Unit}
    (h : word tail (c :: cs) = .ok (u, rest)) : c :: cs = c :: tail ++ rest := by
  have hletters : letters tail cs = .ok (u, rest) := h
  rw [eq_of_letters hletters, List.cons_append]

end StreamWatch.Json
