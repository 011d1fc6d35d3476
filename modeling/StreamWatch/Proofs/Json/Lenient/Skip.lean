import StreamWatch.Json.Skip
import StreamWatch.Proofs.Json.Lenient.Number

/-!
# Values that are passed over before white space

Passing over a value leaves the white space after it. Each step from one value to the next takes at
least one character, so that the length of the text is enough for all of them.
-/

namespace StreamWatch.Json.Reader

variable {c : Char}

/-- Passes over what a function on texts passes over. -/
def skipping (skip : List Char → Except Fault (List Char)) : Reader Unit := fun cs =>
  (skip cs).map ((), ·)

/-- What is passed over as a reader is passed over. -/
theorem skipping_apply {skip : List Char → Except Fault (List Char)} {cs rest : List Char}
    {u : Unit} (h : skipping skip cs = .ok (u, rest)) : skip cs = .ok rest := by
  unfold skipping at h
  cases hcs : skip cs with
  | error fault =>
      rw [hcs] at h
      cases h
  | ok rest' =>
      rw [hcs] at h
      cases h
      rfl

/-- Passing over a part of the text is lenient if the results are alike and no text is gained. -/
theorem Lenient.skipping {skip : List Char → Except Fault (List Char)}
    (halike : ∀ cs, Alike c (skipping skip cs) (skipping skip (cs ++ [c])))
    (hlength : ∀ {cs rest}, skip cs = .ok rest → rest.length ≤ cs.length) :
    Lenient c (skipping skip) :=
  ⟨halike, fun h => hlength (skipping_apply h)⟩

/-! ## Strings -/

/-- How many characters an escape takes, after the backslash. -/
def skipEscape (cs : List Char) : Except Fault Nat :=
  match cs with
  | [] => .error .endsInString
  | 'u' :: hex => do
    let _ ← hexQuad hex
    return 5
  | d :: _ =>
    if d ∈ ['"', '\\', '/', 'b', 'f', 'n', 'r', 't'] then .ok 1 else .error .invalidEscape

/-- The text of a string is passed over character by character and escape by escape. -/
theorem skipStringBody_cons (d : Char) (rest : List Char) :
    skipStringBody 0 (d :: rest) =
      if d = '"' then .ok rest
      else if d = '\\' then (skipEscape rest).bind fun taken => skipStringBody taken rest
      else if d.toNat < 0x20 then .error .controlCharacter
      else skipStringBody 0 rest := by
  rw [skipStringBody.eq_def]
  dsimp only
  split
  · rfl
  · split
    · match rest with
      | [] => rfl
      | d :: rest =>
        by_cases hu : d = 'u'
        · subst hu
          cases h : hexQuad rest <;> simp [skipEscape, h] <;> rfl
        · simp [skipEscape]
          split <;> rfl
    · rfl

section Strings

variable (hc : isSpace c)
include hc

/-- An escape is passed over in the same way with space at the end, unless it is cut off. -/
theorem skipEscape_concat (cs : List Char) : Agree (skipEscape cs) (skipEscape (cs ++ [c])) := by
  match cs with
  | [] => 
    have hspace : skipEscape [c] = .error .invalidEscape := by
      rcases Reader.eq_of_isSpace hc with rfl | rfl | rfl | rfl <;> rfl
    exact .failed rfl hspace
  | d :: rest =>
    by_cases hu : d = 'u'
    · subst hu
      exact (hexQuad_concat hc rest).bind fun _ _ => .same rfl
    · refine .same ?_
      rw [List.cons_append]
      unfold skipEscape
      split <;> simp_all

/-- A string that has begun is passed over up to its quote, by induction on what is left of it. -/
theorem alike_skipStringBody (taken : Nat) (cs : List Char) :
    Alike c (skipping (skipStringBody taken) cs) (skipping (skipStringBody taken) (cs ++ [c])) := by
  induction cs generalizing taken with
  | nil =>
      have hspace : ∃ fault, skipping (skipStringBody taken) [c] = .error fault := by
        cases taken with
        | zero => rcases eq_of_isSpace hc with rfl | rfl | rfl | rfl <;> exact ⟨_, rfl⟩
        | succ taken => exact ⟨_, rfl⟩
      obtain ⟨fault, hfault⟩ := hspace
      exact .failed rfl hfault
  | cons d rest ih =>
      cases taken with
      | succ taken => exact ih taken
      | zero =>
          unfold skipping
          rw [List.cons_append, skipStringBody_cons, skipStringBody_cons]
          split
          · exact .read rfl rfl (Or.inr rfl)
          · split
            · cases skipEscape_concat hc rest with
              | failed h h' =>
                  rw [h, h']
                  exact .failed rfl rfl
              | same h =>
                  rw [← h]
                  cases skipEscape rest with
                  | error fault => exact .failed rfl rfl
                  | ok taken => exact ih taken
            · split
              · exact .failed rfl rfl
              · exact ih 0

omit hc in
/-- Passing over a string leaves no more text than there was. -/
theorem length_le_of_skipStringBody {taken : Nat} {cs rest : List Char}
    (h : skipStringBody taken cs = .ok rest) : rest.length ≤ cs.length := by
  induction cs generalizing taken with
  | nil => cases taken <;> cases h
  | cons d cs ih =>
      refine Nat.le_succ_of_le ?_
      cases taken with
      | succ taken => exact ih h
      | zero =>
          rw [skipStringBody_cons] at h
          split at h
          · cases h
            exact Nat.le_refl _
          · split at h
            · cases hescape : skipEscape cs with
              | error fault =>
                  rw [hescape] at h
                  cases h
              | ok taken =>
                  rw [hescape] at h
                  exact ih h
            · split at h
              · cases h
              · exact ih h

/-- A string is passed over without regard to space behind it. -/
theorem lenient_skipString : skipString.Lenient c :=
  lenient_advance.bind fun _ => .skipping (alike_skipStringBody hc 0) length_le_of_skipStringBody

end Strings

/-! ## Numbers -/

/-- An exponent is passed over as its sign and its digits. -/
theorem skipExponent_eq (cs : List Char) :
    skipExponent cs =
      if startsWithDigit (exponentSign cs).2 then .ok ((exponentSign cs).2.dropWhile Char.isDigit)
      else .error .invalidNumber := by
  match cs with
  | [] => rfl
  | d :: rest =>
    by_cases hplus : d = '+'
    · subst hplus
      rfl
    · by_cases hminus : d = '-'
      · subst hminus
        rfl
      · simp [skipExponent, exponentSign, hplus, hminus]

/-- An exponent follows one of two letters, if there is one. -/
def skipMaybeExponent (cs : List Char) : Except Fault (List Char) :=
  match cs with
  | 'e' :: rest | 'E' :: rest => skipExponent rest
  | _ => .ok cs

/-- A number goes on with an exponent exactly at one of two letters. -/
theorem skipMaybeExponent_cons (d : Char) (rest : List Char) :
    skipMaybeExponent (d :: rest) =
      if d = 'e' ∨ d = 'E' then skipExponent rest else .ok (d :: rest) := by
  unfold skipMaybeExponent
  by_cases he : d = 'e'
  · subst he
    rfl
  · by_cases hE : d = 'E'
    · subst hE
      rfl
    · simp [he, hE]

/-- A fraction follows a point. -/
theorem skipAfterDigits_cons (d : Char) (rest : List Char) :
    skipAfterDigits (d :: rest) =
      if d = '.' then
        if !startsWithDigit rest then .error .invalidNumber
        else skipMaybeExponent (rest.dropWhile Char.isDigit)
      else skipMaybeExponent (d :: rest) := by
  unfold skipAfterDigits
  by_cases hpoint : d = '.'
  · subst hpoint
    rw [if_pos rfl]
    unfold skipMaybeExponent
    cases hdigit : startsWithDigit rest with
    | false => simp [hdigit]
    | true =>
        simp [hdigit]
        split <;> simp_all
  · rw [if_neg hpoint, skipMaybeExponent_cons]
    by_cases he : d = 'e'
    · subst he
      rfl
    · by_cases hE : d = 'E'
      · subst hE
        rfl
      · simp [hpoint, he, hE]

/-- A zero is followed by no digit. -/
theorem skipUnsigned_cons (d : Char) (rest : List Char) :
    skipUnsigned (d :: rest) =
      if d = '0' then
        if startsWithDigit rest then .error .invalidNumber else skipAfterDigits rest
      else if d.isDigit then skipAfterDigits (rest.dropWhile Char.isDigit)
      else .error .invalidNumber := by
  by_cases hzero : d = '0'
  · subst hzero
    rfl
  · unfold skipUnsigned
    by_cases hdigit : d.isDigit
    · simp [hzero, hdigit, startsWithDigit]
    · simp [hzero, hdigit, startsWithDigit]

section Numbers

variable (hc : isSpace c)
include hc

omit hc in
/-- Passing over an exponent leaves no more text than there was. -/
theorem length_le_of_skipExponent {cs rest : List Char} (h : skipExponent cs = .ok rest) :
    rest.length ≤ cs.length := by
  rw [skipExponent_eq] at h
  split at h
  · cases h
    exact Nat.le_trans (length_dropWhile_le _ _) (length_exponentSign_le cs)
  · cases h

/-- An exponent is passed over up to the space. -/
theorem lenient_skipExponent : Lenient c (skipping skipExponent) := by
  refine .skipping (fun cs => ?_) length_le_of_skipExponent
  unfold skipping
  rw [skipExponent_eq, skipExponent_eq, exponentSign_concat hc]
  dsimp only
  rw [startsWithDigit_concat hc, dropWhile_isDigit_concat hc]
  split
  · exact .read rfl rfl (Or.inr rfl)
  · exact .failed rfl rfl

omit hc in
theorem length_le_of_skipMaybeExponent {cs rest : List Char}
    (h : skipMaybeExponent cs = .ok rest) : rest.length ≤ cs.length := by
  unfold skipMaybeExponent at h
  split at h
  · exact Nat.le_succ_of_le (length_le_of_skipExponent h)
  · exact Nat.le_succ_of_le (length_le_of_skipExponent h)
  · cases h
    exact Nat.le_refl _

/-- What may be an exponent is none at a space. -/
theorem lenient_skipMaybeExponent : Lenient c (skipping skipMaybeExponent) := by
  obtain ⟨-, -, -, he, hE⟩ := ne_of_isSpace hc
  refine .skipping (fun cs => ?_) length_le_of_skipMaybeExponent
  unfold skipping
  cases cs with
  | nil =>
      rw [List.nil_append, skipMaybeExponent_cons, if_neg (by simp [he, hE])]
      exact .read rfl rfl (Or.inr rfl)
  | cons d cs =>
      rw [List.cons_append, skipMaybeExponent_cons, skipMaybeExponent_cons]
      split
      · exact (lenient_skipExponent hc).alike cs
      · exact .read rfl rfl (Or.inr rfl)

omit hc in
theorem length_le_of_skipAfterDigits {cs rest : List Char}
    (h : skipAfterDigits cs = .ok rest) : rest.length ≤ cs.length := by
  cases cs with
  | nil =>
      cases h
      exact Nat.le_refl _
  | cons d cs =>
      rw [skipAfterDigits_cons] at h
      split at h
      · split at h
        · cases h
        · exact Nat.le_succ_of_le (Nat.le_trans (length_le_of_skipMaybeExponent h)
            (length_dropWhile_le _ _))
      · exact length_le_of_skipMaybeExponent h

/-- What follows the digits of an integer is passed over up to the space. -/
theorem lenient_skipAfterDigits : Lenient c (skipping skipAfterDigits) := by
  obtain ⟨-, -, hpoint, he, hE⟩ := ne_of_isSpace hc
  refine .skipping (fun cs => ?_) length_le_of_skipAfterDigits
  unfold skipping
  cases cs with
  | nil =>
      rw [List.nil_append, skipAfterDigits_cons, if_neg hpoint, skipMaybeExponent_cons,
        if_neg (by simp [he, hE])]
      exact .read rfl rfl (Or.inr rfl)
  | cons d cs =>
      rw [List.cons_append, skipAfterDigits_cons, skipAfterDigits_cons, startsWithDigit_concat hc,
        dropWhile_isDigit_concat hc]
      split
      · split
        · exact .failed rfl rfl
        · exact (lenient_skipMaybeExponent hc).alike _
      · exact (lenient_skipMaybeExponent hc).alike (d :: cs)

omit hc in
/-- A number has a digit. -/
theorem length_lt_of_skipUnsigned {cs rest : List Char} (h : skipUnsigned cs = .ok rest) :
    rest.length < cs.length := by
  cases cs with
  | nil => cases h
  | cons d cs =>
      rw [skipUnsigned_cons] at h
      refine Nat.lt_succ_of_le ?_
      split at h
      · split at h
        · cases h
        · exact length_le_of_skipAfterDigits h
      · split at h
        · exact Nat.le_trans (length_le_of_skipAfterDigits h) (length_dropWhile_le _ _)
        · cases h

/-- A number without its sign is passed over up to the space. -/
theorem lenient_skipUnsigned : Lenient c (skipping skipUnsigned) := by
  obtain ⟨-, hzero, -⟩ := ne_of_isSpace hc
  refine .skipping (fun cs => ?_) fun h => Nat.le_of_lt (length_lt_of_skipUnsigned h)
  unfold skipping
  cases cs with
  | nil =>
      rw [List.nil_append, skipUnsigned_cons, if_neg hzero,
        if_neg (by simp [isDigit_of_isSpace hc])]
      exact .failed rfl rfl
  | cons d cs =>
      rw [List.cons_append, skipUnsigned_cons, skipUnsigned_cons, startsWithDigit_concat hc,
        dropWhile_isDigit_concat hc]
      split
      · split
        · exact .failed rfl rfl
        · exact (lenient_skipAfterDigits hc).alike cs
      · split
        · exact (lenient_skipAfterDigits hc).alike _
        · exact .failed rfl rfl

omit hc in
/-- A sign goes before a number. -/
theorem skipNumber_cons (d : Char) (rest : List Char) :
    skipNumber (d :: rest) =
      if d = '-' then skipping skipUnsigned rest else skipping skipUnsigned (d :: rest) := by
  unfold skipNumber
  by_cases hminus : d = '-'
  · subst hminus
    rfl
  · simp [hminus, skipping]

omit hc in
/-- A number that is passed over has a digit at least, so that text is used up. -/
theorem length_lt_of_skipNumber {cs rest : List Char} {u : Unit}
    (h : skipNumber cs = .ok (u, rest)) : rest.length < cs.length := by
  cases cs with
  | nil => cases h
  | cons d cs =>
      rw [skipNumber_cons] at h
      split at h
      · exact Nat.lt_succ_of_lt (length_lt_of_skipUnsigned (skipping_apply h))
      · exact length_lt_of_skipUnsigned (skipping_apply h)

/-- A number is passed over without regard to space behind it. -/
theorem lenient_skipNumber : skipNumber.Lenient c := by
  obtain ⟨hminus, -⟩ := ne_of_isSpace hc
  refine .of_cases ?_ (fun d cs => ?_) fun h => Nat.le_of_lt (length_lt_of_skipNumber h)
  · rw [skipNumber_cons, if_neg hminus]
    exact (lenient_skipUnsigned hc).alike []
  · rw [List.cons_append, skipNumber_cons, skipNumber_cons]
    split
    · exact (lenient_skipUnsigned hc).alike cs
    · exact (lenient_skipUnsigned hc).alike (d :: cs)

end Numbers

/-! ## Nested values -/

/-- Goes on inside the brackets that are still open. -/
def skipRest (bound : Nat) (opened : List Bracket) : Reader Unit :=
  match opened with
  | [] => return ()
  | .list :: _ => skipValues bound opened
  | .object :: _ => do
    skipKey
    skipValues bound opened

/-- A value is passed over, then the brackets behind it, then what is left inside the others. -/
theorem skipValues_succ (bound : Nat) (opened : List Bracket) :
    skipValues (bound + 1) opened = skipOpening >>= fun opening =>
      skipClosing (bound + 1) opening.isNone (opening.toList ++ opened) >>= skipRest bound := by
  refine funext fun cs => bind_congr fun opening rest _ => ?_
  cases opening with
  | none => rfl
  | some bracket => rfl

section Nested

variable (hc : isSpace c)
include hc

theorem lenient_null : (word nullTail).Lenient c :=
  lenient_word hc (by simp [nullTail, isSpace])

theorem lenient_true : (word trueTail).Lenient c :=
  lenient_word hc (by simp [trueTail, isSpace])

theorem lenient_false : (word falseTail).Lenient c :=
  lenient_word hc (by simp [falseTail, isSpace])

/-- The start of a value, be it the whole value or a bracket, is passed over leniently. -/
theorem lenient_skipOpening : skipOpening.Lenient c := by
  refine (lenient_peekValue hc).bind fun d => ?_
  split
  · exact (lenient_null hc).bind fun _ => .pure _
  · exact (lenient_true hc).bind fun _ => .pure _
  · exact (lenient_false hc).bind fun _ => .pure _
  · exact (lenient_skipString hc).bind fun _ => .pure _
  · exact lenient_advance.bind fun _ => .pure _
  · exact lenient_advance.bind fun _ => .pure _
  · split
    · exact (lenient_skipNumber hc).bind fun _ => .pure _
    · exact .throw _

/-- A value or an opening bracket takes a character. -/
theorem length_lt_of_skipOpening {cs rest : List Char} {opening : Option Bracket}
    (h : skipOpening cs = .ok (opening, rest)) : rest.length < cs.length := by
  obtain ⟨d, rest', hpeek, h⟩ := bind_ok h
  obtain ⟨⟨rest', rfl⟩, hle⟩ := exists_of_peekValue hpeek
  refine Nat.lt_of_lt_of_le ?_ hle
  have hletters {tail : List Char} (htail : c ∉ tail) (u : Unit) :
      Lenient c (letters tail >>= fun _ => (pure none : Reader (Option Bracket))) :=
    (lenient_letters htail).bind fun _ => .pure _
  have hnot {tail : List Char} (htail : ∀ d ∈ tail, ¬ isSpace d) : c ∉ tail :=
    fun hmem => htail c hmem hc
  split at h
  · exact length_lt_of_advance (hletters (hnot (by simp [nullTail, isSpace]))) h
  · exact length_lt_of_advance (hletters (hnot (by simp [trueTail, isSpace]))) h
  · exact length_lt_of_advance (hletters (hnot (by simp [falseTail, isSpace]))) h
  · obtain ⟨u, rest'', hskip, hpure⟩ := bind_ok h
    cases hpure
    have hbody : skipping (skipStringBody 0) rest' = .ok (u, rest) := hskip
    exact Nat.lt_succ_of_le (length_le_of_skipStringBody (skipping_apply hbody))
  · exact length_lt_of_advance (c := c) (fun _ => .pure _) h
  · exact length_lt_of_advance (c := c) (fun _ => .pure _) h
  · split at h
    · obtain ⟨u, rest'', hskip, hpure⟩ := bind_ok h
      cases hpure
      exact length_lt_of_skipNumber hskip
    · cases h

/-- The brackets that end here are passed over leniently, by induction on how many are open. -/
theorem lenient_skipClosing (bound : Nat) (settled : Bool) (opened : List Bracket) :
    (skipClosing bound settled opened).Lenient c := by
  induction bound generalizing settled opened with
  | zero => exact .throw _
  | succ bound ih =>
      cases opened with
      | nil => exact .pure _
      | cons bracket outer =>
          refine (lenient_peek? hc).bind fun d? => ?_
          split
          · exact .throw _
          · split
            · exact lenient_advance.bind fun _ => .pure _
            · split
              · exact lenient_advance.bind fun _ => ih _ _
              · split
                · exact .throw _
                · exact .pure _

omit hc in
/-- The length of the text is enough to pass over closing brackets. -/
theorem skipClosing_enough {bound : Nat} {settled : Bool} {opened : List Bracket} {cs : List Char}
    (h : cs.length < bound) :
    skipClosing bound settled opened cs = skipClosing (bound + 1) settled opened cs := by
  induction bound generalizing settled opened cs with
  | zero => cases h
  | succ bound ih =>
      cases opened with
      | nil => rfl
      | cons bracket outer =>
          refine bind_congr fun d? rest hpeek => ?_
          cases hpeek
          have hle := length_dropWhile_le isSpace cs
          cases hcs : cs.dropWhile isSpace with
          | nil => rfl
          | cons d rest =>
              rw [hcs, List.length_cons] at hle
              have hnext : skipClosing bound true outer rest =
                  skipClosing (bound + 1) true outer rest := ih (by omega)
              dsimp only [List.head?_cons]
              by_cases hcomma : settled = true ∧ d = ','
              · simp only [if_pos hcomma]
              · by_cases hcloses : bracket.closedBy d
                · simp only [if_neg hcomma, if_pos hcloses]
                  exact hnext
                · simp only [if_neg hcomma, if_neg hcloses]

/-- A key and its colon are passed over without regard to space behind them. -/
theorem lenient_skipKey : skipKey.Lenient c := by
  refine (lenient_peek? hc).bind fun d? => ?_
  dsimp only
  split
  · exact (lenient_skipString hc).bind fun _ => lenient_colon hc
  · exact (Lenient.throw _).bind fun _ => lenient_colon hc
  · exact (Lenient.throw _).bind fun _ => lenient_colon hc

/-- Values are passed over leniently up to the bracket that closes the outermost one. -/
theorem lenient_skipValues (bound : Nat) (opened : List Bracket) :
    (skipValues bound opened).Lenient c := by
  induction bound generalizing opened with
  | zero => exact .throw _
  | succ bound ih =>
      rw [skipValues_succ]
      refine (lenient_skipOpening hc).bind fun opening =>
        (lenient_skipClosing hc _ _ _).bind fun opened => ?_
      unfold skipRest
      split
      · exact .pure _
      · exact ih _
      · exact (lenient_skipKey hc).bind fun _ => ih _

/-- The length of the text is enough to pass over values. -/
theorem skipValues_enough {bound : Nat} {opened : List Bracket} {cs : List Char}
    (h : cs.length ≤ bound) : skipValues bound opened cs = skipValues (bound + 1) opened cs := by
  induction bound generalizing opened cs with
  | zero =>
      obtain rfl : cs = [] := List.length_eq_zero_iff.mp (Nat.le_zero.mp h)
      rfl
  | succ bound ih =>
      rw [skipValues_succ, skipValues_succ]
      refine bind_congr fun opening rest hopening => ?_
      have hlt := length_lt_of_skipOpening hc hopening
      have hclosing : skipClosing (bound + 1) opening.isNone (opening.toList ++ opened) rest =
          skipClosing (bound + 1 + 1) opening.isNone (opening.toList ++ opened) rest :=
        skipClosing_enough (by omega)
      rw [bind_apply, bind_apply, ← hclosing, ← bind_apply, ← bind_apply]
      refine bind_congr fun opened rest' hclosing => ?_
      have hle := (lenient_skipClosing hc _ _ _).length_le hclosing
      unfold skipRest
      split
      · rfl
      · exact ih (by omega)
      · refine bind_congr fun u rest'' hkey => ?_
        have hle' := (lenient_skipKey hc).length_le hkey
        exact ih (by omega)

/-- A value of any shape and depth is passed over without regard to space behind it. -/
theorem lenient_skipValue : skipValue.Lenient c :=
  .get_bind (f := fun n => skipValues (n + 1) []) (fun _ => lenient_skipValues hc _ _)
    fun _ => skipValues_enough hc (Nat.le_succ _)

end Nested

end StreamWatch.Json.Reader
