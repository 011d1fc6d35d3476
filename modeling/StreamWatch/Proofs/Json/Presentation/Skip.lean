import StreamWatch.Proofs.Json.Lenient.Skip
import StreamWatch.Proofs.Json.Presentation.Bracket

/-!
# Any JSON value is passed over

Whatever value a member has that no field is named after, it is passed over as a whole, however deep
its lists and objects are nested: `Reader.reads_skipValue`.
-/

namespace StreamWatch.Json.Reader

variable {opened outer : List Bracket} {cs rest sp text : List Char}

/-! ## Strings and numbers -/

/-- A string that has begun is passed over up to its quote. -/
theorem skipStringBody_isStringText (h : IsStringText text) (rest : List Char) :
    skipStringBody 0 (text ++ '"' :: rest) = .ok rest := by
  induction h with
  | nil => rfl
  | plain hquote hbackslash hcontrol _ ih =>
      rw [List.cons_append, skipStringBody_cons, if_neg hquote, if_neg hbackslash,
        if_neg hcontrol, ih]
  | @letter c cs hc _ ih =>
      have hescape : skipEscape (c :: (cs ++ '"' :: rest)) = .ok 1 := by
        have hne : c ≠ 'u' := by
          rintro rfl
          revert hc
          decide
        unfold skipEscape
        split
        · next heq => cases heq
        · next heq => exact absurd (List.cons.inj heq).1 hne
        · next heq => rw [if_pos ((List.cons.inj heq).1 ▸ hc)]
      rw [List.cons_append, List.cons_append, skipStringBody_cons, if_neg (by decide), if_pos rfl,
        hescape]
      exact ih
  | @unicode a b d e cs hdigits _ ih =>
      obtain ⟨n, hn⟩ := exists_hexQuad hdigits
      have hescape : skipEscape ('u' :: a :: b :: d :: e :: (cs ++ '"' :: rest)) = .ok 5 := by
        rw [skipEscape, hn]
        rfl
      rw [List.cons_append, skipStringBody_cons, if_neg (by decide), if_pos rfl]
      simp only [List.cons_append]
      rw [hescape]
      exact ih

/-- A string is passed over with both its quotes. -/
theorem skipString_isStringText (h : IsStringText text) (rest : List Char) :
    skipString ('"' :: (text ++ '"' :: rest)) = .ok ((), rest) := by
  have hskip : skipString ('"' :: (text ++ '"' :: rest)) =
      (skipStringBody 0 (text ++ '"' :: rest)).map ((), ·) := rfl
  rw [hskip, skipStringBody_isStringText h]
  rfl

/-- The sign and the digits of an exponent are passed over. -/
theorem skipExponent_digits {sign ds : List Char}
    (hsign : sign = [] ∨ sign = ['+'] ∨ sign = ['-']) (hds : IsDigits ds) (hrest : Ends rest) :
    skipExponent (sign ++ ds ++ rest) = .ok rest := by
  have hdigit : startsWithDigit (ds ++ rest) = true := by
    rw [startsWithDigit_digits hds.isDigit hrest.not_digit]
    simp [hds.ne_nil]
  have hexponent : (exponentSign (sign ++ ds ++ rest)).2 = ds ++ rest := by
    rcases hsign with rfl | rfl | rfl
    · obtain ⟨d, ds, rfl⟩ := List.exists_cons_of_ne_nil hds.ne_nil
      have hd : d.isDigit := hds.isDigit d List.mem_cons_self
      unfold exponentSign
      split
      · next heq =>
          cases heq
          cases hd
      · next heq =>
          cases heq
          cases hd
      · rfl
    · rfl
    · rfl
  rw [skipExponent_eq, hexponent, if_pos hdigit, dropWhile_digits hds.isDigit hrest.not_digit]

/-- An exponent is passed over if there is one. -/
theorem skipMaybeExponent_isExponent {exponent : List Char} (h : IsExponent exponent)
    (hrest : Ends rest) : skipMaybeExponent (exponent ++ rest) = .ok rest := by
  cases h with
  | none =>
      cases rest with
      | nil => rfl
      | cons c rest =>
          rw [List.nil_append, skipMaybeExponent_cons, if_neg hrest.ne_exponent.2]
  | digits he hsign hds =>
      rw [List.cons_append, skipMaybeExponent_cons, if_pos he, skipExponent_digits hsign hds hrest]

/-- The fraction and the exponent of a number are passed over if it has them. -/
theorem skipAfterDigits_isFraction {fraction exponent : List Char} (hfraction : IsFraction fraction)
    (h : IsExponent exponent) (hrest : Ends rest) :
    skipAfterDigits (fraction ++ exponent ++ rest) = .ok rest := by
  have hexponent := skipMaybeExponent_isExponent h hrest
  cases hfraction with
  | digits hds =>
      have htail := h.not_digit hrest
      rw [List.cons_append, List.cons_append, skipAfterDigits_cons, if_pos rfl, List.append_assoc,
        startsWithDigit_digits hds.isDigit htail, dropWhile_digits hds.isDigit htail, hexponent]
      simp [hds.ne_nil]
  | none =>
      rw [List.nil_append]
      cases htext : exponent ++ rest with
      | nil =>
          rw [htext] at hexponent
          exact hexponent
      | cons c tail =>
          have hpoint : c ≠ '.' := h.ne_point hrest htext
          rw [skipAfterDigits_cons, if_neg hpoint, ← htext, hexponent]

/-- A number is passed over. -/
theorem skipNumber_isNumber (h : IsNumber text) (hrest : Ends rest) :
    skipNumber (text ++ rest) = .ok ((), rest) := by
  cases h with
  | @parts negative whole fraction exponent hwhole hzero hfraction hexponent =>
      obtain ⟨d, ds, rfl⟩ := List.exists_cons_of_ne_nil hwhole.ne_nil
      have hafter := skipAfterDigits_isFraction hfraction hexponent hrest
      have htail := hfraction.not_digit hexponent hrest
      have hunsigned : skipUnsigned (d :: ds ++ (fraction ++ exponent) ++ rest) = .ok rest := by
        rw [List.append_assoc, List.cons_append, skipUnsigned_cons]
        by_cases hd : d = '0'
        · subst hd
          obtain rfl : ds = [] := (List.cons.inj (hzero rfl)).2
          rw [if_pos rfl, List.nil_append, htail, if_neg (by decide), hafter]
        · have hds : ∀ c ∈ ds, c.isDigit := fun c hc =>
            hwhole.isDigit c (List.mem_cons_of_mem _ hc)
          rw [if_neg hd, if_pos (hwhole.isDigit d List.mem_cons_self),
            dropWhile_digits hds htail, hafter]
      have hskip : skipping skipUnsigned (d :: ds ++ (fraction ++ exponent) ++ rest) =
          .ok ((), rest) := by
        rw [skipping, hunsigned]
        rfl
      cases negative with
      | true => exact hskip
      | false =>
          have hne : d ≠ '-' := by
            rintro rfl
            cases hwhole.isDigit '-' List.mem_cons_self
          rw [if_neg (by decide), List.nil_append, List.append_assoc, List.cons_append,
            skipNumber_cons, if_neg hne, ← List.cons_append, ← List.append_assoc, hskip]

/-! ## Bounds that are large enough -/

/-- Any bound that is not less than the length of the text does. -/
theorem skipValues_eq {n : Nat} (hn : cs.length ≤ n) :
    skipValues n opened cs = skipValues cs.length opened cs := by
  induction n with
  | zero => rw [Nat.le_zero.mp hn]
  | succ n ih =>
      rcases Nat.lt_or_eq_of_le hn with hlt | heq
      · rw [← skipValues_enough (c := ' ') rfl (Nat.lt_succ_iff.mp hlt), ih (by omega)]
      · rw [heq]

/-- Any bound above the length of the text does for closing brackets. -/
theorem skipClosing_eq {n : Nat} {settled : Bool} (hn : cs.length < n) :
    skipClosing n settled opened cs = skipClosing (cs.length + 1) settled opened cs := by
  induction n with
  | zero => cases hn
  | succ n ih =>
      rcases Nat.lt_or_eq_of_le (Nat.lt_succ_iff.mp hn) with hlt | heq
      · rw [← skipClosing_enough hlt, ih hlt]
      · rw [heq]

/-- What follows inside the brackets that are open: with `settled`, a value has just ended. -/
def settle (n : Nat) (settled : Bool) (opened : List Bracket) : Reader Unit :=
  skipClosing (n + 1) settled opened >>= skipRest n

/-- Any bound that is not less than the length of the text does for the next value or key. -/
theorem skipRest_eq {n : Nat} (hn : cs.length ≤ n) :
    skipRest n opened cs = skipRest cs.length opened cs := by
  cases opened with
  | nil => rfl
  | cons bracket outer =>
      cases bracket with
      | list => exact skipValues_eq hn
      | object =>
          refine bind_congr fun u r hkey => ?_
          have hle := (lenient_skipKey (c := ' ') rfl).length_le hkey
          rw [skipValues_eq (by omega), skipValues_eq hle]

theorem settle_eq {n : Nat} {settled : Bool} (hn : cs.length ≤ n) :
    settle n settled opened cs = settle cs.length settled opened cs := by
  rw [settle, settle, bind_apply, bind_apply, skipClosing_eq (Nat.lt_succ_of_le hn),
    ← bind_apply, ← bind_apply]
  refine bind_congr fun opened' r hclosing => ?_
  have hle := (lenient_skipClosing (c := ' ') rfl _ _ _).length_le hclosing
  rw [skipRest_eq (by omega), skipRest_eq hle]

/-! ## Values inside brackets -/

/-- Passes over a value inside the brackets that are open, and over what follows it there. -/
def skipInside (opened : List Bracket) : Reader Unit := fun cs => skipValues cs.length opened cs

/-- Passes over what follows a value inside the brackets that are open. -/
def skipBehind (opened : List Bracket) : Reader Unit := fun cs => settle cs.length true opened cs

/-- Passing over values with a bound is passing over them without one, if the bound is large
enough. -/
theorem skipInside_eq {n : Nat} (hn : cs.length ≤ n) :
    skipValues n opened cs = skipInside opened cs := skipValues_eq hn

/-- A value or an opening bracket comes first. -/
theorem skipInside_of_skipOpening {opening : Option Bracket} {r : List Char}
    (h : skipOpening cs = .ok (opening, r)) :
    skipInside opened cs = settle r.length opening.isNone (opening.toList ++ opened) r := by
  have hlt := length_lt_of_skipOpening (c := ' ') rfl h
  obtain ⟨n, hn⟩ := Nat.exists_eq_add_one.mpr (Nat.zero_lt_of_lt hlt)
  rw [skipInside, hn, skipValues_succ, bind_of_ok h]
  exact settle_eq (by omega)

/-- After a comma another value comes. -/
theorem skipBehind_comma (hsp : AllSpace sp) (bracket : Bracket) (outer : List Bracket)
    (cs : List Char) :
    skipBehind (bracket :: outer) (sp ++ ',' :: cs) =
      skipRest cs.length (bracket :: outer) cs := by
  have hclosing (n : Nat) : skipClosing (n + 1) true (bracket :: outer) (sp ++ ',' :: cs) =
      .ok (bracket :: outer, cs) := by
    rw [skipClosing, bind_of_ok (peek?_before hsp (by decide) cs)]
    rfl
  rw [skipBehind, settle, bind_of_ok (hclosing _)]
  exact skipRest_eq (by simp; omega)

/-- A closing bracket closes the innermost one. -/
theorem settle_close (hsp : AllSpace sp) {bracket : Bracket} {close : Char}
    (hclose : bracket.closedBy close) (n : Nat) (settled : Bool) (outer : List Bracket)
    (hn : (sp ++ close :: cs).length ≤ n) :
    settle n settled (bracket :: outer) (sp ++ close :: cs) = skipBehind outer cs := by
  have hspace : isSpace close = false ∧ close ≠ ',' := by
    cases bracket <;>
      · simp only [Bracket.closedBy, decide_eq_true_eq] at hclose
        subst hclose
        decide
  have hclosing : skipClosing (n + 1) settled (bracket :: outer) (sp ++ close :: cs) =
      skipClosing n true outer cs := by
    rw [skipClosing, bind_of_ok (peek?_before hsp hspace.1 cs)]
    simp only [hspace.2, and_false, if_false, hclose, if_true]
    rfl
  have hlength : cs.length < n := by
    rw [List.length_append, List.length_cons] at hn
    omega
  obtain ⟨n, rfl⟩ := Nat.exists_eq_add_one.mpr (Nat.zero_lt_of_lt hlength)
  rw [settle, bind_apply, hclosing, ← bind_apply]
  have hsettle : settle n true outer cs = skipBehind outer cs :=
    settle_eq (Nat.lt_succ_iff.mp hlength)
  rw [← hsettle, settle]
  refine bind_congr fun opened' r hclosing' => ?_
  have hle := (lenient_skipClosing (c := ' ') rfl _ _ _).length_le hclosing'
  rw [skipRest_eq (by omega), skipRest_eq (n := n) (by omega)]

/-- No bracket is closed before the first value or key. -/
theorem settle_open {c : Char} (hsp : AllSpace sp) (hc : isSpace c = false) {bracket : Bracket}
    (hclose : bracket.closedBy c = false) (n : Nat) (outer : List Bracket) (cs : List Char) :
    settle n false (bracket :: outer) (sp ++ c :: cs) =
      skipRest n (bracket :: outer) (c :: cs) := by
  have hclosing : skipClosing (n + 1) false (bracket :: outer) (sp ++ c :: cs) =
      .ok (bracket :: outer, c :: cs) := by
    rw [skipClosing, bind_of_ok (peek?_before hsp hc cs)]
    simp [hclose]
    rfl
  rw [settle, bind_of_ok hclosing]

theorem spaced_skipOpening : skipOpening.Spaced := spaced_peekValue.bind _

theorem spaced_skipInside (opened : List Bracket) : (skipInside opened).Spaced := by
  intro sp hsp cs
  have hspaced : (skipValues (sp ++ cs).length opened).Spaced := by
    cases (sp ++ cs).length with
    | zero => exact fun _ _ _ => rfl
    | succ n =>
        rw [skipValues_succ]
        exact spaced_skipOpening.bind _
  rw [skipInside, hspaced hsp, skipInside_eq (by simp)]

/-- A member is passed over as its key, its colon and its value. -/
theorem skipRest_member {m : Member} (hm : m.Spaced) {n : Nat} (rest : List Char)
    (hn : (m.text ++ rest).length ≤ n) (outer : List Bracket) :
    skipRest n (.object :: outer) (m.text ++ rest) =
      skipInside (.object :: outer) (m.value ++ (m.after ++ rest)) := by
  have hkey : skipKey (m.text ++ rest) =
      .ok ((), m.gap ++ (m.value ++ (m.after ++ rest))) := by
    have htext : m.text ++ rest = m.before ++ '"' :: (m.key ++ '"' ::
        (m.colon ++ ':' :: (m.gap ++ (m.value ++ (m.after ++ rest))))) := by
      simp [Member.text, quoted, Member.assigned]
    rw [htext, skipKey, bind_of_ok (peek?_before hm.before (by decide) _)]
    exact (bind_of_ok (skipString_isStringText hm.key _) _).trans (colon_text hm.colon _)
  have hle := (lenient_skipKey (c := ' ') rfl).length_le hkey
  rw [skipRest, bind_of_ok hkey, skipInside_eq (by omega), spaced_skipInside _ hm.gap]

/-! ## Values -/

/-- A number that is passed over opens no bracket. -/
theorem skipOpening_number (h : IsNumber text) (hrest : Ends rest) :
    skipOpening (text ++ rest) = .ok (none, rest) := by
  have hskip := skipNumber_isNumber h hrest
  obtain ⟨c, text, rfl, hc⟩ := h.starts
  rw [List.cons_append] at hskip ⊢
  rw [skipOpening, bind_of_ok (peekValue_cons (Opens.of_startsNumber hc).not_space _)]
  split
  all_goals
    first
    | exact absurd hc (by decide)
    | rw [if_pos hc]
      exact bind_of_ok hskip _

/-- A value that opens no bracket is passed over at once. -/
theorem skipInside_single {v : List Char} (hopening : skipOpening (v ++ rest) = .ok (none, rest))
    (opened : List Bracket) : skipInside opened (v ++ rest) = skipBehind opened rest :=
  skipInside_of_skipOpening hopening

section Elements

variable {es : List Element} {ms : List Member}

/-- The value is passed over as a whole, in whatever brackets it stands. -/
def Skips (v : List Char) : Prop :=
  ∀ (opened : List Bracket) {rest}, Ends rest →
    skipInside opened (v ++ rest) = skipBehind opened rest

/-- The elements behind the first one are passed over one by one. -/
theorem skipBehind_elements (hspaced : ∀ e ∈ es, e.Spaced) (h : ∀ e ∈ es, Skips e.value)
    (hsp : AllSpace sp) (outer : List Bracket) (rest : List Char) :
    skipBehind (.list :: outer) (sp ++ (remaining false (es.map Element.text) ++ ']' :: rest)) =
      skipBehind outer rest := by
  induction es generalizing sp with
  | nil => exact settle_close hsp rfl _ _ _ (Nat.le_refl _)
  | cons e es ih =>
      rw [List.forall_mem_cons] at hspaced h
      have hends := (ends_remaining (es.map Element.text) (Or.inl rfl) rest).append
        hspaced.1.after
      have htext : remaining false ((e :: es).map Element.text) ++ ']' :: rest =
          ',' :: (e.before ++ (e.value ++ (e.after ++
            (remaining false (es.map Element.text) ++ ']' :: rest)))) := by
        simp [remaining, Element.text]
      rw [htext, skipBehind_comma hsp, skipRest, skipInside_eq (Nat.le_refl _),
        spaced_skipInside _ hspaced.1.before, h.1 _ hends]
      exact ih hspaced.2 h.2 hspaced.1.after

/-- A list is passed over. -/
theorem skips_list {blank : List Char} (hblank : AllSpace blank)
    (hspaced : ∀ e ∈ es, e.Spaced) (hvalue : ∀ e ∈ es, IsValue e.value)
    (h : ∀ e ∈ es, Skips e.value) : Skips (listText blank es) := by
  intro opened rest _
  have hopening : skipOpening (listText blank es ++ rest) =
      .ok (some .list, blank ++ (remaining true (es.map Element.text) ++ ']' :: rest)) := by
    have htext : listText blank es ++ rest =
        '[' :: (blank ++ (remaining true (es.map Element.text) ++ ']' :: rest)) := by
      simp [listText]
    rw [htext]
    rfl
  rw [skipInside_of_skipOpening hopening]
  cases es with
  | nil => exact settle_close hblank rfl _ _ _ (Nat.le_refl _)
  | cons e es =>
      rw [List.forall_mem_cons] at hspaced hvalue h
      obtain ⟨c, value, hc, hopens⟩ := Opens.of_isValue hvalue.1
      have hends := (ends_remaining (es.map Element.text) (Or.inl rfl) rest).append
        hspaced.1.after
      have htext : blank ++ (remaining true ((e :: es).map Element.text) ++ ']' :: rest) =
          (blank ++ e.before) ++ c :: (value ++ (e.after ++
            (remaining false (es.map Element.text) ++ ']' :: rest))) := by
        simp [remaining, Element.text, hc]
      have hclose : Bracket.list.closedBy c = false := by simp [Bracket.closedBy, hopens.ne_bracket]
      rw [htext, Option.toList_some, List.singleton_append, Option.isNone_some,
        settle_open (hblank.append hspaced.1.before) hopens.not_space hclose, skipRest,
        skipInside_eq (by simp; omega), ← List.cons_append, ← hc, h.1 _ hends]
      exact skipBehind_elements hspaced.2 h.2 hspaced.1.after opened rest

/-- The members behind the first one are passed over one by one. -/
theorem skipBehind_members (hspaced : ∀ m ∈ ms, m.Spaced) (h : ∀ m ∈ ms, Skips m.value)
    (hsp : AllSpace sp) (outer : List Bracket) (rest : List Char) :
    skipBehind (.object :: outer) (sp ++ (remaining false (ms.map Member.text) ++ '}' :: rest)) =
      skipBehind outer rest := by
  induction ms generalizing sp with
  | nil => exact settle_close hsp rfl _ _ _ (Nat.le_refl _)
  | cons m ms ih =>
      rw [List.forall_mem_cons] at hspaced h
      have hends := (ends_remaining (ms.map Member.text) (Or.inr rfl) rest).append
        hspaced.1.after
      have htext : remaining false ((m :: ms).map Member.text) ++ '}' :: rest =
          ',' :: (m.text ++ (remaining false (ms.map Member.text) ++ '}' :: rest)) := by
        simp [remaining]
      rw [htext, skipBehind_comma hsp, skipRest_member hspaced.1 _ (Nat.le_refl _), h.1 _ hends]
      exact ih hspaced.2 h.2 hspaced.1.after

/-- An object is passed over. -/
theorem skips_object {blank : List Char} (hblank : AllSpace blank)
    (hspaced : ∀ m ∈ ms, m.Spaced) (h : ∀ m ∈ ms, Skips m.value) :
    Skips (objectText blank ms) := by
  intro opened rest _
  have hopening : skipOpening (objectText blank ms ++ rest) =
      .ok (some .object, blank ++ (remaining true (ms.map Member.text) ++ '}' :: rest)) := by
    have htext : objectText blank ms ++ rest =
        '{' :: (blank ++ (remaining true (ms.map Member.text) ++ '}' :: rest)) := by
      simp [objectText]
    rw [htext]
    rfl
  rw [skipInside_of_skipOpening hopening]
  cases ms with
  | nil => exact settle_close hblank rfl _ _ _ (Nat.le_refl _)
  | cons m ms =>
      rw [List.forall_mem_cons] at hspaced h
      have hends := (ends_remaining (ms.map Member.text) (Or.inr rfl) rest).append
        hspaced.1.after
      -- the white space before the key is passed over with the white space behind the brace
      let key : Member := { m with before := [] }
      have hkey : key.Spaced := { hspaced.1 with before := .nil }
      have hopen : blank ++ (remaining true ((m :: ms).map Member.text) ++ '}' :: rest) =
          (blank ++ m.before) ++ '"' :: (m.key ++ '"' :: (m.assigned ++ (m.after ++
            (remaining false (ms.map Member.text) ++ '}' :: rest)))) := by
        simp [remaining, Member.text, quoted]
      have htext : '"' :: (m.key ++ '"' :: (m.assigned ++ (m.after ++
            (remaining false (ms.map Member.text) ++ '}' :: rest)))) =
          key.text ++ (remaining false (ms.map Member.text) ++ '}' :: rest) := by
        simp [key, Member.text, quoted, Member.assigned]
      rw [hopen, Option.toList_some, List.singleton_append, Option.isNone_some,
        settle_open (hblank.append hspaced.1.before) (by decide) rfl, htext,
        skipRest_member hkey _ (by simp; omega), h.1 _ hends]
      exact skipBehind_members hspaced.2 h.2 hspaced.1.after opened rest

end Elements

/-- A JSON value is passed over as a whole. -/
theorem skips_isValue {v : List Char} (h : IsValue v) : Skips v := by
  induction h with
  | null => exact fun opened rest _ => skipInside_single rfl opened
  | true => exact fun opened rest _ => skipInside_single rfl opened
  | false => exact fun opened rest _ => skipInside_single rfl opened
  | number h =>
      intro opened rest hrest
      exact skipInside_single (skipOpening_number h hrest) opened
  | @string text h =>
      intro opened rest hrest
      have htext : quoted text ++ rest = '"' :: (text ++ '"' :: rest) := by simp [quoted]
      refine skipInside_single ?_ opened
      rw [htext, skipOpening, bind_of_ok (peekValue_cons (by decide) _)]
      exact bind_of_ok (skipString_isStringText h rest) _
  | list hblank hspaced hvalue ih => exact skips_list hblank hspaced hvalue ih
  | object hblank hspaced _ ih => exact skips_object hblank hspaced ih

/-- The value of a member that no field is named after is passed over. -/
theorem reads_skipValue {v : List Char} (h : IsValue v) : skipValue.Reads v () := by
  intro rest hrest
  have hskip (cs : List Char) : skipValue cs = skipValues (cs.length + 1) [] cs := rfl
  rw [hskip, skipInside_eq (Nat.le_succ _), skips_isValue h [] hrest]
  rfl

/-- A value to pass over is looked for past white space. -/
theorem spaced_skipValue : skipValue.Spaced := by
  intro sp hsp cs
  have hskip (cs : List Char) : skipValue cs = skipInside [] cs :=
    skipInside_eq (Nat.le_succ _)
  rw [hskip, hskip, spaced_skipInside [] hsp]

end StreamWatch.Json.Reader
