import StreamWatch.Proofs.Json.Truncation.Reader
import StreamWatch.Proofs.Json.Truncation.Scaled

/-!
# Numbers that are cut short

What is cut off a number that was written is a number again, or ends after a minus, a point or the
letter of the exponent. A number that is cut has fewer digits, behind the point or in its exponent,
and so it is never too large: the text of every finite double is followed, `follows_write`.
-/

namespace StreamWatch.Json

open Reader

variable {α β : Type} {limit n n' : Nat} {cs ds : List Char}

/-! ## Digits -/

/-- Digits that are appended to the first number one by one give the second, and no number on the
way exceeds the limit. -/
inductive Appends (limit : Nat) : Nat → List Char → Nat → Prop
  | nil (n : Nat) : Appends limit n [] n
  | cons {n n' d : Nat} {c : Char} {cs : List Char} (hdigit : digit? c = some d)
      (hle : n * 10 + d ≤ limit) (hcs : Appends limit (n * 10 + d) cs n') :
      Appends limit n (c :: cs) n'

/-- A character that stands for a digit is one. -/
theorem isDigit_of_digit? {c : Char} {d : Nat} (h : digit? c = some d) : c.isDigit := by
  unfold digit? at h
  split at h
  · assumption
  · cases h

namespace Appends

/-- Digits that are appended are taken, and reading goes on behind them. -/
theorem takeDigits (h : Appends limit n cs n') (taken : Nat) (rest : List Char) :
    takeDigits limit n taken (cs ++ rest) = Json.takeDigits limit n' (taken + cs.length) rest := by
  induction h generalizing taken with
  | nil n => rfl
  | cons hdigit hle _ ih =>
      rw [List.cons_append, Json.takeDigits, hdigit]
      simp only [if_neg (Nat.not_lt.mpr hle)]
      rw [ih, List.length_cons, Nat.add_assoc, Nat.add_comm 1]

/-- Digits can be appended in two parts. -/
theorem split {cs ds : List Char} (h : Appends limit n (cs ++ ds) n') :
    ∃ k, Appends limit n cs k ∧ Appends limit k ds n' := by
  induction cs generalizing n with
  | nil => exact ⟨n, .nil n, h⟩
  | cons c cs ih =>
      cases h with
      | cons hdigit hle hcs =>
          obtain ⟨k, hk, hds⟩ := ih hcs
          exact ⟨k, .cons hdigit hle hk, hds⟩

/-- Two runs of digits can be appended one after the other. -/
theorem append (h : Appends limit n cs n') {k : Nat} (h' : Appends limit n' ds k) :
    Appends limit n (cs ++ ds) k := by
  induction h with
  | nil => exact h'
  | cons hdigit hle _ ih => exact .cons hdigit hle (ih h')

theorem le (h : Appends limit n cs n') : n ≤ n' := by
  induction h with
  | nil => exact Nat.le_refl _
  | cons _ _ _ ih => omega

/-- Appending digits does not exceed the limit. -/
theorem le_limit (h : Appends limit n cs n') (hn : n ≤ limit) : n' ≤ limit := by
  induction h with
  | nil => exact hn
  | cons _ hle _ ih => exact ih hle

/-- Fewer digits give a smaller number. -/
theorem of_cut (h : Appends limit n cs n') {p : List Char} (hp : p <+: cs) :
    ∃ k ≤ n', Appends limit n p k := by
  obtain ⟨q, rfl⟩ := hp
  obtain ⟨k, hk, hq⟩ := h.split
  exact ⟨k, hq.le, hk⟩

theorem isDigit {c : Char} (h : Appends limit n (c :: cs) n') : c.isDigit := by
  cases h with
  | cons hdigit _ _ => exact isDigit_of_digit? hdigit

/-- The decimal digits of a number are appended to nothing to give it. -/
theorem toDigits {n : Nat} (h : n ≤ limit) : Appends limit 0 (Nat.toDigits 10 n) n := by
  -- the last digit is appended to all others
  induction n using Nat.strong_induction_on with
  | _ n ih =>
      by_cases hlt : n < 10
      · rw [Nat.toDigits_of_lt_base hlt]
        exact .cons (digit?_digitChar hlt) (by omega) (by simpa using .nil n)
      · have hstep : n / 10 * 10 + n % 10 = n := by omega
        rw [Nat.toDigits_of_base_le (by decide) (by omega)]
        refine (ih (n / 10) (by omega) (by omega)).append ?_
        refine .cons (digit?_digitChar (Nat.mod_lt _ (by decide))) (by omega) ?_
        rw [hstep]
        exact .nil n

/-- Zeros that are appended to nothing give nothing. -/
theorem replicate_zero (k : Nat) : Appends limit 0 (List.replicate k '0') 0 := by
  induction k with
  | zero => exact .nil 0
  | succ k ih => exact .cons (d := 0) rfl (Nat.zero_le _) ih

end Appends

/-- What does not start with a digit does not start with one when it is cut. -/
theorem startsWithDigit_of_cut {p rest : List Char} (h : startsWithDigit rest = false)
    (hp : p <+: rest) : startsWithDigit p = false := by
  cases p with
  | nil => rfl
  | cons c p =>
      obtain ⟨q, rfl⟩ := hp
      exact h

/-- What does not start with a digit does not start with one for what may follow a value. -/
theorem startsWithDigit_append {tail rest : List Char} (h : startsWithDigit tail = false)
    (hrest : Delimits rest) : startsWithDigit (tail ++ rest) = false := by
  cases tail with
  | nil => exact hrest.not_digit
  | cons c tail => exact h

/-! ## Parts of numbers -/

namespace Reader.Follows

/-- A character that is passed over before the text. -/
theorem cons {x y : Reader α} {c : Char} {text : List Char} (h : y.Follows text)
    (hcons : ∀ cs, x (c :: cs) = y cs) (hnil : CutShort (x [])) : x.Follows (c :: text) where
  whole := by
    obtain ⟨a, ha⟩ := h.whole
    refine ⟨a, fun hrest => ?_⟩
    rw [List.cons_append, hcons]
    exact ha hrest
  cut {p} hp := by
    rcases List.prefix_cons_iff.mp hp with rfl | ⟨p, rfl, htext⟩
    · exact hnil
    · rw [hcons]
      exact h.cut htext

/-- Digits that are taken before a text that goes on with something else. -/
theorem digits {x y : Reader α} {tail : List Char} (h : y.Follows tail)
    (htail : startsWithDigit tail = false)
    (hdigits : ∀ {rest}, startsWithDigit rest = false → x (ds ++ rest) = y rest)
    (hcut : ∀ {p}, p <+: ds → p ≠ ds → CutShort (x p)) : x.Follows (ds ++ tail) where
  whole := by
    obtain ⟨a, ha⟩ := h.whole
    refine ⟨a, fun hrest => ?_⟩
    rw [List.append_assoc, hdigits (startsWithDigit_append htail hrest)]
    exact ha hrest
  cut {p} hp := by
    have hbehind {p : List Char} (hp : p <+: tail) : CutShort (x (ds ++ p)) := by
      rw [hdigits (startsWithDigit_of_cut htail hp)]
      exact h.cut hp
    rcases prefix_append_cases hp with hcuts | ⟨p', rfl, htail'⟩
    · by_cases hall : p = ds
      · rw [hall, ← List.append_nil ds]
        exact hbehind List.nil_prefix
      · exact hcut hcuts hall
    · exact hbehind htail'

end Reader.Follows

section Parts

variable (negative : Bool) {exponent : Int} {text : List Char}

/-- A decimal that fits is read where no exponent follows. -/
theorem follows_maybeExponent_nil (h : Fits n exponent) :
    Follows (maybeExponent negative n exponent) [] := by
  obtain ⟨number, hnumber⟩ := h.exists_scaled negative
  refine .of_ne (a := number) (fun hrest => ?_) fun hp hne => absurd (List.prefix_nil.mp hp) hne
  rw [List.nil_append, hrest.maybeExponent, hnumber]
  rfl

/-- An integer is read where neither a point nor an exponent follows. -/
theorem follows_afterDigits_nil (n : Nat) : Follows (afterDigits negative n) [] :=
  .of_ne (fun hrest => hrest.afterDigits negative n) fun hp hne =>
    absurd (List.prefix_nil.mp hp) hne

/-- A point cut off from its fraction ends too early. -/
theorem follows_afterDigits_point (h : Follows (fractionPart negative n 0) text) :
    Follows (afterDigits negative n) ('.' :: text) :=
  h.cons (fun _ => rfl) (Or.inr ⟨_, rfl⟩)

/-- The letter of an exponent cut off from its digits ends too early. -/
theorem follows_afterDigits_exponent (h : Follows (exponentPart negative n 0) text) :
    Follows (afterDigits negative n) ('e' :: text) :=
  h.cons (fun _ => rfl) (Or.inr ⟨_, rfl⟩)

/-- An exponent may follow a fraction, and be cut off from it. -/
theorem follows_maybeExponent_exponent (hfits : Fits n exponent)
    (h : Follows (exponentPart negative n exponent) text) :
    Follows (maybeExponent negative n exponent) ('e' :: text) :=
  h.cons (fun _ => rfl) ((follows_maybeExponent_nil negative hfits).cut List.nil_prefix)

/-- The digits of a fraction lower the exponent. -/
theorem fractionPart_digits (h : Appends significandLimit n ds n') (hne : ds ≠ [])
    {rest : List Char} (hrest : startsWithDigit rest = false) :
    fractionPart negative n 0 (ds ++ rest) = maybeExponent negative n' (0 - ds.length) rest := by
  have hlength : ds.length ≠ 0 := by simpa using hne
  unfold fractionPart
  rw [h.takeDigits, takeDigits_of_not_digit hrest]
  simp only [hrest, Nat.zero_add, hlength, Bool.false_eq_true, if_false]

/-- Digits behind a point may be cut down to fewer, which lowers the number. -/
theorem follows_fractionPart (h : Appends significandLimit n ds n') (hn : n ≤ significandLimit)
    (hne : ds ≠ []) (htail : startsWithDigit text = false)
    (hexponent : Follows (maybeExponent negative n' (0 - ds.length)) text) :
    Follows (fractionPart negative n 0) (ds ++ text) := by
  refine hexponent.digits htail (fractionPart_digits negative h hne) fun {p} hp _ => ?_
  by_cases hnil : p = []
  · subst hnil
    exact Or.inl ⟨_, rfl, rfl⟩
  · obtain ⟨k, hk, happends⟩ := h.of_cut hp
    have hfits : Fits k (0 - p.length) := .of_nonpos (happends.le_limit hn) (by omega)
    rw [← List.append_nil p, fractionPart_digits negative happends hnil rfl]
    exact (follows_maybeExponent_nil negative hfits).cut List.nil_prefix

/-- The sign of an exponent. -/
def exponentChar (down : Bool) : Char := if down then '-' else '+'

/-- An exponent that is raised or lowered. -/
def shift (down : Bool) (start : Int) (k : Nat) : Int := if down then start - k else start + k

/-- The digits of an exponent may be cut down to fewer, if all exponents on the way fit. -/
theorem follows_exponentDigits {start : Int} {down : Bool} {k : Nat} (hk : k ≤ exponentLimit)
    (hfits : ∀ j ≤ k, Fits n (shift down start j)) :
    Follows (exponentDigits negative n start down) (Nat.toDigits 10 k) := by
  have hdigits {j : Nat} {ds rest : List Char} (h : Appends exponentLimit 0 ds j) (hne : ds ≠ [])
      (hrest : startsWithDigit rest = false) :
      exponentDigits negative n start down (ds ++ rest) =
        (scaled negative n (shift down start j)).map fun number => (number, rest) := by
    obtain ⟨d, ds, rfl⟩ := List.exists_cons_of_ne_nil hne
    rw [exponentDigits.eq_def]
    simp only [List.cons_append, h.isDigit, Bool.not_true, Bool.false_eq_true, if_false]
    rw [← List.cons_append, h.takeDigits, takeDigits_of_not_digit hrest]
    simp only [hrest, Bool.false_eq_true, if_false]
    rw [shift]
    cases scaled negative n (if down then start - j else start + j) <;> rfl
  have hnumber {j : Nat} {ds : List Char} (h : Appends exponentLimit 0 ds j) (hne : ds ≠ [])
      (hj : j ≤ k) : ∃ number, ∀ {rest}, startsWithDigit rest = false →
        exponentDigits negative n start down (ds ++ rest) = .ok (number, rest) := by
    obtain ⟨number, hnumber⟩ := (hfits j hj).exists_scaled negative
    refine ⟨number, fun hrest => ?_⟩
    rw [hdigits h hne hrest, hnumber]
    rfl
  obtain ⟨number, hwhole⟩ := hnumber (.toDigits hk) Nat.toDigits_ne_nil (Nat.le_refl k)
  refine .of_ne (fun hrest => hwhole hrest.not_digit) fun {p} hp _ => ?_
  by_cases hnil : p = []
  · subst hnil
    exact Or.inl ⟨_, rfl, rfl⟩
  · obtain ⟨j, hj, happends⟩ := (Appends.toDigits hk).of_cut hp
    obtain ⟨number, hcut⟩ := hnumber happends hnil hj
    rw [← List.append_nil p, hcut rfl]
    exact Or.inr ⟨number, rfl⟩

/-- The sign of an exponent cut off from its digits ends too early. -/
theorem follows_exponentPart {start : Int} {down : Bool} {k : Nat} (hk : k ≤ exponentLimit)
    (hfits : ∀ j ≤ k, Fits n (shift down start j)) :
    Follows (exponentPart negative n start) (exponentChar down :: Nat.toDigits 10 k) := by
  refine (follows_exponentDigits negative hk hfits).cons (fun cs => ?_) (Or.inl ⟨_, rfl, rfl⟩)
  cases down <;> rfl

/-- The digits before a point or an exponent have no leading zero. -/
theorem unsignedNumber_digits {d : Char} (h : Appends significandLimit 0 (d :: ds) n)
    (hzero : d = '0' → ds = []) {rest : List Char} (hrest : startsWithDigit rest = false) :
    unsignedNumber negative (d :: ds ++ rest) = afterDigits negative n rest := by
  have htake := h.takeDigits 0 rest
  rw [takeDigits_of_not_digit hrest] at htake
  have hdigit := h.isDigit
  by_cases hd : d = '0'
  · obtain rfl := hzero hd
    subst hd
    obtain rfl : n = 0 := by
      cases h with
      | cons hdigit _ hcs =>
          cases hcs
          cases hdigit
          rfl
    rw [List.cons_append, List.nil_append, unsignedNumber_cons, if_pos rfl, hrest]
    rfl
  · rw [List.cons_append, unsignedNumber_cons, if_neg hd, hdigit, ← List.cons_append, htake]
    simp [hrest]

/-- The digits of a number may be cut down to fewer, and what follows them may be cut. -/
theorem follows_unsignedNumber {d : Char} (h : Appends significandLimit 0 (d :: ds) n)
    (hzero : d = '0' → ds = []) (htail : startsWithDigit text = false)
    (hafter : Follows (afterDigits negative n) text) :
    Follows (unsignedNumber negative) (d :: ds ++ text) := by
  refine hafter.digits htail (unsignedNumber_digits negative h hzero) fun {p} hp hne => ?_
  rcases List.prefix_cons_iff.mp hp with rfl | ⟨p, rfl, hds⟩
  · exact Or.inl ⟨_, rfl, rfl⟩
  · obtain ⟨k, -, happends⟩ := h.of_cut hp
    have hzero' : d = '0' → p = [] := fun hd => List.prefix_nil.mp (hzero hd ▸ hds)
    rw [← List.append_nil (d :: p), unsignedNumber_digits negative happends hzero' rfl]
    exact (follows_afterDigits_nil negative k).cut List.nil_prefix

end Parts

/-! ## Numbers -/

/-- A number starts with a digit. -/
theorem startsWithDigit_of_follows {negative : Bool} {text : List Char}
    (h : Follows (unsignedNumber negative) text) : startsWithDigit text := by
  obtain ⟨number, hwhole⟩ := h.whole
  have hread := hwhole .nil
  rw [List.append_nil] at hread
  cases text with
  | nil => cases hread
  | cons c text =>
      rw [unsignedNumber_cons] at hread
      by_cases hzero : c = '0'
      · subst hzero
        rfl
      · by_cases hdigit : c.isDigit
        · exact hdigit
        · rw [if_neg hzero, if_pos (by simp [hdigit])] at hread
          cases hread

/-- A number follows its sign. -/
theorem follows_number {negative : Bool} {text : List Char}
    (h : Follows (unsignedNumber negative) text) :
    number.Follows ((if negative then ['-'] else []) ++ text) := by
  cases negative with
  | true => exact h.cons (fun _ => rfl) (Or.inl ⟨_, rfl, rfl⟩)
  | false =>
      have hunsigned {cs : List Char} (hcs : cs.head? ≠ some '-') :
          number cs = unsignedNumber false cs := by
        cases cs with
        | nil => rfl
        | cons c cs => rw [number_cons, if_neg (fun hc => hcs (congrArg _ hc))]
      obtain ⟨c, text, rfl⟩ : ∃ c rest, text = c :: rest := by
        cases text with
        | nil => cases startsWithDigit_of_follows h
        | cons c rest => exact ⟨c, rest, rfl⟩
      have hne : c ≠ '-' := by
        rintro rfl
        cases startsWithDigit_of_follows h
      obtain ⟨a, ha⟩ := h.whole
      refine ⟨⟨a, fun hrest => ?_⟩, fun {p} hp => ?_⟩
      · rw [if_neg (by decide), List.nil_append, List.cons_append, hunsigned (by simpa using hne)]
        exact ha hrest
      · rcases List.prefix_cons_iff.mp hp with rfl | ⟨p, rfl, -⟩
        · exact Or.inl ⟨_, rfl, rfl⟩
        · rw [hunsigned (by simpa using hne)]
          exact h.cut hp

/-- The digits of a number have no leading zero. -/
theorem exists_toDigits_cons (n : Nat) :
    ∃ d ds, Nat.toDigits 10 n = d :: ds ∧ (d = '0' → ds = []) := by
  rcases Nat.eq_zero_or_pos n with rfl | hpos
  · exact ⟨'0', [], rfl, fun _ => rfl⟩
  · obtain ⟨d, ds, hdigits, hne, -⟩ := exists_toDigits_eq_cons hpos
    exact ⟨d, ds, hdigits, fun hd => absurd hd hne⟩

section Doubles

variable (negative : Bool) {exponent : Int}

/-- A fraction and nothing behind it. -/
theorem follows_fraction (h : Appends significandLimit n ds n') (hn : n ≤ significandLimit)
    (hne : ds ≠ []) : Follows (afterDigits negative n) ('.' :: ds) := by
  have hfits : Fits n' (0 - ds.length) := .of_nonpos (h.le_limit hn) (by omega)
  have hfraction :=
    follows_fractionPart negative h hn hne rfl (follows_maybeExponent_nil negative hfits)
  rw [List.append_nil] at hfraction
  exact follows_afterDigits_point negative hfraction

/-- Digits and a fraction of zero. -/
theorem follows_whole (hn : n * 10 ≤ significandLimit) :
    Follows (unsignedNumber negative) (Nat.toDigits 10 n ++ ['.', '0']) := by
  obtain ⟨d, ds, hdigits, hzero⟩ := exists_toDigits_cons n
  have happends : Appends significandLimit 0 (Nat.toDigits 10 n) n := .toDigits (by omega)
  have hfraction : Appends significandLimit n ['0'] (n * 10) := .cons (d := 0) rfl hn (.nil _)
  rw [hdigits] at happends ⊢
  exact follows_unsignedNumber negative happends hzero rfl
    (follows_fraction negative hfraction (by omega) (by simp))

/-- A double without an exponent. -/
theorem follows_writePositional (hn : n ≤ significandLimit) (hzero : n = 0 → exponent = 0)
    (hlast : exponent + (Nat.toDigits 10 n).length - 1 ≤ 15) :
    Follows (unsignedNumber negative)
      (DoubleLayout.json.writePositional (Nat.toDigits 10 n) exponent) := by
  have happends : Appends significandLimit 0 (Nat.toDigits 10 n) n := .toDigits hn
  have hlength : 0 < (Nat.toDigits 10 n).length := Nat.length_toDigits_pos
  unfold DoubleLayout.writePositional
  split
  · -- a whole number
    obtain ⟨k, rfl⟩ := Int.eq_ofNat_of_zero_le ‹0 ≤ exponent›
    have hdigits : Nat.toDigits 10 n ++ List.replicate k '0' = Nat.toDigits 10 (n * 10 ^ k) := by
      rcases Nat.eq_zero_or_pos n with rfl | hpos
      · have hk : k = 0 := by simpa using hzero rfl
        simp [hk]
      · exact (toDigits_mul_pow hpos k).symm
    have hlt : n * 10 ^ k < 10 ^ 16 := by
      have hshort : (Nat.toDigits 10 (n * 10 ^ k)).length ≤ 16 := by
        rw [← hdigits, List.length_append, List.length_replicate]
        omega
      exact (Nat.length_toDigits_le_iff (by decide) (by decide)).mp hshort
    have hlimit : significandLimit = 2 ^ 64 - 1 := rfl
    rw [Int.toNat_natCast, hdigits]
    exact follows_whole negative (by omega)
  · -- digits behind the point: zero is written without any
    have hpos : 0 < n := by
      by_contra hle
      have := hzero (by omega)
      omega
    dsimp only
    split
    · -- the point stands among the digits
      obtain ⟨d, ds, hdigits, hne, -⟩ := exists_toDigits_eq_cons hpos
      obtain ⟨k, hk⟩ : ∃ k, (Nat.toDigits 10 n).length - (-exponent).toNat = k + 1 :=
        ⟨(Nat.toDigits 10 n).length - (-exponent).toNat - 1, by omega⟩
      rw [hk]
      rw [← List.take_append_drop (k + 1) (Nat.toDigits 10 n)] at happends
      obtain ⟨w, hwhole, hfraction⟩ := happends.split
      have hdrop : (Nat.toDigits 10 n).drop (k + 1) ≠ [] := by
        rw [Ne, List.drop_eq_nil_iff]
        omega
      have hpoint := follows_fraction negative hfraction (hfraction.le.trans hn) hdrop
      have htake : (Nat.toDigits 10 n).take (k + 1) = d :: ds.take k := by
        rw [hdigits, List.take_succ_cons]
      rw [htake] at hwhole ⊢
      exact follows_unsignedNumber negative hwhole (fun hd => absurd hd hne) rfl hpoint
    · -- the point stands before the digits
      have hzeros : Appends significandLimit 0 (List.replicate
          ((-exponent).toNat - (Nat.toDigits 10 n).length) '0') 0 := .replicate_zero _
      have hpoint := follows_fraction negative (hzeros.append happends) (Nat.zero_le _)
        (List.append_ne_nil_of_right_ne_nil _ Nat.toDigits_ne_nil)
      have hfirst : Appends significandLimit 0 ['0'] 0 := .replicate_zero 1
      have hnumber := follows_unsignedNumber negative hfirst (fun _ => rfl) rfl hpoint
      exact hnumber

/-- A double with an exponent: the first digit, a fraction if there are more digits, and the
exponent of the first digit. -/
theorem follows_writeScientific (hn : n ≤ significandLimit)
    (hfits : ∀ j ≤ exponent, Fits n j)
    (hlimit : (exponent + (Nat.toDigits 10 n).length - 1).natAbs ≤ exponentLimit) :
    Follows (unsignedNumber negative)
      (DoubleLayout.writeScientific (Nat.toDigits 10 n)
        (exponent + (Nat.toDigits 10 n).length - 1)) := by
  have happends : Appends significandLimit 0 (Nat.toDigits 10 n) n := .toDigits hn
  obtain ⟨leading, hleading⟩ : ∃ leading, exponent + (Nat.toDigits 10 n).length - 1 = leading :=
    ⟨_, rfl⟩
  rw [hleading] at hlimit ⊢
  -- no exponent up to the one that is written is too large
  have hshift {start : Int} (hstart : start ≤ 0) (hsum : start + leading = exponent) :
      ∀ j ≤ leading.natAbs, Fits n (shift (leading < 0) start j) := by
    intro j hj
    by_cases hneg : leading < 0
    · rw [shift, if_pos (by simpa using hneg)]
      exact .of_nonpos hn (by omega)
    · rw [shift, if_neg (by simpa using hneg)]
      exact hfits _ (by omega)
  have hsign : (if leading < 0 then '-' else '+') = exponentChar (leading < 0) := by
    simp [exponentChar]
  have hexponent {start : Int} (hstart : start ≤ 0) (hsum : start + leading = exponent) :
      Follows (exponentPart negative n start)
        (exponentChar (leading < 0) :: Nat.toDigits 10 leading.natAbs) :=
    follows_exponentPart negative hlimit (hshift hstart hsum)
  unfold DoubleLayout.writeScientific
  dsimp only
  rw [hsign]
  split
  · next d e rest hdigits =>
      rw [hdigits] at happends hleading
      rw [List.length_cons] at hleading
      rw [← List.singleton_append] at happends
      obtain ⟨w, hfirst, hrest⟩ := happends.split
      obtain ⟨d', ds', hcons, hzero⟩ := exists_toDigits_cons n
      obtain ⟨rfl, rfl⟩ := List.cons.inj (hdigits.symm.trans hcons)
      have hfraction := follows_fractionPart negative hrest (hrest.le.trans hn) (by simp) rfl
        (follows_maybeExponent_exponent negative (.of_nonpos hn (by omega))
          (hexponent (by omega) (by omega)))
      have hnumber := follows_unsignedNumber negative hfirst (fun _ => rfl) rfl
        (follows_afterDigits_point negative hfraction)
      exact hnumber
  · next hshort =>
      obtain ⟨d, hdigits⟩ : ∃ d, Nat.toDigits 10 n = [d] := by
        match hmatch : Nat.toDigits 10 n with
        | [] => exact absurd hmatch Nat.toDigits_ne_nil
        | [d] => exact ⟨d, rfl⟩
        | d :: e :: rest => exact absurd hmatch (hshort d e rest)
      rw [hdigits] at happends hleading ⊢
      rw [List.length_singleton] at hleading
      exact follows_unsignedNumber negative happends (fun _ => rfl) rfl
        (follows_afterDigits_exponent negative (hexponent (Int.le_refl 0) (by omega)))

/-- A double without its sign. -/
theorem follows_writeMagnitude (m : Magnitude) :
    Follows (unsignedNumber negative) (DoubleLayout.json.writeMagnitude m) := by
  unfold DoubleLayout.writeMagnitude
  by_cases hplace : m.place = 0
  · rw [if_pos hplace]
    exact follows_whole negative (n := 0) (Nat.zero_le _)
  · rw [if_neg hplace]
    have hm : 0 < m.quarters := by
      have hunits : m.units ≠ 0 := fun hunits => hplace (Magnitude.place_eq_zero_iff.mpr hunits)
      rw [Magnitude.quarters]
      omega
    have hdigits := Magnitude.digits_shortest_lt hm
    have hlimit : significandLimit = 2 ^ 64 - 1 := rfl
    have hpositional : DoubleLayout.json.positional = some (-5, 15) := rfl
    have hlength : 0 < (Nat.toDigits 10 m.shortest.digits).length := Nat.length_toDigits_pos
    have hshort : (Nat.toDigits 10 m.shortest.digits).length ≤ 18 :=
      (Nat.length_toDigits_le_iff (by decide) (by decide)).mpr (by omega)
    simp only [hpositional]
    split
    · next hbetween =>
        exact follows_writePositional negative (by omega)
          Magnitude.exponent_shortest_of_digits_eq_zero hbetween.2
    · refine follows_writeScientific negative (by omega) (fun j hj => ?_) ?_
      · -- the exponent that is written is not too large, and smaller ones are not either
        rcases le_or_gt j 0 with hneg | hpos
        · exact .of_nonpos (by omega) hneg
        · obtain ⟨k, hk⟩ := Int.eq_ofNat_of_zero_le (hpos.le.trans hj)
          obtain ⟨hlargest, hfits⟩ := fits_shortest hm hk
          exact hfits.mono (by omega) (Nat.le_refl _) (hk ▸ hj) (by exact_mod_cast hlargest)
      · have hbounds := m.exponent_shortest_bounds
        unfold exponentLimit
        omega

/-- The text of a finite double is followed. -/
theorem follows_write (m : Magnitude) :
    number.Follows (DoubleLayout.json.write (.finite negative m)) :=
  follows_number (follows_writeMagnitude negative m)

end Doubles

/-! ## Integers -/

/-- Digits that are cut are those of a smaller number. -/
theorem prefix_toDigits {n : Nat} {p : List Char} (hp : p <+: Nat.toDigits 10 n) :
    p = [] ∨ ∃ k ≤ n, p = Nat.toDigits 10 k := by
  induction n using Nat.strong_induction_on with
  | _ n ih =>
      by_cases hlt : n < 10
      · rw [Nat.toDigits_of_lt_base hlt] at hp
        rcases List.prefix_cons_iff.mp hp with hnil | ⟨p, rfl, hrest⟩
        · exact Or.inl hnil
        · rw [List.prefix_nil.mp hrest]
          exact Or.inr ⟨n, Nat.le_refl n, (Nat.toDigits_of_lt_base hlt).symm⟩
      · have hlast := Nat.toDigits_of_base_le (b := 10) (n := n) (by decide) (by omega)
        rw [hlast] at hp
        rcases List.prefix_concat_iff.mp hp with rfl | hrest
        · exact Or.inr ⟨n, Nat.le_refl n, hlast.symm⟩
        · rcases ih (n / 10) (by omega) hrest with hnil | ⟨k, hk, rfl⟩
          · exact Or.inl hnil
          · exact Or.inr ⟨k, by omega, rfl⟩

/-- An integer that is cut is an integer nearer to zero, or a minus alone. -/
theorem prefix_writeInt {n : Int} {p : List Char} (hp : p <+: writeInt n) :
    p = [] ∨ p = ['-'] ∨ ∃ k, p = writeInt k ∧ (n ≤ k ∧ k ≤ 0 ∨ 0 ≤ k ∧ k ≤ n) := by
  unfold writeInt at hp
  by_cases hneg : n < 0
  · rw [if_pos hneg, List.singleton_append] at hp
    rcases List.prefix_cons_iff.mp hp with hnil | ⟨p, rfl, hdigits⟩
    · exact Or.inl hnil
    · rcases prefix_toDigits hdigits with rfl | ⟨k, hk, rfl⟩
      · exact Or.inr (Or.inl rfl)
      · have hpos : 0 < k := by
          by_contra hzero
          obtain rfl : k = 0 := by omega
          obtain ⟨d, ds, hcons, hne, -⟩ := exists_toDigits_eq_cons (n := n.natAbs) (by omega)
          rw [hcons] at hdigits
          exact hne (List.cons_prefix_cons.mp hdigits).1.symm
        refine Or.inr (Or.inr ⟨-k, ?_, Or.inl (by omega)⟩)
        rw [writeInt, if_pos (by omega), Int.natAbs_neg, Int.natAbs_natCast]
        rfl
  · rw [if_neg hneg, List.nil_append] at hp
    rcases prefix_toDigits hp with hnil | ⟨k, hk, rfl⟩
    · exact Or.inl hnil
    · refine Or.inr (Or.inr ⟨k, ?_, Or.inr (by omega)⟩)
      rw [writeInt, if_neg (by omega), Int.natAbs_natCast, List.nil_append]

end StreamWatch.Json
