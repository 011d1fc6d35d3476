import StreamWatch.Proofs.Binary64.Whole
import StreamWatch.Proofs.Json.Lenient.Number

/-!
# Numbers read back

Integers of 64 bits read back as they were written, and so do doubles that are whole numbers of up
to fifteen digits. Such a double is read as the integer ten times as large and divided by ten, and
neither step rounds.
-/

namespace StreamWatch.Json

/-- What may follow a value that was written: nothing, or punctuation. -/
def Delimits (rest : List Char) : Prop := ∀ c ∈ rest.head?, c = ',' ∨ c = ']' ∨ c = '}'

/-! ## Digits -/

/-- The character of a digit stands for that digit. -/
theorem digit?_digitChar {d : Nat} (h : d < 10) : digit? (Nat.digitChar d) = some d := by
  have hall : ∀ d : Fin 10, digit? (Nat.digitChar d) = some d.val := by decide
  exact hall ⟨d, h⟩

/-- The digits of a number are taken whole. -/
theorem takeDigits_toDigits {limit n : Nat} (h : n ≤ limit) (rest : List Char) :
    takeDigits limit 0 0 (Nat.toDigits 10 n ++ rest) =
      takeDigits limit n (Nat.toDigits 10 n).length rest := by
  -- the digits are taken from the left, so the last one is taken on top of all others
  induction n using Nat.strong_induction_on generalizing rest with
  | _ n ih =>
      by_cases hlt : n < 10
      · rw [Nat.toDigits_of_lt_base hlt, List.singleton_append, takeDigits, digit?_digitChar hlt]
        simp only [Nat.zero_mul, Nat.zero_add, List.length_singleton]
        rw [if_neg (by omega)]
      · have hstep : n / 10 * 10 + n % 10 = n := by omega
        rw [Nat.toDigits_of_base_le (by decide) (by omega), List.append_assoc,
          ih (n / 10) (by omega) (by omega), List.singleton_append, takeDigits,
          digit?_digitChar (Nat.mod_lt _ (by decide))]
        simp only [hstep, List.length_append, List.length_singleton]
        rw [if_neg (by omega)]

/-- No more digits are taken than there are. -/
theorem takeDigits_of_not_digit {rest : List Char} (h : startsWithDigit rest = false)
    (limit n taken : Nat) : takeDigits limit n taken rest = (n, taken, rest) := by
  cases rest with
  | nil => rfl
  | cons c rest =>
      have hdigit : digit? c = none := by
        have hc : c.isDigit = false := by simpa [startsWithDigit] using h
        simp [digit?, hc]
      simp only [takeDigits, hdigit]

/-- The digits of a positive number do not start with zero. -/
theorem exists_toDigits_eq_cons {n : Nat} (h : 0 < n) :
    ∃ d ds, Nat.toDigits 10 n = d :: ds ∧ d ≠ '0' ∧ d.isDigit := by
  induction n using Nat.strong_induction_on with
  | _ n ih =>
      by_cases hlt : n < 10
      · have hall : ∀ d : Fin 10, 0 < d.val →
            Nat.digitChar d ≠ '0' ∧ (Nat.digitChar d).isDigit := by decide
        exact ⟨_, [], Nat.toDigits_of_lt_base hlt, hall ⟨n, hlt⟩ h⟩
      · obtain ⟨d, ds, hdigits, hd⟩ := ih (n / 10) (by omega) (by omega)
        refine ⟨d, ds ++ [Nat.digitChar (n % 10)], ?_, hd⟩
        rw [Nat.toDigits_of_base_le (by decide) (by omega), hdigits]
        rfl

/-- A number is its digits and what follows them. -/
theorem unsignedNumber_toDigits {n : Nat} (h : n ≤ significandLimit) {rest : List Char}
    (hrest : startsWithDigit rest = false) (negative : Bool) :
    unsignedNumber negative (Nat.toDigits 10 n ++ rest) = afterDigits negative n rest := by
  by_cases hzero : n = 0
  · subst hzero
    change unsignedNumber negative ('0' :: rest) = _
    rw [unsignedNumber_cons, if_pos rfl, hrest]
    rfl
  · obtain ⟨d, ds, hdigits, hne, hdigit⟩ := exists_toDigits_eq_cons (Nat.pos_of_ne_zero hzero)
    have htake := takeDigits_toDigits h rest
    rw [takeDigits_of_not_digit hrest, hdigits, List.cons_append] at htake
    rw [hdigits, List.cons_append, unsignedNumber_cons, if_neg hne, hdigit, htake]
    simp [hrest]

/-! ## What follows a number -/

theorem Delimits.nil : Delimits [] := by simp [Delimits]

/-- No digit may follow a value. -/
theorem Delimits.not_digit {rest : List Char} (h : Delimits rest) :
    startsWithDigit rest = false := by
  cases rest with
  | nil => rfl
  | cons c rest =>
      rcases h c rfl with rfl | rfl | rfl <;> rfl

/-- A number that nothing belongs to is whole. -/
theorem Delimits.afterDigits {rest : List Char} (h : Delimits rest) (negative : Bool) (n : Nat) :
    Json.afterDigits negative n rest = .ok (wholeNumber negative n, rest) := by
  cases rest with
  | nil => rfl
  | cons c rest =>
      rw [afterDigits_cons]
      rcases h c rfl with rfl | rfl | rfl <;> rfl

/-- A number with a fraction that nothing more belongs to is computed from its digits. -/
theorem Delimits.maybeExponent {rest : List Char} (h : Delimits rest) (negative : Bool) (n : Nat)
    (exponent : Int) :
    Json.maybeExponent negative n exponent rest =
      (scaled negative n exponent).map fun number => (number, rest) := by
  have hscaled : (do return (← scaled negative n exponent, rest) : Except Fault _) =
      (scaled negative n exponent).map fun number => (number, rest) := by
    cases scaled negative n exponent <;> rfl
  rw [← hscaled]
  cases rest with
  | nil => rfl
  | cons c rest =>
      rw [maybeExponent_cons]
      rcases h c rfl with rfl | rfl | rfl <;> rfl

/-! ## Integers -/

/-- Without a sign a number is its digits and what follows them. -/
theorem number_toDigits (n : Nat) (rest : List Char) :
    Reader.number (Nat.toDigits 10 n ++ rest) =
      unsignedNumber false (Nat.toDigits 10 n ++ rest) := by
  obtain ⟨d, ds, hdigits⟩ := List.exists_cons_of_ne_nil (Nat.toDigits_ne_nil (n := n) (b := 10))
  have hdigit : d.isDigit := Nat.isDigit_of_mem_toDigits (b := 10) (n := n) (by decide) (by decide)
    (by rw [hdigits]; exact List.mem_cons_self)
  have hne : d ≠ '-' := by
    rintro rfl
    exact absurd hdigit (by decide)
  rw [hdigits, List.cons_append, number_cons, if_neg hne]

/-- An integer of 64 bits, with or without a sign, is read back. -/
theorem number_writeInt {n : Int} (h : Int64.minValue.toInt ≤ n) (h' : n ≤ significandLimit)
    {rest : List Char} (hrest : Delimits rest) :
    Reader.number (writeInt n ++ rest) = .ok (.integer n, rest) := by
  have hmin : Int64.minValue.toInt = -2 ^ 63 := rfl
  have hmax : significandLimit = 2 ^ 64 - 1 := rfl
  have hlimit : n.natAbs ≤ significandLimit := by omega
  have hunsigned (negative : Bool) :
      unsignedNumber negative (Nat.toDigits 10 n.natAbs ++ rest) =
        .ok (wholeNumber negative n.natAbs, rest) := by
    rw [unsignedNumber_toDigits hlimit hrest.not_digit, hrest.afterDigits]
  by_cases hneg : n < 0
  · have hwhole : wholeNumber true n.natAbs = .integer n := by
      have hfits : ¬ (n.natAbs = 0 ∨ -(n.natAbs : Int) < Int64.minValue.toInt) := by omega
      rw [wholeNumber, if_neg (by simp), if_neg hfits]
      congr 1
      omega
    rw [writeInt, if_pos hneg, List.append_assoc, List.singleton_append, number_cons, if_pos rfl,
      hunsigned, hwhole]
  · have hwhole : wholeNumber false n.natAbs = .integer n := by
      rw [wholeNumber, if_pos (by simp)]
      congr 1
      omega
    rw [writeInt, if_neg hneg, List.nil_append, number_toDigits, hunsigned, hwhole]

/-! ## Doubles -/

/-- A power of ten that is a double is that double. -/
theorem powerOfTen_eq {k n : Nat} (hn : Nat.pow 10 k = n) {m : Magnitude} (h : m.IsWhole n) :
    powerOfTen k = m := by
  rw [powerOfTen, hn, h.ofNat?, Option.getD_some]

theorem powerOfTen_one : (powerOfTen 1).IsWhole 10 := by
  obtain ⟨m, hm⟩ := Magnitude.exists_isWhole (n := 10) (by omega)
  rw [powerOfTen_eq (by decide) hm]
  exact hm

/-- A magnitude that is divided by no power stays as it is. -/
theorem divideByLargest_zero (m : Magnitude) : divideByLargest 0 m = some m := by
  rw [divideByLargest]

/-- How often the largest power is divided by comes first. -/
theorem scaleDown_eq (m : Magnitude) (k times : Nat) (h : (k - 1) / largestPower = times) :
    scaleDown m k =
      (divideByLargest times m).bind (·.div? (powerOfTen (k - times * largestPower))) := by
  unfold scaleDown
  rw [h]

/-- One decimal place is a division by ten. -/
theorem scaleDown_one (m : Magnitude) : scaleDown m 1 = m.div? (powerOfTen 1) := by
  have htimes : (1 - 1) / largestPower = 0 := by simp
  rw [scaleDown_eq m 1 0 htimes, divideByLargest_zero, Option.bind_some, Nat.zero_mul,
    Nat.sub_zero]

/-- An exponent of minus one is a division by ten. -/
theorem scaleByTen_neg_one (m : Magnitude) : scaleByTen m (-1) = m.div? (powerOfTen 1) := by
  have hplaces : (-(-1 : Int)).toNat = 1 := by decide
  have hneg : (-1 : Int) < 0 := by decide
  rw [scaleByTen, if_pos hneg, hplaces, scaleDown_one]

-- The two functions are compared, not their values: comparing values would compute the double.
theorem scaled_def : scaled = fun negative significand exponent =>
    match (Magnitude.ofNat? significand).bind (scaleByTen · exponent) with
    | some m => .ok (.real (.finite negative m))
    | none => .error .numberOutOfRange := by
  delta scaled
  rfl

/-- Ten times a whole number and a decimal place give that number. -/
theorem scaled_of_isWhole {m : Magnitude} {n : Nat} (h : m.IsWhole n) (hn : n ≤ 10 ^ 15)
    (negative : Bool) : scaled negative (n * 10) (-1) = .ok (.real (.finite negative m)) := by
  obtain ⟨ten, hten⟩ := Magnitude.exists_isWhole_two_mul (n := 5 * n) (by omega)
  have htwice : 2 * (5 * n) = n * 10 := by omega
  rw [htwice] at hten
  rw [scaled_def]
  beta_reduce
  rw [hten.ofNat?, Option.bind_some, scaleByTen_neg_one,
    hten.div? powerOfTen_one h (by decide)]

/-- A digit after the point is one decimal place. -/
theorem fractionPart_zero {n : Nat} (hn : n * 10 ≤ significandLimit) {rest : List Char}
    (hrest : Delimits rest) (negative : Bool) :
    fractionPart negative n 0 ('0' :: rest) =
      (scaled negative (n * 10) (-1)).map fun number => (number, rest) := by
  have hzero : digit? '0' = some 0 := rfl
  have htake : takeDigits significandLimit n 0 ('0' :: rest) = (n * 10, 1, rest) := by
    rw [takeDigits, hzero]
    simp only [Nat.add_zero, Nat.zero_add]
    rw [if_neg (by omega), takeDigits_of_not_digit hrest.not_digit]
  have hone : (0 : Int) - ((1 : Nat) : Int) = -1 := by decide
  unfold fractionPart
  rw [htake]
  simp only [hrest.not_digit, hrest.maybeExponent, hone, Bool.false_eq_true, if_false,
    Nat.one_ne_zero]

/-- The text of a double that is a whole number. -/
theorem write_append {m : Magnitude} {n : Nat} (h : m.IsWhole n) (hn : n ≤ 10 ^ 15)
    (negative : Bool) (rest : List Char) :
    DoubleLayout.json.write (.finite negative m) ++ rest =
      (if negative then ['-'] else []) ++ (Nat.toDigits 10 n ++ '.' :: '0' :: rest) := by
  rw [DoubleLayout.write, h.writeMagnitude hn]
  simp only [List.append_assoc, List.cons_append, List.nil_append]

/-- A double that is a whole number is read back. -/
theorem number_write {m : Magnitude} {n : Nat} (h : m.IsWhole n) (hn : n ≤ 10 ^ 15)
    (negative : Bool) {rest : List Char} (hrest : Delimits rest) :
    Reader.number (DoubleLayout.json.write (.finite negative m) ++ rest) =
      .ok (.real (.finite negative m), rest) := by
  have hlimit : n * 10 ≤ significandLimit := by
    have hsize : significandLimit = 2 ^ 64 - 1 := rfl
    omega
  have hunsigned : unsignedNumber negative (Nat.toDigits 10 n ++ '.' :: '0' :: rest) =
      .ok (.real (.finite negative m), rest) := by
    rw [unsignedNumber_toDigits (by omega) rfl, afterDigits_cons, if_pos rfl,
      fractionPart_zero hlimit hrest, scaled_of_isWhole h hn]
    rfl
  rw [write_append h hn]
  cases negative with
  | true => rw [if_pos rfl, List.singleton_append, number_cons, if_pos rfl, hunsigned]
  | false => rw [if_neg (by decide), List.nil_append, number_toDigits, hunsigned]

end StreamWatch.Json
