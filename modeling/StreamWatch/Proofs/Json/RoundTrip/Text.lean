import StreamWatch.Json.Value
import StreamWatch.Proofs.Json.Lenient.Reader
import StreamWatch.Proofs.Text.Hex

/-!
# Strings read back

Whatever characters a string has, it reads back as it was written: `Reader.string_writeText`. The
text of a string stays on one line.
-/

namespace StreamWatch.Json

variable {α β : Type} {c : Char}

/-! ## Single steps -/

namespace Reader

/-- What is read after another reader has taken its part. -/
theorem bind_of_ok {x : Reader α} {cs rest : List Char} {a : α} (h : x cs = .ok (a, rest))
    (f : α → Reader β) : (x >>= f) cs = f a rest := by
  rw [bind_apply, h]
  rfl

/-- A character that is no white space is seen at once. -/
theorem peek?_cons (h : isSpace c = false) (rest : List Char) :
    peek? (c :: rest) = .ok (some c, c :: rest) := by
  rw [peek?_apply, List.dropWhile_cons, h]
  rfl

theorem peekValue_cons (h : isSpace c = false) (rest : List Char) :
    peekValue (c :: rest) = .ok (c, c :: rest) := by
  rw [peekValue, bind_of_ok (peek?_cons h rest)]
  rfl

end Reader

/-! ## Escapes -/

/-- Characters of an escape are passed over. -/
theorem stringBody_append (escaped rest : List Char) :
    stringBody escaped.length (escaped ++ rest) = stringBody 0 rest := by
  induction escaped with
  | nil => rfl
  | cons c escaped ih => exact ih

/-- An escape stands for its character. -/
theorem stringBody_escape {escaped rest : List Char} {d : Char}
    (h : escape (escaped ++ rest) = .ok (d, escaped.length)) :
    stringBody 0 ('\\' :: (escaped ++ rest)) =
      (stringBody 0 rest).map fun read => (d :: read.1, read.2) := by
  have hescape : stringBody 0 ('\\' :: (escaped ++ rest)) =
      (escape (escaped ++ rest)).bind fun read =>
        (stringBody read.2 (escaped ++ rest)).bind fun read' =>
          .ok (read.1 :: read'.1, read'.2) := rfl
  rw [hescape, h, Except.bind, stringBody_append]
  cases stringBody 0 rest <;> rfl

/-- A character that needs no escape stands for itself. -/
theorem stringBody_plain (hquote : c ≠ '"') (hbackslash : c ≠ '\\') (hcontrol : ¬ c.toNat < 0x20)
    (rest : List Char) :
    stringBody 0 (c :: rest) = (stringBody 0 rest).map fun read => (c :: read.1, read.2) := by
  rw [stringBody, if_neg hquote, if_neg hbackslash, if_neg hcontrol]
  cases stringBody 0 rest <;> rfl

/-- Hexadecimal digits take one byte each. -/
theorem utf8Size_digitChar {d : Nat} (h : d < 16) : (Nat.digitChar d).utf8Size = 1 := by
  have hall : ∀ d : Fin 16, (Nat.digitChar d).utf8Size = 1 := by decide
  exact hall ⟨d, h⟩

/-- Four hexadecimal digits are read as the number they were written for. -/
theorem hexQuad_write {n : Nat} (h : n < 16 ^ 4) (rest : List Char) :
    hexQuad (Hex.write n 4 ++ rest) = .ok n := by
  have hread : Hex.read? 0 (Hex.write n 4) = some n := by
    have hread := Hex.read?_write 0 n 4 []
    rwa [List.append_nil, Nat.zero_mul, Nat.zero_add, Nat.mod_eq_of_lt h, Hex.read?] at hread
  have hsize {c : Char} (hc : c ∈ Hex.write n 4) : c.utf8Size = 1 := by
    obtain ⟨d, hd, rfl⟩ := Hex.exists_of_mem_write hc
    exact utf8Size_digitChar hd
  obtain ⟨c₁, c₂, c₃, c₄, hwrite⟩ : ∃ c₁ c₂ c₃ c₄, Hex.write n 4 = [c₁, c₂, c₃, c₄] :=
    ⟨_, _, _, _, rfl⟩
  simp only [hwrite, List.mem_cons, List.not_mem_nil, or_false] at hread hsize
  rw [hwrite]
  simp [hexQuad, hread, hsize]

/-- A control character is read from its number. -/
theorem escape_control (h : c.toNat < 0x20) (rest : List Char) :
    escape ('u' :: Hex.write c.toNat 4 ++ rest) = .ok (c, 5) := by
  have hcloses : closesPair c.toNat = false := by
    simp only [closesPair, Bool.and_eq_false_iff, decide_eq_false_iff_not]
    omega
  have hopens : opensPair c.toNat = false := by
    simp only [opensPair, Bool.and_eq_false_iff, decide_eq_false_iff_not]
    omega
  have hnumber : numberEscape (Hex.write c.toNat 4 ++ rest) = .ok (c, 4) := by
    have hcalc : numberEscape (Hex.write c.toNat 4 ++ rest) =
        .ok (Char.ofNat c.toNat, 4) := by
      rw [numberEscape, hexQuad_write (by omega)]
      simp only [bind, Except.bind, hcloses, hopens]
      rfl
    rw [hcalc, Char.ofNat_toNat]
  rw [List.cons_append, escape, hnumber]
  rfl

/-! ## Strings -/

/-- A character is read as it was written. -/
theorem stringBody_writeChar (c : Char) (rest : List Char) :
    stringBody 0 (Value.writeChar c ++ rest) =
      (stringBody 0 rest).map fun read => (c :: read.1, read.2) := by
  unfold Value.writeChar
  split
  -- but for seven characters with escapes of their own, all stand for themselves or for a number
  case h_8 hquote hbackslash _ _ _ _ _ =>
    split
    · next hcontrol =>
        have hlength : ('u' :: Hex.write c.toNat 4).length = 5 := by simp [Hex.length_write]
        exact stringBody_escape (hlength ▸ escape_control hcontrol rest)
    · next hcontrol => exact stringBody_plain hquote hbackslash hcontrol rest
  all_goals exact @stringBody_escape [_] _ _ rfl

/-- A string is read up to its closing quote. -/
theorem stringBody_flatMap (cs rest : List Char) :
    stringBody 0 (cs.flatMap Value.writeChar ++ '"' :: rest) = .ok (cs, rest) := by
  induction cs with
  | nil => rfl
  | cons c cs ih =>
      rw [List.flatMap_cons, List.append_assoc, stringBody_writeChar, ih]
      rfl

/-- A string that was written is read back, whatever follows it. -/
theorem Reader.string_writeText (s : String) (rest : List Char) :
    Reader.string (Value.writeText s ++ rest) = .ok (s, rest) := by
  have hstring : Reader.string (Value.writeText s ++ rest) =
      (stringBody 0 (s.toList.flatMap Value.writeChar ++ ['"'] ++ rest)).bind fun read =>
        .ok (String.ofList read.1, read.2) := rfl
  rw [hstring, List.append_assoc, List.singleton_append, stringBody_flatMap, Except.bind,
    String.ofList_toList]

/-- A newline is not written as itself. -/
theorem newline_not_mem_writeChar (c : Char) : '\n' ∉ Value.writeChar c := by
  unfold Value.writeChar
  split
  case h_8 hnewline _ _ =>
    split
    · have hdigits : '\n' ∉ Hex.write c.toNat 4 := by
        intro hmem
        obtain ⟨d, hd, hdigit⟩ := Hex.exists_of_mem_write hmem
        have hall : ∀ d : Fin 16, '\n' ≠ Nat.digitChar d := by decide
        exact hall ⟨d, hd⟩ hdigit
      simp [hdigits]
    · exact fun hmem => hnewline (List.mem_singleton.mp hmem).symm
  all_goals decide

/-- A string is written on one line, since line breaks in it are escaped. -/
theorem newline_not_mem_writeText (s : String) : '\n' ∉ Value.writeText s := by
  simp [Value.writeText, newline_not_mem_writeChar]

end StreamWatch.Json
