import StreamWatch.Text.Utf8

/-!
# Lines of a text

An input that is the bytes of a text is read as the lines of that text: `lines_encode`. Decoding
undoes encoding, sequence by sequence, and the byte that ends a line is part of no other character,
so that it makes no difference whether bytes or characters are cut into lines.
-/

namespace StreamWatch.Utf8

/-! ## Sequences -/

/-- A byte of this value continues a sequence. -/
theorem isTail_ofNat {n : Nat} (h : 0x80 ≤ n ∧ n < 0xc0) : isTail (UInt8.ofNat n) := by
  have hn : (UInt8.ofNat n).toNat = n := UInt8.toNat_ofNat_of_lt' (show n < 256 by omega)
  simp only [isTail, Bool.and_eq_true, decide_eq_true_eq, UInt8.le_iff_toNat_le, hn,
    UInt8.toNat_ofNat]
  omega

/-- A byte follows another one if it continues a sequence and the sequence is neither overlong nor
that of a surrogate nor beyond the last character. -/
theorem follows_ofNat {a b : Nat} (ha : a < 256) (hb : 0x80 ≤ b ∧ b < 0xc0)
    (he0 : a = 0xe0 → 0xa0 ≤ b) (hed : a = 0xed → b < 0xa0) (hf0 : a = 0xf0 → 0x90 ≤ b)
    (hf4 : a = 0xf4 → b < 0x90) : follows (UInt8.ofNat a) (UInt8.ofNat b) := by
  have ha' := UInt8.toNat_ofNat_of_lt' ha
  have hb' : (UInt8.ofNat b).toNat = b := UInt8.toNat_ofNat_of_lt' (show b < 256 by omega)
  simp only [follows, ← UInt8.toNat_inj, ha', UInt8.toNat_ofNat]
  repeat' split
  all_goals
    first
    | exact isTail_ofNat hb
    | simp only [Bool.and_eq_true, decide_eq_true_eq, UInt8.le_iff_toNat_le, hb', UInt8.toNat_ofNat]
      omega

section Sequences

variable (index : Nat) (rest : List UInt8) {a b c d : Nat}

/-- A sequence of one byte. -/
theorem decodeFrom_one (ha : a < 0x80) :
    decodeFrom index (UInt8.ofNat a :: rest) =
      (decodeFrom (index + 1) rest).map (Char.ofNat a :: ·) := by
  have ha' : (UInt8.ofNat a).toNat = a := UInt8.toNat_ofNat_of_lt' (show a < 256 by omega)
  have hlt : UInt8.ofNat a < 0x80 := by simpa only [UInt8.lt_iff_toNat_lt, ha']
  rw [decodeFrom.eq_def]
  simp only [if_pos hlt, ha']

/-- A sequence of two bytes. -/
theorem decodeFrom_two (ha : 0xc2 ≤ a ∧ a < 0xe0) (hb : 0x80 ≤ b ∧ b < 0xc0) :
    decodeFrom index (UInt8.ofNat a :: UInt8.ofNat b :: rest) =
      (decodeFrom (index + 2) rest).map (Char.ofNat (a % 32 * 64 + b % 64) :: ·) := by
  have ha' : (UInt8.ofNat a).toNat = a := UInt8.toNat_ofNat_of_lt' (show a < 256 by omega)
  have hb' : (UInt8.ofNat b).toNat = b := UInt8.toNat_ofNat_of_lt' (show b < 256 by omega)
  have hfollows : follows (UInt8.ofNat a) (UInt8.ofNat b) :=
    follows_ofNat (by omega) hb (by omega) (by omega) (by omega) (by omega)
  have hlow : ¬ a < 0x80 := by omega
  have hlead : ¬ (a < 0xc2 ∨ 0xf4 < a) := by omega
  rw [decodeFrom.eq_def]
  simp only [UInt8.lt_iff_toNat_lt, ha', UInt8.toNat_ofNat, Bool.or_eq_true, decide_eq_true_eq,
    hlow, hlead, ha.2, if_true, if_false, hfollows, Bool.not_true, tailBits, hb',
    Bool.false_eq_true]

/-- A sequence of three bytes. -/
theorem decodeFrom_three (ha : 0xe0 ≤ a ∧ a < 0xf0)
    (hfollows : follows (UInt8.ofNat a) (UInt8.ofNat b)) (hb : b < 0xc0)
    (hc : 0x80 ≤ c ∧ c < 0xc0) :
    decodeFrom index (UInt8.ofNat a :: UInt8.ofNat b :: UInt8.ofNat c :: rest) =
      (decodeFrom (index + 3) rest).map
        (Char.ofNat (a % 16 * 4096 + b % 64 * 64 + c % 64) :: ·) := by
  have ha' : (UInt8.ofNat a).toNat = a := UInt8.toNat_ofNat_of_lt' (show a < 256 by omega)
  have hb' : (UInt8.ofNat b).toNat = b := UInt8.toNat_ofNat_of_lt' (show b < 256 by omega)
  have hc' : (UInt8.ofNat c).toNat = c := UInt8.toNat_ofNat_of_lt' (show c < 256 by omega)
  have hlow : ¬ a < 0x80 := by omega
  have hlead : ¬ (a < 0xc2 ∨ 0xf4 < a) := by omega
  have hlong : ¬ a < 0xe0 := by omega
  rw [decodeFrom.eq_def]
  simp only [UInt8.lt_iff_toNat_lt, ha', UInt8.toNat_ofNat, Bool.or_eq_true, decide_eq_true_eq,
    hlow, hlead, hlong, ha.2, if_true, if_false, hfollows, isTail_ofNat hc, Bool.not_true, tailBits,
    hb', hc', Bool.false_eq_true]

/-- A sequence of four bytes. -/
theorem decodeFrom_four (ha : 0xf0 ≤ a ∧ a < 0xf5)
    (hfollows : follows (UInt8.ofNat a) (UInt8.ofNat b)) (hb : b < 0xc0) (hc : 0x80 ≤ c ∧ c < 0xc0)
    (hd : 0x80 ≤ d ∧ d < 0xc0) :
    decodeFrom index (UInt8.ofNat a :: UInt8.ofNat b :: UInt8.ofNat c :: UInt8.ofNat d :: rest) =
      (decodeFrom (index + 4) rest).map
        (Char.ofNat (a % 8 * 262144 + b % 64 * 4096 + c % 64 * 64 + d % 64) :: ·) := by
  have ha' : (UInt8.ofNat a).toNat = a := UInt8.toNat_ofNat_of_lt' (show a < 256 by omega)
  have hb' : (UInt8.ofNat b).toNat = b := UInt8.toNat_ofNat_of_lt' (show b < 256 by omega)
  have hc' : (UInt8.ofNat c).toNat = c := UInt8.toNat_ofNat_of_lt' (show c < 256 by omega)
  have hd' : (UInt8.ofNat d).toNat = d := UInt8.toNat_ofNat_of_lt' (show d < 256 by omega)
  have hlow : ¬ a < 0x80 := by omega
  have hlead : ¬ (a < 0xc2 ∨ 0xf4 < a) := by omega
  have hlong : ¬ a < 0xe0 := by omega
  have hlonger : ¬ a < 0xf0 := by omega
  rw [decodeFrom.eq_def]
  simp only [UInt8.lt_iff_toNat_lt, ha', UInt8.toNat_ofNat, Bool.or_eq_true, decide_eq_true_eq,
    hlow, hlead, hlong, hlonger, if_false, hfollows, isTail_ofNat hc, isTail_ofNat hd,
    Bool.not_true, tailBits, hb', hc', hd', Bool.false_eq_true]

end Sequences

/-! ## Characters -/

/-- A character is decoded from its bytes. -/
theorem decodeFrom_encodeChar (c : Char) (index : Nat) (rest : List UInt8) :
    decodeFrom index (String.utf8EncodeChar c ++ rest) =
      (decodeFrom (index + (String.utf8EncodeChar c).length) rest).map (c :: ·) := by
  have hvalid : c.val.toNat < 0xd800 ∨ 0xdfff < c.val.toNat ∧ c.val.toNat < 0x110000 := c.valid
  have hc : Char.ofNat c.val.toNat = c := Char.ofNat_toNat c
  fun_cases String.utf8EncodeChar c with
  | case1 v h =>
      have hn : v < 0x80 := by omega
      rw [List.singleton_append, decodeFrom_one index rest hn, hc]
      rfl
  | case2 v h h' =>
      have hn : (v / 64 % 32 + 192) % 32 * 64 + (v % 64 + 128) % 64 = v := by omega
      rw [List.cons_append, List.singleton_append,
        decodeFrom_two index rest (by omega) (by omega), hn, hc]
      rfl
  | case3 v h h' h'' =>
      -- the second byte fits because a character is no surrogate
      have hfollows : follows (UInt8.ofNat (v / 4096 % 16 + 224))
          (UInt8.ofNat (v / 64 % 64 + 128)) :=
        follows_ofNat (by omega) (by omega) (by omega) (by omega) (by omega) (by omega)
      have hn : (v / 4096 % 16 + 224) % 16 * 4096 + (v / 64 % 64 + 128) % 64 * 64 +
          (v % 64 + 128) % 64 = v := by omega
      rw [List.cons_append, List.cons_append, List.singleton_append,
        decodeFrom_three index rest (by omega) hfollows (by omega) (by omega), hn, hc]
      rfl
  | case4 v h h' h'' =>
      -- the second byte fits because no character lies beyond the last one
      have hfollows : follows (UInt8.ofNat (v / 262144 % 8 + 240))
          (UInt8.ofNat (v / 4096 % 64 + 128)) :=
        follows_ofNat (by omega) (by omega) (by omega) (by omega) (by omega) (by omega)
      have hn : (v / 262144 % 8 + 240) % 8 * 262144 + (v / 4096 % 64 + 128) % 64 * 4096 +
          (v / 64 % 64 + 128) % 64 * 64 + (v % 64 + 128) % 64 = v := by omega
      rw [List.cons_append, List.cons_append, List.cons_append, List.singleton_append,
        decodeFrom_four index rest (by omega) hfollows (by omega) (by omega) (by omega), hn, hc]
      rfl

/-- Decoding undoes encoding. -/
theorem decodeFrom_encode (cs : List Char) (index : Nat) :
    decodeFrom index (encode cs) = .ok cs := by
  induction cs generalizing index with
  | nil => rfl
  | cons c rest ih =>
      rw [encode, List.flatMap_cons, decodeFrom_encodeChar, ← encode, ih]
      rfl

/-- What is encoded is decoded again. -/
theorem decode_encode (cs : List Char) : decode (encode cs) = .ok cs := decodeFrom_encode cs 0

/-- Only the empty text has no bytes. -/
theorem encode_eq_nil_iff {cs : List Char} : encode cs = [] ↔ cs = [] := by
  refine ⟨fun h => ?_, fun h => by rw [h]; rfl⟩
  have hdecode := decode_encode cs
  rw [h] at hdecode
  exact (Except.ok.inj hdecode).symm

theorem encode_cons (c : Char) (cs : List Char) :
    encode (c :: cs) = String.utf8EncodeChar c ++ encode cs := rfl

/-- The last character is encoded last. -/
theorem encode_concat (cs : List Char) (c : Char) :
    encode (cs ++ [c]) = encode cs ++ String.utf8EncodeChar c := by
  rw [encode, List.flatMap_append, List.flatMap_singleton]
  rfl

/-! ## Encoding what was decoded -/

/-- The number of a character that is made of a number. -/
theorem toNat_val_ofNat {n : Nat} (h : n < 0xd800 ∨ 0xdfff < n ∧ n < 0x110000) :
    (Char.ofNat n).val.toNat = n := by
  have hvalid : n.isValidChar := h
  rw [Char.ofNat, dif_pos hvalid]
  rfl

/-- The bytes of a character behind its first one are between these bounds. -/
theorem toNat_of_isTail {b : UInt8} (h : isTail b) : 0x80 ≤ b.toNat ∧ b.toNat < 0xc0 := by
  simp only [isTail, Bool.and_eq_true, decide_eq_true_eq, UInt8.le_iff_toNat_le,
    UInt8.toNat_ofNat] at h
  omega

/-- A byte that follows another one continues a sequence that is neither overlong nor that of a
surrogate nor beyond the last character. -/
theorem toNat_of_follows {a b : UInt8} (h : follows a b) :
    (0x80 ≤ b.toNat ∧ b.toNat < 0xc0) ∧ (a.toNat = 0xe0 → 0xa0 ≤ b.toNat) ∧
      (a.toNat = 0xed → b.toNat < 0xa0) ∧ (a.toNat = 0xf0 → 0x90 ≤ b.toNat) ∧
      (a.toNat = 0xf4 → b.toNat < 0x90) := by
  simp only [follows, ← UInt8.toNat_inj, UInt8.toNat_ofNat] at h
  repeat' split at h
  case isFalse.isFalse.isFalse.isFalse =>
    have htail := toNat_of_isTail h
    omega
  all_goals
    simp only [Bool.and_eq_true, decide_eq_true_eq, UInt8.le_iff_toNat_le, UInt8.toNat_ofNat] at h
    omega

section Encoded

variable {n : Nat} {a b c d : UInt8}

theorem ofNat_eq_of_toNat (h : n = a.toNat) : UInt8.ofNat n = a := by
  rw [h, UInt8.ofNat_toNat]

/-- Two bytes of the right form are the encoding of the character they give. -/
theorem encodeChar_two (hn : 0x80 ≤ n ∧ n < 0x800) (ha : n / 64 % 32 + 192 = a.toNat)
    (hb : n % 64 + 128 = b.toNat) : String.utf8EncodeChar (Char.ofNat n) = [a, b] := by
  rw [String.utf8EncodeChar, toNat_val_ofNat (by omega)]
  rw [if_neg (by omega), if_pos (by omega), ofNat_eq_of_toNat ha, ofNat_eq_of_toNat hb]

theorem encodeChar_three (hn : 0x800 ≤ n ∧ n < 0x10000) (hsurrogate : n < 0xd800 ∨ 0xdfff < n)
    (ha : n / 4096 % 16 + 224 = a.toNat) (hb : n / 64 % 64 + 128 = b.toNat)
    (hc : n % 64 + 128 = c.toNat) : String.utf8EncodeChar (Char.ofNat n) = [a, b, c] := by
  rw [String.utf8EncodeChar, toNat_val_ofNat (by omega)]
  rw [if_neg (by omega), if_neg (by omega), if_pos (by omega), ofNat_eq_of_toNat ha,
    ofNat_eq_of_toNat hb, ofNat_eq_of_toNat hc]

theorem encodeChar_four (hn : 0x10000 ≤ n ∧ n < 0x110000) (ha : n / 262144 % 8 + 240 = a.toNat)
    (hb : n / 4096 % 64 + 128 = b.toNat) (hc : n / 64 % 64 + 128 = c.toNat)
    (hd : n % 64 + 128 = d.toNat) : String.utf8EncodeChar (Char.ofNat n) = [a, b, c, d] := by
  rw [String.utf8EncodeChar, toNat_val_ofNat (by omega)]
  rw [if_neg (by omega), if_neg (by omega), if_neg (by omega), ofNat_eq_of_toNat ha,
    ofNat_eq_of_toNat hb, ofNat_eq_of_toNat hc, ofNat_eq_of_toNat hd]

end Encoded

/-- The character that was decoded comes first. -/
theorem exists_of_map_cons {r : Except Fault (List Char)} {c : Char} {cs : List Char}
    (h : r.map (c :: ·) = .ok cs) : ∃ rest, r = .ok rest ∧ cs = c :: rest := by
  cases r with
  | error fault => cases h
  | ok rest =>
      cases h
      exact ⟨rest, rfl, rfl⟩

/-- Encoding undoes decoding. -/
theorem encode_of_decodeFrom {index : Nat} {bytes : List UInt8} {cs : List Char}
    (h : decodeFrom index bytes = .ok cs) : encode cs = bytes := by
  -- only the four cases that decode a character count: sequences of one byte up to four
  fun_induction decodeFrom index bytes generalizing cs with
  | case1 =>
      cases h
      rfl
  | case2 index a rest hlow ih =>
      obtain ⟨cs, hrest, rfl⟩ := exists_of_map_cons h
      have hlow : a.toNat < 0x80 := hlow
      rw [encode_cons, ih hrest, String.utf8EncodeChar, toNat_val_ofNat (by omega)]
      rw [if_pos (by omega), UInt8.ofNat_toNat, List.singleton_append]
  | case6 index a hlow hlead b rest hfollows hshort ih =>
      obtain ⟨cs, hrest, rfl⟩ := exists_of_map_cons h
      simp only [Bool.not_eq_true', Bool.not_eq_false, Bool.or_eq_true, decide_eq_true_eq, not_or,
        UInt8.lt_iff_toNat_lt, UInt8.toNat_ofNat] at hlead hfollows hshort
      obtain ⟨hb, -⟩ := toNat_of_follows hfollows
      have hchar : String.utf8EncodeChar (Char.ofNat (a.toNat % 32 * 64 + tailBits b)) =
          [a, b] := by
        unfold tailBits
        exact encodeChar_two (by omega) (by omega) (by omega)
      rw [encode_cons, ih hrest, hchar]
      rfl
  | case9 index a hlow hlead b hfollows hlong c rest htail hshort ih =>
      obtain ⟨cs, hrest, rfl⟩ := exists_of_map_cons h
      simp only [Bool.not_eq_true', Bool.not_eq_false, UInt8.lt_iff_toNat_lt,
        UInt8.toNat_ofNat] at hfollows hlong htail hshort
      obtain ⟨hb, he0, hed, -⟩ := toNat_of_follows hfollows
      have hc := toNat_of_isTail htail
      have hchar : String.utf8EncodeChar
          (Char.ofNat (a.toNat % 16 * 4096 + tailBits b * 64 + tailBits c)) = [a, b, c] := by
        unfold tailBits
        exact encodeChar_three (by omega) (by omega) (by omega) (by omega) (by omega)
      rw [encode_cons, ih hrest, hchar]
      rfl
  | case12 index a hlow hlead b hfollows hlong c htail hlonger d rest htail' ih =>
      obtain ⟨cs, hrest, rfl⟩ := exists_of_map_cons h
      simp only [Bool.not_eq_true', Bool.not_eq_false, Bool.or_eq_true, decide_eq_true_eq, not_or,
        UInt8.lt_iff_toNat_lt, UInt8.toNat_ofNat] at hlead hfollows htail hlonger htail'
      obtain ⟨hb, -, -, hf0, hf4⟩ := toNat_of_follows hfollows
      have hc := toNat_of_isTail htail
      have hd := toNat_of_isTail htail'
      have hchar : String.utf8EncodeChar (Char.ofNat
          (a.toNat % 8 * 262144 + tailBits b * 4096 + tailBits c * 64 + tailBits d)) =
          [a, b, c, d] := by
        unfold tailBits
        exact encodeChar_four (by omega) (by omega) (by omega) (by omega) (by omega)
      rw [encode_cons, ih hrest, hchar]
      rfl
  | _ => cases h

/-- What is decoded is encoded again as the same bytes. -/
theorem encode_of_decode {bytes : List UInt8} {cs : List Char} (h : decode bytes = .ok cs) :
    encode cs = bytes := encode_of_decodeFrom h

/-! ## Lines -/

/-- Cuts a text into lines, each with the newline that ends it; the last may lack one. The first
argument holds the line so far, last character first. -/
def cutText (line : List Char) : List Char → List (List Char)
  | [] => if line.isEmpty then [] else [line.reverse]
  | c :: rest =>
    if c = '\n' then (c :: line).reverse :: cutText [] rest else cutText (c :: line) rest

/-- Only the newline has the byte of a newline. -/
theorem newline_not_mem_encodeChar {c : Char} (h : c ≠ '\n') :
    newline ∉ String.utf8EncodeChar c := by
  have hne : c.val.toNat ≠ 10 := fun h' => h (Char.toNat_inj.mp h')
  have hbyte : newline.toNat = 10 := rfl
  fun_cases String.utf8EncodeChar c
  all_goals
    simp only [List.mem_cons, List.not_mem_nil, or_false, ← UInt8.toNat_inj, UInt8.toNat_ofNat',
      hbyte]
    omega

/-- A text ends with a newline if and only if its bytes do. -/
theorem getLast?_encode_eq_newline_iff (cs : List Char) :
    (encode cs).getLast? = some newline ↔ cs.getLast? = some '\n' := by
  rcases List.eq_nil_or_concat cs with rfl | ⟨cs, c, rfl⟩
  · simp [encode]
  · have hlast := List.getLast?_eq_some_getLast (String.utf8EncodeChar_ne_nil (c := c))
    generalize (String.utf8EncodeChar c).getLast _ = b at hlast
    rw [List.concat_eq_append, encode_concat, List.getLast?_append, List.getLast?_concat, hlast,
      Option.some_or, Option.some.injEq, Option.some.injEq]
    constructor
    · rintro rfl
      by_cases hc : c = '\n'
      · exact hc
      · exact absurd (List.mem_of_getLast? hlast) (newline_not_mem_encodeChar hc)
    · rintro rfl
      exact (Option.some.inj hlast).symm

/-- Bytes that end no line belong to the line. -/
theorem cutLines_append {bytes : List UInt8} (h : newline ∉ bytes) (line rest : List UInt8) :
    cutLines line (bytes ++ rest) = cutLines (bytes.reverse ++ line) rest := by
  induction bytes generalizing line with
  | nil => rfl
  | cons b bytes ih =>
      rw [List.mem_cons, not_or] at h
      rw [List.cons_append, cutLines, if_neg (Ne.symm h.1), ih h.2, List.reverse_cons,
        List.append_assoc, List.singleton_append]

/-- The bytes of a text are cut where the text is. -/
theorem cutLines_encode (cs line : List Char) :
    cutLines (encode line.reverse).reverse (encode cs) = (cutText line cs).map encode := by
  induction cs generalizing line with
  | nil =>
      have hempty : (encode line.reverse).reverse.isEmpty = line.isEmpty := by
        rw [Bool.eq_iff_iff, List.isEmpty_iff, List.isEmpty_iff, List.reverse_eq_nil_iff,
          encode_eq_nil_iff, List.reverse_eq_nil_iff]
      change cutLines _ [] = _
      rw [cutLines, cutText, hempty, List.reverse_reverse]
      split
      · rfl
      · rfl
  | cons c rest ih =>
      have hline : (encode (c :: line).reverse).reverse =
          (String.utf8EncodeChar c).reverse ++ (encode line.reverse).reverse := by
        rw [List.reverse_cons, encode_concat, List.reverse_append]
      by_cases hc : c = '\n'
      · subst hc
        have hend : newline :: (encode line.reverse).reverse =
            (encode ('\n' :: line).reverse).reverse := hline.symm
        change cutLines _ (newline :: encode rest) = _
        rw [cutLines, if_pos rfl, cutText, if_pos rfl, hend, List.reverse_reverse, List.map_cons]
        exact congrArg _ (ih [])
      · rw [cutText, if_neg hc, ← ih, encode_cons, cutLines_append (newline_not_mem_encodeChar hc),
          hline]

/-- The lines of a text, without their ends. -/
def textLines (cs : List Char) : List (List Char) := (cutText [] cs).map dropEnding

/-- The bytes of a text have the lines of the text. -/
theorem lines_encode (cs : List Char) : lines (encode cs) = (textLines cs).map .ok := by
  rw [lines, show cutLines [] (encode cs) = _ from cutLines_encode cs [], textLines, List.map_map,
    List.map_map]
  refine List.map_congr_left fun line _ => ?_
  rw [Function.comp_apply, decode_encode]
  rfl

end StreamWatch.Utf8
