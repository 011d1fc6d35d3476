import Mathlib.Data.List.Forall2
import StreamWatch.Proofs.Text.Utf8

/-!
# One more line

Where a line of bytes ends another line may begin. Cutting what stands before such a place and what
stands after it is cutting all of it, so that a line that is put there is cut out again:
`Inserts.cutLines`. Whether bytes are text does not depend on the newline behind them. And a text
that was put together from lines is cut into these lines again: `HoldsLines.textLines`.
-/

namespace StreamWatch.Utf8

/-! ## The newline at the end of a line -/

/-- What bytes are decoded to without a newline behind them and with one: two faults, or a text
and that text with a newline. -/
inductive Newlined (r r' : Except Fault (List Char)) : Prop
  | fault {fault fault' : Fault} : r = .error fault → r' = .error fault' → Newlined r r'
  | text {cs : List Char} : r = .ok cs → r' = .ok (cs ++ ['\n']) → Newlined r r'

/-- A character before two texts does not matter for how they end. -/
theorem Newlined.cons {r r' : Except Fault (List Char)} (h : Newlined r r') (c : Char) :
    Newlined (r.map (c :: ·)) (r'.map (c :: ·)) := by
  cases h with
  | fault h h' => exact .fault (by rw [h]; rfl) (by rw [h']; rfl)
  | text h h' => exact .text (by rw [h]; rfl) (by rw [h']; rfl)

/-- A newline continues no sequence. -/
theorem follows_newline (a : UInt8) : follows a newline = false := by
  unfold follows
  repeat' split
  all_goals rfl

/-- A newline behind bytes is decoded with them. -/
theorem newlined_decodeFrom (index : Nat) (bytes : List UInt8) :
    Newlined (decodeFrom index bytes) (decodeFrom index (bytes ++ [newline])) := by
  have htail : isTail newline = false := rfl
  induction index, bytes using decodeFrom.induct
  all_goals
    simp only [List.cons_append, List.nil_append]
    rw [decodeFrom.eq_def, decodeFrom.eq_def]
    simp only [*, if_true, if_false, follows_newline, Bool.not_false]
  -- a sequence either is at fault, newline or not, or the rest is decoded after it
  all_goals
    first
    | exact .text rfl rfl
    | exact .fault rfl rfl
    | exact .cons (by assumption) _

/-- Text with a newline behind it is text. -/
theorem decode_concat_newline {bytes : List UInt8} {text : List Char}
    (h : decode bytes = .ok text) : decode (bytes ++ [newline]) = .ok (text ++ ['\n']) := by
  cases newlined_decodeFrom 0 bytes with
  | fault h' _ => cases h.symm.trans h'
  | text h' hnewline =>
      cases h.symm.trans h'
      exact hnewline

/-- What is no text is none with a newline behind it. -/
theorem exists_decode_concat_newline {bytes : List UInt8} {fault : Fault}
    (h : decode bytes = .error fault) : ∃ fault', decode (bytes ++ [newline]) = .error fault' := by
  cases newlined_decodeFrom 0 bytes with
  | fault _ hnewline => exact ⟨_, hnewline⟩
  | text h' _ => cases h.symm.trans h'

/-! ## Places between lines -/

/-- Another line may begin after these bytes. -/
def EndsLine (bytes : List UInt8) : Prop := bytes = [] ∨ ∃ front, bytes = front ++ [newline]

/-- What stands before a line and the rest are cut on their own. -/
theorem cutLines_of_endsLine {front : List UInt8} (h : EndsLine front) (back : List UInt8) :
    cutLines [] (front ++ back) = cutLines [] front ++ cutLines [] back := by
  have hend (line front : List UInt8) : cutLines line (front ++ [newline] ++ back) =
      cutLines line (front ++ [newline]) ++ cutLines [] back := by
    induction front generalizing line with
    | nil => simp [cutLines]
    | cons b front ih =>
        simp only [List.cons_append, cutLines]
        split
        · rw [ih]
          rfl
        · exact ih _
  rcases h with rfl | ⟨front, rfl⟩
  · rfl
  · exact hend [] front

/-- A line is cut out whole. -/
theorem cutLines_line {line : List UInt8} (h : newline ∉ line) :
    cutLines [] (line ++ [newline]) = [line ++ [newline]] := by
  simp [cutLines_append h, cutLines]

/-- A last line without a newline is cut out whole. -/
theorem cutLines_last {line : List UInt8} (h : newline ∉ line) (hne : line ≠ []) :
    cutLines [] line = [line] := by
  have hcut := cutLines_append h [] []
  simpa [cutLines, hne] using hcut

/-- Bytes are whole lines and then the beginning of a line. -/
theorem exists_endsLine_append (bytes : List UInt8) :
    ∃ front last, bytes = front ++ last ∧ EndsLine front ∧ newline ∉ last := by
  induction bytes with
  | nil => exact ⟨[], [], rfl, Or.inl rfl, by simp⟩
  | cons b bytes ih =>
      obtain ⟨front, last, rfl, hfront, hlast⟩ := ih
      rcases hfront with rfl | ⟨front, rfl⟩
      · by_cases hb : b = newline
        · exact ⟨[b], last, rfl, Or.inr ⟨[], by rw [hb]; rfl⟩, hlast⟩
        · exact ⟨[], b :: last, rfl, Or.inl rfl, by simp [hlast, Ne.symm hb]⟩
      · exact ⟨b :: front ++ [newline], last, rfl, Or.inr ⟨b :: front, rfl⟩, hlast⟩

/-! ## Lines of their own -/

/-- `Inserts line input input'`: putting the line between two lines of one input gives the other.
After the last line the new one may or may not get a newline, and if the last one lacks it, that one
gets it first. -/
inductive Inserts (line : List UInt8) : List UInt8 → List UInt8 → Prop
  | before {front : List UInt8} (hfront : EndsLine front) (back : List UInt8) :
      Inserts line (front ++ back) (front ++ (line ++ [newline]) ++ back)
  | last {front : List UInt8} (hfront : EndsLine front) : Inserts line front (front ++ line)
  | afterOpen {input : List UInt8} (hopen : ¬ EndsLine input) :
      Inserts line input (input ++ [newline] ++ line)
  | afterOpenEnded {input : List UInt8} (hopen : ¬ EndsLine input) :
      Inserts line input (input ++ [newline] ++ (line ++ [newline]))

/-- Two lines that differ at most in a newline at the end of the second. -/
def EndedAs (line line' : List UInt8) : Prop := line' = line ∨ line' = line ++ [newline]

theorem forall₂_endedAs_refl (lines : List (List UInt8)) : List.Forall₂ EndedAs lines lines :=
  List.forall₂_same.mpr fun _ _ => Or.inl rfl

/-- A line that was put between others is one more line, and the others stay, but that the line
before it may have got its newline. -/
theorem Inserts.cutLines {line input input' : List UInt8} (h : Inserts line input input')
    (hline : newline ∉ line) (hne : line ≠ []) :
    ∃ front front' own back, cutLines [] input = front ++ back ∧
      cutLines [] input' = front' ++ own :: back ∧ List.Forall₂ EndedAs front front' ∧
      EndedAs line own := by
  -- the last line of an input without its newline gets it
  have hopen {input : List UInt8} (hinput : ¬ EndsLine input) :
      ∃ front last, Utf8.cutLines [] input = front ++ [last] ∧
        Utf8.cutLines [] (input ++ [newline]) = front ++ [last ++ [newline]] := by
    obtain ⟨front, last, rfl, hfront, hlast⟩ := exists_endsLine_append input
    have hne : last ≠ [] := by
      rintro rfl
      exact hinput (by simpa using hfront)
    refine ⟨Utf8.cutLines [] front, last, ?_, ?_⟩
    · rw [cutLines_of_endsLine hfront, cutLines_last hlast hne]
    · rw [List.append_assoc, cutLines_of_endsLine hfront, cutLines_line hlast]
  have hended (front : List UInt8) : EndsLine (front ++ [newline]) := Or.inr ⟨front, rfl⟩
  cases h with
  | @before front hfront back =>
      refine ⟨Utf8.cutLines [] front, Utf8.cutLines [] front, line ++ [newline],
        Utf8.cutLines [] back, cutLines_of_endsLine hfront back, ?_, forall₂_endedAs_refl _,
        Or.inr rfl⟩
      rw [List.append_assoc, cutLines_of_endsLine hfront, cutLines_of_endsLine (hended line),
        cutLines_line hline]
      rfl
  | last hfront =>
      refine ⟨Utf8.cutLines [] input, Utf8.cutLines [] input, line, [], by simp, ?_,
        forall₂_endedAs_refl _, Or.inl rfl⟩
      rw [cutLines_of_endsLine hfront, cutLines_last hline hne]
  | afterOpen hinput =>
      obtain ⟨front, last, hcut, hcut'⟩ := hopen hinput
      refine ⟨front ++ [last], front ++ [last ++ [newline]], line, [], by simpa using hcut, ?_, ?_,
        Or.inl rfl⟩
      · rw [cutLines_of_endsLine (hended input), hcut', cutLines_last hline hne]
      · exact List.rel_append (forall₂_endedAs_refl _) (.cons (Or.inr rfl) .nil)
  | afterOpenEnded hinput =>
      obtain ⟨front, last, hcut, hcut'⟩ := hopen hinput
      refine ⟨front ++ [last], front ++ [last ++ [newline]], line ++ [newline], [],
        by simpa using hcut, ?_, ?_, Or.inr rfl⟩
      · rw [cutLines_of_endsLine (hended input), hcut', cutLines_line hline]
      · exact List.rel_append (forall₂_endedAs_refl _) (.cons (Or.inr rfl) .nil)

/-! ## The lines of a text -/

/-- A line without one carriage return at its end. -/
def dropReturn (line : List Char) : List Char :=
  if line.getLast? = some '\r' then line.dropLast else line

/-- `SplitsInto text lines`: a line ends at each newline, and one carriage return before that does
not belong to it. What is behind the last newline is one more line, unless there is nothing. -/
inductive SplitsInto : List Char → List (List Char) → Prop
  | nil : SplitsInto [] []
  | unended {last : List Char} : last ≠ [] → '\n' ∉ last → SplitsInto last [last]
  | ended {line rest : List Char} {lines : List (List Char)} : '\n' ∉ line →
      SplitsInto rest lines → SplitsInto (line ++ '\n' :: rest) (dropReturn line :: lines)

/-- A line without a newline has no ending to be dropped. -/
theorem dropEnding_of_not_mem {line : List Char} (h : '\n' ∉ line) : dropEnding line = line := by
  unfold dropEnding
  split
  · next rest hrest => exact absurd (List.mem_reverse.mp (by simp [hrest])) h
  · next rest _ hrest => exact absurd (List.mem_reverse.mp (by simp [hrest])) h
  · rfl

/-- Of the ending of a line the newline is dropped first. -/
theorem dropEnding_concat (line : List Char) : dropEnding (line ++ ['\n']) = dropReturn line := by
  have hreverse : (line ++ ['\n']).reverse = '\n' :: line.reverse := by simp
  unfold dropEnding dropReturn
  rw [hreverse]
  split
  · next rest hrest =>
      have hlast : line.reverse = '\r' :: rest := (List.cons.inj hrest).2
      rw [← List.head?_reverse, hlast, List.head?_cons, if_pos rfl, ← List.reverse_reverse line,
        hlast, List.reverse_cons, List.dropLast_concat]
  · next rest hnot hrest =>
      have hline : line.reverse = rest := (List.cons.inj hrest).2
      rw [← hline, List.reverse_reverse, if_neg]
      rw [← List.head?_reverse, List.head?_eq_some_iff]
      rintro ⟨front, hfront⟩
      exact hnot front (by rw [← hline, hfront])
  · next hne => exact absurd rfl (hne _)

/-- Characters that end no line belong to the line. -/
theorem cutText_append {cs : List Char} (h : '\n' ∉ cs) (line rest : List Char) :
    cutText line (cs ++ rest) = cutText (cs.reverse ++ line) rest := by
  induction cs generalizing line with
  | nil => rfl
  | cons c cs ih =>
      rw [List.mem_cons, not_or] at h
      rw [List.cons_append, cutText, if_neg (Ne.symm h.1), ih h.2, List.reverse_cons,
        List.append_assoc, List.singleton_append]

/-- A line is cut off at its newline. -/
theorem cutText_ended {line : List Char} (h : '\n' ∉ line) (rest : List Char) :
    cutText [] (line ++ '\n' :: rest) = (line ++ ['\n']) :: cutText [] rest := by
  rw [cutText_append h, cutText, if_pos rfl]
  simp

/-- A last line without a newline is left over. -/
theorem cutText_unended {last : List Char} (hne : last ≠ []) (h : '\n' ∉ last) :
    cutText [] last = [last] := by
  have happend := cutText_append h [] []
  rw [List.append_nil, List.append_nil] at happend
  rw [happend, cutText, if_neg (by simp [hne]), List.reverse_reverse]

/-- A text has no other lines. -/
theorem SplitsInto.textLines {text : List Char} {lines : List (List Char)}
    (h : SplitsInto text lines) : textLines text = lines := by
  induction h with
  | nil => rfl
  | unended hne hlast =>
      rw [Utf8.textLines, cutText_unended hne hlast, List.map_singleton,
        dropEnding_of_not_mem hlast]
  | ended hline _ ih =>
      rw [Utf8.textLines, cutText_ended hline, List.map_cons, dropEnding_concat]
      exact congrArg _ ih

/-- Every text splits into lines. -/
theorem exists_splitsInto (text : List Char) : ∃ lines, SplitsInto text lines := by
  by_cases h : '\n' ∈ text
  · obtain ⟨line, rest, htext, hline⟩ := List.eq_append_cons_of_mem h
    have hshorter : rest.length < text.length := by
      rw [htext, List.length_append, List.length_cons]
      omega
    obtain ⟨lines, hlines⟩ := exists_splitsInto rest
    rw [htext]
    exact ⟨_, .ended hline hlines⟩
  · by_cases hne : text = []
    · exact ⟨[], hne ▸ .nil⟩
    · exact ⟨[text], .unended hne h⟩
termination_by text.length

/-- Every text splits into its lines. -/
theorem splitsInto_textLines (text : List Char) : SplitsInto text (textLines text) := by
  obtain ⟨lines, h⟩ := exists_splitsInto text
  rw [h.textLines]
  exact h

/-! ## Lines that are deleted -/

/-- Texts that are the lines of one text: each has its newline, but that the last may lack it. -/
inductive ArePieces : List (List Char) → Prop
  | nil : ArePieces []
  | unended {last : List Char} : last ≠ [] → '\n' ∉ last → ArePieces [last]
  | ended {line : List Char} {pieces : List (List Char)} : '\n' ∉ line → ArePieces pieces →
      ArePieces ((line ++ ['\n']) :: pieces)

/-- Lines that are put together are cut apart again. -/
theorem ArePieces.cutText_flatten {pieces : List (List Char)} (h : ArePieces pieces) :
    cutText [] pieces.flatten = pieces := by
  induction h with
  | nil => rfl
  | unended hne hlast => rw [List.flatten_singleton, cutText_unended hne hlast]
  | ended hline _ ih =>
      rw [List.flatten_cons, List.append_assoc, List.singleton_append, cutText_ended hline, ih]

/-- Lines stay lines when some of them are left out. -/
theorem ArePieces.filter {pieces : List (List Char)} (h : ArePieces pieces)
    (keeps : List Char → Bool) : ArePieces (pieces.filter keeps) := by
  induction h with
  | nil => exact .nil
  | unended hne hlast =>
      rw [List.filter_cons]
      split
      · exact .unended hne hlast
      · exact .nil
  | ended hline _ ih =>
      rw [List.filter_cons]
      split
      · exact .ended hline ih
      · exact ih

/-- A text is its lines. -/
theorem SplitsInto.arePieces {text : List Char} {lines : List (List Char)}
    (h : SplitsInto text lines) :
    ArePieces (cutText [] text) ∧ (cutText [] text).flatten = text := by
  induction h with
  | nil => exact ⟨.nil, rfl⟩
  | unended hne hlast =>
      rw [cutText_unended hne hlast]
      exact ⟨.unended hne hlast, List.flatten_singleton⟩
  | @ended line rest lines hline _ ih =>
      rw [cutText_ended hline]
      refine ⟨.ended hline ih.1, ?_⟩
      rw [List.flatten_cons, ih.2, List.append_assoc, List.singleton_append]

/-- The text without the lines that are dropped, and without their newlines. -/
def deleteLines (drops : List Char → Bool) (text : List Char) : List Char :=
  ((cutText [] text).filter fun line => !drops (dropEnding line)).flatten

/-- The lines that are not dropped stay. -/
theorem textLines_deleteLines (drops : List Char → Bool) (text : List Char) :
    textLines (deleteLines drops text) = (textLines text).filter fun line => !drops line := by
  have hpieces := (splitsInto_textLines text).arePieces.1
  rw [textLines, deleteLines, (hpieces.filter _).cutText_flatten, textLines, List.filter_map]
  rfl

/-! ## Lines that were written -/

/-- The text that these lines make, each with its newline, but that the last may lack it. -/
inductive HoldsLines : List (List Char) → List Char → Prop
  | ended (lines : List (List Char)) : HoldsLines lines (lines.flatMap (· ++ ['\n']))
  | unended (lines : List (List Char)) (last : List Char) :
      HoldsLines (lines ++ [last]) (lines.flatMap (· ++ ['\n']) ++ last)

/-- A line that can be told from the text around it: it says something, holds no newline, and does
not end with the carriage return that some put before newlines. -/
structure IsLine (line : List Char) : Prop where
  ne_nil : line ≠ []
  newline_not_mem : '\n' ∉ line
  not_return : line.getLast? ≠ some '\r'

/-- The ending that is put behind a line is the one that is dropped. -/
theorem IsLine.dropEnding_ended {line : List Char} (h : IsLine line) :
    dropEnding (line ++ ['\n']) = line := by
  rw [dropEnding_concat, dropReturn, if_neg h.not_return]

/-- Whole lines are cut off one by one. -/
theorem cutText_flatMap {lines : List (List Char)} (h : ∀ line ∈ lines, IsLine line)
    (rest : List Char) :
    cutText [] (lines.flatMap (· ++ ['\n']) ++ rest) =
      lines.map (· ++ ['\n']) ++ cutText [] rest := by
  induction lines with
  | nil => rfl
  | cons line lines ih =>
      rw [List.forall_mem_cons] at h
      simp only [List.flatMap_cons, List.append_assoc, List.cons_append, List.nil_append]
      rw [cutText_ended h.1.newline_not_mem, ih h.2]
      rfl

/-- The lines that a text was made of are its lines. -/
theorem HoldsLines.textLines {lines : List (List Char)} {text : List Char}
    (h : HoldsLines lines text) (hlines : ∀ line ∈ lines, IsLine line) :
    textLines text = lines := by
  have hended {lines : List (List Char)} (h : ∀ line ∈ lines, IsLine line) :
      (lines.map (· ++ ['\n'])).map Utf8.dropEnding = lines := by
    rw [List.map_map]
    exact (List.map_congr_left fun line hline => (h line hline).dropEnding_ended).trans
      (List.map_id lines)
  cases h with
  | ended =>
      have hcut : cutText [] (lines.flatMap (· ++ ['\n'])) = lines.map (· ++ ['\n']) := by
        simpa [cutText] using cutText_flatMap hlines []
      rw [Utf8.textLines, hcut, hended hlines]
  | unended lines last =>
      have hinit : ∀ line ∈ lines, IsLine line := fun line hline =>
        hlines line (List.mem_append_left _ hline)
      have hlast : IsLine last := hlines last (by simp)
      rw [Utf8.textLines, cutText_flatMap hinit, cutText_unended hlast.ne_nil hlast.newline_not_mem,
        List.map_append, hended hinit, List.map_singleton,
        dropEnding_of_not_mem hlast.newline_not_mem]

end StreamWatch.Utf8
