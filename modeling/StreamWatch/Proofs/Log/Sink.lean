import Mathlib.Data.List.TakeDrop
import StreamWatch.Proofs.Log.Tag

/-!
# Lines before a sink that takes less than it is offered

Whoever writes a line offers what is left of it until all is taken. With `Sink.tagging` in between,
the writer and the sink count in different texts: the writer in the line, the sink in what the line
was rewritten to. A line that is tagged is offered to the sink once, and what the sink leaves of it
is lost. A line that stays as it is may be offered again from the middle, and then it is the tail
that is looked at. `Delivers` says what can arrive, and `writeAll_tagging` when that is the line.
-/

namespace StreamWatch

variable {σ : Type} {connection? : Option String} {line bytes arrived : List UInt8}

/-- The bytes that a line should arrive as. -/
def taggedLine (connection? : Option String) (line : List UInt8) : List UInt8 :=
  match tagLine? connection? line with
  | some text => Utf8.encode text
  | none => line

theorem taggedLine_of_some {text : List Char} (h : tagLine? connection? line = some text) :
    taggedLine connection? line = Utf8.encode text := by
  rw [taggedLine, h]

theorem taggedLine_of_none (h : tagLine? connection? line = none) :
    taggedLine connection? line = line := by
  rw [taggedLine, h]

/-- A tagged line is never empty. -/
theorem encode_ne_nil_of_tagLine? {text : List Char} (h : tagLine? connection? line = some text) :
    Utf8.encode text ≠ [] := by
  obtain ⟨connection, cs, members, -, -, -, -, rfl⟩ := exists_of_tagLine? h
  exact List.cons_ne_nil _ _

/-- Nothing is no line to be tagged. -/
theorem tagLine?_nil (connection? : Option String) : tagLine? connection? [] = none := by
  cases connection? <;> rfl

/-- A line that is tagged is not empty. -/
theorem ne_nil_of_tagLine? {text : List Char} (h : tagLine? connection? line = some text) :
    line ≠ [] := by
  rintro rfl
  rw [tagLine?_nil] at h
  cases h

namespace Sink

/-- A sink that takes some of what it is offered, keeps it, and never fails. -/
structure Takes (sink : Sink σ) (held : σ → List UInt8) : Prop where
  write : ∀ bytes s, bytes ≠ [] → ∃ count s', sink.write bytes s = (.ok count, s') ∧
    0 < count ∧ count ≤ bytes.length ∧ held s' = held s ++ bytes.take count

/-- A buffer without end, of which a write fills at least one byte. -/
theorem takes_buffer {limit : Option Nat} (hlimit : limit ≠ some 0) (mark : List UInt8) :
    (buffer limit none mark).Takes id where
  write bytes s hbytes := by
    have hpos : 0 < bytes.length := List.length_pos_iff.mpr hbytes
    cases limit with
    | none => exact ⟨bytes.length, _, rfl, hpos, Nat.le_refl _, by simp⟩
    | some limit =>
        have hne : limit ≠ 0 := fun h => hlimit (h ▸ rfl)
        have hcount : (bytes.take limit).length = min limit bytes.length := List.length_take
        refine ⟨(bytes.take limit).length, s ++ bytes.take limit, rfl, by omega, by omega, ?_⟩
        change s ++ bytes.take limit = s ++ bytes.take (bytes.take limit).length
        rw [hcount, List.take_eq_take_min]

variable {sink : Sink σ} {held : σ → List UInt8} {s : σ}

/-! ## One write -/

/-- Of a line that is tagged, the writer is told that all of it was taken. -/
theorem tagging_write_of_some {text : List Char} {count : Nat} {s' : σ}
    (h : tagLine? connection? line = some text)
    (hwrite : sink.write (Utf8.encode text) s = (.ok count, s')) :
    (sink.tagging connection?).write line s = (.ok line.length, s') := by
  simp only [tagging, h, hwrite]

/-- A line that stays as it is goes on to the sink. -/
theorem tagging_write_of_none (h : tagLine? connection? line = none) :
    (sink.tagging connection?).write line s = sink.write line s := by
  simp only [tagging, h]

/-! ## All writes of a line -/

/-- What can arrive of the bytes that are offered until all are taken: a part of what they are
rewritten to, or a part of themselves before whatever arrives of the rest. -/
inductive Delivers (connection? : Option String) : List UInt8 → List UInt8 → Prop
  | nil : Delivers connection? [] []
  | tagged {bytes : List UInt8} {text : List Char} (count : Nat)
      (htag : tagLine? connection? bytes = some text) (hpos : 0 < count) :
      Delivers connection? bytes ((Utf8.encode text).take count)
  | plain {bytes arrived : List UInt8} (count : Nat)
      (htag : tagLine? connection? bytes = none) (hpos : 0 < count) (hle : count ≤ bytes.length)
      (hrest : Delivers connection? (bytes.drop count) arrived) :
      Delivers connection? bytes (bytes.take count ++ arrived)

/-- Writing goes on with what the sink has left. -/
theorem writeAllWithin_succ {bound count : Nat} {s' : σ} (hne : bytes ≠ [])
    (hwrite : sink.write bytes s = (.ok count, s')) (hpos : 0 < count) :
    sink.writeAllWithin (bound + 1) bytes s = sink.writeAllWithin bound (bytes.drop count) s' := by
  rw [writeAllWithin]
  · rw [hwrite]
    cases count with
    | zero => exact absurd hpos (Nat.lt_irrefl 0)
    | succ count => rfl
  · exact hne

theorem writeAllWithin_nil (sink : Sink σ) (bound : Nat) (s : σ) :
    sink.writeAllWithin bound [] s = (.ok (), s) := by
  cases bound <;> rfl

/-- One write is enough if it answers that all is taken. -/
theorem writeAllWithin_of_whole {bound : Nat} {s' : σ} (hbound : bytes.length ≤ bound)
    (hne : bytes ≠ []) (hwrite : sink.write bytes s = (.ok bytes.length, s')) :
    sink.writeAllWithin bound bytes s = (.ok (), s') := by
  have hpos : 0 < bytes.length := List.length_pos_iff.mpr hne
  obtain ⟨bound, rfl⟩ := Nat.exists_eq_add_one.mpr (Nat.lt_of_lt_of_le hpos hbound)
  rw [writeAllWithin_succ hne hwrite hpos, List.drop_length, writeAllWithin_nil]

/-- A line that is tagged is offered to the sink once, as the tagged line. -/
theorem writeAllWithin_of_some (h : sink.Takes held) {bound : Nat} {text : List Char}
    (hbound : bytes.length ≤ bound) (htag : tagLine? connection? bytes = some text) (s : σ) :
    ∃ count s', sink.write (Utf8.encode text) s = (.ok count, s') ∧
      (sink.tagging connection?).writeAllWithin bound bytes s = (.ok (), s') ∧ 0 < count ∧
      count ≤ (Utf8.encode text).length ∧ held s' = held s ++ (Utf8.encode text).take count := by
  obtain ⟨count, s', hwrite, hpos, hle, hheld⟩ := h.write _ s (encode_ne_nil_of_tagLine? htag)
  have hstep := tagging_write_of_some htag hwrite
  exact ⟨count, s', hwrite, writeAllWithin_of_whole hbound (ne_nil_of_tagLine? htag) hstep, hpos,
    hle, hheld⟩

/-- A line that the sink takes whole at the first offer is complete. -/
theorem writeAllWithin_of_first_whole (h : sink.Takes held) {bound : Nat}
    (hbound : line.length ≤ bound) (s : σ)
    (hwhole : (sink.write (taggedLine connection? line) s).1 =
      .ok (taggedLine connection? line).length) :
    ∃ s', (sink.tagging connection?).writeAllWithin bound line s = (.ok (), s') ∧
      held s' = held s ++ taggedLine connection? line := by
  cases htag : tagLine? connection? line with
  | some text =>
      rw [taggedLine_of_some htag] at hwhole ⊢
      obtain ⟨count, s', hwrite, hall, -, -, hheld⟩ := writeAllWithin_of_some h hbound htag s
      rw [hwrite] at hwhole
      cases hwhole
      rw [List.take_length] at hheld
      exact ⟨s', hall, hheld⟩
  | none =>
      rw [taggedLine_of_none htag] at hwhole ⊢
      by_cases hne : line = []
      · subst hne
        exact ⟨s, writeAllWithin_nil _ _ _, (List.append_nil _).symm⟩
      · obtain ⟨count, s', hwrite, -, -, hheld⟩ := h.write line s hne
        rw [hwrite] at hwhole
        cases hwhole
        rw [List.take_length] at hheld
        have hstep : (sink.tagging connection?).write line s = (.ok line.length, s') := by
          rw [tagging_write_of_none htag, hwrite]
        exact ⟨s', writeAllWithin_of_whole hbound hne hstep, hheld⟩

/-- However little the sink takes at a time, the writer gets to the end of the bytes. -/
theorem writeAllWithin_tagging (h : sink.Takes held) (connection? : Option String) {bound : Nat}
    (hbound : bytes.length ≤ bound) (s : σ) :
    ∃ s' arrived, (sink.tagging connection?).writeAllWithin bound bytes s = (.ok (), s') ∧
      held s' = held s ++ arrived ∧ Delivers connection? bytes arrived := by
  induction bound generalizing bytes s with
  | zero =>
      obtain rfl := List.length_eq_zero_iff.mp (Nat.le_zero.mp hbound)
      exact ⟨s, [], rfl, (List.append_nil _).symm, .nil⟩
  | succ bound ih =>
      by_cases hne : bytes = []
      · subst hne
        exact ⟨s, [], rfl, (List.append_nil _).symm, .nil⟩
      · cases htag : tagLine? connection? bytes with
        | some text =>
            obtain ⟨count, s', -, hall, hpos, -, hheld⟩ := writeAllWithin_of_some h hbound htag s
            exact ⟨s', _, hall, hheld, .tagged count htag hpos⟩
        | none =>
            obtain ⟨count, s₁, hwrite, hpos, hle, hheld⟩ := h.write bytes s hne
            have hstep : (sink.tagging connection?).write bytes s = (.ok count, s₁) := by
              rw [tagging_write_of_none htag, hwrite]
            have hdrop : (bytes.drop count).length ≤ bound := by
              rw [List.length_drop]
              omega
            obtain ⟨s', arrived, hrest, hheld', harrived⟩ := ih hdrop s₁
            refine ⟨s', bytes.take count ++ arrived, ?_, ?_, .plain count htag hpos hle harrived⟩
            · rw [writeAllWithin_succ hne hstep hpos, hrest]
            · rw [hheld', hheld, List.append_assoc]

/-! ## What arrives -/

/-- The bytes arrive up to the end, or up to a tail that is rewritten and arrives in part. -/
theorem Delivers.exists_tail (h : Delivers connection? bytes arrived) :
    arrived = bytes ∨ ∃ n text count, n < bytes.length ∧
      tagLine? connection? (bytes.drop n) = some text ∧ 0 < count ∧
      arrived = bytes.take n ++ (Utf8.encode text).take count := by
  induction h with
  | nil => exact Or.inl rfl
  | @tagged bytes text count htag hpos =>
      have hlength := List.length_pos_iff.mpr (ne_nil_of_tagLine? htag)
      exact Or.inr ⟨0, text, count, hlength, htag, hpos, rfl⟩
  | @plain bytes arrived count htag hpos hle hrest ih =>
      rcases ih with rfl | ⟨n, text, taken, hn, htag', htaken, rfl⟩
      · exact Or.inl (List.take_append_drop count bytes)
      · refine Or.inr ⟨count + n, text, taken, ?_, ?_, htaken, ?_⟩
        · rw [List.length_drop] at hn
          omega
        · rwa [List.drop_drop] at htag'
        · rw [List.take_add, List.append_assoc]

/-- Writing a line through the tagging of a sink that may take less than it is offered always
succeeds. The line is complete if the sink takes the first offer whole. A line that is tagged is
offered just once, so it is complete only then. A line that stays as it is is complete unless a tail
of it that is offered again is tagged. -/
theorem writeAll_tagging (h : sink.Takes held) (connection? : Option String) (line : List UInt8)
    (s : σ) :
    ∃ s', (sink.tagging connection?).writeAll line s = (.ok (), s') ∧
      ((sink.write (taggedLine connection? line) s).1 = .ok (taggedLine connection? line).length →
        held s' = held s ++ taggedLine connection? line) ∧
      (∀ text, tagLine? connection? line = some text → ∃ count,
        sink.write (Utf8.encode text) s = (.ok count, s') ∧
        held s' = held s ++ (Utf8.encode text).take count ∧
        (held s' = held s ++ Utf8.encode text ↔ count = (Utf8.encode text).length)) ∧
      (tagLine? connection? line = none → held s' = held s ++ line ∨
        ∃ n text count, 0 < n ∧ n < line.length ∧
          tagLine? connection? (line.drop n) = some text ∧ 0 < count ∧
          held s' = held s ++ line.take n ++ (Utf8.encode text).take count) := by
  obtain ⟨s', arrived, hall, hheld, harrived⟩ :=
    writeAllWithin_tagging h connection? (Nat.le_refl line.length) s
  refine ⟨s', hall, fun hwhole => ?_, fun text htag => ?_, fun htag => ?_⟩
  · obtain ⟨t, hall', hheld'⟩ := writeAllWithin_of_first_whole h (Nat.le_refl _) s hwhole
    obtain ⟨-, rfl⟩ := Prod.mk.inj (hall.symm.trans hall')
    exact hheld'
  · obtain ⟨count, t, hwrite, hall', -, hle, hheld'⟩ :=
      writeAllWithin_of_some h (Nat.le_refl _) htag s
    obtain ⟨-, rfl⟩ := Prod.mk.inj (hall.symm.trans hall')
    refine ⟨count, hwrite, hheld', ?_⟩
    rw [hheld', List.append_right_inj, List.take_eq_self_iff]
    omega
  · rcases harrived.exists_tail with rfl | ⟨n, text, count, hn, htail, hpos, rfl⟩
    · exact Or.inl hheld
    · refine Or.inr ⟨n, text, count, ?_, hn, htail, hpos, ?_⟩
      · refine Nat.pos_of_ne_zero fun hzero => ?_
        rw [hzero, List.drop_zero, htag] at htail
        cases htail
      · rw [hheld, List.append_assoc]

/-! ## A sink of five bytes at a time -/

/-- A line of the log. -/
def sampleLine : List UInt8 := Utf8.encode "\x7b\"a\":1\x7d\n".toList

/-- The line with the connection in it. -/
def sampleText : List Char :=
  "\x7b\"a\":1,\"connection_id\":\"conn-global\"\x7d\n".toList

/-- The line is tagged. -/
theorem tagLine?_sampleLine : tagLine? (some "conn-global") sampleLine = some sampleText := by
  decide +kernel

/-- The sink takes five bytes of the tagged line and is not offered the rest. -/
theorem writeAll_tagging_of_five :
    (buffer (some 5) none []).Takes id ∧
    ((buffer (some 5) none []).tagging (some "conn-global")).writeAll sampleLine [] =
      (.ok (), (Utf8.encode sampleText).take 5) := by
  have htakes : (buffer (some 5) none []).Takes id := takes_buffer (by decide) []
  obtain ⟨held, hall, -, htagged, -⟩ := writeAll_tagging htakes (some "conn-global") sampleLine []
  obtain ⟨count, hwrite, hheld, -⟩ := htagged sampleText tagLine?_sampleLine
  have hcount : count = 5 := by
    have hfive : ((buffer (some 5) none []).write (Utf8.encode sampleText) []).1 = .ok 5 := by
      decide +kernel
    rw [hwrite] at hfive
    exact Except.ok.inj hfive
  rw [hcount] at hheld
  refine ⟨htakes, hall.trans ?_⟩
  exact congrArg _ hheld

/-- A sink that takes some bytes of every offer does not get every line complete. -/
theorem not_writeAll_tagging_complete :
    ¬ ∀ (sink : Sink (List UInt8)) (held : List UInt8 → List UInt8), sink.Takes held →
      ∀ (connection? : Option String) (line s : List UInt8), ∃ s',
        (sink.tagging connection?).writeAll line s = (.ok (), s') ∧
          held s' = held s ++ taggedLine connection? line := by
  intro hcomplete
  have htakes : (buffer (some 5) none []).Takes id := takes_buffer (by decide) []
  obtain ⟨held, hall, hheld⟩ := hcomplete _ _ htakes (some "conn-global") sampleLine []
  have hfive : ((buffer (some 5) none []).tagging (some "conn-global")).writeAll sampleLine [] =
      (.ok (), (Utf8.encode sampleText).take 5) := by decide +kernel
  obtain ⟨-, rfl⟩ := Prod.mk.inj (hall.symm.trans hfive)
  rw [taggedLine_of_some tagLine?_sampleLine] at hheld
  exact absurd hheld (by decide +kernel)

-- A line that is no document stays as it is, but its tail is offered again and is a document.
example : ((buffer (some 6) none []).tagging (some "conn-global")).writeAll
    (Utf8.encode "hello \x7b\"a\":1\x7d\n".toList) [] =
      (.ok (), Utf8.encode "hello \x7b\"a\":1".toList) := by
  decide +kernel

end Sink

end StreamWatch
