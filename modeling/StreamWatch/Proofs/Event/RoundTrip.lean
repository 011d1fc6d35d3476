import StreamWatch.Event.Line
import StreamWatch.Proofs.Json.RoundTrip.Codec
import StreamWatch.Proofs.Text.Lines

/-!
# Event lines read back

An event that a line can say in full is read back from the line it is written as:
`Event.ofLine_toLine`. The line is one line: it starts and ends with a brace, and no newline stands
between them.
-/

namespace StreamWatch

open Json

namespace Json.Codec.Faithful

/-- A rate limit is read back, with the time it ends at or without. -/
theorem rateLimit (limit : RateLimit) : RateLimit.reasonCodec.Faithful limit := by
  refine record ?_ rfl
  refine .cons (by decide) (optional _ (fun n _ => int64 n) fun n _ => ?_) .nil
  exact (isNumeral_writeInt n.toInt).notNull

/-- A reason is read back, with its rate limit or without. -/
theorem reason (reason : Reason) : Reason.codec.Faithful reason := by
  refine record ?_ rfl
  refine .cons (by decide) ?_ (.cons (by decide) ?_ .nil)
  · exact named (by decide) (by cases reason.kind; decide)
  · exact optional _ (fun limit _ => rateLimit limit) fun _ _ => notNull_record

theorem descriptor (descriptor : Descriptor) : Descriptor.codec.Faithful descriptor := by
  have htext (s? : Option String) : (Codec.optional .text).Faithful s? :=
    optional s? (fun s _ => text s) fun s _ => notNull_writeText s
  exact record (.cons (by decide) (htext _) <| .cons (by decide) (htext _) .nil) rfl

/-- A message is read back if its time is a whole number of up to fifteen digits. -/
theorem message {message : Message} (h : message.emittedAt.IsWholeUpTo (10 ^ 15)) :
    Message.codec.Faithful message := by
  obtain ⟨negative, m, n, htime, hwhole, hn⟩ := h
  refine record ?_ rfl
  refine .cons (by decide) (descriptor _) <| .cons (by decide) ?_ <| .cons (by decide) ?_ <|
    .cons (by decide) (list fun r _ => reason r) .nil
  · exact named (by decide) (by cases message.status <;> decide)
  · rw [htime]
    exact real hwhole hn negative

theorem context (context : RunContext) : RunContext.codec.Faithful context := by
  refine record ?_ rfl
  exact .cons (by decide) (flag _) <| .cons (by decide) (uuid _) <| .cons (by decide) (uuid _) <|
    .cons (by decide) (uuid _) <| .cons (by decide) (int64 _) <| .cons (by decide) (uint32 _) <|
    .cons (by decide) (uuid _) <| .cons (by decide) (text _) <| .cons (by decide) (text _) <|
    .cons (by decide) (uuid _) <| .cons (by decide) (uuid _) .nil

/-- An event is read back if its time is a whole number of up to fifteen digits. -/
theorem event {event : Event} (h : event.message.emittedAt.IsWholeUpTo (10 ^ 15)) :
    Event.codec.Faithful event := by
  refine record ?_ rfl
  refine .cons (by decide) ?_ <| .cons (by decide) (message h) <|
    .cons (by decide) (context _) <| .cons (by decide) ?_ .nil
  · exact named (by decide) (by cases event.origin <;> decide)
  · refine optional _ (fun cause _ => ?_) fun _ _ => notNull_writeText _
    exact named (by decide) (by cases cause <;> decide)

end Json.Codec.Faithful

namespace Event

/-- A line can say the event in full: a connector names its stream, and the time of the event is
written without rounding. -/
structure IsPlain (event : Event) : Prop where
  named : event.origin ≠ .internal → event.message.stream.name ≠ none
  timed : event.message.emittedAt.IsWholeUpTo (10 ^ 15)

/-- An event is read back from its line. -/
theorem ofLine_toLine {event : Event} (h : event.IsPlain) : ofLine event.toLine = .ok event := by
  have hread : Event.codec.ofChars event.toLine = .ok event :=
    Codec.Faithful.ofChars_write (.event h.timed)
  obtain ⟨negative, m, n, htime, -⟩ := h.timed
  have hfinite : event.message.emittedAt.isFinite := by
    rw [htime]
    rfl
  have hnamed : ¬ (event.origin ≠ .internal ∧ event.message.stream.name = none) :=
    fun hunnamed => h.named hunnamed.1 hunnamed.2
  rw [ofLine, hread]
  simp only [check, hfinite, Bool.not_true, Bool.false_eq_true, if_false, if_neg hnamed]

/-- The line of an event is one line. -/
theorem isLine_toLine {event : Event} (h : event.IsPlain) : Utf8.IsLine event.toLine := by
  obtain ⟨members, hmembers⟩ : ∃ members, event.toLine = '{' :: members ++ ['}'] := ⟨_, rfl⟩
  -- a line that ends with a brace ends with no carriage return that could be taken for its end
  refine ⟨by simp [hmembers], (Codec.Faithful.event h.timed).compact.newline_not_mem, ?_⟩
  rw [hmembers, List.getLast?_concat]
  decide

end Event

end StreamWatch
