import StreamWatch.Proofs.Event.RoundTrip
import StreamWatch.Proofs.Json.Truncation.Codec

/-!
# Event lines that are cut short

What is cut off the line of an event holds no event, and what is wrong with it is reported as an end
of input that came too early, wherever the cut is: `Event.ofLine_cut`.
-/

namespace StreamWatch

open Json

namespace Json.Codec.Follows

/-- A rate limit that is cut ends too early. -/
theorem rateLimit (limit : RateLimit) : RateLimit.reasonCodec.Follows limit := by
  refine record (.cons (by decide) (optional _ (fun n _ => int64 n) (fun n _ => ?_) ?_) .nil)
  · exact (isNumeral_writeInt n.toInt).notNull
  · exact ⟨_, rfl, rfl⟩

/-- A reason that is cut ends too early. -/
theorem reason (reason : Reason) : Reason.codec.Follows reason := by
  refine record (.cons (by decide) ?_ (.cons (by decide) ?_ .nil))
  · exact named (by decide) (by cases reason.kind; decide)
  · exact optional _ (fun limit _ => rateLimit limit) (fun _ _ => notNull_record) ⟨_, rfl, rfl⟩

theorem descriptor (descriptor : Descriptor) : Descriptor.codec.Follows descriptor := by
  have htext (s? : Option String) : (Codec.optional .text).Follows s? :=
    optional s? (fun s _ => text s) (fun s _ => notNull_writeText s) ⟨_, rfl, rfl⟩
  exact record (.cons (by decide) (htext _) <| .cons (by decide) (htext _) .nil)

/-- A message that is cut ends too early, whatever finite time it was sent at. -/
theorem message {message : Message} (h : message.emittedAt.isFinite) :
    Message.codec.Follows message := by
  refine record (.cons (by decide) (descriptor _) <| .cons (by decide) ?_ <|
    .cons (by decide) ?_ <| .cons (by decide)
      (list (fun r _ => Faithful.reason r) fun r _ => reason r) .nil)
  · exact named (by decide) (by cases message.status <;> decide)
  · cases htime : message.emittedAt with
    | finite negative m => exact real negative m
    | infinite negative =>
        rw [htime] at h
        cases h
    | nan =>
        rw [htime] at h
        cases h

theorem context (context : RunContext) : RunContext.codec.Follows context :=
  record <| .cons (by decide) (flag _) <| .cons (by decide) (uuid _) <|
    .cons (by decide) (uuid _) <| .cons (by decide) (uuid _) <| .cons (by decide) (int64 _) <|
    .cons (by decide) (uint32 _) <| .cons (by decide) (uuid _) <| .cons (by decide) (text _) <|
    .cons (by decide) (text _) <| .cons (by decide) (uuid _) <| .cons (by decide) (uuid _) .nil

end Json.Codec.Follows

namespace Event

/-- The document of an event that is cut ends too early. -/
theorem truncated_read {event : Event} (h : event.message.emittedAt.isFinite) {text : List Char}
    (hcut : text <+: event.toLine) (hne : text ≠ event.toLine) :
    Truncated (Event.codec.read text) := by
  refine Codec.truncated_record ?_ hcut hne
  refine .cons (by decide) ?_ <| .cons (by decide) (.message h) <|
    .cons (by decide) (.context _) <| .cons (by decide) ?_ .nil
  · exact .named (by decide) (by cases event.origin <;> decide)
  · refine .optional _ (fun cause _ => ?_) (fun _ _ => notNull_writeText _) ⟨_, rfl, rfl⟩
    exact .named (by decide) (by cases cause <;> decide)

/-- A line that is cut holds no event, and the failure is that it ends too early. -/
theorem ofLine_cut {event : Event} (h : event.message.emittedAt.isFinite) {text : List Char}
    (hcut : text <+: event.toLine) (hne : text ≠ event.toLine) :
    ∃ failure, ofLine text = .error failure ∧ failure.kind = .deserialization ∧
      failure.description = "JSON deserialization failed due to unexpected end of input" := by
  obtain ⟨fault, hread, hfault⟩ := (truncated_read h hcut hne).ofChars
  refine ⟨.ofFault fault, ?_, rfl, if_pos hfault⟩
  rw [ofLine, hread]

/-- A line may be cut behind the point of a number. -/
theorem ofLine_cut_in_number :
    let event : Event :=
      { origin := .internal
        message := ⟨⟨none, none⟩, .running, .finite false .zero, []⟩
        context := ⟨false, ⟨1⟩, ⟨2⟩, ⟨3⟩, 4, 5, ⟨6⟩, "", "", ⟨7⟩, ⟨8⟩⟩ }
    let text := ("\x7b\"origin\":\"INTERNAL\",\"message\":\x7b\"stream_descriptor\":" ++
      "\x7b\"name\":null,\"namespace\":null\x7d,\"status\":\"RUNNING\",\"emitted_at\":0.").toList
    event.message.emittedAt.isFinite ∧ text <+: event.toLine ∧ text ≠ event.toLine ∧
      ∃ failure, ofLine text = .error failure ∧ failure.kind = .deserialization ∧
        failure.description = "JSON deserialization failed due to unexpected end of input" := by
  intro event text
  have hfinite : event.message.emittedAt.isFinite := rfl
  have htext : text.isPrefixOf event.toLine ∧ text ≠ event.toLine := by decide +kernel
  have hcut : text <+: event.toLine := List.isPrefixOf_iff_prefix.mp htext.1
  exact ⟨hfinite, hcut, htext.2, ofLine_cut hfinite hcut htext.2⟩

end Event

end StreamWatch
