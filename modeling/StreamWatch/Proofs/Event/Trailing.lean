import StreamWatch.Event.Line
import StreamWatch.Proofs.Json.Lenient.Codec
import StreamWatch.Text.Blank

/-!
# Event lines with white space behind them

An event line may end in white space, such as the carriage return that some systems write before
each newline: `Event.ofLine_concat`. A line of nothing but white space holds no event.
-/

namespace StreamWatch

open Json

/-- An event is read without regard to space behind it. -/
theorem Event.lenient_codec : Event.codec.Lenient := by
  have hlimit : RateLimit.reasonCodec.Lenient := .record (.cons (.optional .int64) .nil) _ _ _
  have hreason : Reason.codec.Lenient :=
    .record (.cons (.named _) <| .cons (.optional hlimit) .nil) _ _ _
  have hdescriptor : Descriptor.codec.Lenient :=
    .record (.cons (.optional .text) <| .cons (.optional .text) .nil) _ _ _
  have hmessage : Message.codec.Lenient :=
    .record (.cons hdescriptor <| .cons (.named _) <| .cons .real <| .cons (.list hreason) .nil)
      _ _ _
  have hcontext : RunContext.codec.Lenient :=
    .record (.cons .flag <| .cons .uuid <| .cons .uuid <| .cons .uuid <| .cons .int64 <|
      .cons .uint32 <| .cons .uuid <| .cons .text <| .cons .text <| .cons .uuid <| .cons .uuid .nil)
      _ _ _
  exact .record (.cons (.named _) <| .cons hmessage <| .cons hcontext <|
    .cons (.optional (.named _)) .nil) _ _ _

/-- The event on a line is one whose document is read and that passes its check. -/
theorem Event.ofLine_eq_ok_iff {line : List Char} {event : Event} :
    Event.ofLine line = .ok event ↔
      ∃ event', Event.codec.ofChars line = .ok event' ∧ event'.check = .ok event := by
  unfold Event.ofLine
  cases Event.codec.ofChars line with
  | error fault => simp
  | ok event' => simp

/-- A blank line holds no event. -/
theorem Event.not_isAllBlank_of_ofLine {line : List Char} {event : Event}
    (h : Event.ofLine line = .ok event) : isAllBlank line = false := by
  obtain ⟨event', hread, -⟩ := Event.ofLine_eq_ok_iff.mp h
  rw [Bool.eq_false_iff]
  intro hblank
  have hmem : ∀ d ∈ line, isBlank d := List.all_eq_true.mp hblank
  cases hresult : Event.codec.read line with
  | error fault =>
      rw [Codec.ofChars, Reader.document, hresult] at hread
      cases hread
  | ok result =>
      obtain ⟨d, rest, hpeek, hbody⟩ := Reader.bind_ok hresult
      obtain ⟨d?, rest', hspace, hpeek⟩ := Reader.bind_ok hpeek
      cases hspace
      cases hcs : line.dropWhile Json.isSpace with
      | nil =>
          rw [hcs] at hpeek
          cases hpeek
      | cons c cs =>
          rw [hcs] at hpeek
          cases hpeek
          have hc : isBlank d := hmem d <| (List.dropWhile_suffix _).mem <| by
            rw [hcs]
            exact List.mem_cons_self
          -- a document of an event begins with a bracket, and no bracket is blank
          split at hbody
          · cases hc
          · cases hc
          · exact mismatch_ne_ok _ _ _ hbody

/-- White space at the end of a line makes no difference to the event on it. -/
theorem Event.ofLine_concat {c : Char} (hc : isSpace c) (line : List Char) (event : Event) :
    Event.ofLine (line ++ [c]) = .ok event ↔ Event.ofLine line = .ok event := by
  simp only [Event.ofLine_eq_ok_iff, Event.lenient_codec.ofChars_concat hc]

end StreamWatch
