import StreamWatch.Log

/-!
# Panics in the log

A panic leaves one line in the log before the program gives up.
-/

namespace StreamWatch

/-- What a panic carries. -/
inductive PanicPayload where
  | text (value : String)
  /-- A value that is no text. -/
  | other
deriving DecidableEq

/-- The payload in words. -/
def PanicPayload.words : PanicPayload → String
  | text value => value
  | other => "unknown panic payload"

/-- The line that a panic at this place leaves. -/
def panicLine (payload : PanicPayload) (location : String) : LogLine :=
  ⟨.error, .panic, "a panic occurred",
    [("panic.payload", .text payload.words), ("payload.location", .text location),
      ("panic.note", .text "run with RUST_BACKTRACE=1 to display backtraces")]⟩

end StreamWatch
