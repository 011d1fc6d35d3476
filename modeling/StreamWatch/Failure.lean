import StreamWatch.Json.Fault
import StreamWatch.Event

/-!
# Failures

What can go wrong with an event or with a call of the status API: a kind, a fixed description, and
often a detail. Two failures are alike when their kinds agree and both or neither have a detail.
-/

namespace StreamWatch

/-- The kinds of failures. -/
inductive FailureKind where
  | requestFailed
  | apiUnavailable
  | invalidEvent
  | invalidData
  | io
  | deserialization
deriving DecidableEq

/-- The names of the kinds. -/
def FailureKind.tags : List (String × FailureKind) :=
  [("StatusApiRequestFailed", requestFailed), ("StatusApiUnavailable", apiUnavailable),
    ("InvalidEvent", invalidEvent), ("InvalidData", invalidData), ("IoError", io),
    ("DeserializationError", deserialization)]

/-- The name of a kind. -/
def FailureKind.word : FailureKind → String
  | requestFailed => "StatusApiRequestFailed"
  | apiUnavailable => "StatusApiUnavailable"
  | invalidEvent => "InvalidEvent"
  | invalidData => "InvalidData"
  | io => "IoError"
  | deserialization => "DeserializationError"

/-- Something that went wrong. -/
structure Failure where
  kind : FailureKind
  description : String
  detail : Option String := none
deriving DecidableEq

namespace Failure

/-- The failure in words. -/
def message (f : Failure) : String :=
  let summary := f.kind.word ++ ": " ++ f.description
  match f.detail with
  | some detail => summary ++ " -> " ++ detail
  | none => summary

/-- Whether two failures are of one kind and both or neither have a detail. -/
def isLike (f g : Failure) : Bool := f.kind = g.kind && f.detail.isSome == g.detail.isSome

/-! ## The failures of this library -/

/-- A document that could not be read. -/
def ofFault (fault : Json.Fault) : Failure :=
  let description := if fault.isTruncation
    then "JSON deserialization failed due to unexpected end of input"
    else "JSON deserialization failed"
  ⟨.deserialization, description, some fault.message⟩

/-- An input or output that failed. -/
def ofIO (text : String) : Failure := ⟨.io, "I/O error occurred", some text⟩

/-- An input that failed while a document was read from it. -/
def ofDocumentIO (text : String) : Failure := ⟨.io, "JSON I/O operation failed", some text⟩

/-- An event whose time is no number. -/
def timeNotFinite (time : Binary64) : Failure :=
  ⟨.invalidData, "Event emission time is not a finite number",
    some (String.ofList (DoubleLayout.plain.write time))⟩

/-- An event of a connector that names no stream. -/
def unnamedStream (origin : Origin) : Failure :=
  ⟨.invalidEvent, "Connector event without a stream name", some origin.word⟩

/-- An update of a record that was never created. -/
def recordNotFound (id : Uuid) : Failure :=
  ⟨.requestFailed, "Stream status not found", some id.toString⟩

end Failure

end StreamWatch
