import StreamWatch.Uuid
import StreamWatch.Status

/-!
# Streams and the runs they belong to

A stream is named by a descriptor. The same stream is replicated by many runs, so what is watched is
a stream of one run: its `StreamKey`.
-/

namespace StreamWatch

/-- The name and the namespace of a stream. A descriptor with neither names no stream; internal
events use it to address every stream of a run. -/
structure Descriptor where
  name : Option String := none
  /-- The namespace. -/
  space : Option String := none
deriving DecidableEq

/-- One attempt of one job of one connection. -/
structure RunId where
  workspace : Uuid
  connection : Uuid
  job : Int64
  attempt : UInt32
deriving DecidableEq

/-- A named stream of one run. -/
structure StreamKey where
  name : String
  /-- The namespace. -/
  space : Option String
  run : RunId
deriving DecidableEq

namespace Descriptor

/-- Whether the descriptor says nothing. -/
def isEmpty (d : Descriptor) : Bool := d.name.isNone && d.space.isNone

/-- The text for messages: the name, after its namespace and a point if it has one. -/
protected def toString (d : Descriptor) : String :=
  let name := d.name.getD "<unnamed>"
  match d.space with
  | some space => space ++ "." ++ name
  | none => name

end Descriptor

namespace StreamKey

/-- The stream of a run that a descriptor names, if it names one. -/
def of? (d : Descriptor) (run : RunId) : Option StreamKey :=
  d.name.map fun name => ⟨name, d.space, run⟩

/-- The descriptor of the stream. -/
def descriptor (k : StreamKey) : Descriptor := ⟨some k.name, k.space⟩

/-- The text for messages. -/
protected def toString (k : StreamKey) : String :=
  s!"{k.descriptor.toString} (connection {k.run.connection}, job {k.run.job.toInt}, " ++
    s!"attempt {k.run.attempt.toNat})"

end StreamKey

end StreamWatch
