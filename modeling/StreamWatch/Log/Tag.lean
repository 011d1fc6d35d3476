import StreamWatch.Json.Value
import StreamWatch.Text.Utf8

/-!
# Tagging log lines with the connection

When a single connection is replayed, every line of the JSON log gets a member that names it. A line
that is no JSON object, or that has such a member already, is left as it is. A `TaggingSink` does
this to whatever is written through it.
-/

namespace StreamWatch

/-- The member that names the connection. -/
def connectionMember : String := "connection_id"

/-- The text of a line with the connection as another member; nothing if the line stays as it
is. -/
def tagText? (connection : String) (line : List Char) : Option (List Char) :=
  match Json.Value.ofChars line with
  | .ok (.object members) =>
    if members.any fun (key, _) => key == connectionMember then none
    else
      let tagged := Json.Value.insertMember connectionMember (.text connection) members
      let ending := if line.getLast? = some '\n' then ['\n'] else []
      some ((Json.Value.object tagged).write ++ ending)
  | _ => none

/-- The bytes of a line with the connection as another member; nothing if the line stays as it
is. -/
def tagLine? (connection? : Option String) (line : List UInt8) : Option (List Char) :=
  match connection?, Utf8.decode line with
  | some connection, .ok text => tagText? connection text
  | _, _ => none

/-! ## Sinks -/

/-- Something that bytes are written to. A write may take fewer bytes than it is offered; it answers
how many it took, or why it failed. -/
structure Sink (σ : Type) where
  write : List UInt8 → σ → Except String Nat × σ
  flush : σ → σ

namespace Sink

/-- A sink that tags the lines written to it. One write is one line; the count answered is that of
the bytes offered, so that the caller does not offer the tail of a changed line again. -/
def tagging {σ : Type} (connection? : Option String) (sink : Sink σ) : Sink σ where
  write line s :=
    match tagLine? connection? line with
    | some text =>
      match sink.write (Utf8.encode text) s with
      | (.ok _, s) => (.ok line.length, s)
      | (.error fault, s) => (.error fault, s)
    | none => sink.write line s
  flush := sink.flush

/-- Offers bytes to a sink until it has taken all of them. The first argument bounds the number of
writes; a sink that takes bytes at every write needs no more than there are bytes. -/
def writeAllWithin {σ : Type} (sink : Sink σ) : Nat → List UInt8 → σ → Except String Unit × σ
  | _, [], s => (.ok (), s)
  | 0, _, s => (.error "failed to write whole buffer", s)
  | bound + 1, bytes, s =>
    match sink.write bytes s with
    | (.error fault, s) => (.error fault, s)
    | (.ok 0, s) => (.error "failed to write whole buffer", s)
    | (.ok count, s) => writeAllWithin sink bound (bytes.drop count) s

/-- Offers bytes to a sink until it has taken all of them. -/
def writeAll {σ : Type} (sink : Sink σ) (bytes : List UInt8) (s : σ) : Except String Unit × σ :=
  sink.writeAllWithin bytes.length bytes s

/-- A sink that keeps what it takes. It takes at most `limit` bytes at a write, none once it holds
`room` of them, and marks where it was flushed. -/
def buffer (limit room : Option Nat) (mark : List UInt8) : Sink (List UInt8) where
  write bytes held :=
    if room.any (· ≤ held.length) then (.error "sink is full", held)
    else
      let taken := match limit with
        | some limit => bytes.take limit
        | none => bytes
      (.ok taken.length, held ++ taken)
  flush held := held ++ mark

end Sink

end StreamWatch
