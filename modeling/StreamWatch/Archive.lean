import StreamWatch.Api
import StreamWatch.Table

/-!
# An archive of statuses in memory

The `Archive` is the status API of a replay: it keeps every request that it accepted, in order, and
one record for every stream that was registered, with the last report about it. Identifiers come
from a supply that is given from outside; the one at position `n` goes to the record created after
`n` others.
-/

namespace StreamWatch

/-- The requests accepted so far and the records they led to. -/
structure Archive where
  creates : Array Report := #[]
  updates : Array (Uuid × Report) := #[]
  records : Table Uuid Report := .empty

instance : Inhabited Archive := ⟨{}⟩

namespace Archive

/-- Files a new record under an identifier. -/
def create (id : Uuid) (report : Report) (a : Archive) : Archive :=
  { a with creates := a.creates.push report, records := a.records.put id report }

/-- Files an update of the record with this identifier. -/
def update (id : Uuid) (report : Report) (a : Archive) : Archive :=
  { a with updates := a.updates.push (id, report), records := a.records.put id report }

/-- The archive as a status API. An update of a record that does not exist is refused. -/
def api (supply : Nat → Uuid) : StatusApi Archive where
  answer
    | .create report, a =>
      let id := supply a.creates.size
      (.ok ⟨id, report⟩, a.create id report)
    | .update id report, a =>
      match a.records.get? id with
      | some _ => (.ok ⟨id, report⟩, a.update id report)
      | none => (.error (.recordNotFound id), a)

/-! ## What is answered -/

section Answer

variable (supply : Nat → Uuid) (id : Uuid) (report : Report) (a : Archive)

/-- A request for a record is granted, with the next identifier. -/
theorem answer_create : (api supply).answer (.create report) a =
    (.ok ⟨supply a.creates.size, report⟩, a.create (supply a.creates.size) report) := rfl

variable {supply id a} in
/-- An update of a record that exists is accepted. -/
theorem answer_update {before : Report} (h : a.records.get? id = some before) :
    (api supply).answer (.update id report) a = (.ok ⟨id, report⟩, a.update id report) := by
  simp only [api, h]

/-- A record that was created says what it was created with. -/
theorem get?_create (other : Uuid) : (a.create id report).records.get? other =
    if id = other then some report else a.records.get? other :=
  Table.get?_put a.records id other report

/-- A record that was updated says what it was updated with. -/
theorem get?_update (other : Uuid) : (a.update id report).records.get? other =
    if id = other then some report else a.records.get? other :=
  Table.get?_put a.records id other report

/-- A request for a record is kept. -/
theorem size_creates_create :
    ((api supply).answer (.create report) a).2.creates.size = a.creates.size + 1 :=
  Array.size_push _

/-- An update is no request for a record. -/
theorem size_creates_update :
    ((api supply).answer (.update id report) a).2.creates.size = a.creates.size := by
  simp only [api]
  split <;> rfl

end Answer

/-! ## What is on record -/

/-- The records, in the order in which they were created. -/
def all (a : Archive) : List Record := a.records.entries.map fun (id, report) => ⟨id, report⟩

/-- How many records are in each run state; states of no record are left out. -/
def countRunStates (records : List Record) : List (RunState × Nat) :=
  (RunState.all.map fun state =>
    (state, (records.filter fun record => record.report.runState = state).length)).filter
    fun (_, count) => 0 < count

end Archive

end StreamWatch
