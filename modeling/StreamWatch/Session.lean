import StreamWatch.Archive
import StreamWatch.Folder
import StreamWatch.Settings

/-!
# A replay session

A session replays the input that the settings name into a fresh roster, with an archive in the place
of the status API, and writes to the log what happened: what it starts with, what the replay and the
archive write, and in the end how many streams are in which state.
-/

namespace StreamWatch

/-- What became of opening and reading the input. -/
inductive Input where
  | bytes (content : List UInt8)
  /-- The input could not be opened. -/
  | closed (reason : String)
  /-- The input was opened and could not be read. -/
  | unreadable (reason : String)

/-- Why a session failed. -/
inductive SessionFault where
  | cannotOpen (path reason : String)
  | cannotRead (reason : String)
deriving DecidableEq

/-- What failed, and what caused that. -/
def SessionFault.causes : SessionFault → List String
  | cannotOpen path reason => [s!"failed to open replay input {path}", reason]
  | cannotRead reason => [reason]

/-- What failed, without what caused it. -/
def SessionFault.message : SessionFault → String
  | cannotOpen path _ => s!"failed to open replay input {path}"
  | cannotRead reason => reason

/-- What a session writes to the log: lines of its own, and the lines of each event it tracks. -/
inductive SessionEntry where
  | line (line : LogLine)
  | tracked (event : Event) (lines : List LogLine)

/-- The lines that an effect leaves when the status API is an archive, which announces every
call. -/
def Effect.archivedLine : Effect → LogLine
  | .call (.create _) _ => ⟨.info, .archive, "creating stream status:", []⟩
  | .call (.update id _) _ => ⟨.info, .archive, s!"updating stream status {id}:", []⟩
  | .note notice => notice.line

/-- What an entry of a replay leaves in the log of a session. -/
def ReplayEntry.sessionEntry : ReplayEntry → SessionEntry
  | .note notice => .line notice.line
  | .tracked event effects => .tracked event (effects.map Effect.archivedLine)

namespace Session

/-- The lines at the beginning. -/
def opening (settings : ReplaySettings) : List LogLine :=
  [⟨.info, .replay, "starting stream status replayer", []⟩,
    ⟨.debug, .replay, "replay config",
      [("input_path", .text settings.inputPath),
        ("force_complete_on_eof", .flag settings.completesAtEnd),
        ("connection_ids", .shown (Quoted.encodeList settings.connections))]⟩]

/-- The lines at the end: what was counted, and the run states of the archive's records. -/
def closing (summary : ReplaySummary) (roster : Roster) (archive : Archive) : List LogLine :=
  ⟨.info, .replay, "stream status replay completed",
    [("events", .number summary.events), ("skipped", .number summary.skipped),
      ("filtered", .number summary.filtered), ("runs", .number summary.runs),
      ("creates", .number archive.creates.size), ("updates", .number archive.updates.size),
      ("tracked_streams", .number roster.streams.size)]⟩ ::
    (Archive.countRunStates archive.all).map fun (state, count) =>
      ⟨.info, .replay, "final stream statuses",
        [("run_state", .shown state.word), ("streams", .number count)]⟩

/-- What a session did. -/
structure Outcome where
  entries : List SessionEntry
  archive : Archive
  fault? : Option SessionFault

/-- Runs a session; new records get their identifiers from `supply`. -/
def run (supply : Nat → Uuid) (settings : ReplaySettings) (input : Input) : Outcome :=
  let start := (opening settings).map SessionEntry.line
  match input with
  | .closed reason => ⟨start, {}, some (.cannotOpen settings.inputPath reason)⟩
  | .unreadable reason => ⟨start, {}, some (.cannotRead reason)⟩
  | .bytes content =>
    let outcome := Replay.run (Archive.api supply) settings.options content {} {}
    let progress := outcome.progress
    let entries := start ++ progress.entries.toList.map ReplayEntry.sessionEntry
    match outcome.result with
    | .error fault => ⟨entries, progress.api, some (.cannotRead fault.message)⟩
    | .ok summary =>
      let last := closing summary progress.roster progress.api
      ⟨entries ++ last.map SessionEntry.line, progress.api, none⟩

end Session

/-- What a session finds at a path of a folder. -/
def Folder.input (f : Folder) (path : String) : Input :=
  match f.look path with
  | .ok (.file content) => .bytes content
  | .ok .folder => .unreadable PathFault.isFolder.message
  | .error fault => .closed fault.message

end StreamWatch
