import StreamWatch.Json.Codec
import StreamWatch.Replay

/-!
# Settings of a replay

Which file is replayed, and how. Settings that were read may still make no sense; `validate` says
so.
-/

namespace StreamWatch

open Json

/-- The settings of a replay. -/
structure ReplaySettings where
  inputPath : String
  completesAtEnd : Bool := true
  connections : List String := []
deriving DecidableEq

/-- The settings of the program. -/
structure Settings where
  replay : ReplaySettings
deriving DecidableEq

/-- What is wrong with settings. -/
inductive SettingsFault where
  | emptyPath
  | emptyConnection
  | pathIsFolder (path : String)
deriving DecidableEq

/-- The fault in words. -/
def SettingsFault.message (fault : SettingsFault) : String :=
  "Invalid replay input: " ++ match fault with
    | emptyPath => "input_path cannot be empty"
    | emptyConnection => "connection_ids cannot contain empty ids"
    | pathIsFolder path => s!"input_path must point to a file, got directory {path}"

namespace ReplaySettings

/-- How to replay. -/
def options (s : ReplaySettings) : ReplayOptions := ⟨s.completesAtEnd, s.connections⟩

/-- The first thing wrong with the settings; `isFolder` tells which paths lead to folders. -/
def validate (s : ReplaySettings) (isFolder : String → Bool) : Except SettingsFault Unit :=
  if isAllBlank s.inputPath.toList then .error .emptyPath
  else if s.connections.any fun id => isAllBlank id.toList then .error .emptyConnection
  else if isFolder s.inputPath then .error (.pathIsFolder s.inputPath)
  else .ok ()

/-- The settings of a replay in JSON. -/
def codec : Codec ReplaySettings :=
  .record "ReplayConfig"
    (.cons ⟨"input_path", .text, none⟩ <|
      .cons ⟨"force_complete_on_eof", .flag, some true⟩ <|
      .cons ⟨"connection_ids", .list .text, some []⟩ .nil)
    (fun (inputPath, completesAtEnd, connections, _) => ⟨inputPath, completesAtEnd, connections⟩)
    fun s => (s.inputPath, s.completesAtEnd, s.connections, ())

end ReplaySettings

/-- The settings of the program in JSON. -/
def Settings.codec : Codec Settings :=
  .record "ReplayerConfig"
    (.cons ⟨"replay", ReplaySettings.codec, none⟩ .nil)
    (fun (replay, _) => ⟨replay⟩)
    fun s => (s.replay, ())

end StreamWatch
