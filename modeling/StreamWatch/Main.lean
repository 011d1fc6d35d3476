import StreamWatch.Launch

/-!
# The program

Collects what the program runs on, runs it, and puts what it logged in its place.
-/

namespace StreamWatch

/-- The variables that a block of them holds, each ended by a zero byte. -/
def Variables.ofBlock (block : List UInt8) : Variables :=
  match Utf8.decode block with
  | .error _ => []
  | .ok text =>
    (Separated.split '\x00' text).filterMap fun entry =>
      let (name, value) := entry.span (· ≠ '=')
      if value.isEmpty then none else some (String.ofList name, String.ofList (value.drop 1))

/-- The identifier that random bits make, marked as random. -/
def Uuid.ofRandom (bits : Nat) : Uuid :=
  let kept := 0xffffffffffff0fff3fffffffffffffff
  let marks := 0x00000000000040008000000000000000
  ⟨BitVec.ofNat 128 ((bits &&& kept) + marks)⟩

namespace Program

/-- The bytes of a file, if it can be read. -/
def readFile? (path : String) : IO (Option (List UInt8)) := do
  try
    return some (← IO.FS.readBinFile path).toList
  catch _ => return none

/-- The variables of the process. -/
def vars : IO Variables := do
  return Variables.ofBlock ((← readFile? "/proc/self/environ").getD [])

/-- The settings files. -/
def settingsFolder : IO Folder := do
  let files ← Settings.fileNames.filterMapM fun name => do
    return (← readFile? name).map (Folder.names name, ·)
  return { files }

/-- Whether a path leads to a folder. -/
def isFolder (path : String) : IO Bool := do
  try
    (← IO.FS.realPath path).isDir
  catch _ => return false

/-- What becomes of opening and reading an input. -/
def input (path : String) : IO Input := do
  try
    return .bytes (← IO.FS.readBinFile path).toList
  catch
    | .noFileOrDirectory _ _ _ => return .closed PathFault.missing.message
    | .inappropriateType _ _ _ => return .unreadable PathFault.isFolder.message
    | other => return .closed (toString other)

/-- Identifiers for new records. -/
def supply : IO (Nat → Uuid) := do
  let bits := (← IO.getRandomBytes 16).toList.foldl (fun n b => 256 * n + b.toNat) 0
  return fun n => Uuid.ofRandom (bits + n)

/-- Collects what the program finds. The input is looked at only if the settings can be loaded. -/
def surroundings : IO Surroundings := do
  let directory := (← IO.currentDir).toString
  let vars ← vars
  let folder ← settingsFolder
  match Settings.load Yaml.documents? folder vars with
  | .error _ => return ⟨directory, vars, folder, fun _ => false, fun _ => .bytes []⟩
  | .ok settings =>
    let path := settings.replay.inputPath
    let isFolder ← isFolder path
    let input ← input path
    return ⟨directory, vars, folder, fun _ => isFolder, fun _ => input⟩

/-- Appends lines to the log file. -/
def writeLog (lines : List (List Char)) : IO Unit := do
  IO.FS.createDirAll "logs"
  let file ← IO.FS.Handle.mk "logs/status-replayer.log" .append
  for line in lines do
    file.putStr (String.ofList line)

end Program

end StreamWatch

open StreamWatch

/-- Runs the program. -/
def main : IO UInt32 := do
  let launch := Launch.run (← Program.supply) (← Program.surroundings)
  if let some lines := launch.fileLines? then Program.writeLog lines
  for line in launch.consoleLines do
    IO.println line
  unless launch.succeeded do IO.eprintln launch.errorText
  return UInt32.ofNat launch.exitCode
