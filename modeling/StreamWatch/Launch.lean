import StreamWatch.Log.Layout
import StreamWatch.Session
import StreamWatch.Settings.Load

/-!
# Launching the program

The program loads its settings, runs a session, and logs what the filter lets through: to a file as
JSON where the deployment asks for that, else to the console. Without valid settings there is no
session and no log. A fault is also reported in the end, with its cause.
-/

namespace StreamWatch

/-- What the program finds when it is started. -/
structure Surroundings where
  directory : String
  vars : Variables
  /-- The settings files. -/
  folder : Folder
  /-- Which paths lead to folders. -/
  isFolder : String → Bool
  /-- What becomes of opening and reading an input. -/
  input : String → Input

/-- A line of the log, with the event whose span it belongs to if that is shown. -/
structure LoggedLine where
  within? : Option Event
  line : LogLine

/-- The lines of an entry that a filter lets through. -/
def SessionEntry.logged (filter : LogFilter) : SessionEntry → List LoggedLine
  | line l => if filter.allows none l then [⟨none, l⟩] else []
  | tracked event lines =>
    let within? := if filter.showsScope event.logScope then some event else none
    (lines.filter (filter.allows (some event.logScope))).map (⟨within?, ·⟩)

/-- The last line of the log when a session fails. -/
def SessionFault.line (fault : SessionFault) : LogLine :=
  ⟨.error, .program, s!"an error occurred in the replayer: {fault.message}", []⟩

/-- What the program did. -/
inductive Launch where
  /-- There are no valid settings. -/
  | refused (message : String)
  | ran (deployment : Deployment) (connection? : Option String) (log : List LoggedLine)
    (fault? : Option SessionFault)

namespace Launch

/-- Runs the program; new records get their identifiers from `supply`. -/
def run (supply : Nat → Uuid) (s : Surroundings) : Launch :=
  match Settings.loadValid s.folder s.isFolder s.vars, Deployment.ofVariables s.vars with
  | .error fault, _ => refused (fault.message s.directory)
  | _, .error fault => refused fault.message
  | .ok settings, .ok deployment =>
    let replay := settings.replay
    let filter := LogFilter.ofVariables s.vars
    let outcome := Session.run supply replay (s.input replay.inputPath)
    let last := outcome.fault?.toList.map fun fault => SessionEntry.line fault.line
    ran deployment replay.options.singleConnection?
      ((outcome.entries ++ last).flatMap (SessionEntry.logged filter)) outcome.fault?

/-- Whether the program succeeded. -/
def succeeded : Launch → Bool
  | refused _ => false
  | ran _ _ _ fault? => fault?.isNone

/-- The exit code. -/
def exitCode (l : Launch) : Nat := if l.succeeded then 0 else 1

/-- A fault as it is reported in the end: what failed, and below it what caused that. -/
def report (causes : List String) : String :=
  match causes with
  | [] => ""
  | [message] => "Error: " ++ message
  | message :: causes =>
    "Error: " ++ message ++ "\n\nCaused by:" ++ String.join (causes.map ("\n    " ++ ·))

/-- What is written about a fault in the end. -/
def errorText : Launch → String
  | refused message => report [message]
  | ran _ _ _ (some fault) => report fault.causes
  | ran _ _ _ none => ""

/-- The lines of the log file, nothing if there is no file. -/
def fileLines? : Launch → Option (List (List Char))
  | refused _ => none
  | ran deployment connection? log _ =>
    if deployment.logsToFiles then some (log.map fun l => l.line.fileText connection? l.within?)
    else none

/-- The lines of the log on the console. -/
def consoleLines : Launch → List String
  | refused _ => []
  | ran deployment _ log _ =>
    if deployment.logsToFiles then [] else log.map (·.line.consoleText)

end Launch

end StreamWatch
