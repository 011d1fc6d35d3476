import StreamWatch.Settings
import StreamWatch.Settings.Layer
import StreamWatch.Yaml.Document

/-!
# Loading settings

Settings are loaded from the common file, from the file of the deployment and from variables; a
later source wins over an earlier one. The merged tree is then read as the settings of the program,
with some leniency: numbers and truth values do for text, and numbers and some words for truth
values.
-/

namespace StreamWatch

/-! ## Reading the tree -/

/-- The words for truth values, in lower case. -/
def flagWords : List (String × Bool) :=
  [("1", true), ("true", true), ("on", true), ("yes", true),
    ("0", false), ("false", false), ("off", false), ("no", false)]

namespace Setting

/-- Reads a text. -/
def asText (path : SettingPath) : Setting → Except LoadFault String
  | scalar (.text value) _ => .ok value
  | scalar (.flag value) _ => .ok (toString value)
  | scalar (.integer value) _ => .ok (toString value)
  | scalar (.real value) _ => .ok (String.ofList (DoubleLayout.plain.write value))
  | found => .error (.mismatch found .text path)

/-- Reads a truth value. A number is true unless it is zero. -/
def asFlag (path : SettingPath) : Setting → Except LoadFault Bool
  | scalar (.flag value) _ => .ok value
  | scalar (.integer value) _ => .ok (value ≠ 0)
  | scalar (.real value) _ => .ok (!value.isZero)
  | scalar (.text value) source? =>
    match flagWords.find? fun (word, _) => word = lowerCase value with
    | some (_, value) => .ok value
    | none => .error (.mismatch (scalar (.text (lowerCase value)) source?) .flag path)
  | found => .error (.mismatch found .flag path)

/-- Reads a list of texts. -/
def asTexts (path : SettingPath) : Setting → Except LoadFault (List String)
  | list elements _ =>
    elements.zipIdx.mapM fun (element, index) => element.asText (path ++ [.element index])
  | found => .error (.mismatch found .list path)

/-- A part of a setting, with the step to it: an entry of a table, or the element of a list in its
place. -/
def part? (name : String) (place : Nat) : Setting → Option (SettingStep × Setting)
  | table entries _ => (Table.find? name entries).map (.entry name, ·)
  | list elements _ => elements[place]?.map (.element place, ·)
  | scalar _ _ => none

/-- Reads a part of a setting if it is there. -/
def readPart {α : Type} (read : SettingPath → Setting → Except LoadFault α) (path : SettingPath)
    (name : String) (place : Nat) (s : Setting) : Except LoadFault (Option α) :=
  match s.part? name place with
  | some (step, part) => (read (path ++ [step]) part).map some
  | none => .ok none

/-- Reads the settings of a replay. -/
def asReplay (path : SettingPath) (s : Setting) : Except LoadFault ReplaySettings := do
  if let scalar _ _ := s then throw (.mismatch s .replay path)
  let inputPath? ← s.readPart asText path "input_path" 0
  let completesAtEnd? ← s.readPart asFlag path "force_complete_on_eof" 1
  let connections? ← s.readPart asTexts path "connection_ids" 2
  match inputPath?, s with
  | some inputPath, _ => return ⟨inputPath, completesAtEnd?.getD true, connections?.getD []⟩
  | none, list _ _ => throw (.tooFew path)
  | none, _ => throw (.missing (path ++ [.entry "input_path"]))

end Setting

namespace Settings

/-- Reads the settings of the program. -/
def ofSetting (s : Setting) : Except LoadFault Settings :=
  let path := [.entry "replay"]
  match s.find? "replay" with
  | some replay => (replay.asReplay path).map Settings.mk
  | none => .error (.missing path)

/-! ## Loading -/

/-- The name of a settings file. -/
def fileName (name : String) : String := s!"configuration/{name}.yaml"

/-- The name of the common settings file. -/
def commonFile : String := fileName "base"

/-- The names of all files that settings may be read from. -/
def fileNames : List String :=
  (commonFile :: [Deployment.prod, .staging, .dev].map (fileName ·.name)).flatMap fun name =>
    settingsEndings.map (name ++ ·)

/-- The layers of the sources, the common file first. -/
def layers (yaml : Yaml.Reader) (folder : Folder) (vars : Variables) :
    Except LoadFault (List SettingLayer) := do
  let deployment ← (Deployment.ofVariables vars).mapError .deployment
  match ← folder.settingLayer? yaml commonFile with
  | none => throw (.missingFile commonFile)
  | some common =>
    let special ← folder.settingLayer? yaml (fileName deployment.name)
    return [common, special.getD [], vars.settingLayer]

/-- Loads the settings. -/
def load (yaml : Yaml.Reader) (folder : Folder) (vars : Variables) : Except LoadFault Settings := do
  ofSetting ((← layers yaml folder vars).foldl Setting.overlay (.table [] none))

end Settings

/-- Why a program has no settings to run with. -/
inductive StartFault where
  | load (fault : LoadFault)
  | invalid (fault : SettingsFault)

/-- The fault in words, for a program that runs in this directory. -/
def StartFault.message (directory : String) : StartFault → String
  | load fault => fault.message directory
  | invalid fault => fault.message

/-- Loads the settings and validates them; `isFolder` tells which paths lead to folders. -/
def Settings.loadValid (folder : Folder) (isFolder : String → Bool) (vars : Variables) :
    Except StartFault Settings := do
  let settings ← (Settings.load Yaml.documents? folder vars).mapError .load
  (settings.replay.validate isFolder).mapError .invalid
  return settings

end StreamWatch
