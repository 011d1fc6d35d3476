import StreamWatch.Deployment
import StreamWatch.Settings.Tree
import StreamWatch.Yaml

/-!
# Why settings cannot be loaded

The text of a settings file may be malformed or no map, a setting may be missing or of the wrong
kind. A message names the setting by its path, and the source of the value if that is known.
-/

namespace StreamWatch

/-- What a part of the settings should be. -/
inductive Wanted where
  | text
  | flag
  | list
  | replay
deriving DecidableEq

/-- What is wrong with a settings file. -/
inductive FileFault where
  /-- The text is not UTF-8, or there is no reading it as YAML. -/
  | malformed
  | documents (count : Nat)
  /-- A word for a number that no number is read from. -/
  | notNumber (written : String)
  /-- A key that is no name. -/
  | notName (key : Yaml.Node)
  /-- The whole file is no map. -/
  | notTable (found : Setting)

/-- Why settings cannot be loaded. -/
inductive LoadFault where
  | deployment (fault : UnknownDeployment)
  | missingFile (name : String)
  | file (name : String) (fault : FileFault)
  | missing (path : SettingPath)
  /-- A list that stands for named settings does not have the first of them. -/
  | tooFew (path : SettingPath)
  | mismatch (found : Setting) (wanted : Wanted) (path : SettingPath)

/-! ## Messages -/

/-- What was found in the place of a setting. -/
def Setting.words : Setting → String
  | scalar .null _ => "unit value"
  | scalar (.flag value) _ => s!"boolean `{value}`"
  | scalar (.integer value) _ => s!"integer `{value}`"
  | scalar (.real value) _ =>
    s!"floating point `{String.ofList (DoubleLayout.pointed.write value)}`"
  | scalar (.text value) _ => "string " ++ Quoted.encode value
  | list _ _ => "sequence"
  | table _ _ => "map"

/-- What was found in the place of a whole file. -/
def Setting.fileWords : Setting → String
  | scalar (.integer value) _ => s!"64-bit integer `{value}`"
  | scalar (.real value) _ => s!"floating point `{String.ofList (DoubleLayout.plain.write value)}`"
  | found => found.words

/-- How many settings a replay has. -/
def replaySettingCount : Nat := 3

/-- What should have been found. -/
def Wanted.words : Wanted → String
  | text => "a string"
  | flag => "a boolean"
  | list => "a sequence"
  | replay => "struct ReplayConfig"

/-- Whether a message about this also says where the value comes from. -/
def Wanted.namesSource : Wanted → Bool
  | text | flag => true
  | list | replay => false

namespace LoadFault

/-- The fault of a settings file in words. -/
def fileMessage (name : String) : FileFault → String
  | .malformed => "malformed YAML"
  | .documents count => s!"Got {count} YAML documents, expected 1 in {name}"
  | .notNumber written => s!"Parsing {written} as floating point number failed in {name}"
  | .notName key =>
    s!"Cannot parse {key.describe} because it is an unsupported hash key type in {name}"
  | .notTable found => s!"invalid type: {found.fileWords}, expected a map in {name} in {name}"

/-- The source of a value at the end of a message. -/
def sourceSuffix (wanted : Wanted) (found : Setting) : String :=
  match wanted.namesSource, found.source? with
  | true, some source => " in " ++ source.words
  | _, _ => ""

/-- The fault in words, for a program that runs in this directory. -/
def message (directory : String) : LoadFault → String
  | deployment fault => fault.message
  | missingFile name => s!"configuration file \"{directory}/{name}\" not found"
  | file name fault => fileMessage name fault
  | missing path => s!"missing configuration field \"{path.text}\""
  | tooFew path =>
    s!"invalid length 0, expected {Wanted.replay.words} with {replaySettingCount} elements" ++
      s!" for key `{path.text}`"
  | mismatch found wanted path =>
    s!"invalid type: {found.words}, expected {wanted.words} for key `{path.text}`" ++
      sourceSuffix wanted found

end LoadFault

end StreamWatch
