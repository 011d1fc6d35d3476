import StreamWatch.Folder
import StreamWatch.Settings.Fault
import StreamWatch.Text.LowerCase
import StreamWatch.Text.Utf8

/-!
# Layers of settings

What one source sets is a layer: names with their settings, in order. A settings file is a map in
YAML, and it does not matter here what reads YAML. Variables with the prefix `APP_` set what the
rest of their name says, `__` standing for the point between the steps of a path.
-/

namespace StreamWatch

/-- What one source sets. -/
abbrev SettingLayer := List (String × Setting)

/-! ## Files -/

/-- The setting that a scalar of a settings file stands for. -/
def SettingScalar.ofYaml : Yaml.Scalar → Except FileFault SettingScalar
  | .null => .ok .null
  | .flag value => .ok (.flag value)
  | .integer value => .ok (.integer value)
  | .real written =>
    match Numeral.real? written.toList with
    | some value => .ok (.real value)
    | none => .error (.notNumber written)
  | .text value => .ok (.text value)

/-- The name that a key of a settings file stands for. -/
def settingName : Yaml.Node → Except FileFault String
  | .scalar (.flag value) => .ok (toString value)
  | .scalar (.integer value) => .ok (toString value)
  | .scalar (.real written) => .ok written
  | .scalar (.text value) => .ok value
  | key => .error (.notName key)

namespace Setting

mutual

/-- The setting that a part of a settings file stands for. -/
def ofYaml (source : SettingSource) : Yaml.Node → Except FileFault Setting
  | .scalar value => do return scalar (← SettingScalar.ofYaml value) (some source)
  | .list elements => do return list (← elementsOfYaml source elements) (some source)
  | .map entries => do return table (← entriesOfYaml source [] entries) (some source)

/-- The settings that the elements of a list stand for. -/
def elementsOfYaml (source : SettingSource) : List Yaml.Node → Except FileFault (List Setting)
  | [] => .ok []
  | node :: rest => do return (← ofYaml source node) :: (← elementsOfYaml source rest)

/-- The named settings that the entries of a map stand for, a later one replacing an earlier one of
the same name. -/
def entriesOfYaml (source : SettingSource) (before : SettingLayer) :
    List (Yaml.Node × Yaml.Node) → Except FileFault SettingLayer
  | [] => .ok before
  | (key, node) :: rest => do
    let name ← settingName key
    let setting ← ofYaml source node
    entriesOfYaml source (Table.putIn name setting before) rest

end

end Setting

/-- The layer of a settings file with this name and text. A file without a document sets nothing. -/
def SettingLayer.ofText (yaml : Yaml.Reader) (name : String) (text : List Char) :
    Except FileFault SettingLayer :=
  match yaml text with
  | none => .error .malformed
  | some [] => .ok []
  | some [node] => do
    match ← Setting.ofYaml (.file name) node with
    | .table entries _ => return entries
    | found => throw (.notTable found)
  | some nodes => .error (.documents nodes.length)

/-- The endings that are tried if there is no settings file of a name. -/
def settingsEndings : List String := ["", ".yaml", ".yml"]

/-- The settings file of a name in a folder: its full name and its content. -/
def Folder.settingsFile? (f : Folder) (name : String) : Option (String × List UInt8) :=
  settingsEndings.findSome? fun ending => (f.read? (name ++ ending)).map (name ++ ending, ·)

/-- The layer of the settings file of a name, if there is one. -/
def Folder.settingLayer? (yaml : Yaml.Reader) (f : Folder) (name : String) :
    Except LoadFault (Option SettingLayer) :=
  match f.settingsFile? name with
  | none => .ok none
  | some (name, content) =>
    match Utf8.decode content with
    | .error _ => .error (.file name .malformed)
    | .ok text => ((SettingLayer.ofText yaml name text).map some).mapError (.file name)

/-! ## Variables -/

namespace Variables

/-- What the name of a variable that is a setting starts with, in lower case. -/
def settingMark : List Char := ['a', 'p', 'p', '_']

/-- Puts a point in the place of every two underscores. -/
def pointed : List Char → List Char
  | '_' :: '_' :: rest => '.' :: pointed rest
  | c :: rest => c :: pointed rest
  | [] => []

/-- The name of the setting that a variable sets, if it sets one. -/
def settingName? (name : String) : Option String :=
  let name := (lowerCase name).toList
  if settingMark.isPrefixOf name then
    some (String.ofList (pointed (name.drop settingMark.length)))
  else none

/-- The setting whose text is a list with commas. -/
def listName : String := "replay.connection_ids"

/-- The setting that the text of a variable stands for: a truth value, a number, or else text or a
list of texts. -/
def setting (name value : String) : Setting :=
  let source? := some SettingSource.environment
  match lowerCase value with
  | "true" => .scalar (.flag true) source?
  | "false" => .scalar (.flag false) source?
  | _ =>
    match Numeral.integer? 10 value.toList, Numeral.real? value.toList with
    | some n, _ => .scalar (.integer n) source?
    | none, some x => .scalar (.real x) source?
    | none, none =>
      if name = listName then
        .list ((Separated.splitString ',' value).map fun part => .scalar (.text part) source?)
          source?
      else .scalar (.text value) source?

/-- The layer of the variables. -/
def settingLayer (vars : Variables) : SettingLayer :=
  vars.filterMap fun (name, value) => (settingName? name).map fun n => (n, setting n value)

end Variables

end StreamWatch
