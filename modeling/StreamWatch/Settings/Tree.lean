import StreamWatch.Binary64.Text
import StreamWatch.Table
import StreamWatch.Text.Separated
import StreamWatch.Numeral

/-!
# Settings as a tree

Settings come from several sources and are merged into one tree. A part of the tree knows the source
that it was read from, unless it was made by merging. A source sets parts of the tree by paths:
tables merge entry by entry, everything else replaces what was there.
-/

namespace StreamWatch

/-- Where settings are read from. -/
inductive SettingSource where
  | file (name : String)
  | environment
deriving DecidableEq

/-- A source in words. -/
def SettingSource.words : SettingSource → String
  | file name => name
  | environment => "the environment"

/-- A setting without parts. -/
inductive SettingScalar where
  | null
  | flag (value : Bool)
  | integer (value : Int)
  | real (value : Binary64)
  | text (value : String)
deriving DecidableEq

/-- A setting. The names of a table differ from one another. -/
inductive Setting where
  | scalar (value : SettingScalar) (source? : Option SettingSource)
  | list (elements : List Setting) (source? : Option SettingSource)
  | table (entries : List (String × Setting)) (source? : Option SettingSource)

namespace Setting

/-- A setting that is nothing. -/
def null : Setting := .scalar .null none

instance : Inhabited Setting := ⟨null⟩

/-- The source of a setting. -/
def source? : Setting → Option SettingSource
  | scalar _ source? => source?
  | list _ source? => source?
  | table _ source? => source?

/-- The entry of a table. -/
def find? (name : String) : Setting → Option Setting
  | table entries _ => Table.find? name entries
  | _ => none

/-- The entries that a table goes on with, and its source; what is no table is replaced by one. -/
def asTable : Option Setting → List (String × Setting) × Option SettingSource
  | some (table entries source?) => (entries, source?)
  | _ => ([], none)

/-- The elements that a list goes on with, and its source; what is no list is replaced by one. -/
def asList : Option Setting → List Setting × Option SettingSource
  | some (list elements source?) => (elements, source?)
  | _ => ([], none)

mutual

/-- Puts a setting in the place of another: a table is merged into it, anything else replaces it. -/
def mergeInto (old? : Option Setting) : Setting → Setting
  | table entries _ =>
    let (present, source?) := asTable old?
    table (mergeEntries present entries) source?
  | other => other

/-- Merges entries into those of a table. -/
def mergeEntries (present : List (String × Setting)) :
    List (String × Setting) → List (String × Setting)
  | [] => present
  | (name, new) :: rest =>
    mergeEntries (Table.putIn name (mergeInto (Table.find? name present) new) present) rest

end

end Setting

/-! ## Paths -/

/-- A step into a setting. -/
inductive SettingStep where
  | entry (name : String)
  /-- An element of a list, counted from its end if negative. -/
  | element (index : Int)
deriving DecidableEq

/-- The way to a part of the settings. -/
abbrev SettingPath := List SettingStep

namespace SettingPath

/-- The text of a step that is not the first. -/
def stepText : SettingStep → String
  | .entry name => "." ++ name
  | .element index => s!"[{index}]"

/-- The text of a path. -/
def text : SettingPath → String
  | [] => ""
  | .entry name :: rest => name ++ String.join (rest.map stepText)
  | steps => String.join (steps.map stepText)

/-- Whether a character can stand in a name of a path. -/
def isNameChar (c : Char) : Bool := c.isAlphanum || c = '_' || c = '-'

/-- The index that stands between brackets, with blanks around it. -/
def index? (cs : List Char) : Option Int :=
  let isSpace c := c = ' ' || c = '\t'
  let digits := ((cs.dropWhile isSpace).reverse.dropWhile isSpace).reverse
  if digits.head? = some '+' then none else Numeral.integer? 10 digits

/-- The step that is being read, with its text so far. -/
inductive Part where
  | entry (text : List Char)
  | element (text : List Char)
  /-- Behind the bracket that closes an index. -/
  | closed

/-- The step that a mark begins. -/
def Part.ofMark? : Char → Option Part
  | '.' => some (.entry [])
  | '[' => some (.element [])
  | _ => none

/-- Reads steps, the first of which was begun. -/
def steps? : Part → List Char → Option SettingPath
  | .entry text, [] => if text.isEmpty then none else some [.entry (String.ofList text)]
  | .entry text, c :: rest =>
    if isNameChar c then steps? (.entry (text ++ [c])) rest
    else
      match text, Part.ofMark? c with
      | _ :: _, some part => (steps? part rest).map (.entry (String.ofList text) :: ·)
      | _, _ => none
  | .element _, [] => none
  | .element text, c :: rest =>
    if c = ']' then do
      let index ← index? text
      return .element index :: (← steps? .closed rest)
    else steps? (.element (text ++ [c])) rest
  | .closed, [] => some []
  | .closed, c :: rest => (Part.ofMark? c).bind (steps? · rest)

/-- The path that a name stands for. One that cannot be read as a path is a single step. -/
def ofName (name : String) : SettingPath := (steps? (.entry []) name.toList).getD [.entry name]

end SettingPath

namespace Setting

/-- Where an index leads in a list, and the list with elements added so that there is one. -/
def reach (index : Int) (elements : List Setting) : Nat × List Setting :=
  if 0 ≤ index then
    (index.toNat, elements ++ List.replicate (index.toNat + 1 - elements.length) null)
  else if index.natAbs ≤ elements.length then (elements.length - index.natAbs, elements)
  else (0, List.replicate (index.natAbs - elements.length) null ++ elements)

/-- Sets a part of a setting; what is on the way to it becomes a table or a list. -/
def set (new : Setting) : SettingPath → Option Setting → Setting
  | [], old? => mergeInto old? new
  | .entry name :: path, old? =>
    let (entries, source?) := asTable old?
    table (Table.putIn name (set new path (Table.find? name entries)) entries) source?
  | .element index :: path, old? =>
    let (elements, source?) := asList old?
    let (place, elements) := reach index elements
    list (elements.modify place fun old => set new path (some old)) source?

/-- Adds what a source sets, in order, to the settings of the sources before it. A source that sets
a part twice, in a table and by a path into the table, is taken to set it in the order of its
entries; a reader of sources that does not keep this order may see the other setting win. -/
def overlay (settings : Setting) (layer : List (String × Setting)) : Setting :=
  layer.foldl (fun s (name, new) => set new (SettingPath.ofName name) (some s)) settings

end Setting

end StreamWatch
