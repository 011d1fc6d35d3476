import StreamWatch.Text.Separated

/-!
# A folder as data

The files that a program reads lie in its working directory or below. `Folder` holds such a
directory as a value, so that what the program reads is a function of it. Paths are resolved step by
step: every step but the last must lead to a folder.
-/

namespace StreamWatch

/-- The files and folders below a working directory, by the names on the way to them. -/
structure Folder where
  files : List (List String × List UInt8) := []
  folders : List (List String) := []

/-- Why a path cannot be opened or read. -/
inductive PathFault where
  | missing
  | notFolder
  | isFolder
  | nameTooLong
  | nulInName
deriving DecidableEq

/-- The fault in words. -/
def PathFault.message : PathFault → String
  | missing => "No such file or directory (os error 2)"
  | notFolder => "Not a directory (os error 20)"
  | isFolder => "Is a directory (os error 21)"
  | nameTooLong => "File name too long (os error 36)"
  | nulInName => "file name contained an unexpected NUL byte"

/-- What a path leads to. -/
inductive PathTarget where
  | folder
  | file (content : List UInt8)

namespace Folder

/-- Whether names lead to a folder: the directory itself, one that is listed, or one on the way to
something that is listed. -/
def hasFolder (f : Folder) (names : List String) : Bool :=
  names.isEmpty || f.folders.any (names.isPrefixOf ·) ||
    f.files.any fun (path, _) => names.isPrefixOf path && names.length < path.length

/-- The content of the file that names lead to. -/
def file? (f : Folder) (names : List String) : Option (List UInt8) :=
  (f.files.find? fun (path, _) => path == names).map (·.2)

/-- The longest name of a file, in bytes. -/
def longestName : Nat := 255

/-- Whether a name on a path stays in the same folder or leads to the one above. -/
def isDots (name : String) : Bool := name.isEmpty || name = "." || name = ".."

/-- What names lead to from outside the working directory, where only the folders above it are
known. -/
def lookOutside (names : List String) : Except PathFault PathTarget :=
  if names.all isDots then .ok .folder else .error .missing

/-- Walks along names, starting at a place in the folder. -/
def walk (f : Folder) : List String → List String → Except PathFault PathTarget
  | place, [] => .ok (if f.hasFolder place then .folder else .file ((f.file? place).getD []))
  | place, name :: rest =>
    if (f.file? place).isSome then .error .notFolder
    else if name.isEmpty || name = "." then f.walk place rest
    else if name = ".." then if place.isEmpty then lookOutside rest else f.walk place.dropLast rest
    else if longestName < name.utf8ByteSize then .error .nameTooLong
    else
      let next := place ++ [name]
      if f.hasFolder next || (f.file? next).isSome then f.walk next rest else .error .missing

/-- The names on the way that a path describes. -/
def names (path : String) : List String := Separated.splitString '/' path

/-- What a path leads to. -/
def look (f : Folder) (path : String) : Except PathFault PathTarget :=
  let names := names path
  if path.toList.contains '\x00' then .error .nulInName
  else if path.isEmpty then .error .missing
  else if path.toList.head? = some '/' then lookOutside names
  else f.walk [] names

/-- Whether a path leads to a folder. -/
def isFolder (f : Folder) (path : String) : Bool :=
  match f.look path with
  | .ok .folder => true
  | _ => false

/-- The content of the file at a path, if there is one. -/
def read? (f : Folder) (path : String) : Option (List UInt8) :=
  match f.look path with
  | .ok (.file content) => some content
  | _ => none

end Folder

end StreamWatch
