/-
  Reading source files by their paths from a folder that holds files and no other folders.
-/
namespace InterfaceRecord.Source

/-- Why a file cannot be read. -/
inductive ReadFailure
  | notFound
  | isFolder
  | notFolder
  | nameTooLong
  | nulInName
  | notText
deriving DecidableEq, Repr

def ReadFailure.message : ReadFailure → String
  | notFound => "No such file or directory (os error 2)"
  | isFolder => "Is a directory (os error 21)"
  | notFolder => "Not a directory (os error 20)"
  | nameTooLong => "File name too long (os error 36)"
  | nulInName => "file name contained an unexpected NUL byte"
  | notText => "stream did not contain valid UTF-8"

/-- A folder: the names and contents of its files. -/
structure Folder where
  files : List (String × ByteArray)

namespace Folder

/-- Where a path has led so far: to a folder, this one if no level above it, or to a file. -/
inductive Place
  | folder (above : Nat)
  | file (content : ByteArray)

/-- The longest name of a file in bytes. -/
def longestName : Nat := 255

/-- The longest path in bytes. -/
def longestPath : Nat := 4095

/-- One part of a path further. Folders above this one are taken to hold nothing else. -/
def step (f : Folder) (p : Place) (part : String) : Except ReadFailure Place :=
  match p with
  | .file _ => .error .notFolder
  | .folder above =>
    if part == "" || part == "." then .ok (.folder above)
    else if part == ".." then .ok (.folder (above + 1))
    else if part.utf8ByteSize > longestName then .error .nameTooLong
    else if above ≠ 0 then .error .notFound
    else
      match f.files.lookup part with
      | some content => .ok (.file content)
      | none => .error .notFound

/-- The bytes of the file at a relative path. -/
def readBytes (f : Folder) (path : String) : Except ReadFailure ByteArray :=
  if path.toList.contains '\x00' then .error .nulInName
  else if path.isEmpty then .error .notFound
  else if path.utf8ByteSize > longestPath then .error .nameTooLong
  else
    match (path.splitOn "/").foldlM f.step (.folder 0) with
    | .ok (.file content) => .ok content
    | .ok (.folder _) => .error .isFolder
    | .error e => .error e

/-- The text of the file at a relative path. -/
def read (f : Folder) (path : String) : Except ReadFailure String := do
  match String.fromUTF8? (← f.readBytes path) with
  | some text => .ok text
  | none => .error .notText

end Folder

end InterfaceRecord.Source
