/-!
# Files

A run reads and writes whole files. What it runs on is told by a `FileAccess`,
the operating system or a `Directory`, which is a list of files without
subdirectories.
-/

set_option autoImplicit false

namespace Handheld.Runner

/-- Why a file could not be read or written. -/
inductive FileError where
  /-- The system refused with an error number. -/
  | system (code : Nat) (text : String)
  /-- The system reported something without a number. -/
  | other (text : String)
  deriving DecidableEq, Inhabited

namespace FileError

/-- Nothing has that name. -/
def notFound : FileError := .system 2 "No such file or directory"
/-- A part of the path that should be a directory is none. -/
def notDirectory : FileError := .system 20 "Not a directory"
/-- A directory cannot be read or written as a file. -/
def isDirectory : FileError := .system 21 "Is a directory"
/-- The path, or a name in it, is longer than it can be. -/
def nameTooLong : FileError := .system 36 "File name too long"
/-- No path contains a zero character. -/
def zeroCharacter : FileError := .other "file name contained an unexpected NUL byte"

/-- The wording of a file error. -/
def message : FileError → String
  | .system code text => text ++ " (os error " ++ toString code ++ ")"
  | .other text => text

end FileError

/-- A way to get at files. -/
structure FileAccess (m : Type → Type) where
  /-- The contents of a file. -/
  read : String → m (Except FileError (Array UInt8))
  /-- Replaces the contents of a file, which is created if need be. -/
  write : String → Array UInt8 → m (Except FileError Unit)

/-- Files by name, the oldest first. -/
structure Directory where
  /-- Names and contents. -/
  files : List (String × Array UInt8) := []
  deriving Inhabited

namespace Directory

/-- Where a name is looked up. -/
inductive Location where
  /-- In the directory. -/
  | here
  /-- In a directory above it. -/
  | above
  deriving DecidableEq, Inhabited

/-- What a path leads to. -/
inductive Target where
  /-- The directory itself, or one above it. -/
  | directory
  /-- A name, which a file may have or not. -/
  | entry (location : Location) (name : String)
  /-- Nothing, because the path could not be followed to its end. -/
  | unreachable (error : FileError)
  deriving DecidableEq, Inhabited

/-- The longest name that a file can have, in bytes. -/
def longestName : Nat := 255

/-- The longest path that can be followed, in bytes. -/
def longestPath : Nat := 4095

/-- The contents of a file. -/
def find? (directory : Directory) (name : String) : Option (Array UInt8) :=
  (directory.files.find? fun file => file.1 == name).map Prod.snd

/-- Looks a name up. Above the directory there are no files. -/
def lookup (directory : Directory) (location : Location) (name : String) :
    Except FileError (Array UInt8) :=
  if longestName < name.utf8ByteSize then
    .error .nameTooLong
  else
    match location, directory.find? name with
    | .here, some bytes => .ok bytes
    | _, _ => .error .notFound

/-- Follows the parts of a path. All but the last one have to be directories, so the
way ends at the first name that is not the last part. -/
def follow (directory : Directory) (location : Location) : List String → Target
  | [] => .directory
  | part :: rest =>
    if part = "." then directory.follow location rest
    else if part = ".." then directory.follow .above rest
    else if rest = [] then .entry location part
    else
      match directory.lookup location part with
      | .ok _ => .unreachable .notDirectory
      | .error error => .unreachable error

/-- The parts of a path; several separators in a row count as one. -/
def partsOf (path : String) : List String := (path.splitOn "/").filter (· ≠ "")

/-- Where the first part of a path is looked up. A path that begins with a separator
starts above the directory. -/
def startOf (path : String) : Location :=
  if path.toList.head? = some '/' then .above else .here

/-- Whether a path says of its last part that it is a directory. -/
def namesDirectory (path : String) : Bool := path.toList.getLast? = some '/'

/-- What a path leads to. -/
def target (directory : Directory) (path : String) : Target :=
  if path.toList.contains (Char.ofNat 0) then .unreachable .zeroCharacter
  else if path = "" then .unreachable .notFound
  else if longestPath < path.utf8ByteSize then .unreachable .nameTooLong
  else directory.follow (startOf path) (partsOf path)

/-- Reads a file. -/
def read (directory : Directory) (path : String) : Except FileError (Array UInt8) :=
  match directory.target path with
  | .directory => .error .isDirectory
  | .unreachable error => .error error
  | .entry location name =>
    match directory.lookup location name with
    | .ok bytes => if namesDirectory path then .error .notDirectory else .ok bytes
    | .error error => .error error

/-- Puts contents under a name, in the place of what was there. -/
def put (directory : Directory) (name : String) (bytes : Array UInt8) : Directory :=
  if (directory.find? name).isSome then
    ⟨directory.files.map fun file => if file.1 == name then (name, bytes) else file⟩
  else
    ⟨directory.files ++ [(name, bytes)]⟩

/-- Writes a file. A path that names a directory is refused before its last part is
looked up. What is written above the directory is not kept. -/
def write (directory : Directory) (path : String) (bytes : Array UInt8) :
    Directory × Except FileError Unit :=
  match directory.target path with
  | .directory => (directory, .error .isDirectory)
  | .unreachable error => (directory, .error error)
  | .entry location name =>
    if namesDirectory path then (directory, .error .isDirectory)
    else if longestName < name.utf8ByteSize then (directory, .error .nameTooLong)
    else
      match location with
      | .here => (directory.put name bytes, .ok ())
      | .above => (directory, .ok ())

/-- Access to the files of a directory that is passed along. -/
def access : FileAccess (StateM Directory) where
  read path := do return (← get).read path
  write path bytes := do
    let (directory, result) := (← get).write path bytes
    set directory
    return result

end Directory

end Handheld.Runner
