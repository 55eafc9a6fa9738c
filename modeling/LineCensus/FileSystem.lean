import LineCensus.Path

/-!
# `FileSystem` — what a scan asks of the operating system

## Contents
- `OsError`, why a request fails, with its wording.
- `NodeKind`, `Entry`, what a directory holds.
- `FileSystem`, a view: four questions, each with an answer or an error. Nothing ties the answers together,
  so a view may hold directories that list each other, dangling links and entries that fail.
-/

namespace LineCensus

/-- Why a request to the operating system fails. -/
inductive OsError where
  | notFound
  | io
  | permission
  | notDirectory
  | isDirectory
  | nameTooLong
  | linkLoop
  /-- The path holds a NUL byte, so the request is never made. -/
  | interiorNul
  /-- Any other failure, by its number and its wording. -/
  | other (number : Nat) (text : String)
  deriving DecidableEq, Repr

namespace OsError

/-- The wording of a numbered failure. -/
def numbered (text : String) (number : Nat) : String :=
  text ++ " (os error " ++ toString number ++ ")"

/-- The wording of a failure. -/
def message : OsError → String
  | notFound => numbered "No such file or directory" 2
  | io => numbered "Input/output error" 5
  | permission => numbered "Permission denied" 13
  | notDirectory => numbered "Not a directory" 20
  | isDirectory => numbered "Is a directory" 21
  | nameTooLong => numbered "File name too long" 36
  | linkLoop => numbered "Too many levels of symbolic links" 40
  | interiorNul => "file name contained an unexpected NUL byte"
  | other number text => numbered text number

end OsError

/-- What a node of the file system is. -/
inductive NodeKind where
  | file
  | directory
  | link
  | other
  deriving DecidableEq, Repr

/-- An entry of a directory; a link is shown as a link. -/
structure Entry where
  name : Name
  kind : Except OsError NodeKind

/-- A view of a file system. -/
structure FileSystem where
  /-- The kind of the node that a path leads to, links followed. -/
  kind : Path → Except OsError NodeKind
  /-- The entries of a directory, in any order; single entries may fail. -/
  list : Path → Except OsError (List (Except OsError Entry))
  /-- The absolute path of a node, without links. -/
  canonical : Path → Except OsError Path
  /-- The content of a file. -/
  read : Path → Except OsError (List UInt8)

/-- Does the path lead to a regular file? A failure counts as no. -/
def FileSystem.isFile (fs : FileSystem) (p : Path) : Bool :=
  match fs.kind p with
  | .ok .file => true
  | _ => false

end LineCensus
