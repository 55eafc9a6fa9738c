import LineCensus.FileSystem
import LineCensus.Glob

/-!
# `Scan.Fault` — what can go wrong in a scan

## Contents
- `SkipReason`, why a file contributes nothing; the scan goes on.
- `Trouble`, why a directory or an entry is passed over; the scan goes on.
- `ScanError`, why a scan ends early.
-/

namespace LineCensus

/-- Why a single file contributes nothing. -/
inductive SkipReason where
  | unsupported (path : Path)
  | unreadable (path : Path) (error : OsError)
  | undecodable (path : Path)
  deriving DecidableEq, Repr

namespace SkipReason

/-- Is it worth a warning? A file of an unsupported kind is merely out of scope. -/
def isFailure : SkipReason → Bool
  | unsupported _ => false
  | unreadable _ _ => true
  | undecodable _ => true

/-- The wording. -/
def message : SkipReason → String
  | unsupported path => "unsupported extension: " ++ path.display
  | unreadable path error => "cannot read " ++ path.display ++ ": " ++ error.message
  | undecodable path => "not valid UTF-8: " ++ path.display

end SkipReason

/-- Why a part of the tree is passed over. -/
inductive Trouble where
  /-- The directory lies deeper than the limit. -/
  | depthLimit (limit : Nat) (directory : Path)
  /-- The directory cannot be listed. -/
  | directory (path : Path) (error : OsError)
  /-- One of its entries cannot be read. -/
  | entry (directory : Path) (error : OsError)
  /-- It cannot be told what an entry is. -/
  | entryKind (path : Path) (error : OsError)
  deriving DecidableEq, Repr

/-- The wording. -/
def Trouble.message : Trouble → String
  | depthLimit limit path =>
    "Maximum directory depth (" ++ toString limit ++ ") reached at " ++ path.display
  | directory path error => "Error reading directory " ++ path.display ++ ": " ++ error.message
  | entry path error => "Error reading entry in " ++ path.display ++ ": " ++ error.message
  | entryKind path error => "Error reading type for " ++ path.display ++ ": " ++ error.message

/-- Why a scan ends early. -/
inductive ScanError where
  /-- The root, as it was given, does not exist. -/
  | pathNotFound (root : Path)
  | invalidFilespec (spec : String) (fault : Glob.Fault)
  | tooManyEntries (limit : Nat)
  | os (error : OsError)
  deriving DecidableEq, Repr

/-- The wording. -/
def ScanError.message : ScanError → String
  | pathNotFound root => "Path does not exist: " ++ root.display
  | invalidFilespec spec fault => "Invalid filespec pattern '" ++ spec ++ "': " ++ fault.message
  | tooManyEntries limit =>
    "Too many entries in directory tree (limit " ++ toString limit ++ ")"
  | os error => error.message

end LineCensus
