import LineCensus.Path

/-!
# `Scan.Config` — what is scanned, and how far

## Contents
- `Config`, the settings of a scan; `Config.ofRoot`, the settings by default.
- `Config.exclude`, more names of directories to leave out; `Config.excludes`, whether a name is left out.
-/

namespace LineCensus

/-- The settings of a scan. -/
structure Config where
  root : Path
  /-- Names of directories that are not entered below the root. -/
  excluded : List String
  /-- The most files that may be considered. -/
  maxEntries : Nat
  /-- The greatest depth of a directory that is listed; the root has depth zero. -/
  maxDepth : Nat
  /-- Leave all directories below the root alone. -/
  nonRecursive : Bool
  /-- A pattern that a file has to match. -/
  filespec : Option String
  /-- Report each file. -/
  verbose : Bool
  deriving DecidableEq, Repr

namespace Config

/-- The directories that are left out unless the caller names others in their place. -/
def defaultExcluded : List String := ["venv", ".git", "__pycache__", "node_modules"]

/-- The settings by default. -/
def ofRoot (root : Path) : Config := ⟨root, defaultExcluded, 1000000, 100, false, none, false⟩

/-- More names to leave out. -/
def exclude (c : Config) (names : List String) : Config := { c with excluded := c.excluded ++ names }

/-- Is a directory of this name left out? A name that is not UTF-8 never is. -/
def excludes (c : Config) (name : Name) : Bool :=
  match Utf8.string? name with
  | some text => c.excluded.contains text
  | none => false

end Config

end LineCensus
