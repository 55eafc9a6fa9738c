import LineCensus.Glob
import LineCensus.Path

/-!
# `Scan.Selection` — which files are considered

A pattern is tried on the name of a file, then on its path below the root. Names and paths that are not
UTF-8 match no pattern.

## Contents
- `Selection`, a pattern with its root, or no pattern.
- `Selection.considers`, whether a file is considered.
-/

namespace LineCensus

/-- A pattern with the root that paths are taken relative to; without a pattern all files are considered. -/
structure Selection where
  pattern : Option (List Glob.Token)
  root : Path
  deriving DecidableEq, Repr

/-- A path with a slash for each backslash. -/
def slashed (cs : List Char) : List Char := cs.map fun c => if c = '\\' then '/' else c

namespace Selection

/-- Does the pattern match the name of the file? -/
def matchesName (tokens : List Glob.Token) (file : Path) : Bool :=
  match file.fileName?.bind Utf8.decode? with
  | some name => Glob.matchesText tokens name
  | none => false

/-- Does the pattern match the path below the root? -/
def matchesRelative (tokens : List Glob.Token) (root file : Path) : Bool :=
  match (root.relativeTo? file).bind Path.text? with
  | some text => Glob.matchesText tokens (slashed text)
  | none => false

/-- Is the file considered? Its name is tried first, then its path below the root. -/
def considers (s : Selection) (file : Path) : Bool :=
  match s.pattern with
  | none => true
  | some tokens => matchesName tokens file || matchesRelative tokens s.root file

end Selection

end LineCensus
