import LineCensus.Scan.Config
import LineCensus.Scan.Fault

/-!
# `Scan.Walk` — the files below a directory, in order

A walk lists a directory, takes its entries in the order of their names and enters directories where they
stand in that order. It recurses on the number of levels that are left, so it ends for every view, also for
one in which directories hold each other.

## Contents
- `Event`, what a walk comes across.
- `visit`, one entry; `walk`, a directory with all that is below.
- `eventsOfRoot`, the walk of a root of any kind.
-/

namespace LineCensus

/-- What a walk comes across. -/
inductive Event where
  /-- A directory is listed, at a depth below the root. -/
  | listed (depth : Nat) (directory : Path)
  /-- A regular file, or a link to one. -/
  | file (path : Path)
  /-- Something is passed over. -/
  | trouble (t : Trouble)
  deriving DecidableEq, Repr

namespace Walk

/-- The entries that could be read, in the order of their names. -/
def sortedEntries (entries : List (Except OsError Entry)) : List Entry :=
  (entries.filterMap Except.toOption).mergeSort fun a b => decide (a.name ≤ b.name)

/-- The troubles of the entries that could not be read. -/
def entryTroubles (directory : Path) (entries : List (Except OsError Entry)) : List Event :=
  entries.filterMap fun e =>
    match e with
    | .ok _ => none
    | .error error => some (.trouble (.entry directory error))

/-- What one entry of a directory leads to; `enter` walks a directory below. A link counts as the file that
    it leads to, and a link to anything else is passed over in silence. -/
def visit (fs : FileSystem) (config : Config) (enter : Path → List Event) (directory : Path)
    (entry : Entry) : List Event :=
  let path := directory.join entry.name
  match entry.kind with
  | .error error => [.trouble (.entryKind path error)]
  | .ok .directory =>
    if config.nonRecursive || config.excludes entry.name then [] else enter path
  | .ok .file => [.file path]
  | .ok .link => if fs.isFile path then [.file path] else []
  | .ok .other => []

/-- The walk of a directory at a depth, with a number of levels left. -/
def walk (fs : FileSystem) (config : Config) : Nat → Nat → Path → List Event
  | 0, _, directory => [.trouble (.depthLimit config.maxDepth directory)]
  | levels + 1, depth, directory =>
    match fs.list directory with
    | .error error => [.trouble (.directory directory error)]
    | .ok entries =>
      .listed depth directory :: entryTroubles directory entries
        ++ (sortedEntries entries).flatMap
            (visit fs config (walk fs config levels (depth + 1)) directory)

/-- The events of a root: a file stands for itself, and a root that is neither file nor directory holds
    nothing. -/
def eventsOfRoot (fs : FileSystem) (config : Config) (kind : NodeKind) (root : Path) : List Event :=
  match kind with
  | .file => [.file root]
  | .directory => walk fs config (config.maxDepth + 1) 0 root
  | .link => []
  | .other => []

end Walk

end LineCensus
