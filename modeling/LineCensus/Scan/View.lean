import LineCensus.Scan.Books

/-!
# `Scan.View` — views with fewer entries

Two ways to take entries out of a view. Only listings change: links still lead where they led.

## Contents
- `FileSystem.keeping`, the view with the entries that satisfy a condition.
- `FileSystem.prune`, without the directories that the settings leave out.
- `FileSystem.restrict`, without the files that are not considered.
-/

namespace LineCensus

namespace FileSystem

/-- The view whose listings show the entries for which `keep` holds, and those that fail. -/
def keeping (fs : FileSystem) (keep : Path → Entry → Bool) : FileSystem :=
  { fs with
    list := fun p => (fs.list p).map fun entries => entries.filter fun e =>
      match e with
      | .ok entry => keep p entry
      | .error _ => true }

/-- The view without the directories that the settings leave out. -/
def prune (fs : FileSystem) (config : Config) : FileSystem :=
  fs.keeping fun _ entry =>
    match entry.kind with
    | .ok .directory => !config.excludes entry.name
    | _ => true

/-- The view without the files, and the links to files, that are not considered. -/
def restrict (fs : FileSystem) (selection : Selection) : FileSystem :=
  fs.keeping fun directory entry =>
    match entry.kind with
    | .ok .file => selection.considers (directory.join entry.name)
    | .ok .link =>
      !fs.isFile (directory.join entry.name) || selection.considers (directory.join entry.name)
    | _ => true

end FileSystem

end LineCensus
