import LineCensus.CommandLine.Run
import LineCensus.FileSystem.Answers

/-!
# `Main` — the program

Asks the operating system what the scan will ask, then runs the call on the answers. Names are taken to be
UTF-8 here.

## Contents
- `Collect`, the questions to the operating system.
- `main`.
-/

namespace LineCensus

namespace Collect

/-- A failure of the operating system. -/
def osError : IO.Error → OsError
  | .noFileOrDirectory _ _ _ => .notFound
  | .hardwareFault _ _ => .io
  | .permissionDenied _ 13 _ => .permission
  | .inappropriateType _ 20 _ => .notDirectory
  | .inappropriateType _ 21 _ => .isDirectory
  | .invalidArgument _ 36 _ => .nameTooLong
  | .invalidArgument _ 40 _ => .linkLoop
  | .otherError code text => .other code.toNat text
  | .permissionDenied _ code text => .other code.toNat text
  | .invalidArgument _ code text => .other code.toNat text
  | .resourceExhausted _ code text => .other code.toNat text
  | e => .other 0 (toString e)

/-- The answer to one question, failures included. -/
def answer {α : Type} (question : IO α) : IO (Except OsError α) := do
  match ← question.toBaseIO with
  | .ok a => return .ok a
  | .error e => return .error (osError e)

/-- The kind of a node. -/
def nodeKind : IO.FS.FileType → NodeKind
  | .dir => .directory
  | .file => .file
  | .symlink => .link
  | .other => .other

/-- A path as the runtime wants it: an entry of no directory. -/
def place (p : Path) : IO.FS.DirEntry := ⟨p.display, ""⟩

/-- Ask for the kind of a node, links followed. -/
def askKind (a : Answers) (p : Path) : IO Answers := do
  let kind ← if p.bytes.isEmpty then pure (.error .notFound)
    else answer do return nodeKind (← (place p).root.metadata).type
  return { a with kinds := a.kinds.insert p.display kind }

/-- Ask for the content of a file, if its language is known. -/
def askContent (a : Answers) (p : Path) : IO Answers := do
  if (Language.ofPath? p).isNone then return a
  let content ← answer do return (← IO.FS.readBinFile (place p).root).data.toList
  return { a with contents := a.contents.insert p.display content }

/-- Ask for the canonical path of a node. -/
def askCanonical (a : Answers) (p : Path) : IO Answers := do
  let path ← answer do return Path.ofString (← IO.FS.realPath (place p).root).toString
  return { a with canonicals := a.canonicals.insert p.display path }

/-- Ask for the entries of a directory. -/
def askList (a : Answers) (p : Path) : IO (Answers × List Entry) := do
  let entries ← answer do
    (← (place p).root.readDir).toList.mapM fun e => do
      let name := Utf8.bytes e.fileName
      let kind ← answer do return nodeKind (← (place (p.join name)).root.symlinkMetadata).type
      return Entry.mk name kind
  match entries with
  | .ok entries =>
    return ({ a with lists := a.lists.insert p.display (.ok (entries.map .ok)) }, entries)
  | .error e => return ({ a with lists := a.lists.insert p.display (.error e) }, [])

/-- Ask what a walk will ask of a directory, with a number of levels left. -/
def askTree (config : Config) : Nat → Answers → Path → IO Answers
  | 0, a, _ => return a
  | levels + 1, a, directory => do
    let (a, entries) ← askList a directory
    entries.foldlM (fun a e => do
      let p := directory.join e.name
      match e.kind with
      | .ok .directory =>
        if config.nonRecursive || config.excludes e.name then return a
        else askTree config levels a p
      | .ok .file => askContent a p
      | .ok .link => askContent (← askKind a p) p
      | _ => return a) a

/-- Ask what a scan will ask. -/
def askScan (config : Config) : IO Answers := do
  let a ← askKind .empty config.root
  let a ← askCanonical a config.root
  let root := a.view.walkRoot config.root
  match a.view.kind config.root with
  | .ok .file => askContent a root
  | .ok .directory => askTree config (config.maxDepth + 1) a root
  | _ => return a

end Collect

end LineCensus

open LineCensus CommandLine in
/-- Run the program with these arguments; its answer is the exit status. -/
def main (args : List String) : IO UInt32 := do
  let env : Environment :=
    ⟨← IO.getEnv "CLICOLOR_FORCE", ← IO.getEnv "NO_COLOR", ← IO.getEnv "RUST_LOG",
      ← IO.getEnv "RUST_LOG_STYLE"⟩
  let words := args.map Utf8.bytes
  let begun ← IO.monoNanosNow
  let answers ← match parse (words.map Word.ofBytes) with
    | .ok a => if a.languages then pure .empty else Collect.askScan a.config
    | .error _ => pure .empty
  let ended ← IO.monoNanosNow
  let r := run env words answers.view (ended - begun)
  IO.print r.stdout
  IO.eprint r.stderr
  return r.exit.toUInt32
