import LineCensus.CommandLine.Option
import LineCensus.Decimal.Natural
import LineCensus.Scan.Config
import LineCensus.Text.Utf8

/-!
# `CommandLine.Arguments` — reading the arguments

Arguments are read from left to right. The first fault or the first request for help or the version decides;
what comes after it is not looked at.

## Contents
- `Word`, an argument as text.
- `Arguments`, what the arguments ask for, and `Arguments.config`, the settings of the scan.
- `Stop`, why reading ends early.
- `Draft`, the arguments read so far, with one function for each thing that can be set.
- `parse`, the arguments of a call.
-/

namespace LineCensus.CommandLine

/-- An argument as text. Bytes that are no text are replaced, and the argument is then not clean: it cannot
    be a value. -/
structure Word where
  text : List Char
  clean : Bool
  deriving DecidableEq, Repr

/-- An argument from its bytes. -/
def Word.ofBytes (bs : List UInt8) : Word :=
  match Utf8.decode? bs with
  | some text => ⟨text, true⟩
  | none => ⟨Utf8.decodeLossy bs, false⟩

/-- What the arguments ask for. -/
structure Arguments where
  path : String
  ignore : List String
  verbose : Bool
  maxEntries : Nat
  maxDepth : Nat
  nonRecursive : Bool
  filespec : Option String
  languages : Bool
  deriving DecidableEq, Repr

/-- The settings of the scan. -/
def Arguments.config (a : Arguments) : Config :=
  { (Config.ofRoot (Path.ofString a.path)).exclude a.ignore with
    maxEntries := a.maxEntries
    maxDepth := a.maxDepth
    nonRecursive := a.nonRecursive
    filespec := a.filespec
    verbose := a.verbose }

/-- Why reading ends early. -/
inductive Stop where
  | usageError
  | help (long : Bool)
  | version
  deriving DecidableEq, Repr

/-- The arguments read so far. -/
structure Draft where
  path : Option String
  ignore : List String
  verbose : Bool
  maxEntries : Option Nat
  maxDepth : Option Nat
  nonRecursive : Bool
  filespec : Option String
  languages : Bool
  deriving DecidableEq, Repr

namespace Draft

/-- No arguments read. -/
def start : Draft := ⟨none, [], false, none, none, false, none, false⟩

/-- The path is given, for the first time. -/
def setPath (d : Draft) (w : Word) : Except Stop Draft :=
  if w.clean && d.path.isNone then .ok { d with path := some (String.ofList w.text) }
  else .error .usageError

/-- Keep a value for an option that has none yet. -/
def once {α : Type} (old : Option α) (new : Option α) (keep : α → Draft) : Except Stop Draft :=
  match old, new with
  | none, some value => .ok (keep value)
  | _, _ => .error .usageError

/-- An option is given with a value. -/
def setValue (d : Draft) (o : Opt) (w : Word) : Except Stop Draft :=
  if !w.clean then .error .usageError
  else
    let text := String.ofList w.text
    match o with
    | .ignore => .ok { d with ignore := d.ignore ++ [text] }
    | .maxEntries => once d.maxEntries (Decimal.number? w.text) fun n => { d with maxEntries := some n }
    | .maxDepth => once d.maxDepth (Decimal.number? w.text) fun n => { d with maxDepth := some n }
    | .filespec => once d.filespec (some text) fun spec => { d with filespec := some spec }
    | .verbose | .nonRecursive | .languages | .help | .version => .error .usageError

/-- Set a flag that is not set yet. -/
def flag (old : Bool) (d : Draft) : Except Stop Draft :=
  if old then .error .usageError else .ok d

/-- An option is given without a value. -/
def setFlag (d : Draft) (long : Bool) : Opt → Except Stop Draft
  | .verbose => flag d.verbose { d with verbose := true }
  | .nonRecursive => flag d.nonRecursive { d with nonRecursive := true }
  | .languages => flag d.languages { d with languages := true }
  | .help => .error (.help long)
  | .version => .error .version
  | .ignore | .maxEntries | .maxDepth | .filespec => .error .usageError

/-- The letters after one hyphen. A letter that takes a value takes the rest, without an equals sign before
    it; if there is no rest, the option waits for the next argument. -/
def letters (d : Draft) (clean : Bool) : List Char → Except Stop (Draft × Option Opt)
  | [] => .ok (d, none)
  | c :: rest =>
    match Opt.ofLetter? c with
    | none => .error .usageError
    | some o =>
      if o.takesValue then
        match rest with
        | [] => .ok (d, some o)
        | '=' :: value => (d.setValue o ⟨value, clean⟩).map (·, none)
        | value => (d.setValue o ⟨value, clean⟩).map (·, none)
      else
        match d.setFlag false o with
        | .ok d => letters d clean rest
        | .error stop => .error stop

/-- A name after two hyphens, with a value after an equals sign perhaps. -/
def named (d : Draft) (w : Word) : Except Stop (Draft × Option Opt) :=
  let name := w.text.takeWhile (· != '=')
  match Opt.ofName? name, w.text.dropWhile (· != '=') with
  | none, _ => .error .usageError
  | some o, [] =>
    if o.takesValue then .ok (d, some o) else (d.setFlag true o).map (·, none)
  | some o, _ :: value => (d.setValue o ⟨value, w.clean⟩).map (·, none)

/-- Is the argument something other than a value? -/
def startsOption (w : Word) : Bool := w.text.head? == some '-' && w.text.length != 1

/-- Arguments of which none is an option. -/
def paths (d : Draft) : List Word → Except Stop Draft
  | [] => .ok d
  | w :: rest =>
    match d.setPath w with
    | .ok d => paths d rest
    | .error stop => .error stop

/-- Read the arguments. An option that waits for a value takes the next argument unless that starts another
    option. -/
def read (d : Draft) (waiting : Option Opt) : List Word → Except Stop Draft
  | [] => if waiting.isSome then .error .usageError else .ok d
  | w :: rest =>
    match waiting with
    | some o =>
      if startsOption w then .error .usageError
      else match d.setValue o w with
        | .ok d => read d none rest
        | .error stop => .error stop
    | none =>
      if !startsOption w then
        match d.setPath w with
        | .ok d => read d none rest
        | .error stop => .error stop
      else if w.text = ['-', '-'] then d.paths rest
      else
        let step :=
          if w.text.take 2 = ['-', '-'] then d.named ⟨w.text.drop 2, w.clean⟩
          else d.letters w.clean (w.text.drop 1)
        match step with
        | .ok (d, waiting) => read d waiting rest
        | .error stop => .error stop

/-- The arguments, with the defaults for what is not given. -/
def finish (d : Draft) : Arguments :=
  ⟨d.path.getD ".", d.ignore, d.verbose, d.maxEntries.getD 1000000, d.maxDepth.getD 100,
    d.nonRecursive, d.filespec, d.languages⟩

end Draft

/-- The arguments of a call. -/
def parse (words : List Word) : Except Stop Arguments :=
  (Draft.start.read none words).map Draft.finish

end LineCensus.CommandLine
