import LineCensus.Text.Pad
import LineCensus.Text.Style

/-!
# `CommandLine.Option` — the options of the program

## Contents
- `Opt`, the options, with their letters, their names, what they take and what they are for.
- `Opt.ofLetter?`, `Opt.ofName?`, the option that is meant.
- `shortHelp`, `longHelp`, the two help texts.
-/

namespace LineCensus.CommandLine

open Text

/-- The name of the program. -/
def programName : String := "linetally"

/-- Its version. -/
def programVersion : String := "0.3.0"

/-- The options. -/
inductive Opt where
  | ignore
  | verbose
  | maxEntries
  | maxDepth
  | nonRecursive
  | filespec
  | languages
  | help
  | version
  deriving DecidableEq, Repr

namespace Opt

/-- The options in the order of the help texts. -/
def all : List Opt :=
  [ignore, verbose, maxEntries, maxDepth, nonRecursive, filespec, languages, help, version]

/-- The letter of an option, after one hyphen. -/
def letter : Opt → Char
  | ignore => 'i'
  | verbose => 'v'
  | maxEntries => 'm'
  | maxDepth => 'd'
  | nonRecursive => 'n'
  | filespec => 'f'
  | languages => 'l'
  | help => 'h'
  | version => 'V'

/-- The name of an option, after two hyphens. -/
def name : Opt → String
  | ignore => "ignore"
  | verbose => "verbose"
  | maxEntries => "max-entries"
  | maxDepth => "max-depth"
  | nonRecursive => "non-recursive"
  | filespec => "filespec"
  | languages => "languages"
  | help => "help"
  | version => "version"

/-- What stands for the value of an option that takes one. -/
def valueName? : Opt → Option String
  | ignore => some "IGNORE"
  | maxEntries => some "MAX_ENTRIES"
  | maxDepth => some "MAX_DEPTH"
  | filespec => some "FILESPEC"
  | verbose | nonRecursive | languages | help | version => none

/-- Does the option take a value? -/
def takesValue (o : Opt) : Bool := o.valueName?.isSome

/-- What an option is for; the two help texts each mention the other. -/
def purpose (long : Bool) : Opt → String
  | ignore => "Additional directory names to skip"
  | verbose => "Print statistics for every file"
  | maxEntries => "[default: 1000000]"
  | maxDepth => "[default: 100]"
  | nonRecursive => ""
  | filespec => "Glob matched against file names and root-relative paths"
  | languages => "List supported languages and exit"
  | help => if long then "Print help (see a summary with '-h')" else "Print help (see more with '--help')"
  | version => "Print version"

/-- The option of a letter. -/
def ofLetter? (c : Char) : Option Opt := all.find? fun o => o.letter == c

/-- The option of a name. Names cannot be shortened. -/
def ofName? (name : List Char) : Option Opt := all.find? fun o => o.name.toList == name

/-- The two spellings of an option, with its value. -/
def spelling (color : Bool) (o : Opt) : String :=
  paint color .literal ("-" ++ String.singleton o.letter) ++ ", "
    ++ paint color .literal ("--" ++ o.name)
    ++ match o.valueName? with
      | some value => " <" ++ value ++ ">"
      | none => ""

end Opt

/-! ## Help -/

/-- How the program is called. -/
def usage (color : Bool) : String :=
  paint color .caption "Usage:" ++ " " ++ paint color .literal programName ++ " [OPTIONS] [PATH]\n"

/-- The width of the column of spellings. -/
def spellingWidth : Nat := (Opt.all.map fun o => (o.spelling false).length).foldl max 0

/-- The blanks between a spelling and what the option is for. -/
def gap (o : Opt) : String := repeated ' ' (spellingWidth + 2 - (o.spelling false).length)

/-- The help with one line for each option. -/
def shortHelp (color : Bool) : String :=
  "Count empty, comment and code lines per language\n\n" ++ usage color
    ++ "\n" ++ paint color .caption "Arguments:" ++ "\n  [PATH]  [default: .]\n\n"
    ++ paint color .caption "Options:" ++ "\n"
    ++ String.join (Opt.all.map fun o =>
        "  " ++ o.spelling color ++ gap o ++ o.purpose false ++ "\n")

/-- The help with a paragraph for each option. -/
def longHelp (color : Bool) : String :=
  "Supported languages: Python, JavaScript, TypeScript, Java, C/C++, Solidity, Vue. The directories "
    ++ "venv, .git, __pycache__ and node_modules are always skipped.\n\n" ++ usage color
    ++ "\n" ++ paint color .caption "Arguments:" ++ "\n  [PATH]\n          [default: .]\n\n"
    ++ paint color .caption "Options:" ++ "\n"
    ++ String.intercalate "\n" (Opt.all.map fun o =>
        "  " ++ o.spelling color ++ "\n          " ++ o.purpose true ++ "\n")

/-- The answer to the question for the version. -/
def versionText : String := programName ++ " " ++ programVersion ++ "\n"

end LineCensus.CommandLine
