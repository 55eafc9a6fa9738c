import LineCensus.CommandLine.Arguments
import LineCensus.LogFilter
import LineCensus.Meter
import LineCensus.Report
import LineCensus.Scan

/-!
# `CommandLine.Run` — a call of the program

## Contents
- `Environment`, the variables that matter, with what they say on colours and on the log.
- `Response`, what a call answers.
- `run`, a call without a terminal.
-/

namespace LineCensus.CommandLine

open Text

/-- The environment variables that matter. -/
structure Environment where
  clicolorForce : Option String
  noColor : Option String
  logSpec : Option String
  logStyle : Option String
  deriving DecidableEq, Repr

namespace Environment

/-- Are colours forced? Without a terminal nothing else switches them on. -/
def color (env : Environment) : Bool := env.clicolorForce.any (· != "0")

/-- Is the help coloured? Every word forces that but the empty one, and it can be kept plain. -/
def helpColor (env : Environment) : Bool :=
  env.clicolorForce.any (· != "") && !env.noColor.any (· != "")

/-- Is the log coloured? It has a variable of its own, and goes by the help otherwise. -/
def logColor (env : Environment) : Bool :=
  match env.logStyle with
  | some "always" => true
  | some "never" => false
  | _ => env.helpColor

/-- The filter of the log, with the complaints about it. Warnings are shown by default. -/
def logFilter (env : Environment) : LogFilter × List LogFilter.Complaint :=
  LogFilter.parse (env.logSpec.getD "warn").toList

end Environment

/-- What a call answers. -/
structure Response where
  exit : UInt8
  stdout : String
  stderr : String
  deriving DecidableEq, Repr

/-- The origin of the log records. -/
def logTarget : String := programName ++ "::scan"

/-- The first lines of a scan. -/
def banner (color : Bool) : String :=
  paint color .title programName ++ " " ++ paint color .figure ("v" ++ programVersion)
    ++ "\nStarting source code analysis...\n"

/-- The line of an error. -/
def errorLine (color : Bool) (error : ScanError) : String :=
  paint color .alarm "Error" ++ ": " ++ error.message ++ "\n"

/-- The records that are shown. -/
def renderLog (env : Environment) (log : List LogRecord) : String :=
  let filter := env.logFilter.1
  String.join ((log.filter (filter.shows logTarget.toList)).map (·.render env.logColor logTarget))

/-- The complaints about the filter of the log. -/
def complaints (env : Environment) : String :=
  String.join (env.logFilter.2.map fun c => "warning: " ++ c.message ++ ", ignoring it\n")

/-- The answer to arguments that make no sense. -/
def usageError : String :=
  "error: the arguments make no sense\n\n" ++ usage false ++ "\nFor more information, try '--help'.\n"

/-- A scan, with what is printed around it. `elapsed` is the time that it takes, in nanoseconds. -/
def runScan (env : Environment) (a : Arguments) (fs : FileSystem) (elapsed : Nat) : Response :=
  let color := env.color
  let r := scan fs a.config .zero
  let begun := banner color ++ r.output
  match r.result with
  | .ok outcome =>
    ⟨0, begun ++ r.activity.summary color elapsed ++ Report.report color outcome,
      renderLog env r.log⟩
  | .error error => ⟨1, begun, renderLog env r.log ++ errorLine color error⟩

/-- What the arguments ask for. -/
def respond (env : Environment) (words : List Word) (fs : FileSystem) (elapsed : Nat) : Response :=
  match parse words with
  | .error .usageError => ⟨2, "", usageError⟩
  | .error (.help long) => ⟨0, (if long then longHelp else shortHelp) env.helpColor, ""⟩
  | .error .version => ⟨0, versionText, ""⟩
  | .ok a => if a.languages then ⟨0, Report.languageList, ""⟩ else runScan env a fs elapsed

/-- A call of the program. Complaints about the log filter come before everything else. -/
def run (env : Environment) (args : List (List UInt8)) (fs : FileSystem) (elapsed : Nat) : Response :=
  let r := respond env (args.map Word.ofBytes) fs elapsed
  { r with stderr := complaints env ++ r.stderr }

end LineCensus.CommandLine
