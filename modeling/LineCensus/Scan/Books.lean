import LineCensus.Activity
import LineCensus.LogRecord
import LineCensus.Scan.Analyze
import LineCensus.Scan.Outcome
import LineCensus.Scan.Selection
import LineCensus.Scan.Walk

/-!
# `Scan.Books` — what a scan keeps account of

Four accounts are kept side by side: the result, the activity, the log and what is printed.

## Contents
- `Books`, the accounts of a scan that is under way.
- `Books.count`, `Books.skip`, `Books.pass`, the entries for a counted file, a skipped file and a trouble.
- `Books.examine`, the entries for a file that is considered.
- `Books.takeAll`, the accounts after a list of events, or up to the file that is one too many.
- `Books.examine?` and `Books.takeAll?`, the same with running counters of 64 bits.
-/

namespace LineCensus

/-- The accounts of a scan. -/
structure Books where
  outcome : Outcome
  activity : Activity
  log : List LogRecord
  printed : List FileReport
  /-- Files that were considered. -/
  considered : Nat
  deriving DecidableEq, Repr

/-- The accounts before the first event. -/
def Books.start (activity : Activity) : Books := ⟨.empty, activity, [], [], 0⟩

/-! ## The entries for one event -/

namespace Books

/-- A file is counted. -/
def count (b : Books) (verbose : Bool) (path : Path) (language : Language) (n : LineCounts) : Books :=
  { b with
    outcome := { b.outcome with tally := b.outcome.tally.record language.name n }
    activity := b.activity.count n.total
    printed := if verbose then b.printed ++ [⟨path, language.name, n⟩] else b.printed }

/-- A file is skipped. -/
def skip (b : Books) (reason : SkipReason) : Books :=
  { b with
    outcome :=
      if reason.isFailure then { b.outcome with unreadable := b.outcome.unreadable + 1 } else b.outcome
    activity := b.activity.skip reason
    log := b.log ++ [⟨.debug, "skipping " ++ reason.message⟩] }

/-- A file is considered and analysed. -/
def examine (b : Books) (fs : FileSystem) (verbose : Bool) (path : Path) : Books :=
  let b := { b with considered := b.considered + 1 }
  match fs.analyze path with
  | .ok (language, n) => b.count verbose path language n
  | .error reason => b.skip reason

/-- A part of the tree is passed over. -/
def pass (b : Books) (t : Trouble) : Books :=
  { b with
    outcome := { b.outcome with troubles := b.outcome.troubles + 1 }
    log := b.log ++ [⟨.warn, t.message⟩] }

/-- The accounts after the events, in order. The file that is one too many ends it: neither this file nor
    anything after it is entered. -/
def takeAll (fs : FileSystem) (config : Config) (selection : Selection) :
    Books → List Event → Books × Option ScanError
  | b, [] => (b, none)
  | b, .listed _ _ :: rest => takeAll fs config selection b rest
  | b, .trouble t :: rest => takeAll fs config selection (b.pass t) rest
  | b, .file path :: rest =>
    if selection.considers path then
      if config.maxEntries < b.considered + 1 then (b, some (.tooManyEntries config.maxEntries))
      else takeAll fs config selection (b.examine fs config.verbose path) rest
    else takeAll fs config selection b rest

/-! ## In 64 bits

The running counters go on from earlier scans, so they may be anywhere when a scan starts. The result starts
from nothing. -/

/-- A file is counted. -/
def count? (v : Overflow) (b : Books) (verbose : Bool) (path : Path) (language : Language) (n : LineCounts) :
    Option Books :=
  (b.activity.count? v n.total).map fun activity =>
    { b.count verbose path language n with activity := activity }

/-- A file is skipped. -/
def skip? (v : Overflow) (b : Books) (reason : SkipReason) : Option Books :=
  (b.activity.skip? v reason).map fun activity => { b.skip reason with activity := activity }

/-- A file is considered and analysed. -/
def examine? (v : Overflow) (b : Books) (fs : FileSystem) (verbose : Bool) (path : Path) : Option Books :=
  let b := { b with considered := b.considered + 1 }
  match fs.analyze path with
  | .ok (language, n) => b.count? v verbose path language n
  | .error reason => b.skip? v reason

/-- The accounts after the events, in order. -/
def takeAll? (v : Overflow) (fs : FileSystem) (config : Config) (selection : Selection) :
    Books → List Event → Option (Books × Option ScanError)
  | b, [] => some (b, none)
  | b, .listed _ _ :: rest => takeAll? v fs config selection b rest
  | b, .trouble t :: rest => takeAll? v fs config selection (b.pass t) rest
  | b, .file path :: rest =>
    if selection.considers path then
      if config.maxEntries < b.considered + 1 then some (b, some (.tooManyEntries config.maxEntries))
      else (b.examine? v fs config.verbose path).bind fun b => takeAll? v fs config selection b rest
    else takeAll? v fs config selection b rest

end Books

end LineCensus
