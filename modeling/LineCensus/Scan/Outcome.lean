import LineCensus.Overflow
import LineCensus.Path
import LineCensus.Tally

/-!
# `Scan.Outcome` — the result of a scan

## Contents
- `FileReport`, what is printed for a single file.
- `Outcome`, the tally and the number of things that the user is warned of; `Outcome.warnings` and
  `Outcome.warnings?`, all of them.
-/

namespace LineCensus

/-- The counts of one file, as they are printed. -/
structure FileReport where
  path : Path
  language : String
  counts : LineCounts
  deriving DecidableEq, Repr

/-- The block that is printed for a file. -/
def FileReport.render (r : FileReport) : String :=
  "File: " ++ r.path.display ++ " (" ++ r.language ++ ")\n"
    ++ "  Total lines: " ++ toString r.counts.total ++ "\n"
    ++ "  Empty lines: " ++ toString r.counts.empty ++ "\n"
    ++ "  Comment lines: " ++ toString r.counts.comment ++ "\n"
    ++ "  Code lines: " ++ toString r.counts.code ++ "\n\n"

/-- The result of a scan. -/
structure Outcome where
  tally : Tally
  /-- Files of a known language that could not be read or decoded. -/
  unreadable : Nat
  /-- Directories and entries that were passed over. -/
  troubles : Nat
  deriving DecidableEq, Repr

/-- Nothing found. -/
def Outcome.empty : Outcome := ⟨.empty, 0, 0⟩

/-- Everything that the user is warned of, without a bound. -/
def Outcome.warnings (o : Outcome) : Nat := o.unreadable + o.troubles

/-- Everything that the user is warned of, in 64 bits. -/
def Outcome.warnings? (v : Overflow) (o : Outcome) : Option Nat := v.add? o.unreadable o.troubles

end LineCensus
