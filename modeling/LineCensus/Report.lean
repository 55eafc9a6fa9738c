import LineCensus.Decimal.Fixed
import LineCensus.Language.Registry
import LineCensus.Scan.Outcome
import LineCensus.Text.Pad
import LineCensus.Text.Style

/-!
# `Report` — the printed result of a scan

## Contents
- `table`, one line for each language and a line of totals; it never has colours.
- `report`, the table with a summary and a warning; `report?`, which adds up the warnings in 64 bits.
- `languageList`, the languages with their extensions.
-/

namespace LineCensus.Report

open Text Decimal

/-! ## The table -/

/-- The width of the first column. -/
def nameWidth : Nat := 16

/-- The width of each other column; a blank stands before it. -/
def numberWidth : Nat := 10

/-- The width of the table. -/
def tableWidth : Nat := nameWidth + 5 * (1 + numberWidth)

/-- A line of a name and five cells. -/
def line (name : String) (cells : List String) : String :=
  padRight nameWidth name ++ String.join (cells.map fun cell => " " ++ padLeft numberWidth cell)

/-- The numbers of a row, in the order of the columns. -/
def numbers (r : Row) : List Nat :=
  [r.files, r.lines.total, r.lines.empty, r.lines.comment, r.lines.code]

/-- The line of a row. -/
def rowLine (name : String) (r : Row) : String := line name ((numbers r).map toString)

/-- The line above the rows. -/
def header : String := line "Language" ["Files", "Total", "Empty", "Comment", "Code"]

/-- The line between the rows and the header or the totals. -/
def rule : String := repeated '-' tableWidth

/-- The lines of the table. -/
def tableLines (t : Tally) : List String :=
  [header, rule] ++ t.rows.map (fun entry => rowLine entry.1 entry.2)
    ++ [rule, rowLine "TOTAL" t.grandTotal]

/-- The table. -/
def table (t : Tally) : String := String.join ((tableLines t).map (· ++ "\n"))

/-! ## Summary and warning -/

/-- A part of a whole in hundredths; none of nothing is zero. -/
def percentage (part whole : Nat) : Float :=
  if whole = 0 then 0.0 else Float.ofNat part / Float.ofNat whole * 100.0

/-- A line of the summary. -/
def summaryLine (color : Bool) (label : String) (part whole : Nat) : String :=
  label ++ " " ++ paint color .figure (toString part) ++ " ("
    ++ paint color .figure (fixed 1 (percentage part whole) ++ "%") ++ ")\n"

/-- The summary, which is left out if no file was counted. -/
def summary (color : Bool) (t : Tally) : String :=
  if t.isEmpty then ""
  else
    let lines := t.grandTotal.lines
    "\n" ++ paint color .heading "Overall Summary:" ++ "\n"
      ++ summaryLine color "Code lines:   " lines.code lines.total
      ++ summaryLine color "Comment lines:" lines.comment lines.total
      ++ summaryLine color "Empty lines:  " lines.empty lines.total

/-- The warning of so many things in all, which is left out if there are none. -/
def warningOf (color : Bool) (o : Outcome) (warnings : Nat) : String :=
  if 0 < warnings then
    "\n" ++ paint color .alarm "Warning" ++ ": " ++ paint color .figure (toString o.unreadable)
      ++ " unreadable file(s), " ++ paint color .figure (toString o.troubles)
      ++ " traversal error(s)\n"
  else ""

/-- The warning. -/
def warning (color : Bool) (o : Outcome) : String := warningOf color o o.warnings

/-- The report that warns of so many things in all. -/
def reportOf (color : Bool) (o : Outcome) (warnings : Nat) : String :=
  "\n" ++ paint color .heading "Line statistics by language:" ++ "\n" ++ table o.tally
    ++ summary color o.tally ++ warningOf color o warnings

/-- The report of a scan. -/
def report (color : Bool) (o : Outcome) : String := reportOf color o o.warnings

/-- The report of a scan with counters of 64 bits. -/
def report? (v : Overflow) (color : Bool) (o : Outcome) : Option String :=
  (o.warnings? v).map (reportOf color o)

/-! ## The languages -/

/-- The line of a language. -/
def languageLine (l : Language) : String :=
  "  " ++ padRight nameWidth l.name ++ " " ++ String.intercalate " " l.extensions ++ "\n"

/-- The languages in their order of declaration. -/
def languageList : String :=
  "Supported languages:\n" ++ String.join (Language.registry.map languageLine)

end LineCensus.Report
