import LineCensus.Decimal.Natural
import LineCensus.Report
import LineCensus.Text.Blank

/-!
# `Report.Reader` — reading a report back

The reader knows the table by its header alone: every line after it that has six fields, a name and five
numbers, is a row, up to the line of totals. A field that spells no number of 64 bits counts as zero.

## Contents
- `readRow?`, the row that a line spells.
- `readRows`, the rows of a list of lines, and the totals after them.
- `readReport`, the rows and the totals of a report.
-/

namespace LineCensus.Report

open Text Decimal

/-- The number that a field spells, and zero if it spells none. -/
def readNumber (field : List Char) : Nat := (number? field).getD 0

/-- The row that a line of six fields spells. -/
def readRow? (line : List Char) : Option (String × Row) :=
  match fields line with
  | [name, files, total, empty, comment, code] =>
    some (String.ofList name, ⟨readNumber files,
      ⟨readNumber total, readNumber empty, readNumber comment, readNumber code⟩⟩)
  | _ => none

/-- The rows up to the totals, and the totals. -/
def readRows : List (List Char) → List (String × Row) × Option Row
  | [] => ([], none)
  | line :: rest =>
    match readRow? line with
    | none => readRows rest
    | some (name, row) =>
      if name = "TOTAL" then ([], some row) else ((name, row) :: (readRows rest).1, (readRows rest).2)

/-- The rows and the totals of a report. -/
def readReport (text : List Char) : List (String × Row) × Option Row :=
  let lines := splitAt (· == '\n') text
  readRows ((lines.dropWhile fun line => !"Language".toList.isPrefixOf line).drop 1)

end LineCensus.Report
