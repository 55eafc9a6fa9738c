import LineCensus.Overflow
import LineCensus.Tally

/-!
# `Tally.Checked` — counting in 64 bits

The counters of a census are natural numbers. Here they have 64 bits: every addition, made in the same order,
gives nothing if its sum needs more, and then so does everything that goes on from it.

## Contents
- `LineCounts.add?`, `LineCounts.classified?` and `LineCounts.sum?`, the counts of files one after another.
- `Row.addFile?` and `Row.add?`, one row.
- `Tally.record?`, `Tally.ofFiles?` and `Tally.grandTotal?`, all rows.
-/

namespace LineCensus

namespace LineCounts

/-- The counts of two sets of lines together. -/
def add? (a b : LineCounts) : Option LineCounts := do
  let total ← addWord? a.total b.total
  let empty ← addWord? a.empty b.empty
  let comment ← addWord? a.comment b.comment
  let code ← addWord? a.code b.code
  return ⟨total, empty, comment, code⟩

/-- The lines that fall into one of the three buckets. -/
def classified? (n : LineCounts) : Option Nat := do
  let sum ← addWord? n.empty n.comment
  addWord? sum n.code

/-- The counts of several sets of lines, added to the first one by one. -/
def sum? (counts : List LineCounts) : Option LineCounts := counts.foldlM add? 0

end LineCounts

namespace Row

/-- One file more. -/
def addFile? (r : Row) (n : LineCounts) : Option Row := do
  let files ← addWord? r.files 1
  let lines ← r.lines.add? n
  return ⟨files, lines⟩

/-- The files of two rows together. -/
def add? (a b : Row) : Option Row := do
  let files ← addWord? a.files b.files
  let lines ← a.lines.add? b.lines
  return ⟨files, lines⟩

end Row

namespace Tally

/-- One file more, among rows that are in order. -/
def recordIn? (name : String) (n : LineCounts) : List (String × Row) → Option (List (String × Row))
  | [] => do
    let row ← (0 : Row).addFile? n
    return [(name, row)]
  | (other, row) :: rest =>
    if name = other then do
      let row ← row.addFile? n
      return (other, row) :: rest
    else if nameLt name other then do
      let first ← (0 : Row).addFile? n
      return (name, first) :: (other, row) :: rest
    else do
      let rest ← recordIn? name n rest
      return (other, row) :: rest

/-- One file more of a language. -/
def record? (t : Tally) (name : String) (n : LineCounts) : Option Tally := (recordIn? name n t.rows).map Tally.mk

/-- The tally of a sequence of files. -/
def ofFiles? (files : List (String × LineCounts)) : Option Tally :=
  files.foldlM (fun t file => t.record? file.1 file.2) empty

/-- All files together. -/
def grandTotal? (t : Tally) : Option Row := t.rows.foldlM (fun sum entry => sum.add? entry.2) 0

end Tally

end LineCensus
