import LineCensus.LineCounts
import LineCensus.Text.Utf8

/-!
# `Tally` — running totals per language

## Contents
- `Row`, the number of files and the counts of their lines.
- `Tally`, one row for each name that was recorded, in the order of the names' bytes.
- `Tally.record`, one file more; `Tally.grandTotal`, the sum of all rows.
-/

namespace LineCensus

/-- Files and their lines. -/
structure Row where
  files : Nat
  lines : LineCounts
  deriving DecidableEq, Repr

namespace Row

/-- No files. -/
def zero : Row := ⟨0, 0⟩

instance : Zero Row := ⟨zero⟩

/-- One file more. -/
def addFile (r : Row) (n : LineCounts) : Row := ⟨r.files + 1, r.lines + n⟩

/-- The files of two rows together. -/
def add (a b : Row) : Row := ⟨a.files + b.files, a.lines + b.lines⟩

instance : Add Row := ⟨add⟩

@[simp] theorem zero_files : (0 : Row).files = 0 := rfl
@[simp] theorem zero_lines : (0 : Row).lines = 0 := rfl
@[simp] theorem add_files (a b : Row) : (a + b).files = a.files + b.files := rfl
@[simp] theorem add_lines (a b : Row) : (a + b).lines = a.lines + b.lines := rfl
@[simp] theorem addFile_files (r : Row) (n : LineCounts) : (r.addFile n).files = r.files + 1 := rfl
@[simp] theorem addFile_lines (r : Row) (n : LineCounts) : (r.addFile n).lines = r.lines + n := rfl

end Row

/-- One row for each language, in the order of the names' bytes. -/
structure Tally where
  rows : List (String × Row)
  deriving DecidableEq, Repr

namespace Tally

/-- Nothing recorded. -/
def empty : Tally := ⟨[]⟩

/-- Is nothing recorded? -/
def isEmpty (t : Tally) : Bool := t.rows.isEmpty

/-- Names in the order of their bytes. -/
def nameLt (a b : String) : Prop := Utf8.bytes a < Utf8.bytes b

instance (a b : String) : Decidable (nameLt a b) := inferInstanceAs (Decidable (_ < _))

/-- One file more, among rows that are in order. -/
def recordIn (name : String) (n : LineCounts) : List (String × Row) → List (String × Row)
  | [] => [(name, (0 : Row).addFile n)]
  | (other, row) :: rest =>
    if name = other then (other, row.addFile n) :: rest
    else if nameLt name other then (name, (0 : Row).addFile n) :: (other, row) :: rest
    else (other, row) :: recordIn name n rest

/-- One file more of a language. -/
def record (t : Tally) (name : String) (n : LineCounts) : Tally := ⟨recordIn name n t.rows⟩

/-- The row of a language. -/
def row? (t : Tally) (name : String) : Option Row := t.rows.lookup name

/-- All files together. -/
def grandTotal (t : Tally) : Row := t.rows.foldl (fun sum entry => sum + entry.2) 0

/-- The tally of a sequence of files. -/
def ofFiles (files : List (String × LineCounts)) : Tally :=
  files.foldl (fun t file => t.record file.1 file.2) empty

end Tally

end LineCensus
