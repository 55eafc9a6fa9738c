import LineCensus.Proofs.Report.Views
import LineCensus.Proofs.Tally.Merge
import Mathlib.Data.Nat.Log

/-!
# `Proofs.Report.Layout` — the columns of the table

Each column has a least width, and a blank stands before every number. So a line of the table is as long as its
columns, where a name or a number that is wider than its column takes what it needs. If all names and numbers fit,
then all lines have the width of the table, and the numbers of a column end one below the other. Whether they fit
can be told from the totals alone, since no row has a number above that of the totals.

## Contents
- `digitCount` with `length_toString`, how long a number is; `length_toString_le_iff`, when it fits into a column.
- `length_line` and `length_rowLine`, lines of any width; `length_line_of_fits`, lines that fit.
- `EndsAt` and `endsAt_line`, where a cell ends.
- `splitAt_table`, the lines of the table as they are read from its text.
- `table_layout`.
-/

namespace LineCensus

open Text

/-! ## The width of a number -/

namespace Decimal

/-- How many decimal digits a number has; zero has one. -/
def digitCount (n : Nat) : Nat := Nat.log 10 n + 1

theorem length_toString_le_iff {n width : Nat} (hwidth : 0 < width) :
    (toString n).length ≤ width ↔ n < 10 ^ width := Nat.length_repr_le_iff hwidth

theorem digitCount_le_iff {n width : Nat} (hwidth : 0 < width) : digitCount n ≤ width ↔ n < 10 ^ width := by
  unfold digitCount
  rw [Nat.succ_le_iff]
  rcases Nat.eq_zero_or_pos n with rfl | hn
  · rw [Nat.log_zero_right]
    exact iff_of_true hwidth (Nat.pow_pos (by decide))
  · exact Nat.log_lt_iff_lt_pow (by decide) (Nat.ne_of_gt hn)

/-- **A number is printed with all its digits** and nothing else. -/
theorem length_toString (n : Nat) : (toString n).length = digitCount n := by
  have hprinted : 0 < (toString n).length := by
    rw [← String.length_toList]
    exact List.length_pos_iff.mpr (toString_ne_nil n)
  apply Nat.le_antisymm
  · exact (length_toString_le_iff (Nat.succ_pos _)).mpr ((digitCount_le_iff (Nat.succ_pos _)).mp (Nat.le_refl _))
  · exact (digitCount_le_iff hprinted).mpr ((length_toString_le_iff hprinted).mp (Nat.le_refl _))

end Decimal

namespace Report

open Decimal

variable {name cell : String} {cells before after : List String} {row : Row} {t : Tally}

/-! ## The length of a line -/

/-- **A line is as long as its columns**: each has its own width, or that of its text if this is wider. -/
theorem length_line (name : String) (cells : List String) :
    (line name cells).length = max nameWidth name.length
      + (cells.map fun cell => 1 + max numberWidth cell.length).sum := by
  have hcell : (String.length ∘ fun cell => " " ++ padLeft numberWidth cell)
      = fun cell : String => 1 + max numberWidth cell.length := by
    funext cell
    rw [Function.comp_apply, String.length_append, length_padLeft]
    rfl
  rw [line, String.length_append, length_padRight, String.length_join, List.map_map, hcell]

theorem length_rowLine (name : String) (row : Row) :
    (rowLine name row).length = max nameWidth name.length
      + ((numbers row).map fun n => 1 + max numberWidth (digitCount n)).sum := by
  unfold rowLine
  rw [length_line, List.map_map]
  simp only [Function.comp_def, length_toString]

/-- The name and the cells are no wider than their columns. -/
structure FitsColumns (name : String) (cells : List String) : Prop where
  name : name.length ≤ nameWidth
  cells : ∀ cell ∈ cells, cell.length ≤ numberWidth

/-- A line that fits is as long as the widths of its columns say. -/
theorem length_line_of_fits (h : FitsColumns name cells) :
    (line name cells).length = nameWidth + (1 + numberWidth) * cells.length := by
  have hwidths : (cells.map fun cell => 1 + max numberWidth cell.length)
      = List.replicate cells.length (1 + numberWidth) := by
    rw [List.map_eq_replicate_iff]
    intro cell hcell
    rw [Nat.max_eq_left (h.cells cell hcell)]
  rw [length_line, Nat.max_eq_left h.name, hwidths, List.sum_replicate_nat, Nat.mul_comm]

/-! ## The place of a cell -/

/-- The word stands between blanks, or between a blank and the end of the line, and ends in this column; columns are
    counted from one. -/
def EndsAt (line word : String) (column : Nat) : Prop :=
  ∃ front back, line = front ++ " " ++ word ++ back ∧ (front ++ " " ++ word).length = column ∧
    (back = "" ∨ ∃ rest, back = " " ++ rest)

/-- The cells of a line follow one another. -/
theorem line_append (name : String) (before after : List String) :
    line name (before ++ after)
      = line name before ++ String.join (after.map fun cell => " " ++ padLeft numberWidth cell) := by
  rw [line, List.map_append, String.join_append, ← String.append_assoc]
  rfl

/-- The blanks before a cell leave one for its column to begin with. -/
theorem blank_padLeft (width : Nat) (cell : String) :
    " " ++ padLeft width cell = repeated ' ' (width - cell.length) ++ " " ++ cell := by
  apply String.toList_inj.mp
  simp only [padLeft, repeated, String.toList_append, String.toList_ofList, ← List.append_assoc]
  congr 1
  exact (List.replicate_succ (a := ' ')).symm.trans List.replicate_succ'

/-- **A cell ends at the right edge of its column** in every line that fits. -/
theorem endsAt_line (h : FitsColumns name cells) {k : Nat} (hcell : cells[k]? = some cell) :
    EndsAt (line name cells) cell (nameWidth + (1 + numberWidth) * (k + 1)) := by
  obtain ⟨hk, rfl⟩ := List.getElem?_eq_some_iff.mp hcell
  -- the line up to the cell is a line of its own
  have hupto : line name (cells.take (k + 1))
      = line name (cells.take k) ++ repeated ' ' (numberWidth - cells[k].length) ++ " " ++ cells[k] := by
    rw [List.take_succ_eq_append_getElem hk, line_append, List.map_singleton, String.join_cons, blank_padLeft]
    simp only [String.join_nil, String.append_empty, String.append_assoc]
  have hfits : FitsColumns name (cells.take (k + 1)) :=
    ⟨h.name, fun cell hmem => h.cells cell (List.mem_of_mem_take hmem)⟩
  refine ⟨line name (cells.take k) ++ repeated ' ' (numberWidth - cells[k].length),
    String.join ((cells.drop (k + 1)).map fun cell => " " ++ padLeft numberWidth cell), ?_, ?_, ?_⟩
  · rw [← hupto, ← line_append, List.take_append_drop]
  · rw [← hupto, length_line_of_fits hfits, List.length_take, Nat.min_eq_left hk]
  · cases cells.drop (k + 1) with
    | nil => exact Or.inl rfl
    | cons next rest =>
      rw [List.map_cons, String.join_cons, String.append_assoc]
      exact Or.inr ⟨_, rfl⟩

/-! ## The rows of a table -/

/-- The numbers of the row have at most as many digits as a column has places. -/
def IsNarrow (row : Row) : Prop := ∀ n ∈ numbers row, n < 10 ^ numberWidth

instance : DecidablePred IsNarrow := fun _ => List.decidableBAll _ _

theorem IsNarrow.of_atMost {a b : Row} (h : a.AtMost b) (hb : IsNarrow b) : IsNarrow a := by
  obtain ⟨hfiles, htotal, hempty, hcomment, hcode⟩ := h
  simp only [IsNarrow, numbers, List.forall_mem_cons, List.not_mem_nil, false_implies, implies_true, and_true]
    at hb ⊢
  omega

theorem IsNarrow.fitsColumns (hrow : IsNarrow row) (hname : name.length ≤ nameWidth) :
    FitsColumns name ((numbers row).map toString) where
  name := hname
  cells := by
    intro cell hcell
    obtain ⟨n, hn, rfl⟩ := List.mem_map.mp hcell
    exact (length_toString_le_iff (by decide)).mpr (hrow n hn)

theorem length_rowLine_of_isNarrow (hrow : IsNarrow row) (hname : name.length ≤ nameWidth) :
    (rowLine name row).length = tableWidth := by
  rw [rowLine, length_line_of_fits (hrow.fitsColumns hname)]
  rfl

/-- **Where a number of a row ends.** -/
theorem endsAt_rowLine (hrow : IsNarrow row) (hname : name.length ≤ nameWidth) {k n : Nat}
    (hn : (numbers row)[k]? = some n) :
    EndsAt (rowLine name row) (toString n) (nameWidth + (1 + numberWidth) * (k + 1)) := by
  have hcell : ((numbers row).map toString)[k]? = some (toString n) := by
    rw [List.getElem?_map, hn, Option.map_some]
  exact endsAt_line (hrow.fitsColumns hname) hcell

/-! ## The table -/

theorem oneLine_of_mem_tableLines (hnames : ∀ entry ∈ t.rows, OneLine entry.1) :
    ∀ line ∈ tableLines t, OneLine line := by
  have hlines : linesAbove t ++ [rowLine "TOTAL" t.grandTotal]
      = ["", "Line statistics by language:"] ++ tableLines t := by
    simp [linesAbove, tableLines]
  intro line hline
  have hmem : line ∈ linesAbove t ++ [rowLine "TOTAL" t.grandTotal] := hlines ▸ List.mem_append_right _ hline
  rcases List.mem_append.mp hmem with habove | htotal
  · exact oneLine_of_mem_linesAbove hnames line habove
  · rw [List.mem_singleton.mp htotal]
    exact oneLine_rowLine (by decide) t.grandTotal

/-- The lines of the table are read from its text: each is ended, and nothing follows the last. -/
theorem splitAt_table (hnames : ∀ entry ∈ t.rows, OneLine entry.1) :
    splitAt (· == '\n') (table t).toList = (tableLines t).map String.toList ++ [[]] := by
  have hlines := splitAt_ofLines_append (oneLine_of_mem_tableLines hnames) []
  rw [List.append_nil] at hlines
  exact hlines

theorem length_of_mem_tableLines (hnames : ∀ entry ∈ t.rows, entry.1.length ≤ nameWidth)
    (htotal : IsNarrow t.grandTotal) : ∀ line ∈ tableLines t, line.length = tableWidth := by
  have hheader : header.length = tableWidth := length_line_of_fits ⟨by decide, by decide⟩
  have hrule : rule.length = tableWidth := length_repeated ..
  intro line hline
  simp only [tableLines, List.mem_append, List.mem_cons, List.not_mem_nil, or_false, List.mem_map] at hline
  rcases hline with ((rfl | rfl) | ⟨entry, hentry, rfl⟩) | (rfl | rfl)
  · exact hheader
  · exact hrule
  · exact length_rowLine_of_isNarrow (htotal.of_atMost (Tally.atMost_grandTotal hentry)) (hnames entry hentry)
  · exact hrule
  · exact length_rowLine_of_isNarrow htotal (by decide)

/-- **The layout of the table.** Take rows with names of at most 16 characters and without line ends, and with totals
    below `10 ^ 10`. Then the text of the table is made of the header, a rule, one line for each row, another rule and
    the line of the totals, each of them ended and 71 characters wide; and in the line of a row and in that of the
    totals the first number ends in column 27 and each further one eleven columns behind. The rows of recorded files
    stand in the order of their names. A row of any width is as long as its name, or 16 if this is more, and one
    blank and ten places for each number, or as many places as the number has digits. -/
theorem table_layout (hnames : ∀ entry ∈ t.rows, entry.1.length ≤ 16 ∧ OneLine entry.1)
    (htotal : ∀ n ∈ numbers t.grandTotal, n < 10 ^ 10) :
    (∃ lines : List String,
      splitAt (· == '\n') (table t).toList = lines.map String.toList ++ [[]] ∧
      lines = [header, rule] ++ t.rows.map (fun entry => rowLine entry.1 entry.2)
        ++ [rule, rowLine "TOTAL" t.grandTotal] ∧
      lines.length = t.rows.length + 4 ∧
      ∀ line ∈ lines, line.length = 71) ∧
    (∀ entry ∈ t.rows ++ [("TOTAL", t.grandTotal)], ∀ k n, (numbers entry.2)[k]? = some n →
      EndsAt (rowLine entry.1 entry.2) (toString n) (16 + 11 * (k + 1))) ∧
    (∀ files, t = .ofFiles files → (t.rows.map Prod.fst).Pairwise fun a b => Utf8.bytes a < Utf8.bytes b) ∧
    ∀ (name : String) (row : Row), (rowLine name row).length
      = max 16 name.length + ((numbers row).map fun n => 1 + max 10 (digitCount n)).sum := by
  have hwidth : ∀ entry ∈ t.rows, entry.1.length ≤ nameWidth := fun entry hentry => (hnames entry hentry).1
  have hlabel : "TOTAL".length ≤ nameWidth := by decide
  have hnarrow : IsNarrow t.grandTotal := htotal
  refine ⟨⟨tableLines t, splitAt_table fun entry hentry => (hnames entry hentry).2, rfl, ?_,
    length_of_mem_tableLines hwidth hnarrow⟩, fun entry hentry k n hn => ?_, fun files hfiles => ?_, length_rowLine⟩
  · simp [tableLines]
  · rcases List.mem_append.mp hentry with hrow | hlast
    · exact endsAt_rowLine (hnarrow.of_atMost (Tally.atMost_grandTotal hrow)) (hwidth entry hrow) hn
    · cases List.mem_singleton.mp hlast
      exact endsAt_rowLine hnarrow hlabel hn
  · rw [hfiles]
    exact List.pairwise_map.mpr (Tally.isSorted_ofFiles files)

/-- Files of two names, one of them as wide as its column and with more bytes than characters; the line of the totals
    is full too. -/
def tightFiles : List (String × LineCounts) :=
  [("ÄÖÜäöüßÄÖÜäöüßÄÖ", ⟨1, 1, 0, 0⟩), ("Java", ⟨9999999998, 0, 1, 9999999997⟩), ("ÄÖÜäöüßÄÖÜäöüßÄÖ", 0)]

theorem table_layout_tightFiles :
    (∀ entry ∈ (Tally.ofFiles tightFiles).rows, entry.1.length ≤ 16 ∧ OneLine entry.1) ∧
    (∀ n ∈ numbers (Tally.ofFiles tightFiles).grandTotal, n < 10 ^ 10) ∧
    (∃ lines : List String, splitAt (· == '\n') (table (.ofFiles tightFiles)).toList = lines.map String.toList ++ [[]] ∧
      lines.length = 6 ∧ ∀ line ∈ lines, line.length = 71) ∧
    EndsAt (rowLine "Java" ⟨1, ⟨9999999998, 0, 1, 9999999997⟩⟩) "9999999998" 38 ∧
    EndsAt (rowLine "TOTAL" ⟨3, ⟨9999999999, 1, 1, 9999999997⟩⟩) "9999999997" 71 ∧
    (rowLine "Language_with_a_long_name" ⟨1, ⟨18446744073709551615, 0, 10000000000, 9999999999⟩⟩).length
      = 25 + (11 + 21 + 11 + 12 + 11) := by
  have hnames : ∀ entry ∈ (Tally.ofFiles tightFiles).rows, entry.1.length ≤ 16 ∧ OneLine entry.1 := by decide +kernel
  have htotal : ∀ n ∈ numbers (Tally.ofFiles tightFiles).grandTotal, n < 10 ^ 10 := by decide +kernel
  obtain ⟨⟨lines, htext, -, hlength, hwidth⟩, hends, -, hrow⟩ := table_layout hnames htotal
  have hcount : (Tally.ofFiles tightFiles).rows.length = 2 := by decide +kernel
  refine ⟨hnames, htotal, ⟨lines, htext, ?_, hwidth⟩, ?_, ?_, ?_⟩
  · rw [hlength, hcount]
  · exact hends ("Java", ⟨1, ⟨9999999998, 0, 1, 9999999997⟩⟩) (by decide +kernel) 1 9999999998 rfl
  · exact hends ("TOTAL", ⟨3, ⟨9999999999, 1, 1, 9999999997⟩⟩) (by decide +kernel) 4 9999999997 rfl
  · rw [hrow]
    decide +kernel

end Report

end LineCensus
