import LineCensus.Proofs.Tally.Merge

/-!
# `Proofs.Tally.Rows` — what stands in a tally

A tally is made one file at a time. What it holds in the end can be read off the files: a row for each name
among them, in the order of the names' bytes, and in it how many files have this name and what their counts
add up to. The order of the files does not matter, and a sequence that is cut in two gives two tallies whose
rows add up to those of the whole.

## Contents
- `Row.AddsUp`, a row as a number of files and a sum, field by field.
- `InOrder.mem_iff` and `mem_rows_ofFiles`, the rows by their names; `mem_names_ofFiles`, the names;
  `addsUp_grandTotal`, the sum of all rows.
- `ofFiles_accumulates`.
-/

namespace LineCensus

/-! ## A row as a sum -/

/-- The row is that of files with these counts: it has their number, and the sum of each of their fields. -/
structure Row.AddsUp (row : Row) (counts : List LineCounts) : Prop where
  files : row.files = counts.length
  total : row.lines.total = (counts.map (·.total)).sum
  empty : row.lines.empty = (counts.map (·.empty)).sum
  comment : row.lines.comment = (counts.map (·.comment)).sum
  code : row.lines.code = (counts.map (·.code)).sum

theorem Row.addsUp_sum (counts : List LineCounts) : Row.AddsUp ⟨counts.length, counts.sum⟩ counts where
  files := rfl
  total := LineCounts.sum_field rfl (fun _ _ => rfl) counts
  empty := LineCounts.sum_field rfl (fun _ _ => rfl) counts
  comment := LineCounts.sum_field rfl (fun _ _ => rfl) counts
  code := LineCounts.sum_field rfl (fun _ _ => rfl) counts

theorem Row.ofFiles?_eq_some {counts : List LineCounts} {row : Row} :
    ofFiles? counts = some row ↔ counts ≠ [] ∧ row = ⟨counts.length, counts.sum⟩ := by
  cases counts with
  | nil => simp [ofFiles?]
  | cons n rest => simp [ofFiles?, eq_comm]

namespace Tally

/-! ## The rows by their names -/

/-- Among rows in order, a row is the one that its name leads to. -/
theorem InOrder.mem_iff {rows : List (String × Row)} (h : InOrder rows) {name : String} {row : Row} :
    (name, row) ∈ rows ↔ rows.lookup name = some row := by
  induction rows with
  | nil => simp
  | cons entry rest ih =>
    obtain ⟨first, found⟩ := entry
    obtain ⟨hfirst, hrest⟩ := List.pairwise_cons.mp h
    rw [List.mem_cons, ih hrest]
    by_cases hname : name = first
    · -- the name has no second row
      rw [hname, lookup_cons_self, lookup_eq_none hfirst]
      simp [eq_comm]
    · rw [lookup_cons_of_ne hname]
      simp [hname]

/-- **The rows of a tally**: one for each name among the files, with what the files of this name come to. -/
theorem mem_rows_ofFiles {files : List (String × LineCounts)} {name : String} {row : Row} :
    (name, row) ∈ (ofFiles files).rows ↔
      countsOf name files ≠ [] ∧ row = ⟨(countsOf name files).length, (countsOf name files).sum⟩ := by
  rw [(isSorted_ofFiles files).mem_iff, ← Row.ofFiles?_eq_some, ← row?_ofFiles]
  exact Iff.rfl

/-- A row adds up the counts of the files of its name. -/
theorem addsUp_of_mem_ofFiles {files : List (String × LineCounts)} {name : String} {row : Row}
    (h : (name, row) ∈ (ofFiles files).rows) :
    row.AddsUp ((files.filter fun file => file.1 = name).map Prod.snd) := by
  rw [(mem_rows_ofFiles.mp h).2]
  exact Row.addsUp_sum _

/-- The sum of all rows adds up the counts of all files. -/
theorem addsUp_grandTotal (files : List (String × LineCounts)) :
    (ofFiles files).grandTotal.AddsUp (files.map Prod.snd) := by
  have hsum := Row.addsUp_sum (files.map Prod.snd)
  rw [List.length_map] at hsum
  rw [grandTotal_ofFiles]
  exact hsum

theorem countsOf_ne_nil {files : List (String × LineCounts)} {name : String} :
    countsOf name files ≠ [] ↔ name ∈ files.map Prod.fst := by
  unfold countsOf
  rw [Ne, List.map_eq_nil_iff, List.filter_eq_nil_iff, List.mem_map]
  simp

/-- A tally has the names of its files and no other. -/
theorem mem_names_ofFiles {files : List (String × LineCounts)} {name : String} :
    name ∈ (ofFiles files).rows.map Prod.fst ↔ name ∈ files.map Prod.fst := by
  rw [← countsOf_ne_nil, List.mem_map]
  constructor
  · rintro ⟨⟨other, row⟩, hmem, rfl⟩
    exact (mem_rows_ofFiles.mp hmem).1
  · intro hne
    exact ⟨(name, _), mem_rows_ofFiles.mpr ⟨hne, rfl⟩, rfl⟩

/-! ## All together -/

/-- **What a tally holds.** After any sequence of files its rows stand in the strict order of their names'
    bytes, so no name has two; the names are those of the files; each row has the number of files of its name
    and the sums of their counts, and the sum of all rows has those of the whole sequence. The order of the
    files does not matter. The tally of some files and then others adds the rows of the two. -/
theorem ofFiles_accumulates (files : List (String × LineCounts)) :
    ((ofFiles files).rows.map Prod.fst).Pairwise (fun a b => Utf8.bytes a < Utf8.bytes b) ∧
    (∀ name, name ∈ (ofFiles files).rows.map Prod.fst ↔ name ∈ files.map Prod.fst) ∧
    (∀ name row, (name, row) ∈ (ofFiles files).rows →
      row.AddsUp ((files.filter fun file => file.1 = name).map Prod.snd)) ∧
    (ofFiles files).grandTotal.AddsUp (files.map Prod.snd) ∧
    (∀ other, files.Perm other → ofFiles other = ofFiles files) ∧
    (∀ more, ofFiles (files ++ more) = (ofFiles files).merge (ofFiles more) ∧
      ∀ name, (ofFiles (files ++ more)).row? name
        = Option.merge (· + ·) ((ofFiles files).row? name) ((ofFiles more).row? name)) := by
  refine ⟨?_, fun _ => mem_names_ofFiles, fun _ _ => addsUp_of_mem_ofFiles, addsUp_grandTotal files,
    fun _ hperm => (ofFiles_perm hperm).symm, ?_⟩
  · exact List.pairwise_map.mpr (isSorted_ofFiles files)
  · intro more
    have happend := ofFiles_append files more
    refine ⟨happend, fun name => ?_⟩
    rw [happend, row?_merge (isSorted_ofFiles files) (isSorted_ofFiles more)]

/-- Three files of two names, in another order and cut in two; a file without lines counts as a file. -/
theorem ofFiles_accumulates_cut :
    [("Vue", (⟨4, 0, 0, 1⟩ : LineCounts)), ("Java", 0), ("Vue", ⟨3, 1, 1, 1⟩)].Perm
      [("Java", 0), ("Vue", ⟨4, 0, 0, 1⟩), ("Vue", ⟨3, 1, 1, 1⟩)] ∧
    ("Java", ⟨1, 0⟩) ∈ (ofFiles [("Vue", ⟨4, 0, 0, 1⟩), ("Java", 0), ("Vue", ⟨3, 1, 1, 1⟩)]).rows ∧
    Row.AddsUp ⟨1, 0⟩ [0] ∧
    ofFiles [("Java", 0), ("Vue", ⟨4, 0, 0, 1⟩), ("Vue", ⟨3, 1, 1, 1⟩)]
      = ofFiles [("Vue", ⟨4, 0, 0, 1⟩), ("Java", 0), ("Vue", ⟨3, 1, 1, 1⟩)] ∧
    (ofFiles ([("Vue", ⟨4, 0, 0, 1⟩), ("Java", 0)] ++ [("Vue", ⟨3, 1, 1, 1⟩)])).row? "Vue"
      = some (⟨1, ⟨4, 0, 0, 1⟩⟩ + ⟨1, ⟨3, 1, 1, 1⟩⟩) := by
  have hperm : [("Vue", (⟨4, 0, 0, 1⟩ : LineCounts)), ("Java", 0), ("Vue", ⟨3, 1, 1, 1⟩)].Perm
      [("Java", 0), ("Vue", ⟨4, 0, 0, 1⟩), ("Vue", ⟨3, 1, 1, 1⟩)] := .swap ..
  have hrow : ("Java", ⟨1, 0⟩) ∈ (ofFiles [("Vue", ⟨4, 0, 0, 1⟩), ("Java", 0), ("Vue", ⟨3, 1, 1, 1⟩)]).rows := by
    decide
  obtain ⟨_, _, hrows, _, horder, _⟩ :=
    ofFiles_accumulates [("Vue", ⟨4, 0, 0, 1⟩), ("Java", 0), ("Vue", ⟨3, 1, 1, 1⟩)]
  obtain ⟨_, _, _, _, _, hcut⟩ := ofFiles_accumulates [("Vue", ⟨4, 0, 0, 1⟩), ("Java", 0)]
  refine ⟨hperm, hrow, hrows _ _ hrow, horder _ hperm, ?_⟩
  exact (hcut [("Vue", ⟨3, 1, 1, 1⟩)]).2 "Vue"

end Tally

end LineCensus
