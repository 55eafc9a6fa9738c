import LineCensus.Proofs.Scan.Trace
import LineCensus.Proofs.Sums

/-!
# `Proofs.Tally.Merge` — tallies put together

A tally keeps its rows in the strict order of their names, so it is determined by which row each name has
(`IsSorted.ext`). The row of a name is what the files of that name come to, however other files stand between
them (`row?_ofFiles`). So the order of the files does not matter, and the tally of some files and then others
is put together from that of the first and that of the others, row by row.

## Contents
- The order of names: `nameLt_trans`, `nameLt_irrefl`, `nameLt_of_not_nameLt`.
- `Tally.IsSorted` with `IsSorted.ext`.
- `Tally.addRow`, one row more, and `Tally.merge`, all rows of another tally more; `row?_addRow`, `row?_merge`.
- `row?_ofFiles`; from it `ofFiles_perm` and `ofFiles_append`.
- `Tally.AtMost`, row by row, with `ofFiles_atMost` for some of the files; `atMost_grandTotal`.
-/

namespace LineCensus

/-! ## The order of names -/

theorem Utf8.bytes_injective {a b : String} (h : bytes a = bytes b) : a = b := by
  have htext : a.toList.utf8Encode = b.toList.utf8Encode := congrArg List.toByteArray h
  rw [String.utf8Encode_toList, String.utf8Encode_toList] at htext
  exact String.toByteArray_inj.mp htext

namespace Tally

theorem nameLt_irrefl (a : String) : ¬nameLt a a := List.lt_irrefl (Utf8.bytes a)

theorem nameLt_trans {a b c : String} (hab : nameLt a b) (hbc : nameLt b c) : nameLt a c :=
  List.lt_trans hab hbc

theorem nameLt_of_not_nameLt {a b : String} (hne : a ≠ b) (h : ¬nameLt a b) : nameLt b a :=
  Std.lt_of_le_of_ne h fun hbytes => hne (Utf8.bytes_injective hbytes).symm

/-! ## Rows in order -/

/-- Rows in the strict order of their names; so no name has two. -/
def InOrder (rows : List (String × Row)) : Prop := rows.Pairwise fun a b => nameLt a.1 b.1

theorem lookup_cons_self (name : String) (row : Row) (rest : List (String × Row)) :
    List.lookup name ((name, row) :: rest) = some row := by
  rw [List.lookup_cons, beq_self_eq_true]

theorem lookup_cons_of_ne {name other : String} (h : name ≠ other) (row : Row)
    (rest : List (String × Row)) : List.lookup name ((other, row) :: rest) = rest.lookup name := by
  rw [List.lookup_cons, beq_eq_false_iff_ne.mpr h]

/-- A name that comes before all others has no row. -/
theorem lookup_eq_none {name : String} {rows : List (String × Row)}
    (h : ∀ entry ∈ rows, nameLt name entry.1) : rows.lookup name = none := by
  refine List.lookup_eq_none_iff.mpr fun entry hentry => ?_
  have hne : name ≠ entry.1 := by
    intro heq
    exact nameLt_irrefl entry.1 (heq ▸ h entry hentry)
  exact bne_iff_ne.mpr hne

/-- Rows in order are told by their lookups. -/
theorem InOrder.ext {rows rows' : List (String × Row)} (h : InOrder rows) (h' : InOrder rows')
    (hlookup : ∀ name, rows.lookup name = rows'.lookup name) : rows = rows' := by
  induction rows generalizing rows' with
  | nil =>
    cases rows' with
    | nil => rfl
    | cons entry rest =>
      have hsome := hlookup entry.1
      rw [lookup_cons_self entry.1 entry.2] at hsome
      cases hsome
  | cons entry rest ih =>
    obtain ⟨name, row⟩ := entry
    obtain ⟨hfirst, hrest⟩ := List.pairwise_cons.mp h
    cases rows' with
    | nil =>
      have hsome := hlookup name
      rw [lookup_cons_self] at hsome
      cases hsome
    | cons entry' rest' =>
      obtain ⟨name', row'⟩ := entry'
      obtain ⟨hfirst', hrest'⟩ := List.pairwise_cons.mp h'
      -- the smaller of two first names would have no row on the other side
      have hname : name = name' := by
        by_contra hne
        by_cases hlt : nameLt name name'
        · have hnone : List.lookup name ((name', row') :: rest') = none :=
            lookup_eq_none (List.forall_mem_cons.mpr
              ⟨hlt, fun e he => nameLt_trans hlt (hfirst' e he)⟩)
          rw [← hlookup, lookup_cons_self] at hnone
          cases hnone
        · have hgt := nameLt_of_not_nameLt hne hlt
          have hnone : List.lookup name' ((name, row) :: rest) = none :=
            lookup_eq_none (List.forall_mem_cons.mpr
              ⟨hgt, fun e he => nameLt_trans hgt (hfirst e he)⟩)
          rw [hlookup, lookup_cons_self] at hnone
          cases hnone
      subst hname
      have hrow : row = row' := by
        have hsome := hlookup name
        rw [lookup_cons_self, lookup_cons_self] at hsome
        exact Option.some.inj hsome
      have htails : ∀ other, rest.lookup other = rest'.lookup other := by
        intro other
        by_cases hother : other = name
        · rw [hother, lookup_eq_none hfirst, lookup_eq_none hfirst']
        · rw [← lookup_cons_of_ne hother row, hlookup, lookup_cons_of_ne hother]
      rw [hrow, ih hrest hrest' htails]

/-- The rows of the tally are in order. -/
def IsSorted (t : Tally) : Prop := InOrder t.rows

theorem isSorted_empty : empty.IsSorted := List.Pairwise.nil

theorem IsSorted.ext {t u : Tally} (ht : t.IsSorted) (hu : u.IsSorted)
    (h : ∀ name, t.row? name = u.row? name) : t = u :=
  congrArg Tally.mk (InOrder.ext ht hu h)

/-! ## One row more -/

/-- One row more, among rows that are in order. -/
def addRowIn (name : String) (row : Row) : List (String × Row) → List (String × Row)
  | [] => [(name, row)]
  | (other, found) :: rest =>
    if name = other then (other, found + row) :: rest
    else if nameLt name other then (name, row) :: (other, found) :: rest
    else (other, found) :: addRowIn name row rest

/-- One row more of a language. -/
def addRow (t : Tally) (name : String) (row : Row) : Tally := ⟨addRowIn name row t.rows⟩

/-- A file is recorded as its row is added. -/
theorem record_eq_addRow (t : Tally) (name : String) (n : LineCounts) :
    t.record name n = t.addRow name (.ofFile n) := by
  rw [record, addRow]
  refine congrArg Tally.mk ?_
  induction t.rows with
  | nil => rw [recordIn, addRowIn, Row.addFile_eq_add, zero_add]
  | cons entry rest ih =>
    obtain ⟨other, row⟩ := entry
    rw [recordIn, addRowIn, Row.addFile_eq_add, Row.addFile_eq_add, zero_add, ih]

theorem mem_addRowIn {name : String} {row : Row} {rows : List (String × Row)} {entry : String × Row}
    (h : entry ∈ addRowIn name row rows) : entry.1 = name ∨ ∃ found ∈ rows, found.1 = entry.1 := by
  induction rows with
  | nil =>
    rw [List.mem_singleton.mp h]
    exact Or.inl rfl
  | cons first rest ih =>
    obtain ⟨other, found⟩ := first
    rw [addRowIn] at h
    by_cases hname : name = other
    · rw [if_pos hname] at h
      rcases List.mem_cons.mp h with rfl | hrest
      · exact Or.inl hname.symm
      · exact Or.inr ⟨entry, List.mem_cons_of_mem _ hrest, rfl⟩
    · rw [if_neg hname] at h
      by_cases hlt : nameLt name other
      · rw [if_pos hlt] at h
        rcases List.mem_cons.mp h with rfl | hold
        · exact Or.inl rfl
        · exact Or.inr ⟨entry, hold, rfl⟩
      · rw [if_neg hlt] at h
        rcases List.mem_cons.mp h with rfl | hrest
        · exact Or.inr ⟨_, List.mem_cons_self, rfl⟩
        · rcases ih hrest with hnew | ⟨e, he, heq⟩
          · exact Or.inl hnew
          · exact Or.inr ⟨e, List.mem_cons_of_mem _ he, heq⟩

theorem InOrder.addRowIn {rows : List (String × Row)} (h : InOrder rows) (name : String) (row : Row) :
    InOrder (Tally.addRowIn name row rows) := by
  induction rows with
  | nil => exact List.pairwise_singleton _ _
  | cons entry rest ih =>
    obtain ⟨other, found⟩ := entry
    obtain ⟨hfirst, hrest⟩ := List.pairwise_cons.mp h
    rw [Tally.addRowIn]
    by_cases hname : name = other
    · rw [if_pos hname]
      exact List.pairwise_cons.mpr ⟨hfirst, hrest⟩
    · rw [if_neg hname]
      by_cases hlt : nameLt name other
      · rw [if_pos hlt]
        refine List.pairwise_cons.mpr ⟨?_, h⟩
        exact List.forall_mem_cons.mpr ⟨hlt, fun e he => nameLt_trans hlt (hfirst e he)⟩
      · rw [if_neg hlt]
        refine List.pairwise_cons.mpr ⟨fun e he => ?_, ih hrest⟩
        rcases mem_addRowIn he with hnew | ⟨old, hold, heq⟩
        · rw [hnew]
          exact nameLt_of_not_nameLt hname hlt
        · rw [← heq]
          exact hfirst old hold

theorem IsSorted.addRow {t : Tally} (h : t.IsSorted) (name : String) (row : Row) :
    (t.addRow name row).IsSorted :=
  InOrder.addRowIn h name row

theorem lookup_addRowIn {rows : List (String × Row)} (h : InOrder rows) (name other : String)
    (row : Row) :
    (addRowIn name row rows).lookup other
      = Option.merge (· + ·) (rows.lookup other) (if other = name then some row else none) := by
  induction rows with
  | nil =>
    by_cases hother : other = name
    · rw [if_pos hother, hother, addRowIn, lookup_cons_self]
      rfl
    · rw [if_neg hother, addRowIn, lookup_cons_of_ne hother]
      rfl
  | cons entry rest ih =>
    obtain ⟨first, found⟩ := entry
    obtain ⟨hfirst, hrest⟩ := List.pairwise_cons.mp h
    rw [addRowIn]
    by_cases hname : name = first
    · rw [if_pos hname, hname]
      by_cases hother : other = first
      · rw [if_pos hother, hother, lookup_cons_self, lookup_cons_self]
        rfl
      · rw [if_neg hother, lookup_cons_of_ne hother, lookup_cons_of_ne hother, Option.merge_none_right]
    · rw [if_neg hname]
      by_cases hlt : nameLt name first
      · rw [if_pos hlt]
        by_cases hother : other = name
        · -- the name comes before all that have a row
          have hnone : List.lookup name ((first, found) :: rest) = none :=
            lookup_eq_none (List.forall_mem_cons.mpr
              ⟨hlt, fun e he => nameLt_trans hlt (hfirst e he)⟩)
          rw [if_pos hother, hother, lookup_cons_self, hnone, Option.merge_none_left]
        · rw [if_neg hother, lookup_cons_of_ne hother, Option.merge_none_right]
      · rw [if_neg hlt]
        by_cases hother : other = first
        · rw [hother, lookup_cons_self, lookup_cons_self, if_neg (Ne.symm hname), Option.merge_none_right]
        · rw [lookup_cons_of_ne hother, lookup_cons_of_ne hother, ih hrest]

/-- **One row more changes the row of its name alone**, and adds to it. -/
theorem row?_addRow {t : Tally} (h : t.IsSorted) (name other : String) (row : Row) :
    (t.addRow name row).row? other
      = Option.merge (· + ·) (t.row? other) (if other = name then some row else none) :=
  lookup_addRowIn h name other row

/-! ## All rows of another tally -/

/-- Two tallies put together: the rows of the second are added to those of the first. -/
def merge (t u : Tally) : Tally := u.rows.foldl (fun sum entry => sum.addRow entry.1 entry.2) t

theorem IsSorted.merge {t : Tally} (h : t.IsSorted) (u : Tally) : (t.merge u).IsSorted := by
  unfold Tally.merge
  induction u.rows generalizing t with
  | nil => exact h
  | cons entry rest ih => exact ih (h.addRow entry.1 entry.2)

/-- **The rows of each name are added.** A name with a row in one of the two keeps it. -/
theorem row?_merge {t u : Tally} (ht : t.IsSorted) (hu : u.IsSorted) (name : String) :
    (t.merge u).row? name = Option.merge (· + ·) (t.row? name) (u.row? name) := by
  obtain ⟨rows⟩ := u
  unfold merge
  induction rows generalizing t with
  | nil => exact (Option.merge_none_right).symm
  | cons entry rest ih =>
    obtain ⟨first, row⟩ := entry
    obtain ⟨hfirst, hrest⟩ := List.pairwise_cons.mp hu
    rw [List.foldl_cons, ih (ht.addRow first row) hrest, row?_addRow ht]
    by_cases hname : name = first
    · -- no later row has this name
      have hnone : row? ⟨rest⟩ name = none := by rw [hname]; exact lookup_eq_none hfirst
      have hsome : row? ⟨(first, row) :: rest⟩ name = some row := by
        rw [hname]; exact lookup_cons_self ..
      rw [if_pos hname, hnone, hsome, Option.merge_none_right]
    · have hsame : row? ⟨(first, row) :: rest⟩ name = row? ⟨rest⟩ name := lookup_cons_of_ne hname ..
      rw [if_neg hname, hsame, Option.merge_none_right]

end Tally

/-! ## The row of a name -/

/-- The row of some files, if there are any. -/
def Row.ofFiles? : List LineCounts → Option Row
  | [] => none
  | n :: rest => some ⟨rest.length + 1, (n :: rest).sum⟩

theorem Row.ofFiles?_append (ms ns : List LineCounts) :
    ofFiles? (ms ++ ns) = Option.merge (· + ·) (ofFiles? ms) (ofFiles? ns) := by
  cases ms with
  | nil => exact Option.merge_none_left.symm
  | cons m ms =>
    cases ns with
    | nil => rw [List.append_nil]; exact Option.merge_none_right.symm
    | cons n ns =>
      have hlength : (ms ++ n :: ns).length + 1 = (ms.length + 1) + (ns.length + 1) := by
        rw [List.length_append, List.length_cons]
        omega
      have hsum : (m :: (ms ++ n :: ns)).sum = (m :: ms).sum + (n :: ns).sum := by
        rw [← List.cons_append, List.sum_append]
      exact congrArg some (Row.ext hlength hsum)

theorem Row.ofFiles?_perm {ms ns : List LineCounts} (h : ms.Perm ns) : ofFiles? ms = ofFiles? ns := by
  have hlength := h.length_eq
  have hsum := h.sum_eq
  cases ms with
  | nil => rw [h.nil_eq]
  | cons m ms =>
    cases ns with
    | nil => cases hlength
    | cons n ns => exact congrArg some (Row.ext hlength hsum)

namespace Tally

/-- The counts of the files of one name. -/
def countsOf (name : String) (files : List (String × LineCounts)) : List LineCounts :=
  (files.filter fun file => file.1 = name).map Prod.snd

theorem IsSorted.recordAll {t : Tally} (h : t.IsSorted) (files : List (String × LineCounts)) :
    (t.recordAll files).IsSorted := by
  unfold Tally.recordAll
  induction files generalizing t with
  | nil => exact h
  | cons file rest ih =>
    have hrecord : (t.record file.1 file.2).IsSorted := by
      rw [record_eq_addRow]
      exact h.addRow file.1 _
    exact ih hrecord

theorem isSorted_ofFiles (files : List (String × LineCounts)) : (ofFiles files).IsSorted :=
  isSorted_empty.recordAll files

theorem row?_recordAll {t : Tally} (h : t.IsSorted) (files : List (String × LineCounts))
    (name : String) :
    (t.recordAll files).row? name
      = Option.merge (· + ·) (t.row? name) (Row.ofFiles? (countsOf name files)) := by
  induction files generalizing t with
  | nil => exact Option.merge_none_right.symm
  | cons file rest ih =>
    obtain ⟨other, n⟩ := file
    have hrecord : (t.recordAll ((other, n) :: rest)).row? name
        = ((t.addRow other (.ofFile n)).recordAll rest).row? name := by
      rw [← record_eq_addRow]
      rfl
    rw [hrecord, ih (h.addRow other _), row?_addRow h]
    by_cases hname : name = other
    · have hcounts : countsOf name ((other, n) :: rest) = [n] ++ countsOf name rest := by
        simp [countsOf, hname]
      have hfile : Row.ofFiles? [n] = some (.ofFile n) :=
        congrArg some (Row.ext rfl (List.sum_singleton))
      rw [if_pos hname, hcounts, Row.ofFiles?_append, hfile]
      exact Std.Associative.assoc ..
    · have hcounts : countsOf name ((other, n) :: rest) = countsOf name rest := by
        simp [countsOf, Ne.symm hname]
      rw [if_neg hname, hcounts, Option.merge_none_right]

/-- **The row of a name is what the files of that name come to.** -/
theorem row?_ofFiles (files : List (String × LineCounts)) (name : String) :
    (ofFiles files).row? name = Row.ofFiles? (countsOf name files) := by
  rw [show ofFiles files = empty.recordAll files from rfl, row?_recordAll isSorted_empty]
  exact Option.merge_none_left

/-- **The order of the files does not matter.** -/
theorem ofFiles_perm {xs ys : List (String × LineCounts)} (h : xs.Perm ys) : ofFiles xs = ofFiles ys := by
  refine (isSorted_ofFiles xs).ext (isSorted_ofFiles ys) fun name => ?_
  rw [row?_ofFiles, row?_ofFiles]
  exact Row.ofFiles?_perm ((h.filter _).map _)

/-- **Some files and then others**: the two tallies put together. -/
theorem ofFiles_append (xs ys : List (String × LineCounts)) :
    ofFiles (xs ++ ys) = (ofFiles xs).merge (ofFiles ys) := by
  refine (isSorted_ofFiles _).ext ((isSorted_ofFiles xs).merge _) fun name => ?_
  rw [row?_merge (isSorted_ofFiles xs) (isSorted_ofFiles ys), row?_ofFiles, row?_ofFiles, row?_ofFiles,
    ← Row.ofFiles?_append]
  refine congrArg Row.ofFiles? ?_
  rw [countsOf, List.filter_append, List.map_append]
  rfl

end Tally

/-! ## Some of the files -/

/-- Each of the counts is at most the other. -/
structure LineCounts.AtMost (a b : LineCounts) : Prop where
  total : a.total ≤ b.total
  empty : a.empty ≤ b.empty
  comment : a.comment ≤ b.comment
  code : a.code ≤ b.code

/-- A row is at most another, field by field. -/
structure Row.AtMost (a b : Row) : Prop where
  files : a.files ≤ b.files
  lines : a.lines.AtMost b.lines

theorem Row.atMost_add_right (a b : Row) : a.AtMost (a + b) :=
  ⟨Nat.le_add_right .., Nat.le_add_right .., Nat.le_add_right .., Nat.le_add_right .., Nat.le_add_right ..⟩

theorem Row.atMost_refl (a : Row) : a.AtMost a := a.atMost_add_right 0

/-- Each of some rows is at most their sum. -/
theorem Row.atMost_sum_of_mem {row : Row} {rows : List Row} (h : row ∈ rows) : row.AtMost rows.sum := by
  obtain ⟨before, after, rfl⟩ := List.append_of_mem h
  have hsum : (before ++ row :: after).sum = row + (before.sum + after.sum) := by
    rw [List.sum_append, List.sum_cons, add_left_comm]
  exact hsum ▸ row.atMost_add_right _

/-- **A row of a tally is at most the sum of all.** -/
theorem Tally.atMost_grandTotal {t : Tally} {entry : String × Row} (h : entry ∈ t.rows) :
    entry.2.AtMost t.grandTotal := by
  rw [grandTotal_eq_sum]
  exact Row.atMost_sum_of_mem (List.mem_map_of_mem h)

/-- Every row of `t` is there in `u`, and is at most as great as it is there. -/
def Tally.AtMost (t u : Tally) : Prop :=
  ∀ name row, t.row? name = some row → ∃ row', u.row? name = some row' ∧ row.AtMost row'

theorem Tally.atMost_merge {t u : Tally} (ht : t.IsSorted) (hu : u.IsSorted) : t.AtMost (t.merge u) := by
  intro name row hrow
  rw [row?_merge ht hu, hrow]
  cases u.row? name with
  | none => exact ⟨row, rfl, row.atMost_refl⟩
  | some more => exact ⟨row + more, rfl, row.atMost_add_right more⟩

/-- **The tally of some of the files** is at most that of all. -/
theorem Tally.ofFiles_atMost {xs ys : List (String × LineCounts)} (h : xs.Sublist ys) :
    (ofFiles xs).AtMost (ofFiles ys) := by
  obtain ⟨rest, hperm⟩ := h.exists_perm_append
  rw [ofFiles_perm hperm, ofFiles_append]
  exact atMost_merge (isSorted_ofFiles xs) (isSorted_ofFiles rest)

end LineCensus
