import LineCensus.Activity
import LineCensus.Tally
import Mathlib.Algebra.BigOperators.Group.List.Basic
import Mathlib.Algebra.GroupWithZero.Nat

/-!
# `Proofs.Sums` — counts that add up

The counts of lines, the rows of a tally and the running counters are all added field by field, so sums of
them may be regrouped and reordered. Nothing here depends on where the numbers come from.

## Contents
- `LineCounts`, `Row` and `Activity` as commutative monoids.
- `Activity.hold?_bind_add`: sums of counters in 64 bits.
- `Tally.grandTotal_ofFiles`, the sum of all rows as a sum over the files that were recorded.
-/

namespace LineCensus

/-! ## Addition, field by field -/

instance : AddCommMonoid LineCounts where
  add_assoc a b c := LineCounts.ext (Nat.add_assoc ..) (Nat.add_assoc ..) (Nat.add_assoc ..)
    (Nat.add_assoc ..)
  zero_add := LineCounts.zero_add
  add_zero _ := rfl
  add_comm a b := LineCounts.ext (Nat.add_comm ..) (Nat.add_comm ..) (Nat.add_comm ..)
    (Nat.add_comm ..)
  nsmul := nsmulRec

/-- What is added field by field is summed field by field. -/
theorem LineCounts.sum_field {field : LineCounts → Nat} (hzero : field 0 = 0)
    (hadd : ∀ a b, field (a + b) = field a + field b) (ns : List LineCounts) :
    field ns.sum = (ns.map field).sum := by
  induction ns with
  | nil => exact hzero
  | cons n rest ih => rw [List.sum_cons, hadd, ih, List.map_cons, List.sum_cons]

theorem LineCounts.sum_total (ns : List LineCounts) :
    ns.sum.total = (ns.map LineCounts.total).sum :=
  sum_field rfl (fun _ _ => rfl) ns

attribute [ext] Row

instance : AddCommMonoid Row where
  add_assoc a b c := Row.ext (Nat.add_assoc ..) (add_assoc a.lines b.lines c.lines)
  zero_add a := Row.ext (Nat.zero_add _) (zero_add a.lines)
  add_zero _ := rfl
  add_comm a b := Row.ext (Nat.add_comm ..) (add_comm a.lines b.lines)
  nsmul := nsmulRec

attribute [ext] Activity

namespace Activity

instance : Zero Activity := ⟨zero⟩

instance : Add Activity :=
  ⟨fun a b => ⟨a.files + b.files, a.lines + b.lines, a.unsupported + b.unsupported,
    a.unreadable + b.unreadable⟩⟩

@[simp] theorem zero_files : (0 : Activity).files = 0 := rfl
@[simp] theorem zero_lines : (0 : Activity).lines = 0 := rfl
@[simp] theorem zero_unsupported : (0 : Activity).unsupported = 0 := rfl
@[simp] theorem zero_unreadable : (0 : Activity).unreadable = 0 := rfl
@[simp] theorem add_files (a b : Activity) : (a + b).files = a.files + b.files := rfl
@[simp] theorem add_lines (a b : Activity) : (a + b).lines = a.lines + b.lines := rfl
@[simp] theorem add_unsupported (a b : Activity) :
    (a + b).unsupported = a.unsupported + b.unsupported := rfl
@[simp] theorem add_unreadable (a b : Activity) :
    (a + b).unreadable = a.unreadable + b.unreadable := rfl

instance : AddCommMonoid Activity where
  add_assoc a b c := Activity.ext (Nat.add_assoc ..) (Nat.add_assoc ..) (Nat.add_assoc ..)
    (Nat.add_assoc ..)
  zero_add a := Activity.ext (Nat.zero_add _) (Nat.zero_add _) (Nat.zero_add _) (Nat.zero_add _)
  add_zero _ := rfl
  add_comm a b := Activity.ext (Nat.add_comm ..) (Nat.add_comm ..) (Nat.add_comm ..)
    (Nat.add_comm ..)
  nsmul := nsmulRec

theorem count_eq_add (a : Activity) (lines : Nat) : a.count lines = a + zero.count lines := by
  ext <;> simp [count, zero]

theorem skip_eq_add (a : Activity) (reason : SkipReason) : a.skip reason = a + zero.skip reason := by
  cases h : reason.isFailure <;> ext <;> simp [skip, zero, h]

theorem Fits.of_add {a b : Activity} (h : (a + b).Fits) : a.Fits := by
  obtain ⟨hfiles, hlines, hunsupported, hunreadable⟩ := h
  exact ⟨Nat.lt_of_le_of_lt (Nat.le_add_right ..) hfiles, Nat.lt_of_le_of_lt (Nat.le_add_right ..) hlines,
    Nat.lt_of_le_of_lt (Nat.le_add_right ..) hunsupported, Nat.lt_of_le_of_lt (Nat.le_add_right ..) hunreadable⟩

/-- **It does not matter when a sum is cut to 64 bits**, in between as well or at the end alone. -/
theorem hold?_bind_add (v : Overflow) (a b : Activity) :
    ((hold? v a).bind fun held => hold? v (held + b)) = hold? v (a + b) := by
  cases v with
  | stops =>
    by_cases ha : a.Fits
    · rw [hold?_of_fits .stops ha]
      rfl
    · -- nothing that is added makes the counters fit again
      have hsum : ¬(a + b).Fits := fun h => ha h.of_add
      simp only [hold?, if_neg ha, if_neg hsum, Option.bind_none]
  | wraps =>
    show some (a.wrapped + b).wrapped = some (a + b).wrapped
    simp only [wrapped, add_files, add_lines, add_unsupported, add_unreadable, Nat.mod_add_mod]

theorem hold?_bind_count? (v : Overflow) (a : Activity) (lines : Nat) :
    ((hold? v a).bind fun held => count? v held lines) = hold? v (a.count lines) := by
  rw [count_eq_add, ← hold?_bind_add]
  refine Option.bind_congr fun held hheld => ?_
  rw [count?_eq_hold? (fits_of_hold?_eq_some hheld), count_eq_add]

theorem hold?_bind_skip? (v : Overflow) (a : Activity) (reason : SkipReason) :
    ((hold? v a).bind fun held => skip? v held reason) = hold? v (a.skip reason) := by
  rw [skip_eq_add, ← hold?_bind_add]
  refine Option.bind_congr fun held hheld => ?_
  rw [skip?_eq_hold? (fits_of_hold?_eq_some hheld), skip_eq_add]

end Activity

/-! ## The sum of all rows -/

/-- The row of a single file. -/
def Row.ofFile (n : LineCounts) : Row := ⟨1, n⟩

theorem Row.addFile_eq_add (r : Row) (n : LineCounts) : r.addFile n = r + ofFile n := rfl

namespace Tally

theorem grandTotal_eq_sum (t : Tally) : t.grandTotal = (t.rows.map Prod.snd).sum := by
  have hfoldl : ∀ (rows : List (String × Row)) (r : Row),
      rows.foldl (fun sum entry => sum + entry.2) r = r + (rows.map Prod.snd).sum := by
    intro rows
    induction rows with
    | nil => intro r; exact (add_zero r).symm
    | cons entry rest ih =>
      intro r
      rw [List.foldl_cons, ih, List.map_cons, List.sum_cons, add_assoc]
  rw [grandTotal, hfoldl, zero_add]

/-- A recorded file counts once in the sum of all rows, whichever row it goes to. -/
theorem grandTotal_record (t : Tally) (name : String) (n : LineCounts) :
    (t.record name n).grandTotal = t.grandTotal + .ofFile n := by
  rw [grandTotal_eq_sum, grandTotal_eq_sum, record]
  induction t.rows with
  | nil => rfl
  | cons entry rest ih =>
    obtain ⟨other, row⟩ := entry
    rw [recordIn]
    by_cases hname : name = other
    · rw [if_pos hname, Row.addFile_eq_add]
      simp only [List.map_cons, List.sum_cons]
      exact add_right_comm ..
    · rw [if_neg hname]
      by_cases hlt : nameLt name other
      · rw [if_pos hlt, Row.addFile_eq_add, zero_add]
        simp only [List.map_cons, List.sum_cons]
        exact add_comm ..
      · rw [if_neg hlt]
        simp only [List.map_cons, List.sum_cons]
        rw [ih, add_assoc]

/-- **The sum of all rows is the number of files and the sum of their counts**, taken directly. -/
theorem grandTotal_ofFiles (files : List (String × LineCounts)) :
    (ofFiles files).grandTotal = ⟨files.length, (files.map Prod.snd).sum⟩ := by
  have hfoldl : ∀ t : Tally, (files.foldl (fun t file => t.record file.1 file.2) t).grandTotal
      = t.grandTotal + ⟨files.length, (files.map Prod.snd).sum⟩ := by
    induction files with
    | nil => intro t; rfl
    | cons file rest ih =>
      intro t
      rw [List.foldl_cons, ih, grandTotal_record, add_assoc]
      congr 1
      exact Row.ext (Nat.add_comm ..) (List.sum_cons ..).symm
  rw [ofFiles, hfoldl]
  exact zero_add _

end Tally

end LineCensus
