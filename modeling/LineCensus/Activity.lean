import LineCensus.Overflow
import LineCensus.Scan.Fault

/-!
# `Activity` — running counters

The counters only grow, over any number of scans. They are natural numbers here; in a program they have 64 bits,
and `Activity.count?` and `Activity.skip?` are what it does to them.

## Contents
- `Activity`, how many files and lines were counted and how many files were skipped.
- `Activity.count` and `Activity.skip`, one file more.
- `Activity.hold?`, what becomes of counters in 64 bits; `Activity.count?` and `Activity.skip?`, with
  `count?_eq_hold?` and `skip?_eq_hold?`.
-/

namespace LineCensus

open Decimal

/-- What was done so far, without a bound on the counters. -/
structure Activity where
  /-- Files that were counted. -/
  files : Nat
  /-- Lines in them. -/
  lines : Nat
  /-- Files of no known language. -/
  unsupported : Nat
  /-- Files that could not be read or decoded. -/
  unreadable : Nat
  deriving DecidableEq, Repr

namespace Activity

/-- Nothing done yet. -/
def zero : Activity := ⟨0, 0, 0, 0⟩

/-- A file of `lines` lines was counted. -/
def count (a : Activity) (lines : Nat) : Activity :=
  { a with files := a.files + 1, lines := a.lines + lines }

/-- A file was skipped. -/
def skip (a : Activity) (reason : SkipReason) : Activity :=
  if reason.isFailure then { a with unreadable := a.unreadable + 1 }
  else { a with unsupported := a.unsupported + 1 }

/-! ## In 64 bits -/

/-- Each counter fits into 64 bits. -/
def Fits (a : Activity) : Prop :=
  a.files < numberLimit ∧ a.lines < numberLimit ∧ a.unsupported < numberLimit ∧ a.unreadable < numberLimit

instance : DecidablePred Fits := fun _ => instDecidableAnd

/-- What is left of each counter in 64 bits. -/
def wrapped (a : Activity) : Activity :=
  ⟨a.files % numberLimit, a.lines % numberLimit, a.unsupported % numberLimit, a.unreadable % numberLimit⟩

/-- What becomes of the counters in 64 bits. -/
def hold? : Overflow → Activity → Option Activity
  | .stops, a => if a.Fits then some a else none
  | .wraps, a => some a.wrapped

/-- A file of `lines` lines was counted. -/
def count? (v : Overflow) (a : Activity) (lines : Nat) : Option Activity := do
  let files ← v.add? a.files 1
  let lines ← v.add? a.lines lines
  return { a with files := files, lines := lines }

/-- A file was skipped. -/
def skip? (v : Overflow) (a : Activity) (reason : SkipReason) : Option Activity :=
  if reason.isFailure then (v.add? a.unreadable 1).map fun unreadable => { a with unreadable := unreadable }
  else (v.add? a.unsupported 1).map fun unsupported => { a with unsupported := unsupported }

variable {a : Activity} {v : Overflow}

theorem wrapped_of_fits (h : a.Fits) : a.wrapped = a := by
  obtain ⟨hfiles, hlines, hunsupported, hunreadable⟩ := h
  unfold wrapped
  rw [Nat.mod_eq_of_lt hfiles, Nat.mod_eq_of_lt hlines, Nat.mod_eq_of_lt hunsupported,
    Nat.mod_eq_of_lt hunreadable]

theorem fits_wrapped (a : Activity) : a.wrapped.Fits :=
  have hpos : 0 < numberLimit := by decide
  ⟨Nat.mod_lt _ hpos, Nat.mod_lt _ hpos, Nat.mod_lt _ hpos, Nat.mod_lt _ hpos⟩

/-- Counters that fit stay as they are. -/
theorem hold?_of_fits (v : Overflow) (h : a.Fits) : hold? v a = some a := by
  cases v with
  | stops => exact if_pos h
  | wraps => exact congrArg some (wrapped_of_fits h)

theorem eq_of_hold?_eq_some {held : Activity} (hfits : a.Fits) (h : hold? v a = some held) : held = a := by
  rw [hold?_of_fits v hfits] at h
  exact (Option.some.inj h).symm

theorem fits_of_hold?_eq_some {held : Activity} (h : hold? v a = some held) : held.Fits := by
  cases v with
  | stops =>
    obtain ⟨hfits, hheld⟩ := Option.ite_none_right_eq_some.mp h
    exact Option.some.inj hheld ▸ hfits
  | wraps => exact Option.some.inj h ▸ a.fits_wrapped

/-- **Counting in 64 bits** is counting, and then 64 bits. -/
theorem count?_eq_hold? (h : a.Fits) (v : Overflow) (lines : Nat) : count? v a lines = hold? v (a.count lines) := by
  -- the counters of skipped files stay, and fit; the other two are cut one by one
  obtain ⟨-, -, hunsupported, hunreadable⟩ := h
  unfold count?
  rw [Overflow.add?_eq_hold?, Overflow.add?_eq_hold?]
  cases v with
  | stops =>
    simp only [Overflow.hold?, hold?, Fits, count, hunsupported, hunreadable, and_true]
    by_cases hfiles : a.files + 1 < numberLimit
    · by_cases hlines : a.lines + lines < numberLimit
      · simp [hfiles, hlines]
      · simp [hlines]
    · simp [hfiles]
  | wraps =>
    simp only [Overflow.hold?, hold?, wrapped, count, Nat.mod_eq_of_lt hunsupported, Nat.mod_eq_of_lt hunreadable]
    rfl

/-- **Skipping in 64 bits** is skipping, and then 64 bits. -/
theorem skip?_eq_hold? (h : a.Fits) (v : Overflow) (reason : SkipReason) :
    skip? v a reason = hold? v (a.skip reason) := by
  obtain ⟨hfiles, hlines, hunsupported, hunreadable⟩ := h
  unfold skip? skip
  rw [Overflow.add?_eq_hold?, Overflow.add?_eq_hold?]
  cases reason.isFailure with
  | true =>
    cases v with
    | stops => simp [Overflow.hold?, hold?, Fits, hfiles, hlines, hunsupported]
    | wraps =>
      simp [Overflow.hold?, hold?, wrapped, Nat.mod_eq_of_lt hfiles, Nat.mod_eq_of_lt hlines,
        Nat.mod_eq_of_lt hunsupported]
  | false =>
    cases v with
    | stops => simp [Overflow.hold?, hold?, Fits, hfiles, hlines, hunreadable]
    | wraps =>
      simp [Overflow.hold?, hold?, wrapped, Nat.mod_eq_of_lt hfiles, Nat.mod_eq_of_lt hlines,
        Nat.mod_eq_of_lt hunreadable]

end Activity

end LineCensus
