import LineCensus.Decimal.Natural

/-!
# `Overflow` — sums of 64 bits

A counter has 64 bits. What happens to a sum that needs more depends on how the program is built: it stops, or
it goes on with what is left in 64 bits.

## Contents
- `addWord?` with `addWord?_eq_some_iff`, a sum that has to fit.
- `Overflow`, the two builds.
- `Overflow.hold?`, what becomes of a number, with `Overflow.isSome_hold?`; `Overflow.add?`, one addition.
-/

namespace LineCensus

open Decimal

/-- The sum of two numbers, if 64 bits hold it. -/
def addWord? (a b : Nat) : Option Nat := if a + b < numberLimit then some (a + b) else none

theorem addWord?_eq_some_iff {a b c : Nat} :
    addWord? a b = some c ↔ a + b < numberLimit ∧ a + b = c := by
  unfold addWord?
  rw [Option.ite_none_right_eq_some, Option.some.injEq]

/-- What a build does with a sum that 64 bits do not hold. -/
inductive Overflow where
  /-- It stops. -/
  | stops
  /-- It drops the bits that are too many. -/
  | wraps
  deriving DecidableEq, Repr

namespace Overflow

/-- What becomes of a number in 64 bits. -/
def hold? : Overflow → Nat → Option Nat
  | stops, n => if n < numberLimit then some n else none
  | wraps, n => some (n % numberLimit)

/-- The sum of two numbers in 64 bits. -/
def add? : Overflow → Nat → Nat → Option Nat
  | stops, a, b => addWord? a b
  | wraps, a, b => some ((a + b) % numberLimit)

theorem add?_eq_hold? (v : Overflow) (a b : Nat) : v.add? a b = v.hold? (a + b) := by
  cases v with
  | stops => rfl
  | wraps => rfl

/-- A number that fits stays as it is. -/
theorem hold?_of_lt (v : Overflow) {n : Nat} (h : n < numberLimit) : v.hold? n = some n := by
  cases v with
  | stops => exact if_pos h
  | wraps => exact congrArg some (Nat.mod_eq_of_lt h)

/-- A number is always held in a build that drops bits, and else if it fits. -/
theorem isSome_hold? (v : Overflow) (n : Nat) : (v.hold? n).isSome = true ↔ v = wraps ∨ n < numberLimit := by
  cases v with
  | stops => simp [hold?]
  | wraps => simp [hold?]

end Overflow

end LineCensus
