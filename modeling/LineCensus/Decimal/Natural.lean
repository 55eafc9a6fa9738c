/-!
# `Decimal.Natural` — natural numbers in decimal digits

## Contents
- `ofDigits?`, the number that a text of digits spells.
- `number?`, the same for numbers of 64 bits, with a plus sign perhaps.
-/

namespace LineCensus.Decimal

/-- The number so far with one more digit. -/
def pushDigit (n : Nat) (c : Char) : Nat := 10 * n + (c.toNat - '0'.toNat)

/-- The number that one or more digits spell. -/
def ofDigits? (cs : List Char) : Option Nat :=
  if cs.isEmpty || !cs.all Char.isDigit then none else some (cs.foldl pushDigit 0)

/-- The numbers of 64 bits lie below this one. -/
def numberLimit : Nat := 18446744073709551616

/-- A number of at most 64 bits in decimal digits, with a plus sign perhaps. -/
def number? (cs : List Char) : Option Nat :=
  let digits := if cs.head? = some '+' then cs.drop 1 else cs
  match ofDigits? digits with
  | some n => if n < numberLimit then some n else none
  | none => none

end LineCensus.Decimal
