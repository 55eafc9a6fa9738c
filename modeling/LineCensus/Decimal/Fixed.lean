/-!
# `Decimal.Fixed` — numbers with a fixed number of places

A binary floating-point number has an exact value; it is rounded to the nearest decimal with the wanted
number of places, and a value halfway between two goes to the one whose last digit is even.

## Contents
- `roundDiv`, the quotient of two natural numbers to the nearest, ties to even.
- `Magnitude` and `magnitude`, the exact value of a finite number without its sign.
- `fixed`, the text.
-/

namespace LineCensus.Decimal

/-- The quotient to the nearest whole number; a half goes to the even neighbour. -/
def roundDiv (num den : Nat) : Nat :=
  let q := num / den
  let twice := 2 * (num % den)
  if twice < den then q
  else if den < twice then q + 1
  else q + q % 2

/-- A power of two. -/
def twoPow (n : Nat) : Nat := Nat.pow 2 n

/-- A power of ten. -/
def tenPow (n : Nat) : Nat := Nat.pow 10 n

/-- The value `num / den`. -/
structure Magnitude where
  num : Nat
  den : Nat
  deriving DecidableEq, Repr

/-- The exact value of `m * 2 ^ (e - 1074)`. -/
def Magnitude.ofBinary (m e : Nat) : Magnitude :=
  if 1074 ≤ e then ⟨m * twoPow (e - 1074), 1⟩ else ⟨m, twoPow (1074 - e)⟩

/-- The exact magnitude of the finite number with these bits. -/
def magnitude (bits : UInt64) : Magnitude :=
  let fraction := bits.toNat % twoPow 52
  let biased := bits.toNat / twoPow 52 % twoPow 11
  if biased = 0 then .ofBinary fraction 0 else .ofBinary (twoPow 52 + fraction) (biased - 1)

/-- The text of a natural number of units of which `10 ^ places` make one. -/
def fixedNat (places n : Nat) : String :=
  if places = 0 then toString n
  else
    let fraction := toString (n % tenPow places)
    toString (n / tenPow places) ++ "."
      ++ String.ofList (List.replicate (places - fraction.length) '0') ++ fraction

/-- The magnitude with a fixed number of places. -/
def Magnitude.fixed (places : Nat) (x : Magnitude) : String :=
  fixedNat places (roundDiv (x.num * tenPow places) x.den)

/-- The number with a fixed number of places. -/
def fixed (places : Nat) (x : Float) : String :=
  if x.isNaN then "NaN"
  else
    let sign := if x.toBits ≥ 0x8000000000000000 then "-" else ""
    if x.isInf then sign ++ "inf" else sign ++ (magnitude x.toBits).fixed places

end LineCensus.Decimal
