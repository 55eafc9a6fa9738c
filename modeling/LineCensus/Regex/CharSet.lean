/-!
# `Regex.CharSet` — sets of characters

A set is a list of ranges of scalar values in rising order, with a gap between any two. A range of
bytes is a range of the scalar values with the same numbers.

## Contents
- `CharSet.holds` and `CharSet.contains`; the operations on sets.
- `CharSet.foldCase`, both cases of the ASCII letters.
-/

namespace LineCensus.Regex

/-- A set of characters, as ranges of scalar values. -/
abbrev CharSet := List (Nat × Nat)

namespace CharSet

/-- The highest scalar value. -/
def highest : Nat := 0x10FFFF

/-- The set of one scalar value. -/
def single (n : Nat) : CharSet := [(n, n)]

/-- All scalar values. -/
def full : CharSet := [(0, highest)]

/-- Does a range hold the scalar value? -/
def holds (s : CharSet) (n : Nat) : Bool := s.any fun r => r.1 ≤ n && n ≤ r.2

/-- Is the character in the set? -/
def contains (s : CharSet) (c : Char) : Bool := s.holds c.toNat

/-- The set with one range more. Ranges that touch become one. -/
def insert (low high : Nat) : CharSet → CharSet
  | [] => [(low, high)]
  | (a, b) :: rest =>
    if high + 1 < a then (low, high) :: (a, b) :: rest
    else if b + 1 < low then (a, b) :: insert low high rest
    else insert (min low a) (max high b) rest

/-- The set of some ranges, in any order. -/
def ofRanges (ranges : List (Nat × Nat)) : CharSet := ranges.foldr (fun r s => insert r.1 r.2 s) []

/-- What lies in one of two sets. -/
def union (s t : CharSet) : CharSet := t.foldr (fun r s => insert r.1 r.2 s) s

/-- The values from `next` to `top` that the set does not hold. -/
def complementFrom (top : Nat) : Nat → CharSet → CharSet
  | next, [] => if next ≤ top then [(next, top)] else []
  | next, (a, b) :: rest =>
    if next < a then (next, a - 1) :: complementFrom top (b + 1) rest
    else complementFrom top (b + 1) rest

/-- The values up to `top` that the set does not hold. -/
def complement (top : Nat) (s : CharSet) : CharSet := complementFrom top 0 s

/-- What lies in both sets. -/
def inter (s t : CharSet) : CharSet :=
  complement highest (union (complement highest s) (complement highest t))

/-- What lies in the first set only. -/
def diff (s t : CharSet) : CharSet := inter s (complement highest t)

/-- What lies in one of the sets only. -/
def symmDiff (s t : CharSet) : CharSet := union (diff s t) (diff t s)

/-- Does the set hold values below 128 only? -/
def isAscii (s : CharSet) : Bool := s.all (·.2 < 0x80)

/-- The set moved up by `n`. -/
def up (n : Nat) (s : CharSet) : CharSet := s.map fun r => (r.1 + n, r.2 + n)

/-- The set moved down by `n`. -/
def down (n : Nat) (s : CharSet) : CharSet := s.map fun r => (r.1 - n, r.2 - n)

/-- The set with both cases of the ASCII letters in it. -/
def foldCase (s : CharSet) : CharSet :=
  union (union s (up 0x20 (inter s [(0x41, 0x5A)]))) (down 0x20 (inter s [(0x61, 0x7A)]))

end CharSet

end LineCensus.Regex
