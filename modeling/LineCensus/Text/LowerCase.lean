import LineCensus.Text.LetterCase

/-!
# `Text.LowerCase` — lower case of a text

The full lower-case mapping of Unicode: most letters map to one letter, a dotted capital I maps to two
scalar values, and a capital sigma maps to the final form at the end of a word.

## Contents
- `lowerChar`, the mapping of one character without its context.
- `isFinalSigma`, the context rule of the capital sigma.
- `lowerCase`, the mapping of a text.
-/

namespace LineCensus.Text

/-- Does a scalar value lie in one of the ranges? -/
def inRanges (ranges : List (Nat × Nat)) (n : Nat) : Bool :=
  ranges.any fun r => r.1 ≤ n && n ≤ r.2

/-- Has the character case? -/
def isCased (c : Char) : Bool := inRanges casedRanges c.toNat

/-- Is the character passed over when the context of a letter is looked at? -/
def isCaseIgnorable (c : Char) : Bool := inRanges ignorableRanges c.toNat

/-- The run that holds a scalar value. -/
def lowerRun? (n : Nat) : Option (Nat × Nat × Nat × Nat) :=
  lowerRuns.find? fun (first, last, stride, _) => first ≤ n && n ≤ last && (n - first) % stride == 0

/-- The lower-case form of one character, its context left aside. -/
def lowerChar (c : Char) : List Char :=
  if c = '\u0130' then ['i', '\u0307']
  else match lowerRun? c.toNat with
    | some (first, _, _, image) => [Char.ofNat (image + (c.toNat - first))]
    | none => [c]

/-- Is the first character that is not passed over a cased one? -/
def nextIsCased (cs : List Char) : Bool :=
  match cs.dropWhile isCaseIgnorable with
  | [] => false
  | c :: _ => isCased c

/-- A capital sigma ends a word if a cased letter comes before it and none comes after it. The letters
    before are given with the nearest first. -/
def isFinalSigma (before after : List Char) : Bool := nextIsCased before && !nextIsCased after

/-- Lower case of what follows the letters `before`, of which the nearest comes first. -/
def lowerCaseAfter (before : List Char) : List Char → List Char
  | [] => []
  | c :: rest =>
    (if c = 'Σ' then (if isFinalSigma before rest then ['ς'] else ['σ']) else lowerChar c)
      ++ lowerCaseAfter (c :: before) rest

/-- The text in lower case. -/
def lowerCase (cs : List Char) : List Char := lowerCaseAfter [] cs

end LineCensus.Text
