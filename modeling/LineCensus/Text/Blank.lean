/-!
# `Text.Blank` — white space

## Contents
- `isBlank`, the Unicode property `White_Space`: 25 scalar values in ten ranges.
- `trim`, a text without the blanks at its two ends.
- `fields`, the maximal runs without blanks.
-/

namespace LineCensus.Text

/-- The ranges of the Unicode property `White_Space`. -/
def blankRanges : List (Nat × Nat) :=
  [(0x09, 0x0D), (0x20, 0x20), (0x85, 0x85), (0xA0, 0xA0), (0x1680, 0x1680), (0x2000, 0x200A),
   (0x2028, 0x2029), (0x202F, 0x202F), (0x205F, 0x205F), (0x3000, 0x3000)]

/-- Is the character white space? -/
def isBlank (c : Char) : Bool := blankRanges.any fun r => r.1 ≤ c.toNat && c.toNat ≤ r.2

/-- The text without its leading blanks. -/
def trimStart (cs : List Char) : List Char := cs.dropWhile isBlank

/-- The text without its trailing blanks. -/
def trimEnd (cs : List Char) : List Char := (cs.reverse.dropWhile isBlank).reverse

/-- The text without the blanks at its ends. -/
def trim (cs : List Char) : List Char := trimEnd (trimStart cs)

/-- The maximal runs of characters that are not blank, in order. -/
def fields (cs : List Char) : List (List Char) :=
  (cs.foldr (fun c (word, rest) =>
      if isBlank c then ([], if word.isEmpty then rest else word :: rest) else (c :: word, rest))
    ([], [])) |> fun (word, rest) => if word.isEmpty then rest else word :: rest

end LineCensus.Text
