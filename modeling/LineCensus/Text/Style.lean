/-!
# `Text.Style` — coloured text

## Contents
- `Style`, the looks in use; `paint`, a text in one of them, or plain when colours are off.
- `stripStyle`, a text without its colour sequences.
-/

namespace LineCensus.Text

/-- A look of a text on a terminal. -/
inductive Style where
  /-- Bright cyan and bold. -/
  | title
  /-- Blue and bold. -/
  | heading
  /-- Bright yellow. -/
  | figure
  /-- Red and bold. -/
  | alarm
  /-- Bold and underlined. -/
  | caption
  /-- Bold. -/
  | literal
  /-- Grey. -/
  | dim
  deriving DecidableEq, Repr

/-- The parameters of the sequences that switch the look on, one sequence each. -/
def Style.codes : Style → List String
  | title => ["1;96"]
  | heading => ["1;34"]
  | figure => ["93"]
  | alarm => ["1;31"]
  | caption => ["1", "4"]
  | literal => ["1"]
  | dim => ["90"]

/-- The sequence with the given parameters. -/
def sequence (code : String) : String := "\x1b[" ++ code ++ "m"

/-- A text between the sequences with the given parameters and the one that resets. -/
def wrap (codes : List String) (text : String) : String :=
  String.join (codes.map sequence) ++ text ++ sequence "0"

/-- The text in a look, if colours are on. -/
def paint (color : Bool) (style : Style) (text : String) : String :=
  if color then wrap style.codes text else text

/-- The text after the colour sequences in it are taken out. A sequence runs from an escape and a bracket to
    the next `m`; `inside` tells that one has begun. -/
def stripFrom (inside : Bool) : List Char → List Char
  | [] => []
  | '\x1b' :: '[' :: rest => if inside then stripFrom true ('[' :: rest) else stripFrom true rest
  | c :: rest => if inside then stripFrom (c != 'm') rest else c :: stripFrom false rest

/-- The text without its colour sequences. -/
def stripStyle (cs : List Char) : List Char := stripFrom false cs

/-- Without colours a text stays as it is. -/
@[simp] theorem paint_false (style : Style) (text : String) : paint false style text = text := rfl

end LineCensus.Text
