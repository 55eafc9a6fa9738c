/-!
# `Language` — what the census knows of a language

## Contents
- `Delimiters`, an opening and a closing text.
- `Markers`, all that the kind of a line depends on.
- `Language`, a name, the extensions of its files and its markers.
-/

namespace LineCensus

/-- A text that opens a stretch and a text that closes it. -/
structure Delimiters where
  opening : List Char
  closing : List Char
  deriving DecidableEq, Repr

/-- The texts that decide the kind of a line. Region tags belong to files that embed several languages;
    plain languages have none. -/
structure Markers where
  /-- A line that starts with one of these is a comment. -/
  line : List (List Char)
  /-- What opens and closes a comment of several lines. -/
  block : Option Delimiters
  /-- The pairs of tags that stand around embedded regions. -/
  regions : List Delimiters
  deriving DecidableEq, Repr

/-- A language that lines are counted for. Extensions are in lower case and begin with a dot. -/
structure Language where
  name : String
  extensions : List String
  markers : Markers
  deriving DecidableEq, Repr

/-- Delimiters from two strings. -/
def Delimiters.ofStrings (opening closing : String) : Delimiters := ⟨opening.toList, closing.toList⟩

end LineCensus
