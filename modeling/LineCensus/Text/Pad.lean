/-!
# `Text.Pad` — texts of a least width

Width counts characters; a text that is wide enough stays as it is.

## Contents
- `padRight`, `padLeft`, with their lengths.
-/

namespace LineCensus.Text

/-- `n` times the same character. -/
def repeated (c : Char) (n : Nat) : String := String.ofList (List.replicate n c)

/-- The text, with blanks after it up to the width. -/
def padRight (width : Nat) (s : String) : String := s ++ repeated ' ' (width - s.length)

/-- The text, with blanks before it up to the width. -/
def padLeft (width : Nat) (s : String) : String := repeated ' ' (width - s.length) ++ s

@[simp] theorem length_repeated (c : Char) (n : Nat) : (repeated c n).length = n := by
  simp [repeated]

theorem length_padRight (width : Nat) (s : String) :
    (padRight width s).length = max width s.length := by
  simp [padRight]; omega

theorem length_padLeft (width : Nat) (s : String) :
    (padLeft width s).length = max width s.length := by
  simp [padLeft]; omega

end LineCensus.Text
