import LineCensus.FileSystem
import Std.Data.HashMap

/-!
# `FileSystem.Answers` — a view from answers that were collected beforehand

## Contents
- `Answers`, what the operating system answered, by path.
- `Answers.view`, the view that gives these answers again; a question that was not asked has the answer that
  there is no such node.
-/

namespace LineCensus

/-- The answers to one question, by the text of the path. -/
abbrev AnswersTo (α : Type) := Std.HashMap String (Except OsError α)

/-- The answers to the four questions. -/
structure Answers where
  kinds : AnswersTo NodeKind
  lists : AnswersTo (List (Except OsError Entry))
  canonicals : AnswersTo Path
  contents : AnswersTo (List UInt8)

namespace Answers

/-- No answers. -/
def empty : Answers := ⟨∅, ∅, ∅, ∅⟩

/-- The answer for a path. -/
def lookup {α : Type} (answers : AnswersTo α) (p : Path) : Except OsError α :=
  (answers.get? p.display).getD (.error .notFound)

/-- The answers as a view. -/
def view (a : Answers) : FileSystem where
  kind := lookup a.kinds
  list := lookup a.lists
  canonical := lookup a.canonicals
  read := lookup a.contents

end Answers

end LineCensus
