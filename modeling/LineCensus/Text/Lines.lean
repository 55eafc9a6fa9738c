import LineCensus.Text.Split

/-!
# `Text.Lines` — a text as lines

Three terminators end a line: CR LF, a single CR, a single LF. A terminator at the very end of the text
opens no further line, and the empty text has no lines.

## Contents
- `splitLines`, which makes every CR LF a LF, drops one terminator at the end and cuts at the others.
- `scanLines`, the same lines from a single pass that closes the current line at each terminator; and
  `scanBytes`, the same pass over bytes.
-/

namespace LineCensus.Text

/-- Is the character one that ends lines? -/
def isTerminator (c : Char) : Bool := c == '\r' || c == '\n'

/-! ## In three steps -/

/-- `unifyBreaks` onto a text already read, its last character first. -/
def unifyBreaksOnto (out : List Char) : List Char → List Char
  | [] => out.reverse
  | [c] => (c :: out).reverse
  | c :: d :: rest =>
    if c = '\r' ∧ d = '\n' then unifyBreaksOnto ('\n' :: out) rest
    else unifyBreaksOnto (c :: out) (d :: rest)

/-- Every CR LF becomes a LF. -/
def unifyBreaks (cs : List Char) : List Char := unifyBreaksOnto [] cs

/-- The text without one terminator at its end. -/
def dropFinalTerminator (cs : List Char) : List Char :=
  match cs.getLast? with
  | some c => if isTerminator c then cs.dropLast else cs
  | none => cs

/-- The lines of a text. -/
def splitLines (cs : List Char) : List (List Char) :=
  if cs.isEmpty then [] else splitAt isTerminator (dropFinalTerminator (unifyBreaks cs))

/-! ## In one pass -/

/-- The lines closed so far, the last first; the current line, its last element first; and whether the
    element before was a CR, so that a LF now belongs to the terminator before it. -/
structure LineScan (α : Type) where
  closed : List (List α)
  current : List α
  afterReturn : Bool

namespace LineScan

variable {α : Type} [DecidableEq α]

/-- Take one element, with the two that stand for CR and LF given. -/
def feed (cr lf : α) (s : LineScan α) (x : α) : LineScan α :=
  if x = lf then
    if s.afterReturn then { s with afterReturn := false }
    else ⟨s.current.reverse :: s.closed, [], false⟩
  else if x = cr then ⟨s.current.reverse :: s.closed, [], true⟩
  else ⟨s.closed, x :: s.current, false⟩

/-- The lines, with what is left over as a last one unless it is empty. -/
def finish (s : LineScan α) : List (List α) :=
  (if s.current.isEmpty then s.closed else s.current.reverse :: s.closed).reverse

/-- The lines by a single scan from left to right. -/
def run (cr lf : α) (xs : List α) : List (List α) :=
  (xs.foldl (feed cr lf) ⟨[], [], false⟩).finish

end LineScan

/-- The lines of a text, by a single scan. -/
def scanLines (cs : List Char) : List (List Char) := LineScan.run '\r' '\n' cs

/-- The lines of a content that is not decoded, by a single scan. -/
def scanBytes (bs : List UInt8) : List (List UInt8) := LineScan.run 0x0D 0x0A bs

end LineCensus.Text
