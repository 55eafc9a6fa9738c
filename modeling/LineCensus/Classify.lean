import LineCensus.Language
import LineCensus.LineCounts
import LineCensus.Text.Blank
import LineCensus.Text.Split

/-!
# `Classify` — the kind of each line of a file

Lines are looked at without the blanks at their ends, and markers count only at the start of a line.
Block comments do not nest: the first line that holds the closing text ends the block.

## Contents
- `RegionEdge` and `regionEdge?`, the tag that a line is, if it is one.
- `State`, what one line hands to the next.
- `step`, the kind of one line and the state after it.
- `kinds`, `finalState` and `classify`, for a list of lines.
-/

namespace LineCensus

/-- A tag that opens or closes the region of the pair with this number. -/
inductive RegionEdge where
  | opens (pair : Nat)
  | closes (pair : Nat)
  deriving DecidableEq, Repr

/-- The first pair of which a tag starts the text; of its two tags the opening one is tried first. -/
def RegionEdge.find? (text : List Char) : List Delimiters → Nat → Option RegionEdge
  | [], _ => none
  | tags :: rest, i =>
    if tags.opening.isPrefixOf text then some (.opens i)
    else if tags.closing.isPrefixOf text then some (.closes i)
    else find? text rest (i + 1)

/-- The region tag that a text starts with. -/
def Markers.regionEdge? (m : Markers) (text : List Char) : Option RegionEdge :=
  RegionEdge.find? text m.regions 0

/-- What one line of a file hands to the next. Bit `i` of `regions` is set inside the region of pair `i`;
    no other line depends on it. -/
structure State where
  inBlock : Bool
  regions : BitVec 32
  deriving DecidableEq, Repr

namespace State

/-- The state before the first line. -/
def start : State := ⟨false, 0⟩

/-- Enter or leave a region. -/
def cross (s : State) : RegionEdge → State
  | .opens i => { s with regions := s.regions ||| (1#32 <<< i) }
  | .closes i => { s with regions := s.regions &&& ~~~(1#32 <<< i) }

end State

namespace Markers

/-- Does the text hold what closes a block? -/
def closesBlock (m : Markers) (text : List Char) : Bool :=
  match m.block with
  | some block => occursIn block.closing text
  | none => false

/-- Does the text start with what opens a block? -/
def opensBlock (m : Markers) (text : List Char) : Bool :=
  match m.block with
  | some block => block.opening.isPrefixOf text
  | none => false

/-- Does the text start with a line comment? -/
def startsComment (m : Markers) (text : List Char) : Bool := m.line.any (·.isPrefixOf text)

/-- The kind of a trimmed line, and the state after it. A block that opens on a line stays open if its
    closing text is nowhere on that line. -/
def stepTrimmed (m : Markers) (s : State) (text : List Char) : LineKind × State :=
  match m.regionEdge? text with
  | some edge => (.regionTag, s.cross edge)
  | none =>
    if s.inBlock then (.comment, { s with inBlock := !m.closesBlock text })
    else if m.opensBlock text then (.comment, { s with inBlock := !m.closesBlock text })
    else if m.startsComment text then (.comment, s)
    else if text.isEmpty then (.empty, s)
    else (.code, s)

/-- The kind of a line, and the state after it. -/
def step (m : Markers) (s : State) (line : List Char) : LineKind × State :=
  m.stepTrimmed s (Text.trim line)

/-- The kinds of the lines from a state on. -/
def kindsFrom (m : Markers) (s : State) : List (List Char) → List LineKind
  | [] => []
  | line :: rest => (m.step s line).1 :: kindsFrom m (m.step s line).2 rest

/-- The kinds of the lines of a file. -/
def kinds (m : Markers) (lines : List (List Char)) : List LineKind := m.kindsFrom .start lines

/-- The state after the lines of a file. -/
def finalState (m : Markers) (lines : List (List Char)) : State :=
  lines.foldl (fun s line => (m.step s line).2) .start

/-- State and counts after one more line. -/
def advance (m : Markers) (sofar : State × LineCounts) (line : List Char) : State × LineCounts :=
  ((m.step sofar.1 line).2, sofar.2.tick (m.step sofar.1 line).1)

/-- The counts of the lines of a file, in one pass. -/
def classify (m : Markers) (lines : List (List Char)) : LineCounts :=
  (lines.foldl m.advance (.start, 0)).2

/-- The counts from a state on are the counts of the kinds. -/
theorem foldl_advance (m : Markers) (lines : List (List Char)) (s : State) (n : LineCounts) :
    (lines.foldl m.advance (s, n)).2 = (m.kindsFrom s lines).foldl LineCounts.tick n := by
  induction lines generalizing s n with
  | nil => rfl
  | cons line rest ih => simp [kindsFrom, advance, ih]

/-- The counts of a file are the counts of the kinds of its lines. -/
theorem classify_eq_foldl_kinds (m : Markers) (lines : List (List Char)) :
    m.classify lines = (m.kinds lines).foldl LineCounts.tick 0 :=
  foldl_advance m lines .start 0

end Markers

end LineCensus
