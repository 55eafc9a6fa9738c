import LineCensus.Regex.CharSet
import Std.Data.HashSet

/-!
# `Regex.Pattern` — what a pattern stands for, and how it is found

A pattern is followed through a text by what is left of it: one character leads from a pattern to the
patterns that may still match the rest. A count goes down with every repetition, so that no pattern is
written out.

## Contents
- `Gap` and `Anchor`, the places between two characters, and conditions on them.
- `Pattern`, with `skips`, whether it matches nothing at a gap, and `step`, what is left of it after a
  character.
- `Pattern.occursIn`, whether it matches somewhere in a text.
-/

namespace LineCensus.Regex

/-! ## Gaps -/

/-- A place in a text, by the characters at its sides. -/
structure Gap where
  before : Option Char
  after : Option Char
  deriving DecidableEq, Repr

/-- A condition on a gap. -/
inductive Anchor where
  | textStart
  | textEnd
  | lineStart
  | lineEnd
  /-- The start of a line that ends with a return, a line feed or both. -/
  | returnLineStart
  | returnLineEnd
  | wordBoundary
  | notWordBoundary
  | wordStart
  | wordEnd
  | wordStartHalf
  | wordEndHalf
  /-- A condition on words in the letters of all scripts. No table of these is at hand: a pattern with such
      a condition is refused. -/
  | anyScript
  deriving DecidableEq, Hashable, Repr

/-- Is the character an ASCII letter, a digit or an underscore? -/
def isWordChar (c : Char) : Bool := c.isAlphanum || c == '_'

/-- Does a word lie before the gap? -/
def Gap.wordBefore (g : Gap) : Bool := g.before.any isWordChar

/-- Does a word lie after the gap? -/
def Gap.wordAfter (g : Gap) : Bool := g.after.any isWordChar

/-- Does the condition hold? No line begins or ends between a return and its line feed. -/
def Anchor.holds (g : Gap) : Anchor → Bool
  | textStart => g.before.isNone
  | textEnd => g.after.isNone
  | lineStart => g.before.all (· == '\n')
  | lineEnd => g.after.all (· == '\n')
  | returnLineStart => g.before.all fun c => c == '\n' || (c == '\r' && g.after != some '\n')
  | returnLineEnd => g.after.all fun c => c == '\r' || (c == '\n' && g.before != some '\r')
  | wordBoundary => g.wordBefore != g.wordAfter
  | notWordBoundary => g.wordBefore == g.wordAfter
  | wordStart => !g.wordBefore && g.wordAfter
  | wordEnd => g.wordBefore && !g.wordAfter
  | wordStartHalf => !g.wordBefore
  | wordEndHalf => !g.wordAfter
  | anyScript => false

/-! ## Patterns -/

/-- What a pattern stands for. -/
inductive Pattern where
  | empty
  /-- One character of a set. -/
  | chars (set : CharSet)
  /-- Nothing, where a condition holds. -/
  | anchor (a : Anchor)
  | seq (first second : Pattern)
  | either (first second : Pattern)
  /-- So many times, one after another. -/
  | times (body : Pattern) (least : Nat) (most : Option Nat)
  /-- A group that captures what it matches. -/
  | group (body : Pattern)
  deriving DecidableEq, Hashable, Repr

namespace Pattern

/-- One pattern after another. -/
def andThen : Pattern → Pattern → Pattern
  | empty, q => q
  | p, empty => p
  | p, q => seq p q

/-- Can the pattern match nothing but an empty stretch? -/
def isEmptyWidth : Pattern → Bool
  | empty => true
  | chars _ => false
  | anchor _ => true
  | seq p q => p.isEmptyWidth && q.isEmptyWidth
  | either p q => p.isEmptyWidth && q.isEmptyWidth
  | times p _ most => p.isEmptyWidth || most == some 0
  | group p => p.isEmptyWidth

/-- So many times. An empty stretch is not matched more than once, and what is matched no times is left
    out. -/
def repeated (p : Pattern) (least : Nat) (most : Option Nat) : Pattern :=
  let least := if p.isEmptyWidth then min least 1 else least
  let most := if p.isEmptyWidth then some (min (most.getD 1) 1) else most
  if most = some 0 then empty
  else if least = 1 ∧ most = some 1 then p
  else times p least most

/-- Does the pattern match the empty stretch at a gap? -/
def skips (g : Gap) : Pattern → Bool
  | empty => true
  | chars _ => false
  | anchor a => a.holds g
  | seq p q => p.skips g && q.skips g
  | either p q => p.skips g || q.skips g
  | times p least _ => least == 0 || p.skips g
  | group p => p.skips g

/-- What may be left of the pattern after the character `c`, which follows the gap. Repetitions that match
    nothing at the gap may come before the one that takes the character, so that none is owed any more. -/
def step (g : Gap) (c : Char) : Pattern → List Pattern
  | empty => []
  | chars s => if s.contains c then [empty] else []
  | anchor _ => []
  | seq p q =>
    (p.step g c).map (·.andThen q) ++ if p.skips g then q.step g c else []
  | either p q => p.step g c ++ q.step g c
  | times p least most =>
    if most = some 0 then []
    else
      let rest := times p (if p.skips g then 0 else least - 1) (most.map (· - 1))
      (p.step g c).map (·.andThen rest)
  | group p => p.step g c

/-- The different patterns of a list. -/
def distinct (ps : List Pattern) : List Pattern := (Std.HashSet.ofList ps).toList

/-- Does the pattern, or one of those under way, match up to some place in the text? The character before
    the text is given. -/
def search (p : Pattern) (underWay : List Pattern) (before : Option Char) : List Char → Bool
  | [] => (p :: underWay).any (·.skips ⟨before, none⟩)
  | c :: rest =>
    let g : Gap := ⟨before, some c⟩
    let all := p :: underWay
    all.any (·.skips g) || search p (distinct (all.flatMap (·.step g c))) (some c) rest

/-- Does the pattern match somewhere in the text? -/
def occursIn (p : Pattern) (text : List Char) : Bool := p.search [] none text

end Pattern

end LineCensus.Regex
