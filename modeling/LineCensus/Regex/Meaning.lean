import LineCensus.Regex.Expr
import LineCensus.Regex.Pattern

/-!
# `Regex.Meaning` — what the parts of a pattern stand for

Properties and shorthands of all scripts, and letters of all scripts without regard to case, need tables
that are not at hand: patterns with them are refused. Where the letters of other scripts are switched off, a
set holds bytes, and it must hold ASCII alone, for a single byte above is no character.

## Contents
- `Modes`, what the flags say, and `Modes.withFlags`.
- `SetExpr.meaning`, a set of characters.
- `Expr.meaning`, a pattern, with the modes behind it.
-/

namespace LineCensus.Regex

/-! ## Modes -/

/-- How a pattern is to be taken. -/
structure Modes where
  ignoreCase : Bool
  multiLine : Bool
  dotAll : Bool
  unicode : Bool
  returns : Bool
  deriving DecidableEq, Repr

namespace Modes

/-- The modes that a pattern begins with. -/
def standard : Modes := ⟨false, false, false, true, false⟩

/-- The modes with some flags. -/
def withFlags (m : Modes) (items : List FlagItem) : Modes :=
  { ignoreCase := (flagState? .ignoreCase items).getD m.ignoreCase
    multiLine := (flagState? .multiLine items).getD m.multiLine
    dotAll := (flagState? .dotAll items).getD m.dotAll
    unicode := (flagState? .unicode items).getD m.unicode
    returns := (flagState? .returns items).getD m.returns }

/-- The highest value that a set may hold. -/
def top (m : Modes) : Nat := if m.unicode then CharSet.highest else 0xFF

end Modes

/-! ## Characters -/

/-- The scalar value of a character. A byte above ASCII is no character of its own. -/
def Literal.scalar (m : Modes) (l : Literal) : Except Fault Nat :=
  if !m.unicode && l.byte && 0x80 ≤ l.char.toNat then refuse .invalidUtf8 l.span
  else .ok l.char.toNat

/-- The characters that a single one stands for. -/
def Literal.meaning (m : Modes) (l : Literal) : Except Fault CharSet := do
  let n ← l.scalar m
  if !m.ignoreCase then return .single n
  else if m.unicode then refuse .caseNotFound l.span
  else if n < 0x80 then return (CharSet.single n).foldCase
  else return .single n

/-- The value of a character in a set. -/
def Literal.inSet (m : Modes) (l : Literal) : Except Fault Nat := do
  let n ← l.scalar m
  if !m.unicode && 0x80 ≤ n then refuse .unicodeNotAllowed l.span
  else return n

/-! ## Sets -/

/-- The characters with a name. -/
def NamedSet.chars : NamedSet → CharSet
  | alnum => [(0x30, 0x39), (0x41, 0x5A), (0x61, 0x7A)]
  | alpha => [(0x41, 0x5A), (0x61, 0x7A)]
  | ascii => [(0x00, 0x7F)]
  | blank => [(0x09, 0x09), (0x20, 0x20)]
  | cntrl => [(0x00, 0x1F), (0x7F, 0x7F)]
  | digit => [(0x30, 0x39)]
  | graph => [(0x21, 0x7E)]
  | lower => [(0x61, 0x7A)]
  | print => [(0x20, 0x7E)]
  | punct => [(0x21, 0x2F), (0x3A, 0x40), (0x5B, 0x60), (0x7B, 0x7E)]
  | space => [(0x09, 0x0D), (0x20, 0x20)]
  | upper => [(0x41, 0x5A)]
  | word => [(0x30, 0x39), (0x41, 0x5A), (0x5F, 0x5F), (0x61, 0x7A)]
  | xdigit => [(0x30, 0x39), (0x41, 0x46), (0x61, 0x66)]

/-- The ASCII characters of a shorthand. -/
def Shorthand.named : Shorthand → NamedSet
  | digit => .digit
  | space => .space
  | word => .word

/-- The name of a property by its ASCII characters in lower case, without blanks, hyphens, underscores and
    a leading `is`. -/
def plainName (name : List Char) : List Char :=
  let name := match name with
    | i :: s :: rest => if i.toLower = 'i' ∧ s.toLower = 's' then rest else i :: s :: rest
    | name => name
  (name.filter fun c => c.toNat < 0x80 && !(" _-".toList.contains c)).map Char.toLower

/-- The names that are those of values of a property rather than of a property. -/
def valueNames : List String := ["cf", "sc", "lc"]

/-- The fault of a property, none of which is known. -/
def propertyFault (m : Modes) (name : List Char) : FaultKind :=
  if !m.unicode then .unicodeNotAllowed
  else if valueNames.contains (String.ofList (plainName name)) then .propertyValueNotFound
  else .propertyNotFound

/-- The set without regard to case. Sets that hold characters of their own need a table for that, unless
    the letters of other scripts are switched off. -/
def foldSet (m : Modes) (ownChars : Bool) (span : Span) (s : CharSet) : Except Fault CharSet :=
  if !m.ignoreCase then .ok s
  else if !m.unicode then .ok s.foldCase
  else if ownChars then refuse .caseNotFound span
  else .ok s

/-- The set, or what is outside it. -/
def negateSet (m : Modes) (negated : Bool) (span : Span) (s : CharSet) : Except Fault CharSet :=
  let s := if negated then s.complement m.top else s
  if !m.unicode && !s.isAscii then refuse .invalidUtf8 span else .ok s

/-- The combination of two sets. -/
def SetOp.apply : SetOp → CharSet → CharSet → CharSet
  | intersection => .inter
  | difference => .diff
  | symmetricDifference => .symmDiff

namespace SetExpr

/-- Is the set a character or a range? -/
def isPlain : SetExpr → Bool
  | literal _ => true
  | range .. => true
  | _ => false

/-- Does the set name characters or ranges outside of further brackets? -/
def hasOwnChars : SetExpr → Bool
  | union items _ => items.any isPlain
  | s => s.isPlain

mutual

/-- The characters of a set. -/
def meaning (m : Modes) : SetExpr → Except Fault CharSet
  | .nothing _ => .ok []
  | .literal l => do return .single (← l.inSet m)
  | .range first last _ => do
    let low ← first.inSet m
    let high ← last.inSet m
    return [(low, high)]
  | .named name negated span => do negateSet m negated span (← foldSet m true span name.chars)
  | .shorthand kind negated span =>
    if m.unicode then refuse .shorthandNotFound span else negateSet m negated span kind.named.chars
  | .property name span => refuse (propertyFault m name) span
  | .union items _ => meaningOfAll m items
  | .bracket negated body span => do
    let s ← body.meaning m
    negateSet m negated span (← foldSet m body.hasOwnChars span s)
  | .combine op lhs rhs _ => do
    let s ← lhs.meaning m
    let t ← rhs.meaning m
    let t ← foldSet m rhs.hasOwnChars rhs.span t
    let s ← foldSet m lhs.hasOwnChars lhs.span s
    return op.apply s t

/-- The characters of several sets. -/
def meaningOfAll (m : Modes) : List SetExpr → Except Fault CharSet
  | [] => .ok []
  | item :: rest => do
    let s ← item.meaning m
    let t ← meaningOfAll m rest
    return s.union t

end

end SetExpr

/-! ## Patterns -/

/-- The characters that a dot stands for. -/
def dotChars (m : Modes) : CharSet :=
  if m.dotAll then .full
  else if m.returns then (CharSet.ofRanges [(0x0A, 0x0A), (0x0D, 0x0D)]).complement CharSet.highest
  else (CharSet.single 0x0A).complement CharSet.highest

/-- The condition of an assertion. -/
def Assertion.anchor (m : Modes) : Assertion → Anchor
  | textStart => .textStart
  | textEnd => .textEnd
  | lineStart => if !m.multiLine then .textStart else if m.returns then .returnLineStart else .lineStart
  | lineEnd => if !m.multiLine then .textEnd else if m.returns then .returnLineEnd else .lineEnd
  | wordBoundary => if m.unicode then .anyScript else .wordBoundary
  | notWordBoundary => if m.unicode then .anyScript else .notWordBoundary
  | wordStart => if m.unicode then .anyScript else .wordStart
  | wordEnd => if m.unicode then .anyScript else .wordEnd
  | wordStartHalf => if m.unicode then .anyScript else .wordStartHalf
  | wordEndHalf => if m.unicode then .anyScript else .wordEndHalf

namespace Expr

mutual

/-- What a pattern stands for, and the modes of what follows it. Flags hold to the end of their group. -/
def meaning (m : Modes) : Expr → Except Fault (Pattern × Modes)
  | .empty _ => .ok (.empty, m)
  | .flags items _ => .ok (.empty, m.withFlags items)
  | .literal l => do return (.chars (← l.meaning m), m)
  | .dot span => if m.unicode then .ok (.chars (dotChars m), m) else refuse .invalidUtf8 span
  | .assertion a _ => .ok (.anchor (a.anchor m), m)
  | .set s => do return (.chars (← s.meaning m), m)
  | .repetition body least most _ => do
    let (p, m) ← body.meaning m
    return (p.repeated least most, m)
  | .group captures items body _ => do
    let (p, _) ← body.meaning (m.withFlags items)
    return (if captures then .group p else p, m)
  | .alternation branches _ => eitherOf m branches
  | .concat parts _ => inOrder m parts

/-- One of several patterns. The modes of a branch hold in the next. -/
def eitherOf (m : Modes) : List Expr → Except Fault (Pattern × Modes)
  | [] => .ok (.chars [], m)
  | [e] => e.meaning m
  | e :: rest => do
    let (p, m) ← e.meaning m
    let (q, m) ← eitherOf m rest
    return (.either p q, m)

/-- Several patterns, one after another. -/
def inOrder (m : Modes) : List Expr → Except Fault (Pattern × Modes)
  | [] => .ok (.empty, m)
  | e :: rest => do
    let (p, m) ← e.meaning m
    let (q, m) ← inOrder m rest
    return (p.andThen q, m)

end

end Expr

end LineCensus.Regex
