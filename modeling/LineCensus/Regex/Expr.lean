import LineCensus.Regex.Fault

/-!
# `Regex.Expr` — patterns as they are written

## Contents
- `Literal`, `SetExpr`, `Assertion` and `Flag`, the parts of a pattern.
- `Expr`, a pattern, with the stretch that each part takes.
- `Expr.tooDeep?`, the first part that lies inside too many others.
-/

namespace LineCensus.Regex

/-! ## Parts -/

/-- A character that stands for itself. `byte` tells that it is written as `\x` with two digits. -/
structure Literal where
  char : Char
  byte : Bool
  span : Span
  deriving DecidableEq, Repr

/-- A set that has a letter of its own. -/
inductive Shorthand where
  | digit
  | space
  | word
  deriving DecidableEq, Repr

/-- A set of ASCII characters that has a name. -/
inductive NamedSet where
  | alnum
  | alpha
  | ascii
  | blank
  | cntrl
  | digit
  | graph
  | lower
  | print
  | punct
  | space
  | upper
  | word
  | xdigit
  deriving DecidableEq, Repr

/-- How two sets are combined. -/
inductive SetOp where
  | intersection
  | difference
  | symmetricDifference
  deriving DecidableEq, Repr

/-- A set of characters as it is written. -/
inductive SetExpr where
  /-- Nothing between brackets or operators. -/
  | nothing (span : Span)
  | literal (l : Literal)
  | range (first last : Literal) (span : Span)
  | named (name : NamedSet) (negated : Bool) (span : Span)
  | shorthand (kind : Shorthand) (negated : Bool) (span : Span)
  /-- A Unicode property, whatever it is called. -/
  | property (name : List Char) (span : Span)
  /-- Several sets, one after another. -/
  | union (items : List SetExpr) (span : Span)
  /-- A set in brackets. -/
  | bracket (negated : Bool) (body : SetExpr) (span : Span)
  | combine (op : SetOp) (lhs rhs : SetExpr) (span : Span)
  deriving Repr

/-- The stretch of a set. -/
def SetExpr.span : SetExpr → Span
  | nothing s => s
  | literal l => l.span
  | range _ _ s => s
  | named _ _ s => s
  | shorthand _ _ s => s
  | property _ s => s
  | union _ s => s
  | bracket _ _ s => s
  | combine _ _ _ s => s

/-- A condition on a place in a text. -/
inductive Assertion where
  | lineStart
  | lineEnd
  | textStart
  | textEnd
  | wordBoundary
  | notWordBoundary
  | wordStart
  | wordEnd
  | wordStartHalf
  | wordEndHalf
  deriving DecidableEq, Repr

/-- A way to read a pattern. -/
inductive Flag where
  | ignoreCase
  | multiLine
  | dotAll
  | swapGreed
  | unicode
  | returns
  | freeSpacing
  deriving DecidableEq, Repr

/-- A flag among others, or the sign that switches the flags after it off. -/
structure FlagItem where
  flag : Option Flag
  span : Span
  deriving DecidableEq, Repr

/-- What the items say about a flag, if anything. -/
def flagState? (flag : Flag) (items : List FlagItem) : Option Bool :=
  go true items
where
  /-- The same, with what the next flag is switched to. -/
  go (value : Bool) : List FlagItem → Option Bool
    | [] => none
    | item :: rest =>
      match item.flag with
      | none => go false rest
      | some f => if f = flag then some value else go value rest

/-! ## Patterns -/

/-- A pattern as it is written. -/
inductive Expr where
  | empty (span : Span)
  /-- Flags for what follows in the group. -/
  | flags (items : List FlagItem) (span : Span)
  | literal (l : Literal)
  /-- Any character. -/
  | dot (span : Span)
  | assertion (a : Assertion) (span : Span)
  | set (s : SetExpr)
  | repetition (body : Expr) (least : Nat) (most : Option Nat) (span : Span)
  /-- A group; one that captures has no flags of its own. -/
  | group (captures : Bool) (items : List FlagItem) (body : Expr) (span : Span)
  | alternation (branches : List Expr) (span : Span)
  | concat (parts : List Expr) (span : Span)
  deriving Repr

/-- The stretch of a pattern. -/
def Expr.span : Expr → Span
  | empty s => s
  | flags _ s => s
  | literal l => l.span
  | dot s => s
  | assertion _ s => s
  | set s => s.span
  | repetition _ _ _ s => s
  | group _ _ _ s => s
  | alternation _ s => s
  | concat _ s => s

/-! ## Depth -/

mutual

/-- The first part of a set that lies inside more than `room` others. -/
def SetExpr.tooDeep? (room : Nat) : SetExpr → Option Span
  | .union items s =>
    match room with
    | 0 => some s
    | room + 1 => SetExpr.anyTooDeep? room items
  | .bracket _ body s =>
    match room with
    | 0 => some s
    | room + 1 => body.tooDeep? room
  | .combine _ lhs rhs s =>
    match room with
    | 0 => some s
    | room + 1 => lhs.tooDeep? room <|> rhs.tooDeep? room
  | _ => none

/-- The first part of some sets that lies inside more than `room` others. -/
def SetExpr.anyTooDeep? (room : Nat) : List SetExpr → Option Span
  | [] => none
  | s :: rest => s.tooDeep? room <|> SetExpr.anyTooDeep? room rest

end

mutual

/-- The first part of a pattern that lies inside more than `room` others. Single characters lie inside
    others, but hold nothing. -/
def Expr.tooDeep? (room : Nat) : Expr → Option Span
  | .set s => s.tooDeep? room
  | .repetition body _ _ s =>
    match room with
    | 0 => some s
    | room + 1 => body.tooDeep? room
  | .group _ _ body s =>
    match room with
    | 0 => some s
    | room + 1 => body.tooDeep? room
  | .alternation branches s =>
    match room with
    | 0 => some s
    | room + 1 => Expr.anyTooDeep? room branches
  | .concat parts s =>
    match room with
    | 0 => some s
    | room + 1 => Expr.anyTooDeep? room parts
  | _ => none

/-- The first part of some patterns that lies inside more than `room` others. -/
def Expr.anyTooDeep? (room : Nat) : List Expr → Option Span
  | [] => none
  | e :: rest => e.tooDeep? room <|> Expr.anyTooDeep? room rest

end

/-- How many parts may lie inside one another. -/
def nestLimit : Nat := 250

end LineCensus.Regex
