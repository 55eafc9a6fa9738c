import LineCensus.Regex.Escape

/-!
# `Regex.Bracket` — reading a set in brackets

A set is read item by item. Brackets inside it and operators are put on a stack: an operator waits for the
items after it, which reach to the next operator or to the end of its brackets.

## Contents
- `Items`, what is read between two operators; `Pending`, a bracket or an operator that waits.
- `SetReader`, the state of the reader, and `SetReader.step`.
- `SetExpr.read`, a set with its brackets.
-/

namespace LineCensus.Regex

/-! ## State -/

/-- Sets that stand one after another, the last first, and the stretch that they take. -/
structure Items where
  sets : List SetExpr
  span : Span

namespace Items

/-- No sets, at a place. -/
def none (place : Position) : Items := ⟨[], ⟨place, place⟩⟩

/-- One set more. -/
def push (items : Items) (s : SetExpr) : Items :=
  ⟨s :: items.sets, ⟨if items.sets.isEmpty then s.span.start else items.span.start, s.span.stop⟩⟩

/-- All of them as one set. -/
def toSet (items : Items) : SetExpr :=
  match items.sets with
  | [] => .nothing items.span
  | [s] => s
  | sets => .union sets.reverse items.span

end Items

/-- What waits for the items that are being read. -/
inductive Pending where
  /-- A bracket, with what stands before it. -/
  | bracket (outer : Items) (negated : Bool) (span : Span)
  /-- An operator, with what stands before it. -/
  | operator (op : SetOp) (lhs : SetExpr)

/-- What is left to read, the items that are being read, and what waits for them, the innermost first. -/
structure SetReader where
  cursor : Cursor
  items : Items
  stack : List Pending

/-- Refuse a set that has no end: the innermost bracket is to blame. -/
def refuseUnclosed {α : Type} (c : Cursor) : List Pending → Except Fault α
  | [] => refuse .classUnclosed c.here
  | .bracket _ _ span :: _ => refuse .classUnclosed span
  | .operator .. :: rest => refuseUnclosed c rest

/-! ## Items -/

/-- The set of ASCII characters with a name. -/
def NamedSet.ofName? (name : List Char) : Option NamedSet :=
  match String.ofList name with
  | "alnum" => some .alnum
  | "alpha" => some .alpha
  | "ascii" => some .ascii
  | "blank" => some .blank
  | "cntrl" => some .cntrl
  | "digit" => some .digit
  | "graph" => some .graph
  | "lower" => some .lower
  | "print" => some .print
  | "punct" => some .punct
  | "space" => some .space
  | "upper" => some .upper
  | "word" => some .word
  | "xdigit" => some .xdigit
  | _ => none

/-- The named set at the cursor, and what follows it; `none` if there is no such set. -/
def readNamedSet? (c : Cursor) : Option (SetExpr × Cursor) := do
  let inner ← c.drop? ['[', ':']
  let negated := inner.rest.head? == some '^'
  let inner := if negated then inner.next else inner
  let (run, close) := inner.gather false (· != ':')
  let after ← close.drop? [':', ']']
  let name ← NamedSet.ofName? (run.map (·.1))
  return (.named name negated (after.since c.place), after)

/-- The character or the escape at the cursor, and what follows it. -/
def readItem (free : Bool) (c : Cursor) : Except Fault (Atom × Cursor) :=
  match c.rest with
  | [] => refuse .classUnclosed c.here
  | x :: _ =>
    if x = '\\' then Atom.read free c else .ok (.literal ⟨x, false, c.head⟩, c.next)

/-- An atom as a set; conditions are none. -/
def Atom.toSet : Atom → Except Fault SetExpr
  | .literal l => .ok (.literal l)
  | .set s => .ok s
  | .assertion _ span => refuse .classEscapeInvalid span

/-- An atom as an end of a range. -/
def Atom.toLiteral : Atom → Except Fault Literal
  | .literal l => .ok l
  | a => refuse .classRangeLiteral a.span

/-- The item at the cursor, or the range that begins with it. A hyphen makes no range before another
    hyphen or a closing bracket. -/
def readRange (free : Bool) (stack : List Pending) (c : Cursor) : Except Fault (SetExpr × Cursor) := do
  let (first, after) ← readItem free c
  let after := after.skip free
  let next := after.second? free
  match after.rest with
  | [] => refuseUnclosed after stack
  | x :: _ =>
    if x ≠ '-' ∨ next = some ']' ∨ next = some '-' then
      return (← first.toSet, after)
    let second := after.advance free
    if second.atEnd then refuseUnclosed second stack
    else
      let (last, after) ← readItem free second
      let span := ⟨first.span.start, last.span.stop⟩
      let low ← first.toLiteral
      let high ← last.toLiteral
      if low.char ≤ high.char then return (.range low high span, after)
      else refuse .classRangeInvalid span

/-! ## Brackets -/

/-- Read an opening bracket. Hyphens at the start are items, and a closing bracket is one if nothing stands
    before it. -/
def openBracket (free : Bool) (outer : Items) (stack : List Pending) (c : Cursor) :
    Except Fault SetReader :=
  let start := c.place
  let inner := c.advance free
  let negated := inner.rest.head? == some '^'
  let inner := if negated then inner.advance free else inner
  if inner.atEnd then refuse .classUnclosed (inner.since start)
  else
    let (hyphens, after) := inner.gather free (· == '-')
    let items := hyphens.foldl
      (fun items h => items.push (.literal ⟨h.1, false, ⟨h.2, h.2.after h.1⟩⟩)) (.none inner.place)
    if after.atEnd then refuse .classUnclosed ⟨start, start⟩
    else if hyphens.isEmpty ∧ after.rest.head? = some ']' then
      let items := items.push (.literal ⟨']', false, after.head⟩)
      let after := after.advance free
      if after.atEnd then refuse .classUnclosed (after.since start)
      else .ok ⟨after, items, .bracket outer negated (after.since start) :: stack⟩
    else .ok ⟨after, items, .bracket outer negated (after.since start) :: stack⟩

/-- Give a set to the operator that waits for it, if one does. -/
def settle (rhs : SetExpr) : List Pending → SetExpr × List Pending
  | .operator op lhs :: rest => (.combine op lhs rhs ⟨lhs.span.start, rhs.span.stop⟩, rest)
  | stack => (rhs, stack)

/-- The operator that a text begins with. -/
def SetOp.ofText? : List Char → Option SetOp
  | '&' :: '&' :: _ => some .intersection
  | '-' :: '-' :: _ => some .difference
  | '~' :: '~' :: _ => some .symmetricDifference
  | _ => none

namespace SetReader

/-- Read a closing bracket. The set is complete if no bracket waits any more. -/
def close (r : SetReader) : SetReader ⊕ (SetExpr × Cursor) :=
  let (body, stack) := settle r.items.toSet r.stack
  let after := r.cursor.next
  match stack with
  | .bracket outer negated span :: rest =>
    let s := SetExpr.bracket negated body (after.since span.start)
    if rest.isEmpty then .inr (s, after) else .inl ⟨after, outer.push s, rest⟩
  | _ => .inr (body, after)

/-- Read one item, bracket or operator. -/
def step (free : Bool) (r : SetReader) : Except Fault (SetReader ⊕ (SetExpr × Cursor)) := do
  let c := r.cursor.skip free
  let r := { r with cursor := c }
  match c.rest, SetOp.ofText? c.rest with
  | [], _ => refuseUnclosed c r.stack
  | _, some op =>
    let (lhs, stack) := settle r.items.toSet r.stack
    let after := c.next.next
    return .inl ⟨after, .none after.place, .operator op lhs :: stack⟩
  | '[' :: _, none =>
    match if r.stack.isEmpty then none else readNamedSet? c with
    | some (s, after) => return .inl { r with cursor := after, items := r.items.push s }
    | none => return .inl (← openBracket free r.items r.stack c)
  | ']' :: _, none => return r.close
  | _, none =>
    let (s, after) ← readRange free r.stack c
    return .inl { r with cursor := after, items := r.items.push s }

/-- Read to the closing bracket, in at most so many steps. -/
def run (free : Bool) : Nat → SetReader → Except Fault (SetExpr × Cursor)
  | 0, r => refuseUnclosed r.cursor r.stack
  | steps + 1, r => do
    match ← r.step free with
    | .inl r => run free steps r
    | .inr done => return done

end SetReader

/-- The set whose opening bracket is at the cursor, and what follows it. Each step reads a character. -/
def SetExpr.read (free : Bool) (c : Cursor) : Except Fault (SetExpr × Cursor) :=
  SetReader.run free (c.rest.length + 1) ⟨c, .none c.place, []⟩

end LineCensus.Regex
