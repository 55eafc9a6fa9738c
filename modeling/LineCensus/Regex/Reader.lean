import LineCensus.Regex.Bracket
import LineCensus.Text.Alphabet

/-!
# `Regex.Reader` — reading a pattern

A pattern is read from left to right. A group that is open keeps what was read before it, until it is
closed.

## Contents
- `Level`, what is read of a group; `OpenGroup`, a group that is open; `Reader`, the state.
- Readers of flags, of group names and of counts.
- `Reader.step`, the next part of a pattern, and `Expr.read`, a whole one.
-/

namespace LineCensus.Regex

/-! ## State -/

/-- The branches and the parts that are read between two parentheses, the last first, with the places where
    the branches and the parts of the present one begin. -/
structure Level where
  start : Position
  branches : List Expr
  partsStart : Position
  parts : List Expr

namespace Level

/-- Nothing read, at a place. -/
def startingAt (place : Position) : Level := ⟨place, [], place, []⟩

/-- One part more. -/
def push (l : Level) (e : Expr) : Level := { l with parts := e :: l.parts }

/-- The present branch, which ends at a place. -/
def branch (l : Level) (stop : Position) : Expr :=
  match l.parts with
  | [] => .empty ⟨l.partsStart, stop⟩
  | [e] => e
  | parts => .concat parts.reverse ⟨l.partsStart, stop⟩

/-- The present branch ends here, and another begins after the cursor's bar. -/
def nextBranch (l : Level) (c : Cursor) : Level :=
  ⟨l.start, l.branch c.place :: l.branches, c.next.place, []⟩

/-- Everything between the parentheses. -/
def close (l : Level) (stop : Position) : Expr :=
  if l.branches.isEmpty then l.branch stop
  else .alternation (l.branch stop :: l.branches).reverse ⟨l.start, stop⟩

end Level

/-- A group that is not closed: what was read before it, and whether spacing was free there. -/
structure OpenGroup where
  outer : Level
  outerFree : Bool
  captures : Bool
  items : List FlagItem
  span : Span

/-- What is left to read, what is read of the present group, the groups around it, the innermost first, and
    the names of the groups so far. -/
structure Reader where
  cursor : Cursor
  free : Bool
  level : Level
  groups : List OpenGroup
  names : List (List Char × Span)

namespace Reader

/-- Nothing is read. -/
def start (pattern : List Char) : Reader :=
  ⟨.ofPattern pattern, false, .startingAt .first, [], []⟩

/-- One part more, with what is left after it. -/
def push (r : Reader) (e : Expr) (after : Cursor) : Reader :=
  { r with cursor := after, level := r.level.push e }

end Reader

/-! ## Flags -/

/-- The flag of a letter. -/
def Flag.ofChar? : Char → Option Flag
  | 'i' => some .ignoreCase
  | 'm' => some .multiLine
  | 's' => some .dotAll
  | 'U' => some .swapGreed
  | 'u' => some .unicode
  | 'R' => some .returns
  | 'x' => some .freeSpacing
  | _ => none

/-- The flags up to a colon or a closing parenthesis. Those that are read already are given, the last
    first. -/
def readFlags (items : List FlagItem) : List Char → Position → Except Fault (List FlagItem × Cursor)
  | [], p => refuse .flagUnfinished ⟨p, p⟩
  | x :: rest, p =>
    let span : Span := ⟨p, p.after x⟩
    if x = ':' ∨ x = ')' then
      match items with
      | ⟨none, minus⟩ :: _ => refuse .flagDanglingNegation minus
      | _ => .ok (items.reverse, ⟨x :: rest, p⟩)
    else if x ≠ '-' ∧ (Flag.ofChar? x).isNone then refuse .flagUnrecognized span
    else
      let flag := if x = '-' then none else Flag.ofChar? x
      match items.find? (·.flag == flag) with
      | some item =>
        .error ⟨if flag.isNone then .flagRepeatedNegation else .flagDuplicate, span, some item.span⟩
      | none => readFlags (⟨flag, span⟩ :: items) rest (p.after x)

/-! ## Groups -/

/-- May the character begin the name of a group? -/
def isNameStart (c : Char) : Bool := c == '_' || Text.isAlphabetic c

/-- May the character stand in the name of a group? -/
def isNameChar (c : Char) : Bool :=
  c == '_' || c == '.' || c == '[' || c == ']' || Text.isAlphanumeric c

/-- The name of a group, which ends with an angle bracket; what follows it; and the names with this one. -/
def readName (names : List (List Char × Span)) (c : Cursor) :
    Except Fault (List (List Char × Span) × Cursor) :=
  let (run, close) := c.gather false isNameChar
  match c.rest, close.rest with
  | [], _ => refuse .groupNameUnfinished c.here
  | x :: _, [] =>
    if isNameStart x then refuse .groupNameUnfinished close.here else refuse .groupNameInvalid c.head
  | x :: _, y :: _ =>
    if x = '>' then refuse .groupNameEmpty c.here
    else if !isNameStart x then refuse .groupNameInvalid c.head
    else if y ≠ '>' then refuse .groupNameInvalid close.head
    else
      let name := run.map (·.1)
      let span := close.since c.place
      match names.find? (·.1 == name) with
      | some (_, earlier) => .error ⟨.groupNameDuplicate, span, some earlier⟩
      | none => .ok ((name, span) :: names, close.next)

/-- What follows a sign for look-around, if there is one. -/
def dropLookAround? (c : Cursor) : Option Cursor :=
  c.drop? ['?', '='] <|> c.drop? ['?', '!'] <|> c.drop? ['?', '<', '='] <|> c.drop? ['?', '<', '!']

/-- What follows the sign for a name, if there is one. -/
def dropNameSign? (c : Cursor) : Option Cursor := c.drop? ['?', 'P', '<'] <|> c.drop? ['?', '<']

namespace Reader

/-- Begin a group whose content is at the cursor `inner`. -/
def enter (r : Reader) (captures : Bool) (items : List FlagItem) (span : Span) (inner : Cursor) : Reader :=
  { r with
    cursor := inner
    free := (flagState? .freeSpacing items).getD r.free
    level := .startingAt inner.place
    groups := ⟨r.level, r.free, captures, items, span⟩ :: r.groups }

/-- Read an opening parenthesis with its signs. -/
def openGroup (r : Reader) (c : Cursor) : Except Fault Reader :=
  let span := c.head
  let inner := c.advance r.free
  match dropLookAround? inner, dropNameSign? inner, inner.drop? ['?'] with
  | some after, _, _ => refuse .lookAround (after.since c.place)
  | none, some name, _ => do
    let (names, after) ← readName r.names name
    return { r with names := names }.enter true [] span after
  | none, none, some signs =>
    if signs.atEnd then refuse .groupUnclosed span
    else do
      let (items, close) ← readFlags [] signs.rest signs.place
      let after := close.next
      if close.rest.head? = some ':' then return r.enter false items span after
      else if items.isEmpty then refuse .repetitionMissing inner.here
      else
        let free := (flagState? .freeSpacing items).getD r.free
        return { r with free := free }.push (.flags items (after.since c.place)) after
  | none, none, none => .ok (r.enter true [] span inner)

/-- Read a closing parenthesis. -/
def closeGroup (r : Reader) (c : Cursor) : Except Fault Reader :=
  match r.groups with
  | [] => refuse .groupUnopened c.head
  | g :: rest =>
    let body := r.level.close c.place
    let e := Expr.group g.captures g.items body (c.next.since g.span.start)
    .ok { r with cursor := c.next, free := g.outerFree, level := g.outer.push e, groups := rest }

end Reader

/-! ## Repetition -/

/-- The highest count. -/
def highestCount : Nat := 4294967295

/-- A count, with blanks around it, and what follows it. -/
def readCount (free : Bool) (c : Cursor) : Except Fault Nat × Cursor :=
  let start := c.dropBlanks
  let (run, after) := start.gather free Char.isDigit
  let span := after.since start.place
  let n := run.foldl (fun n d => 10 * n + (d.1.toNat - '0'.toNat)) 0
  (if run.isEmpty then refuse .countEmpty span
    else if highestCount < n then refuse .decimalInvalid span
    else .ok n,
   after.dropBlanks)

/-- The bounds in braces, and the closing brace. The opening brace is at `start`, the cursor behind it. -/
def readBounds (free : Bool) (start : Position) (c : Cursor) :
    Except Fault ((Nat × Option Nat) × Cursor) := do
  if c.atEnd then refuse .countUnclosed (c.since start)
  else
    let (least, after) := readCount free c
    match after.rest with
    | [] => refuse .countUnclosed (after.since start)
    | ',' :: _ =>
      let second := after.advance free
      match second.rest with
      | [] => refuse .countUnclosed (second.since start)
      | '}' :: _ => return ((← least, none), second)
      | _ =>
        let least ← least
        let (most, after) := readCount free second
        return ((least, some (← most)), after)
    | _ =>
      let n ← least
      return ((n, some n), after)

namespace Reader

/-- Take back the last part, which a repetition is about. Flags cannot be repeated. -/
def takeLast (r : Reader) (c : Cursor) : Except Fault (Expr × Reader) :=
  match r.level.parts with
  | [] => refuse .repetitionMissing c.here
  | .empty _ :: _ => refuse .repetitionMissing c.here
  | .flags _ _ :: _ => refuse .repetitionMissing c.here
  | e :: rest => .ok (e, { r with level := { r.level with parts := rest } })

/-- What follows a question mark, if one comes next. It asks for as few repetitions as can be. -/
def dropLazy (c : Cursor) : Cursor := (c.drop? ['?']).getD c

/-- Read a sign of repetition. -/
def repeatBySign (r : Reader) (least : Nat) (most : Option Nat) (c : Cursor) : Except Fault Reader := do
  let (e, r) ← r.takeLast c
  let after := dropLazy c.next
  return r.push (.repetition e least most ⟨e.span.start, after.place⟩) after

/-- Read a repetition with counts. -/
def repeatByCount (r : Reader) (c : Cursor) : Except Fault Reader := do
  let (e, r) ← r.takeLast c
  let ((least, most), close) ← readBounds r.free c.place (c.advance r.free)
  if close.rest.head? ≠ some '}' then refuse .countUnclosed (close.since c.place)
  else
    let after := dropLazy (close.advance r.free)
    if most.any (· < least) then refuse .countInvalid (after.since c.place)
    else return r.push (.repetition e least most ⟨e.span.start, after.place⟩) after

/-! ## Patterns -/

/-- Read a part that is no group, set or repetition. -/
def readPlain (r : Reader) (x : Char) (c : Cursor) : Except Fault Reader :=
  match x with
  | '\\' => do
    let (a, after) ← Atom.read r.free c
    let e := match a with
      | .literal l => Expr.literal l
      | .assertion a span => .assertion a span
      | .set s => .set s
    return r.push e after
  | '.' => .ok (r.push (.dot c.head) c.next)
  | '^' => .ok (r.push (.assertion .lineStart c.head) c.next)
  | '$' => .ok (r.push (.assertion .lineEnd c.head) c.next)
  | _ => .ok (r.push (.literal ⟨x, false, c.head⟩) c.next)

/-- Read the next part; the pattern is not at its end. -/
def step (r : Reader) (x : Char) (c : Cursor) : Except Fault Reader :=
  match x with
  | '(' => r.openGroup c
  | ')' => r.closeGroup c
  | '|' => .ok { r with cursor := c.next, level := r.level.nextBranch c }
  | '[' => do
    let (s, after) ← SetExpr.read r.free c
    return r.push (.set s) after
  | '?' => r.repeatBySign 0 (some 1) c
  | '*' => r.repeatBySign 0 none c
  | '+' => r.repeatBySign 1 none c
  | '{' => r.repeatByCount c
  | _ => r.readPlain x c

/-- The whole pattern, once its end is reached. -/
def finish (r : Reader) (c : Cursor) : Except Fault Expr :=
  match r.groups with
  | [] => .ok (r.level.close c.place)
  | g :: _ => refuse .groupUnclosed g.span

/-- Read to the end, in at most so many steps. -/
def run : Nat → Reader → Except Fault Expr
  | 0, r => r.finish r.cursor
  | steps + 1, r => do
    let c := r.cursor.skip r.free
    match c.rest with
    | [] => r.finish c
    | x :: _ => run steps (← r.step x c)

end Reader

/-- The pattern that a text spells. Each step reads a character. -/
def Expr.read (pattern : List Char) : Except Fault Expr := do
  let e ← Reader.run (pattern.length + 1) (.start pattern)
  match e.tooDeep? nestLimit with
  | some span => refuse (.nestedTooDeep nestLimit) span
  | none => return e

end LineCensus.Regex
