import LineCensus.Regex.Expr

/-!
# `Regex.Escape` — reading what follows a backslash

## Contents
- `Atom`, what a backslash can begin: a character, a condition or a set.
- `Atom.read`, which reads it; before it the readers of hexadecimal numbers, of properties and of the
  conditions on words that are written in braces.
-/

namespace LineCensus.Regex

/-- What a backslash begins. -/
inductive Atom where
  | literal (l : Literal)
  | assertion (a : Assertion) (span : Span)
  | set (s : SetExpr)
  deriving Repr

/-- The stretch of an atom. -/
def Atom.span : Atom → Span
  | literal l => l.span
  | assertion _ s => s
  | set s => s.span

/-! ## Characters by number -/

/-- The value of a hexadecimal digit. -/
def hexValue? (c : Char) : Option Nat :=
  if '0' ≤ c ∧ c ≤ '9' then some (c.toNat - '0'.toNat)
  else if 'a' ≤ c ∧ c ≤ 'f' then some (c.toNat - 'a'.toNat + 10)
  else if 'A' ≤ c ∧ c ≤ 'F' then some (c.toNat - 'A'.toNat + 10)
  else none

/-- The value of hexadecimal digits. -/
def hexNumber (digits : List Char) : Nat :=
  digits.foldl (fun n c => 16 * n + (hexValue? c).getD 0) 0

/-- The character with a number, unless there is none. -/
def scalar? (n : Nat) : Option Char := if n.isValidChar then some (Char.ofNat n) else none

/-- Exactly so many hexadecimal digits, behind those with the value `n`. -/
def readHexDigits (free : Bool) : Nat → Nat → Cursor → Except Fault (Nat × Cursor)
  | 0, n, c => .ok (n, c)
  | count + 1, n, c =>
    match c.rest with
    | [] => refuse .escapeUnfinished c.here
    | x :: _ =>
      match hexValue? x with
      | some d => readHexDigits free count (16 * n + d) (c.advance free)
      | none => refuse .hexDigitInvalid c.head

/-- A character by its number in braces. The cursor is at the brace, the backslash at `start`. -/
def readHexBraces (free : Bool) (start : Position) (c : Cursor) : Except Fault (Atom × Cursor) :=
  let inner := c.next.place
  let (run, close) := (c.advance free).gather free fun x => (hexValue? x).isSome
  match close.rest with
  | [] => refuse .escapeUnfinished (close.since c.place)
  | x :: _ =>
    if x = '}' then
      let after := close.advance free
      if run.isEmpty then refuse .hexEmpty (after.since c.place)
      else match scalar? (hexNumber (run.map (·.1))) with
        | some d => .ok (.literal ⟨d, false, after.since start⟩, after)
        | none => refuse .hexInvalid (close.since inner)
    else refuse .hexDigitInvalid close.head

/-- A character by its number. The cursor is at the letter, which asks for `count` digits unless a brace
    follows; the backslash is at `start`. -/
def readHex (free : Bool) (start : Position) (count : Nat) (c : Cursor) : Except Fault (Atom × Cursor) := do
  let inner := c.advance free
  match inner.rest with
  | [] => refuse .escapeUnfinished inner.here
  | x :: _ =>
    if x = '{' then readHexBraces free start inner
    else
      let (n, after) ← readHexDigits free count 0 inner
      match scalar? n with
      | some d => .ok (.literal ⟨d, count == 2, after.since start⟩, after)
      | none => refuse .hexInvalid (after.since inner.place)

/-! ## Properties -/

/-- A Unicode property. The cursor is at the letter, the backslash at `start`. -/
def readProperty (free : Bool) (start : Position) (c : Cursor) : Except Fault (Atom × Cursor) :=
  let inner := c.advance free
  match inner.rest with
  | [] => refuse .escapeUnfinished inner.here
  | x :: _ =>
    if x = '{' then
      let (run, close) := (inner.advance free).gather free (· != '}')
      if close.atEnd then refuse .escapeUnfinished close.here
      else
        let after := close.next
        .ok (.set (.property (run.map (·.1)) (after.since start)), after)
    else if x = '\\' then refuse .propertyInvalid inner.head
    else
      let after := inner.advance free
      .ok (.set (.property [x] (after.since start)), after)

/-! ## Conditions on words -/

/-- May the character stand in the name of a condition? -/
def isConditionChar (c : Char) : Bool := c.isAlpha || c == '-'

/-- The condition on words with a name. -/
def wordCondition? (name : List Char) : Option Assertion :=
  match String.ofList name with
  | "start" => some .wordStart
  | "end" => some .wordEnd
  | "start-half" => some .wordStartHalf
  | "end-half" => some .wordEndHalf
  | _ => none

/-- The condition that a word boundary names in braces, if it names one. The cursor is after the letter,
    the backslash at `start`. Braces that cannot hold a name are left to be read as a count. -/
def readWordCondition (free : Bool) (start : Position) (c : Cursor) : Except Fault (Atom × Cursor) :=
  match c.rest with
  | '{' :: _ =>
    let inner := c.advance free
    match inner.rest with
    | [] => refuse .boundaryUnfinished (inner.since start)
    | x :: _ =>
      if isConditionChar x then
        let (run, close) := inner.gather free isConditionChar
        if close.rest.head? = some '}' then
          match wordCondition? (run.map (·.1)) with
          | some a => .ok (.assertion a (close.next.since start), close.next)
          | none => refuse .boundaryUnrecognized (close.since inner.place)
        else refuse .boundaryUnclosed (close.since c.place)
      else .ok (.assertion .wordBoundary (c.since start), c)
  | _ => .ok (.assertion .wordBoundary (c.since start), c)

/-! ## Escapes -/

/-- Does a backslash make the character stand for itself? Letters and digits have meanings of their own,
    and so have the angle brackets. -/
def isEscapable (c : Char) : Bool :=
  c.toNat < 0x80 && !c.isAlphanum && c != '<' && c != '>'

/-- The character that a letter stands for. -/
def controlOf? : Char → Option Char
  | 'a' => some '\x07'
  | 'f' => some '\x0c'
  | 't' => some '\t'
  | 'n' => some '\n'
  | 'r' => some '\r'
  | 'v' => some '\x0b'
  | _ => none

/-- The condition that a letter or a bracket stands for. -/
def assertionOf? : Char → Option Assertion
  | 'A' => some .textStart
  | 'z' => some .textEnd
  | 'B' => some .notWordBoundary
  | '<' => some .wordStart
  | '>' => some .wordEnd
  | _ => none

/-- The set that a letter stands for; its capital stands for what is outside the set. -/
def shorthandOf? : Char → Option (Shorthand × Bool)
  | 'd' => some (.digit, false)
  | 's' => some (.space, false)
  | 'w' => some (.word, false)
  | 'D' => some (.digit, true)
  | 'S' => some (.space, true)
  | 'W' => some (.word, true)
  | _ => none

/-- How many hexadecimal digits a letter asks for. -/
def hexDigitsOf? : Char → Option Nat
  | 'x' => some 2
  | 'u' => some 4
  | 'U' => some 8
  | _ => none

/-- What one character means after a backslash at `start`. The cursor is after the character. -/
def readSimple (free : Bool) (start : Position) (x : Char) (c : Cursor) : Except Fault (Atom × Cursor) :=
  let span := c.since start
  if isEscapable x then .ok (.literal ⟨x, false, span⟩, c)
  else if x = 'b' then readWordCondition free start c
  else match controlOf? x, assertionOf? x, shorthandOf? x with
    | some d, _, _ => .ok (.literal ⟨d, false, span⟩, c)
    | _, some a, _ => .ok (.assertion a span, c)
    | _, _, some (kind, negated) => .ok (.set (.shorthand kind negated span), c)
    | none, none, none => refuse .escapeUnrecognized span

/-- What the backslash at the cursor begins, and what follows it. -/
def Atom.read (free : Bool) (c : Cursor) : Except Fault (Atom × Cursor) :=
  let inner := c.next
  match inner.rest with
  | [] => refuse .escapeUnfinished (inner.since c.place)
  | x :: _ =>
    if x.isDigit then refuse .backreference (inner.next.since c.place)
    else if x = 'p' ∨ x = 'P' then readProperty free c.place inner
    else match hexDigitsOf? x with
      | some count => readHex free c.place count inner
      | none => readSimple free c.place x inner.next

end LineCensus.Regex
