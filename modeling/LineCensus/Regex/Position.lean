import LineCensus.Text.Blank

/-!
# `Regex.Position` — places in a pattern

## Contents
- `Position` and `Span`, in lines and columns.
- `Cursor`, what is left to read of a pattern, and where it begins; ways to move it.
- `Cursor.skip`, which passes over blanks and comments in free spacing.
- `Cursor.gather`, which reads the characters of a kind.
-/

namespace LineCensus.Regex

open Text (isBlank)

/-- A place in a pattern; lines and columns count from one. -/
structure Position where
  line : Nat
  column : Nat
  deriving DecidableEq, Repr

namespace Position

/-- The start of a pattern. -/
def first : Position := ⟨1, 1⟩

/-- The place after a character that stands at this place. -/
def after (p : Position) (c : Char) : Position :=
  if c = '\n' then ⟨p.line + 1, 1⟩ else ⟨p.line, p.column + 1⟩

end Position

/-- A stretch of a pattern, its end not included. -/
structure Span where
  start : Position
  stop : Position
  deriving DecidableEq, Repr

/-- What is left to read, and where it begins. -/
structure Cursor where
  rest : List Char
  place : Position
  deriving DecidableEq, Repr

namespace Cursor

/-- A pattern of which nothing is read. -/
def ofPattern (pattern : List Char) : Cursor := ⟨pattern, .first⟩

/-- Is everything read? -/
def atEnd (c : Cursor) : Bool := c.rest.isEmpty

/-- The place after the next character, or at the end. -/
def next (c : Cursor) : Cursor :=
  match c.rest with
  | [] => c
  | x :: rest => ⟨rest, c.place.after x⟩

/-- The empty stretch at the cursor. -/
def here (c : Cursor) : Span := ⟨c.place, c.place⟩

/-- The stretch of the next character. -/
def head (c : Cursor) : Span := ⟨c.place, c.next.place⟩

/-- The stretch from a place to the cursor. -/
def since (start : Position) (c : Cursor) : Span := ⟨start, c.place⟩

/-- What follows a word, if the word comes next. -/
def drop? : List Char → Cursor → Option Cursor
  | [], c => some c
  | w :: word, c =>
    match c.rest with
    | x :: _ => if x = w then drop? word c.next else none
    | [] => none

/-! ## Free spacing -/

/-- What follows the blanks and the comments. A comment runs from a `#` to the end of its line; `inComment`
    tells that one has begun. -/
def skipFrom (inComment : Bool) : List Char → Position → Cursor
  | [], p => ⟨[], p⟩
  | x :: rest, p =>
    if inComment then skipFrom (x != '\n') rest (p.after x)
    else if isBlank x then skipFrom false rest (p.after x)
    else if x = '#' then skipFrom true rest (p.after x)
    else ⟨x :: rest, p⟩

/-- What follows the blanks and the comments in free spacing; elsewhere they count. -/
def skip (free : Bool) (c : Cursor) : Cursor := if free then skipFrom false c.rest c.place else c

/-- What follows the next character, and what is skipped after it. -/
def advance (free : Bool) (c : Cursor) : Cursor := c.next.skip free

/-- The next character that counts in free spacing. Blanks are passed over, and one `#`; where nothing
    follows that counts, it is simply the next character. -/
def peekFree? (cs : List Char) : Option Char :=
  go false cs <|> cs.head?
where
  /-- The search; `marked` tells that a `#` has been passed over. -/
  go (marked : Bool) : List Char → Option Char
    | [] => none
    | x :: rest =>
      if isBlank x then go marked rest
      else if x = '#' ∧ marked = false then go true rest
      else some x

/-- The character after the next one. -/
def second? (free : Bool) (c : Cursor) : Option Char :=
  match c.rest with
  | [] => none
  | _ :: rest => if free then peekFree? rest else rest.head?

/-- What follows the blanks, comments not passed over. -/
def dropBlanks : Cursor → Cursor
  | ⟨rest, p⟩ => go rest p
where
  /-- The same, in two parts. -/
  go : List Char → Position → Cursor
    | [], p => ⟨[], p⟩
    | x :: rest, p => if isBlank x then go rest (p.after x) else ⟨x :: rest, p⟩

/-! ## Runs of characters -/

/-- The characters of a kind that come next, with their places, and what follows them. In free spacing
    blanks and comments may stand between them. -/
def gatherFrom (free : Bool) (kind : Char → Bool) (inComment : Bool) :
    List Char → Position → List (Char × Position) × Cursor
  | [], p => ([], ⟨[], p⟩)
  | x :: rest, p =>
    if inComment then gatherFrom free kind (x != '\n') rest (p.after x)
    else if free && isBlank x then gatherFrom free kind false rest (p.after x)
    else if free && x == '#' then gatherFrom free kind true rest (p.after x)
    else if kind x then
      let (run, after) := gatherFrom free kind false rest (p.after x)
      ((x, p) :: run, after)
    else ([], ⟨x :: rest, p⟩)

/-- The characters of a kind that come next, with their places, and what follows them. -/
def gather (free : Bool) (kind : Char → Bool) (c : Cursor) : List (Char × Position) × Cursor :=
  gatherFrom free kind false c.rest c.place

end Cursor

end LineCensus.Regex
