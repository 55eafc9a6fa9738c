import LineCensus.Text.Utf8

/-!
# `Text.Plain` — text without the controls of a terminal

A terminal takes some characters of a text for commands: single control characters, and the sequences that
an escape opens. Where nothing is to command the terminal they are left out, one character after another.

## Contents
- `Sequence`, the sequence that has begun, and `Sequence.next?`, where one character more leads.
- `Plainer`, the state of the reader; `Plainer.feed`, one character.
- `plain`, the text that is left.
-/

namespace LineCensus.Text

/-! ## Sequences -/

/-- A sequence that has begun, by what may follow. -/
inductive Sequence where
  /-- After the escape. -/
  | escape
  /-- After the escape and an intermediate character: one final character is to come. -/
  | escapeMore
  /-- A control sequence: parameters, then one final character. -/
  | control
  /-- A device control string before its parameters. -/
  | device
  /-- A device control string in its parameters. -/
  | deviceParameters
  /-- A device control string after its parameters, before the final character. -/
  | deviceMore
  /-- A string that only its terminator ends. -/
  | body
  /-- A command of the operating system: a string that a bell ends as well. -/
  | command
  deriving DecidableEq, Repr

/-- Is the character an escape? -/
def isEscape (c : Char) : Bool := c == '\x1b'

/-- Does the character break off every sequence? -/
def isCancel (c : Char) : Bool := c == '\x18' || c == '\x1a'

/-- Is the character a control character, escape and delete included? -/
def isControl (c : Char) : Bool := c.toNat < 0x20 || c.toNat == 0x7F

/-- Is the character a control character that only moves the place of writing? -/
def isMotion (c : Char) : Bool := c == '\t' || c == '\n' || c == '\x0c' || c == '\r'

/-- Does the character hold the byte that ends a string on terminals of eight bits? -/
def holdsTerminator (c : Char) : Bool := (Utf8.encode [c]).contains 0x9C

namespace Sequence

/-- Where the first character after an escape leads; `none` is the end of the sequence. -/
def afterEscape (c : Char) : Option Sequence :=
  if c.toNat < 0x30 then some escapeMore
  else match c with
    | 'P' => some device
    | 'X' | '^' | '_' => some body
    | '[' => some control
    | ']' => some command
    | _ => none

/-- Where a printable ASCII character leads. -/
def nextPrintable? (s : Sequence) (c : Char) : Option Sequence :=
  let n := c.toNat
  match s with
  | escape => afterEscape c
  | escapeMore => if n < 0x30 then some escapeMore else none
  | control => if n < 0x40 then some control else none
  | device =>
    some (if n < 0x30 then deviceMore else if n < 0x40 then deviceParameters else body)
  | deviceParameters =>
    some (if n < 0x30 then deviceMore else if n < 0x3C then deviceParameters else body)
  | deviceMore => some (if n < 0x30 then deviceMore else body)
  | body => some body
  | command => some command

/-- Where a character leads that neither opens a sequence nor breaks it off. Control characters lead
    nowhere, but for the bell that ends a command; of other characters only their bytes count. -/
def next? (s : Sequence) (c : Char) : Option Sequence :=
  if isControl c then if s = command ∧ c = '\x07' then none else some s
  else if c.toNat < 0x80 then s.nextPrintable? c
  else if s = body ∧ holdsTerminator c then none
  else some s

/-- Is a motion inside the sequence carried out? Strings swallow it. -/
def letsMotionPass : Sequence → Bool
  | escape | escapeMore | control => true
  | _ => false

end Sequence

/-! ## Reading -/

/-- What the reader is in. -/
inductive Plainer where
  /-- Text. -/
  | text
  /-- A sequence. -/
  | inside (s : Sequence)
  /-- Text that a motion has let through in the midst of a sequence. The sequence goes on at the next
      control character. -/
  | interlude (s : Sequence)
  deriving DecidableEq, Repr

namespace Plainer

/-- The reader after a sequence, if that has not ended. -/
def ofSequence? : Option Sequence → Plainer
  | some s => inside s
  | none => text

/-- Take a character that is no text: an escape opens a sequence, wherever it stands. -/
def skip (s : Sequence) (c : Char) : Plainer :=
  if isEscape c then inside .escape
  else if isCancel c then text
  else ofSequence? (s.next? c)

/-- Take one character, and say whether it stays. -/
def feed (p : Plainer) (c : Char) : Plainer × Bool :=
  match p with
  | text =>
    if isEscape c then (inside .escape, false) else (text, !isControl c || isMotion c)
  | inside s =>
    if isMotion c && s.letsMotionPass then (interlude s, true) else (skip s c, false)
  | interlude s =>
    if isMotion c then (interlude s, true)
    else if isControl c then (skip s c, false)
    else (if c.toNat < 0x80 then interlude s else text, true)

/-- The characters that stay. -/
def run (p : Plainer) : List Char → List Char
  | [] => []
  | c :: rest =>
    let (q, stays) := p.feed c
    if stays then c :: q.run rest else q.run rest

end Plainer

/-- The text without control characters and sequences; blanks, tabs and line ends stay. -/
def plain (s : String) : String := String.ofList (Plainer.text.run s.toList)

end LineCensus.Text
