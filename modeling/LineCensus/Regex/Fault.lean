import LineCensus.Regex.Position
import LineCensus.Text.Pad
import LineCensus.Text.Split

/-!
# `Regex.Fault` — what is wrong in a pattern

## Contents
- `FaultKind` with its wording; `Fault`, a kind with the stretch of the pattern that it is about; `refuse`.
- `Fault.report`, the pattern with the faulty stretches underlined. A pattern of several lines is shown with
  line numbers between two rules.
-/

namespace LineCensus.Regex

/-- What is wrong in a pattern. -/
inductive FaultKind where
  | classEscapeInvalid
  | classRangeInvalid
  | classRangeLiteral
  | classUnclosed
  | decimalEmpty
  | decimalInvalid
  | hexEmpty
  | hexInvalid
  | hexDigitInvalid
  | escapeUnfinished
  | escapeUnrecognized
  | flagDanglingNegation
  | flagDuplicate
  | flagRepeatedNegation
  | flagUnfinished
  | flagUnrecognized
  | groupNameDuplicate
  | groupNameEmpty
  | groupNameInvalid
  | groupNameUnfinished
  | groupUnclosed
  | groupUnopened
  | nestedTooDeep (limit : Nat)
  | countInvalid
  | countEmpty
  | countUnclosed
  | repetitionMissing
  | boundaryUnclosed
  | boundaryUnrecognized
  | boundaryUnfinished
  | propertyInvalid
  | backreference
  | lookAround
  | unicodeNotAllowed
  | invalidUtf8
  | propertyNotFound
  | propertyValueNotFound
  | shorthandNotFound
  | caseNotFound
  deriving DecidableEq, Repr

/-- The wording. -/
def FaultKind.message : FaultKind → String
  | classEscapeInvalid => "invalid escape sequence found in character class"
  | classRangeInvalid => "invalid character class range, the start must be <= the end"
  | classRangeLiteral => "invalid range boundary, must be a literal"
  | classUnclosed => "unclosed character class"
  | decimalEmpty => "decimal literal empty"
  | decimalInvalid => "decimal literal invalid"
  | hexEmpty => "hexadecimal literal empty"
  | hexInvalid => "hexadecimal literal is not a Unicode scalar value"
  | hexDigitInvalid => "invalid hexadecimal digit"
  | escapeUnfinished => "incomplete escape sequence, reached end of pattern prematurely"
  | escapeUnrecognized => "unrecognized escape sequence"
  | flagDanglingNegation => "dangling flag negation operator"
  | flagDuplicate => "duplicate flag"
  | flagRepeatedNegation => "flag negation operator repeated"
  | flagUnfinished => "expected flag but got end of regex"
  | flagUnrecognized => "unrecognized flag"
  | groupNameDuplicate => "duplicate capture group name"
  | groupNameEmpty => "empty capture group name"
  | groupNameInvalid => "invalid capture group character"
  | groupNameUnfinished => "unclosed capture group name"
  | groupUnclosed => "unclosed group"
  | groupUnopened => "unopened group"
  | nestedTooDeep limit =>
    "exceed the maximum number of nested parentheses/brackets (" ++ toString limit ++ ")"
  | countInvalid => "invalid repetition count range, the start must be <= the end"
  | countEmpty => "repetition quantifier expects a valid decimal"
  | countUnclosed => "unclosed counted repetition"
  | repetitionMissing => "repetition operator missing expression"
  | boundaryUnclosed =>
    "special word boundary assertion is either unclosed or contains an invalid character"
  | boundaryUnrecognized =>
    "unrecognized special word boundary assertion, valid choices are: start, end, start-half or end-half"
  | boundaryUnfinished =>
    "found either the beginning of a special word boundary or a bounded repetition on a \\b with an "
      ++ "opening brace, but no closing brace"
  | propertyInvalid => "invalid Unicode character class"
  | backreference => "backreferences are not supported"
  | lookAround => "look-around, including look-ahead and look-behind, is not supported"
  | unicodeNotAllowed => "Unicode not allowed here"
  | invalidUtf8 => "pattern can match invalid UTF-8"
  | propertyNotFound => "Unicode property not found"
  | propertyValueNotFound => "Unicode property value not found"
  | shorthandNotFound =>
    "Unicode-aware Perl class not found (make sure the unicode-perl feature is enabled)"
  | caseNotFound =>
    "Unicode-aware case insensitivity matching is not available (make sure the unicode-case feature is "
      ++ "enabled)"

/-- What is wrong in a pattern, and where. -/
structure Fault where
  kind : FaultKind
  span : Span
  /-- The earlier stretch that the faulty one repeats. -/
  earlier : Option Span
  deriving DecidableEq, Repr

/-- Refuse a pattern for a fault in one stretch. -/
def refuse {α : Type} (kind : FaultKind) (span : Span) : Except Fault α := .error ⟨kind, span, none⟩

/-! ## The report -/

/-- The line without a return at its end. -/
def dropReturn (line : List Char) : List Char :=
  if line.getLast? = some '\r' then line.dropLast else line

/-- The lines among the pieces between line ends. No line follows the last line end. -/
def linesOfPieces : List (List Char) → List (List Char)
  | [] => []
  | [last] => if last.isEmpty then [] else [last]
  | piece :: rest => dropReturn piece :: linesOfPieces rest

/-- Does the stretch begin and end in one line? -/
def Span.oneLine (s : Span) : Bool := s.start.line == s.stop.line

/-- The marks under a line that has been marked up to a column. Every stretch shows, an empty one too. -/
def marks : Nat → List Span → String
  | _, [] => ""
  | done, s :: rest =>
    let width := max 1 (s.stop.column - s.start.column)
    let gap := s.start.column - 1 - done
    Text.repeated ' ' gap ++ Text.repeated '^' width ++ marks (done + gap + width) rest

/-- The width of the line numbers; a pattern of one line has none. -/
def numberWidth (pieces : Nat) : Nat := if pieces ≤ 1 then 0 else (toString pieces).length

/-- The lines with their numbers, from the given one on, and the marks under them. -/
def annotate (width : Nat) (spans : List Span) : Nat → List (List Char) → String
  | _, [] => ""
  | number, line :: rest =>
    let margin := if width = 0 then "    " else Text.padLeft width (toString number) ++ ": "
    let below := spans.filter fun s => s.oneLine && s.start.line == number
    margin ++ String.ofList line ++ "\n"
      ++ (if below.isEmpty then ""
          else Text.repeated ' ' margin.length ++ marks 0 below ++ "\n")
      ++ annotate width spans (number + 1) rest

/-- The note on a stretch of several lines. -/
def Span.note (s : Span) : String :=
  "on line " ++ toString s.start.line ++ " (column " ++ toString s.start.column ++ ") through line "
    ++ toString s.stop.line ++ " (column " ++ toString (s.stop.column - 1) ++ ")"

/-- The report on a fault in a pattern. -/
def Fault.report (f : Fault) (pattern : List Char) : String :=
  let pieces := splitAt (· == '\n') pattern
  let spans := f.earlier.toList ++ [f.span]
  let shown := annotate (numberWidth pieces.length) spans 1 (linesOfPieces pieces)
  let rule := if pieces.length ≤ 1 then "" else Text.repeated '~' 79 ++ "\n"
  let long := spans.filter (!·.oneLine)
  let notes :=
    if pieces.length ≤ 1 ∨ long.isEmpty then ""
    else String.intercalate "\n" (long.map Span.note) ++ "\n"
  "regex parse error:\n" ++ rule ++ shown ++ rule ++ notes ++ "error: " ++ f.kind.message

end LineCensus.Regex
