import LineCensus.LogRecord
import LineCensus.Regex
import LineCensus.Text.Blank
import LineCensus.Text.Pad
import LineCensus.Text.Plain
import LineCensus.Text.Split
import LineCensus.Text.Style
import LineCensus.Text.Utf8

/-!
# `LogFilter` — which log records are shown, and how

A filter is written as directives between commas, such as `warn` or `linetally::scan=debug`, with a regular
expression after a slash that has to occur in the messages.

## Contents
- `Threshold` and `Directive`, the least level that is shown for a target.
- `LogFilter.parse`, a filter from its text, with complaints about what is wrong in it.
- `LogFilter.shows`, whether a record is shown.
- `LogRecord.render`, the lines of a record.
-/

namespace LineCensus

/-- How grave a record has to be; `none` shows nothing. -/
abbrev Threshold := Option Level

/-- Is a record of the level shown? -/
def Threshold.shows (t : Threshold) (level : Level) : Bool :=
  match t with
  | some least => level.rank ≤ least.rank
  | none => false

/-- The threshold of a word, in any letter case. -/
def Threshold.ofWord? (word : List Char) : Option Threshold :=
  let upper := String.ofList (word.map Char.toUpper)
  if upper = "OFF" then some none
  else (Level.all.find? (·.name == upper)).map some

/-- The threshold for targets that start with a text. -/
structure Directive where
  target : Option (List Char)
  threshold : Threshold
  deriving DecidableEq, Repr

/-- Directives, and a pattern that has to occur in messages. -/
structure LogFilter where
  directives : List Directive
  pattern : Option Regex.Pattern
  deriving DecidableEq, Repr

namespace LogFilter

/-- No directives. -/
def empty : LogFilter := ⟨[], none⟩

/-- What is wrong in the text of a filter. -/
inductive Complaint where
  /-- A part that is no directive. -/
  | invalid (part : List Char)
  /-- More than one slash; nothing of the text is used then. -/
  | tooManySlashes (text : List Char)
  /-- A regular expression that cannot be used. -/
  | invalidPattern (why : Regex.Refusal)
  deriving DecidableEq, Repr

/-- The wording. -/
def Complaint.message : Complaint → String
  | .invalid part => "invalid logging spec '" ++ String.ofList part ++ "'"
  | .tooManySlashes text =>
    "invalid logging spec '" ++ String.ofList text ++ "' (too many '/'s)"
  | .invalidPattern why => "invalid regex filter - " ++ why.message

/-- The directive that a text spells. A bare word that is no level is a target that shows everything, and
    so is a target without a level. -/
def directive? (text : List Char) : Except Complaint Directive :=
  match splitAt (· == '=') text with
  | [word] =>
    match Threshold.ofWord? word with
    | some t => .ok ⟨none, t⟩
    | none => .ok ⟨some word, some .trace⟩
  | [target, word] =>
    let word := Text.trim word
    if word.isEmpty then .ok ⟨some target, some .trace⟩
    else match Threshold.ofWord? word with
      | some t => .ok ⟨some target, t⟩
      | none => .error (.invalid word)
  | _ => .error (.invalid text)

/-- Add a directive, in the place of one for the same target. -/
def insert (directives : List Directive) (d : Directive) : List Directive :=
  if directives.any (·.target == d.target) then
    directives.map fun other => if other.target == d.target then d else other
  else directives ++ [d]

/-- Take one more directive. -/
def take (sofar : LogFilter × List Complaint) (text : List Char) : LogFilter × List Complaint :=
  let text := Text.trim text
  if text.isEmpty then sofar
  else match directive? text with
    | .ok d => ({ sofar.1 with directives := insert sofar.1.directives d }, sofar.2)
    | .error e => (sofar.1, sofar.2 ++ [e])

/-- The directives of a text, and what is wrong in them. -/
def ofDirectives (text : List Char) : LogFilter × List Complaint :=
  (splitAt (· == ',') text).foldl take (empty, [])

/-- The filter with a pattern. One that cannot be used is left out. -/
def withPattern (sofar : LogFilter × List Complaint) (text : List Char) : LogFilter × List Complaint :=
  match Regex.compile text with
  | .ok p => ({ sofar.1 with pattern := some p }, sofar.2)
  | .error why => (sofar.1, sofar.2 ++ [.invalidPattern why])

/-- A filter from its text, and what is wrong in the text. -/
def parse (spec : List Char) : LogFilter × List Complaint :=
  match splitAt (· == '/') spec with
  | [directives] => ofDirectives directives
  | [directives, pattern] => withPattern (ofDirectives directives) pattern
  | _ => (empty, [.tooManySlashes spec])

/-- How specific a directive is. -/
def Directive.weight (d : Directive) : Nat :=
  match d.target with
  | some target => (Utf8.encode target).length
  | none => 0

/-- Of two directives the more specific, and the later one of two that are equally so. -/
def moreSpecific (best : Option Directive) (d : Directive) : Option Directive :=
  match best with
  | none => some d
  | some b => if Directive.weight b ≤ Directive.weight d then some d else some b

/-- The threshold for a target: that of the most specific directive. A filter without directives shows
    errors only. -/
def threshold (f : LogFilter) (target : List Char) : Threshold :=
  if f.directives.isEmpty then some .error
  else
    let applying := f.directives.filter fun d => d.target.all (·.isPrefixOf target)
    match applying.foldl moreSpecific none with
    | some d => d.threshold
    | none => none

/-- Is the record shown? -/
def shows (f : LogFilter) (target : List Char) (r : LogRecord) : Bool :=
  (f.threshold target).shows r.level && f.pattern.all (·.occursIn r.message.toList)

end LogFilter

namespace LogRecord

/-- The message, its lines after the first moved in. -/
def indented (r : LogRecord) : String :=
  String.intercalate "\n    " ((splitAt (· == '\n') r.message.toList).map String.ofList)

/-- The lines of a record. Where colours are off, nothing in them commands the terminal. -/
def render (r : LogRecord) (color : Bool) (target : String) : String :=
  let level := Text.padRight 5 r.level.name
  let lines :=
    Text.paint color .dim "[" ++ (if color then Text.wrap r.level.codes level else level) ++ " "
      ++ target ++ Text.paint color .dim "]" ++ " " ++ r.indented ++ "\n"
  if color then lines else Text.plain lines

end LogRecord

end LineCensus
