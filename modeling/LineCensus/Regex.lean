import LineCensus.Regex.Meaning
import LineCensus.Regex.Reader
import LineCensus.Regex.Room

/-!
# `Regex` — regular expressions

## Contents
- `Regex.Refusal`, why a text is no usable pattern, with its wording.
- `Regex.compile`, the pattern that a text spells. `Regex.Pattern.occursIn` finds it.
-/

namespace LineCensus.Regex

/-- Why a text is no usable pattern. -/
inductive Refusal where
  /-- The text is faulty. -/
  | fault (pattern : List Char) (f : Fault)
  /-- The automaton of the pattern would be too large. -/
  | tooLarge
  /-- The pattern asks for words in the letters of all scripts. -/
  | noScripts
  deriving DecidableEq, Repr

/-- The wording. -/
def Refusal.message : Refusal → String
  | fault pattern f => f.report pattern
  | tooLarge => "Compiled regex exceeds size limit of " ++ toString roomLimit ++ " bytes."
  | noScripts => "error building NFA"

/-- What a text means as a pattern, its size aside. -/
def meaning (text : List Char) : Except Fault Pattern := do
  let e ← Expr.read text
  let (p, _) ← e.meaning .standard
  return p

/-- The pattern that a text spells. -/
def compile (text : List Char) : Except Refusal Pattern :=
  match meaning text with
  | .error f => .error (.fault text f)
  | .ok p =>
    if roomLimit < p.room true then .error .tooLarge
    else if p.asksForScripts then .error .noScripts
    else if roomLimit < p.room false then .error .tooLarge
    else .ok p

end LineCensus.Regex
