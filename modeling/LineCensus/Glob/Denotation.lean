import LineCensus.Glob

/-!
# `Glob.Denotation` — what a pattern stands for

The texts that tokens stand for, said without a search.

## Contents
- `Glob.Denotes`, a list of tokens and a text that it stands for.
- The two simplest cases as equivalences.
-/

namespace LineCensus.Glob

/-- The text is one that the tokens stand for. -/
inductive Denotes : List Token → List Char → Prop where
  /-- No tokens stand for the empty text. -/
  | nil : Denotes [] []
  /-- A token for one character stands for each that it accepts. -/
  | one {t : Token} {ts : List Token} {c : Char} {cs : List Char} :
      t.accepts c = true → Denotes ts cs → Denotes (t :: ts) (c :: cs)
  /-- Any sequence. -/
  | sequence {ts : List Token} {xs cs : List Char} :
      Denotes ts cs → Denotes (.anySequence :: ts) (xs ++ cs)
  /-- No components. -/
  | noComponents {ts : List Token} {cs : List Char} :
      Denotes ts cs → Denotes (.anyComponents :: ts) cs
  /-- Components, each with the slash after it. -/
  | components {ts : List Token} {xs cs : List Char} :
      Denotes ts cs → Denotes (.anyComponents :: ts) (xs ++ '/' :: cs)
  /-- All that is left, if nothing more has to follow. -/
  | remainder {ts : List Token} {xs : List Char} :
      Denotes ts [] → Denotes (.anyComponents :: ts) xs

/-- No tokens stand for nothing but the empty text. -/
theorem denotes_nil {cs : List Char} : Denotes [] cs ↔ cs = [] := by
  constructor
  · intro h
    cases h
    rfl
  · rintro rfl
    exact .nil

/-- A literal character stands for itself. -/
theorem denotes_literal {c : Char} {ts : List Token} {cs : List Char} :
    Denotes (.literal c :: ts) cs ↔ ∃ rest, cs = c :: rest ∧ Denotes ts rest := by
  constructor
  · intro h
    cases h with
    | one ha hr =>
      refine ⟨_, ?_, hr⟩
      simp only [Token.accepts, beq_iff_eq] at ha
      rw [ha]
  · rintro ⟨rest, rfl, hr⟩
    exact .one (by simp [Token.accepts]) hr

end LineCensus.Glob
