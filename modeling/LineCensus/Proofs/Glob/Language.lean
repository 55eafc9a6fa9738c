import LineCensus.Proofs.Glob.Search

/-!
# `Proofs.Glob.Language` — the language of a pattern

What the tokens of a pattern stand for can be said as equations, one for each token. `Denotes` satisfies them,
and nothing else does. They tell what a pattern of a single star with characters behind it stands for.

## Contents
- `IsLanguage`, the equations; `isLanguage_denotes` and `IsLanguage.unique`.
- `compile_ending` and `denotes_ending`, a star and characters that stand for themselves.
-/

namespace LineCensus.Glob

/-! ## The language of a pattern -/

/-- The characters that an item of a set holds. -/
def SetItem.Holds (c : Char) : SetItem → Prop
  | .single d => c = d
  | .range first last => first ≤ c ∧ c ≤ last

/-- The texts that the tokens of a pattern stand for, as equations: no tokens stand for the empty text, and the
    first token takes a part of the text off its front. -/
structure IsLanguage (L : List Token → List Char → Prop) : Prop where
  nil (cs : List Char) : L [] cs ↔ cs = []
  literal (c : Char) (ts : List Token) (cs : List Char) :
    L (.literal c :: ts) cs ↔ ∃ rest, cs = c :: rest ∧ L ts rest
  anyChar (ts : List Token) (cs : List Char) : L (.anyChar :: ts) cs ↔ ∃ c rest, cs = c :: rest ∧ L ts rest
  charSet (items : List SetItem) (ts : List Token) (cs : List Char) :
    L (.charSet false items :: ts) cs ↔ ∃ c rest, cs = c :: rest ∧ (∃ item ∈ items, item.Holds c) ∧ L ts rest
  negatedSet (items : List SetItem) (ts : List Token) (cs : List Char) :
    L (.charSet true items :: ts) cs ↔ ∃ c rest, cs = c :: rest ∧ (∀ item ∈ items, ¬item.Holds c) ∧ L ts rest
  anySequence (ts : List Token) (cs : List Char) :
    L (.anySequence :: ts) cs ↔ ∃ part rest, cs = part ++ rest ∧ L ts rest
  /-- Nothing, or a text that ends with a slash, or all that is left if nothing more has to follow. -/
  anyComponents (ts : List Token) (cs : List Char) :
    L (.anyComponents :: ts) cs ↔
      (∃ part rest, cs = part ++ rest ∧ (part = [] ∨ part.getLast? = some '/') ∧ L ts rest) ∨ L ts []

theorem SetItem.holds_iff {c : Char} {item : SetItem} : item.holds c = true ↔ item.Holds c := by
  cases item with
  | single d => exact beq_iff_eq
  | range first last => simp [SetItem.holds, SetItem.Holds]

theorem reached_anywhere_iff {cs place : List Char} :
    Reached (fun _ => true) cs place ↔ ∃ part, cs = part ++ place := by
  constructor
  · rintro (rfl | rfl | ⟨front, c, _, rfl⟩)
    · exact ⟨[], rfl⟩
    · exact ⟨cs, (List.append_nil cs).symm⟩
    · exact ⟨front ++ [c], List.append_cons ..⟩
  · rintro ⟨part, rfl⟩
    rcases List.eq_nil_or_concat part with rfl | ⟨front, c, rfl⟩
    · exact reached_refl _ _
    · exact Or.inr (Or.inr ⟨front, c, rfl, by simp⟩)

theorem reached_slash_iff {cs place : List Char} :
    Reached (· == '/') cs place ↔
      place = [] ∨ ∃ part, cs = part ++ place ∧ (part = [] ∨ part.getLast? = some '/') := by
  constructor
  · rintro (rfl | rfl | ⟨front, c, hc, rfl⟩)
    · exact Or.inr ⟨[], rfl, Or.inl rfl⟩
    · exact Or.inl rfl
    · refine Or.inr ⟨front ++ [c], List.append_cons .., Or.inr ?_⟩
      rw [List.getLast?_concat, eq_of_beq hc]
  · rintro (rfl | ⟨part, rfl, rfl | hlast⟩)
    · exact Or.inr (Or.inl rfl)
    · exact reached_refl _ _
    · obtain ⟨front, rfl⟩ := List.getLast?_eq_some_iff.mp hlast
      exact Or.inr (Or.inr ⟨front, '/', rfl, by simp⟩)

/-- **`Denotes` is the language of patterns.** -/
theorem isLanguage_denotes : IsLanguage Denotes where
  nil _ := denotes_nil
  literal _ _ _ := denotes_literal
  anyChar ts cs := by
    rw [denotes_of_single rfl]
    simp [Token.accepts]
  charSet items ts cs := by
    rw [denotes_of_single rfl]
    simp [Token.accepts, SetItem.holds_iff]
  negatedSet items ts cs := by
    rw [denotes_of_single rfl]
    simp [Token.accepts, ← SetItem.holds_iff]
  anySequence ts cs := by
    have hplaces := @reached_anywhere_iff cs
    rw [denotes_of_isSequence rfl]
    constructor
    · rintro ⟨place, hplace, hrest⟩
      obtain ⟨part, hcut⟩ := hplaces.mp hplace
      exact ⟨part, place, hcut, hrest⟩
    · rintro ⟨part, rest, hcut, hrest⟩
      exact ⟨rest, hplaces.mpr ⟨part, hcut⟩, hrest⟩
  anyComponents ts cs := by
    have hplaces := @reached_slash_iff cs
    rw [denotes_of_isSequence rfl]
    constructor
    · rintro ⟨place, hplace, hrest⟩
      rcases hplaces.mp hplace with rfl | ⟨part, hcut, hpart⟩
      · exact Or.inr hrest
      · exact Or.inl ⟨part, place, hcut, hpart, hrest⟩
    · rintro (⟨part, rest, hcut, hpart, hrest⟩ | hrest)
      · exact ⟨rest, hplaces.mpr (Or.inr ⟨part, hcut, hpart⟩), hrest⟩
      · exact ⟨[], hplaces.mpr (Or.inl rfl), hrest⟩

/-- The equations leave no choice. -/
theorem IsLanguage.unique {L L' : List Token → List Char → Prop} (h : IsLanguage L) (h' : IsLanguage L')
    (ts : List Token) (cs : List Char) : L ts cs ↔ L' ts cs := by
  induction ts generalizing cs with
  | nil => rw [h.nil, h'.nil]
  | cons t ts ih =>
    cases t with
    | literal c => simp only [h.literal, h'.literal, ih]
    | anyChar => simp only [h.anyChar, h'.anyChar, ih]
    | charSet negated items =>
      cases negated with
      | false => simp only [h.charSet, h'.charSet, ih]
      | true => simp only [h.negatedSet, h'.negatedSet, ih]
    | anySequence => simp only [h.anySequence, h'.anySequence, ih]
    | anyComponents => simp only [h.anyComponents, h'.anyComponents, ih]

/-! ## Patterns for endings -/

/-- The characters that stand for something else than themselves. -/
def marks : List Char := ['?', '*', '[']

section

variable {ending cs : List Char}

/-- A character that is no mark stands for itself. -/
theorem compileFrom_literals (h : ∀ c ∈ cs, c ∉ marks) (r : Reading) :
    compileFrom r cs = .ok (r.tokens.reverse ++ cs.map .literal) := by
  induction cs generalizing r with
  | nil => simp [compileFrom]
  | cons c rest ih =>
    obtain ⟨hc, hrest⟩ := List.forall_mem_cons.mp h
    simp only [marks, List.mem_cons, List.not_mem_nil, or_false, not_or] at hc
    have hread : compileFrom r (c :: rest) = compileFrom (r.push (.literal c) 1 c) rest := by
      simp [compileFrom, hc]
    rw [hread, ih hrest]
    simp [Reading.push]

/-- A star and then characters that stand for themselves. -/
theorem compile_ending {e : String} (h : ∀ c ∈ e.toList, c ∉ marks) :
    compile ("*" ++ e) = .ok (.anySequence :: e.toList.map .literal) := by
  have hstar : ∀ rest, e.toList ≠ '*' :: rest := by
    intro rest he
    exact h '*' (he ▸ List.mem_cons_self) (by decide)
  have hread : compileFrom .start ('*' :: e.toList)
      = compileFrom (Reading.start.push .anySequence 1 '*') e.toList := by
    rw [compileFrom]
    · intro rest he
      exact hstar _ he
    · exact hstar
  show compileFrom .start ("*" ++ e).toList = _
  rw [String.toList_append]
  show compileFrom .start ('*' :: e.toList) = _
  rw [hread, compileFrom_literals h]
  rfl

/-- Literal characters stand for one text. -/
theorem denotes_literals : Denotes (ending.map .literal) cs ↔ cs = ending := by
  induction ending generalizing cs with
  | nil => exact denotes_nil
  | cons c rest ih =>
    rw [List.map_cons, denotes_literal]
    simp only [ih, exists_eq_right]

/-- **A star and literal characters** stand for the texts that end with these characters. -/
theorem denotes_ending : Denotes (.anySequence :: ending.map .literal) cs ↔ ending <:+ cs := by
  simp only [isLanguage_denotes.anySequence, denotes_literals, exists_eq_right]
  exact exists_congr fun part => eq_comm

end

end LineCensus.Glob
