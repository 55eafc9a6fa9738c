import LineCensus.Language.Registry
import LineCensus.Proofs.Classify.Stateless

/-!
# `Proofs.Classify.BlockSpan` — from where a block opens to where it closes

A block that opens on a line closes on the same line if its closing text is anywhere on it. Opening and closing
text may share characters there: `/*/` opens a block and closes it (`slashStar_closing_iff`). A block that stays
open makes comments of all lines up to the first that closes it, tags apart.

## Contents
- `slashStar_closing_iff`, the two ways in which a line that opens a block of this form can close it.
- `Markers.HeldBetween`, lines that leave an open block open, and `kinds_of_held`, the kinds of lines behind them.
- `Language.blockComment_span`, for the languages with a block comment.
-/

namespace LineCensus

namespace Language

/-! ## A line that opens a block -/

/-- All block comments have one form. -/
theorem block_eq_slashStar {language : Language} (hlanguage : language ∈ registry) {block : Delimiters}
    (hblock : language.markers.block = some block) : block = slashStar := by
  have hall : ∀ l ∈ registry, ∀ b ∈ l.markers.block, b = slashStar := by decide
  exact hall language hlanguage block hblock

/-- **The closing text on a line that starts with the opening text** stands behind it, or it shares the asterisk
    with it. -/
theorem slashStar_closing_iff {text : List Char} (h : slashStar.opening <+: text) :
    slashStar.closing <:+: text ↔
      slashStar.closing <:+: text.drop slashStar.opening.length ∨ "/*/".toList <+: text := by
  obtain ⟨rest, rfl⟩ := h
  -- three places are left for the closing text: at the slash, at the asterisk, and behind both
  have hslash : ¬['*', '/'] <+: '/' :: '*' :: rest := by
    intro h
    exact absurd (List.cons_prefix_cons.mp h).1 (by decide)
  have hasterisk : ['*', '/'] <+: '*' :: rest ↔ ['/', '*', '/'] <+: '/' :: '*' :: rest := by
    constructor
    · exact fun h => List.cons_prefix_cons.mpr ⟨rfl, h⟩
    · exact fun h => (List.cons_prefix_cons.mp h).2
  show ['*', '/'] <:+: '/' :: '*' :: rest ↔
    ['*', '/'] <:+: rest ∨ ['/', '*', '/'] <+: '/' :: '*' :: rest
  rw [List.infix_cons_iff, or_iff_right hslash, List.infix_cons_iff, hasterisk, or_comm]

end Language

namespace Markers

variable {m : Markers} {block : Delimiters} {lines : List (List Char)} {i j : Nat} {line other : List Char}

theorem opens_iff (hblock : m.block = some block) : m.Opens line ↔ block.opening <+: Text.trim line := by
  unfold Opens
  rw [hblock]
  simp

theorem closes_iff (hblock : m.block = some block) : m.Closes line ↔ block.closing <:+: Text.trim line := by
  unfold Closes
  rw [hblock]
  simp

/-- The kind of a line, by the state after the lines before it. -/
theorem getElem?_kinds (hline : lines[i]? = some line) :
    (m.kinds lines)[i]? = some (m.kindOf (m.finalState (lines.take i)).inBlock line) := by
  rw [kinds_eq_kindsIn, getElem?_kindsIn, hline, Option.map_some, finalState_inBlock]

/-- The flag after a line, by the flag before it. -/
theorem finalState_take_succ (hline : lines[i]? = some line) :
    (m.finalState (lines.take (i + 1))).inBlock
      = m.blockAfter (m.finalState (lines.take i)).inBlock line := by
  obtain ⟨hi, rfl⟩ := List.getElem?_eq_some_iff.mp hline
  rw [finalState_inBlock, finalState_inBlock, List.take_succ_eq_append_getElem hi, blockAfterAll_append]
  rfl

/-! ## The line that opens a block -/

/-- A line that opens a block is a comment. -/
theorem kindOf_of_opens {b : Bool} (htag : ¬m.IsTag line) (hopens : m.Opens line) :
    m.kindOf b line = .comment := by
  unfold kindOf
  rw [if_neg htag, if_pos (Or.inr (Or.inl hopens))]

/-- No block is open after it exactly if it closes the block as well. -/
theorem blockAfter_of_opens {b : Bool} (htag : ¬m.IsTag line) (hopens : m.Opens line) :
    m.blockAfter b line = false ↔ m.Closes line := by
  unfold blockAfter
  rw [if_neg htag]
  simp [hopens]

/-! ## The lines behind it -/

/-- No line strictly between the two places is one that ends a block. -/
def HeldBetween (m : Markers) (lines : List (List Char)) (i j : Nat) : Prop :=
  ∀ k < j, i < k → ∀ held ∈ lines[k]?, ¬m.EndsBlock held

/-- A block is still open at a place if a line before it leaves one open and no line between them ends it. -/
theorem finalState_of_held (hline : lines[i]? = some line) (hleaves : m.LeavesOpen line) (hij : i < j)
    (hj : j ≤ lines.length) (hheld : m.HeldBetween lines i j) :
    (m.finalState (lines.take j)).inBlock = true := by
  rw [finalState_inBlock, blockAfterAll_take m lines hj]
  exact ⟨i, hij, ⟨line, hline, hleaves⟩, hheld⟩

/-- **A line behind it** is a comment unless it is a tag, and the block goes on after it unless it closes it. -/
theorem kinds_of_held (hline : lines[i]? = some line) (hleaves : m.LeavesOpen line) (hij : i < j)
    (hother : lines[j]? = some other) (htag : ¬m.IsTag other) (hheld : m.HeldBetween lines i j) :
    (m.kinds lines)[j]? = some .comment ∧
    ((m.finalState (lines.take (j + 1))).inBlock = false ↔ m.Closes other) := by
  have hj : j ≤ lines.length := Nat.le_of_lt (List.getElem?_eq_some_iff.mp hother).1
  have hopen : (m.finalState (lines.take j)).inBlock = true := finalState_of_held hline hleaves hij hj hheld
  constructor
  · rw [getElem?_kinds hother, hopen, kindOf, if_neg htag, if_pos (Or.inl rfl)]
  · rw [finalState_take_succ hother, hopen, blockAfter, if_neg htag]
    simp

end Markers

namespace Language

/-! ## The languages with a block comment -/

/-- **Where a block comment ends.** Take any language with a block comment, and in any file a line that is no tag
    and starts with the opening text; whether a block is open before it does not matter. The line is a comment. The
    block is closed on it exactly if the closing text occurs anywhere on the line: behind the opening text, or in
    such a way that the line starts with `/*/`. If it does not occur at all, then every line behind it is a comment
    up to the first that closes the block, this one included and tags left aside; up to there the block stays open,
    and there it is closed. -/
theorem blockComment_span {language : Language} (hlanguage : language ∈ registry) {block : Delimiters}
    (hblock : language.markers.block = some block) (lines : List (List Char)) {i : Nat} {line : List Char}
    (hline : lines[i]? = some line) (htag : ¬language.markers.IsTag line)
    (hopens : block.opening <+: Text.trim line) :
    (language.markers.kinds lines)[i]? = some .comment ∧
    ((language.markers.finalState (lines.take (i + 1))).inBlock = false ↔
      block.closing <:+: (Text.trim line).drop block.opening.length ∨ "/*/".toList <+: Text.trim line) ∧
    ((language.markers.finalState (lines.take (i + 1))).inBlock = false ↔
      block.closing <:+: Text.trim line) ∧
    (¬block.closing <:+: Text.trim line →
      ∀ (j : Nat) (other : List Char), i < j → lines[j]? = some other → ¬language.markers.IsTag other →
        (∀ k < j, i < k → ∀ held ∈ lines[k]?,
          ¬language.markers.IsTag held → ¬block.closing <:+: Text.trim held) →
        (language.markers.kinds lines)[j]? = some .comment ∧
        ((language.markers.finalState (lines.take (j + 1))).inBlock = false ↔
          block.closing <:+: Text.trim other)) := by
  have hopen : language.markers.Opens line := (Markers.opens_iff hblock).mpr hopens
  have hclosed : (language.markers.finalState (lines.take (i + 1))).inBlock = false ↔
      block.closing <:+: Text.trim line := by
    rw [Markers.finalState_take_succ hline, Markers.blockAfter_of_opens htag hopen, Markers.closes_iff hblock]
  refine ⟨?_, ?_, hclosed, ?_⟩
  · rw [Markers.getElem?_kinds hline, Markers.kindOf_of_opens htag hopen]
  · rw [hclosed]
    have hform : block = slashStar := block_eq_slashStar hlanguage hblock
    subst hform
    exact slashStar_closing_iff hopens
  · intro hstays j other hij hother hothertag hbetween
    have hleaves : language.markers.LeavesOpen line :=
      ⟨htag, hopen, fun hcloses => hstays ((Markers.closes_iff hblock).mp hcloses)⟩
    have hheld : language.markers.HeldBetween lines i j := by
      rintro k hk hik held hmem ⟨hheldtag, hcloses⟩
      exact hbetween k hk hik held hmem hheldtag ((Markers.closes_iff hblock).mp hcloses)
    rw [← Markers.closes_iff hblock]
    exact Markers.kinds_of_held hline hleaves hij hother hothertag hheld

/-- The two ways to be closed on the line that opens, and a block that stays open behind a tag which holds its
    closing text. -/
theorem blockComment_span_vue :
    (vue.markers.finalState ((["/*/", "x"].map String.toList).take 1)).inBlock = false ∧
    (vue.markers.finalState ((["/**/", "x"].map String.toList).take 1)).inBlock = false ∧
    (vue.markers.kinds (["a", " /* b", "</script> */", "", "c */ d", "e"].map String.toList))[4]?
      = some .comment ∧
    (vue.markers.finalState
      ((["a", " /* b", "</script> */", "", "c */ d", "e"].map String.toList).take 5)).inBlock = false := by
  have hvue : vue ∈ registry := by decide
  have hblock : vue.markers.block = some slashStar := rfl
  obtain ⟨-, hshared, -⟩ := blockComment_span hvue hblock (["/*/", "x"].map String.toList)
    (i := 0) rfl (by decide) (by decide)
  obtain ⟨-, hbehind, -⟩ := blockComment_span hvue hblock (["/**/", "x"].map String.toList)
    (i := 0) rfl (by decide) (by decide)
  obtain ⟨-, -, -, hspan⟩ := blockComment_span hvue hblock
    (["a", " /* b", "</script> */", "", "c */ d", "e"].map String.toList)
    (i := 1) rfl (by decide) (by decide)
  obtain ⟨hcomment, hcloses⟩ := hspan (by decide) 4 _ (by decide) rfl (by decide) (by decide)
  exact ⟨hshared.mpr (Or.inr (by decide)), hbehind.mpr (Or.inl (by decide)), hcomment,
    hcloses.mpr (by decide)⟩

/-- A block may also be closed by a closing text that shares a character with the opening text: `/*/` is closed
    at once, and the line behind it is code. -/
theorem not_closing_behind_opening :
    ¬∀ language ∈ registry, ∀ block ∈ language.markers.block, ∀ (lines : List (List Char)) (i : Nat)
      (line : List Char), lines[i]? = some line → ¬language.markers.IsTag line →
        (language.markers.finalState (lines.take i)).inBlock = false → block.opening <+: Text.trim line →
        ((language.markers.finalState (lines.take (i + 1))).inBlock = false ↔
          block.closing <:+: (Text.trim line).drop block.opening.length) ∧
        (¬block.closing <:+: (Text.trim line).drop block.opening.length →
          ∀ (j : Nat) (other : List Char), i < j → lines[j]? = some other →
            ¬language.markers.IsTag other →
            (∀ k < j, i < k → ∀ held ∈ lines[k]?,
              ¬language.markers.IsTag held → ¬block.closing <:+: Text.trim held) →
            (language.markers.kinds lines)[j]? = some .comment) := by
  intro h
  have hvue : vue ∈ registry := by decide
  obtain ⟨hclosed, hspan⟩ := h vue hvue slashStar rfl (["/*/", "x"].map String.toList) 0 _ rfl
    (by decide) rfl (by decide)
  have hcomment := hspan (by decide) 1 _ (by decide) rfl (by decide) (by decide)
  have hcode : (vue.markers.kinds (["/*/", "x"].map String.toList))[1]? = some .code := by decide
  rw [hcode] at hcomment
  cases hcomment

end Language

end LineCensus
