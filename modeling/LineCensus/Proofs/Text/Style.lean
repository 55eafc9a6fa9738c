import LineCensus.Proofs.Text.Words
import LineCensus.Text.Style

/-!
# `Proofs.Text.Style` — taking colours out of a text

Colour sequences are taken out of a text from its front. A part of it is done with when the sequences in it are
complete; what follows is then treated as if it stood alone. So the colours can be taken out part by part.

## Contents
- `StripsTo`, a part of a text and what is left of it; `StripsTo.append`.
- `stripsTo_of_lacks`, a part without an escape; `stripsTo_paint`, a painted one; `stripStyle_of_stripsTo`, the
  whole text.
- `Span`, a part in a look or in none; `Span.stripsTo_showAll`, a text of such parts.
-/

namespace LineCensus.Text

/-- The character that a colour sequence begins with. -/
def escape : Char := '\x1b'

/-- Wherever the first text stands, the second is what is left of it when the colour sequences are taken out. -/
def StripsTo (s t : String) : Prop :=
  ∀ rest, stripFrom false (s.toList ++ rest) = t.toList ++ stripFrom false rest

section

variable {s s' t t' : String}

theorem stripStyle_of_stripsTo (h : StripsTo s t) : stripStyle s.toList = t.toList := by
  have hwhole := h []
  rw [List.append_nil] at hwhole
  exact hwhole.trans (List.append_nil _)

theorem StripsTo.append (h : StripsTo s t) (h' : StripsTo s' t') : StripsTo (s ++ s') (t ++ t') := by
  intro rest
  rw [String.toList_append, String.toList_append, List.append_assoc, h, h', List.append_assoc]

/-- Outside a sequence, a character that is no escape is kept. -/
theorem stripFrom_false_cons {c : Char} (h : c ≠ escape) (rest : List Char) :
    stripFrom false (c :: rest) = c :: stripFrom false rest := by
  unfold escape at h
  simp [stripFrom, h]

/-- Inside a sequence, the first `m` ends it. -/
theorem stripFrom_true_append {code : List Char} (h : escape ∉ code) (h' : 'm' ∉ code) (rest : List Char) :
    stripFrom true (code ++ 'm' :: rest) = stripFrom false rest := by
  unfold escape at h
  induction code with
  | nil => simp [stripFrom]
  | cons c more ih =>
    rw [List.mem_cons, not_or] at h h'
    have hc : (c != 'm') = true := bne_iff_ne.mpr (Ne.symm h'.1)
    have hstep : stripFrom true (c :: (more ++ 'm' :: rest)) = stripFrom (c != 'm') (more ++ 'm' :: rest) := by
      simp [stripFrom, Ne.symm h.1]
    rw [List.cons_append, hstep, hc, ih h.2 h'.2]

/-- **A text without an escape** stays as it is. -/
theorem stripsTo_of_lacks (h : Lacks escape s) : StripsTo s s := by
  intro rest
  unfold Lacks at h
  generalize s.toList = cs at h
  induction cs with
  | nil => rfl
  | cons c more ih =>
    rw [List.mem_cons, not_or] at h
    rw [List.cons_append, stripFrom_false_cons (Ne.symm h.1), ih h.2, List.cons_append]

/-- A sequence is taken out, if its parameters hold neither an escape nor its end. -/
theorem stripsTo_sequence {code : String} (h : Lacks escape code) (h' : Lacks 'm' code) :
    StripsTo (sequence code) "" := by
  intro rest
  have hopen : (sequence code).toList ++ rest = '\x1b' :: '[' :: (code.toList ++ 'm' :: rest) := by
    unfold sequence
    simp
  rw [hopen, stripFrom, if_neg Bool.false_ne_true, stripFrom_true_append h h']
  rfl

theorem stripsTo_empty : StripsTo "" "" := fun _ => rfl

/-- Parts one after another are stripped one after another. -/
theorem stripsTo_join {α : Type} {parts : List α} {f g : α → String}
    (h : ∀ part ∈ parts, StripsTo (f part) (g part)) :
    StripsTo (String.join (parts.map f)) (String.join (parts.map g)) := by
  induction parts with
  | nil => exact stripsTo_empty
  | cons part more ih =>
    obtain ⟨hpart, hmore⟩ := List.forall_mem_cons.mp h
    rw [List.map_cons, List.map_cons, String.join_cons, String.join_cons]
    exact hpart.append (ih hmore)

/-- **A painted text** is left without its colours. -/
theorem stripsTo_paint (style : Style) (h : Lacks escape s) : StripsTo (paint true style s) s := by
  have hcodes : ∀ code ∈ style.codes, Lacks escape code ∧ Lacks 'm' code := by
    cases style <;> decide
  have hopen : StripsTo (String.join (style.codes.map sequence)) (String.join (style.codes.map fun _ => "")) :=
    stripsTo_join fun code hcode => stripsTo_sequence (hcodes code hcode).1 (hcodes code hcode).2
  have hclose : StripsTo (sequence "0") "" := stripsTo_sequence (by decide) (by decide)
  have hnone : String.join (style.codes.map fun _ => "") = "" := by
    cases style <;> decide
  have hall := (hopen.append (stripsTo_of_lacks h)).append hclose
  rw [hnone, String.empty_append, String.append_empty] at hall
  exact hall

end

/-! ## Texts with colours -/

/-- A part of a text: in no look, or in one. -/
inductive Span where
  | plain (text : String)
  | painted (style : Style) (text : String)
  deriving DecidableEq, Repr

namespace Span

/-- The text without its look. -/
def text : Span → String
  | plain text => text
  | painted _ text => text

/-- The text in its look, if colours are on. -/
def shown (color : Bool) : Span → String
  | plain text => text
  | painted style text => paint color style text

/-- Parts one after another. -/
def showAll (color : Bool) (spans : List Span) : String := String.join (spans.map (shown color))

theorem showAll_append (color : Bool) (spans spans' : List Span) :
    showAll color (spans ++ spans') = showAll color spans ++ showAll color spans' := by
  rw [showAll, List.map_append, String.join_append]
  rfl

theorem stripsTo_shown {span : Span} (h : Lacks escape span.text) : StripsTo (span.shown true) (span.shown false) := by
  cases span with
  | plain text => exact stripsTo_of_lacks h
  | painted style text => exact stripsTo_paint style h

/-- **Colours are taken out of a text** that is made of such parts. -/
theorem stripsTo_showAll {spans : List Span} (h : ∀ span ∈ spans, NoControl span.text) :
    StripsTo (showAll true spans) (showAll false spans) :=
  stripsTo_join fun span hspan => stripsTo_shown ((h span hspan).lacks (by decide) (by decide))

end Span

end LineCensus.Text
