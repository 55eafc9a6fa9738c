import LineCensus.Classify
import LineCensus.Proofs.Text.Breaks
import Mathlib.Data.List.Chain

/-!
# `Proofs.Text.Joining` — lines that are written one after another

A text is written from lines by putting a terminator of any kind after each, and the last line may go without one.
It is cut into the lines it was written from, unless two terminators in it make one: a CR, and then the LF that
ends an empty line.

## Contents
- `Terminator`, and `Writing`, lines each with its own; `Writing.text` and `Writing.lines`.
- `Writing.Parted`, no two of its terminators make one. `splitLines_text_of_parted`: then the lines of its text are
  its own; `length_splitLines_text`: else there are fewer.
- `Writing.splitLines_text`.
-/

namespace LineCensus.Text

/-- What ends a line. -/
inductive Terminator where
  | crlf
  | cr
  | lf
  deriving DecidableEq, Repr

def Terminator.text : Terminator → List Char
  | .crlf => ['\r', '\n']
  | .cr => ['\r']
  | .lf => ['\n']

/-- A terminator ends a line in a text too, unless it is a CR and a LF follows. -/
theorem Terminator.endsPiece {t : Terminator} {rest : List Char} (h : t = .cr → rest.head? ≠ some '\n') :
    EndsPiece '\r' '\n' t.text rest := by
  cases t with
  | crlf => exact Or.inl rfl
  | cr => exact Or.inr (Or.inr ⟨rfl, h rfl⟩)
  | lf => exact Or.inr (Or.inl rfl)

/-- How a text is written: lines, each with what ends it, and what stands behind them. -/
structure Writing where
  ended : List (List Char × Terminator)
  last : List Char

namespace Writing

/-- The lines that are written. There is a line without a terminator only if it is not empty. -/
def lines (w : Writing) : List (List Char) :=
  w.ended.map Prod.fst ++ if w.last.isEmpty then [] else [w.last]

def text (w : Writing) : List Char := w.ended.flatMap (fun line => line.1 ++ line.2.text) ++ w.last

/-- No line holds a CR or a LF. -/
def IsPlain (w : Writing) : Prop := ∀ line ∈ w.lines, '\r' ∉ line ∧ '\n' ∉ line

instance : DecidablePred IsPlain := fun w =>
  inferInstanceAs (Decidable (∀ line ∈ w.lines, '\r' ∉ line ∧ '\n' ∉ line))

/-- The terminator of the line and that of the next, which is empty, are read as one. -/
def Fuses (line next : List Char × Terminator) : Prop := line.2 = .cr ∧ next = ([], .lf)

instance (line next : List Char × Terminator) : Decidable (Fuses line next) :=
  inferInstanceAs (Decidable (line.2 = .cr ∧ next = ([], .lf)))

/-- No line that ends with a CR is followed by an empty one that ends with a LF. -/
def Parted (w : Writing) : Prop := w.ended.IsChain fun line next => ¬Fuses line next

instance : DecidablePred Parted := fun w =>
  inferInstanceAs (Decidable (w.ended.IsChain fun line next => ¬Fuses line next))

variable {w : Writing}

/-! ## One line and the rest -/

section

variable {line : List Char} {t : Terminator} {rest : List (List Char × Terminator)} {last : List Char}

theorem lines_cons : (⟨(line, t) :: rest, last⟩ : Writing).lines = line :: (⟨rest, last⟩ : Writing).lines := rfl

theorem text_cons : (⟨(line, t) :: rest, last⟩ : Writing).text
    = line ++ (t.text ++ (⟨rest, last⟩ : Writing).text) := by
  simp only [text, List.flatMap_cons, List.append_assoc]

theorem IsPlain.cons_inv (h : (⟨(line, t) :: rest, last⟩ : Writing).IsPlain) :
    ('\r' ∉ line ∧ '\n' ∉ line) ∧ (⟨rest, last⟩ : Writing).IsPlain := List.forall_mem_cons.mp h

/-- Only an empty line that ends with a LF makes the text start with one. -/
theorem head?_text_eq_lf (h : (⟨rest, last⟩ : Writing).IsPlain) :
    (⟨rest, last⟩ : Writing).text.head? = some '\n' ↔ rest.head? = some ([], .lf) := by
  cases rest with
  | nil =>
    cases last with
    | nil => simp [text]
    | cons c more =>
      have hc : '\n' ∉ c :: more := (h _ (List.mem_singleton.mpr rfl)).2
      have hne : c ≠ '\n' := fun he => hc (he ▸ List.mem_cons_self)
      simp [text, hne]
  | cons next rest =>
    obtain ⟨line, t⟩ := next
    cases line with
    | nil => cases t <;> simp [text_cons, Terminator.text]
    | cons c more =>
      have hc : '\n' ∉ c :: more := h.cons_inv.1.2
      have hne : c ≠ '\n' := fun he => hc (he ▸ List.mem_cons_self)
      simp [text_cons, hne]

end

theorem splitLines_last {last : List Char} (h : (⟨[], last⟩ : Writing).IsPlain) :
    splitLines (⟨[], last⟩ : Writing).text = (⟨[], last⟩ : Writing).lines := by
  cases last with
  | nil => rfl
  | cons c more =>
    obtain ⟨hcr, hlf⟩ := h _ (List.mem_singleton.mpr rfl)
    exact (CutsInto.last (List.cons_ne_nil c more) hcr hlf).splitLines_eq

/-! ## All lines -/

/-- **The lines that a text is cut into are those it was written from**, if no two terminators make one. -/
theorem splitLines_text_of_parted (hplain : w.IsPlain) (hparted : w.Parted) : splitLines w.text = w.lines := by
  obtain ⟨ended, last⟩ := w
  induction ended with
  | nil => exact splitLines_last hplain
  | cons first rest ih =>
    obtain ⟨line, t⟩ := first
    obtain ⟨⟨hcr, hlf⟩, hrest⟩ := hplain.cons_inv
    obtain ⟨hfirst, hmore⟩ := List.isChain_cons.mp hparted
    have hends : EndsPiece '\r' '\n' t.text (⟨rest, last⟩ : Writing).text := by
      refine Terminator.endsPiece fun ht hhead => ?_
      exact hfirst _ ((head?_text_eq_lf hrest).mp hhead) ⟨ht, rfl⟩
    rw [text_cons, lines_cons, splitLines_ended hcr hlf hends, ih hrest hmore]

/-- The LF behind a CR goes to the CR, and with it the empty line that it would have ended. -/
theorem length_splitLines_fused {line : List Char} (hcr : '\r' ∉ line) (hlf : '\n' ∉ line) (more : List Char) :
    (splitLines (line ++ '\r' :: '\n' :: more)).length = (splitLines ('\n' :: more)).length := by
  have hline : splitLines (line ++ (['\r', '\n'] ++ more)) = line :: splitLines more :=
    splitLines_ended hcr hlf (Or.inl rfl)
  have hempty : splitLines ([] ++ (['\n'] ++ more)) = [] :: splitLines more :=
    splitLines_ended List.not_mem_nil List.not_mem_nil (Or.inr (Or.inl rfl))
  exact (congrArg List.length hline).trans (congrArg List.length hempty).symm

/-- **No line is gained**, and if none is lost then no two terminators make one. -/
theorem length_splitLines_text (hplain : w.IsPlain) :
    (splitLines w.text).length ≤ w.lines.length ∧
    ((splitLines w.text).length = w.lines.length → w.Parted) := by
  obtain ⟨ended, last⟩ := w
  induction ended with
  | nil => exact ⟨by rw [splitLines_last hplain], fun _ => List.isChain_nil⟩
  | cons first rest ih =>
    obtain ⟨line, t⟩ := first
    obtain ⟨⟨hcr, hlf⟩, hrest⟩ := hplain.cons_inv
    obtain ⟨hle, hparted⟩ := ih hrest
    rw [text_cons, lines_cons, List.length_cons]
    by_cases hfused : t = .cr ∧ (⟨rest, last⟩ : Writing).text.head? = some '\n'
    · obtain ⟨rfl, hhead⟩ := hfused
      obtain ⟨more, htext⟩ := List.head?_eq_some_iff.mp hhead
      have hsame : (splitLines (line ++ (Terminator.cr.text ++ '\n' :: more))).length
          = (splitLines ('\n' :: more)).length := length_splitLines_fused hcr hlf more
      rw [htext] at hle ⊢
      exact ⟨by omega, fun heq => absurd heq (by omega)⟩
    · -- the line is cut off where it was ended, and what is said of the rest carries over
      have hends : EndsPiece '\r' '\n' t.text (⟨rest, last⟩ : Writing).text :=
        Terminator.endsPiece fun ht hhead => hfused ⟨ht, hhead⟩
      rw [splitLines_ended hcr hlf hends, List.length_cons]
      refine ⟨by omega, fun heq => List.isChain_cons.mpr ⟨fun next hnext hfuses => ?_, hparted (by omega)⟩⟩
      obtain ⟨rfl, rfl⟩ := hfuses
      exact hfused ⟨rfl, (head?_text_eq_lf hrest).mpr hnext⟩

/-- **Cutting a text into lines undoes writing it from lines**, whatever terminator each line was given and whether
    the last was given one, exactly if no line that ends with a CR is followed by an empty one that ends with a LF.
    So two texts that are written from the same lines in different ways have the same counts in every language. -/
theorem splitLines_text (hplain : w.IsPlain) :
    (splitLines w.text = w.lines ↔ w.Parted) ∧
    (w.Parted → ∀ w' : Writing, w'.lines = w.lines → w'.Parted →
      ∀ m : Markers, m.classify (splitLines w'.text) = m.classify (splitLines w.text)) := by
  refine ⟨⟨fun h => (length_splitLines_text hplain).2 (congrArg List.length h),
    splitLines_text_of_parted hplain⟩, fun hparted w' hlines hparted' m => ?_⟩
  have hplain' : w'.IsPlain := by
    unfold IsPlain
    rw [hlines]
    exact hplain
  rw [splitLines_text_of_parted hplain' hparted', hlines, splitLines_text_of_parted hplain hparted]

/-- The lines of a small script, with terminators of all kinds and without a final one. -/
def mixed : Writing :=
  ⟨[("# a".toList, .crlf), ("x = 1".toList, .cr), ([], .crlf), ([], .cr)], "y = 2".toList⟩

/-- The same lines, each ended by a LF. -/
def uniform : Writing := ⟨mixed.lines.map fun line => (line, .lf), []⟩

theorem splitLines_text_mixed :
    mixed.IsPlain ∧ mixed.text = "# a\r\nx = 1\r\r\n\ry = 2".toList ∧ splitLines mixed.text = mixed.lines ∧
    uniform.text = "# a\nx = 1\n\n\ny = 2\n".toList ∧
    (∀ m : Markers, m.classify (splitLines uniform.text) = m.classify (splitLines mixed.text)) := by
  have hplain : mixed.IsPlain := by decide
  have hparted : mixed.Parted := by decide
  obtain ⟨hlines, hcounts⟩ := splitLines_text hplain
  exact ⟨hplain, by decide, hlines.mpr hparted, by decide, hcounts hparted uniform (by decide) (by decide)⟩

/-- An empty line is lost where a LF comes to stand behind a CR. -/
example : splitLines (⟨[("a".toList, .cr), ([], .lf)], "b".toList⟩ : Writing).text = ["a".toList, "b".toList] := by
  decide

end Writing

end LineCensus.Text
