import LineCensus.Text.Blank
import Mathlib.Data.List.DropRight

/-!
# `Proofs.Text.Trim` — a text and the blanks around it

Every text is blanks, then a text that neither starts nor ends with a blank, then blanks. Trimming gives the
text in the middle, however the blanks were chosen. So it does not matter which blanks stand around a text,
or how many.

## Contents
- `AllBlank` and `IsTrimmed`, the outer parts and the middle; `Pads line padded`, blanks put around a line.
- `trim_eq`, the middle is what trimming gives; `pads_trim`, there is one for every text.
- `Pads.trim_eq`, `trim_trim` and `trim_eq_nil_iff`, which follow from these two.
-/

namespace LineCensus.Text

/-- All characters are blank. -/
def AllBlank (cs : List Char) : Prop := ∀ c ∈ cs, isBlank c = true

-- over the members of the list, not over all characters
instance : DecidablePred AllBlank := fun cs => List.decidableBAll (isBlank · = true) cs

/-- The text neither starts nor ends with a blank. -/
structure IsTrimmed (cs : List Char) : Prop where
  head : ∀ c ∈ cs.head?, isBlank c = false
  last : ∀ c ∈ cs.getLast?, isBlank c = false

/-- `padded` is the line with some blanks put in front of it and some behind it. -/
def Pads (line padded : List Char) : Prop :=
  ∃ before after, AllBlank before ∧ AllBlank after ∧ padded = before ++ line ++ after

variable {before body after cs line padded : List Char}

theorem AllBlank.append (hb : AllBlank before) (ha : AllBlank after) : AllBlank (before ++ after) := by
  intro c hc
  rcases List.mem_append.mp hc with h | h
  · exact hb c h
  · exact ha c h

/-! ## The two ends -/

theorem trimEnd_eq_rdropWhile (cs : List Char) : trimEnd cs = cs.rdropWhile isBlank := rfl

theorem trimStart_append (hb : AllBlank before) : trimStart (before ++ cs) = trimStart cs :=
  List.dropWhile_append_of_pos hb

theorem trimEnd_append (ha : AllBlank after) : trimEnd (cs ++ after) = trimEnd cs := by
  have hback : ∀ c ∈ after.reverse, isBlank c = true := by
    intro c hc
    exact ha c (List.mem_reverse.mp hc)
  unfold trimEnd
  rw [List.reverse_append, List.dropWhile_append_of_pos hback]

/-- A text that does not start with a blank keeps its start. -/
theorem trimStart_eq_self (h : ∀ c ∈ cs.head?, isBlank c = false) : trimStart cs = cs := by
  cases cs with
  | nil => rfl
  | cons c rest =>
    have hc : isBlank c = false := h c rfl
    exact List.dropWhile_cons_of_neg (by rw [hc]; exact Bool.false_ne_true)

/-- A text that does not end with a blank keeps its end. -/
theorem trimEnd_eq_self (h : ∀ c ∈ cs.getLast?, isBlank c = false) : trimEnd cs = cs := by
  rw [trimEnd_eq_rdropWhile, List.rdropWhile_eq_self_iff]
  intro hne
  rw [h _ (List.getLast?_eq_some_getLast hne)]
  exact Bool.false_ne_true

/-! ## The middle -/

/-- **The middle is what trimming gives**, whatever blanks stand around it. -/
theorem trim_eq (hb : AllBlank before) (hbody : IsTrimmed body) (ha : AllBlank after) :
    trim (before ++ body ++ after) = body := by
  have hstart : trim (before ++ body ++ after) = trimEnd (trimStart (body ++ after)) := by
    show trimEnd (trimStart (before ++ body ++ after)) = _
    rw [List.append_assoc, trimStart_append hb]
  rw [hstart]
  cases hcs : body with
  | nil =>
    -- nothing but blanks is left, and all of them are leading ones
    have hnone : trimStart after = [] := by
      rw [← List.append_nil after, trimStart_append ha]
      rfl
    rw [List.nil_append, hnone]
    rfl
  | cons c rest =>
    rw [← hcs]
    have hhead : ∀ d ∈ (body ++ after).head?, isBlank d = false := by
      intro d hd
      apply hbody.head
      rw [hcs] at hd ⊢
      exact hd
    rw [trimStart_eq_self hhead, trimEnd_append ha, trimEnd_eq_self hbody.last]

/-- **Every text is what trimming gives, with blanks around it.** -/
theorem pads_trim (cs : List Char) : Pads (trim cs) cs := by
  refine ⟨cs.takeWhile isBlank, (trimStart cs).rtakeWhile isBlank, ?_, ?_, ?_⟩
  · intro c hc
    exact List.mem_takeWhile_imp hc
  · intro c hc
    exact List.mem_rtakeWhile_imp hc
  · calc cs = cs.takeWhile isBlank ++ trimStart cs := List.takeWhile_append_dropWhile.symm
      _ = cs.takeWhile isBlank ++ (trim cs ++ (trimStart cs).rtakeWhile isBlank) :=
        congrArg _ List.rdropWhile_append_rtakeWhile.symm
      _ = cs.takeWhile isBlank ++ trim cs ++ (trimStart cs).rtakeWhile isBlank :=
        (List.append_assoc ..).symm

theorem isTrimmed_trim (cs : List Char) : IsTrimmed (trim cs) := by
  constructor
  · intro c hc
    -- what is left of the text starts as the text without its leading blanks does
    obtain ⟨rest, hrest⟩ : trim cs <+: trimStart cs := List.rdropWhile_prefix isBlank (trimStart cs)
    have hhead : (trimStart cs).head? = some c := by
      rw [← hrest, List.head?_append, Option.mem_def.mp hc]
      rfl
    have hstart := List.head?_dropWhile_not isBlank cs
    unfold trimStart at hhead
    rw [hhead] at hstart
    exact hstart
  · intro c hc
    have hne : trim cs ≠ [] := by
      intro hnil
      rw [hnil] at hc
      cases hc
    rw [List.getLast?_eq_some_getLast hne] at hc
    cases hc
    exact Bool.eq_false_iff.mpr (List.rdropWhile_last_not isBlank (trimStart cs) hne)

/-! ## What follows -/

/-- **Blanks around a line do not matter.** -/
theorem Pads.trim_eq (h : Pads line padded) : trim padded = trim line := by
  obtain ⟨before, after, hb, ha, rfl⟩ := h
  obtain ⟨front, back, hf, hk, hline⟩ := pads_trim line
  have hcut : before ++ line ++ after = (before ++ front) ++ trim line ++ (back ++ after) := by
    conv_lhs => rw [hline]
    simp only [List.append_assoc]
  rw [hcut]
  exact Text.trim_eq (hb.append hf) (isTrimmed_trim line) (hk.append ha)

@[simp] theorem trim_trim (cs : List Char) : trim (trim cs) = trim cs := (pads_trim cs).trim_eq.symm

/-- Nothing is left of a text exactly if it is all blank. -/
theorem trim_eq_nil_iff : trim cs = [] ↔ AllBlank cs := by
  constructor
  · intro h
    obtain ⟨before, after, hb, ha, hcs⟩ := pads_trim cs
    rw [h, List.append_nil] at hcs
    rw [hcs]
    exact hb.append ha
  · intro h
    have hpads : Pads [] cs := ⟨cs, [], h, fun _ hc => absurd hc List.not_mem_nil, by simp⟩
    exact hpads.trim_eq

/-- Lines that differ in the blanks around them are the same when trimmed. -/
theorem map_trim_eq {lines others : List (List Char)} (h : List.Forall₂ Pads lines others) :
    others.map trim = lines.map trim := by
  induction h with
  | nil => rfl
  | cons hline _ ih => rw [List.map_cons, List.map_cons, hline.trim_eq, ih]

end LineCensus.Text
