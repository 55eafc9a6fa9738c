import LineCensus.Classify
import Mathlib.Data.List.Infix

/-!
# `Proofs.Classify.BlockFlag` — the classifier seen through its block flag

Of the state that one line hands to the next, the kinds of the lines depend on one bit: whether a block is
open. This module says once what a line does to that bit (`step_kind`, `step_inBlock`) and replaces the
run over states by a run over bits (`kindsFrom_eq_kindsIn`). Every statement about a whole file is proved
about the second run.

## Contents
- **One line.** `IsTag`, `Opens`, `Closes`, `HasLineMarker`: the four things that a trimmed line can say,
  by prefixes and infixes alone; `kindOf` and `blockAfter`, what follows from them.
  `LeavesOpen` and `EndsBlock`, the lines after which the flag is known (`blockAfter_eq_true_iff`).
- **Many lines.** `blockAfterAll` and `kindsIn`, and the place of each line in them.
- **Counts.** `LineCounts.ofKinds`, the counts of a list of kinds, and `classify_eq_ofKinds`.
-/

namespace LineCensus

/-- No edge is found exactly where neither tag of any pair starts the text. -/
theorem RegionEdge.find?_eq_none_iff {text : List Char} {regions : List Delimiters} {i : Nat} :
    find? text regions i = none ↔
      ∀ tags ∈ regions, ¬(tags.opening <+: text ∨ tags.closing <+: text) := by
  induction regions generalizing i with
  | nil => simp [find?]
  | cons tags rest ih =>
    simp only [find?, List.isPrefixOf_iff_prefix, List.forall_mem_cons]
    by_cases ho : tags.opening <+: text
    · simp [ho]
    · by_cases hc : tags.closing <+: text
      · simp [ho, hc]
      · simp [ho, hc, ih]

namespace Markers

variable {m : Markers}

/-! ## What a line says -/

/-- The line starts with a tag of some region. -/
def IsTag (m : Markers) (line : List Char) : Prop :=
  ∃ tags ∈ m.regions, tags.opening <+: Text.trim line ∨ tags.closing <+: Text.trim line

/-- The line starts with what opens a block. -/
def Opens (m : Markers) (line : List Char) : Prop :=
  ∃ block ∈ m.block, block.opening <+: Text.trim line

/-- The line holds what closes a block. -/
def Closes (m : Markers) (line : List Char) : Prop :=
  ∃ block ∈ m.block, block.closing <:+: Text.trim line

/-- The line starts with a marker that makes it a comment by itself. -/
def HasLineMarker (m : Markers) (line : List Char) : Prop :=
  ∃ marker ∈ m.line, marker <+: Text.trim line

instance : DecidablePred m.IsTag := fun _ => List.decidableBEx _ _
instance : DecidablePred m.Opens := fun _ => Option.decidableExistsMem _
instance : DecidablePred m.Closes := fun _ => Option.decidableExistsMem _
instance : DecidablePred m.HasLineMarker := fun _ => List.decidableBEx _ _

/-- The line is no tag, and opens a block that it does not close. -/
def LeavesOpen (m : Markers) (line : List Char) : Prop :=
  ¬m.IsTag line ∧ m.Opens line ∧ ¬m.Closes line

/-- The line is no tag, and holds what closes a block. -/
def EndsBlock (m : Markers) (line : List Char) : Prop := ¬m.IsTag line ∧ m.Closes line

instance : DecidablePred m.LeavesOpen := fun _ => instDecidableAnd
instance : DecidablePred m.EndsBlock := fun _ => instDecidableAnd

/-- The kind of a line, given whether it lies in an open block. -/
def kindOf (m : Markers) (inBlock : Bool) (line : List Char) : LineKind :=
  if m.IsTag line then .regionTag
  else if inBlock ∨ m.Opens line ∨ m.HasLineMarker line then .comment
  else if Text.trim line = [] then .empty
  else .code

/-- Is a block open after the line, given whether one was open before? A tag changes nothing. Any other
    line leaves a block open if there was one or it opens one, unless it closes it. -/
def blockAfter (m : Markers) (inBlock : Bool) (line : List Char) : Bool :=
  if m.IsTag line then inBlock else (inBlock || m.Opens line) && !m.Closes line

/-! ## One step -/

/-- **What a line does to the flag.** It sets it, clears it or holds it, whatever it was before. -/
theorem blockAfter_eq_true_iff {b : Bool} {line : List Char} :
    m.blockAfter b line = true ↔ m.LeavesOpen line ∨ b = true ∧ ¬m.EndsBlock line := by
  unfold blockAfter LeavesOpen EndsBlock
  by_cases ht : m.IsTag line
  · simp [ht]
  · by_cases hc : m.Closes line
    · simp [ht, hc]
    · simp [ht, hc, or_comm]

theorem opensBlock_trim_iff {line : List Char} :
    m.opensBlock (Text.trim line) = true ↔ m.Opens line := by
  obtain ⟨markers, block, regions⟩ := m
  cases block with
  | none => simp [opensBlock, Opens]
  | some block => simp [opensBlock, Opens]

theorem closesBlock_trim_iff {line : List Char} :
    m.closesBlock (Text.trim line) = true ↔ m.Closes line := by
  obtain ⟨markers, block, regions⟩ := m
  cases block with
  | none => simp [closesBlock, Closes]
  | some block => simp [closesBlock, Closes, occursIn_iff_isInfix]

theorem startsComment_trim_iff {line : List Char} :
    m.startsComment (Text.trim line) = true ↔ m.HasLineMarker line := by
  simp [startsComment, HasLineMarker]

theorem regionEdge?_trim_eq_none_iff {line : List Char} :
    m.regionEdge? (Text.trim line) = none ↔ ¬m.IsTag line := by
  unfold regionEdge? IsTag
  rw [RegionEdge.find?_eq_none_iff]
  simp

/-- A tag crosses an edge of some region, and that is all. -/
theorem step_of_isTag {line : List Char} (h : m.IsTag line) (s : State) :
    ∃ edge, m.step s line = (.regionTag, s.cross edge) := by
  have hne : m.regionEdge? (Text.trim line) ≠ none :=
    fun he => regionEdge?_trim_eq_none_iff.mp he h
  obtain ⟨edge, hedge⟩ := Option.ne_none_iff_exists'.mp hne
  exact ⟨edge, by simp only [step, stepTrimmed, hedge]⟩

/-- A line that is no tag goes by the block first, then by its own marker. -/
theorem step_of_not_isTag {line : List Char} (h : ¬m.IsTag line) (s : State) :
    m.step s line =
      if s.inBlock ∨ m.Opens line then (.comment, { s with inBlock := !m.Closes line })
      else (m.kindOf false line, s) := by
  have hedge : m.regionEdge? (Text.trim line) = none := regionEdge?_trim_eq_none_iff.mpr h
  have hcl : m.closesBlock (Text.trim line) = decide (m.Closes line) :=
    Bool.eq_iff_iff.mpr (closesBlock_trim_iff.trans decide_eq_true_iff.symm)
  simp only [step, stepTrimmed, hedge, hcl, opensBlock_trim_iff, startsComment_trim_iff]
  -- an open block and a line that opens one end in the same branch, by two tests
  by_cases hb : s.inBlock = true
  · simp only [hb, if_true, true_or]
  · by_cases ho : m.Opens line
    · simp only [hb, ho, Bool.false_eq_true, if_false, if_true, or_true]
    · simp only [hb, ho, Bool.false_eq_true, if_false, kindOf, h, false_or, List.isEmpty_iff]
      by_cases hl : m.HasLineMarker line
      · simp [hl]
      · by_cases hn : Text.trim line = [] <;> simp [hl, hn]

@[simp] theorem cross_inBlock (s : State) (edge : RegionEdge) :
    (s.cross edge).inBlock = s.inBlock := by
  cases edge <;> rfl

/-- **The kind of a line depends on the block flag alone.** -/
theorem step_kind (m : Markers) (s : State) (line : List Char) :
    (m.step s line).1 = m.kindOf s.inBlock line := by
  by_cases ht : m.IsTag line
  · obtain ⟨edge, hstep⟩ := step_of_isTag ht s
    rw [hstep, kindOf, if_pos ht]
  · rw [step_of_not_isTag ht]
    by_cases hc : s.inBlock = true ∨ m.Opens line
    · have hcomment : s.inBlock = true ∨ m.Opens line ∨ m.HasLineMarker line :=
        or_assoc.mp (Or.inl hc)
      rw [if_pos hc, kindOf, if_neg ht, if_pos hcomment]
    · -- outside a block the kind is the one that the step looked up for the flag `false`
      have hout : s.inBlock = false := Bool.eq_false_iff.mpr (not_or.mp hc).1
      rw [if_neg hc, hout]

/-- **So does the block flag after it.** -/
theorem step_inBlock (m : Markers) (s : State) (line : List Char) :
    (m.step s line).2.inBlock = m.blockAfter s.inBlock line := by
  by_cases ht : m.IsTag line
  · obtain ⟨edge, hstep⟩ := step_of_isTag ht s
    rw [hstep, blockAfter, if_pos ht]
    exact cross_inBlock s edge
  · rw [step_of_not_isTag ht, blockAfter, if_neg ht]
    by_cases hc : s.inBlock = true ∨ m.Opens line
    · have hor : (s.inBlock || decide (m.Opens line)) = true := by simpa using hc
      rw [if_pos hc, hor, Bool.true_and]
    · have hor : (s.inBlock || decide (m.Opens line)) = false := by simpa using hc
      rw [if_neg hc, hor, Bool.false_and]
      exact (Bool.or_eq_false_iff.mp hor).1

/-! ## Many lines -/

/-- Is a block open after the lines, given whether one was open before? -/
def blockAfterAll (m : Markers) (inBlock : Bool) (lines : List (List Char)) : Bool :=
  lines.foldl m.blockAfter inBlock

/-- The kinds of the lines, given whether a block is open before them. -/
def kindsIn (m : Markers) : Bool → List (List Char) → List LineKind
  | _, [] => []
  | inBlock, line :: rest => m.kindOf inBlock line :: kindsIn m (m.blockAfter inBlock line) rest

@[simp] theorem blockAfterAll_nil (b : Bool) : m.blockAfterAll b [] = b := rfl

@[simp] theorem blockAfterAll_cons (b : Bool) (line : List Char) (rest : List (List Char)) :
    m.blockAfterAll b (line :: rest) = m.blockAfterAll (m.blockAfter b line) rest := rfl

@[simp] theorem blockAfterAll_append (b : Bool) (xs ys : List (List Char)) :
    m.blockAfterAll b (xs ++ ys) = m.blockAfterAll (m.blockAfterAll b xs) ys :=
  List.foldl_append

/-- The run over bits gives the kinds that the run over states gives. -/
theorem kindsFrom_eq_kindsIn (m : Markers) (s : State) (lines : List (List Char)) :
    m.kindsFrom s lines = m.kindsIn s.inBlock lines := by
  induction lines generalizing s with
  | nil => rfl
  | cons line rest ih => rw [kindsFrom, kindsIn, step_kind, ih, step_inBlock]

theorem kinds_eq_kindsIn (m : Markers) (lines : List (List Char)) :
    m.kinds lines = m.kindsIn false lines :=
  kindsFrom_eq_kindsIn m .start lines

/-- The run over bits ends with the block flag that the run over states ends with. -/
theorem finalState_inBlock (m : Markers) (lines : List (List Char)) :
    (m.finalState lines).inBlock = m.blockAfterAll false lines := by
  -- the fold starts from any state: only the flag of the state is kept
  suffices h : ∀ s : State, (lines.foldl (fun s line => (m.step s line).2) s).inBlock
      = m.blockAfterAll s.inBlock lines from h .start
  induction lines with
  | nil => exact fun _ => rfl
  | cons line rest ih =>
    intro s
    rw [List.foldl_cons, ih, step_inBlock, blockAfterAll_cons]

@[simp] theorem length_kindsIn (b : Bool) (lines : List (List Char)) :
    (m.kindsIn b lines).length = lines.length := by
  induction lines generalizing b with
  | nil => rfl
  | cons line rest ih => rw [kindsIn, List.length_cons, ih, List.length_cons]

theorem kindsIn_append (b : Bool) (xs ys : List (List Char)) :
    m.kindsIn b (xs ++ ys) = m.kindsIn b xs ++ m.kindsIn (m.blockAfterAll b xs) ys := by
  induction xs generalizing b with
  | nil => rfl
  | cons line rest ih => rw [List.cons_append, kindsIn, ih, kindsIn, List.cons_append, blockAfterAll_cons]

/-- The kind of the line at place `i`, by the block flag after the lines before it. -/
theorem getElem?_kindsIn (b : Bool) (lines : List (List Char)) (i : Nat) :
    (m.kindsIn b lines)[i]? = lines[i]?.map (m.kindOf (m.blockAfterAll b (lines.take i))) := by
  induction lines generalizing b i with
  | nil => simp [kindsIn]
  | cons line rest ih =>
    cases i with
    | zero => simp [kindsIn]
    | succ i => simp [kindsIn, ih]

end Markers

/-! ## Counts -/

/-- The counts of lines of these kinds. -/
def LineCounts.ofKinds (kinds : List LineKind) : LineCounts :=
  ⟨kinds.length, kinds.count .empty, kinds.count .comment, kinds.count .code⟩

namespace LineCounts

theorem add_tick (n : LineCounts) (k : LineKind) (rest : List LineKind) :
    n.tick k + ofKinds rest = n + ofKinds (k :: rest) := by
  cases k <;> ext <;> simp [tick, ofKinds] <;> omega

/-- Counting line by line gives the counts. -/
theorem foldl_tick (n : LineCounts) (kinds : List LineKind) :
    kinds.foldl tick n = n + ofKinds kinds := by
  induction kinds generalizing n with
  | nil => rfl
  | cons k rest ih => rw [List.foldl_cons, ih, add_tick]

theorem ofKinds_append (xs ys : List LineKind) : ofKinds (xs ++ ys) = ofKinds xs + ofKinds ys := by
  ext <;> simp [ofKinds]

end LineCounts

/-- The counts of a file are the counts of the kinds of its lines. -/
theorem Markers.classify_eq_ofKinds (m : Markers) (lines : List (List Char)) :
    m.classify lines = .ofKinds (m.kindsIn false lines) := by
  rw [classify_eq_foldl_kinds, kinds_eq_kindsIn, LineCounts.foldl_tick, LineCounts.zero_add]

end LineCensus
