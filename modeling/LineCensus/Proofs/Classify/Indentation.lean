import LineCensus.Language.Registry
import LineCensus.Proofs.Classify.BlockFlag
import LineCensus.Proofs.Text.Trim

/-!
# `Proofs.Classify.Indentation` — blanks around a line

The classifier trims a line before it looks at anything else. So a file and the file of its trimmed lines are
classified alike, step for step (`step_trim`), and two files whose lines differ in the blanks around them are
classified alike because their trimmed lines are the same.

A line counts as empty only if trimming leaves nothing of it, and then it holds nothing but blanks
(`allBlank_of_kindOf`).
-/

namespace LineCensus.Markers

variable {m : Markers}

/-! ## The trimmed lines -/

/-- No branch of a step looks at the blanks around a line. -/
theorem step_trim (m : Markers) (s : State) (line : List Char) :
    m.step s (Text.trim line) = m.step s line := by
  show m.stepTrimmed s (Text.trim (Text.trim line)) = m.stepTrimmed s (Text.trim line)
  rw [Text.trim_trim]

theorem kinds_map_trim (m : Markers) (lines : List (List Char)) :
    m.kinds (lines.map Text.trim) = m.kinds lines := by
  -- the state that a step hands on is the same as well, so the induction is over all states
  suffices h : ∀ s : State, m.kindsFrom s (lines.map Text.trim) = m.kindsFrom s lines from h .start
  induction lines with
  | nil =>
    intro s
    rfl
  | cons line rest ih =>
    intro s
    rw [List.map_cons, kindsFrom, kindsFrom, step_trim, ih]

theorem finalState_map_trim (m : Markers) (lines : List (List Char)) :
    m.finalState (lines.map Text.trim) = m.finalState lines := by
  unfold finalState
  rw [List.foldl_map]
  simp only [step_trim]

theorem classify_map_trim (m : Markers) (lines : List (List Char)) :
    m.classify (lines.map Text.trim) = m.classify lines := by
  rw [classify_eq_foldl_kinds, classify_eq_foldl_kinds, kinds_map_trim]

/-! ## Lines that count as empty -/

/-- Only a line of blanks counts as empty. -/
theorem allBlank_of_kindOf {b : Bool} {line : List Char} (h : m.kindOf b line = .empty) :
    Text.AllBlank line := by
  apply Text.trim_eq_nil_iff.mp
  by_contra hne
  unfold kindOf at h
  rw [if_neg hne] at h
  split at h
  · cases h
  · split at h
    · cases h
    · cases h

/-- So there are at most as many empty lines as lines of blanks. -/
theorem count_empty_kindsIn_le (b : Bool) (lines : List (List Char)) :
    (m.kindsIn b lines).count .empty ≤ lines.countP (Text.AllBlank ·) := by
  induction lines generalizing b with
  | nil => exact Nat.le_refl 0
  | cons line rest ih =>
    rw [kindsIn, List.count_cons, List.countP_cons]
    apply Nat.add_le_add (ih _)
    by_cases hempty : m.kindOf b line = .empty
    · have hblank : Text.AllBlank line := allBlank_of_kindOf hempty
      simp [hempty, hblank]
    · simp [hempty]

/-! ## Indentation -/

/-- **Indentation does not matter.** Put blanks in front of each line of a file and behind it, or take them
    away, for each line as you like: every line keeps its kind, and the file its counts and its last state. The
    same goes for a file and its trimmed lines. And a line that holds any other character, one that merely looks
    like a blank included, is not among the empty ones. -/
theorem classify_indented (m : Markers) (lines : List (List Char)) :
    (∀ padded, List.Forall₂ Text.Pads lines padded →
      m.classify padded = m.classify lines ∧ m.kinds padded = m.kinds lines ∧
      m.finalState padded = m.finalState lines) ∧
    m.classify (lines.map Text.trim) = m.classify lines ∧
    (∀ (i : Nat) (line : List Char), lines[i]? = some line → (∃ c ∈ line, Text.isBlank c = false) →
      (m.kinds lines)[i]? ≠ some LineKind.empty) ∧
    (m.classify lines).empty ≤ lines.countP (Text.AllBlank ·) := by
  refine ⟨?_, classify_map_trim m lines, ?_, ?_⟩
  · intro padded hpads
    have hsame : padded.map Text.trim = lines.map Text.trim := Text.map_trim_eq hpads
    refine ⟨?_, ?_, ?_⟩
    · rw [← classify_map_trim, hsame, classify_map_trim]
    · rw [← kinds_map_trim, hsame, kinds_map_trim]
    · rw [← finalState_map_trim, hsame, finalState_map_trim]
  · intro i line hline hother hempty
    rw [kinds_eq_kindsIn, getElem?_kindsIn, hline, Option.map_some] at hempty
    obtain ⟨c, hc, hvisible⟩ := hother
    rw [allBlank_of_kindOf (Option.some.inj hempty) c hc] at hvisible
    cases hvisible
  · rw [classify_eq_ofKinds]
    exact count_empty_kindsIn_le false lines

/-- A tag behind a no-break space, a block that is closed behind an ideographic space and a line break, and an
    empty line made longer by the next-line character. The byte order mark and the zero-width space are no
    blanks, so the lines that hold nothing else are code. -/
theorem classify_indented_vue :
    List.Forall₂ Text.Pads (["<script>", "/* a", "*/", "", "x"].map String.toList)
      (["\u00A0<script>\t", "/* a\u2028", "\u3000\n*/", "\u0085 \r\n", "x"].map String.toList) ∧
    Language.vue.markers.classify
        (["\u00A0<script>\t", "/* a\u2028", "\u3000\n*/", "\u0085 \r\n", "x"].map String.toList)
      = ⟨5, 1, 2, 1⟩ ∧
    Text.isBlank '\uFEFF' = false ∧ Text.isBlank '\u200B' = false ∧
    (Language.vue.markers.kinds (["\uFEFF", " \u200B", " "].map String.toList))[1]? ≠ some LineKind.empty ∧
    Language.vue.markers.classify (["\uFEFF", " \u200B", " "].map String.toList) = ⟨3, 1, 0, 2⟩ := by
  have hpads : List.Forall₂ Text.Pads (["<script>", "/* a", "*/", "", "x"].map String.toList)
      (["\u00A0<script>\t", "/* a\u2028", "\u3000\n*/", "\u0085 \r\n", "x"].map String.toList) :=
    .cons ⟨['\u00A0'], ['\t'], by decide, by decide, by decide⟩
      (.cons ⟨[], ['\u2028'], by decide, by decide, by decide⟩
        (.cons ⟨['\u3000', '\n'], [], by decide, by decide, by decide⟩
          (.cons ⟨['\u0085', ' '], ['\r', '\n'], by decide, by decide, by decide⟩
            (.cons ⟨[], [], by decide, by decide, by decide⟩ .nil))))
  obtain ⟨hindented, -⟩ :=
    classify_indented Language.vue.markers (["<script>", "/* a", "*/", "", "x"].map String.toList)
  obtain ⟨-, -, hvisible, -⟩ :=
    classify_indented Language.vue.markers (["\uFEFF", " \u200B", " "].map String.toList)
  refine ⟨hpads, ?_, by decide, by decide, ?_, by decide⟩
  · rw [(hindented _ hpads).1]
    decide
  · exact hvisible 1 [' ', '\u200B'] (by decide) ⟨'\u200B', by decide, by decide⟩

end LineCensus.Markers
