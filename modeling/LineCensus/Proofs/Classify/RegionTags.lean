import LineCensus.Proofs.Classify.BlockFlag
import LineCensus.Language.Registry

/-!
# `Proofs.Classify.RegionTags` — region tags do not interfere

A tag changes the regions of the state and may hold the delimiters of a block, yet no other line depends on
it. Two ways to vary the tags of a file are followed through the classifier here:

* tag lines come and go (`DropsTags`), at any place, also inside an open block;
* the pairs of tags are listed in another order, or several times.

`classify_regionTags` says what either does to the counts.
-/

namespace LineCensus.Markers

variable {m : Markers}

/-- `fewer` is `lines` without `n` of its tag lines. Read from right to left, `n` tag lines are inserted. -/
inductive DropsTags (m : Markers) : Nat → List (List Char) → List (List Char) → Prop where
  | nil : DropsTags m 0 [] []
  | keep {n : Nat} {lines fewer : List (List Char)} (line : List Char) :
      DropsTags m n lines fewer → DropsTags m n (line :: lines) (line :: fewer)
  | drop {n : Nat} {lines fewer : List (List Char)} {tag : List Char} :
      m.IsTag tag → DropsTags m n lines fewer → DropsTags m (n + 1) (tag :: lines) fewer

/-! ## Tag lines that come and go -/

/-- A tag counts as a tag and hands the flag on as it is. -/
theorem kindsIn_tag {tag : List Char} (h : m.IsTag tag) (b : Bool) (rest : List (List Char)) :
    m.kindsIn b (tag :: rest) = .regionTag :: m.kindsIn b rest := by
  rw [kindsIn, kindOf, if_pos h, blockAfter, if_pos h]

theorem DropsTags.length {n : Nat} {lines fewer : List (List Char)}
    (h : m.DropsTags n lines fewer) : lines.length = fewer.length + n := by
  induction h with
  | nil => rfl
  | keep line _ ih => rw [List.length_cons, List.length_cons, ih, Nat.add_right_comm]
  | drop _ _ ih => rw [List.length_cons, ih, Nat.add_assoc]

/-- **No other kind notices.** From the same flag on, the lines with and without the tags hold as many
    lines of every kind that is not a tag. -/
theorem DropsTags.count_kindsIn {n : Nat} {lines fewer : List (List Char)}
    (h : m.DropsTags n lines fewer) (b : Bool) {k : LineKind} (hk : k ≠ .regionTag) :
    (m.kindsIn b lines).count k = (m.kindsIn b fewer).count k := by
  induction h generalizing b with
  | nil => rfl
  | keep line _ ih => rw [kindsIn, kindsIn, List.count_cons, List.count_cons, ih]
  | drop htag _ ih => rw [kindsIn_tag htag, List.count_cons_of_ne hk.symm, ih]

/-! ## Pairs that are listed in another way -/

/-- Whether a line is a tag depends on which pairs there are, not on how they are listed. -/
theorem isTag_congr {regions : List Delimiters} (h : ∀ tags, tags ∈ regions ↔ tags ∈ m.regions)
    (line : List Char) : IsTag { m with regions := regions } line ↔ m.IsTag line := by
  unfold IsTag
  constructor
  · rintro ⟨tags, hmem, htag⟩
    exact ⟨tags, (h tags).mp hmem, htag⟩
  · rintro ⟨tags, hmem, htag⟩
    exact ⟨tags, (h tags).mpr hmem, htag⟩

theorem kindsIn_congr {regions : List Delimiters} (h : ∀ tags, tags ∈ regions ↔ tags ∈ m.regions)
    (b : Bool) (lines : List (List Char)) :
    kindsIn { m with regions := regions } b lines = m.kindsIn b lines := by
  induction lines generalizing b with
  | nil => rfl
  | cons line rest ih =>
    have hkind : kindOf { m with regions := regions } b line = m.kindOf b line := by
      simp only [kindOf, isTag_congr h line]
      rfl
    have hafter : blockAfter { m with regions := regions } b line = m.blockAfter b line := by
      simp only [blockAfter, isTag_congr h line]
      rfl
    rw [kindsIn, kindsIn, hkind, hafter, ih]

/-! ## Noninterference -/

/-- **Region tags do not interfere.** Dropping tag lines, or inserting them, wherever they stand and
    whatever else they hold, leaves the three buckets alone and changes the total by their number; and
    listing the same pairs in another order or several times changes no count of any file. -/
theorem classify_regionTags (m : Markers) :
    (∀ (n : Nat) (lines fewer : List (List Char)), m.DropsTags n lines fewer →
      (m.classify lines).empty = (m.classify fewer).empty ∧
      (m.classify lines).comment = (m.classify fewer).comment ∧
      (m.classify lines).code = (m.classify fewer).code ∧
      (m.classify lines).total = (m.classify fewer).total + n) ∧
    ∀ regions : List Delimiters, (∀ tags, tags ∈ regions ↔ tags ∈ m.regions) →
      ∀ lines : List (List Char),
        classify { m with regions := regions } lines = m.classify lines := by
  constructor
  · intro n lines fewer h
    rw [classify_eq_ofKinds, classify_eq_ofKinds]
    refine ⟨h.count_kindsIn false (by simp), h.count_kindsIn false (by simp),
      h.count_kindsIn false (by simp), ?_⟩
    show (m.kindsIn false lines).length = (m.kindsIn false fewer).length + n
    rw [length_kindsIn, length_kindsIn, h.length]
  · intro regions h lines
    rw [classify_eq_ofKinds, kindsIn_congr h, ← classify_eq_ofKinds]

/-- Two tags inside an open block, one of which holds what would close the block; and the pairs of tags
    listed backwards, then once more. -/
theorem classify_regionTags_vue :
    Language.vue.markers.DropsTags 2
        (["/* open", "</script> */", "let a", "<style>", "*/"].map String.toList)
        (["/* open", "let a", "*/"].map String.toList) ∧
    (Language.vue.markers.classify
        (["/* open", "</script> */", "let a", "<style>", "*/"].map String.toList)).comment
      = (Language.vue.markers.classify (["/* open", "let a", "*/"].map String.toList)).comment ∧
    Markers.classify
        { Language.vue.markers with
          regions := Language.vue.markers.regions.reverse ++ Language.vue.markers.regions }
        (["</style>", "b {}", "<script>"].map String.toList)
      = Language.vue.markers.classify (["</style>", "b {}", "<script>"].map String.toList) := by
  have hdrops : Language.vue.markers.DropsTags 2
      (["/* open", "</script> */", "let a", "<style>", "*/"].map String.toList)
      (["/* open", "let a", "*/"].map String.toList) :=
    .keep _ (.drop (by decide) (.keep _ (.drop (by decide) (.keep _ .nil))))
  obtain ⟨hcount, hlisted⟩ := classify_regionTags Language.vue.markers
  exact ⟨hdrops, (hcount _ _ _ hdrops).2.1, hlisted _ (by simp) _⟩

end LineCensus.Markers
