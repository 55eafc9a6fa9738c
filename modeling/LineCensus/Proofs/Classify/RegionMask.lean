import LineCensus.Proofs.Classify.BlockFlag

/-!
# `Proofs.Classify.RegionMask` — what the mask of the regions says

The state keeps one bit for each pair of region tags. The bits can be read off the lines that came before: the bit
of a pair is set if the region was entered and not left since. Which pair a line belongs to is decided by the first
pair of which a tag starts the line, so equal tags, empty tags and tags that start with other tags each have one
pair that answers for them.

## Contents
- `IsEventOf`, `EntersRegion`, `LeavesRegion`: the pair that a line belongs to, and what the line does to it;
  `regionEdge?_eq_opens_iff` and `regionEdge?_eq_closes_iff`.
- `step_regions_iff`, what one line does to one bit.
- `InsideRegion`, a region that was entered and not left since; `finalState_regions_iff`, the bit after all lines.
- `State.cross?` and `finalState?`, a run that stops at a shift out of the mask, with `finalState?_eq_some`.
- `finalState_regions`.
-/

namespace LineCensus

/-- A tag of the pair starts the text. -/
def Delimiters.Starts (tags : Delimiters) (text : List Char) : Prop :=
  tags.opening <+: text ∨ tags.closing <+: text

instance (tags : Delimiters) : DecidablePred tags.Starts := fun _ => instDecidableOr

/-- **The edge that is found** is that of the first pair of which a tag starts the text, and it is an opening one if
    the opening tag does. -/
theorem RegionEdge.find?_eq_some_iff {text : List Char} {regions : List Delimiters} {i : Nat} {edge : RegionEdge} :
    find? text regions i = some edge ↔ ∃ pair tags, regions[pair]? = some tags ∧ tags.Starts text ∧
      (∀ earlier ∈ regions.take pair, ¬earlier.Starts text) ∧
      edge = if tags.opening <+: text then .opens (i + pair) else .closes (i + pair) := by
  induction regions generalizing i with
  | nil => simp [find?]
  | cons tags rest ih =>
    by_cases hfirst : tags.Starts text
    · -- no later pair is looked at
      have hfound : find? text (tags :: rest) i = some (if tags.opening <+: text then .opens i else .closes i) := by
        rcases hfirst with ho | hc
        · simp [find?, ho]
        · by_cases ho : tags.opening <+: text <;> simp [find?, ho, hc]
      rw [hfound, Option.some.injEq]
      constructor
      · rintro rfl
        exact ⟨0, tags, rfl, hfirst, List.forall_mem_nil _, rfl⟩
      · rintro ⟨pair, other, hother, _, hearlier, rfl⟩
        cases pair with
        | zero =>
          cases hother
          rfl
        | succ pair => exact absurd hfirst (hearlier tags List.mem_cons_self)
    · have hnext : find? text (tags :: rest) i = find? text rest (i + 1) := by
        obtain ⟨ho, hc⟩ := not_or.mp hfirst
        simp [find?, ho, hc]
      rw [hnext, ih]
      constructor
      · rintro ⟨pair, other, hother, hstarts, hearlier, rfl⟩
        refine ⟨pair + 1, other, hother, hstarts, List.forall_mem_cons.mpr ⟨hfirst, hearlier⟩, ?_⟩
        rw [Nat.add_right_comm, Nat.add_assoc]
      · rintro ⟨pair, other, hother, hstarts, hearlier, rfl⟩
        cases pair with
        | zero =>
          cases hother
          exact absurd hstarts hfirst
        | succ pair =>
          refine ⟨pair, other, hother, hstarts, (List.forall_mem_cons.mp hearlier).2, ?_⟩
          rw [Nat.add_right_comm, Nat.add_assoc]

/-- The number of the pair. -/
def RegionEdge.pair : RegionEdge → Nat
  | opens pair => pair
  | closes pair => pair

namespace State

/-- Enter or leave a region, if the mask has the bit of its pair: a shift by its width or more leaves it. -/
def cross? (s : State) (edge : RegionEdge) : Option State := if edge.pair < 32 then some (s.cross edge) else none

theorem cross_opens_iff {s : State} {pair bit : Nat} (h : pair < 32) :
    (s.cross (.opens pair)).regions.getLsbD bit = true ↔ pair = bit ∨ s.regions.getLsbD bit = true := by
  show (s.regions ||| 1#32 <<< pair).getLsbD bit = true ↔ _
  rw [← BitVec.twoPow_eq, BitVec.getLsbD_or, BitVec.getLsbD_twoPow, decide_eq_true h, Bool.true_and,
    Bool.or_eq_true, decide_eq_true_eq, or_comm]

theorem cross_closes_iff {s : State} {pair bit : Nat} :
    (s.cross (.closes pair)).regions.getLsbD bit = true ↔ s.regions.getLsbD bit = true ∧ pair ≠ bit := by
  show (s.regions &&& ~~~(1#32 <<< pair)).getLsbD bit = true ↔ _
  rw [← BitVec.twoPow_eq, BitVec.getLsbD_and, BitVec.getLsbD_not, BitVec.getLsbD_twoPow, Bool.and_eq_true]
  refine and_congr_right fun hset => ?_
  have hbit : bit < 32 := BitVec.lt_of_getLsbD hset
  rw [decide_eq_true hbit, Bool.true_and, Bool.not_eq_true', Bool.and_eq_false_iff, decide_eq_false_iff_not,
    decide_eq_false_iff_not]
  omega

end State

namespace Markers

variable {m : Markers} {line : List Char} {pair : Nat}

/-! ## The events of a pair -/

/-- The line is an event of the pair with this number: a tag of the pair starts the line, and no tag of an earlier
    pair does. -/
def IsEventOf (m : Markers) (pair : Nat) (line : List Char) : Prop :=
  ∃ tags ∈ m.regions[pair]?, tags.Starts (Text.trim line) ∧
    ∀ earlier ∈ m.regions.take pair, ¬earlier.Starts (Text.trim line)

/-- The line is an event of the pair, and its opening tag starts the line. -/
def EntersRegion (m : Markers) (pair : Nat) (line : List Char) : Prop :=
  m.IsEventOf pair line ∧ ∃ tags ∈ m.regions[pair]?, tags.opening <+: Text.trim line

/-- The line is an event of the pair, and it is only the closing tag that starts the line. -/
def LeavesRegion (m : Markers) (pair : Nat) (line : List Char) : Prop :=
  m.IsEventOf pair line ∧ ¬∃ tags ∈ m.regions[pair]?, tags.opening <+: Text.trim line

instance : Decidable (m.IsEventOf pair line) := Option.decidableExistsMem _
instance : Decidable (m.EntersRegion pair line) := instDecidableAnd
instance : Decidable (m.LeavesRegion pair line) := instDecidableAnd

theorem IsEventOf.lt_length (h : m.IsEventOf pair line) : pair < m.regions.length := by
  obtain ⟨tags, htags, _⟩ := h
  exact (List.getElem?_eq_some_iff.mp htags).1

theorem regionEdge?_eq_opens_iff :
    m.regionEdge? (Text.trim line) = some (.opens pair) ↔ m.EntersRegion pair line := by
  unfold regionEdge? EntersRegion IsEventOf
  rw [RegionEdge.find?_eq_some_iff]
  constructor
  · rintro ⟨other, tags, htags, hstarts, hearlier, hedge⟩
    split at hedge
    · next ho =>
      cases hedge
      rw [Nat.zero_add]
      exact ⟨⟨tags, htags, hstarts, hearlier⟩, tags, htags, ho⟩
    · cases hedge
  · rintro ⟨⟨tags, htags, hstarts, hearlier⟩, other, hother, ho⟩
    cases Option.mem_unique htags hother
    exact ⟨pair, tags, htags, hstarts, hearlier, by rw [if_pos ho, Nat.zero_add]⟩

theorem regionEdge?_eq_closes_iff :
    m.regionEdge? (Text.trim line) = some (.closes pair) ↔ m.LeavesRegion pair line := by
  unfold regionEdge? LeavesRegion IsEventOf
  rw [RegionEdge.find?_eq_some_iff]
  constructor
  · rintro ⟨other, tags, htags, hstarts, hearlier, hedge⟩
    split at hedge
    · cases hedge
    · next ho =>
      cases hedge
      rw [Nat.zero_add]
      refine ⟨⟨tags, htags, hstarts, hearlier⟩, fun ⟨second, hsecond, ho'⟩ => ?_⟩
      cases Option.mem_unique htags hsecond
      exact ho ho'
  · rintro ⟨⟨tags, htags, hstarts, hearlier⟩, hnone⟩
    have ho : ¬tags.opening <+: Text.trim line := fun ho => hnone ⟨tags, htags, ho⟩
    exact ⟨pair, tags, htags, hstarts, hearlier, by rw [if_neg ho, Nat.zero_add]⟩

/-- An event enters the region or leaves it. -/
theorem isEventOf_iff : m.IsEventOf pair line ↔ m.EntersRegion pair line ∨ m.LeavesRegion pair line := by
  unfold EntersRegion LeavesRegion
  rw [← and_or_left, and_iff_left (Classical.em _)]

/-- A line is an event of the pair of the edge that is found. -/
theorem isEventOf_iff_regionEdge? :
    m.IsEventOf pair line ↔ ∃ edge, m.regionEdge? (Text.trim line) = some edge ∧ edge.pair = pair := by
  rw [isEventOf_iff, ← regionEdge?_eq_opens_iff, ← regionEdge?_eq_closes_iff]
  constructor
  · rintro (hopens | hcloses)
    · exact ⟨_, hopens, rfl⟩
    · exact ⟨_, hcloses, rfl⟩
  · rintro ⟨edge, hedge, rfl⟩
    cases edge with
    | opens pair => exact Or.inl hedge
    | closes pair => exact Or.inr hedge

/-- The tags are the events of all pairs. -/
theorem isTag_iff_isEventOf : m.IsTag line ↔ ∃ pair, m.IsEventOf pair line := by
  rw [← not_iff_not, ← regionEdge?_trim_eq_none_iff, not_exists, Option.eq_none_iff_forall_ne_some]
  constructor
  · intro hnone pair hevent
    obtain ⟨edge, hedge, _⟩ := isEventOf_iff_regionEdge?.mp hevent
    exact hnone edge hedge
  · intro hnone edge hedge
    exact hnone edge.pair (isEventOf_iff_regionEdge?.mpr ⟨edge, hedge, rfl⟩)

/-- A line is an event of one pair at most. -/
theorem IsEventOf.unique {other : Nat} (h : m.IsEventOf pair line) (h' : m.IsEventOf other line) : pair = other := by
  obtain ⟨edge, hedge, rfl⟩ := isEventOf_iff_regionEdge?.mp h
  obtain ⟨edge', hedge', rfl⟩ := isEventOf_iff_regionEdge?.mp h'
  rw [hedge] at hedge'
  cases hedge'
  rfl

/-! ## One line -/

theorem step_of_regionEdge? {edge : RegionEdge} (h : m.regionEdge? (Text.trim line) = some edge) (s : State) :
    (m.step s line).2 = s.cross edge := by
  simp only [step, stepTrimmed, h]

/-- **A line that is no tag leaves the mask as it is.** -/
theorem step_regions_of_not_isTag (h : ¬m.IsTag line) (s : State) : (m.step s line).2.regions = s.regions := by
  rw [step_of_not_isTag h]
  split <;> rfl

/-- **What one line does to one bit.** It sets it if it enters the region of the pair, clears it if it leaves that
    region, and holds it otherwise. -/
theorem step_regions_iff (hwidth : m.regions.length ≤ 32) (s : State) (line : List Char) (pair : Nat) :
    (m.step s line).2.regions.getLsbD pair = true ↔
      m.EntersRegion pair line ∨ s.regions.getLsbD pair = true ∧ ¬m.LeavesRegion pair line := by
  cases hedge : m.regionEdge? (Text.trim line) with
  | none =>
    rw [step_regions_of_not_isTag (regionEdge?_trim_eq_none_iff.mp hedge), ← regionEdge?_eq_opens_iff,
      ← regionEdge?_eq_closes_iff, hedge]
    simp
  | some edge =>
    have hevent : m.IsEventOf edge.pair line := isEventOf_iff_regionEdge?.mpr ⟨edge, hedge, rfl⟩
    rw [step_of_regionEdge? hedge, ← regionEdge?_eq_opens_iff, ← regionEdge?_eq_closes_iff, hedge]
    cases edge with
    | opens other =>
      have hinside : other < 32 := Nat.lt_of_lt_of_le hevent.lt_length hwidth
      rw [State.cross_opens_iff hinside]
      simp
    | closes other =>
      rw [State.cross_closes_iff]
      simp

/-! ## Many lines -/

/-- The region of the pair was entered by some line, and no later line left it. -/
def InsideRegion (m : Markers) (pair : Nat) (lines : List (List Char)) : Prop :=
  ∃ before line after, lines = before ++ line :: after ∧ m.EntersRegion pair line ∧
    ∀ later ∈ after, ¬m.LeavesRegion pair later

/-- **One line more.** -/
theorem insideRegion_append_singleton {lines : List (List Char)} :
    m.InsideRegion pair (lines ++ [line]) ↔
      m.EntersRegion pair line ∨ m.InsideRegion pair lines ∧ ¬m.LeavesRegion pair line := by
  constructor
  · rintro ⟨before, entering, after, hlines, henters, hheld⟩
    -- the line that enters is the last one, or the last one stands behind it
    rcases List.eq_nil_or_concat' after with rfl | ⟨after, last, rfl⟩
    · obtain ⟨-, hlast⟩ := List.append_inj' hlines rfl
      cases hlast
      exact Or.inl henters
    · rw [← List.cons_append, ← List.append_assoc] at hlines
      obtain ⟨rfl, hlast⟩ := List.append_inj' hlines rfl
      cases hlast
      obtain ⟨hheld, hlast⟩ := List.forall_mem_append.mp hheld
      exact Or.inr ⟨⟨before, entering, after, rfl, henters, hheld⟩, hlast line (List.mem_singleton_self line)⟩
  · rintro (henters | ⟨⟨before, entering, after, rfl, henters, hheld⟩, hlast⟩)
    · exact ⟨lines, line, [], rfl, henters, nofun⟩
    · refine ⟨before, entering, after ++ [line], by simp, henters, ?_⟩
      exact List.forall_mem_append.mpr ⟨hheld, List.forall_mem_singleton.mpr hlast⟩

/-- **The mask after all lines.** -/
theorem finalState_regions_iff (hwidth : m.regions.length ≤ 32) (lines : List (List Char)) (pair : Nat) :
    (m.finalState lines).regions.getLsbD pair = true ↔ m.InsideRegion pair lines := by
  induction lines using List.reverseRecOn with
  | nil => simp [finalState, State.start, InsideRegion]
  | append_singleton lines line ih =>
    have hlast : m.finalState (lines ++ [line]) = (m.step (m.finalState lines) line).2 := List.foldl_concat ..
    rw [hlast, step_regions_iff hwidth, ih, insideRegion_append_singleton]

theorem InsideRegion.lt_length {lines : List (List Char)} (h : m.InsideRegion pair lines) :
    pair < m.regions.length := by
  obtain ⟨_, _, _, _, henters, _⟩ := h
  exact henters.1.lt_length

/-- The pass that counts ends in this state. -/
theorem foldl_advance_fst (m : Markers) (lines : List (List Char)) :
    (lines.foldl m.advance (.start, 0)).1 = m.finalState lines := by
  induction lines using List.reverseRecOn with
  | nil => rfl
  | append_singleton lines line ih =>
    have hlast : m.finalState (lines ++ [line]) = (m.step (m.finalState lines) line).2 := List.foldl_concat ..
    rw [List.foldl_concat, hlast, ← ih]
    rfl

/-! ## Shifts -/

/-- The state after a line, if the line needs no bit outside the mask. -/
def step? (m : Markers) (s : State) (line : List Char) : Option State :=
  match m.regionEdge? (Text.trim line) with
  | some edge => s.cross? edge
  | none => some (m.step s line).2

/-- The state after the lines of a file, if none of them needs a bit outside the mask. -/
def finalState? (m : Markers) (lines : List (List Char)) : Option State := lines.foldlM m.step? .start

theorem step?_eq_some (hwidth : m.regions.length ≤ 32) (s : State) (line : List Char) :
    m.step? s line = some (m.step s line).2 := by
  unfold step?
  split
  · next edge hedge =>
    have hevent : m.IsEventOf edge.pair line := isEventOf_iff_regionEdge?.mpr ⟨edge, hedge, rfl⟩
    have hinside : edge.pair < 32 := Nat.lt_of_lt_of_le hevent.lt_length hwidth
    rw [State.cross?, if_pos hinside, step_of_regionEdge? hedge]
  · rfl

/-- **No shift leaves the mask.** -/
theorem finalState?_eq_some (hwidth : m.regions.length ≤ 32) (lines : List (List Char)) :
    m.finalState? lines = some (m.finalState lines) := by
  have hstep : m.step? = fun s line => pure (m.step s line).2 :=
    funext fun s => funext fun line => step?_eq_some hwidth s line
  unfold finalState?
  rw [hstep, List.foldlM_pure]
  rfl

/-! ## All together -/

/-- **What the mask says.** Let there be at most 32 pairs of region tags, whatever these are. The pass that counts
    the lines of a file ends with a mask in which the bit of a pair is set exactly if some line entered the region of
    the pair and no later line left it. The bits beyond the pairs are zero. An event of one pair leaves the bits of
    the others alone, and a line that is no event leaves the mask alone, whatever the state was. No line shifts a bit
    out of the mask. -/
theorem finalState_regions (hwidth : m.regions.length ≤ 32) (lines : List (List Char)) :
    (lines.foldl m.advance (.start, 0)).1 = m.finalState lines ∧
    (∀ pair < m.regions.length,
      (m.finalState lines).regions.getLsbD pair = true ↔ m.InsideRegion pair lines) ∧
    (∀ pair ≥ m.regions.length, (m.finalState lines).regions.getLsbD pair = false) ∧
    (∀ (s : State) (line : List Char) (pair : Nat), m.IsEventOf pair line →
      ∀ other ≠ pair, (m.step s line).2.regions.getLsbD other = s.regions.getLsbD other) ∧
    (∀ (s : State) (line : List Char), (∀ pair, ¬m.IsEventOf pair line) → (m.step s line).2.regions = s.regions) ∧
    m.finalState? lines = some (m.finalState lines) := by
  refine ⟨foldl_advance_fst m lines, fun pair _ => finalState_regions_iff hwidth lines pair, fun pair hpair => ?_,
    fun s line pair hevent other hother => ?_, fun s line hnone => ?_, finalState?_eq_some hwidth lines⟩
  · rw [← Bool.not_eq_true, finalState_regions_iff hwidth]
    exact fun hinside => absurd hinside.lt_length (Nat.not_lt.mpr hpair)
  · have hquiet : ¬m.IsEventOf other line := fun h => hother (h.unique hevent)
    rw [isEventOf_iff, not_or] at hquiet
    rw [Bool.eq_iff_iff, step_regions_iff hwidth, or_iff_right hquiet.1, and_iff_left hquiet.2]
  · exact step_regions_of_not_isTag (fun htag => not_exists.mpr hnone (isTag_iff_isEventOf.mp htag)) s

/-- Pairs whose tags start with each other, are equal, or are empty. -/
def overlappingTags : Markers where
  line := []
  block := none
  regions := [.ofStrings "<a>" "</a>", .ofStrings "<a" "<a>", .ofStrings "<" "<", .ofStrings "\x7b" ""]

/-- Each pair is entered once, and then the first and the last one are left. -/
def overlappingLines : List (List Char) := [" <a>", "<ab", "<", "\x7b", "</a>", "x"].map String.toList

theorem finalState_regions_overlappingTags :
    overlappingTags.regions.length ≤ 32 ∧
    (overlappingTags.finalState overlappingLines).regions = 0b0110#32 ∧
    overlappingTags.InsideRegion 2 overlappingLines ∧ ¬overlappingTags.InsideRegion 3 overlappingLines ∧
    overlappingTags.IsEventOf 0 "<a>".toList ∧
    (overlappingTags.step ⟨false, 0b1010#32⟩ "<a>".toList).2.regions.getLsbD 1 = true ∧
    overlappingTags.finalState? overlappingLines = some ⟨false, 0b0110#32⟩ := by
  have hwidth : overlappingTags.regions.length ≤ 32 := by decide
  have hevent : overlappingTags.IsEventOf 0 "<a>".toList := by decide
  have hfinal : overlappingTags.finalState overlappingLines = ⟨false, 0b0110#32⟩ := by decide
  obtain ⟨-, hmask, -, hothers, -, hshifts⟩ := finalState_regions hwidth overlappingLines
  rw [hfinal] at hmask hshifts ⊢
  refine ⟨hwidth, rfl, (hmask 2 (by decide)).mp (by decide), fun hinside => ?_, hevent, ?_, hshifts⟩
  · exact absurd ((hmask 3 (by decide)).mpr hinside) (by decide)
  · exact (hothers ⟨false, 0b1010#32⟩ _ 0 hevent 1 (by decide)).trans (by decide)

/-- An event of a pair beyond the width of the mask would need a bit that it does not have. -/
example : finalState? ⟨[], none, List.replicate 32 (.ofStrings "a" "b") ++ [.ofStrings "<z>" "</z>"]⟩
    ["<z>".toList] = none := by
  decide

end Markers

end LineCensus
