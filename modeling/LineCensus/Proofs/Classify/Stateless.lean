import LineCensus.Proofs.Classify.BlockFlag

/-!
# `Proofs.Classify.Stateless` — the kind of a line without a state

The classifier hands a block flag from line to line. What the flag says before a line can also be read off
the lines themselves: some earlier line left a block open and none in between closed it. `InsideBlock` says
so, `kindAt` gives the kind of a line by it, and `classify_eq_stateless` is the agreement of the two.

The flag needs no history because every line other than a tag sets it, clears it or holds it, whatever it
was before (`insideBlock_succ`).
-/

namespace LineCensus.Markers

variable {m : Markers} {lines : List (List Char)} {i : Nat}

/-- Some line before place `i` leaves a block open, and no line strictly between the two ends it. -/
def InsideBlock (m : Markers) (lines : List (List Char)) (i : Nat) : Prop :=
  ∃ j < i, (∃ line ∈ lines[j]?, m.LeavesOpen line) ∧
    ∀ k < i, j < k → ∀ line ∈ lines[k]?, ¬m.EndsBlock line

instance : Decidable (m.InsideBlock lines i) := Nat.decidableExistsLT i

/-- The kind of the line at place `i`, from the lines alone. -/
def kindAt (m : Markers) (lines : List (List Char)) (i : Nat) (line : List Char) : LineKind :=
  if m.IsTag line then .regionTag
  else if m.InsideBlock lines i ∨ m.Opens line ∨ m.HasLineMarker line then .comment
  else if Text.trim line = [] then .empty
  else .code

/-! ## The flag before a line -/

/-- **One line more.** The next place is inside a block if the line leaves one open, or if this place is
    inside one and the line does not end it. -/
theorem insideBlock_succ {line : List Char} (hline : lines[i]? = some line) :
    m.InsideBlock lines (i + 1) ↔ m.LeavesOpen line ∨ m.InsideBlock lines i ∧ ¬m.EndsBlock line := by
  constructor
  · rintro ⟨j, hj, hopen, hheld⟩
    rcases Nat.lt_succ_iff_lt_or_eq.mp hj with hlt | rfl
    · -- the line at `i` lies between, so it holds the flag
      refine Or.inr ⟨⟨j, hlt, hopen, fun k hk => hheld k (Nat.lt_succ_of_lt hk)⟩, ?_⟩
      exact hheld i (Nat.lt_succ_self i) hlt line hline
    · obtain ⟨other, hother, hleaves⟩ := hopen
      rw [hline] at hother
      cases hother
      exact Or.inl hleaves
  · rintro (hleaves | ⟨⟨j, hj, hopen, hheld⟩, hends⟩)
    · -- no place lies strictly between `i` and `i + 1`
      refine ⟨i, Nat.lt_succ_self i, ⟨line, hline, hleaves⟩, fun k hk hik => ?_⟩
      omega
    · refine ⟨j, Nat.lt_succ_of_lt hj, hopen, fun k hk hjk other hother => ?_⟩
      rcases Nat.lt_succ_iff_lt_or_eq.mp hk with hlt | rfl
      · exact hheld k hlt hjk other hother
      · rw [hline] at hother
        cases hother
        exact hends

/-- The flag before a line says whether the line lies inside a block. -/
theorem blockAfterAll_take (m : Markers) (lines : List (List Char)) (hi : i ≤ lines.length) :
    m.blockAfterAll false (lines.take i) = true ↔ m.InsideBlock lines i := by
  induction i with
  | zero => simp [InsideBlock]
  | succ i ih =>
    have hline : lines[i]? = some lines[i] := List.getElem?_eq_getElem hi
    rw [insideBlock_succ hline, ← ih (Nat.le_of_succ_le hi), List.take_succ_eq_append_getElem hi,
      blockAfterAll_append, blockAfterAll_cons, blockAfterAll_nil, blockAfter_eq_true_iff]

/-! ## Agreement -/

/-- The kind from the flag is the kind from the lines. -/
theorem kindOf_blockAfterAll (line : List Char) (hi : i ≤ lines.length) :
    m.kindOf (m.blockAfterAll false (lines.take i)) line = m.kindAt lines i line := by
  simp only [kindOf, kindAt, blockAfterAll_take m lines hi]

theorem kindsIn_eq_mapIdx (m : Markers) (lines : List (List Char)) :
    m.kindsIn false lines = lines.mapIdx (m.kindAt lines) := by
  refine (List.mapIdx_eq_iff.mpr fun i => ?_).symm
  rw [getElem?_kindsIn]
  cases hline : lines[i]? with
  | none => rfl
  | some line =>
    have hi : i ≤ lines.length := Nat.le_of_lt (List.getElem?_eq_some_iff.mp hline).1
    rw [Option.map_some, Option.map_some, kindOf_blockAfterAll line hi]

/-- **The classifier agrees with a definition that carries no state.** Every line has the kind that
    `kindAt` gives it, all lines count in the total, and every bucket holds the lines of its kind. -/
theorem classify_eq_stateless (m : Markers) (lines : List (List Char)) :
    m.kinds lines = lines.mapIdx (m.kindAt lines) ∧
    m.classify lines =
      { total := lines.length
        empty := (lines.mapIdx (m.kindAt lines)).count .empty
        comment := (lines.mapIdx (m.kindAt lines)).count .comment
        code := (lines.mapIdx (m.kindAt lines)).count .code } := by
  constructor
  · rw [kinds_eq_kindsIn, kindsIn_eq_mapIdx]
  · rw [classify_eq_ofKinds, kindsIn_eq_mapIdx, LineCounts.ofKinds, List.length_mapIdx]

end LineCensus.Markers
