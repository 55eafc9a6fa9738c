import LineCensus.Proofs.Classify.BlockFlag
import Mathlib.Data.List.Forall2

/-!
# `Proofs.Classify.Concatenation` — a file cut in two

The lines of `xs ++ ys` are classified in one run; `xs` and `ys` apart are two runs, and the second starts
outside every block. So the two readings of `ys` may start from different flags. Whatever the markers are,

* the reading that starts inside a block can only turn empty lines and code into comments (`Absorbs`), and
* both readings carry the same flag from the first line on that settles it (`Settles`).

`classify_append` puts this together for the counts.
-/

namespace LineCensus

/-! ## Kinds that a block absorbs -/

/-- The first kind is what the second becomes inside a block: a tag stays a tag, and any other line either
    keeps its kind or becomes a comment. -/
inductive LineKind.Absorbs : LineKind → LineKind → Prop where
  | same (k : LineKind) : Absorbs k k
  | empty : Absorbs .comment .empty
  | code : Absorbs .comment .code

namespace LineCounts

/-- The lines that fall into none of the three buckets. -/
def unclassified (n : LineCounts) : Nat := n.total - n.classified

/-- Every line is in one bucket or is a tag. -/
theorem ofKinds_total (kinds : List LineKind) :
    (ofKinds kinds).total = (ofKinds kinds).classified + kinds.count .regionTag := by
  induction kinds with
  | nil => rfl
  | cons k rest ih =>
    simp only [ofKinds, classified, List.length_cons] at ih ⊢
    cases k <;> simp <;> omega

theorem ofKinds_unclassified (kinds : List LineKind) :
    (ofKinds kinds).unclassified = kinds.count .regionTag := by
  rw [unclassified, ofKinds_total, Nat.add_sub_cancel_left]

/-- A block moves lines from the other two buckets to the comments, and touches nothing else. -/
theorem ofKinds_absorbs {ks ls : List LineKind} (h : List.Forall₂ LineKind.Absorbs ks ls) :
    ks.count .regionTag = ls.count .regionTag ∧
    (ofKinds ls).comment ≤ (ofKinds ks).comment ∧
    (ofKinds ks).empty ≤ (ofKinds ls).empty ∧
    (ofKinds ks).code ≤ (ofKinds ls).code := by
  induction h with
  | nil => exact ⟨rfl, Nat.le_refl _, Nat.le_refl _, Nat.le_refl _⟩
  | cons hk _ ih =>
    simp only [ofKinds, List.count_cons] at ih ⊢
    obtain ⟨htag, hcomment, hempty, hcode⟩ := ih
    cases hk with
    | same k => exact ⟨by omega, by omega, by omega, by omega⟩
    | empty => simp; omega
    | code => simp; omega

end LineCounts

namespace Markers

variable {m : Markers}

/-! ## Two runs over the same lines -/

/-- The line settles the flag: after it, no block is open because it ends one, or one is open because it
    leaves one open. -/
def Settles (m : Markers) (line : List Char) : Prop := m.EndsBlock line ∨ m.LeavesOpen line

instance : DecidablePred m.Settles := fun _ => instDecidableOr

/-- A block that is open before a line of one run and not of the other only absorbs. -/
theorem kindOf_absorbs {b c : Bool} (hle : c = true → b = true) (line : List Char) :
    (m.kindOf b line).Absorbs (m.kindOf c line) := by
  unfold kindOf
  by_cases ht : m.IsTag line
  · rw [if_pos ht, if_pos ht]
    exact .same _
  · rw [if_neg ht, if_neg ht]
    by_cases hc : c = true ∨ m.Opens line ∨ m.HasLineMarker line
    · rw [if_pos hc, if_pos (hc.imp_left hle)]
      exact .same _
    · rw [if_neg hc]
      by_cases hb : b = true ∨ m.Opens line ∨ m.HasLineMarker line
      · rw [if_pos hb]
        by_cases hn : Text.trim line = []
        · rw [if_pos hn]; exact .empty
        · rw [if_neg hn]; exact .code
      · rw [if_neg hb]
        exact .same _

/-- No line turns the order of the two flags round. -/
theorem blockAfter_mono {b c : Bool} (hle : c = true → b = true) (line : List Char) :
    m.blockAfter c line = true → m.blockAfter b line = true := by
  rw [blockAfter_eq_true_iff, blockAfter_eq_true_iff]
  exact Or.imp_right (And.imp_left hle)

/-- **Line for line, the run that starts inside a block absorbs the other.** -/
theorem kindsIn_absorbs {b c : Bool} (hle : c = true → b = true) (lines : List (List Char)) :
    List.Forall₂ LineKind.Absorbs (m.kindsIn b lines) (m.kindsIn c lines) := by
  -- the invariant is the order of the two flags
  induction lines generalizing b c with
  | nil => exact .nil
  | cons line rest ih => exact .cons (kindOf_absorbs hle line) (ih (blockAfter_mono hle line))

theorem blockAfter_of_settles {line : List Char} (h : m.Settles line) (b c : Bool) :
    m.blockAfter b line = m.blockAfter c line := by
  rw [Bool.eq_iff_iff, blockAfter_eq_true_iff, blockAfter_eq_true_iff]
  rcases h with hends | hleaves
  · simp [hends]
  · simp [hleaves]

/-- **One line that settles the flag is enough**: after it the two runs are in step. -/
theorem blockAfterAll_of_settles {lines : List (List Char)} (h : ∃ line ∈ lines, m.Settles line)
    (b c : Bool) : m.blockAfterAll b lines = m.blockAfterAll c lines := by
  induction lines generalizing b c with
  | nil => obtain ⟨line, hmem, _⟩ := h; exact absurd hmem List.not_mem_nil
  | cons line rest ih =>
    rw [blockAfterAll_cons, blockAfterAll_cons]
    by_cases hs : m.Settles line
    · rw [blockAfter_of_settles hs b c]
    · -- the flags may still differ, and the line that settles them is yet to come
      refine ih ?_ _ _
      obtain ⟨other, hmem, hother⟩ := h
      rcases List.mem_cons.mp hmem with rfl | hrest
      · exact absurd hother hs
      · exact ⟨other, hrest, hother⟩

/-- A place after the first line that settles the flag has such a line before it. -/
theorem exists_settles_take {lines : List (List Char)} {i : Nat} (hi : i ≤ lines.length)
    (hfirst : lines.findIdx (m.Settles ·) < i) : ∃ line ∈ lines.take i, m.Settles line := by
  have hlt : lines.findIdx (m.Settles ·) < lines.length := Nat.lt_of_lt_of_le hfirst hi
  refine ⟨lines[lines.findIdx (m.Settles ·)], ?_, ?_⟩
  · exact List.mem_take_iff_getElem.mpr ⟨_, by omega, rfl⟩
  · simpa using List.findIdx_getElem (w := hlt)

/-! ## The counts of a file cut in two -/

/-- The second part is read with the flag that the first part leaves. -/
theorem classify_append_eq (m : Markers) (xs ys : List (List Char)) :
    m.classify (xs ++ ys)
      = m.classify xs + .ofKinds (m.kindsIn (m.finalState xs).inBlock ys) := by
  rw [classify_eq_ofKinds, kindsIn_append, LineCounts.ofKinds_append, ← classify_eq_ofKinds,
    finalState_inBlock]

/-- Both readings of the second part have the same kinds after the first line that settles the flag. -/
theorem kinds_append_getElem? (m : Markers) (xs ys : List (List Char)) {i : Nat}
    (hi : i ≤ ys.length) (hfirst : ys.findIdx (m.Settles ·) < i) :
    (m.kinds (xs ++ ys))[xs.length + i]? = (m.kinds ys)[i]? := by
  have hstep : m.blockAfterAll (m.blockAfterAll false xs) (ys.take i)
      = m.blockAfterAll false (ys.take i) :=
    blockAfterAll_of_settles (exists_settles_take hi hfirst) _ _
  have hcut : (m.kinds (xs ++ ys))[xs.length + i]?
      = (m.kindsIn (m.blockAfterAll false xs) ys)[i]? := by
    rw [kinds_eq_kindsIn, kindsIn_append, List.getElem?_append_right (by simp), length_kindsIn,
      Nat.add_sub_cancel_left]
  rw [hcut, kinds_eq_kindsIn, getElem?_kindsIn, getElem?_kindsIn, hstep]

/-- **Cutting a file in two.** The totals and the numbers of lines in no bucket add up. Of the three
    buckets the whole file may have more comments, and fewer empty lines and less code; all add up when
    the first part ends outside every block. When it does not, a line of the second part that has another
    kind in the whole file stands at or before the first line that settles the flag: after that line the
    two readings carry the same flag and give every line the same kind. -/
theorem classify_append (m : Markers) (xs ys : List (List Char)) :
    (m.classify (xs ++ ys)).total = (m.classify xs + m.classify ys).total ∧
    (m.classify (xs ++ ys)).unclassified = (m.classify xs + m.classify ys).unclassified ∧
    (m.classify xs + m.classify ys).comment ≤ (m.classify (xs ++ ys)).comment ∧
    (m.classify (xs ++ ys)).empty ≤ (m.classify xs + m.classify ys).empty ∧
    (m.classify (xs ++ ys)).code ≤ (m.classify xs + m.classify ys).code ∧
    ((m.finalState xs).inBlock = false → m.classify (xs ++ ys) = m.classify xs + m.classify ys) ∧
    ∀ i ≤ ys.length, ys.findIdx (m.Settles ·) < i →
      (m.kinds (xs ++ ys))[xs.length + i]? = (m.kinds ys)[i]? ∧
      (m.finalState (xs ++ ys.take i)).inBlock = (m.finalState (ys.take i)).inBlock := by
  -- the whole file reads `ys` from the flag that `xs` leaves, `classify ys` reads it from `false`
  have habsorbs : List.Forall₂ LineKind.Absorbs (m.kindsIn (m.finalState xs).inBlock ys)
      (m.kindsIn false ys) := kindsIn_absorbs (by simp) ys
  obtain ⟨htag, hcomment, hempty, hcode⟩ := LineCounts.ofKinds_absorbs habsorbs
  have hunclassified : (m.classify (xs ++ ys)).unclassified
      = (m.classify xs + m.classify ys).unclassified := by
    rw [classify_append_eq, classify_eq_ofKinds m xs, classify_eq_ofKinds m ys,
      ← LineCounts.ofKinds_append, ← LineCounts.ofKinds_append, LineCounts.ofKinds_unclassified,
      LineCounts.ofKinds_unclassified, List.count_append, List.count_append, htag]
  rw [← classify_eq_ofKinds] at hcomment hempty hcode
  refine ⟨?_, hunclassified, ?_, ?_, ?_, ?_, ?_⟩
  · rw [classify_append_eq, classify_eq_ofKinds m ys]
    simp [LineCounts.ofKinds]
  · rw [classify_append_eq]; exact Nat.add_le_add_left hcomment _
  · rw [classify_append_eq]; exact Nat.add_le_add_left hempty _
  · rw [classify_append_eq]; exact Nat.add_le_add_left hcode _
  · intro hout
    rw [classify_append_eq, hout, ← classify_eq_ofKinds]
  · intro i hi hfirst
    refine ⟨kinds_append_getElem? m xs ys hi hfirst, ?_⟩
    rw [finalState_inBlock, finalState_inBlock, blockAfterAll_append]
    exact blockAfterAll_of_settles (exists_settles_take hi hfirst) _ _

end Markers

end LineCensus
