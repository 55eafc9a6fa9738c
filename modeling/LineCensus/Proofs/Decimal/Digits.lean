import LineCensus.Decimal.Fixed
import LineCensus.Decimal.Natural
import LineCensus.Proofs.Text.Words

/-!
# `Proofs.Decimal.Digits` — numbers as words

A number that is printed is a word, and a natural number is read back from its digits.

## Contents
- `isWord_toString`, `ofDigits?_toString` and `number?_toString`, natural numbers; `lacks_toString`, what they do not
  hold.
- `mem_fixed`, the characters of numbers with a fixed number of places; `noBlank_fixed` and `noControl_fixed`.
-/

namespace LineCensus.Decimal

open Text

/-! ## Natural numbers -/

theorem toNat_of_isDigit {c : Char} (h : c.isDigit = true) : 48 ≤ c.toNat ∧ c.toNat ≤ 57 := by
  simp only [Char.isDigit, Bool.and_eq_true, decide_eq_true_eq] at h
  exact h

theorem isBlank_of_isDigit {c : Char} (h : c.isDigit = true) : isBlank c = false := by
  obtain ⟨hlow, hhigh⟩ := toNat_of_isDigit h
  -- the digits lie beyond the second range of blanks and before the third
  have houtside : ∀ r ∈ blankRanges, r.2 < 48 ∨ 57 < r.1 := by decide
  unfold isBlank
  rw [List.any_eq_false]
  intro r hr
  have hr := houtside r hr
  rw [Bool.and_eq_true, decide_eq_true_eq, decide_eq_true_eq]
  omega

theorem toList_toString (n : Nat) : (toString n).toList = Nat.toDigits 10 n := Nat.toList_repr

theorem isDigit_of_mem_toString {n : Nat} {c : Char} (h : c ∈ (toString n).toList) : c.isDigit = true := by
  rw [toList_toString] at h
  exact Nat.isDigit_of_mem_toDigits (by decide) (by decide) h

theorem noBlank_toString (n : Nat) : NoBlank (toString n).toList :=
  fun _ hc => isBlank_of_isDigit (isDigit_of_mem_toString hc)

theorem lacks_toString {c : Char} (h : c.isDigit = false) (n : Nat) : Lacks c (toString n) := by
  intro hmem
  rw [isDigit_of_mem_toString hmem] at h
  cases h

theorem noControl_toString (n : Nat) : NoControl (toString n) := by
  intro c hc
  have hlow := (toNat_of_isDigit (isDigit_of_mem_toString hc)).1
  omega

theorem toString_ne_nil (n : Nat) : (toString n).toList ≠ [] := by
  rw [toList_toString]
  exact Nat.toDigits_ne_nil

theorem isWord_toString (n : Nat) : IsWord (toString n).toList := ⟨toString_ne_nil n, noBlank_toString n⟩

/-- **A number is read back** from its digits. -/
theorem ofDigits?_toString (n : Nat) : ofDigits? (toString n).toList = some n := by
  have hall : (toString n).toList.all Char.isDigit = true :=
    List.all_eq_true.mpr fun _ hc => isDigit_of_mem_toString hc
  have hsome : (toString n).toList.isEmpty = false := List.isEmpty_eq_false_iff.mpr (toString_ne_nil n)
  have hvalue : (toString n).toList.foldl pushDigit 0 = n := by
    rw [toList_toString]
    have hdigits : Nat.ofDigitChars 10 (Nat.toDigits 10 n) 0 = n :=
      Nat.ofDigitChars_toDigits (by decide) (by decide)
    rw [Nat.ofDigitChars_eq_foldl] at hdigits
    exact hdigits
  unfold ofDigits?
  rw [hall, hsome, hvalue]
  rfl

/-- **A number of 64 bits is read back** where a plus sign may stand in front. -/
theorem number?_toString {n : Nat} (h : n < numberLimit) : number? (toString n).toList = some n := by
  have hplus : (toString n).toList.head? ≠ some '+' := by
    intro hhead
    have hdigit := isDigit_of_mem_toString (List.mem_of_mem_head? hhead)
    exact absurd hdigit (by decide)
  unfold number?
  rw [if_neg hplus]
  dsimp only
  rw [ofDigits?_toString]
  dsimp only
  rw [if_pos h]

/-! ## Numbers with places -/

/-- The characters beside digits that such a number is made of. -/
def fixedMarks : String := ".-NaNinf"

/-- The texts beside digits that it is put together from. -/
theorem mem_fixedMarks {word : String} (hword : word ∈ ["", "-", ".", "NaN", "inf"]) {c : Char}
    (h : c ∈ word.toList) : c ∈ fixedMarks.toList := by
  have hall : ∀ word ∈ ["", "-", ".", "NaN", "inf"], word.toList.all fixedMarks.toList.contains = true := by
    decide
  exact List.contains_iff_mem.mp (List.all_eq_true.mp (hall word hword) c h)

theorem mem_fixedNat {places n : Nat} {c : Char} (h : c ∈ (fixedNat places n).toList) :
    c.isDigit = true ∨ c ∈ fixedMarks.toList := by
  unfold fixedNat at h
  split at h
  · exact Or.inl (isDigit_of_mem_toString h)
  · simp only [String.toList_append, String.toList_ofList, List.mem_append] at h
    rcases h with ((hwhole | hpoint) | hzero) | hrest
    · exact Or.inl (isDigit_of_mem_toString hwhole)
    · exact Or.inr (mem_fixedMarks (by decide) hpoint)
    · rw [List.eq_of_mem_replicate hzero]
      exact Or.inl (by decide)
    · exact Or.inl (isDigit_of_mem_toString hrest)

/-- **The characters of a number with a fixed number of places.** -/
theorem mem_fixed {places : Nat} {x : Float} {c : Char} (h : c ∈ (fixed places x).toList) :
    c.isDigit = true ∨ c ∈ fixedMarks.toList := by
  unfold fixed at h
  split at h
  · exact Or.inr (mem_fixedMarks (by decide) h)
  · -- a sign, and then the word for infinity or the digits
    have hsign : (if x.toBits ≥ 0x8000000000000000 then "-" else "") ∈ ["", "-", ".", "NaN", "inf"] := by
      split <;> decide
    simp only at h
    split at h
    · rw [String.toList_append] at h
      rcases List.mem_append.mp h with hfirst | hrest
      · exact Or.inr (mem_fixedMarks hsign hfirst)
      · exact Or.inr (mem_fixedMarks (by decide) hrest)
    · rw [String.toList_append] at h
      rcases List.mem_append.mp h with hfirst | hrest
      · exact Or.inr (mem_fixedMarks hsign hfirst)
      · exact mem_fixedNat hrest

theorem noBlank_fixed (places : Nat) (x : Float) : NoBlank (fixed places x).toList := by
  intro c hc
  rcases mem_fixed hc with hdigit | hmark
  · exact isBlank_of_isDigit hdigit
  · exact (by decide : NoBlank fixedMarks.toList) c hmark

theorem noControl_fixed (places : Nat) (x : Float) : NoControl (fixed places x) := by
  intro c hc
  rcases mem_fixed hc with hdigit | hmark
  · have hlow := (toNat_of_isDigit hdigit).1
    omega
  · exact (by decide : NoControl fixedMarks) c hmark

end LineCensus.Decimal
