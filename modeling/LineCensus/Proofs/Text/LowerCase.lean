import LineCensus.Proofs.Text.Utf8
import LineCensus.Text.LowerCase

/-!
# `Proofs.Text.LowerCase` — lower case inside and outside ASCII

Of the runs of the table the first is that of the ASCII capitals. All other runs start outside ASCII, and
only that of the Kelvin sign leads back into it, to a `k`; the dotted capital I becomes an `i` with a dot
above. So an ASCII text is lowered letter by letter within ASCII, and the lower case of any other text keeps
a trace of what the text was: a character outside ASCII, or a `k`.

## Contents
- `IsAscii`, a text of ASCII characters, and `Char.toLower` by its numbers (`toNat_toLower`).
- `LeadsOut`, what every run after the first one is like (`leadsOut_of_mem_tail`).
- `lowerChar_of_ascii` and `lowerCase_of_isAscii`, lower case within ASCII.
- `IsTrace` with `exists_isTrace_lowerChar` and `exists_isTrace_lowerCase`, lower case outside it.
-/

namespace LineCensus.Text

/-! ## ASCII -/

/-- The text is made of ASCII characters. -/
def IsAscii (cs : List Char) : Prop := ∀ c ∈ cs, c.toNat < 0x80

instance : DecidablePred IsAscii := fun _ => List.decidableBAll _ _

theorem toNat_ofNat {n : Nat} (h : n.isValidChar) : (Char.ofNat n).toNat = n := Utf8.toNat_val_ofNat h

/-- A capital is twenty-six letters and six signs before its small letter. -/
theorem toLower_of_capital {c : Char} (hlow : 0x41 ≤ c.toNat) (hhigh : c.toNat ≤ 0x5A) :
    c.toLower = Char.ofNat (0x61 + (c.toNat - 0x41)) := by
  have hcapital : c.val ≥ 'A'.val ∧ c.val ≤ 'Z'.val := ⟨hlow, hhigh⟩
  have hvalid : Nat.isValidChar (0x61 + (c.toNat - 0x41)) := Or.inl (by omega)
  have hlower : c.toLower.toNat = (c.val + ('a'.val - 'A'.val)).toNat := congrArg Char.toNat (dif_pos hcapital)
  apply Char.toNat_inj.mp
  rw [toNat_ofNat hvalid, hlower]
  have hstep : ('a'.val - 'A'.val).toNat = 0x20 := rfl
  rw [UInt32.toNat_add, hstep, Char.toNat_val]
  omega

theorem toLower_of_not_capital {c : Char} (h : ¬(0x41 ≤ c.toNat ∧ c.toNat ≤ 0x5A)) : c.toLower = c :=
  dif_neg h

theorem toNat_toLower (c : Char) :
    c.toLower.toNat = if 0x41 ≤ c.toNat ∧ c.toNat ≤ 0x5A then c.toNat + 0x20 else c.toNat := by
  by_cases hcapital : 0x41 ≤ c.toNat ∧ c.toNat ≤ 0x5A
  · rw [if_pos hcapital, toLower_of_capital hcapital.1 hcapital.2, toNat_ofNat (Or.inl (by omega))]
    omega
  · rw [if_neg hcapital, toLower_of_not_capital hcapital]

theorem isAscii_map_toLower {cs : List Char} : IsAscii (cs.map Char.toLower) ↔ IsAscii cs := by
  unfold IsAscii
  rw [List.forall_mem_map]
  refine forall₂_congr fun c _ => ?_
  rw [toNat_toLower]
  split <;> omega

/-- A dot is no letter. -/
theorem toLower_eq_dot_iff {c : Char} : c.toLower = '.' ↔ c = '.' := by
  rw [← Char.toNat_inj, ← Char.toNat_inj, toNat_toLower]
  have hdot : '.'.toNat = 0x2E := rfl
  split <;> omega

/-! ## The table -/

/-- The run of the ASCII capitals. -/
def capitals : Nat × Nat × Nat × Nat := (0x41, 0x5A, 1, 0x61)

/-- The run of the Kelvin sign. -/
def kelvin : Nat × Nat × Nat × Nat := (0x212A, 0x212A, 1, 0x6B)

theorem lowerRuns_eq_cons : lowerRuns = capitals :: lowerRuns.tail := rfl

/-- The run starts outside ASCII, and its images are scalar values outside ASCII, if it is not the one of the
    Kelvin sign. -/
def LeadsOut (run : Nat × Nat × Nat × Nat) : Prop :=
  0x80 ≤ run.1 ∧ (run = kelvin ∨ 0x80 ≤ run.2.2.2 ∧
    (run.2.2.2 + (run.2.1 - run.1) < 0xD800 ∨
      0xDFFF < run.2.2.2 ∧ run.2.2.2 + (run.2.1 - run.1) < 0x110000))

instance : DecidablePred LeadsOut := fun _ => instDecidableAnd

theorem leadsOut_of_mem_tail : ∀ run ∈ lowerRuns.tail, LeadsOut run := by decide +kernel

/-- Within ASCII the capitals alone have a run. -/
theorem lowerRun?_of_ascii {n : Nat} (h : n < 0x80) :
    lowerRun? n = if 0x41 ≤ n ∧ n ≤ 0x5A then some capitals else none := by
  unfold lowerRun?
  rw [lowerRuns_eq_cons]
  by_cases hcapital : 0x41 ≤ n ∧ n ≤ 0x5A
  · rw [if_pos hcapital]
    exact List.find?_cons_of_pos (by simp [capitals, hcapital, Nat.mod_one])
  · rw [if_neg hcapital, List.find?_cons_of_neg ?_]
    · refine List.find?_eq_none.mpr fun run hrun => ?_
      have hfirst : 0x80 ≤ run.1 := (leadsOut_of_mem_tail run hrun).1
      simp only [Bool.and_eq_true, decide_eq_true_eq]
      omega
    · simp only [Bool.and_eq_true, decide_eq_true_eq]
      exact fun hin => hcapital hin.1

/-! ## Within ASCII -/

theorem lowerChar_of_ascii {c : Char} (h : c.toNat < 0x80) : lowerChar c = [c.toLower] := by
  have hdotted : c ≠ '\u0130' := by
    rintro rfl
    exact absurd h (by decide)
  unfold lowerChar
  rw [if_neg hdotted, lowerRun?_of_ascii h]
  by_cases hcapital : 0x41 ≤ c.toNat ∧ c.toNat ≤ 0x5A
  · rw [if_pos hcapital, toLower_of_capital hcapital.1 hcapital.2]
    rfl
  · rw [if_neg hcapital, toLower_of_not_capital hcapital]

/-- **An ASCII text is lowered letter by letter.** -/
theorem lowerCase_of_isAscii {cs : List Char} (h : IsAscii cs) : lowerCase cs = cs.map Char.toLower := by
  have hafter : ∀ before, lowerCaseAfter before cs = cs.map Char.toLower := by
    induction cs with
    | nil => intro before; rfl
    | cons c rest ih =>
      intro before
      obtain ⟨hc, hrest⟩ := List.forall_mem_cons.mp h
      have hsigma : c ≠ 'Σ' := by
        rintro rfl
        exact absurd hc (by decide)
      rw [lowerCaseAfter, if_neg hsigma, lowerChar_of_ascii hc, ih hrest]
      rfl
  exact hafter []

/-! ## Outside ASCII -/

/-- What the lower case of a character outside ASCII has in it: a character outside ASCII, or a `k`. -/
def IsTrace (c : Char) : Prop := 0x80 ≤ c.toNat ∨ c = 'k'

instance : DecidablePred IsTrace := fun _ => instDecidableOr

theorem exists_isTrace_lowerChar {c : Char} (h : 0x80 ≤ c.toNat) : ∃ d ∈ lowerChar c, IsTrace d := by
  unfold lowerChar
  by_cases hdotted : c = '\u0130'
  · rw [if_pos hdotted]
    exact ⟨'\u0307', by simp, by decide⟩
  rw [if_neg hdotted]
  cases hrun : lowerRun? c.toNat with
  | none => exact ⟨c, List.mem_singleton_self c, Or.inl h⟩
  | some run =>
    obtain ⟨first, last, stride, image⟩ := run
    refine ⟨Char.ofNat (image + (c.toNat - first)), List.mem_singleton_self _, ?_⟩
    have hmem : (first, last, stride, image) ∈ capitals :: lowerRuns.tail :=
      lowerRuns_eq_cons ▸ List.mem_of_find?_eq_some hrun
    have hin := List.find?_some hrun
    simp only [Bool.and_eq_true, decide_eq_true_eq] at hin
    obtain ⟨⟨hfirst, hlast⟩, -⟩ := hin
    rcases List.mem_cons.mp hmem with hcapitals | htail
    · -- the capitals are ASCII
      cases hcapitals
      omega
    · obtain ⟨-, hkelvin | ⟨himage, hvalid⟩⟩ := leadsOut_of_mem_tail _ htail
      · cases hkelvin
        have hoffset : c.toNat - 0x212A = 0 := by omega
        rw [hoffset]
        exact Or.inr rfl
      · dsimp only at himage hvalid
        have hscalar : Nat.isValidChar (image + (c.toNat - first)) := by
          unfold Nat.isValidChar
          omega
        refine Or.inl ?_
        rw [toNat_ofNat hscalar]
        omega

/-- **The lower case of a text outside ASCII keeps a trace of it.** -/
theorem exists_isTrace_lowerCase {cs : List Char} (h : ¬IsAscii cs) : ∃ d ∈ lowerCase cs, IsTrace d := by
  obtain ⟨c, hc, hout⟩ : ∃ c ∈ cs, 0x80 ≤ c.toNat := by simpa [IsAscii] using h
  -- whatever stands before the character, and whichever form a sigma takes
  have hafter : ∀ before, ∃ d ∈ lowerCaseAfter before cs, IsTrace d := by
    induction cs with
    | nil => cases hc
    | cons first rest ih =>
      intro before
      rw [lowerCaseAfter]
      by_cases hsame : c = first
      · subst hsame
        have hlower : ∃ d ∈ if c = 'Σ' then (if isFinalSigma before rest then ['ς'] else ['σ'])
            else lowerChar c, IsTrace d := by
          split
          · split
            · exact ⟨'ς', by simp, by decide⟩
            · exact ⟨'σ', by simp, by decide⟩
          · exact exists_isTrace_lowerChar hout
        obtain ⟨d, hd, htrace⟩ := hlower
        exact ⟨d, List.mem_append_left _ hd, htrace⟩
      · have hrest : c ∈ rest := (List.mem_cons.mp hc).resolve_left hsame
        obtain ⟨d, hd, htrace⟩ := ih (fun hascii => absurd (hascii c hrest) (by omega)) hrest (first :: before)
        exact ⟨d, List.mem_append_right _ hd, htrace⟩
  exact hafter []

/-- The two signs outside ASCII that are lowered to ASCII letters. -/
example : lowerCase ['\u212A', '\u0130'] = ['k', 'i', '\u0307'] := by decide +kernel

end LineCensus.Text
