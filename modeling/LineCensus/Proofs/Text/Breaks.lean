import LineCensus.Proofs.Text.Lines

/-!
# `Proofs.Text.Breaks` — the terminators of a text and its lines

The three steps and the single scan give the same lines, since the rules for lines leave no choice. So what is in
the lines, how many there are and which characters part them is read off the rules, and holds of both.

## Contents
- `countTerminators`, each terminator counted where it ends; `endsOpen`, whether text is left after the last one.
- `CutsInto.free`, `CutsInto.length_eq` and `CutsInto.flatten_eq`: what no piece holds, how many pieces there are,
  and what they hold together.
- `CutsInto.map`, nothing but the two elements that stand for CR and LF parts pieces.
- `splitLines_eq_scanLines`.
-/

namespace LineCensus.Text

section

variable {α β : Type} {cr lf : α} {xs : List α} {pieces : List (List α)}

/-- No piece holds a terminator. -/
theorem CutsInto.free (h : CutsInto cr lf xs pieces) : ∀ piece ∈ pieces, cr ∉ piece ∧ lf ∉ piece := by
  induction h with
  | nil => nofun
  | last _ hcr hlf => exact List.forall_mem_singleton.mpr ⟨hcr, hlf⟩
  | ended hcr hlf _ _ ih => exact List.forall_mem_cons.mpr ⟨⟨hcr, hlf⟩, ih⟩

/-! ## Only two elements part pieces -/

theorem EndsPiece.map {cr' lf' : β} {f : α → β} (hcr : ∀ x, f x = cr' ↔ x = cr) (hlf : ∀ x, f x = lf' ↔ x = lf)
    {terminator rest : List α} (h : EndsPiece cr lf terminator rest) :
    EndsPiece cr' lf' (terminator.map f) (rest.map f) := by
  have hcr' : f cr = cr' := (hcr cr).mpr rfl
  have hlf' : f lf = lf' := (hlf lf).mpr rfl
  rcases h with rfl | rfl | ⟨rfl, hhead⟩
  · exact Or.inl (by rw [List.map_cons, List.map_singleton, hcr', hlf'])
  · exact Or.inr (Or.inl (by rw [List.map_singleton, hlf']))
  · refine Or.inr (Or.inr ⟨by rw [List.map_singleton, hcr'], fun hmap => hhead ?_⟩)
    rw [List.head?_map] at hmap
    obtain ⟨x, hx, hfx⟩ := Option.map_eq_some_iff.mp hmap
    rw [hx, (hlf x).mp hfx]

/-- **Other elements may be changed** into others: the pieces change with them and nothing else does. -/
theorem CutsInto.map {cr' lf' : β} {f : α → β} (hcr : ∀ x, f x = cr' ↔ x = cr) (hlf : ∀ x, f x = lf' ↔ x = lf)
    (h : CutsInto cr lf xs pieces) : CutsInto cr' lf' (xs.map f) (pieces.map (List.map f)) := by
  have hfree : ∀ {y y'}, (∀ x, f x = y' ↔ x = y) → ∀ {piece : List α}, y ∉ piece → y' ∉ piece.map f := by
    intro y y' hy piece hpiece hmem
    obtain ⟨x, hx, hfx⟩ := List.mem_map.mp hmem
    exact hpiece ((hy x).mp hfx ▸ hx)
  induction h with
  | nil => exact .nil
  | last hne hpcr hplf => exact .last (mt List.map_eq_nil_iff.mp hne) (hfree hcr hpcr) (hfree hlf hplf)
  | ended hpcr hplf hends _ ih =>
    rw [List.map_append, List.map_append]
    exact .ended (hfree hcr hpcr) (hfree hlf hplf) (hends.map hcr hlf) ih

/-! ## How many pieces there are -/

variable [DecidableEq α]

/-- The terminators in the list. Each is counted at its last element: a LF, or a CR that no LF follows. -/
def countTerminators (cr lf : α) : List α → Nat
  | [] => 0
  | x :: rest =>
    (if x = lf ∨ x = cr ∧ rest.head? ≠ some lf then 1 else 0) + countTerminators cr lf rest

/-- Does the list have a last element that is no terminator? -/
def endsOpen (cr lf : α) (xs : List α) : Bool := xs.getLast?.any fun x => x ≠ cr ∧ x ≠ lf

theorem countTerminators_append {piece : List α} (hcr : cr ∉ piece) (hlf : lf ∉ piece) (rest : List α) :
    countTerminators cr lf (piece ++ rest) = countTerminators cr lf rest := by
  induction piece with
  | nil => rfl
  | cons x more ih =>
    obtain ⟨hxcr, hmcr⟩ := not_or.mp (mt List.mem_cons.mpr hcr)
    obtain ⟨hxlf, hmlf⟩ := not_or.mp (mt List.mem_cons.mpr hlf)
    rw [List.cons_append, countTerminators, ih hmcr hmlf]
    simp [Ne.symm hxcr, Ne.symm hxlf]

theorem countTerminators_terminator (hne : cr ≠ lf) {terminator rest : List α}
    (h : EndsPiece cr lf terminator rest) :
    countTerminators cr lf (terminator ++ rest) = 1 + countTerminators cr lf rest := by
  rcases h with rfl | rfl | ⟨rfl, hhead⟩
  · simp [countTerminators, hne]
  · simp [countTerminators]
  · simp [countTerminators, hhead]

theorem endsOpen_terminator {terminator rest : List α} (h : EndsPiece cr lf terminator rest) (piece : List α) :
    endsOpen cr lf (piece ++ (terminator ++ rest)) = endsOpen cr lf rest := by
  unfold endsOpen
  rw [List.getLast?_append, List.getLast?_append]
  cases rest.getLast? with
  | none =>
    -- the terminator is the end
    rcases h with rfl | rfl | ⟨rfl, _⟩ <;> simp
  | some x => rfl

/-- **One piece for each terminator**, and one more if something is left after the last. -/
theorem CutsInto.length_eq (hne : cr ≠ lf) (h : CutsInto cr lf xs pieces) :
    pieces.length = countTerminators cr lf xs + if endsOpen cr lf xs then 1 else 0 := by
  induction h with
  | nil => rfl
  | @last piece hpiece hcr hlf =>
    have hcount : countTerminators cr lf piece = 0 := by
      have happend := countTerminators_append hcr hlf []
      rwa [List.append_nil] at happend
    have hopen : endsOpen cr lf piece = true := by
      have hmem := List.getLast_mem hpiece
      unfold endsOpen
      rw [List.getLast?_eq_some_getLast hpiece, Option.any_some, decide_eq_true_eq]
      exact ⟨fun he => hcr (he ▸ hmem), fun he => hlf (he ▸ hmem)⟩
    rw [hcount, if_pos hopen, List.length_singleton]
  | ended hcr hlf hends _ ih =>
    rw [List.length_cons, ih, countTerminators_append hcr hlf, countTerminators_terminator hne hends,
      endsOpen_terminator hends]
    omega

/-! ## What the pieces hold -/

/-- **The pieces hold everything but the terminators**, in its order. -/
theorem CutsInto.flatten_eq (h : CutsInto cr lf xs pieces) :
    pieces.flatten = xs.filter fun x => x ≠ cr ∧ x ≠ lf := by
  have hkept : ∀ {piece : List α}, cr ∉ piece → lf ∉ piece → (piece.filter fun x => x ≠ cr ∧ x ≠ lf) = piece := by
    intro piece hcr hlf
    refine List.filter_eq_self.mpr fun x hx => ?_
    exact decide_eq_true ⟨fun he => hcr (he ▸ hx), fun he => hlf (he ▸ hx)⟩
  induction h with
  | nil => rfl
  | last _ hcr hlf => rw [List.flatten_singleton, hkept hcr hlf]
  | @ended _ terminator _ _ hcr hlf hends _ ih =>
    have hnone : (terminator.filter fun x => x ≠ cr ∧ x ≠ lf) = [] := by
      rcases hends with rfl | rfl | ⟨rfl, _⟩ <;> simp
    rw [List.flatten_cons, ih, List.filter_append, List.filter_append, hkept hcr hlf, hnone, List.nil_append]

end

/-! ## Texts -/

/-- **Three steps give the lines of a single scan.** No line holds a CR or a LF. There are as many lines as
    terminators, and one more if the text has a last character that is no terminator. The lines hold all the other
    characters, in their order, and any of these can be changed into others without a line more or less: a NEL, a
    line separator, a form feed or a vertical tab parts lines as little as a letter does. -/
theorem splitLines_eq_scanLines (cs : List Char) :
    splitLines cs = scanLines cs ∧
    (∀ line ∈ splitLines cs, '\r' ∉ line ∧ '\n' ∉ line) ∧
    (splitLines cs).length = countTerminators '\r' '\n' cs + (if endsOpen '\r' '\n' cs then 1 else 0) ∧
    ((splitLines cs).flatten = cs.filter fun c => c ≠ '\r' ∧ c ≠ '\n') ∧
    ∀ f : Char → Char, (∀ c, f c = '\r' ↔ c = '\r') → (∀ c, f c = '\n' ↔ c = '\n') →
      splitLines (cs.map f) = (splitLines cs).map (List.map f) := by
  have hcuts := cutsInto_splitLines cs
  have hne : '\r' ≠ '\n' := by decide
  exact ⟨(hcuts.run_eq hne).symm, hcuts.free, hcuts.length_eq hne, hcuts.flatten_eq,
    fun f hcr hlf => (hcuts.map hcr hlf).splitLines_eq⟩

/-- NEL, the line separator, the form feed and the vertical tab. -/
def otherSeparators : List Char := ['\u0085', '\u2028', '\x0c', '\x0b']

/-- A letter in place of any of them. -/
def withoutSeparator (c : Char) : Char := if c ∈ otherSeparators then 'x' else c

theorem withoutSeparator_eq_iff {terminator : Char} (hx : terminator ≠ 'x') (ht : terminator ∉ otherSeparators)
    (c : Char) : withoutSeparator c = terminator ↔ c = terminator := by
  unfold withoutSeparator
  by_cases hc : c ∈ otherSeparators
  · rw [if_pos hc]
    exact ⟨fun he => absurd he.symm hx, fun he => absurd (he ▸ hc) ht⟩
  · rw [if_neg hc]

/-- Of CR CR LF the last two are one terminator, and of the other separators none parts lines. -/
theorem splitLines_eq_scanLines_separators :
    scanLines "a\u0085b\r\r\n\u2028\x0c\n\x0bc".toList
      = ["a\u0085b".toList, [], "\u2028\x0c".toList, "\x0bc".toList] ∧
    splitLines "a\u0085b\r\r\n\u2028\x0c\n\x0bc".toList
      = ["a\u0085b".toList, [], "\u2028\x0c".toList, "\x0bc".toList] ∧
    splitLines ("a\u0085b\r\r\n\u2028\x0c\n\x0bc".toList.map withoutSeparator)
      = ["axb".toList, [], "xx".toList, "xc".toList] := by
  obtain ⟨hscan, _, _, _, hmap⟩ := splitLines_eq_scanLines "a\u0085b\r\r\n\u2028\x0c\n\x0bc".toList
  have hlines : scanLines "a\u0085b\r\r\n\u2028\x0c\n\x0bc".toList
      = ["a\u0085b".toList, [], "\u2028\x0c".toList, "\x0bc".toList] := by decide
  refine ⟨hlines, hscan.trans hlines, ?_⟩
  rw [hmap withoutSeparator (withoutSeparator_eq_iff (by decide) (by decide))
    (withoutSeparator_eq_iff (by decide) (by decide)), hscan, hlines]
  decide

end LineCensus.Text
