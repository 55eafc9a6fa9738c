import LineCensus.Text.Lines

/-!
# `Proofs.Text.Lines` — a text and its lines, by rules

Where a text is cut into lines can be said without an order of steps: each line holds no terminator and is
followed by one, but for the last, which may end with the text if it is not empty. Every text has exactly one
such list of lines, and both ways to compute lines give it.

## Contents
- `CutsInto`, the rules, over elements of any kind with the two that stand for CR and LF.
- `exists_cutsInto`, every list is cut.
- `CutsInto.run_eq`, a single scan gives the pieces; so they are unique (`CutsInto.unique`), and every list is cut
  into what a scan of it gives (`cutsInto_run`).
- `unifyBreaks_append`, `dropFinalTerminator_append`: what the three steps do around a line; from these
  `CutsInto.splitLines_eq` and `cutsInto_splitLines`.
-/

namespace LineCensus.Text

variable {α : Type}

/-! ## Lines, by rules -/

/-- The elements end a piece that `rest` follows: CR LF, a LF, or a CR that no LF follows. -/
def EndsPiece (cr lf : α) (terminator rest : List α) : Prop :=
  terminator = [cr, lf] ∨ terminator = [lf] ∨ terminator = [cr] ∧ rest.head? ≠ some lf

/-- The list is cut into pieces at its terminators. A terminator at its end opens no further piece. -/
inductive CutsInto (cr lf : α) : List α → List (List α) → Prop where
  | nil : CutsInto cr lf [] []
  | last {piece : List α} : piece ≠ [] → cr ∉ piece → lf ∉ piece → CutsInto cr lf piece [piece]
  | ended {piece terminator rest : List α} {pieces : List (List α)} :
      cr ∉ piece → lf ∉ piece → EndsPiece cr lf terminator rest → CutsInto cr lf rest pieces →
      CutsInto cr lf (piece ++ (terminator ++ rest)) (piece :: pieces)

section

variable {cr lf : α}

theorem CutsInto.ended_empty {terminator rest : List α} {pieces : List (List α)}
    (hends : EndsPiece cr lf terminator rest) (h : CutsInto cr lf rest pieces) :
    CutsInto cr lf (terminator ++ rest) ([] :: pieces) :=
  .ended List.not_mem_nil List.not_mem_nil hends h

/-- One more element in front, no CR and no LF, goes to the first piece. -/
theorem CutsInto.exists_cons {x : α} {xs : List α} {pieces : List (List α)} (hcr : x ≠ cr) (hlf : x ≠ lf)
    (h : CutsInto cr lf xs pieces) : ∃ pieces', CutsInto cr lf (x :: xs) pieces' := by
  have hfree : ∀ {y piece}, x ≠ y → y ∉ piece → y ∉ x :: piece :=
    fun hxy hy hmem => (List.mem_cons.mp hmem).elim (fun he => hxy he.symm) hy
  cases h with
  | nil => exact ⟨_, .last (List.cons_ne_nil x []) (hfree hcr List.not_mem_nil) (hfree hlf List.not_mem_nil)⟩
  | last _ hpcr hplf => exact ⟨_, .last (List.cons_ne_nil _ _) (hfree hcr hpcr) (hfree hlf hplf)⟩
  | ended hpcr hplf hends hrest => exact ⟨_, .ended (hfree hcr hpcr) (hfree hlf hplf) hends hrest⟩

/-- **Every list is cut somehow.** -/
theorem exists_cutsInto [DecidableEq α] (cr lf : α) (xs : List α) : ∃ pieces, CutsInto cr lf xs pieces := by
  match xs with
  | [] => exact ⟨[], .nil⟩
  | x :: rest =>
    by_cases hlf : x = lf
    · have hends : EndsPiece cr lf [x] rest := Or.inr (Or.inl (by rw [hlf]))
      obtain ⟨pieces, h⟩ := exists_cutsInto cr lf rest
      exact ⟨_, .ended_empty hends h⟩
    by_cases hcr : x = cr
    · by_cases hhead : rest.head? = some lf
      · -- a LF right after a CR belongs to the terminator
        obtain ⟨more, rfl⟩ := List.head?_eq_some_iff.mp hhead
        have hends : EndsPiece cr lf [x, lf] more := Or.inl (by rw [hcr])
        obtain ⟨pieces, h⟩ := exists_cutsInto cr lf more
        exact ⟨_, .ended_empty hends h⟩
      · have hends : EndsPiece cr lf [x] rest := Or.inr (Or.inr ⟨by rw [hcr], hhead⟩)
        obtain ⟨pieces, h⟩ := exists_cutsInto cr lf rest
        exact ⟨_, .ended_empty hends h⟩
    · obtain ⟨pieces, h⟩ := exists_cutsInto cr lf rest
      exact h.exists_cons hcr hlf
termination_by xs.length

/-! ## In one pass -/

variable [DecidableEq α]

namespace LineScan

theorem foldl_feed_piece {piece : List α} (hcr : cr ∉ piece) (hlf : lf ∉ piece)
    (closed : List (List α)) (current : List α) :
    piece.foldl (feed cr lf) ⟨closed, current, false⟩ = ⟨closed, piece.reverse ++ current, false⟩ := by
  induction piece generalizing current with
  | nil => rfl
  | cons x rest ih =>
    obtain ⟨hxcr, hrcr⟩ := not_or.mp (mt List.mem_cons.mpr hcr)
    obtain ⟨hxlf, hrlf⟩ := not_or.mp (mt List.mem_cons.mpr hlf)
    have hx : feed cr lf ⟨closed, current, false⟩ x = ⟨closed, x :: current, false⟩ := by
      simp only [feed, if_neg (Ne.symm hxlf), if_neg (Ne.symm hxcr)]
    rw [List.foldl_cons, hx, ih hrcr hrlf, List.reverse_cons, List.append_assoc, List.singleton_append]

/-- After a CR only a LF is taken differently. -/
theorem finish_foldl_afterReturn {xs : List α} (h : xs.head? ≠ some lf) (closed : List (List α)) :
    (xs.foldl (feed cr lf) ⟨closed, [], true⟩).finish
      = (xs.foldl (feed cr lf) ⟨closed, [], false⟩).finish := by
  cases xs with
  | nil => rfl
  | cons x rest =>
    have hx : x ≠ lf := fun he => h (congrArg some he)
    have hsame : feed cr lf ⟨closed, [], true⟩ x = feed cr lf ⟨closed, [], false⟩ x := by
      simp only [feed, if_neg hx]
    rw [List.foldl_cons, List.foldl_cons, hsame]

/-- A terminator closes the current piece. -/
theorem finish_foldl_terminator (hne : cr ≠ lf) {terminator rest : List α}
    (hends : EndsPiece cr lf terminator rest) (closed : List (List α)) (current : List α) :
    ((terminator ++ rest).foldl (feed cr lf) ⟨closed, current, false⟩).finish
      = (rest.foldl (feed cr lf) ⟨current.reverse :: closed, [], false⟩).finish := by
  have hreturn : feed cr lf ⟨closed, current, false⟩ cr = ⟨current.reverse :: closed, [], true⟩ := by
    simp only [feed, if_neg hne, if_true]
  rcases hends with rfl | rfl | ⟨rfl, hhead⟩
  · simp only [List.cons_append, List.nil_append, List.foldl_cons, hreturn]
    simp only [feed, if_true]
  · simp only [List.cons_append, List.nil_append, List.foldl_cons]
    simp only [feed, if_true, Bool.false_eq_true, if_false]
  · simp only [List.cons_append, List.nil_append, List.foldl_cons, hreturn]
    exact finish_foldl_afterReturn hhead _

end LineScan

/-- **A single scan gives the pieces.** -/
theorem CutsInto.run_eq (hne : cr ≠ lf) {xs : List α} {pieces : List (List α)}
    (h : CutsInto cr lf xs pieces) : LineScan.run cr lf xs = pieces := by
  have hscan : ∀ closed, (xs.foldl (LineScan.feed cr lf) ⟨closed, [], false⟩).finish
      = closed.reverse ++ pieces := by
    induction h with
    | nil => intro closed; exact (List.append_nil _).symm
    | @last piece hpiece hcr hlf =>
      intro closed
      rw [LineScan.foldl_feed_piece hcr hlf, List.append_nil]
      simp [LineScan.finish, hpiece]
    | ended hcr hlf hends _ ih =>
      intro closed
      rw [List.foldl_append, LineScan.foldl_feed_piece hcr hlf, List.append_nil,
        LineScan.finish_foldl_terminator hne hends, ih]
      simp
  exact hscan []

theorem CutsInto.unique (hne : cr ≠ lf) {xs : List α} {pieces pieces' : List (List α)}
    (h : CutsInto cr lf xs pieces) (h' : CutsInto cr lf xs pieces') : pieces = pieces' := by
  rw [← h.run_eq hne, ← h'.run_eq hne]

theorem cutsInto_run (hne : cr ≠ lf) (xs : List α) : CutsInto cr lf xs (LineScan.run cr lf xs) := by
  obtain ⟨pieces, h⟩ := exists_cutsInto cr lf xs
  rw [h.run_eq hne]
  exact h

end

/-! ## In three steps -/

theorem unifyBreaksOnto_append (out prior cs : List Char) :
    unifyBreaksOnto (out ++ prior) cs = prior.reverse ++ unifyBreaksOnto out cs := by
  fun_induction unifyBreaksOnto out cs with
  | case1 out => rw [unifyBreaksOnto, List.reverse_append]
  | case2 out c => rw [unifyBreaksOnto, ← List.cons_append, List.reverse_append]
  | case3 out c d rest h ih =>
    rw [unifyBreaksOnto, if_pos h]
    exact ih
  | case4 out c d rest h ih =>
    rw [unifyBreaksOnto, if_neg h]
    exact ih

theorem unifyBreaks_crlf (rest : List Char) :
    unifyBreaks ('\r' :: '\n' :: rest) = '\n' :: unifyBreaks rest := by
  rw [unifyBreaks, unifyBreaksOnto, if_pos ⟨rfl, rfl⟩]
  exact unifyBreaksOnto_append [] ['\n'] rest

theorem unifyBreaks_cons {c : Char} {rest : List Char} (h : c ≠ '\r' ∨ rest.head? ≠ some '\n') :
    unifyBreaks (c :: rest) = c :: unifyBreaks rest := by
  cases rest with
  | nil => rfl
  | cons d more =>
    have hne : ¬(c = '\r' ∧ d = '\n') := by
      rintro ⟨rfl, rfl⟩
      exact h.elim (fun hc => hc rfl) (fun hd => hd rfl)
    rw [unifyBreaks, unifyBreaksOnto, if_neg hne]
    exact unifyBreaksOnto_append [] [c] (d :: more)

theorem unifyBreaks_append {piece : List Char} (h : '\r' ∉ piece) (rest : List Char) :
    unifyBreaks (piece ++ rest) = piece ++ unifyBreaks rest := by
  induction piece with
  | nil => rfl
  | cons c more ih =>
    obtain ⟨hc, hmore⟩ := not_or.mp (mt List.mem_cons.mpr h)
    rw [List.cons_append, unifyBreaks_cons (Or.inl (Ne.symm hc)), ih hmore, List.cons_append]

/-- One terminator is left of each. -/
theorem unifyBreaks_terminator {terminator rest : List Char}
    (h : EndsPiece '\r' '\n' terminator rest) :
    ∃ t, isTerminator t = true ∧ unifyBreaks (terminator ++ rest) = t :: unifyBreaks rest := by
  rcases h with rfl | rfl | ⟨rfl, hhead⟩
  · exact ⟨'\n', rfl, unifyBreaks_crlf rest⟩
  · exact ⟨'\n', rfl, unifyBreaks_cons (Or.inl (by decide))⟩
  · exact ⟨'\r', rfl, unifyBreaks_cons (Or.inr hhead)⟩

theorem unifyBreaks_eq_nil_iff {cs : List Char} : unifyBreaks cs = [] ↔ cs = [] := by
  constructor
  · intro h
    cases cs with
    | nil => rfl
    | cons c rest =>
      by_cases hc : c = '\r' ∧ rest.head? = some '\n'
      · obtain ⟨more, rfl⟩ := List.head?_eq_some_iff.mp hc.2
        rw [hc.1, unifyBreaks_crlf] at h
        cases h
      · rw [unifyBreaks_cons (Decidable.not_and_iff_not_or_not.mp hc)] at h
        cases h
  · rintro rfl
    rfl

theorem dropFinalTerminator_concat (front : List Char) (c : Char) :
    dropFinalTerminator (front ++ [c]) = if isTerminator c then front else front ++ [c] := by
  simp only [dropFinalTerminator, List.getLast?_concat, List.dropLast_concat]

theorem dropFinalTerminator_append (xs : List Char) {ys : List Char} (h : ys ≠ []) :
    dropFinalTerminator (xs ++ ys) = xs ++ dropFinalTerminator ys := by
  obtain ⟨front, c, rfl⟩ : ∃ front c, ys = front ++ [c] :=
    ⟨_, _, (List.dropLast_concat_getLast h).symm⟩
  rw [← List.append_assoc, dropFinalTerminator_concat, dropFinalTerminator_concat]
  split
  · rfl
  · exact List.append_assoc ..

/-- The piece holds no terminator. -/
theorem isTerminator_eq_false {piece : List Char} (hcr : '\r' ∉ piece) (hlf : '\n' ∉ piece) :
    ∀ c ∈ piece, isTerminator c = false := by
  intro c hc
  have hne : c ≠ '\r' ∧ c ≠ '\n' := ⟨fun he => hcr (he ▸ hc), fun he => hlf (he ▸ hc)⟩
  simp [isTerminator, hne]

theorem dropFinalTerminator_of_forall {piece : List Char} (h : ∀ c ∈ piece, isTerminator c = false) :
    dropFinalTerminator piece = piece := by
  unfold dropFinalTerminator
  cases hlast : piece.getLast? with
  | none => rfl
  | some c => simp [h c (List.mem_of_getLast? hlast)]

theorem splitLines_of_ne_nil {cs : List Char} (h : cs ≠ []) :
    splitLines cs = splitAt isTerminator (dropFinalTerminator (unifyBreaks cs)) := by
  rw [splitLines, if_neg (by simpa using h)]

/-- A line that is ended is the first one, whatever follows. -/
theorem splitLines_ended {piece terminator rest : List Char} (hcr : '\r' ∉ piece) (hlf : '\n' ∉ piece)
    (hends : EndsPiece '\r' '\n' terminator rest) :
    splitLines (piece ++ (terminator ++ rest)) = piece :: splitLines rest := by
  have hfree := isTerminator_eq_false hcr hlf
  obtain ⟨t, ht, hrest⟩ := unifyBreaks_terminator hends
  have hunified : unifyBreaks (piece ++ (terminator ++ rest)) = piece ++ t :: unifyBreaks rest := by
    rw [unifyBreaks_append hcr, hrest]
  have hne : piece ++ (terminator ++ rest) ≠ [] := by
    rw [Ne, ← unifyBreaks_eq_nil_iff, hunified]
    simp
  rw [splitLines_of_ne_nil hne, hunified]
  by_cases hnil : rest = []
  · -- the terminator is the final one
    subst hnil
    rw [show unifyBreaks [] = [] from rfl, dropFinalTerminator_concat, if_pos ht,
      splitAt_of_forall hfree]
    rfl
  · have hmore : unifyBreaks rest ≠ [] := mt unifyBreaks_eq_nil_iff.mp hnil
    have hdrop : dropFinalTerminator (piece ++ t :: unifyBreaks rest)
        = piece ++ t :: dropFinalTerminator (unifyBreaks rest) := by
      rw [List.append_cons, dropFinalTerminator_append _ hmore, ← List.append_cons]
    rw [hdrop, splitAt_append_separator ht, splitAt_of_forall hfree, ← splitLines_of_ne_nil hnil]
    rfl

/-- **Three steps give the lines.** -/
theorem CutsInto.splitLines_eq {cs : List Char} {lines : List (List Char)}
    (h : CutsInto '\r' '\n' cs lines) : splitLines cs = lines := by
  induction h with
  | nil => rfl
  | @last piece hne hcr hlf =>
    have hfree := isTerminator_eq_false hcr hlf
    have hsame : unifyBreaks piece = piece := by
      have happend := unifyBreaks_append hcr []
      rwa [List.append_nil, show unifyBreaks [] = [] from rfl, List.append_nil] at happend
    rw [splitLines_of_ne_nil hne, hsame, dropFinalTerminator_of_forall hfree,
      splitAt_of_forall hfree]
  | ended hcr hlf hends _ ih => rw [splitLines_ended hcr hlf hends, ih]

theorem cutsInto_splitLines (cs : List Char) : CutsInto '\r' '\n' cs (splitLines cs) := by
  have hscan : CutsInto '\r' '\n' cs (scanLines cs) := cutsInto_run (by decide) cs
  rw [hscan.splitLines_eq]
  exact hscan

end LineCensus.Text
