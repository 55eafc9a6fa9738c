/-!
# `Text.Split` — cutting a list at separators

## Contents
- `splitAt p`, the pieces between the elements that satisfy `p`; there is always one.
- `occursIn`, whether one list lies inside another.
- What is in the pieces, and what they are around a separator.
-/

namespace LineCensus

variable {α : Type}

/-- The pieces with one element more at the front of the first. -/
def extendFirst (x : α) : List (List α) → List (List α)
  | [] => [[x]]
  | piece :: rest => (x :: piece) :: rest

/-- The pieces between the separators, empty pieces included. -/
def splitAt (p : α → Bool) (xs : List α) : List (List α) :=
  xs.foldr (fun x pieces => if p x then [] :: pieces else extendFirst x pieces) [[]]

/-- Does `needle` lie somewhere in the list, in one stretch? -/
def occursIn [BEq α] (needle : List α) : List α → Bool
  | [] => needle.isEmpty
  | x :: xs => needle.isPrefixOf (x :: xs) || occursIn needle xs

/-- To occur is to be an infix. -/
theorem occursIn_iff_isInfix [BEq α] [LawfulBEq α] {needle xs : List α} :
    occursIn needle xs = true ↔ needle <:+: xs := by
  induction xs with
  | nil => simp [occursIn]
  | cons x xs ih =>
    rw [occursIn, Bool.or_eq_true, List.isPrefixOf_iff_prefix, ih, List.infix_cons_iff]

variable {p : α → Bool}

@[simp] theorem splitAt_nil : splitAt p [] = [[]] := rfl

theorem splitAt_cons (x : α) (xs : List α) :
    splitAt p (x :: xs) = if p x then [] :: splitAt p xs else extendFirst x (splitAt p xs) := rfl

theorem splitAt_ne_nil (xs : List α) : splitAt p xs ≠ [] := by
  cases xs with
  | nil => simp
  | cons x xs =>
    rw [splitAt_cons]
    split
    · simp
    · cases splitAt p xs <;> simp [extendFirst]

/-- No piece holds a separator. -/
theorem eq_false_of_mem_splitAt {xs piece : List α} {x : α} (h : piece ∈ splitAt p xs)
    (hx : x ∈ piece) : p x = false := by
  induction xs generalizing piece with
  | nil =>
    rw [splitAt_nil, List.mem_singleton] at h
    subst h
    cases hx
  | cons y ys ih =>
    rw [splitAt_cons] at h
    by_cases hy : p y = true
    · rw [if_pos hy] at h
      rcases List.mem_cons.mp h with rfl | hrest
      · cases hx
      · exact ih hrest hx
    · rw [if_neg hy] at h
      cases hpieces : splitAt p ys with
      | nil => exact absurd hpieces (splitAt_ne_nil ys)
      | cons first rest =>
        rw [hpieces] at h ih
        -- `y` is added to the first piece, and the other pieces stay
        rcases List.mem_cons.mp h with rfl | hrest
        · rcases List.mem_cons.mp hx with rfl | hfirst
          · exact Bool.eq_false_iff.mpr hy
          · exact ih List.mem_cons_self hfirst
        · exact ih (List.mem_cons_of_mem _ hrest) hx

/-- A separator ends a piece, whatever stands before and after it. -/
theorem splitAt_append_separator {x : α} (hx : p x = true) (xs ys : List α) :
    splitAt p (xs ++ x :: ys) = splitAt p xs ++ splitAt p ys := by
  induction xs with
  | nil =>
    rw [List.nil_append, splitAt_cons, if_pos hx]
    rfl
  | cons y rest ih =>
    rw [List.cons_append, splitAt_cons, splitAt_cons, ih]
    by_cases hy : p y = true
    · rw [if_pos hy, if_pos hy]
      rfl
    · rw [if_neg hy, if_neg hy]
      cases hpieces : splitAt p rest with
      | nil => exact absurd hpieces (splitAt_ne_nil rest)
      | cons piece more => rfl

/-- A list without separators is one piece. -/
theorem splitAt_of_forall {xs : List α} (h : ∀ x ∈ xs, p x = false) : splitAt p xs = [xs] := by
  induction xs with
  | nil => rfl
  | cons x rest ih =>
    obtain ⟨hx, hrest⟩ := List.forall_mem_cons.mp h
    rw [splitAt_cons, hx, ih hrest]
    rfl

end LineCensus
