import LineCensus.Path

/-!
# `Proofs.Path.Below` — what lies below an entry of a directory

A walk makes the path of an entry by `Path.join`, and the paths below it by further joins. If names are
what names in a directory are, two different entries of one directory share no path below them: the bytes
after the directory, up to the next slash, are the name (`below_unique`).

## Contents
- `Name.IsProper`, a name that can stand in a directory.
- `Path.stem`, what `join` puts in front of a name.
- `Path.Below p name q`: `q` is the entry `name` of `p`, or lies below it.
- `Path.Within p q`: `q` is `p`, or lies below an entry of `p`.
-/

namespace LineCensus

/-- A name that can stand in a directory: it is not empty and holds no slash. -/
def Name.IsProper (name : Name) : Prop := name ≠ [] ∧ Path.slash ∉ name

instance (name : Name) : Decidable name.IsProper := instDecidableAnd

namespace Path

variable {p q : Path} {name other : Name}

/-- What `join` puts in front of a name: the path, with a slash if it needs one. -/
def stem (p : Path) : List UInt8 :=
  match p.bytes.getLast? with
  | none => []
  | some last => if last = slash then p.bytes else p.bytes ++ [slash]

/-- `q` is the entry `name` of `p`, or a path that goes on from it after a slash. -/
def Below (p : Path) (name : Name) (q : Path) : Prop :=
  ∃ rest, q.bytes = (p.join name).bytes ++ rest ∧ (rest = [] ∨ rest.head? = some slash)

theorem join_bytes (p : Path) (name : Name) : (p.join name).bytes = p.stem ++ name := by
  unfold join stem
  cases p.bytes.getLast? with
  | none => rfl
  | some last =>
    by_cases h : last = slash
    · simp only [h, if_true]
    · simp only [h, if_false, List.append_assoc, List.singleton_append]

/-- After a proper name a slash is needed. -/
theorem stem_join (p : Path) (h : name.IsProper) :
    (p.join name).stem = (p.join name).bytes ++ [slash] := by
  obtain ⟨hne, hslash⟩ := h
  have hlast : (p.join name).bytes.getLast? = some (name.getLast hne) := by
    rw [join_bytes, List.getLast?_append, List.getLast?_eq_some_getLast hne, Option.some_or]
  have hnot : name.getLast hne ≠ slash := by
    intro he
    exact hslash (he ▸ List.getLast_mem hne)
  unfold stem
  rw [hlast]
  exact if_neg hnot

theorem below_join (p : Path) (name : Name) : p.Below name (p.join name) :=
  ⟨[], (List.append_nil _).symm, Or.inl rfl⟩

/-- What lies below an entry of an entry lies below the entry. -/
theorem Below.of_join (hname : name.IsProper) (h : (p.join name).Below other q) :
    p.Below name q := by
  obtain ⟨rest, hq, -⟩ := h
  refine ⟨slash :: other ++ rest, ?_, Or.inr rfl⟩
  rw [hq, join_bytes, stem_join p hname]
  simp only [List.append_assoc, List.cons_append, List.nil_append]

/-- The bytes after the stem, up to the next slash, are the name. -/
theorem Below.takeWhile_eq (hname : name.IsProper) (h : p.Below name q) :
    (q.bytes.drop p.stem.length).takeWhile (· != slash) = name := by
  obtain ⟨rest, hq, hrest⟩ := h
  -- the name holds no slash, and what follows it is nothing or starts with one
  have hfree : ∀ b ∈ name, (b != slash) = true := by
    intro b hb
    exact bne_iff_ne.mpr fun he => hname.2 (he ▸ hb)
  have hstop : rest.takeWhile (· != slash) = [] := by
    rcases hrest with rfl | hhead
    · rfl
    · obtain ⟨more, rfl⟩ := List.head?_eq_some_iff.mp hhead
      exact List.takeWhile_cons_of_neg (by simp)
  rw [hq, join_bytes, List.append_assoc, List.drop_left, List.takeWhile_append_of_pos hfree, hstop,
    List.append_nil]

/-- **Different entries of a directory have no path below them in common.** -/
theorem below_unique (hname : name.IsProper) (hother : other.IsProper)
    (h : p.Below name q) (h' : p.Below other q) : name = other := by
  rw [← h.takeWhile_eq hname, ← h'.takeWhile_eq hother]

/-- What lies below an entry has a longer path. -/
theorem Below.length_lt (hname : name.IsProper) (h : p.Below name q) : p.bytes.length < q.bytes.length := by
  obtain ⟨rest, hq, -⟩ := h
  have hpos : 0 < name.length := List.length_pos_iff.mpr hname.1
  have hstem : p.bytes.length ≤ p.stem.length := by
    unfold stem
    cases hlast : p.bytes.getLast? with
    | none =>
      have hempty : p.bytes.length = 0 := List.length_eq_zero_iff.mpr (List.getLast?_eq_none_iff.mp hlast)
      exact hempty ▸ Nat.zero_le _
    | some last =>
      by_cases hslash : last = slash
      · simp only [if_pos hslash, Nat.le_refl]
      · simp only [if_neg hslash, List.length_append, Nat.le_add_right]
  rw [hq, join_bytes, List.length_append, List.length_append]
  omega

/-- `q` is `p`, or lies below an entry of `p`. -/
def Within (p q : Path) : Prop := q = p ∨ ∃ name : Name, name.IsProper ∧ p.Below name q

theorem within_refl (p : Path) : p.Within p := Or.inl rfl

theorem Below.within (hname : name.IsProper) (h : p.Below name q) : p.Within q := Or.inr ⟨name, hname, h⟩

/-- What lies within an entry lies below the directory by its name. -/
theorem Within.of_join (hname : name.IsProper) (h : (p.join name).Within q) : p.Below name q := by
  rcases h with rfl | ⟨_, _, hinner⟩
  · exact p.below_join name
  · exact hinner.of_join hname

end Path

end LineCensus
