import LineCensus.Proofs.Path.Below

/-!
# `Proofs.Path.Components` — components of paths that a walk makes

A walk goes from a directory to the path of an entry by `Path.join`. If the name is one that stays a
component, the components of the new path are those of the directory and the name.

## Contents
- `Name.IsPlain`, a name that stays a component.
- `components_append_slash`, cutting a path at a slash; `components_join` and `components_joinNames`.
- `relativeTo?_eq_joinNames`, the way down to a path whose components go on from those of the root.
-/

namespace LineCensus

/-! ## Components -/

/-- A name that stays a component of every path it is put into: it can stand in a directory, and is not the
    dot that says nothing. -/
def Name.IsPlain (name : Name) : Prop := name.IsProper ∧ name ≠ [Path.dot]

instance (name : Name) : Decidable name.IsPlain := instDecidableAnd

namespace Path

variable {name : Name}

theorem components_empty : components ⟨[]⟩ = [] := rfl

theorem components_name (h : name.IsPlain) : components ⟨name⟩ = [name] := by
  obtain ⟨⟨hne, hslash⟩, hdot⟩ := h
  have hfree : ∀ b ∈ name, (b == slash) = false := by
    intro b hb
    exact beq_eq_false_iff_ne.mpr fun he => hslash (he ▸ hb)
  unfold components
  rw [splitAt_of_forall hfree]
  exact List.filter_cons_of_pos (by simp [hne, hdot])

/-- A slash ends a component, whatever stands before and after it. -/
theorem components_append_slash (front back : List UInt8) :
    components ⟨front ++ slash :: back⟩ = components ⟨front⟩ ++ components ⟨back⟩ := by
  have hcut : splitAt (· == slash) (front ++ slash :: back)
      = splitAt (· == slash) front ++ splitAt (· == slash) back :=
    splitAt_append_separator (p := (· == slash)) (beq_self_eq_true slash) front back
  unfold components
  rw [hcut, List.filter_append]

/-- **The components of an entry** are those of its directory and its name. -/
theorem components_join (q : Path) (h : name.IsPlain) :
    (q.join name).components = q.components ++ [name] := by
  obtain ⟨bytes⟩ := q
  unfold join
  cases hlast : bytes.getLast? with
  | none =>
    rw [List.getLast?_eq_none_iff.mp hlast]
    exact components_name h
  | some last =>
    by_cases hslash : last = slash
    · -- the slash that is there already adds no component of its own
      obtain ⟨front, rfl⟩ := List.getLast?_eq_some_iff.mp hlast
      simp only [hslash, if_true, List.append_assoc, List.singleton_append]
      rw [components_append_slash, components_name h, components_append_slash, components_empty,
        List.append_nil]
    · simp only [if_neg hslash]
      rw [components_append_slash, components_name h]

/-- Plain names with slashes between them are read back. -/
theorem components_joinNames {names : List Name} (h : ∀ name ∈ names, name.IsPlain) :
    components ⟨joinNames names⟩ = names := by
  induction names with
  | nil => rfl
  | cons name rest ih =>
    obtain ⟨hname, hrest⟩ := List.forall_mem_cons.mp h
    cases rest with
    | nil => exact components_name hname
    | cons next more =>
      show components ⟨name ++ slash :: joinNames (next :: more)⟩ = _
      rw [components_append_slash, components_name hname, ih hrest]
      rfl

/-- An entry lies at the top of the file system if its directory does. -/
theorem isAbsolute_join (q : Path) (h : name.IsProper) : (q.join name).isAbsolute = q.isAbsolute := by
  obtain ⟨hne, hslash⟩ := h
  obtain ⟨bytes⟩ := q
  cases bytes with
  | nil =>
    cases name with
    | nil => exact absurd rfl hne
    | cons b rest =>
      have hb : b ≠ slash := fun he => hslash (he ▸ List.mem_cons_self)
      simp [isAbsolute, join, hb]
  | cons b rest =>
    have hhead : (join ⟨b :: rest⟩ name).bytes.head? = some b := by
      unfold join
      split
      · rename_i hlast
        exact absurd (List.getLast?_eq_none_iff.mp hlast) (List.cons_ne_nil b rest)
      · split <;> rfl
    simp [isAbsolute, hhead]

/-- **The way down from a root.** If the components of a path go on from those of the root by some names, these
    names, with slashes between them, are the path relative to the root. -/
theorem relativeTo?_eq_joinNames {root q : Path} {names : List Name}
    (habsolute : root.isAbsolute = q.isAbsolute) (h : q.components = root.components ++ names) :
    root.relativeTo? q = some ⟨joinNames names⟩ := by
  have hdrop : q.components.drop root.components.length = names := by
    rw [h, List.drop_left]
  have hpre : root.components.isPrefixOf q.components = true := by
    rw [h, List.isPrefixOf_iff_prefix]
    exact List.prefix_append ..
  unfold relativeTo?
  rw [if_pos ⟨habsolute, hpre⟩, hdrop]

/-- If the names are plain, they are the components of the relative path. -/
theorem relativeTo?_eq_some {root q : Path} {names : List Name} (habsolute : root.isAbsolute = q.isAbsolute)
    (hnames : ∀ name ∈ names, name.IsPlain) (h : q.components = root.components ++ names) :
    ∃ way, root.relativeTo? q = some way ∧ way.components = names :=
  ⟨⟨joinNames names⟩, relativeTo?_eq_joinNames habsolute h, components_joinNames hnames⟩

end Path

end LineCensus
