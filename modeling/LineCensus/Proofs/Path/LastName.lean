import LineCensus.Proofs.Path.Components

/-!
# `Proofs.Path.LastName` — the last name of a path and its extension

A path ends in a name: what follows the name are slashes, some with a dot behind them, and what stands before
it is nothing or ends in a slash. Such a name is the last component, and there is no other last component.
The extension of a name is what follows its last dot, if something stands before that dot.

## Contents
- `Idle`, bytes behind a name that say nothing; `components_append_idle`.
- `EndsIn` and `getLast?_components_iff`, the last component; `fileName?_eq_some_iff`.
- `nameExtension?_append_dot` and `nameExtension?_eq_some_iff`, the extension of a name.
-/

namespace LineCensus.Path

variable {p : Path} {name ext : Name}

/-! ## The last occurrence -/

/-- A list is cut at the last place where an element stands. -/
theorem exists_last_cut {b : UInt8} {bs : List UInt8} (h : b ∈ bs) :
    ∃ front back, bs = front ++ b :: back ∧ b ∉ back := by
  obtain ⟨back, front, hcut, hfirst⟩ := List.eq_append_cons_of_mem (List.mem_reverse.mpr h)
  refine ⟨front.reverse, back.reverse, ?_, fun hmem => hfirst (List.mem_reverse.mp hmem)⟩
  rw [List.reverse_eq_append_iff] at hcut
  simpa using hcut

/-! ## Behind the last name -/

/-- Bytes that say nothing behind a name: slashes, each with a dot behind it perhaps. -/
inductive Idle : List UInt8 → Prop where
  | nil : Idle []
  | slash {back : List UInt8} : Idle back → Idle (Path.slash :: back)
  | slashDot {back : List UInt8} : Idle back → Idle (Path.slash :: dot :: back)

theorem Idle.append {a b : List UInt8} (ha : Idle a) (hb : Idle b) : Idle (a ++ b) := by
  induction ha with
  | nil => exact hb
  | slash _ ih => exact .slash ih
  | slashDot _ ih => exact .slashDot ih

theorem components_dot : components ⟨[dot]⟩ = [] := rfl

/-- **What says nothing adds no component.** -/
theorem components_append_idle {back : List UInt8} (h : Idle back) (front : List UInt8) :
    components ⟨front ++ back⟩ = components ⟨front⟩ := by
  induction h generalizing front with
  | nil => rw [List.append_nil]
  | slash _ ih =>
    have hback := ih []
    rw [List.nil_append, components_empty] at hback
    rw [components_append_slash, hback, List.append_nil]
  | slashDot _ ih =>
    have hback := ih [dot]
    rw [components_dot, List.singleton_append] at hback
    rw [components_append_slash, hback, List.append_nil]

theorem components_of_idle_slash {bs : List UInt8} (h : Idle (slash :: bs)) : components ⟨bs⟩ = [] := by
  have hslash := components_append_slash [] bs
  rw [components_append_idle h, components_empty, List.nil_append] at hslash
  exact hslash.symm

/-! ## The last name -/

/-- The last thing that the path says is the name: a slash or nothing stands before it, and nothing that says
    something behind it. -/
def EndsIn (p : Path) (name : Name) : Prop :=
  name.IsPlain ∧ ∃ front back, p.bytes = front ++ name ++ back ∧
    (front = [] ∨ front.getLast? = some slash) ∧ Idle back

/-- Directories in front do not matter. -/
theorem EndsIn.below (h : p.EndsIn name) (dirs : List UInt8) : EndsIn ⟨dirs ++ slash :: p.bytes⟩ name := by
  obtain ⟨hname, front, back, hbytes, hfront, hback⟩ := h
  refine ⟨hname, dirs ++ slash :: front, back, ?_, Or.inr ?_, hback⟩
  · simp only [hbytes, List.append_assoc, List.cons_append]
  · rcases hfront with rfl | hslash
    · simp
    · rw [List.getLast?_append, List.getLast?_cons, hslash]
      rfl

/-- The path goes on from nothing or a slash to the name, so the name is the last component. -/
theorem EndsIn.getLast?_components (h : p.EndsIn name) : p.components.getLast? = some name := by
  obtain ⟨hname, front, back, hbytes, hfront, hback⟩ := h
  obtain ⟨bytes⟩ := p
  dsimp only at hbytes
  rw [hbytes, components_append_idle hback]
  rcases hfront with rfl | hslash
  · rw [List.nil_append, components_name hname, List.getLast?_singleton]
  · obtain ⟨dirs, rfl⟩ := List.getLast?_eq_some_iff.mp hslash
    rw [List.append_assoc, List.singleton_append, components_append_slash, components_name hname,
      List.getLast?_concat]

/-- Bytes without a slash are one component, unless they say nothing. -/
theorem isPlain_or_idle {bs : List UInt8} (h : slash ∉ bs) : Name.IsPlain bs ∨ Idle (slash :: bs) := by
  by_cases hempty : bs = []
  · rw [hempty]
    exact Or.inr (.slash .nil)
  by_cases hdot : bs = [dot]
  · rw [hdot]
    exact Or.inr (.slashDot .nil)
  exact Or.inl ⟨⟨hempty, h⟩, hdot⟩

theorem endsIn_of_getLast? {bytes : List UInt8} (h : (components ⟨bytes⟩).getLast? = some name) :
    EndsIn ⟨bytes⟩ name := by
  by_cases hslash : slash ∈ bytes
  · obtain ⟨dirs, last, rfl, hfree⟩ := exists_last_cut hslash
    rcases isPlain_or_idle hfree with hplain | hidle
    · -- the bytes behind the last slash are the name
      rw [components_append_slash, components_name hplain, List.getLast?_concat] at h
      cases h
      exact ⟨hplain, dirs ++ [slash], [], by simp, Or.inr (by simp), .nil⟩
    · -- they say nothing, and the name stands before that slash
      rw [components_append_idle hidle] at h
      obtain ⟨hname, front, back, hbytes, hfront, hback⟩ := endsIn_of_getLast? h
      dsimp only at hbytes
      refine ⟨hname, front, back ++ slash :: last, ?_, hfront, hback.append hidle⟩
      rw [hbytes, List.append_assoc]
  · rcases isPlain_or_idle hslash with hplain | hidle
    · rw [components_name hplain, List.getLast?_singleton] at h
      cases h
      exact ⟨hplain, [], [], by simp, Or.inl rfl, .nil⟩
    · -- without a name there is no component
      rw [components_of_idle_slash hidle] at h
      cases h
termination_by bytes.length

/-- **The last component is the name that the path ends in.** -/
theorem getLast?_components_iff : p.components.getLast? = some name ↔ p.EndsIn name :=
  ⟨endsIn_of_getLast?, EndsIn.getLast?_components⟩

/-- A path ends in one name only. -/
theorem EndsIn.unique {other : Name} (h : p.EndsIn name) (h' : p.EndsIn other) : name = other :=
  Option.some.inj (h.getLast?_components.symm.trans h'.getLast?_components)

theorem fileName?_eq_some_iff : p.fileName? = some name ↔ p.EndsIn name ∧ name ≠ [dot, dot] := by
  rw [← getLast?_components_iff]
  unfold fileName?
  cases p.components.getLast? with
  | none => simp
  | some last =>
    dsimp only
    by_cases hup : last = [dot, dot]
    · rw [if_pos hup, hup]
      refine iff_of_false (fun h => by cases h) fun ⟨hlast, hne⟩ => hne (Option.some.inj hlast).symm
    · rw [if_neg hup]
      refine ⟨fun h => ⟨h, fun hname => hup ((Option.some.inj h).trans hname)⟩, And.left⟩

/-! ## The extension -/

/-- What follows the last dot is the extension, if something stands before the dot. -/
theorem nameExtension?_append_dot (hext : dot ∉ ext) (stem : Name) :
    nameExtension? (stem ++ dot :: ext) = if stem = [] then none else some ext := by
  have hfree : ∀ b ∈ ext.reverse, (b != dot) = true := by
    intro b hb
    exact bne_iff_ne.mpr fun he => hext (he ▸ List.mem_reverse.mp hb)
  have hreverse : (stem ++ dot :: ext).reverse = ext.reverse ++ dot :: stem.reverse := by simp
  unfold nameExtension?
  rw [hreverse, List.dropWhile_append_of_pos hfree, List.takeWhile_append_of_pos hfree,
    List.dropWhile_cons_of_neg (by simp), List.takeWhile_cons_of_neg (by simp)]
  cases hstem : stem.reverse with
  | nil => rw [if_pos (List.reverse_eq_nil_iff.mp hstem)]
  | cons b rest =>
    have hne : stem ≠ [] := by
      rintro rfl
      cases hstem
    rw [if_neg hne, List.append_nil, List.reverse_reverse]

theorem nameExtension?_of_not_mem (h : dot ∉ name) : nameExtension? name = none := by
  have hfree : ∀ b ∈ name.reverse, (b != dot) = true := by
    intro b hb
    exact bne_iff_ne.mpr fun he => h (he ▸ List.mem_reverse.mp hb)
  have hnone : (name.reverse ++ []).dropWhile (· != dot) = [] := List.dropWhile_append_of_pos hfree
  rw [List.append_nil] at hnone
  unfold nameExtension?
  rw [hnone]

/-- **The extension of a name.** -/
theorem nameExtension?_eq_some_iff :
    nameExtension? name = some ext ↔ ∃ stem, name = stem ++ dot :: ext ∧ stem ≠ [] ∧ dot ∉ ext := by
  constructor
  · intro h
    by_cases hdot : dot ∈ name
    · obtain ⟨stem, back, rfl, hlast⟩ := exists_last_cut hdot
      rw [nameExtension?_append_dot hlast] at h
      by_cases hstem : stem = []
      · rw [if_pos hstem] at h
        cases h
      · rw [if_neg hstem] at h
        cases h
        exact ⟨stem, rfl, hstem, hlast⟩
    · rw [nameExtension?_of_not_mem hdot] at h
      cases h
  · rintro ⟨stem, rfl, hstem, hext⟩
    rw [nameExtension?_append_dot hext, if_neg hstem]

end LineCensus.Path
