import LineCensus.FileSystem.Tree
import LineCensus.Proofs.Path.Below
import Mathlib.Data.List.Nodup

/-!
# `Proofs.FileSystem.Lawful` — views that list as an operating system does

A view may answer anything. `FileSystem.IsLawful` and `OmitsDots` are what an operating system promises of its
listings, and a tree keeps the promise: its locations are distinct and consist of proper names, whatever is put
into it, and none ends in dots unless a path that ends so is put there.

## Contents
- `FileSystem.IsLawful` and `FileSystem.OmitsDots`.
- `Tree.WellFormed`, which an empty tree has (`wellFormed_empty`) and `insert` keeps (`WellFormed.insert`).
- `Tree.isLawful_fileSystem`, the view of a well-formed tree.
- `Tree.AvoidsDots`, in the same way, with `Tree.omitsDots_fileSystem`.
-/

namespace LineCensus

/-- What an operating system promises of its listings: the names of a directory are distinct, and each can
    stand in a directory. -/
def FileSystem.IsLawful (fs : FileSystem) : Prop :=
  ∀ directory entries, fs.list directory = .ok entries →
    ((entries.filterMap Except.toOption).map Entry.name).Nodup ∧
    ∀ entry, .ok entry ∈ entries → entry.name.IsProper

/-- What an operating system promises beside `IsLawful`: a directory does not list itself as a dot, nor the
    directory above it as two. -/
def FileSystem.OmitsDots (fs : FileSystem) : Prop :=
  ∀ directory entries, fs.list directory = .ok entries →
    ∀ entry, .ok entry ∈ entries → entry.name ≠ [Path.dot] ∧ entry.name ≠ [Path.dot, Path.dot]

/-! ## Proper names -/

/-- A location whose names can stand in directories. -/
def Location.IsProper (loc : Location) : Prop := ∀ name ∈ loc, name.IsProper

theorem Location.IsProper.dropLast {loc : Location} (h : loc.IsProper) :
    Location.IsProper loc.dropLast :=
  fun name hmem => h name (List.dropLast_subset loc hmem)

theorem Location.IsProper.snoc {loc : Location} {name : Name} (h : loc.IsProper)
    (hname : name.IsProper) : Location.IsProper (loc ++ [name]) := by
  intro other hmem
  rcases List.mem_append.mp hmem with hloc | hlast
  · exact h other hloc
  · rw [List.mem_singleton.mp hlast]
    exact hname

theorem Name.isProper_dot : Name.IsProper [Path.dot] := by decide

/-- A piece of a path between two slashes is a proper name if it is not empty. -/
theorem Path.isProper_of_mem_splitAt {bytes : List UInt8} {name : Name}
    (h : name ∈ splitAt (· == slash) bytes) (hne : name ≠ []) : name.IsProper := by
  refine ⟨hne, fun hslash => ?_⟩
  have hfree := eq_false_of_mem_splitAt h hslash
  simp at hfree

/-- The names that are looked up for a path are proper. -/
theorem Path.isProper_steps (p : Path) : Location.IsProper p.steps := by
  have hnames : Location.IsProper
      ((splitAt (· == slash) p.bytes).filter fun c => !c.isEmpty) := by
    intro name hmem
    obtain ⟨hpiece, hne⟩ := List.mem_filter.mp hmem
    exact isProper_of_mem_splitAt hpiece (by simpa using hne)
  simp only [steps]
  split
  · exact hnames.snoc Name.isProper_dot
  · exact hnames

theorem Path.isProper_components (p : Path) : Location.IsProper p.components := by
  intro name hmem
  obtain ⟨hpiece, hsays⟩ := List.mem_filter.mp hmem
  refine isProper_of_mem_splitAt hpiece ?_
  rintro rfl
  simp at hsays

namespace Tree

variable {t : Tree} {loc : Location} {node : Node}

/-- The locations of a tree are distinct, and every name in them can stand in a directory. -/
structure WellFormed (t : Tree) : Prop where
  distinct : (t.nodes.map Prod.fst).Nodup
  proper : ∀ spot ∈ t.nodes.map Prod.fst, Location.IsProper spot
  here : t.here.IsProper

/-! ## Lookups stay proper -/

/-- The top of the tree, or the place that relative paths start from. -/
theorem WellFormed.isProper_start (h : t.WellFormed) (p : Path) :
    Location.IsProper (if p.isAbsolute then [] else t.here) := by
  split
  · intro name hmem
    cases hmem
  · exact h.here

/-- A lookup of proper names from a proper location comes to a proper location. The names of a link are
    proper whatever its target is. -/
theorem isProper_of_follow {limit : Option Nat} {links : Nat} {names : List Name}
    {found : Location} (hloc : loc.IsProper) (hnames : Location.IsProper names)
    (h : t.follow limit links loc names = .ok found) : found.IsProper := by
  fun_induction follow t limit links loc names with
  | case1 => cases h; exact hloc
  | case2 | case5 | case6 | case7 => cases h
  | case3 links loc rest _ ih =>
    exact ih hloc (List.forall_mem_of_forall_mem_cons hnames) h
  | case4 links loc rest _ _ ih =>
    exact ih hloc.dropLast (List.forall_mem_of_forall_mem_cons hnames) h
  | case8 loc name rest _ _ _ _ target _ links ih =>
    refine ih ?_ ?_ h
    · split
      · intro other hmem
        cases hmem
      · exact hloc
    · intro other hmem
      rcases List.mem_append.mp hmem with htarget | hrest
      · exact target.isProper_steps other htarget
      · exact hnames other (List.mem_cons_of_mem _ hrest)
  | case9 links loc name rest _ _ _ _ node _ _ ih =>
    exact ih (hloc.snoc (hnames name List.mem_cons_self))
      (List.forall_mem_of_forall_mem_cons hnames) h

/-! ## What is put into a tree -/

/-- A node is put at a location that is there, or at a new one after all others. -/
theorem spots_set (t : Tree) (loc : Location) (node : Node) :
    (t.set loc node).nodes.map Prod.fst = t.nodes.map Prod.fst ∨
    loc ∉ t.nodes.map Prod.fst ∧
      (t.set loc node).nodes.map Prod.fst = t.nodes.map Prod.fst ++ [loc] := by
  unfold Tree.set
  by_cases hthere : t.nodes.any (·.1 == loc) = true
  · rw [if_pos hthere]
    left
    by_cases hdir : node = .directory
    · rw [if_pos hdir]
    · rw [if_neg hdir, List.map_map]
      refine List.map_congr_left fun e _ => ?_
      by_cases he : e.1 = loc <;> simp [he]
  · rw [if_neg hthere]
    right
    exact ⟨by simpa using hthere, by rw [List.map_append]; rfl⟩

theorem here_set (t : Tree) (loc : Location) (node : Node) : (t.set loc node).here = t.here := by
  unfold Tree.set
  split
  · split <;> rfl
  · rfl

theorem mem_spots_set {spot : Location} (h : spot ∈ (t.set loc node).nodes.map Prod.fst) :
    spot ∈ t.nodes.map Prod.fst ∨ spot = loc := by
  rcases t.spots_set loc node with hsame | ⟨_, hnew⟩
  · exact Or.inl (hsame ▸ h)
  · rw [hnew] at h
    exact (List.mem_append.mp h).imp_right List.mem_singleton.mp

theorem WellFormed.set (h : t.WellFormed) (hloc : loc.IsProper) (node : Node) :
    (t.set loc node).WellFormed := by
  refine ⟨?_, ?_, (t.here_set loc node).symm ▸ h.here⟩
  · rcases t.spots_set loc node with hsame | ⟨hnew, hspots⟩
    · exact hsame ▸ h.distinct
    · rw [hspots]
      exact h.distinct.append (List.nodup_singleton loc) (List.disjoint_singleton.mpr hnew)
  · intro spot hmem
    rcases mem_spots_set hmem with hold | rfl
    · exact h.proper spot hold
    · exact hloc

theorem WellFormed.insertBelow {names : List Name} (h : t.WellFormed) (hloc : loc.IsProper)
    (hnames : Location.IsProper names) : (t.insertBelow loc node names).WellFormed := by
  fun_induction Tree.insertBelow t loc node names with
  | case1 => exact h
  | case2 t loc name => exact h.set (hloc.snoc (hnames name List.mem_cons_self)) node
  | case3 t loc name rest _ grown below hbelow ih =>
    have hname : name.IsProper := hnames name List.mem_cons_self
    have hgrown : grown.WellFormed := by
      show (if name = [Path.dot, Path.dot] then t else _).WellFormed
      split
      · exact h
      · exact h.set (hloc.snoc hname) .directory
    have hlook : Location.IsProper [name, [Path.dot]] :=
      List.forall_mem_cons.mpr ⟨hname, List.forall_mem_singleton.mpr Name.isProper_dot⟩
    exact ih hgrown (isProper_of_follow hloc hlook hbelow)
      (List.forall_mem_of_forall_mem_cons hnames)
  | case4 => exact h

/-- **A tree stays well-formed, whatever is put into it.** -/
theorem WellFormed.insert (h : t.WellFormed) (p : Path) (node : Node) :
    (t.insert p node).WellFormed :=
  h.insertBelow (h.isProper_start p) fun name hmem =>
    p.isProper_steps name (List.mem_of_mem_filter hmem)

theorem wellFormed_empty (here : Path) : (Tree.empty here).WellFormed := by
  have hnone : (Tree.mk [] []).WellFormed :=
    ⟨List.nodup_nil, by simp, by intro name hmem; cases hmem⟩
  obtain ⟨hdistinct, hproper, _⟩ := hnone.insert here .directory
  exact ⟨hdistinct, hproper, here.isProper_components⟩

/-! ## Listings -/

theorem entryIn?_eq_some {spot : Location} {entry : Entry}
    (h : entryIn? loc spot node = some entry) : spot = loc ++ [entry.name] := by
  unfold entryIn? at h
  cases hlast : spot.getLast? with
  | none => rw [hlast] at h; cases h
  | some name =>
    simp only [hlast] at h
    by_cases hloc : spot.dropLast = loc
    · rw [if_pos hloc] at h
      cases h
      obtain ⟨front, rfl⟩ := List.getLast?_eq_some_iff.mp hlast
      rw [← hloc, List.dropLast_concat]
    · rw [if_neg hloc] at h
      cases h

theorem mem_of_mem_entries {entry : Entry} (h : entry ∈ t.entries loc) :
    loc ++ [entry.name] ∈ t.nodes.map Prod.fst := by
  obtain ⟨⟨spot, node⟩, hmem, hentry⟩ := List.mem_filterMap.mp h
  rw [← entryIn?_eq_some hentry]
  exact List.mem_map_of_mem hmem

/-- Two entries of one name would stand at one location. -/
theorem WellFormed.nodup_entries (h : t.WellFormed) (loc : Location) :
    ((t.entries loc).map Entry.name).Nodup := by
  refine List.pairwise_map.mpr (List.Pairwise.filterMap _ ?_ (List.pairwise_map.mp h.distinct))
  intro a b hne entry hentry other hother hname
  apply hne
  rw [entryIn?_eq_some hentry, entryIn?_eq_some hother, hname]

/-- What a tree lists are the entries at some location. -/
theorem exists_entries_of_list {directory : Path} {listing : List (Except OsError Entry)}
    (h : t.fileSystem.list directory = .ok listing) : ∃ loc, listing = (t.entries loc).map .ok := by
  simp only [fileSystem] at h
  split at h
  · cases h
    exact ⟨_, rfl⟩
  · cases h
  · cases h

/-- **The view of a well-formed tree is lawful.** -/
theorem isLawful_fileSystem (h : t.WellFormed) : t.fileSystem.IsLawful := by
  intro directory entries hlist
  obtain ⟨loc, rfl⟩ := exists_entries_of_list hlist
  constructor
  · rw [List.filterMap_map]
    show (((t.entries loc).filterMap some).map Entry.name).Nodup
    rw [List.filterMap_some]
    exact h.nodup_entries loc
  · intro entry hmem
    obtain ⟨found, hfound, hsame⟩ := List.mem_map.mp hmem
    cases hsame
    exact h.proper _ (mem_of_mem_entries hfound) _ (List.mem_append_right _ (List.mem_singleton_self _))

/-! ## Dots -/

/-- No node is named by a dot or two. -/
def AvoidsDots (t : Tree) : Prop :=
  ∀ spot name, spot ++ [name] ∈ t.nodes.map Prod.fst → name ≠ [Path.dot] ∧ name ≠ [Path.dot, Path.dot]

theorem AvoidsDots.set {name : Name} (h : t.AvoidsDots) (loc : Location) (node : Node)
    (hname : name ≠ [Path.dot] ∧ name ≠ [Path.dot, Path.dot]) :
    (t.set (loc ++ [name]) node).AvoidsDots := by
  intro spot other hmem
  rcases mem_spots_set hmem with hold | hnew
  · exact h spot other hold
  · rw [List.singleton_inj.mp (List.append_inj_right' hnew rfl)]
    exact hname

/-- Two dots on the way lead up and put nothing there. -/
theorem AvoidsDots.insertBelow {names : List Name} (h : t.AvoidsDots)
    (hdot : ∀ name ∈ names, name ≠ [Path.dot]) (hlast : names.getLast? ≠ some [Path.dot, Path.dot]) :
    (t.insertBelow loc node names).AvoidsDots := by
  fun_induction Tree.insertBelow t loc node names with
  | case1 => exact h
  | case2 t loc name =>
    exact h.set loc node ⟨hdot name List.mem_cons_self, fun heq => hlast (congrArg some heq)⟩
  | case3 t loc name rest hrest grown below _ ih =>
    have hgrown : grown.AvoidsDots := by
      show (if name = [Path.dot, Path.dot] then t else _).AvoidsDots
      by_cases hup : name = [Path.dot, Path.dot]
      · rw [if_pos hup]
        exact h
      · rw [if_neg hup]
        exact h.set loc .directory ⟨hdot name List.mem_cons_self, hup⟩
    refine ih hgrown (List.forall_mem_of_forall_mem_cons hdot) ?_
    cases rest with
    | nil => exact absurd rfl hrest
    | cons next more => rwa [List.getLast?_cons_cons] at hlast
  | case4 => exact h

/-- The names that are looked up for a path, but for dots, are its components. -/
theorem filter_steps (p : Path) : p.steps.filter (· != [Path.dot]) = p.components := by
  have hnames : ((splitAt (· == Path.slash) p.bytes).filter fun c => !c.isEmpty).filter (· != [Path.dot])
      = p.components := by
    rw [Path.components, List.filter_filter]
    simp only [Bool.and_comm]
  simp only [Path.steps]
  split
  · -- the dot for a slash at the end goes with the others
    rw [List.filter_append, hnames]
    exact List.append_nil _
  · exact hnames

theorem AvoidsDots.insert (h : t.AvoidsDots) {p : Path}
    (hlast : p.components.getLast? ≠ some [Path.dot, Path.dot]) (node : Node) :
    (t.insert p node).AvoidsDots := by
  unfold Tree.insert
  rw [filter_steps]
  refine h.insertBelow (fun name hmem => ?_) hlast
  have hsays : (!name.isEmpty && name != [Path.dot]) = true := (List.mem_filter.mp hmem).2
  exact bne_iff_ne.mp (Bool.and_eq_true_iff.mp hsays).2

theorem avoidsDots_empty {here : Path} (hlast : here.components.getLast? ≠ some [Path.dot, Path.dot]) :
    (Tree.empty here).AvoidsDots := by
  have hnone : (Tree.mk [] []).AvoidsDots := by
    intro spot name hmem
    cases hmem
  exact hnone.insert hlast .directory

/-- **The view of such a tree lists no dots.** -/
theorem omitsDots_fileSystem (h : t.AvoidsDots) : t.fileSystem.OmitsDots := by
  intro directory entries hlist entry hmem
  obtain ⟨loc, rfl⟩ := exists_entries_of_list hlist
  obtain ⟨found, hfound, hsame⟩ := List.mem_map.mp hmem
  cases hsame
  exact h loc _ (mem_of_mem_entries hfound)

end Tree

end LineCensus
