import LineCensus.Proofs.Scan.Congruence
import LineCensus.Scan.View

/-!
# `Proofs.Scan.Narrowing` — views with fewer entries, and views that agree below a root

A view may show fewer entries than another (`FileSystem.keeping`). If an entry that is not shown would have
led to nothing that counts, the walk of the smaller view is that of the larger one, less what does not count.

A scan looks at nothing but its root and what stands below it. So a view that agrees with the smaller one
below the root is scanned like it, whatever it says of the rest: the directories that are not shown may as
well be gone.

## Contents
- `mergeSort_filter` and `Walk.sortedEntries_filter`: sorting is stable, so it does not matter whether entries
  are taken out before or after it.
- `Walk.filter_walk`, the walk of a view with fewer entries.
- `FileSystem.picking` and `Walk.walk_picking`, a view with fewer files.
- `Selection.sees` and `Books.takeAll_eq_seen`: the accounts of the events that count.
- `FileSystem.Holds`, `FileSystem.AgreesBelow` and `scan_congr_below`.
-/

namespace LineCensus

/-! ## Sorting and filtering -/

section

variable {α : Type} {le : α → α → Bool}

/-- An element is sorted in right behind those that are smaller. -/
theorem mergeSort_cons_split (htrans : ∀ a b c, le a b → le b c → le a c)
    (htotal : ∀ a b, le a b || le b a) (a : α) (l : List α) :
    (a :: l).mergeSort le
        = (l.mergeSort le).filter (fun b => !le a b) ++ a :: (l.mergeSort le).filter (le a) ∧
      l.mergeSort le = (l.mergeSort le).filter (fun b => !le a b) ++ (l.mergeSort le).filter (le a) := by
  obtain ⟨front, back, hcons, hl, hfront⟩ := List.mergeSort_cons htrans htotal a l
  have hback : ∀ b ∈ back, le a b = true := by
    have hsorted := List.pairwise_mergeSort htrans htotal (a :: l)
    rw [hcons] at hsorted
    exact (List.pairwise_cons.mp (List.pairwise_append.mp hsorted).2.1).1
  have hsmaller : (l.mergeSort le).filter (fun b => !le a b) = front := by
    rw [hl, List.filter_append, List.filter_eq_self.mpr hfront,
      List.filter_eq_nil_iff.mpr fun b hb => by simp [hback b hb], List.append_nil]
  have hothers : (l.mergeSort le).filter (le a) = back := by
    rw [hl, List.filter_append, List.filter_eq_self.mpr hback,
      List.filter_eq_nil_iff.mpr fun b hb => by simpa using hfront b hb, List.nil_append]
  rw [hsmaller, hothers]
  exact ⟨hcons, hl⟩

/-- **Sorting is stable**: it does not matter whether elements are taken out before or after it. -/
theorem mergeSort_filter (htrans : ∀ a b c, le a b → le b c → le a c)
    (htotal : ∀ a b, le a b || le b a) (keep : α → Bool) (l : List α) :
    (l.filter keep).mergeSort le = (l.mergeSort le).filter keep := by
  induction l with
  | nil => simp
  | cons a rest ih =>
    obtain ⟨hcons, hsplit⟩ := mergeSort_cons_split htrans htotal a rest
    rw [hcons, List.filter_append]
    by_cases hkeep : keep a = true
    · obtain ⟨hcons', _⟩ := mergeSort_cons_split htrans htotal a (rest.filter keep)
      rw [List.filter_cons_of_pos hkeep, List.filter_cons_of_pos hkeep, hcons', ih]
      simp only [List.filter_filter, Bool.and_comm]
    · rw [List.filter_cons_of_neg hkeep, List.filter_cons_of_neg hkeep, ih, ← List.filter_append,
        ← hsplit]

end

/-! ## A view with fewer entries -/

/-- Is the entry of a listing shown? An entry that fails always is. -/
def FileSystem.shows (keep : Path → Entry → Bool) (directory : Path) : Except OsError Entry → Bool
  | .ok entry => keep directory entry
  | .error _ => true

theorem FileSystem.list_keeping (fs : FileSystem) (keep : Path → Entry → Bool) (directory : Path) :
    (fs.keeping keep).list directory
      = (fs.list directory).map fun entries => entries.filter (shows keep directory) := rfl

namespace Walk

variable {fs : FileSystem} {config config' : Config} {keep : Path → Entry → Bool}

theorem sortedEntries_filter (directory : Path) (entries : List (Except OsError Entry)) :
    sortedEntries (entries.filter (FileSystem.shows keep directory))
      = (sortedEntries entries).filter (keep directory) := by
  have hread : (entries.filter (FileSystem.shows keep directory)).filterMap Except.toOption
      = (entries.filterMap Except.toOption).filter (keep directory) := by
    rw [List.filterMap_filter, List.filter_filterMap]
    refine List.filterMap_congr fun e _ => ?_
    cases e with
    | ok entry => rfl
    | error error => rfl
  unfold sortedEntries
  rw [hread]
  refine mergeSort_filter ?_ ?_ _ _
  · intro a b c hab hbc
    rw [decide_eq_true_eq] at hab hbc ⊢
    exact List.le_trans hab hbc
  · intro a b
    rw [Bool.or_eq_true, decide_eq_true_eq, decide_eq_true_eq]
    exact List.le_total a.name b.name

theorem entryTroubles_filter (directory : Path) (entries : List (Except OsError Entry)) :
    entryTroubles directory (entries.filter (FileSystem.shows keep directory))
      = entryTroubles directory entries := by
  unfold entryTroubles
  rw [List.filterMap_filter]
  refine List.filterMap_congr fun e _ => ?_
  cases e with
  | ok entry => exact ite_self none
  | error error => rfl

/-- **The walk of a view with fewer entries.** Let `sees` tell the events that count: all listings and all
    troubles do, an entry that is shown leads to the same in both views, and one that is not shown leads to
    nothing that counts. Then the walk of the smaller view is what counts of the walk of the larger one. -/
theorem filter_walk {sees : Event → Bool} (hlisted : ∀ depth p, sees (.listed depth p) = true)
    (htrouble : ∀ t, sees (.trouble t) = true) (hlimit : config.maxDepth = config'.maxDepth)
    (hvisit : ∀ {enter enter' : Path → List Event}, (∀ p, (enter p).filter sees = enter' p) →
      ∀ directory entry, (visit fs config enter directory entry).filter sees
        = if keep directory entry then visit (fs.keeping keep) config' enter' directory entry else [])
    {levels depth : Nat} {directory : Path} :
    (walk fs config levels depth directory).filter sees
      = walk (fs.keeping keep) config' levels depth directory := by
  induction levels generalizing depth directory with
  | zero => simp only [walk, hlimit, List.filter_cons_of_pos (htrouble _), List.filter_nil]
  | succ levels ih =>
    have hlist := fs.list_keeping keep directory
    cases h : fs.list directory with
    | error error =>
      rw [h] at hlist
      simp only [walk, h, hlist, Except.map, List.filter_cons_of_pos (htrouble _), List.filter_nil]
    | ok entries =>
      rw [h] at hlist
      have htroubles : (entryTroubles directory entries).filter sees = entryTroubles directory entries := by
        refine List.filter_eq_self.mpr fun event hevent => ?_
        obtain ⟨e, _, he⟩ := List.mem_filterMap.mp hevent
        cases e with
        | ok entry => cases he
        | error error => cases he; exact htrouble _
      have hentries := hvisit (fun p => @ih (depth + 1) p) directory
      simp only [walk, h, hlist, Except.map, List.cons_append, List.filter_cons_of_pos (hlisted _ _),
        List.filter_append, htroubles, List.filter_flatMap, sortedEntries_filter, entryTroubles_filter,
        flatMap_filter]
      rw [funext hentries]

end Walk

/-! ## A view with fewer files -/

/-- The view without the files, and the links to files, that are not picked. -/
def FileSystem.picking (fs : FileSystem) (picks : Path → Bool) : FileSystem :=
  fs.keeping fun directory entry =>
    match entry.kind with
    | .ok .file => picks (directory.join entry.name)
    | .ok .link => !fs.isFile (directory.join entry.name) || picks (directory.join entry.name)
    | _ => true

namespace Walk

variable {fs : FileSystem} {config config' : Config}

/-- Does the event stay when some files are picked? All but the other files do. -/
def staysFor (picks : Path → Bool) : Event → Bool
  | .file path => picks path
  | .listed _ _ => true
  | .trouble _ => true

/-- **The walk of the view with the files that are picked** is the walk, less the files that are not. -/
theorem walk_picking (picks : Path → Bool) (hrec : config.nonRecursive = config'.nonRecursive)
    (hexcludes : ∀ name, config.excludes name = config'.excludes name)
    (hlimit : config.maxDepth = config'.maxDepth) {levels depth : Nat} {directory : Path} :
    (walk fs config levels depth directory).filter (staysFor picks)
      = walk (fs.picking picks) config' levels depth directory := by
  refine filter_walk (fun _ _ => rfl) (fun _ => rfl) hlimit ?_
  intro enter enter' henter directory entry
  have hfile : [Event.file (directory.join entry.name)].filter (staysFor picks)
      = if picks (directory.join entry.name) then [.file (directory.join entry.name)] else [] := by
    rw [List.filter_cons, List.filter_nil]
    rfl
  cases hkind : entry.kind with
  | error error =>
    simp only [visit, hkind, if_true]
    rfl
  | ok kind =>
    cases kind with
    | file => simp only [visit, hkind, hfile]
    | directory =>
      simp only [visit, hkind, ← hrec, ← hexcludes, apply_ite (List.filter (staysFor picks)), henter,
        List.filter_nil, if_true]
    | link =>
      -- a link that does not lead to a file comes to nothing, whether it is shown or not
      have hsame : (fs.picking picks).isFile (directory.join entry.name)
          = fs.isFile (directory.join entry.name) := rfl
      unfold FileSystem.picking at hsame
      by_cases hleads : fs.isFile (directory.join entry.name) = true
      · simp only [visit, hkind, hsame, hleads, hfile, if_true, Bool.not_true, Bool.false_or]
      · rw [Bool.not_eq_true] at hleads
        simp only [visit, hkind, hsame, hleads, Bool.not_false, Bool.true_or, Bool.false_eq_true, if_false,
          if_true, List.filter_nil]
    | other => simp only [visit, hkind, List.filter_nil, if_true]

/-- The files that are picked are the files of the events that stay. -/
theorem filesOf_staysFor (picks : Path → Bool) (events : List Event) :
    filesOf (events.filter (staysFor picks)) = (filesOf events).filter picks := by
  unfold filesOf
  rw [List.filterMap_filter, List.filter_filterMap]
  refine List.filterMap_congr fun event _ => ?_
  cases event with
  | listed depth directory => rfl
  | file path => rfl
  | trouble t => rfl

end Walk

/-! ## The events that count -/

/-- Does the event count for the accounts? All but the files that are not considered do. -/
def Selection.sees (s : Selection) : Event → Bool
  | .file path => s.considers path
  | .listed _ _ => true
  | .trouble _ => true

namespace Books

variable {fs fs' : FileSystem} {config config' : Config} {selection : Selection}

/-- **The events that count make the accounts**, also with a selection that considers every file. Of the
    settings only the limit and the reports matter, and of the files those that are considered. -/
theorem takeAll_eq_seen (hmax : config.maxEntries = config'.maxEntries)
    (hverbose : config.verbose = config'.verbose) (root : Path) {events : List Event}
    (hread : ∀ path ∈ consideredFiles selection events, fs.read path = fs'.read path) (b : Books) :
    takeAll fs config selection b events
      = takeAll fs' config' ⟨none, root⟩ b (events.filter selection.sees) := by
  induction events generalizing b with
  | nil => rfl
  | cons event rest ih =>
    cases event with
    | listed depth directory => exact ih hread b
    | trouble t => exact ih hread (b.pass t)
    | file path =>
      by_cases hc : selection.considers path = true
      · rw [consideredFiles_file hc] at hread
        obtain ⟨hpath, hrest⟩ := List.forall_mem_cons.mp hread
        have hall : Selection.considers ⟨none, root⟩ path = true := rfl
        rw [List.filter_cons_of_pos (by exact hc), takeAll, takeAll, if_pos hc, if_pos hall, hmax,
          hverbose, examine_congr hpath, ih hrest]
      · rw [consideredFiles_ignored hc] at hread
        rw [List.filter_cons_of_neg (by exact hc), takeAll, if_neg hc, ih hread]

end Books

/-! ## Below a root -/

/-- The directories of the tree below a root: the root, and every real directory that stands in one of
    them. -/
inductive FileSystem.Holds (fs : FileSystem) (root : Path) : Path → Prop where
  | root : fs.Holds root root
  | entry {directory : Path} {entries : List (Except OsError Entry)} {entry : Entry} :
      fs.Holds root directory → fs.list directory = .ok entries → .ok entry ∈ entries →
      entry.kind = .ok .directory → fs.Holds root (directory.join entry.name)

/-- The entry stands in a directory of the tree below the root, at this path. -/
def FileSystem.Stands (fs : FileSystem) (root path : Path) : Prop :=
  ∃ directory entries entry, fs.Holds root directory ∧ fs.list directory = .ok entries ∧
    .ok entry ∈ entries ∧ path = directory.join entry.name

/-- The views agree on the tree below a root: `fs'` lists its directories as `fs` does, and what stands in
    them leads to the same and has the same content. Of all other paths `fs'` may say anything. -/
structure FileSystem.AgreesBelow (fs fs' : FileSystem) (root : Path) : Prop where
  list : ∀ directory, fs.Holds root directory → fs.list directory = fs'.list directory
  kind : ∀ path, fs.Stands root path → fs.kind path = fs'.kind path
  read : ∀ path, fs.Stands root path → fs.read path = fs'.read path

section

variable {fs fs' : FileSystem} {config : Config} {root : Path}

theorem holds_of_visited {depth : Nat} {directory : Path} (h : Visited fs config root depth directory) :
    fs.Holds root directory := by
  induction h with
  | root => exact .root
  | entry _ hlist hmem hentered _ _ ih => exact .entry ih hlist hmem hentered.1

theorem stands_of_meets {path : Path} (h : Meets fs config root path) : fs.Stands root path := by
  obtain ⟨depth, directory, entries, entry, hvisited, hlist, hmem, _, hpath⟩ := h
  exact ⟨directory, entries, entry, holds_of_visited hvisited, hlist, hmem, hpath⟩

/-- A walk does not look beyond what stands below its directory. -/
theorem Walk.walk_congr_below (h : fs.AgreesBelow fs' root) {levels depth : Nat} {directory : Path}
    (hholds : fs.Holds root directory) :
    walk fs config levels depth directory = walk fs' config levels depth directory := by
  induction levels generalizing depth directory with
  | zero => rfl
  | succ levels ih =>
    have hlist := h.list directory hholds
    cases hentries : fs.list directory with
    | error error =>
      rw [hentries] at hlist
      simp only [walk, hentries, ← hlist]
    | ok entries =>
      have hvisit : ∀ entry ∈ sortedEntries entries,
          visit fs config (walk fs config levels (depth + 1)) directory entry
            = visit fs' config (walk fs' config levels (depth + 1)) directory entry := by
        intro entry hsorted
        have hmem : .ok entry ∈ entries := mem_sortedEntries.mp hsorted
        have hkind := h.kind _ ⟨directory, entries, entry, hholds, hentries, hmem, rfl⟩
        exact visit_congr (FileSystem.isFile_congr hkind) rfl (fun _ => rfl) fun hdir =>
          ih (.entry hholds hentries hmem hdir.1)
      rw [hentries] at hlist
      simp only [walk, hentries, ← hlist, List.flatMap_congr hvisit]

/-- **A scan of a directory depends on its root and on what stands below it**, and on nothing else. -/
theorem scan_congr_below (hroot : fs.kind config.root = .ok .directory)
    (hkind : fs.kind config.root = fs'.kind config.root)
    (hcanonical : fs.canonical config.root = fs'.canonical config.root)
    (hbelow : fs.AgreesBelow fs' (fs.walkRoot config.root)) (start : Activity) :
    scan fs config start = scan fs' config start := by
  have hprepare : prepare fs config = prepare fs' config := by
    unfold prepare FileSystem.rootKind FileSystem.walkRoot
    rw [hkind, hcanonical]
  refine scan_congr_walk hprepare rfl rfl (fun p hp _ => ?_) (fun path hpath => ?_) start
  · rw [(prepare_eq_ok hp).2.1]
    exact Walk.walk_congr_below hbelow .root
  · obtain ⟨hacross, _⟩ := mem_candidates.mp (List.mem_of_mem_take hpath)
    rcases hacross with ⟨hfile, _⟩ | ⟨_, hmeets⟩
    · rw [hroot] at hfile
      cases hfile
    · exact hbelow.read path (stands_of_meets hmeets)

end

end LineCensus
