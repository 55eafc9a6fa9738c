import LineCensus.Proofs.Path.Components
import LineCensus.Proofs.Scan.Congruence

/-!
# `Proofs.Scan.Order` — the order of a scan

A walk sorts the entries of one directory at a time and enters a directory where it stands among them. This
gives an order of all files below the root: that of the components of their paths, compared one after another
as bytes. The order in which the operating system lists a directory has no part in it.

## Contents
- `Path.GoesOn`, `Path.Earlier` and `Path.PrecedesBelow`, the order of the paths below a root.
- `Walk.goesOn_of_mem_filesOf_walk` and `Walk.pairwise_filesOf_walk`, the files below a directory.
- `Prepared.taken` and `handedOver`, the events that a scan takes and the files among them; `scan_eq_handedOver` and
  `sublist_handedOver`, what the scan makes of them.
- `FileSystem.Reorders` and `scan_reorders`, views that differ in the order of listings.
- `scan_order`.
-/

namespace LineCensus

theorem FileSystem.isPlain_of_list {fs : FileSystem} (hlawful : fs.IsLawful) (hdots : fs.OmitsDots)
    {directory : Path} {entries : List (Except OsError Entry)} {entry : Entry}
    (hlist : fs.list directory = .ok entries) (hmem : .ok entry ∈ entries) : entry.name.IsPlain :=
  ⟨(hlawful directory entries hlist).2 entry hmem, (hdots directory entries hlist entry hmem).1⟩

namespace Path

/-- The components of `q` go on from those of `p` by these names. -/
def GoesOn (p q : Path) (names : List Name) : Prop :=
  p.isAbsolute = q.isAbsolute ∧ (∀ name ∈ names, name.IsPlain) ∧ q.components = p.components ++ names

/-- From `root` on, the names that lead to `p` come before those that lead to `q`: at the first difference
    the name with the smaller bytes, and a way before its continuations. -/
def Earlier (root p q : Path) : Prop :=
  ∃ names names', root.GoesOn p names ∧ root.GoesOn q names' ∧ names < names'

/-- The paths of `p` and `q` relative to `root` are in the order of their components. -/
def PrecedesBelow (root p q : Path) : Prop :=
  ∃ way way', root.relativeTo? p = some way ∧ root.relativeTo? q = some way' ∧
    way.components < way'.components

variable {p q root : Path} {name : Name} {names : List Name}

theorem goesOn_join (p : Path) (h : name.IsPlain) : p.GoesOn (p.join name) [name] :=
  ⟨(isAbsolute_join p h.1).symm, List.forall_mem_singleton.mpr h, components_join p h⟩

theorem goesOn_nil (p : Path) : p.GoesOn p [] :=
  ⟨rfl, by simp, (List.append_nil _).symm⟩

theorem GoesOn.join (h : p.GoesOn q names) (hname : name.IsPlain) : p.GoesOn (q.join name) (names ++ [name]) := by
  obtain ⟨habsolute, hnames, hcomponents⟩ := h
  refine ⟨?_, List.forall_mem_append.mpr ⟨hnames, List.forall_mem_singleton.mpr hname⟩, ?_⟩
  · rw [habsolute, isAbsolute_join q hname.1]
  · rw [components_join q hname, hcomponents, List.append_assoc]

theorem GoesOn.of_join (hname : name.IsPlain) (h : (p.join name).GoesOn q names) :
    p.GoesOn q (name :: names) := by
  obtain ⟨habsolute, hnames, hcomponents⟩ := h
  refine ⟨?_, List.forall_mem_cons.mpr ⟨hname, hnames⟩, ?_⟩
  · rw [← habsolute, isAbsolute_join p hname.1]
  · rw [hcomponents, components_join p hname, List.append_assoc, List.singleton_append]

theorem Earlier.of_join (hname : name.IsPlain) (h : (root.join name).Earlier p q) :
    root.Earlier p q := by
  obtain ⟨names, names', hp, hq, hlt⟩ := h
  exact ⟨name :: names, name :: names', hp.of_join hname, hq.of_join hname,
    List.cons_lt_cons_iff.mpr (Or.inr ⟨rfl, hlt⟩)⟩

theorem Earlier.precedesBelow (h : root.Earlier p q) : root.PrecedesBelow p q := by
  obtain ⟨names, names', hp, hq, hlt⟩ := h
  obtain ⟨way, hway, hnames⟩ := relativeTo?_eq_some hp.1 hp.2.1 hp.2.2
  obtain ⟨way', hway', hnames'⟩ := relativeTo?_eq_some hq.1 hq.2.1 hq.2.2
  exact ⟨way, way', hway, hway', by rw [hnames, hnames']; exact hlt⟩

end Path

/-- A directory that is visited lies as many names below the root as its depth says. -/
theorem Visited.goesOn {fs : FileSystem} {config : Config} {depth : Nat} {root directory : Path}
    (hlawful : fs.IsLawful) (hdots : fs.OmitsDots) (h : Visited fs config root depth directory) :
    ∃ names, names.length = depth ∧ root.GoesOn directory names := by
  induction h with
  | root => exact ⟨[], rfl, root.goesOn_nil⟩
  | @entry depth directory entries listing entry _ hlist hmem _ _ _ ih =>
    obtain ⟨names, hlength, hnames⟩ := ih
    refine ⟨names ++ [entry.name], ?_, hnames.join (fs.isPlain_of_list hlawful hdots hlist hmem)⟩
    rw [List.length_append, hlength, List.length_singleton]

namespace Walk

variable {fs : FileSystem} {config : Config}

/-! ## The files below a directory -/

theorem pairwise_mergeSort_name (entries : List Entry) :
    (entries.mergeSort fun a b => decide (a.name ≤ b.name)).Pairwise fun a b => a.name ≤ b.name := by
  have hsorted : (entries.mergeSort fun a b => decide (a.name ≤ b.name)).Pairwise
      fun a b => decide (a.name ≤ b.name) = true := by
    refine List.pairwise_mergeSort ?_ ?_ entries
    · intro a b c hab hbc
      rw [decide_eq_true_eq] at hab hbc ⊢
      exact List.le_trans hab hbc
    · intro a b
      rw [Bool.or_eq_true, decide_eq_true_eq, decide_eq_true_eq]
      exact List.le_total a.name b.name
  exact hsorted.imp of_decide_eq_true

/-- The names in a sorted listing go up. -/
theorem sortedEntries_pairwise_lt (hlawful : fs.IsLawful) {directory : Path}
    {entries : List (Except OsError Entry)} (hlist : fs.list directory = .ok entries) :
    (sortedEntries entries).Pairwise fun a b => a.name < b.name := by
  have hle : (sortedEntries entries).Pairwise fun a b => a.name ≤ b.name := pairwise_mergeSort_name _
  refine (hle.and (pairwise_sortedEntries hlawful hlist)).imp fun {a b} h => ?_
  exact Std.lt_of_le_of_ne h.1 h.2

/-- The files that a visit of one entry meets are reached through the entry. -/
theorem goesOn_of_mem_filesOf_visit {enter : Path → List Event} {directory path : Path} {entry : Entry}
    (hplain : entry.name.IsPlain)
    (henter : ∀ path ∈ filesOf (enter (directory.join entry.name)),
      ∃ names, (directory.join entry.name).GoesOn path names)
    (h : path ∈ filesOf (visit fs config enter directory entry)) :
    ∃ names, directory.GoesOn path (entry.name :: names) := by
  by_cases hfile : entry.LeadsToFile fs directory
  · rw [filesOf_visit_file hfile, List.mem_singleton] at h
    rw [h]
    exact ⟨[], Path.goesOn_join directory hplain⟩
  · by_cases hdir : entry.MayBeEntered config
    · rw [filesOf_visit_directory hdir] at h
      obtain ⟨names, hnames⟩ := henter path h
      exact ⟨names, hnames.of_join hplain⟩
    · rw [filesOf_visit_other hfile hdir] at h
      cases h

theorem goesOn_of_mem_filesOf_walk (hlawful : fs.IsLawful) (hdots : fs.OmitsDots) {levels depth : Nat}
    {directory path : Path} (h : path ∈ filesOf (walk fs config levels depth directory)) :
    ∃ names, directory.GoesOn path names := by
  induction levels generalizing depth directory path with
  | zero => cases h
  | succ levels ih =>
    obtain ⟨entries, entry, hlist, hmem, hcase⟩ := mem_filesOf_walk.mp h
    have hplain : entry.name.IsPlain := fs.isPlain_of_list hlawful hdots hlist hmem
    rcases hcase with ⟨_, rfl⟩ | ⟨_, hbelow⟩
    · exact ⟨[entry.name], Path.goesOn_join directory hplain⟩
    · obtain ⟨names, hnames⟩ := ih hbelow
      exact ⟨entry.name :: names, hnames.of_join hplain⟩

/-- **A walk meets the files below a directory in order.** Sorting one directory at a time is enough: the
    files of two entries differ first in the names of these, and those of one entry agree on its name. -/
theorem pairwise_filesOf_walk (hlawful : fs.IsLawful) (hdots : fs.OmitsDots) (levels depth : Nat)
    (directory : Path) :
    (filesOf (walk fs config levels depth directory)).Pairwise directory.Earlier := by
  induction levels generalizing depth directory with
  | zero => exact List.Pairwise.nil
  | succ levels ih =>
    cases hlist : fs.list directory with
    | error error => rw [filesOf_walk_error hlist]; exact List.Pairwise.nil
    | ok entries =>
      have hplain : ∀ entry ∈ sortedEntries entries, entry.name.IsPlain := fun entry hmem =>
        fs.isPlain_of_list hlawful hdots hlist (mem_sortedEntries.mp hmem)
      rw [filesOf_walk_ok hlist, List.pairwise_flatMap]
      constructor
      · -- within one entry: a single file, or a walk of fewer levels
        intro entry hmem
        by_cases hfile : entry.LeadsToFile fs directory
        · rw [filesOf_visit_file hfile]; exact List.pairwise_singleton _ _
        · by_cases hdir : entry.MayBeEntered config
          · rw [filesOf_visit_directory hdir]
            exact (ih (depth + 1) _).imp fun h => h.of_join (hplain entry hmem)
          · rw [filesOf_visit_other hfile hdir]; exact List.Pairwise.nil
      · -- between two entries: the names of the entries decide
        refine (sortedEntries_pairwise_lt hlawful hlist).imp_of_mem fun {a b} ha hb hlt p hp q hq => ?_
        have hbelow : ∀ directory path, path ∈ filesOf (walk fs config levels (depth + 1) directory) →
            ∃ names, directory.GoesOn path names :=
          fun _ _ h => goesOn_of_mem_filesOf_walk hlawful hdots h
        obtain ⟨names, hnames⟩ := goesOn_of_mem_filesOf_visit (hplain a ha) (hbelow _) hp
        obtain ⟨names', hnames'⟩ := goesOn_of_mem_filesOf_visit (hplain b hb) (hbelow _) hq
        exact ⟨_, _, hnames, hnames', List.cons_lt_cons_iff.mpr (Or.inl hlt)⟩

end Walk

/-! ## The files of a scan -/

/-- The events that a scan takes: those that it enters, and the file that is one too many, if there is one. -/
def Prepared.taken (p : Prepared) (fs : FileSystem) (config : Config) : List Event :=
  (p.events fs config).take ((p.entered fs config).length + 1)

/-- The files that a scan comes to, in order. -/
def handedOver (fs : FileSystem) (config : Config) : List Path :=
  match prepare fs config with
  | .error _ => []
  | .ok p => Walk.filesOf (p.taken fs config)

variable {fs fs' : FileSystem} {config : Config}

theorem handedOver_of_prepared {p : Prepared} (h : prepare fs config = .ok p) :
    handedOver fs config = Walk.filesOf (p.taken fs config) := by
  rw [handedOver, h]

/-- All events are taken and entered, or the file that is one too many comes right after those that are entered. -/
theorem Prepared.taken_cases (p : Prepared) (fs : FileSystem) (config : Config) :
    (Books.consideredFiles p.selection (p.events fs config)).length ≤ config.maxEntries ∧
      p.taken fs config = p.events fs config ∧ p.entered fs config = p.events fs config ∨
    config.maxEntries < (Books.consideredFiles p.selection (p.events fs config)).length ∧
      ∃ path rest, p.selection.considers path = true ∧ p.taken fs config = p.entered fs config ++ [.file path] ∧
        p.events fs config = p.taken fs config ++ rest := by
  rcases Books.withinLimit_append p.selection config.maxEntries (p.events fs config) with
    ⟨hfits, hall⟩ | ⟨hover, path, rest, hpath, hcut⟩
  · refine Or.inl ⟨hfits, ?_, hall⟩
    rw [taken, entered, hall, List.take_of_length_le (Nat.le_succ _)]
  · have hevents : p.events fs config = p.entered fs config ++ .file path :: rest := hcut
    have htaken : p.taken fs config = p.entered fs config ++ [.file path] := by
      rw [taken, hevents]
      exact List.take_length_add_append 1
    refine Or.inr ⟨hover, path, rest, hpath, htaken, ?_⟩
    rw [htaken, hevents, List.append_assoc]
    rfl

/-- The events that a scan takes give the scan, and fewer of them do not stop it. -/
theorem Prepared.takeAll_taken (p : Prepared) (fs : FileSystem) (config : Config) (start : Activity) :
    Books.takeAll fs config p.selection (.start start) (p.events fs config)
        = Books.takeAll fs config p.selection (.start start) (p.taken fs config) ∧
    ∀ part, part <+: p.entered fs config →
      (Books.takeAll fs config p.selection (.start start) part).2 = none := by
  have hroom : (Books.consideredFiles p.selection (p.entered fs config)).length
      = min config.maxEntries (Books.consideredFiles p.selection (p.events fs config)).length := by
    rw [entered, Books.consideredFiles_withinLimit, List.length_take]
  constructor
  · rcases p.taken_cases fs config with ⟨_, hall, _⟩ | ⟨hover, path, rest, hpath, htaken, hevents⟩
    · rw [hall]
    · -- the files that are considered fill the limit, and this one is one too many
      have hfull : (Books.consideredFiles p.selection (p.taken fs config)).length = config.maxEntries + 1 := by
        have hlast : Books.consideredFiles p.selection (p.entered fs config ++ [.file path])
            = Books.consideredFiles p.selection (p.entered fs config) ++ [path] := by
          simp [Books.consideredFiles, Walk.filesOf, Walk.file?, hpath]
        rw [htaken, hlast, List.length_append, hroom, List.length_singleton]
        omega
      have herror : (Books.takeAll fs config p.selection (.start start) (p.taken fs config)).2
          = some (.tooManyEntries config.maxEntries) := by
        rw [Books.takeAll_eq]
        refine if_neg ?_
        rw [hfull]
        exact Nat.not_succ_le_self config.maxEntries
      rw [hevents]
      exact Books.takeAll_append_of_error rest herror
  · intro part hpart
    have hless : (Books.consideredFiles p.selection part).length
        ≤ (Books.consideredFiles p.selection (p.entered fs config)).length :=
      ((hpart.sublist.filterMap _).filter _).length_le
    rw [Books.takeAll_eq]
    refine if_pos ?_
    show _ ≤ config.maxEntries - 0
    omega

/-- **The files handed over are those that make the scan.** Of the events that a scan comes across it takes the first
    ones. The files handed over are those among them. They give the scan, and fewer of them do not stop it. -/
theorem scan_eq_handedOver {p : Prepared} (h : prepare fs config = .ok p) (start : Activity) :
    ∃ events, events <+: eventsMet fs config ∧ handedOver fs config = Walk.filesOf events ∧
      scan fs config start = .ofBooks (Books.takeAll fs config p.selection (.start start) events) ∧
      ∀ part, part <+: events → part ≠ events →
        (Books.takeAll fs config p.selection (.start start) part).2 = none := by
  obtain ⟨hscan, hfewer⟩ := p.takeAll_taken fs config start
  have hentered : p.entered fs config <+: p.events fs config := Books.withinLimit_prefix ..
  have htaken : p.taken fs config <+: p.events fs config := List.take_prefix _ _
  rw [eventsMet_of_prepared h]
  refine ⟨p.taken fs config, htaken, handedOver_of_prepared h, ?_, fun part hpart hless => ?_⟩
  · rw [scan_eq_takeAll h, eventsMet_of_prepared h, hscan]
  · -- a part that is not all of the events is shorter
    have hshort : part.length < (p.taken fs config).length :=
      Nat.lt_of_le_of_ne hpart.length_le fun hlength => hless (hpart.eq_of_length hlength)
    have hlength : (p.taken fs config).length ≤ (p.entered fs config).length + 1 := List.length_take_le _ _
    exact hfewer part (List.prefix_of_prefix_length_le (hpart.trans htaken) hentered (by omega))

/-- The files that a scan examines are among them, in the same order. -/
theorem sublist_handedOver (fs : FileSystem) (config : Config) :
    ((candidates fs config).take config.maxEntries).Sublist (handedOver fs config) := by
  cases hprepared : prepare fs config with
  | error error =>
    rw [candidates_of_error hprepared, List.take_nil]
    exact List.nil_sublist _
  | ok p =>
    have hexamined : (candidates fs config).take config.maxEntries
        = Books.consideredFiles p.selection (p.entered fs config) := by
      rw [candidates_of_prepared hprepared, Prepared.entered, Books.consideredFiles_withinLimit]
    have hentered : (p.entered fs config).Sublist (p.taken fs config) := by
      rcases p.taken_cases fs config with ⟨_, htaken, hall⟩ | ⟨_, path, _, _, htaken, _⟩
      · rw [htaken, hall]
      · rw [htaken]
        exact List.sublist_append_left _ _
    rw [hexamined, handedOver_of_prepared hprepared]
    exact List.filter_sublist.trans (hentered.filterMap _)

theorem pairwise_handedOver (hlawful : fs.IsLawful) (hdots : fs.OmitsDots) :
    (handedOver fs config).Pairwise (Path.PrecedesBelow (fs.walkRoot config.root)) := by
  cases hprepared : prepare fs config with
  | error error =>
    rw [handedOver, hprepared]
    exact List.Pairwise.nil
  | ok p =>
    obtain ⟨_, hwalkRoot, _⟩ := prepare_eq_ok hprepared
    have hall : (Walk.filesOf (p.events fs config)).Pairwise
        (Path.PrecedesBelow (fs.walkRoot config.root)) := by
      rw [Prepared.events, ← hwalkRoot]
      cases p.kind with
      | file => exact List.pairwise_singleton _ _
      | directory =>
        exact (Walk.pairwise_filesOf_walk hlawful hdots _ _ _).imp fun h => h.precedesBelow
      | link => exact List.Pairwise.nil
      | other => exact List.Pairwise.nil
    rw [handedOver_of_prepared hprepared]
    exact hall.sublist ((List.take_sublist _ _).filterMap _)

/-- Of a tree in memory nothing has to be assumed but that no node is named by dots. -/
theorem Tree.pairwise_handedOver {t : Tree} (h : t.WellFormed) (hdots : t.AvoidsDots) :
    (handedOver t.fileSystem config).Pairwise
      (Path.PrecedesBelow (t.fileSystem.walkRoot config.root)) :=
  LineCensus.pairwise_handedOver (isLawful_fileSystem h) (omitsDots_fileSystem hdots)

/-! ## The order of listings -/

/-- The two views differ in nothing but the order in which they list a directory. No entry fails, and the
    names in a directory are distinct. -/
structure FileSystem.Reorders (fs fs' : FileSystem) : Prop where
  kind : ∀ p, fs.kind p = fs'.kind p
  canonical : ∀ p, fs.canonical p = fs'.canonical p
  read : ∀ p, fs.read p = fs'.read p
  list : ∀ p,
    (∃ error, fs.list p = .error error ∧ fs'.list p = .error error) ∨
    (∃ entries entries' : List Entry, fs.list p = .ok (entries.map .ok) ∧
      fs'.list p = .ok (entries'.map .ok) ∧ entries.Perm entries' ∧ (entries.map Entry.name).Nodup)

/-- **Sorting forgets the order of a listing**: distinct names can be sorted in one way only. -/
theorem Walk.mergeSort_eq_of_perm {entries entries' : List Entry} (hperm : entries.Perm entries')
    (hnodup : (entries.map Entry.name).Nodup) :
    (entries.mergeSort fun a b => decide (a.name ≤ b.name))
      = entries'.mergeSort fun a b => decide (a.name ≤ b.name) := by
  have hboth : (entries.mergeSort fun a b => decide (a.name ≤ b.name)).Perm
      (entries'.mergeSort fun a b => decide (a.name ≤ b.name)) :=
    (List.mergeSort_perm _ _).trans (hperm.trans (List.mergeSort_perm _ _).symm)
  refine List.Perm.eq_of_pairwise ?_ (pairwise_mergeSort_name entries)
    (pairwise_mergeSort_name entries') hboth
  intro a b ha hb hab hba
  have ha' : a ∈ entries := List.mem_mergeSort.mp ha
  have hb' : b ∈ entries := hperm.mem_iff.mpr (List.mem_mergeSort.mp hb)
  exact List.inj_on_of_nodup_map hnodup ha' hb' (List.le_antisymm hab hba)

theorem FileSystem.Reorders.listsAlike (h : fs.Reorders fs') : fs.ListsAlike fs' := by
  intro p
  rcases h.list p with hfails | ⟨entries, entries', hlist, hlist', hperm, hnodup⟩
  · exact Or.inl hfails
  · refine Or.inr ⟨_, _, hlist, hlist', ?_, ?_⟩
    · rw [Walk.sortedEntries_map_ok, Walk.sortedEntries_map_ok]
      exact Walk.mergeSort_eq_of_perm hperm hnodup
    · rw [Walk.entryTroubles_map_ok, Walk.entryTroubles_map_ok]

theorem scan_reorders (h : fs.Reorders fs') (start : Activity) :
    scan fs config start = scan fs' config start :=
  scan_congr h.kind h.canonical h.listsAlike (fun path _ => h.read path) start

/-! ## Both together -/

/-- A directory beside a file whose name goes on from its own by a dot, which comes before a slash. -/
def dottedView (entries : List Entry) : FileSystem where
  kind p := if p = .ofString "/r" then .ok .directory else .error .notFound
  list p :=
    if p = .ofString "/r" then .ok (entries.map .ok)
    else if p = .ofString "/r/a" then .ok ([⟨Utf8.bytes "b.py", .ok .file⟩].map .ok)
    else .error .permission
  canonical p := .ok p
  read _ := .ok []

/-- The entries of the root, in the order of their names. -/
def dottedEntries : List Entry :=
  [⟨Utf8.bytes "a", .ok .directory⟩, ⟨Utf8.bytes "a.py", .ok .file⟩]

theorem dottedView_isLawful : (dottedView dottedEntries).IsLawful := by
  intro directory entries hlist
  simp only [dottedView] at hlist
  split at hlist
  · cases hlist
    exact ⟨by decide, by simp [dottedEntries]; decide⟩
  · split at hlist
    · cases hlist
      exact ⟨by decide, by simp; decide⟩
    · cases hlist

theorem dottedView_omitsDots : (dottedView dottedEntries).OmitsDots := by
  intro directory entries hlist
  simp only [dottedView] at hlist
  split at hlist
  · cases hlist
    simp [dottedEntries]
    decide
  · split at hlist
    · cases hlist
      simp
      decide
    · cases hlist

/-- The same directory and the same file in a tree. -/
def dottedTree : Tree :=
  ((Tree.empty (.ofString "/home")).insert (.ofString "/r/a/b.py") (.file [])).insert (.ofString "/r/a.py") (.file [])

theorem dottedTree_wellFormed : dottedTree.WellFormed :=
  ((Tree.wellFormed_empty _).insert _ _).insert _ _

theorem dottedTree_avoidsDots : dottedTree.AvoidsDots := by
  have hempty : (Tree.empty (.ofString "/home")).AvoidsDots := Tree.avoidsDots_empty (by decide)
  exact (hempty.insert (by decide) _).insert (by decide) _

/-- The file in the directory comes first. -/
theorem handedOver_dottedView :
    handedOver (dottedView dottedEntries) (.ofRoot (.ofString "/r"))
      = [.ofString "/r/a/b.py", .ofString "/r/a.py"] := by
  have hinner : Walk.walk (dottedView dottedEntries) (.ofRoot (.ofString "/r")) 100 1 (.ofString "/r/a")
      = [.listed 1 (.ofString "/r/a"), .file (.ofString "/r/a/b.py")] := by
    rw [Walk.walk_of_sorted rfl (by decide)]
    rfl
  have hwalk : Walk.walk (dottedView dottedEntries) (.ofRoot (.ofString "/r")) 101 0 (.ofString "/r")
      = [.listed 0 (.ofString "/r"), .listed 1 (.ofString "/r/a"), .file (.ofString "/r/a/b.py"),
        .file (.ofString "/r/a.py")] := by
    rw [Walk.walk_of_sorted rfl (by decide)]
    show [.listed 0 (.ofString "/r")]
      ++ (Walk.walk (dottedView dottedEntries) (.ofRoot (.ofString "/r")) 100 1 (.ofString "/r/a")
        ++ [.file (.ofString "/r/a.py")]) = _
    rw [hinner]
    rfl
  have hp : prepare (dottedView dottedEntries) (.ofRoot (.ofString "/r"))
      = .ok ⟨⟨none, .ofString "/r"⟩, .directory⟩ := rfl
  have hevents := events_of_directory hp rfl
  rw [handedOver_of_prepared hp]
  have hcases := Prepared.taken_cases ⟨⟨none, .ofString "/r"⟩, .directory⟩ (dottedView dottedEntries)
    (.ofRoot (.ofString "/r"))
  rcases hcases with ⟨_, hall, _⟩ | ⟨hover, _⟩
  · rw [hall, hevents]
    exact congrArg Walk.filesOf hwalk
  · -- two files are far from the limit
    rw [hevents] at hover
    have hfiles : Books.consideredFiles ⟨none, .ofString "/r"⟩ (Walk.walk (dottedView dottedEntries)
        (.ofRoot (.ofString "/r")) 101 0 (.ofString "/r"))
          = [.ofString "/r/a/b.py", .ofString "/r/a.py"] := by
      rw [hwalk]
      rfl
    exact absurd (hfiles ▸ hover) (by decide)

/-- **The order of a scan.** In a lawful view the files that a scan comes to are in the order of the
    components of their paths below the root, and so they are in any tree of nodes that are not named by dots; the
    paths as texts need not be in order. These files are those among the first events that a scan comes across,
    and the fewest of these that give the scan; the files that it examines are among them. How the operating
    system orders its listings makes no difference to a scan: the result or the error, the counters, the log
    and what is printed are the same. -/
theorem scan_order :
    (∀ (fs : FileSystem) (config : Config), fs.IsLawful → fs.OmitsDots →
      (handedOver fs config).Pairwise (Path.PrecedesBelow (fs.walkRoot config.root))) ∧
    (∃ (fs : FileSystem) (config : Config), fs.IsLawful ∧ fs.OmitsDots ∧
      ¬(handedOver fs config).Pairwise fun p q => p.bytes < q.bytes) ∧
    (∀ (fs fs' : FileSystem) (config : Config) (start : Activity), fs.Reorders fs' →
      scan fs config start = scan fs' config start) ∧
    (∀ (t : Tree) (config : Config), t.WellFormed → t.AvoidsDots →
      (handedOver t.fileSystem config).Pairwise (Path.PrecedesBelow (t.fileSystem.walkRoot config.root))) ∧
    (∀ (fs : FileSystem) (config : Config) (p : Prepared) (start : Activity), prepare fs config = .ok p →
      ∃ events, events <+: eventsMet fs config ∧ handedOver fs config = Walk.filesOf events ∧
        scan fs config start = .ofBooks (Books.takeAll fs config p.selection (.start start) events) ∧
        ∀ part, part <+: events → part ≠ events →
          (Books.takeAll fs config p.selection (.start start) part).2 = none) ∧
    (∀ (fs : FileSystem) (config : Config) (start : Activity),
      scanTraced fs config start = (scan fs config start, (candidates fs config).take config.maxEntries) ∧
      ((candidates fs config).take config.maxEntries).Sublist (handedOver fs config)) := by
  refine ⟨fun _ _ => pairwise_handedOver, ?_, fun _ _ _ start h => scan_reorders h start,
    fun _ _ => Tree.pairwise_handedOver, fun _ _ _ start h => scan_eq_handedOver h start,
    fun fs config start => ⟨scanTraced_eq fs config start, sublist_handedOver fs config⟩⟩
  refine ⟨dottedView dottedEntries, .ofRoot (.ofString "/r"), dottedView_isLawful, dottedView_omitsDots, ?_⟩
  rw [handedOver_dottedView]
  decide

/-- The two files in order, in the view and in the tree, and the same scan whichever of the two entries is listed
    first. -/
theorem scan_order_dottedView :
    (dottedView dottedEntries).IsLawful ∧ (dottedView dottedEntries).OmitsDots ∧
    Path.PrecedesBelow (.ofString "/r") (.ofString "/r/a/b.py") (.ofString "/r/a.py") ∧
    (dottedView dottedEntries).Reorders (dottedView dottedEntries.reverse) ∧
    scan (dottedView dottedEntries) (.ofRoot (.ofString "/r")) .zero
      = scan (dottedView dottedEntries.reverse) (.ofRoot (.ofString "/r")) .zero ∧
    dottedTree.WellFormed ∧ dottedTree.AvoidsDots ∧
    (handedOver dottedTree.fileSystem (.ofRoot (.ofString "/r"))).Pairwise
      (Path.PrecedesBelow (dottedTree.fileSystem.walkRoot (Config.ofRoot (.ofString "/r")).root)) := by
  obtain ⟨hordered, _, hsame, htree, _⟩ := scan_order
  have hreorders : (dottedView dottedEntries).Reorders (dottedView dottedEntries.reverse) := by
    refine ⟨fun _ => rfl, fun _ => rfl, fun _ => rfl, fun p => ?_⟩
    by_cases hroot : p = .ofString "/r"
    · refine Or.inr ⟨dottedEntries, dottedEntries.reverse, ?_, ?_, dottedEntries.reverse_perm.symm, by decide⟩
      · simp only [dottedView, if_pos hroot]
      · simp only [dottedView, if_pos hroot]
    · by_cases hinner : p = .ofString "/r/a"
      · refine Or.inr ⟨[⟨Utf8.bytes "b.py", .ok .file⟩], _, ?_, ?_, List.Perm.refl _, by decide⟩
        · simp only [dottedView, if_neg hroot, if_pos hinner]
        · simp only [dottedView, if_neg hroot, if_pos hinner]
      · refine Or.inl ⟨.permission, ?_, ?_⟩
        · simp only [dottedView, if_neg hroot, if_neg hinner]
        · simp only [dottedView, if_neg hroot, if_neg hinner]
  have hpair := hordered _ (.ofRoot (.ofString "/r")) dottedView_isLawful dottedView_omitsDots
  rw [handedOver_dottedView] at hpair
  exact ⟨dottedView_isLawful, dottedView_omitsDots, (List.pairwise_pair.mp hpair), hreorders,
    hsame _ _ _ .zero hreorders, dottedTree_wellFormed, dottedTree_avoidsDots,
    htree _ _ dottedTree_wellFormed dottedTree_avoidsDots⟩

end LineCensus
