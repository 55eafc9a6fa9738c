import LineCensus.Proofs.Scan.Limit
import LineCensus.Proofs.Scan.Narrowing
import LineCensus.Proofs.Scan.Order
import LineCensus.Proofs.Scan.Places
import LineCensus.Proofs.Text.Utf8
import Mathlib.Data.List.Forall2

/-!
# `Proofs.Scan.Filtering` — patterns

A pattern picks files. A scan with a pattern gives the same as a scan without one, of a tree from which the
files that are not picked were taken away, and the links to such files. Whether a file is picked is told by the
names that lead to it from the root: the last one by itself, or all of them with slashes between. So it does
not depend on where the root is.

## Contents
- `Config.withoutPattern`, `Walk.walk_restrict` and `scan_restrict`, the view with the files that are picked.
- `considers_iff_names`, which files are picked.
- `Path.descend`, `Path.SamePlace` and `FileSystem.SameBelow`, trees below two roots;
  `Walk.forall₂_filesOf_walk`, their files.
- `scan_filters`.
-/

namespace LineCensus

/-- The same settings without a pattern. -/
def Config.withoutPattern (config : Config) : Config := { config with filespec := none }

/-- The same settings for another root. -/
def Config.withRoot (config : Config) (root : Path) : Config := { config with root := root }

/-- The pattern of these tokens, with the root that paths are taken relative to. -/
def FileSystem.selecting (fs : FileSystem) (config : Config) (tokens : List Glob.Token) : Selection :=
  ⟨some tokens, fs.walkRoot config.root⟩

section

variable {fs fs' : FileSystem} {config : Config} {spec : String} {tokens : List Glob.Token}

/-! ## The view with the files that are picked -/

/-- The walk of the view with the files that are considered is the walk, less the files that are not. -/
theorem Walk.walk_restrict (selection : Selection) {levels depth : Nat} {directory : Path} :
    (walk fs config levels depth directory).filter selection.sees
      = walk (fs.restrict selection) config.withoutPattern levels depth directory := by
  have hsees : selection.sees = staysFor selection.considers := by
    funext event
    cases event <;> rfl
  have hview : fs.restrict selection = fs.picking selection.considers := rfl
  rw [hsees, hview]
  exact @walk_picking fs config config.withoutPattern _ rfl (fun _ => rfl) rfl levels depth directory

theorem prepare_of_pattern {kind : NodeKind} (hspec : config.filespec = some spec)
    (hcompiled : Glob.compile spec = .ok tokens) (hroot : fs.kind config.root = .ok kind) :
    prepare fs config = .ok ⟨fs.selecting config tokens, kind⟩ := by
  simp only [prepare, Config.pattern, hspec, hcompiled, FileSystem.rootKind_eq_ok.mpr hroot]
  rfl

theorem prepare_withoutPattern {kind : NodeKind} (hroot : fs.kind config.root = .ok kind) :
    prepare fs config.withoutPattern = .ok ⟨⟨none, fs.walkRoot config.root⟩, kind⟩ := by
  have hroot' : fs.kind config.withoutPattern.root = .ok kind := hroot
  simp only [prepare, Config.pattern, FileSystem.rootKind_eq_ok.mpr hroot']
  rfl

theorem scan_restrict (hspec : config.filespec = some spec) (hcompiled : Glob.compile spec = .ok tokens)
    (hroot : fs.kind config.root = .ok .directory) (start : Activity) :
    scan fs config start
      = scan (fs.restrict (fs.selecting config tokens)) config.withoutPattern start := by
  have hp := prepare_of_pattern hspec hcompiled hroot
  have hp' : prepare (fs.restrict (fs.selecting config tokens)) config.withoutPattern
      = .ok ⟨⟨none, fs.walkRoot config.root⟩, .directory⟩ := prepare_withoutPattern hroot
  have hevents : Prepared.events ⟨⟨none, fs.walkRoot config.root⟩, .directory⟩
      (fs.restrict (fs.selecting config tokens)) config.withoutPattern
        = (Prepared.events ⟨fs.selecting config tokens, .directory⟩ fs config).filter
            (fs.selecting config tokens).sees :=
    (Walk.walk_restrict _).symm
  unfold scan
  rw [hp, hp']
  refine congrArg ScanRun.ofBooks ?_
  show _ = Books.takeAll _ _ ⟨none, fs.walkRoot config.root⟩ _ _
  rw [hevents]
  refine Books.takeAll_eq_seen ?_ ?_ _ ?_ _
  all_goals intros; rfl

/-! ## Which files are picked -/

theorem matchesName_iff {path : Path} :
    Selection.matchesName tokens path = true ↔
      ∃ text, path.fileName? = some (Utf8.encode text) ∧ Glob.matchesText tokens text = true := by
  have hdecodes : ∀ text, path.fileName?.bind Utf8.decode? = some text ↔
      path.fileName? = some (Utf8.encode text) := by
    intro text
    rw [Option.bind_eq_some_iff]
    simp only [Utf8.decode?_eq_some_iff, exists_eq_right]
  simp only [← hdecodes]
  unfold Selection.matchesName
  cases path.fileName?.bind Utf8.decode? with
  | none => simp
  | some text => simp

theorem matchesRelative_iff {root path : Path} :
    Selection.matchesRelative tokens root path = true ↔
      ∃ text, root.relativeTo? path = some ⟨Utf8.encode text⟩ ∧
        Glob.matchesText tokens (slashed text) = true := by
  have hdecodes : ∀ text, (root.relativeTo? path).bind Path.text? = some text ↔
      root.relativeTo? path = some ⟨Utf8.encode text⟩ := by
    intro text
    rw [Option.bind_eq_some_iff]
    simp only [Path.text?, Utf8.decode?_eq_some_iff]
    constructor
    · rintro ⟨⟨bytes⟩, hway, rfl⟩
      exact hway
    · intro hway
      exact ⟨_, hway, rfl⟩
  simp only [← hdecodes]
  unfold Selection.matchesRelative
  cases (root.relativeTo? path).bind Path.text? with
  | none => simp
  | some text => simp

/-- The last of the names that lead to a path is its file name. -/
theorem Path.GoesOn.fileName? {root path : Path} {names : List Name} {name : Name}
    (hpath : root.GoesOn path (names ++ [name])) (hname : name ≠ [Path.dot, Path.dot]) :
    path.fileName? = some name := by
  obtain ⟨_, _, hcomponents⟩ := hpath
  rw [Path.fileName?, hcomponents, ← List.append_assoc, List.getLast?_concat]
  exact if_neg hname

/-- **Which files are picked**: those whose name is a text that the pattern matches, and those whose names below
    the root, with slashes between them, are a text that it matches with a slash for each backslash. -/
theorem considers_iff_names {root path : Path} {names : List Name} {name : Name}
    (hpath : root.GoesOn path (names ++ [name])) (hname : name ≠ [Path.dot, Path.dot]) :
    (Selection.mk (some tokens) root).considers path = true ↔
      (∃ text, name = Utf8.encode text ∧ Glob.matchesText tokens text = true) ∨
      (∃ text, Path.joinNames (names ++ [name]) = Utf8.encode text ∧
        Glob.matchesText tokens (slashed text) = true) := by
  have hfileName : path.fileName? = some name := hpath.fileName? hname
  obtain ⟨habsolute, _, hcomponents⟩ := hpath
  have hway := Path.relativeTo?_eq_joinNames habsolute hcomponents
  show (Selection.matchesName tokens path || Selection.matchesRelative tokens root path) = true ↔ _
  rw [Bool.or_eq_true]
  rw [matchesName_iff, matchesRelative_iff, hfileName, hway]
  simp only [Option.some.injEq, Path.mk.injEq]

end

/-! ## Trees below two roots -/

/-- A name that leads from a directory down to one of its entries. -/
def Name.LeadsDown (name : Name) : Prop := name.IsPlain ∧ name ≠ [Path.dot, Path.dot]

theorem FileSystem.leadsDown_of_list {fs : FileSystem} (hlawful : fs.IsLawful) (hdots : fs.OmitsDots)
    {directory : Path} {entries : List (Except OsError Entry)} {entry : Entry}
    (hlist : fs.list directory = .ok entries) (hmem : .ok entry ∈ entries) : entry.name.LeadsDown :=
  ⟨fs.isPlain_of_list hlawful hdots hlist hmem, (hdots directory entries hlist entry hmem).2⟩

/-- The path that names lead to from `p`. -/
def Path.descend (p : Path) (names : List Name) : Path := names.foldl Path.join p

theorem Path.descend_concat (p : Path) (names : List Name) (name : Name) :
    p.descend (names ++ [name]) = (p.descend names).join name := by
  rw [descend, List.foldl_append]
  rfl

theorem Path.goesOn_descend (p : Path) {names : List Name} (h : ∀ name ∈ names, name.LeadsDown) :
    p.GoesOn (p.descend names) names := by
  induction names generalizing p with
  | nil => exact p.goesOn_nil
  | cons name rest ih =>
    obtain ⟨hname, hrest⟩ := List.forall_mem_cons.mp h
    exact (ih (p.join name) hrest).of_join hname.1

/-- Below a root that needs a slash, names are put after slashes. -/
theorem Path.bytes_descend {p : Path} (hp : p.stem = p.bytes ++ [slash]) {names : List Name}
    (h : ∀ name ∈ names, name.IsProper) :
    (p.descend names).bytes = p.bytes ++ names.flatMap fun name => slash :: name := by
  induction names generalizing p with
  | nil => exact (List.append_nil _).symm
  | cons name rest ih =>
    obtain ⟨hname, hrest⟩ := List.forall_mem_cons.mp h
    have hbelow : (p.descend (name :: rest)).bytes
        = (p.join name).bytes ++ rest.flatMap fun name => slash :: name := ih (p.stem_join hname) hrest
    rw [hbelow, join_bytes, hp, List.flatMap_cons]
    simp only [List.append_assoc, List.cons_append, List.nil_append]

/-- The same names lead down to `p` from one root and to `p'` from the other. -/
def Path.SamePlace (root root' p p' : Path) : Prop :=
  ∃ (names : List Name) (name : Name), (∀ n ∈ names ++ [name], Name.LeadsDown n) ∧
    p = root.descend (names ++ [name]) ∧ p' = root'.descend (names ++ [name])

/-- The same tree stands below the two roots: where the same names lead down, the same entries are listed, and
    links lead to nodes of the same kind. -/
structure FileSystem.SameBelow (fs fs' : FileSystem) (root root' : Path) : Prop where
  list : ∀ names : List Name, (∀ name ∈ names, name.LeadsDown) →
    fs.list (root.descend names) = fs'.list (root'.descend names)
  kind : ∀ names : List Name, names ≠ [] → (∀ name ∈ names, name.LeadsDown) →
    fs.kind (root.descend names) = fs'.kind (root'.descend names)

namespace Walk

variable {fs fs' : FileSystem} {config config' : Config} {root root' : Path}

theorem forall₂_flatMap {α β : Type} {R : β → β → Prop} {f g : α → List β} {l : List α}
    (h : ∀ a ∈ l, List.Forall₂ R (f a) (g a)) : List.Forall₂ R (l.flatMap f) (l.flatMap g) := by
  induction l with
  | nil => exact .nil
  | cons a rest ih =>
    obtain ⟨ha, hrest⟩ := List.forall_mem_cons.mp h
    rw [List.flatMap_cons, List.flatMap_cons]
    exact List.rel_append ha (ih hrest)

/-- **The same tree has the same files**, in the same order. -/
theorem forall₂_filesOf_walk (hlawful : fs.IsLawful) (hdots : fs.OmitsDots)
    (hsame : fs.SameBelow fs' root root') (hrec : config.nonRecursive = config'.nonRecursive)
    (hexcludes : ∀ name, config.excludes name = config'.excludes name) {levels depth : Nat}
    {names : List Name} (hnames : ∀ name ∈ names, name.LeadsDown) :
    List.Forall₂ (Path.SamePlace root root')
      (filesOf (walk fs config levels depth (root.descend names)))
      (filesOf (walk fs' config' levels depth (root'.descend names))) := by
  induction levels generalizing depth names with
  | zero => exact .nil
  | succ levels ih =>
    have hlist' := hsame.list names hnames
    cases hlist : fs.list (root.descend names) with
    | error error =>
      rw [hlist] at hlist'
      rw [filesOf_walk_error hlist, filesOf_walk_error hlist'.symm]
      exact .nil
    | ok entries =>
      rw [hlist] at hlist'
      rw [filesOf_walk_ok hlist, filesOf_walk_ok hlist'.symm]
      refine forall₂_flatMap fun entry hentry => ?_
      have hmem := mem_sortedEntries.mp hentry
      have hdown : ∀ n ∈ names ++ [entry.name], Name.LeadsDown n :=
        List.forall_mem_append.mpr
          ⟨hnames, List.forall_mem_singleton.mpr (fs.leadsDown_of_list hlawful hdots hlist hmem)⟩
      have hkind := hsame.kind _ (List.append_ne_nil_of_right_ne_nil names (List.cons_ne_nil entry.name []))
        hdown
      rw [Path.descend_concat, Path.descend_concat] at hkind
      have hfile : entry.LeadsToFile fs (root.descend names)
          ↔ entry.LeadsToFile fs' (root'.descend names) := by
        unfold Entry.LeadsToFile
        rw [hkind]
      have hdir : entry.MayBeEntered config ↔ entry.MayBeEntered config' := by
        unfold Entry.MayBeEntered
        rw [hrec, hexcludes]
      by_cases hf : entry.LeadsToFile fs (root.descend names)
      · rw [filesOf_visit_file hf, filesOf_visit_file (hfile.mp hf)]
        refine .cons ⟨names, entry.name, hdown, ?_, ?_⟩ .nil
        · exact (Path.descend_concat root names entry.name).symm
        · exact (Path.descend_concat root' names entry.name).symm
      · by_cases hd : entry.MayBeEntered config
        · rw [filesOf_visit_directory hd, filesOf_visit_directory (hdir.mp hd),
            ← Path.descend_concat, ← Path.descend_concat]
          exact ih hdown
        · rw [filesOf_visit_other hf hd, filesOf_visit_other (mt hfile.mpr hf) (mt hdir.mpr hd)]
          exact .nil

end Walk

/-- A pattern picks the same files below both roots. -/
theorem considers_congr {tokens : List Glob.Token} {root root' p p' : Path}
    (h : Path.SamePlace root root' p p') :
    (Selection.mk (some tokens) root).considers p = true ↔
      (Selection.mk (some tokens) root').considers p' = true := by
  obtain ⟨names, name, hdown, rfl, rfl⟩ := h
  have hname : name ≠ [Path.dot, Path.dot] :=
    (hdown name (List.mem_append_right names (List.mem_singleton_self name))).2
  rw [considers_iff_names (root.goesOn_descend hdown) hname,
    considers_iff_names (root'.goesOn_descend hdown) hname]

/-! ## All together -/

section

variable {fs : FileSystem} {config : Config} {spec : String} {tokens : List Glob.Token}

/-- A file that a scan meets is told by names that lead to it from the root. -/
theorem Meets.goesOn (hlawful : fs.IsLawful) (hdots : fs.OmitsDots) {root path : Path}
    (h : Meets fs config root path) :
    ∃ names name, root.GoesOn path (names ++ [name]) ∧ name ≠ [Path.dot, Path.dot] := by
  obtain ⟨depth, directory, entries, entry, hvisited, hlist, hmem, _, rfl⟩ := h
  obtain ⟨names, _, hnames⟩ := hvisited.goesOn hlawful hdots
  exact ⟨names, entry.name, hnames.join (fs.isPlain_of_list hlawful hdots hlist hmem),
    (hdots directory entries hlist entry hmem).2⟩

/-- The pattern has no part in the walk: directories are not filtered. -/
theorem eventsMet_withoutPattern (hspec : config.filespec = some spec)
    (hcompiled : Glob.compile spec = .ok tokens) (hroot : fs.kind config.root = .ok .directory) :
    eventsMet fs config.withoutPattern = eventsMet fs config := by
  have hp := prepare_of_pattern hspec hcompiled hroot
  have hp' := prepare_withoutPattern hroot
  rw [eventsMet_of_directory hp hroot, eventsMet_of_directory hp' hroot]
  refine Walk.walk_congr ?_ (.of_eq ?_) ?_ ?_ ?_
  all_goals intros; rfl

/-- **The candidates with a pattern** are those without one that the pattern picks, whatever the root is. -/
theorem candidates_eq_filter (hspec : config.filespec = some spec)
    (hcompiled : Glob.compile spec = .ok tokens) :
    candidates fs config
      = (candidates fs config.withoutPattern).filter (fs.selecting config tokens).considers := by
  cases hroot : fs.kind config.root with
  | error error =>
    have hnone : ∀ config' : Config, config'.root = config.root → candidates fs config' = [] := by
      intro config' hsame
      refine List.eq_nil_iff_forall_not_mem.mpr fun path hpath => ?_
      rcases (mem_candidates.mp hpath).1 with ⟨hfile, _⟩ | ⟨hdirectory, _⟩
      · rw [hsame, hroot] at hfile
        cases hfile
      · rw [hsame, hroot] at hdirectory
        cases hdirectory
    rw [hnone config rfl, hnone config.withoutPattern rfl, List.filter_nil]
  | ok kind =>
    have hevents : Prepared.events ⟨fs.selecting config tokens, kind⟩ fs config
        = Prepared.events ⟨⟨none, fs.walkRoot config.root⟩, kind⟩ fs config.withoutPattern :=
      Prepared.events_congr_settings ⟨fs.selecting config tokens, kind⟩ rfl (fun _ => rfl) rfl
    have hall : ∀ paths : List Path,
        paths.filter (Selection.mk none (fs.walkRoot config.root)).considers = paths :=
      fun paths => List.filter_eq_self.mpr fun _ _ => rfl
    rw [candidates_of_prepared (prepare_of_pattern hspec hcompiled hroot),
      candidates_of_prepared (prepare_withoutPattern hroot), Books.consideredFiles, Books.consideredFiles,
      hall, hevents]

/-- **To give a pattern is to filter the tree.** Take settings whose pattern compiles and a root that is a
    directory. Let `fs'` be a view that has below the root what is left there when the files that the pattern
    does not pick are taken away, and the links to such files; links lead in it where they led. A scan without
    a pattern gives there what the scan gives here: the result or the error, the counters, the log and what is
    printed. A file is picked if the pattern matches its name, or matches the names that lead to it from the
    root, with slashes between them and a slash for each backslash; what is not UTF-8 is not matched. The walk
    comes across the same directories with a pattern and without. Where the same tree stands below another
    root, the same files are candidates there. The candidates are what a scan examines, as many as its limit
    allows, and the events are what it enters into its accounts. -/
theorem scan_filters (hspec : config.filespec = some spec) (hcompiled : Glob.compile spec = .ok tokens)
    (hroot : fs.kind config.root = .ok .directory) :
    (∀ fs' : FileSystem, fs.kind config.root = fs'.kind config.root →
      fs.canonical config.root = fs'.canonical config.root →
      (fs.restrict (fs.selecting config tokens)).AgreesBelow fs' (fs.walkRoot config.root) → ∀ start,
      scan fs config start = scan fs' config.withoutPattern start) ∧
    (∀ start, scan fs config start
      = scan (fs.restrict (fs.selecting config tokens)) config.withoutPattern start) ∧
    (fs.IsLawful → fs.OmitsDots → ∀ path, Meets fs config (fs.walkRoot config.root) path →
      ∃ names name, (fs.walkRoot config.root).GoesOn path (names ++ [name]) ∧
        ((fs.selecting config tokens).considers path = true ↔
          (∃ text, name = Utf8.encode text ∧ Glob.matchesText tokens text = true) ∨
          (∃ text, Path.joinNames (names ++ [name]) = Utf8.encode text ∧
            Glob.matchesText tokens (slashed text) = true))) ∧
    eventsMet fs config.withoutPattern = eventsMet fs config ∧
    candidates fs config
      = (candidates fs config.withoutPattern).filter (fs.selecting config tokens).considers ∧
    (fs.IsLawful → fs.OmitsDots → ∀ (fs' : FileSystem) (root' : Path), fs'.kind root' = .ok .directory →
      fs.SameBelow fs' (fs.walkRoot config.root) (fs'.walkRoot root') →
      List.Forall₂ (Path.SamePlace (fs.walkRoot config.root) (fs'.walkRoot root'))
        (candidates fs config) (candidates fs' (config.withRoot root'))) ∧
    (∀ (fs : FileSystem) (config : Config) start, scanTraced fs config start
      = (scan fs config start, (candidates fs config).take config.maxEntries)) ∧
    (∀ (fs : FileSystem) (config : Config) p start, prepare fs config = .ok p → scan fs config start
      = .ofBooks (Books.takeAll fs config p.selection (.start start) (eventsMet fs config))) := by
  refine ⟨?_, scan_restrict hspec hcompiled hroot, ?_, eventsMet_withoutPattern hspec hcompiled hroot,
    candidates_eq_filter hspec hcompiled, ?_, scanTraced_eq, fun _ _ _ start hp => scan_eq_takeAll hp start⟩
  · intro fs' hkind hcanonical hbelow start
    have hpicked : (fs.restrict (fs.selecting config tokens)).kind config.withoutPattern.root
        = .ok .directory := hroot
    rw [scan_restrict hspec hcompiled hroot]
    exact scan_congr_below hpicked hkind hcanonical hbelow start
  · intro hlawful hdots path hmeets
    obtain ⟨names, name, hpath, hname⟩ := hmeets.goesOn hlawful hdots
    exact ⟨names, name, hpath, considers_iff_names hpath hname⟩
  · intro hlawful hdots fs' root' hroot' hsame
    have hp := prepare_of_pattern hspec hcompiled hroot
    have hspec' : (config.withRoot root').filespec = some spec := hspec
    have hp' := prepare_of_pattern hspec' hcompiled hroot'
    have hfiles := @Walk.forall₂_filesOf_walk fs fs' config (config.withRoot root') _ _ hlawful hdots hsame rfl
      (fun _ => rfl) (config.maxDepth + 1) 0 [] (by simp)
    rw [candidates_of_prepared hp, candidates_of_prepared hp', events_of_directory hp hroot,
      events_of_directory hp' hroot']
    exact List.rel_filter (fun p p' h => considers_congr h) hfiles

/-! ## A sample -/

/-- The settings for the sample, with a pattern that a path matches and no name. -/
def patternConfig : Config := { Config.ofRoot (.ofString "/r") with filespec := some "sub/*" }

/-- The tokens of the pattern. -/
def patternTokens : List Glob.Token :=
  [.literal 's', .literal 'u', .literal 'b', .literal '/', .anySequence]

theorem compile_patternTokens : Glob.compile "sub/*" = .ok patternTokens := by
  simp [Glob.compile, Glob.compileFrom, Glob.Reading.push, Glob.Reading.start, patternTokens]

/-- The sample without the link that the pattern does not pick. -/
def pickedView : FileSystem :=
  { sampleView with
    kind := fun p => if p = .ofString "/r" then .ok .directory else .error .notFound
    list := fun p =>
      if p = .ofString "/r" then
        .ok ([⟨Utf8.bytes "shut", .ok .directory⟩, ⟨Utf8.bytes "sub", .ok .directory⟩,
          ⟨Utf8.bytes "venv", .ok .directory⟩].map .ok)
      else sampleView.list p }

/-- It is what the sample with the files that are picked shows below the root. -/
theorem pickedView_agreesBelow :
    (sampleView.restrict (sampleView.selecting patternConfig patternTokens)).AgreesBelow pickedView
      (.ofString "/r") := by
  have hroot : (sampleView.restrict (sampleView.selecting patternConfig patternTokens)).list (.ofString "/r")
      = .ok ([⟨Utf8.bytes "shut", .ok .directory⟩, ⟨Utf8.bytes "sub", .ok .directory⟩,
          ⟨Utf8.bytes "venv", .ok .directory⟩].map .ok) := rfl
  have hsub : (sampleView.restrict (sampleView.selecting patternConfig patternTokens)).list
      (.ofString "/r/sub") = .ok ([⟨Utf8.bytes "b.py", .ok .file⟩].map .ok) := rfl
  have hshut : (sampleView.restrict (sampleView.selecting patternConfig patternTokens)).list
      (.ofString "/r/shut") = .error .permission := rfl
  have hvenv : (sampleView.restrict (sampleView.selecting patternConfig patternTokens)).list
      (.ofString "/r/venv") = .error .permission := rfl
  have hholds : ∀ directory,
      (sampleView.restrict (sampleView.selecting patternConfig patternTokens)).Holds (.ofString "/r")
        directory → directory = .ofString "/r" ∨ directory = .ofString "/r/shut" ∨
          directory = .ofString "/r/sub" ∨ directory = .ofString "/r/venv" := by
    intro directory h
    induction h with
    | root => exact Or.inl rfl
    | entry _ hlist hmem hkind ih =>
      rcases ih with rfl | rfl | rfl | rfl
      · cases hroot.symm.trans hlist
        simp at hmem
        rcases hmem with rfl | rfl | rfl
        · exact Or.inr (Or.inl rfl)
        · exact Or.inr (Or.inr (Or.inl rfl))
        · exact Or.inr (Or.inr (Or.inr rfl))
      · cases hshut.symm.trans hlist
      · cases hsub.symm.trans hlist
        simp at hmem
        subst hmem
        cases hkind
      · cases hvenv.symm.trans hlist
  have hstands : ∀ path,
      (sampleView.restrict (sampleView.selecting patternConfig patternTokens)).Stands (.ofString "/r") path →
      path = .ofString "/r/shut" ∨ path = .ofString "/r/sub" ∨ path = .ofString "/r/venv" ∨
        path = .ofString "/r/sub/b.py" := by
    rintro path ⟨directory, entries, entry, hdirectory, hlist, hmem, rfl⟩
    rcases hholds directory hdirectory with rfl | rfl | rfl | rfl
    · cases hroot.symm.trans hlist
      simp at hmem
      rcases hmem with rfl | rfl | rfl
      · exact Or.inl rfl
      · exact Or.inr (Or.inl rfl)
      · exact Or.inr (Or.inr (Or.inl rfl))
    · cases hshut.symm.trans hlist
    · cases hsub.symm.trans hlist
      simp at hmem
      subst hmem
      exact Or.inr (Or.inr (Or.inr rfl))
    · cases hvenv.symm.trans hlist
  refine ⟨fun directory h => ?_, fun path h => ?_, fun _ _ => rfl⟩
  · rcases hholds directory h with rfl | rfl | rfl | rfl <;> rfl
  · rcases hstands path h with rfl | rfl | rfl | rfl <;> rfl

/-- From a path below the new place back to the one below the old place. -/
def movedBack (p : Path) : Path := ⟨Utf8.bytes "/r" ++ p.bytes.drop (Utf8.bytes "/x/sub").length⟩

/-- The sample at another place, below a directory of the name that the pattern asks for. -/
def movedView : FileSystem where
  kind p := sampleView.kind (movedBack p)
  list p := sampleView.list (movedBack p)
  canonical p := .ok p
  read p := sampleView.read (movedBack p)

theorem movedView_sameBelow : sampleView.SameBelow movedView (.ofString "/r") (.ofString "/x/sub") := by
  have hback : ∀ names : List Name, (∀ name ∈ names, name.LeadsDown) →
      (Path.ofString "/r").descend names = movedBack ((Path.ofString "/x/sub").descend names) := by
    intro names hnames
    have hproper : ∀ name ∈ names, name.IsProper := fun name hname => (hnames name hname).1.1
    have hmoved : ((Path.ofString "/x/sub").descend names).bytes
        = Utf8.bytes "/x/sub" ++ names.flatMap fun name => Path.slash :: name :=
      Path.bytes_descend (by decide) hproper
    have hsample : ((Path.ofString "/r").descend names).bytes
        = Utf8.bytes "/r" ++ names.flatMap fun name => Path.slash :: name :=
      Path.bytes_descend (by decide) hproper
    rw [movedBack, hmoved, List.drop_left, ← hsample]
  constructor
  · intro names hnames
    exact congrArg sampleView.list (hback names hnames)
  · intro names _ hnames
    exact congrArg sampleView.kind (hback names hnames)

/-- The pattern picks the file in `sub` and not the link beside it. It does so too where the same tree stands
    below another directory of this name. -/
theorem scan_filters_sampleView :
    patternConfig.filespec = some "sub/*" ∧ Glob.compile "sub/*" = .ok patternTokens ∧
    sampleView.kind patternConfig.root = .ok .directory ∧ sampleView.IsLawful ∧ sampleView.OmitsDots ∧
    scan sampleView patternConfig .zero = scan pickedView (.ofRoot (.ofString "/r")) .zero ∧
    candidates sampleView patternConfig = [.ofString "/r/sub/b.py"] ∧
    List.Forall₂ (Path.SamePlace (.ofString "/r") (.ofString "/x/sub"))
      [.ofString "/r/sub/b.py"] (candidates movedView (patternConfig.withRoot (.ofString "/x/sub"))) := by
  have hroot : sampleView.kind patternConfig.root = .ok .directory := rfl
  obtain ⟨hgone, _, _, _, hfilter, hmoved, _⟩ := scan_filters rfl compile_patternTokens hroot
  have hcandidates : candidates sampleView patternConfig = [.ofString "/r/sub/b.py"] := by
    rw [hfilter, show patternConfig.withoutPattern = .ofRoot (.ofString "/r") from rfl,
      candidates_sampleView]
    rfl
  have hboth := hmoved sampleView_isLawful sampleView_omitsDots movedView (.ofString "/x/sub") rfl
    movedView_sameBelow
  rw [hcandidates] at hboth
  exact ⟨rfl, compile_patternTokens, hroot, sampleView_isLawful, sampleView_omitsDots,
    hgone pickedView rfl rfl pickedView_agreesBelow .zero, hcandidates, hboth⟩

end

end LineCensus
