import LineCensus.Proofs.Scan.Places
import LineCensus.Proofs.Scan.Trace

/-!
# `Proofs.Scan.Candidates` — what a scan examines and what comes of it

The candidates of a scan are the files that it meets and that its settings select. `scanTraced` is a scan
with its notes; `scan_examines_candidates` says of every scan of a directory that ends well that the notes
hold the candidates, each one once, and that the tally and the number of unreadable files are what the
candidates add up to.
-/

namespace LineCensus

/-- The settings select the file: there is no pattern, or it matches the name of the file or its path below
    the root. -/
def Config.Selects (config : Config) (root path : Path) : Prop :=
  ∀ spec ∈ config.filespec, ∃ tokens, Glob.compile spec = .ok tokens ∧
    (Selection.matchesName tokens path = true ∨ Selection.matchesRelative tokens root path = true)

/-- A candidate: a file that the scan meets below its root, and that the settings select. -/
def Candidate (fs : FileSystem) (config : Config) (path : Path) : Prop :=
  Meets fs config (fs.walkRoot config.root) path ∧
    config.Selects (fs.walkRoot config.root) path

/-- A scan, with a note of each file that it examines, in order. -/
def scanTraced (fs : FileSystem) (config : Config) (activity : Activity) : ScanRun × List Path :=
  match prepare fs config with
  | .error error => (⟨.error error, activity, [], []⟩, [])
  | .ok p =>
    let after := Books.takeTraced fs config p.selection (.start activity) (p.events fs config)
    (.ofBooks after.1, after.2)

variable {fs : FileSystem} {config : Config}

/-- The notes change nothing. -/
theorem scanTraced_fst (fs : FileSystem) (config : Config) (activity : Activity) :
    (scanTraced fs config activity).1 = scan fs config activity := by
  unfold scanTraced scan
  cases prepare fs config with
  | error error => rfl
  | ok p => exact congrArg ScanRun.ofBooks (Books.takeTraced_fst _ _)

/-! ## Before the walk -/

/-- What is prepared is what the settings say and what the view answers. -/
theorem prepare_eq_ok {p : Prepared} (h : prepare fs config = .ok p) :
    config.pattern = .ok p.selection.pattern ∧ p.selection.root = fs.walkRoot config.root ∧
      fs.rootKind config.root = .ok p.kind := by
  unfold prepare at h
  cases hpattern : config.pattern with
  | error error => rw [hpattern] at h; cases h
  | ok pattern =>
    cases hkind : fs.rootKind config.root with
    | error error => rw [hpattern, hkind] at h; cases h
    | ok kind =>
      rw [hpattern, hkind] at h
      cases h
      exact ⟨rfl, rfl, rfl⟩

/-- A selection that is prepared considers the files that the settings select. -/
theorem considers_iff_selects {s : Selection} (h : config.pattern = .ok s.pattern) {path : Path} :
    s.considers path = true ↔ config.Selects s.root path := by
  obtain ⟨pattern, root⟩ := s
  unfold Config.pattern at h
  unfold Config.Selects
  cases hspec : config.filespec with
  | none =>
    rw [hspec] at h
    cases h
    simp [Selection.considers]
  | some spec =>
    rw [hspec] at h
    cases hcompiled : Glob.compile spec with
    | error fault => simp only [hcompiled] at h; cases h
    | ok tokens =>
      simp only [hcompiled] at h
      cases h
      simp [Selection.considers, hcompiled]

/-- A root that is a directory is walked from depth zero. -/
theorem events_of_directory {p : Prepared} (h : prepare fs config = .ok p)
    (hroot : fs.kind config.root = .ok .directory) :
    p.events fs config
      = Walk.walk fs config (config.maxDepth + 1) 0 (fs.walkRoot config.root) := by
  obtain ⟨_, hwalkRoot, hkind⟩ := prepare_eq_ok h
  have hdirectory : p.kind = .directory := by
    simp only [FileSystem.rootKind, hroot] at hkind
    exact (Except.ok.inj hkind).symm
  rw [Prepared.events, hdirectory, hwalkRoot]
  rfl

/-! ## A scan that ends well -/

/-- The candidates are the files of the walk that are considered. -/
theorem mem_consideredFiles_iff {p : Prepared} (h : prepare fs config = .ok p)
    (hroot : fs.kind config.root = .ok .directory) (path : Path) :
    path ∈ Books.consideredFiles p.selection (p.events fs config) ↔ Candidate fs config path := by
  obtain ⟨hpattern, hwalkRoot, _⟩ := prepare_eq_ok h
  unfold Books.consideredFiles Candidate
  rw [List.mem_filter, events_of_directory h hroot, Walk.mem_filesOf_walk_root,
    considers_iff_selects hpattern, hwalkRoot]

theorem ofBooks_result_eq_ok {after : Books × Option ScanError} {outcome : Outcome}
    (h : (ScanRun.ofBooks after).result = .ok outcome) :
    after.2 = none ∧ outcome = after.1.outcome := by
  obtain ⟨b, error⟩ := after
  cases error with
  | none => cases h; exact ⟨rfl, rfl⟩
  | some error => cases h

/-- **A scan examines the candidates, and its result is what they add up to.** For every view and all
    settings with which a scan of a directory ends well, the files that it hands to analysis are the
    candidates, and in a lawful view it hands over none of them twice. The tally records the candidates
    whose language is known and whose lines can be had, with the counts of these lines; the number of
    unreadable files is that of the candidates of a known language whose lines cannot be had. -/
theorem scan_examines_candidates (fs : FileSystem) (config : Config) (activity : Activity)
    {outcome : Outcome} (hroot : fs.kind config.root = .ok .directory)
    (hok : (scan fs config activity).result = .ok outcome) :
    ∃ files, scanTraced fs config activity = (scan fs config activity, files) ∧
      (∀ path, path ∈ files ↔ Candidate fs config path) ∧
      (fs.IsLawful → files.Nodup) ∧
      outcome.tally = Tally.ofFiles (files.filterMap fs.counted?) ∧
      outcome.unreadable = files.countP (fs.FailsToRead ·) := by
  refine ⟨(scanTraced fs config activity).2, by rw [← scanTraced_fst], ?_⟩
  rw [← scanTraced_fst] at hok
  unfold scanTraced at hok ⊢
  cases hprepared : prepare fs config with
  | error error => rw [hprepared] at hok; cases hok
  | ok p =>
    rw [hprepared] at hok
    -- the scan ends well, so the limit is not reached and no file considered is left out
    obtain ⟨hnone, rfl⟩ := ofBooks_result_eq_ok hok
    obtain ⟨htally, hunreadable⟩ :=
      @Books.takeTraced_outcome fs config p.selection (.start activity) (p.events fs config)
    have hfiles := Books.takeTraced_snd_of_none hnone
    refine ⟨?_, ?_, htally, ?_⟩
    · intro path
      show path ∈ (Books.takeTraced fs config p.selection _ _).2 ↔ _
      rw [hfiles]
      exact mem_consideredFiles_iff hprepared hroot path
    · intro hlawful
      show (Books.takeTraced fs config p.selection _ _).2.Nodup
      rw [hfiles, events_of_directory hprepared hroot]
      exact (Walk.nodup_filesOf_walk hlawful _ _ _).filter _
    · show (Books.takeTraced fs config p.selection _ _).1.1.outcome.unreadable = _
      rw [hunreadable]
      exact Nat.zero_add _

/-- A listing that is in the order of the names is taken as it is. -/
theorem Walk.walk_of_sorted {levels depth : Nat} {directory : Path} {entries : List Entry}
    (hlist : fs.list directory = .ok (entries.map .ok))
    (hsorted : entries.Pairwise fun a b => a.name ≤ b.name) :
    walk fs config (levels + 1) depth directory
      = .listed depth directory
        :: entries.flatMap (visit fs config (walk fs config levels (depth + 1)) directory) := by
  have hkept : entries.mergeSort (fun a b => decide (a.name ≤ b.name)) = entries :=
    List.mergeSort_of_pairwise (hsorted.imp fun h => decide_eq_true h)
  simp only [walk, hlist, entryTroubles_map_ok, sortedEntries_map_ok, hkept]
  rfl

/-- A directory with a link to a file, a directory that cannot be listed, one with a file that cannot be
    read, and one that the settings leave out by default. -/
def sampleView : FileSystem where
  kind p :=
    if p = .ofString "/r" then .ok .directory
    else if p = .ofString "/r/link.c" then .ok .file
    else .error .notFound
  list p :=
    if p = .ofString "/r" then
      .ok ([⟨Utf8.bytes "link.c", .ok .link⟩, ⟨Utf8.bytes "shut", .ok .directory⟩,
        ⟨Utf8.bytes "sub", .ok .directory⟩, ⟨Utf8.bytes "venv", .ok .directory⟩].map .ok)
    else if p = .ofString "/r/sub" then .ok ([⟨Utf8.bytes "b.py", .ok .file⟩].map .ok)
    else .error .permission
  canonical p := .ok p
  read p :=
    if p = .ofString "/r/link.c" then .ok (Utf8.bytes "int a;\n") else .error .permission

theorem sampleView_isLawful : sampleView.IsLawful := by
  intro directory entries hlist
  simp only [sampleView] at hlist
  split at hlist
  · cases hlist
    exact ⟨by decide, by simp; decide⟩
  · split at hlist
    · cases hlist
      exact ⟨by decide, by simp; decide⟩
    · cases hlist

theorem sampleView_omitsDots : sampleView.OmitsDots := by
  intro directory entries hlist
  simp only [sampleView] at hlist
  split at hlist
  · cases hlist
    simp
    decide
  · split at hlist
    · cases hlist
      simp
      decide
    · cases hlist

/-- The walk goes through `sub` where it stands among the entries, and not through `venv`. -/
theorem walk_sampleView :
    Walk.walk sampleView (.ofRoot (.ofString "/r")) 101 0 (.ofString "/r") =
      [.listed 0 (.ofString "/r"), .file (.ofString "/r/link.c"),
       .trouble (.directory (.ofString "/r/shut") .permission),
       .listed 1 (.ofString "/r/sub"), .file (.ofString "/r/sub/b.py")] := by
  have hsub : Walk.walk sampleView (.ofRoot (.ofString "/r")) 100 1 (.ofString "/r/sub")
      = [.listed 1 (.ofString "/r/sub"), .file (.ofString "/r/sub/b.py")] := by
    rw [Walk.walk_of_sorted rfl (by decide)]
    rfl
  rw [Walk.walk_of_sorted rfl (by decide)]
  show [.listed 0 (.ofString "/r"), .file (.ofString "/r/link.c"),
      .trouble (.directory (.ofString "/r/shut") .permission)]
    ++ (Walk.walk sampleView (.ofRoot (.ofString "/r")) 100 1 (.ofString "/r/sub") ++ []) = _
  rw [hsub]
  rfl

/-- One file is counted and one cannot be read. -/
theorem scan_sampleView :
    (scan sampleView (.ofRoot (.ofString "/r")) .zero).result
      = .ok ⟨⟨[("C/C++", ⟨1, ⟨1, 0, 0, 1⟩⟩)]⟩, 1, 1⟩ := by
  show (ScanRun.ofBooks (Books.takeAll sampleView (.ofRoot (.ofString "/r"))
    ⟨none, .ofString "/r"⟩ (.start .zero)
    (Walk.walk sampleView (.ofRoot (.ofString "/r")) 101 0 (.ofString "/r")))).result = _
  rw [walk_sampleView]
  decide +kernel

theorem scan_examines_candidates_sampleView :
    sampleView.kind (Config.ofRoot (.ofString "/r")).root = .ok .directory ∧
    (scan sampleView (.ofRoot (.ofString "/r")) .zero).result
      = .ok ⟨⟨[("C/C++", ⟨1, ⟨1, 0, 0, 1⟩⟩)]⟩, 1, 1⟩ ∧
    sampleView.IsLawful ∧
    ∃ files, scanTraced sampleView (.ofRoot (.ofString "/r")) .zero
        = (scan sampleView (.ofRoot (.ofString "/r")) .zero, files) ∧
      (∀ path, path ∈ files ↔ Candidate sampleView (.ofRoot (.ofString "/r")) path) ∧
      files.Nodup ∧
      (⟨[("C/C++", ⟨1, ⟨1, 0, 0, 1⟩⟩)]⟩ : Tally)
        = Tally.ofFiles (files.filterMap sampleView.counted?) ∧
      1 = files.countP (sampleView.FailsToRead ·) := by
  have hroot : sampleView.kind (Config.ofRoot (.ofString "/r")).root = .ok .directory := rfl
  obtain ⟨files, hfiles, hmem, hnodup, htally, hunreadable⟩ :=
    scan_examines_candidates sampleView (.ofRoot (.ofString "/r")) .zero hroot scan_sampleView
  exact ⟨hroot, scan_sampleView, sampleView_isLawful, files, hfiles, hmem,
    hnodup sampleView_isLawful, htally, hunreadable⟩

end LineCensus
