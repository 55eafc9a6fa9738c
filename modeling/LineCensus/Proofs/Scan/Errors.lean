import LineCensus.Proofs.Scan.Limit
import LineCensus.Proofs.Scan.Narrowing
import LineCensus.Proofs.Scan.Termination

/-!
# `Proofs.Scan.Errors` — what ends a scan early, and what does not

A scan fails before its walk if its pattern does not compile or its root cannot be looked up, and then it has
done nothing. After that only one file too many makes it fail. Whatever else goes wrong on the way is passed
over, and the scan goes on where it stands.

## Contents
- `prepare_cases`, all that can come before a walk; `result_eq_error_iff`, every error that a scan can end with.
- `ScanState.Steps.resumes`: a task that is pending is come back to, whatever the tasks before it come to.
- `FileSystem.faultless`, a view in which nothing goes wrong, with `candidates_faultless`.
- `scan_errors`.
-/

namespace LineCensus

/-- There is no pattern, or it compiles. -/
def Config.Compiles (config : Config) : Prop :=
  ∀ spec ∈ config.filespec, ∃ tokens, Glob.compile spec = .ok tokens

section

variable {fs : FileSystem} {config : Config} {selection : Selection}

/-! ## Before the walk -/

theorem Config.not_compiles {spec : String} {fault : Glob.Fault} (hspec : config.filespec = some spec)
    (hfault : Glob.compile spec = .error fault) : ¬config.Compiles := by
  intro h
  obtain ⟨tokens, htokens⟩ := h spec hspec
  rw [hfault] at htokens
  cases htokens

theorem Config.pattern_cases (config : Config) :
    (config.Compiles ∧ ∃ pattern, config.pattern = .ok pattern) ∨
    (∃ spec fault, config.filespec = some spec ∧ Glob.compile spec = .error fault ∧
      config.pattern = .error (.invalidFilespec spec fault)) := by
  cases hspec : config.filespec with
  | none =>
    refine Or.inl ⟨fun spec h => ?_, none, by simp only [pattern, hspec]⟩
    rw [hspec] at h
    cases h
  | some spec =>
    cases hcompiled : Glob.compile spec with
    | error fault => exact Or.inr ⟨spec, fault, rfl, hcompiled, by simp only [pattern, hspec, hcompiled]⟩
    | ok tokens =>
      refine Or.inl ⟨fun other h => ?_, some tokens, by simp only [pattern, hspec, hcompiled]⟩
      rw [hspec] at h
      cases h
      exact ⟨tokens, hcompiled⟩

theorem FileSystem.rootKind_eq_os {root : Path} {error : OsError} (hkind : fs.kind root = .error error)
    (hne : error ≠ .notFound) : fs.rootKind root = .error (.os error) := by
  unfold rootKind
  rw [hkind]
  cases error with
  | notFound => exact absurd rfl hne
  | _ => rfl

/-- **All that can come before a walk**: a pattern that does not compile, or else a root that is not there, or one
    that cannot be looked up for another reason, or else what the walk needs. -/
theorem prepare_cases (fs : FileSystem) (config : Config) :
    (∃ spec fault, config.filespec = some spec ∧ Glob.compile spec = .error fault ∧
      prepare fs config = .error (.invalidFilespec spec fault)) ∨
    (config.Compiles ∧ fs.kind config.root = .error .notFound ∧
      prepare fs config = .error (.pathNotFound config.root)) ∨
    (config.Compiles ∧ ∃ error, fs.kind config.root = .error error ∧ error ≠ .notFound ∧
      prepare fs config = .error (.os error)) ∨
    (config.Compiles ∧ ∃ kind p, fs.kind config.root = .ok kind ∧ prepare fs config = .ok p) := by
  rcases config.pattern_cases with ⟨hcompiles, pattern, hpattern⟩ | ⟨spec, fault, hspec, hfault, hpattern⟩
  · right
    cases hkind : fs.kind config.root with
    | ok kind =>
      exact Or.inr (Or.inr ⟨hcompiles, kind, _, rfl, by
        simp only [prepare, hpattern, FileSystem.rootKind_eq_ok.mpr hkind]; rfl⟩)
    | error error =>
      by_cases hmissing : error = .notFound
      · subst hmissing
        exact Or.inl ⟨hcompiles, rfl, by simp only [prepare, hpattern, FileSystem.rootKind, hkind]⟩
      · refine Or.inr (Or.inl ⟨hcompiles, error, rfl, hmissing, ?_⟩)
        simp only [prepare, hpattern, FileSystem.rootKind_eq_os hkind hmissing]
  · exact Or.inl ⟨spec, fault, hspec, hfault, by simp only [prepare, hpattern]⟩

theorem prepare_eq_invalidFilespec_iff {spec : String} {fault : Glob.Fault} :
    prepare fs config = .error (.invalidFilespec spec fault) ↔
      config.filespec = some spec ∧ Glob.compile spec = .error fault := by
  constructor
  · intro h
    rcases prepare_cases fs config with ⟨_, _, hspec, hfault, hp⟩ | ⟨_, _, hp⟩ | ⟨_, _, _, _, hp⟩ |
      ⟨_, _, _, _, hp⟩
    all_goals rw [hp] at h; cases h
    exact ⟨hspec, hfault⟩
  · rintro ⟨hspec, hfault⟩
    simp only [prepare, Config.pattern, hspec, hfault]

theorem prepare_eq_pathNotFound_iff {root : Path} :
    prepare fs config = .error (.pathNotFound root) ↔
      config.Compiles ∧ fs.kind config.root = .error .notFound ∧ root = config.root := by
  rcases prepare_cases fs config with ⟨_, _, hspec, hfault, hp⟩ | ⟨hc, hkind, hp⟩ | ⟨_, _, hkind, hne, hp⟩ |
    ⟨_, _, _, hkind, hp⟩
  · simp [hp, Config.not_compiles hspec hfault]
  · simp [hp, hc, hkind, eq_comm]
  · simp [hp, hkind, hne]
  · simp [hp, hkind]

theorem prepare_eq_os_iff {error : OsError} :
    prepare fs config = .error (.os error) ↔
      config.Compiles ∧ fs.kind config.root = .error error ∧ error ≠ .notFound := by
  rcases prepare_cases fs config with ⟨_, _, hspec, hfault, hp⟩ | ⟨_, hkind, hp⟩ | ⟨hc, found, hkind, hne, hp⟩ |
    ⟨_, _, _, hkind, hp⟩
  · simp [hp, Config.not_compiles hspec hfault]
  · simp only [hp, hkind, Except.error.injEq, reduceCtorEq, false_iff]
    rintro ⟨_, rfl, hne⟩
    exact hne rfl
  · simp only [hp, hc, hkind, Except.error.injEq, ScanError.os.injEq, true_and]
    constructor
    · rintro rfl
      exact ⟨rfl, hne⟩
    · exact fun h => h.1
  · simp [hp, hkind]

theorem prepare_ne_tooManyEntries {limit : Nat} : prepare fs config ≠ .error (.tooManyEntries limit) := by
  rcases prepare_cases fs config with ⟨_, _, _, _, hp⟩ | ⟨_, _, hp⟩ | ⟨_, _, _, _, hp⟩ | ⟨_, _, _, _, hp⟩
  all_goals simp [hp]

/-! ## The result -/

/-- A scan that does not come to its walk has done nothing. -/
theorem scan_of_prepare_error {error : ScanError} (h : prepare fs config = .error error) (start : Activity) :
    scan fs config start = ⟨.error error, start, [], []⟩ := by
  unfold scan
  rw [h]

/-- **Every error that a scan can end with** arises before its walk, or it is the error of the limit. -/
theorem result_eq_error_iff {start : Activity} {error : ScanError} :
    (scan fs config start).result = .error error ↔
      prepare fs config = .error error ∨
      error = .tooManyEntries config.maxEntries ∧ config.maxEntries < (candidates fs config).length := by
  cases hp : prepare fs config with
  | error found =>
    rw [scan_of_prepare_error hp, candidates_of_error hp]
    simp
  | ok p =>
    rw [scan_of_prepared hp]
    by_cases hfits : (candidates fs config).length ≤ config.maxEntries
    · simp [hfits]
    · simp [hfits, Nat.not_le.mp hfits, eq_comm]

/-- What comes before a walk asks only what the root is. -/
theorem prepare_error_congr {fs' : FileSystem} (hkind : fs.kind config.root = fs'.kind config.root)
    {error : ScanError} (h : prepare fs config = .error error) : prepare fs' config = .error error := by
  have hroot : fs'.rootKind config.root = fs.rootKind config.root := by
    unfold FileSystem.rootKind
    rw [hkind]
  unfold prepare at h ⊢
  rw [hroot]
  cases hpattern : config.pattern with
  | error found => rw [hpattern] at h; exact h
  | ok pattern =>
    cases hfound : fs.rootKind config.root with
    | error found => rw [hpattern, hfound] at h; exact h
    | ok kind => rw [hpattern, hfound] at h; cases h

/-! ## What is pending -/

namespace ScanState

/-- **A scan goes on where it stands.** Whatever tasks are done first, and whatever they come to, the tasks that
    are pending behind them are come back to as they are, unless there is one file too many. -/
theorem Steps.resumes (fs : FileSystem) (config : Config) (selection : Selection) (first others : List Task)
    (b : Books) :
    (∃ b', Steps fs config selection (.running (first ++ others) b) (.running others b')) ∨
    (∃ b', Steps fs config selection (.running (first ++ others) b)
      (.stopped b' (.tooManyEntries config.maxEntries))) := by
  -- by induction on what is left to do, since a task may make way for several
  generalize hs : running (first ++ others) b = s
  induction s using (wellFounded_step? fs config selection).induction generalizing first b with
  | _ s ih =>
    subst hs
    cases first with
    | nil => exact Or.inl ⟨b, .refl⟩
    | cons task more =>
      have hstep : (running (task :: more ++ others) b).step? fs config selection
          = some (task.perform fs config selection (more ++ others) b) := rfl
      rcases task.perform_running (more ++ others) b with ⟨next, b', hnext⟩ | ⟨_, _, _, _, hstopped⟩
      · rw [hnext, ← List.append_assoc] at hstep
        rcases ih _ hstep (next ++ more) b' rfl with ⟨b'', hsteps⟩ | ⟨b'', hsteps⟩
        · exact Or.inl ⟨b'', .head hstep hsteps⟩
        · exact Or.inr ⟨b'', .head hstep hsteps⟩
      · rw [hstopped] at hstep
        exact Or.inr ⟨b, .single hstep⟩

end ScanState

/-- A scan that is stopped ends with the error that has stopped it. -/
theorem result_of_steps_stopped {p : Prepared} (h : prepare fs config = .ok p) {start : Activity} {b : Books}
    {error : ScanError}
    (hsteps : ScanState.Steps fs config p.selection (p.firstState start) (.stopped b error)) :
    (scan fs config start).result = .error error := by
  have hrun := run_of_steps h hsteps rfl
  rw [← Option.some.inj hrun]
  rfl

/-! ## Without faults -/

/-- Does the entry of the directory give a scan anything to do? A link does only if it leads to a file. -/
def Entry.isOfUse (fs : FileSystem) (directory : Path) (entry : Entry) : Bool :=
  match entry.kind with
  | .error _ => false
  | .ok .file => true
  | .ok .directory => true
  | .ok .link => fs.isFile (directory.join entry.name)
  | .ok .other => false

/-- Is the entry of a listing of use? One that fails is not. -/
def FileSystem.usable (fs : FileSystem) (directory : Path) : Except OsError Entry → Bool
  | .ok entry => entry.isOfUse fs directory
  | .error _ => false

/-- The view in which nothing goes wrong: a directory that cannot be listed is empty, entries that fail or are of
    no use are not there, and every file can be read and has the content that is given. -/
def FileSystem.faultless (fs : FileSystem) (contents : Path → List UInt8) : FileSystem where
  kind := fs.kind
  list p := .ok (((fs.list p).toOption.getD []).filter (fs.usable p))
  canonical := fs.canonical
  read p := .ok (contents p)

namespace Walk

theorem sortedEntries_usable (directory : Path) (entries : List (Except OsError Entry)) :
    sortedEntries (entries.filter (fs.usable directory))
      = (sortedEntries entries).filter (Entry.isOfUse fs directory) := by
  have hshown : sortedEntries (entries.filter (FileSystem.shows (Entry.isOfUse fs) directory))
      = (sortedEntries entries).filter (Entry.isOfUse fs directory) := sortedEntries_filter directory entries
  rw [← hshown]
  unfold sortedEntries
  rw [List.filterMap_filter, List.filterMap_filter]
  refine congrArg (List.mergeSort · _) (List.filterMap_congr fun e _ => ?_)
  cases e with
  | ok entry => rfl
  | error error => rfl

/-- **A walk meets the same files if nothing goes wrong**, in the same order. -/
theorem filesOf_walk_faultless (contents : Path → List UInt8) {levels depth : Nat} {directory : Path} :
    filesOf (walk (fs.faultless contents) config levels depth directory)
      = filesOf (walk fs config levels depth directory) := by
  induction levels generalizing depth directory with
  | zero => rfl
  | succ levels ih =>
    cases hlist : fs.list directory with
    | error error =>
      -- neither view has a file here: one lists nothing, the other cannot list
      have hlist' : (fs.faultless contents).list directory = .ok [] := by
        simp only [FileSystem.faultless, hlist]
        rfl
      have hnone : sortedEntries [] = [] := List.mergeSort_nil
      rw [filesOf_walk_ok hlist', filesOf_walk_error hlist, hnone]
      rfl
    | ok entries =>
      have hlist' : (fs.faultless contents).list directory
          = .ok (entries.filter (fs.usable directory)) := by
        simp only [FileSystem.faultless, hlist]
        rfl
      rw [filesOf_walk_ok hlist', filesOf_walk_ok hlist, sortedEntries_usable, flatMap_filter]
      refine List.flatMap_congr fun entry _ => ?_
      cases hkind : entry.kind with
      | error error => simp [Entry.isOfUse, visit, hkind, filesOf, file?]
      | ok kind =>
        cases kind with
        | file => simp [Entry.isOfUse, visit, hkind]
        | directory =>
          by_cases hleft : (config.nonRecursive || config.excludes entry.name) = true
          · simp [Entry.isOfUse, visit, hkind, hleft]
          · simp [Entry.isOfUse, visit, hkind, hleft, ih]
        | link =>
          have hsame : (fs.faultless contents).isFile (directory.join entry.name)
              = fs.isFile (directory.join entry.name) := rfl
          by_cases hleads : fs.isFile (directory.join entry.name) = true
          · simp [Entry.isOfUse, visit, hkind, hsame, hleads]
          · simp [Entry.isOfUse, visit, hkind, hleads, filesOf]
        | other => simp [Entry.isOfUse, visit, hkind, filesOf]

end Walk

/-- **The candidates are the same if nothing goes wrong.** -/
theorem candidates_faultless (contents : Path → List UInt8) :
    candidates (fs.faultless contents) config = candidates fs config := by
  have hprepare : prepare (fs.faultless contents) config = prepare fs config := rfl
  cases hp : prepare fs config with
  | error error => rw [candidates_of_error (hprepare.trans hp), candidates_of_error hp]
  | ok p =>
    rw [candidates_of_prepared (hprepare.trans hp), candidates_of_prepared hp]
    refine congrArg (List.filter p.selection.considers) ?_
    unfold Prepared.events
    cases p.kind with
    | file => rfl
    | directory => exact Walk.filesOf_walk_faultless contents
    | link => rfl
    | other => rfl

/-- **What ends a scan early, and what does not.** A pattern that does not compile does, whatever the root; or else
    a root that is not there, which the error names as it was given; or else a root that cannot be looked up for
    another reason, and then the error is the reason. In these three cases the scan has looked at nothing but the
    root, and has counted, logged and printed nothing. After that a scan can only end with the error of the limit,
    and it does so exactly if there are more candidates than the limit allows. Nothing else ends it, or keeps it
    from going on: in every state that it comes to, the tasks that are pending behind others, the siblings that come
    later at any level, are come back to, whatever the others come to, unless there is one file too many. And if
    nothing at all went wrong, with listings, entries, links and contents, the scan would examine the same files and
    end with the same error, if with any. -/
theorem scan_errors (fs : FileSystem) (config : Config) (start : Activity) :
    (∀ spec fault, (scan fs config start).result = .error (.invalidFilespec spec fault) ↔
      config.filespec = some spec ∧ Glob.compile spec = .error fault) ∧
    (∀ root, (scan fs config start).result = .error (.pathNotFound root) ↔
      config.Compiles ∧ fs.kind config.root = .error .notFound ∧ root = config.root) ∧
    (∀ error, (scan fs config start).result = .error (.os error) ↔
      config.Compiles ∧ fs.kind config.root = .error error ∧ error ≠ .notFound) ∧
    (∀ limit, (scan fs config start).result = .error (.tooManyEntries limit) ↔
      limit = config.maxEntries ∧ config.maxEntries < (candidates fs config).length) ∧
    (∀ error, (scan fs config start).result = .error error → (∀ limit, error ≠ .tooManyEntries limit) →
      ∀ fs' : FileSystem, fs.kind config.root = fs'.kind config.root →
        scan fs' config start = ⟨.error error, start, [], []⟩) ∧
    (∀ p, prepare fs config = .ok p → ∀ first others b,
      ScanState.Steps fs config p.selection (p.firstState start) (.running (first ++ others) b) →
      (∃ b', ScanState.Steps fs config p.selection (.running (first ++ others) b) (.running others b')) ∨
      (scan fs config start).result = .error (.tooManyEntries config.maxEntries)) ∧
    (∀ contents, (scanTraced (fs.faultless contents) config start).2 = (scanTraced fs config start).2 ∧
      ∀ error, (scan (fs.faultless contents) config start).result = .error error ↔
        (scan fs config start).result = .error error) := by
  refine ⟨fun spec fault => ?_, fun root => ?_, fun error => ?_, fun limit => ?_, ?_, ?_, fun contents => ⟨?_, ?_⟩⟩
  · rw [result_eq_error_iff, prepare_eq_invalidFilespec_iff]
    simp
  · rw [result_eq_error_iff, prepare_eq_pathNotFound_iff]
    simp
  · rw [result_eq_error_iff, prepare_eq_os_iff]
    simp
  · rw [result_eq_error_iff, ScanError.tooManyEntries.injEq]
    exact or_iff_right prepare_ne_tooManyEntries
  · intro error herror hlimit fs' hkind
    rcases result_eq_error_iff.mp herror with hp | ⟨hover, _⟩
    · exact scan_of_prepare_error (prepare_error_congr hkind hp) start
    · exact absurd hover (hlimit _)
  · intro p hp first others b hsteps
    refine (ScanState.Steps.resumes fs config p.selection first others b).imp_right ?_
    rintro ⟨b', hstopped⟩
    exact result_of_steps_stopped hp (hsteps.trans hstopped)
  · rw [scanTraced_snd, scanTraced_snd, candidates_faultless]
  · intro error
    rw [result_eq_error_iff, result_eq_error_iff, candidates_faultless]
    rfl

end

/-- The settings of a scan of a root that is missing, with a set that has no end. -/
def unclosedConfig : Config := { Config.ofRoot (.ofString "/missing") with filespec := some "[" }

/-- A pattern that does not compile is the error although the root is missing; and that `shut` cannot be listed
    does not keep the scan from what comes after it. -/
theorem scan_errors_sampleView :
    (scan sampleView unclosedConfig .zero).result = .error (.invalidFilespec "[" ⟨0, .setRange⟩) ∧
    (scan sampleView (.ofRoot (.ofString "/missing")) .zero).result
      = .error (.pathNotFound (.ofString "/missing")) ∧
    (∀ fs : FileSystem, fs.kind (.ofString "/missing") = .error .notFound →
      scan fs (.ofRoot (.ofString "/missing")) .zero
        = ⟨.error (.pathNotFound (.ofString "/missing")), .zero, [], []⟩) ∧
    (scanTraced (sampleView.faultless fun _ => []) (.ofRoot (.ofString "/r")) .zero).2
      = (scanTraced sampleView (.ofRoot (.ofString "/r")) .zero).2 ∧
    (scanTraced sampleView (.ofRoot (.ofString "/r")) .zero).2
      = [.ofString "/r/link.c", .ofString "/r/sub/b.py"] := by
  obtain ⟨hpattern, -⟩ := scan_errors sampleView unclosedConfig .zero
  obtain ⟨-, hmissing, -, -, hnothing, -⟩ := scan_errors sampleView (.ofRoot (.ofString "/missing")) .zero
  obtain ⟨-, -, -, -, -, -, hfaultless⟩ := scan_errors sampleView (.ofRoot (.ofString "/r")) .zero
  have hresult := (hmissing (.ofString "/missing")).mpr ⟨nofun, rfl, rfl⟩
  refine ⟨(hpattern "[" ⟨0, .setRange⟩).mpr ⟨rfl, by decide +kernel⟩, hresult, fun fs hkind => ?_,
    (hfaultless fun _ => []).1, ?_⟩
  · exact hnothing _ hresult (fun _ => nofun) fs hkind.symm
  · rw [scanTraced_snd, candidates_sampleView]
    rfl

end LineCensus
