import LineCensus.Proofs.Scan.Agreement
import LineCensus.Proofs.Scan.Congruence

/-!
# `Proofs.Scan.Limit` — a scan that is stopped by its limit

The candidates of a scan do not depend on how many of them may be examined. With room for all of them the
scan ends well, and how much more room there is makes no difference. With less room it ends with an error,
and what it leaves behind is what the first candidates come to.

## Contents
- `candidates_withLimit` and `Prepared.events_withLimit`: the limit has no part in the walk.
- `ScanRun.Covers`, all that a scan does for files, as that of a given list of files.
- `scan_limit`.
-/

namespace LineCensus

/-- The same settings with another limit. -/
def Config.withLimit (config : Config) (limit : Nat) : Config := { config with maxEntries := limit }

variable {fs : FileSystem} {config : Config}

/-! ## The limit has no part in the walk -/

theorem prepare_withLimit (fs : FileSystem) (config : Config) (limit : Nat) :
    prepare fs (config.withLimit limit) = prepare fs config := rfl

theorem Prepared.events_withLimit (p : Prepared) (limit : Nat) :
    p.events fs (config.withLimit limit) = p.events fs config :=
  p.events_congr_settings rfl (fun _ => rfl) rfl

theorem candidates_withLimit (fs : FileSystem) (config : Config) (limit : Nat) :
    candidates fs (config.withLimit limit) = candidates fs config :=
  candidates_congr (prepare_withLimit fs config limit) fun p _ => p.events_withLimit limit

/-! ## What is done for files -/

/-- All that a scan does for files, from the counters `start` on, it does for `files`, in this order: these
    are added to the counters, these are reported, and of these the ones that are skipped are logged. -/
structure ScanRun.Covers (run : ScanRun) (fs : FileSystem) (verbose : Bool) (start : Activity)
    (files : List Path) : Prop where
  activity : run.activity = start + (files.map fs.effort).sum
  printed : run.printed = if verbose then files.filterMap fs.report? else []
  logged : run.log.filter (fun record => record.level = .debug)
    = (files.filterMap fs.skipReason?).map SkipReason.record

/-- The counters grow by one for each file that is covered. -/
theorem ScanRun.Covers.length {run : ScanRun} {verbose : Bool} {start : Activity} {files : List Path}
    (h : run.Covers fs verbose start files) :
    run.activity.files + run.activity.unsupported + run.activity.unreadable
      = start.files + start.unsupported + start.unreadable + files.length := by
  have hthree := fs.countP_dispositions files
  rw [h.activity, fs.sum_effort]
  simp only [Activity.add_files, Activity.add_unsupported, Activity.add_unreadable]
  omega

/-- A scan covers the first candidates, as many as the limit allows, however it ends. -/
theorem scan_covers (fs : FileSystem) (config : Config) (start : Activity) :
    (scan fs config start).Covers fs config.verbose start
      ((candidates fs config).take config.maxEntries) := by
  cases hprepared : prepare fs config with
  | error error =>
    rw [candidates_of_error hprepared, List.take_nil]
    unfold scan
    rw [hprepared]
    exact ⟨(add_zero start).symm, (ite_self []).symm, rfl⟩
  | ok p =>
    have hentered : Books.consideredFiles p.selection (p.entered fs config)
        = (candidates fs config).take config.maxEntries := by
      rw [candidates_of_prepared hprepared]
      exact Books.consideredFiles_withinLimit ..
    rw [scan_of_prepared hprepared]
    refine ⟨rfl, rfl, ?_⟩
    rw [← hentered]
    exact Books.filter_debug_logged ..

/-- A scan that ends well examines its candidates, and comes to what they add up to. -/
theorem scan_of_ok {start : Activity} {outcome : Outcome} (hok : (scan fs config start).result = .ok outcome) :
    (scanTraced fs config start).2 = candidates fs config ∧
    outcome.tally = .ofFiles ((candidates fs config).filterMap fs.counted?) ∧
    outcome.unreadable = (candidates fs config).countP (fs.FailsToRead ·) ∧
    outcome.troubles = (troublesMet fs config).length ∧
    (scan fs config start).log.filter (fun record => record.level = .warn)
      = (troublesMet fs config).map Trouble.record := by
  have hfits := fits_of_result_ok hok
  obtain ⟨p, hp⟩ := prepared_of_result_ok hok
  have hentered : p.entered fs config = eventsMet fs config := by
    rw [Prepared.entered_of_fits hp hfits, eventsMet_of_prepared hp]
  rw [scanTraced_snd, List.take_of_length_le hfits]
  rw [scan_of_prepared hp, hentered, List.take_of_length_le hfits] at hok ⊢
  simp only [if_pos hfits] at hok
  cases hok
  exact ⟨rfl, rfl, rfl, rfl, Books.filter_warn_logged ..⟩

/-! ## The limit -/

/-- With room for all candidates, how much room there is makes no difference. -/
theorem scan_withLimit {p : Prepared} (h : prepare fs config = .ok p) {limit : Nat}
    (hfits : (candidates fs config).length ≤ config.maxEntries)
    (hfits' : (candidates fs config).length ≤ limit) (start : Activity) :
    scan fs (config.withLimit limit) start = scan fs config start := by
  have hp' : prepare fs (config.withLimit limit) = .ok p := h
  have hentered : p.entered fs (config.withLimit limit) = p.entered fs config := by
    rw [Prepared.entered_of_fits hp' (by rw [candidates_withLimit]; exact hfits'),
      p.events_withLimit, Prepared.entered_of_fits h hfits]
  have hlimit : (config.withLimit limit).maxEntries = limit := rfl
  rw [scan_of_prepared h, scan_of_prepared hp', candidates_withLimit, hentered, hlimit]
  simp only [if_pos hfits, if_pos hfits', List.take_of_length_le hfits, List.take_of_length_le hfits']
  rfl

/-- **A scan does exactly what its limit allows.** Take any settings whose pattern compiles and whose root
    exists. The candidates do not depend on the limit. The scan ends well exactly if the limit holds them
    all, and then a limit that holds them as well makes no difference. Otherwise it ends with the error
    that names the limit. In both cases it examines the first candidates in traversal order, as many as
    the limit allows: these are counted, reported and logged, and what any other file holds does not matter,
    since it is not read. -/
theorem scan_limit {kind : NodeKind}
    (hspec : ∀ spec ∈ config.filespec, ∃ tokens, Glob.compile spec = .ok tokens)
    (hroot : fs.kind config.root = .ok kind) (start : Activity) :
    (∀ path, path ∈ candidates fs config ↔
      ComesAcross fs config path ∧ config.Selects (fs.walkRoot config.root) path) ∧
    (fs.IsLawful → (candidates fs config).Nodup) ∧
    (∀ limit, candidates fs (config.withLimit limit) = candidates fs config) ∧
    ((∃ outcome, (scan fs config start).result = .ok outcome) ↔
      (candidates fs config).length ≤ config.maxEntries) ∧
    (∀ limit, (candidates fs config).length ≤ config.maxEntries →
      (candidates fs config).length ≤ limit →
      scan fs (config.withLimit limit) start = scan fs config start) ∧
    (config.maxEntries < (candidates fs config).length →
      (scan fs config start).result = .error (.tooManyEntries config.maxEntries)) ∧
    scanTraced fs config start
      = (scan fs config start, (candidates fs config).take config.maxEntries) ∧
    (scan fs config start).Covers fs config.verbose start
      ((candidates fs config).take config.maxEntries) ∧
    (scan fs config start).activity.files + (scan fs config start).activity.unsupported
        + (scan fs config start).activity.unreadable
      = start.files + start.unsupported + start.unreadable
        + min (candidates fs config).length config.maxEntries ∧
    (∀ fs' : FileSystem, (∀ p, fs.kind p = fs'.kind p) → (∀ p, fs.canonical p = fs'.canonical p) →
      (∀ p, fs.list p = fs'.list p) →
      (∀ path ∈ (candidates fs config).take config.maxEntries, fs.read path = fs'.read path) →
      scan fs' config start = scan fs config start) := by
  obtain ⟨p, hp⟩ := exists_prepare hspec hroot
  have hcovers := scan_covers fs config start
  refine ⟨fun _ => mem_candidates, nodup_candidates, candidates_withLimit fs config, ?_,
    fun limit hfits hfits' => scan_withLimit hp hfits hfits' start, ?_, ?_, hcovers, ?_, ?_⟩
  · rw [scan_of_prepared hp]
    by_cases hfits : (candidates fs config).length ≤ config.maxEntries
    · simp [hfits]
    · simp [hfits]
  · intro hover
    rw [scan_of_prepared hp]
    exact if_neg (Nat.not_le.mpr hover)
  · exact scanTraced_eq fs config start
  · rw [hcovers.length, List.length_take, Nat.min_comm]
  · intro fs' hkind hcanonical hlist hread
    exact (scan_congr hkind hcanonical (.of_eq hlist) hread start).symm

theorem candidates_sampleView :
    candidates sampleView (.ofRoot (.ofString "/r"))
      = [.ofString "/r/link.c", .ofString "/r/sub/b.py"] := by
  show Books.consideredFiles ⟨none, .ofString "/r"⟩
    (Walk.walk sampleView (.ofRoot (.ofString "/r")) 101 0 (.ofString "/r")) = _
  rw [walk_sampleView]
  rfl

/-- The limit is crossed one level below the root, by a file that is not read: a view in which it can be read
    gives the same scan. -/
theorem scan_limit_sampleView :
    sampleView.kind (.ofString "/r") = .ok .directory ∧
    (scan sampleView ((Config.ofRoot (.ofString "/r")).withLimit 1) .zero).result
      = .error (.tooManyEntries 1) ∧
    (scanTraced sampleView ((Config.ofRoot (.ofString "/r")).withLimit 1) .zero).2
      = [.ofString "/r/link.c"] ∧
    scan { sampleView with
        read := fun p => if p = .ofString "/r/sub/b.py" then .ok [] else sampleView.read p }
        ((Config.ofRoot (.ofString "/r")).withLimit 1) .zero
      = scan sampleView ((Config.ofRoot (.ofString "/r")).withLimit 1) .zero := by
  have hspec : ∀ spec ∈ ((Config.ofRoot (.ofString "/r")).withLimit 1).filespec,
      ∃ tokens, Glob.compile spec = .ok tokens := by
    intro spec h
    cases h
  have hroot : sampleView.kind ((Config.ofRoot (.ofString "/r")).withLimit 1).root = .ok .directory := rfl
  obtain ⟨_, _, _, _, _, herror, htraced, _, _, hread⟩ := scan_limit hspec hroot .zero
  rw [candidates_withLimit, candidates_sampleView] at herror htraced hread
  refine ⟨hroot, herror (by decide), by rw [htraced]; rfl, ?_⟩
  refine hread _ (fun _ => rfl) (fun _ => rfl) (fun _ => rfl) ?_
  intro path hpath
  have hlink : path = .ofString "/r/link.c" := List.mem_singleton.mp hpath
  subst hlink
  rfl

end LineCensus
