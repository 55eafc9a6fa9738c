import LineCensus.Proofs.Scan.Counters
import LineCensus.Proofs.Tally.Capacity

/-!
# `Proofs.Scan.Agreement` — the accounts of a scan agree

The result, the running counters and the log are written at different places of a scan. They agree all the
same, because each of them is a sum over the same candidates and the same troubles. A scan may start from any
counters of 64 bits; it adds the same to all of them, in 64 bits again.

## Contents
- `FileSystem.effort_eq` and `count_dispositions`: every file is counted, or of no known language, or fails to
  be read, and never two of these.
- `sum_effort`, `filter_warn_logged` and `filter_debug_logged`, the counters and the log over all events.
- `ScanRun.BooksAgree`, with `booksAgree_of_prepared`, and `ofFiles?_of_prepared` for the result in 64 bits.
- `scan_booksAgree`.
-/

namespace LineCensus

namespace FileSystem

variable {fs : FileSystem}

/-! ## One file -/

/-- A file that is neither counted nor fails to be read is of no known language. -/
theorem ofPath?_eq_none {path : Path} (hcounted : fs.counted? path = none)
    (hfails : ¬fs.FailsToRead path) : Language.ofPath? path = none := by
  cases hlanguage : Language.ofPath? path with
  | none => rfl
  | some language =>
    refine absurd ⟨by rw [hlanguage]; rfl, ?_⟩ hfails
    cases hlines : fs.lines? path with
    | none => rfl
    | some lines => simp [counted?, hlanguage, hlines] at hcounted

theorem isSome_ofPath?_of_counted? {path : Path} {file : String × LineCounts}
    (h : fs.counted? path = some file) : (Language.ofPath? path).isSome = true := by
  obtain ⟨language, hlanguage, _⟩ := Option.bind_eq_some_iff.mp h
  rw [hlanguage]
  rfl

/-- **What a file adds to the counters**: one to one of the three, and its lines if it is counted. -/
theorem effort_eq (fs : FileSystem) (path : Path) :
    fs.effort path =
      { files := (fs.counted? path).toList.length
        lines := ((fs.counted? path).toList.map (·.2.total)).sum
        unsupported := if (Language.ofPath? path).isNone then 1 else 0
        unreadable := if fs.FailsToRead path then 1 else 0 } := by
  rcases fs.analyze_cases path with ⟨language, n, hok, hcounted, hfails⟩ | ⟨reason, herr, hcounted, hfails⟩
  · have hlanguage : (Language.ofPath? path).isNone = false :=
      Option.isNone_eq_false_iff.mpr (isSome_ofPath?_of_counted? hcounted)
    simp [effort, hok, hcounted, hlanguage, hfails, Activity.count, Activity.zero]
  · by_cases hf : fs.FailsToRead path
    · have hlanguage : (Language.ofPath? path).isNone = false := Option.isNone_eq_false_iff.mpr hf.1
      simp [effort, herr, hcounted, hlanguage, hf, hfails.mpr hf, Activity.skip, Activity.zero]
    · have hlanguage : Language.ofPath? path = none := ofPath?_eq_none hcounted hf
      simp [effort, herr, hcounted, hlanguage, hf, mt hfails.mp hf, Activity.skip, Activity.zero]

/-- Exactly one of the three holds of every file. -/
theorem count_dispositions (fs : FileSystem) (path : Path) :
    [(fs.counted? path).isSome, (Language.ofPath? path).isNone, decide (fs.FailsToRead path)].count true
      = 1 := by
  rcases fs.analyze_cases path with ⟨language, n, _, hcounted, hfails⟩ | ⟨reason, _, hcounted, _⟩
  · have hlanguage : (Language.ofPath? path).isNone = false :=
      Option.isNone_eq_false_iff.mpr (isSome_ofPath?_of_counted? hcounted)
    simp [hcounted, hlanguage, hfails]
  · by_cases hf : fs.FailsToRead path
    · have hlanguage : (Language.ofPath? path).isNone = false := Option.isNone_eq_false_iff.mpr hf.1
      simp [hcounted, hlanguage, hf]
    · simp [hcounted, ofPath?_eq_none hcounted hf, hf]

/-- A reason to skip a file is given exactly if the file is not counted. -/
theorem isSome_skipReason? (fs : FileSystem) (path : Path) :
    (fs.skipReason? path).isSome = (fs.counted? path).isNone := by
  unfold skipReason?
  rcases fs.analyze_cases path with ⟨language, n, hok, hcounted, _⟩ | ⟨reason, herr, hcounted, _⟩
  · rw [hok, hcounted]
    rfl
  · rw [herr, hcounted]
    rfl

/-! ## All files -/

/-- **The counters over all files.** -/
theorem sum_effort (fs : FileSystem) (files : List Path) :
    (files.map fs.effort).sum =
      { files := files.countP fun path => (fs.counted? path).isSome
        lines := ((files.filterMap fs.counted?).map (·.2.total)).sum
        unsupported := files.countP fun path => (Language.ofPath? path).isNone
        unreadable := files.countP (fs.FailsToRead ·) } := by
  induction files with
  | nil => rfl
  | cons path rest ih =>
    rw [List.map_cons, List.sum_cons, ih, effort_eq, Books.filterMap_counted?_cons]
    simp only [List.countP_cons, List.map_append, List.sum_append, decide_eq_true_eq]
    cases fs.counted? path <;> ext <;> simp [Nat.add_comm]

/-- Each of the files is in one of the three counts. -/
theorem countP_dispositions (fs : FileSystem) (files : List Path) :
    files.countP (fun path => (fs.counted? path).isSome)
      + files.countP (fun path => (Language.ofPath? path).isNone)
      + files.countP (fs.FailsToRead ·) = files.length := by
  induction files with
  | nil => rfl
  | cons path rest ih =>
    have hone := fs.count_dispositions path
    simp only [List.count_cons, List.count_nil, beq_true] at hone
    simp only [List.countP_cons, List.length_cons]
    omega

/-- As many reasons to skip a file are given as files are of no known language or fail to be read. -/
theorem length_skipReasons (fs : FileSystem) (files : List Path) :
    (files.filterMap fs.skipReason?).length
      = files.countP (fun path => (Language.ofPath? path).isNone) + files.countP (fs.FailsToRead ·) := by
  have hskipped : (files.filterMap fs.skipReason?).length
      = files.countP fun path => ¬(fs.counted? path).isSome = true := by
    rw [List.length_filterMap_eq_countP]
    refine List.countP_congr fun path _ => ?_
    rw [isSome_skipReason?]
    cases fs.counted? path <;> simp
  -- the files that are not counted are those of the two other kinds
  have hsplit := List.length_eq_countP_add_countP (fun path => (fs.counted? path).isSome) (l := files)
  have hthree := fs.countP_dispositions files
  omega

end FileSystem

/-! ## The log over all events -/

namespace Books

/-- Warnings are logged for troubles and for nothing else, in their order. -/
theorem filter_warn_logged (fs : FileSystem) (selection : Selection) (events : List Event) :
    (events.flatMap (logged fs selection)).filter (fun record => record.level = .warn)
      = (Walk.troublesOf events).map Trouble.record := by
  induction events with
  | nil => rfl
  | cons event rest ih =>
    rw [List.flatMap_cons, List.filter_append, ih]
    cases event with
    | listed depth directory => rfl
    | trouble t => rfl
    | file path =>
      have hnone : (logged fs selection (.file path)).filter (fun record => record.level = .warn) = [] := by
        by_cases hc : selection.considers path = true
        · cases hr : fs.skipReason? path <;> simp [logged, hc, hr, SkipReason.record]
        · simp [logged, hc]
      rw [hnone]
      rfl

theorem countP_warn_logged (fs : FileSystem) (selection : Selection) (events : List Event) :
    (events.flatMap (logged fs selection)).countP (fun record => record.level = .warn)
      = (Walk.troublesOf events).length := by
  rw [List.countP_eq_length_filter, filter_warn_logged, List.length_map]

/-- Debug records are logged for the files that are skipped and for nothing else, in their order. -/
theorem filter_debug_logged (fs : FileSystem) (selection : Selection) (events : List Event) :
    (events.flatMap (logged fs selection)).filter (fun record => record.level = .debug)
      = ((consideredFiles selection events).filterMap fs.skipReason?).map SkipReason.record := by
  induction events with
  | nil => rfl
  | cons event rest ih =>
    rw [List.flatMap_cons, List.filter_append, ih]
    cases event with
    | listed depth directory => rfl
    | trouble t => rfl
    | file path =>
      by_cases hc : selection.considers path = true
      · rw [consideredFiles_file hc]
        cases hr : fs.skipReason? path <;> simp [logged, hc, hr, SkipReason.record]
      · rw [consideredFiles_ignored hc]
        simp [logged, hc]

end Books

/-! ## The accounts side by side -/

/-- The accounts of a scan that adds `growth` to the counters and comes to `outcome` agree. -/
structure ScanRun.BooksAgree (run : ScanRun) (fs : FileSystem) (config : Config) (growth : Activity)
    (outcome : Outcome) : Prop where
  files : growth.files = outcome.tally.grandTotal.files
  lines : growth.lines = outcome.tally.grandTotal.lines.total
  unreadable : growth.unreadable = outcome.unreadable
  /-- Each candidate is counted once. -/
  total : growth.files + growth.unsupported + growth.unreadable = (candidates fs config).length
  counted : growth.files = (candidates fs config).countP fun path => (fs.counted? path).isSome
  /-- Whether a file of no known language could be read does not matter. -/
  unsupported : growth.unsupported = (candidates fs config).countP fun path => (Language.ofPath? path).isNone
  failed : growth.unreadable = (candidates fs config).countP (fs.FailsToRead ·)
  warnings : run.log.countP (fun record => record.level = .warn) = outcome.troubles
  skips : run.log.filter (fun record => record.level = .debug)
    = ((candidates fs config).filterMap fs.skipReason?).map SkipReason.record
  skipped : (run.log.filter fun record => record.level = .debug).length = growth.unsupported + growth.unreadable

variable {fs : FileSystem} {config : Config} {start : Activity} {outcome : Outcome} {v : Overflow} {run : ScanRun}

theorem booksAgree_of_prepared {p : Prepared} (h : prepare fs config = .ok p)
    (hok : (scan fs config 0).result = .ok outcome) :
    (scan fs config 0).BooksAgree fs config (scan fs config 0).activity outcome := by
  -- the scan ends well, so the limit holds all candidates
  have hfits := fits_of_result_ok hok
  have hentered : Books.consideredFiles p.selection (p.entered fs config) = candidates fs config := by
    rw [Prepared.entered_of_fits h hfits, candidates_of_prepared h]
  rw [scan_of_prepared h] at hok ⊢
  simp only [if_pos hfits, List.take_of_length_le hfits, zero_add] at hok ⊢
  cases hok
  have hrow := Tally.grandTotal_ofFiles ((candidates fs config).filterMap fs.counted?)
  have hthree := fs.countP_dispositions (candidates fs config)
  have hdebug := Books.filter_debug_logged fs p.selection (p.entered fs config)
  rw [hentered] at hdebug
  constructor <;> simp only [fs.sum_effort, hrow, hdebug]
  · rw [List.length_filterMap_eq_countP]
  · rw [LineCounts.sum_total, List.map_map]
    rfl
  · omega
  · exact Books.countP_warn_logged ..
  · rw [List.length_map, fs.length_skipReasons]

/-- The counts of a file are sound. -/
theorem FileSystem.isSound_of_counted? {path : Path} {file : String × LineCounts}
    (h : fs.counted? path = some file) : file.2.IsSound := by
  obtain ⟨language, _, hlines⟩ := Option.bind_eq_some_iff.mp h
  obtain ⟨lines, _, rfl⟩ := Option.map_eq_some_iff.mp hlines
  exact LineCounts.isSound_classify ..

/-- **The result in 64 bits** is the result, if what the scan adds to the counters fits. -/
theorem ofFiles?_of_prepared {p : Prepared} (h : prepare fs config = .ok p)
    (hok : (scan fs config 0).result = .ok outcome) (hfits : (scan fs config 0).activity.Fits) :
    Tally.ofFiles? ((candidates fs config).filterMap fs.counted?) = some outcome.tally ∧
    outcome.tally.grandTotal? = some outcome.tally.grandTotal := by
  have hroom := fits_of_result_ok hok
  have htally : outcome.tally = .ofFiles ((candidates fs config).filterMap fs.counted?) := by
    rw [scan_of_prepared h] at hok
    simp only [if_pos hroom, List.take_of_length_le hroom] at hok
    cases hok
    rfl
  -- the files that are counted and their lines are what the scan adds to the counters
  have hbooks := booksAgree_of_prepared h hok
  have hfiles := hbooks.files
  have hlines := hbooks.lines
  rw [htally, Tally.grandTotal_ofFiles] at hfiles hlines
  have hall : Tally.FilesFit ((candidates fs config).filterMap fs.counted?) := by
    refine ⟨fun file hfile => ?_, hfiles.symm.trans_lt hfits.1, hlines.symm.trans_lt hfits.2.1⟩
    obtain ⟨path, _, hcounted⟩ := List.mem_filterMap.mp hfile
    exact FileSystem.isSound_of_counted? hcounted
  rw [htally]
  exact ⟨hall.ofFiles?_eq_some, hall.fits_ofFiles.grandTotal?_eq_some⟩

/-- **The accounts of a scan agree**, whatever the counters of 64 bits that it starts from. What it adds to them is
    what the result says, and its candidates are what the rules say, each one once and in exactly one of the three
    counts. The counters grow by exactly this as long as 64 bits hold them, and else by what 64 bits hold of it. If it
    fits by itself, so does the result.

    The counters at the start change neither the result nor what is added to them, with a bound and without. So the
    counters of a series of scans add up, in 64 bits: in a build that drops bits whatever they are, and in one that
    stops as long as they fit. -/
theorem scan_booksAgree (hstart : start.Fits) (hrun : scan? v fs config start = some run)
    (hok : run.result = .ok outcome) :
    ∃ growth : Activity,
      (start + growth).hold? v = some run.activity ∧
      ((start + growth).Fits → run.activity = start + growth) ∧
      run.BooksAgree fs config growth outcome ∧
      (∀ path, path ∈ candidates fs config ↔
        ComesAcross fs config path ∧ config.Selects (fs.walkRoot config.root) path) ∧
      (fs.IsLawful → (candidates fs config).Nodup) ∧
      (∀ path, [(fs.counted? path).isSome, (Language.ofPath? path).isNone,
        decide (fs.FailsToRead path)].count true = 1) ∧
      (growth.Fits → Tally.ofFiles? ((candidates fs config).filterMap fs.counted?) = some outcome.tally ∧
        outcome.tally.grandTotal? = some outcome.tally.grandTotal) ∧
      (∀ w other, other.Fits → scan? w fs config other
        = ((other + growth).hold? w).map fun activity => { run with activity := activity }) ∧
      (∀ other, scan fs config other = { run with activity := other + growth }) ∧
      (∀ w jobs, (scanSeries? w start jobs).map Prod.snd
          = (start + (jobs.map fun job => (scan job.1 job.2 0).activity).sum).hold? w ∧
        ∀ runs last, scanSeries? w start jobs = some (runs, last) →
          runs.map (fun run => (run.result, run.log, run.printed))
            = jobs.map fun job =>
                ((scan job.1 job.2 0).result, (scan job.1 job.2 0).log, (scan job.1 job.2 0).printed)) := by
  rw [scan?_eq_add v fs config hstart] at hrun
  obtain ⟨activity, hheld, rfl⟩ := Option.map_eq_some_iff.mp hrun
  obtain ⟨p, hprepared⟩ := prepared_of_result_ok hok
  have hbooks := booksAgree_of_prepared hprepared hok
  refine ⟨(scan fs config 0).activity, hheld, fun hfits => Activity.eq_of_hold?_eq_some hfits hheld,
    { hbooks with }, fun _ => mem_candidates, nodup_candidates,
    fs.count_dispositions, ofFiles?_of_prepared hprepared hok, fun w other hother => scan?_eq_add w fs config hother,
    scan_activity fs config, fun w jobs => ⟨scanSeries?_activity w hstart jobs, ?_⟩⟩
  exact fun runs last hseries => scanSeries?_results hstart hseries

/-- In the sample view one file is counted, one cannot be read, and one directory is passed over. -/
theorem activity_sampleView : (scan sampleView (.ofRoot (.ofString "/r")) 0).activity = ⟨1, 1, 0, 1⟩ := by
  show (ScanRun.ofBooks (Books.takeAll sampleView (.ofRoot (.ofString "/r"))
    ⟨none, .ofString "/r"⟩ (.start .zero)
    (Walk.walk sampleView (.ofRoot (.ofString "/r")) 101 0 (.ofString "/r")))).activity = _
  rw [walk_sampleView]
  decide +kernel

/-- From counters that are full but for one file: a build that drops bits goes on from zero, and one that stops does
    not come to the end. -/
theorem scan_booksAgree_sampleView :
    Activity.Fits ⟨7, 18446744073709551615, 2, 3⟩ ∧
    ∃ run, scan? .wraps sampleView (.ofRoot (.ofString "/r")) ⟨7, 18446744073709551615, 2, 3⟩ = some run ∧
      run.result = .ok ⟨⟨[("C/C++", ⟨1, ⟨1, 0, 0, 1⟩⟩)]⟩, 1, 1⟩ ∧
      run.activity = ⟨8, 0, 2, 4⟩ ∧
      run.log.countP (fun record => record.level = .warn) = 1 ∧
      (candidates sampleView (.ofRoot (.ofString "/r"))).Nodup ∧
      scan? .stops sampleView (.ofRoot (.ofString "/r")) ⟨7, 18446744073709551615, 2, 3⟩ = none ∧
      (scanSeries? .wraps ⟨7, 18446744073709551615, 2, 3⟩
        (List.replicate 2 (sampleView, .ofRoot (.ofString "/r")))).map Prod.snd = some ⟨9, 1, 2, 5⟩ := by
  have hstart : Activity.Fits ⟨7, 18446744073709551615, 2, 3⟩ := by decide
  have hrun : scan? .wraps sampleView (.ofRoot (.ofString "/r")) ⟨7, 18446744073709551615, 2, 3⟩
      = some { scan sampleView (.ofRoot (.ofString "/r")) 0 with activity := ⟨8, 0, 2, 4⟩ } := by
    rw [scan?_eq_add .wraps _ _ hstart, activity_sampleView]
    rfl
  obtain ⟨growth, _, _, hbooks, _, hnodup, _, _, hother, hexact, hseries⟩ := scan_booksAgree hstart hrun scan_sampleView
  have hgrowth : growth = ⟨1, 1, 0, 1⟩ := by
    have hactivity := congrArg ScanRun.activity (hexact 0)
    rw [activity_sampleView, zero_add] at hactivity
    exact hactivity.symm
  refine ⟨hstart, _, hrun, scan_sampleView, rfl, hbooks.warnings, hnodup sampleView_isLawful, ?_, ?_⟩
  · rw [hother .stops _ hstart, hgrowth]
    rfl
  · rw [(hseries .wraps _).1, List.replicate_succ, List.replicate_succ, List.replicate_zero]
    simp only [List.map_cons, List.map_nil, List.sum_cons, List.sum_nil, activity_sampleView]
    rfl

end LineCensus
