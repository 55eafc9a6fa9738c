import LineCensus.Proofs.Report.Views
import LineCensus.Proofs.Scan.Limit
import LineCensus.Proofs.Tally.Rows

/-!
# `Proofs.Scan.Verbose` — reports of single files

A scan that reports its files one by one does the same as one that does not. It prints a block for each file
that it counts, in the order in which it comes across them, and the blocks of a language add up to the row
that the result has for it.

## Contents
- `FileReport.Describes`, what a block says of a file; `FileSystem.report?_eq` and `forall₂_reports`, the
  blocks of a list of files.
- `Config.withVerbose` and `scan_withVerbose`: all but the blocks stays as it is.
- `scan_verbose`.
-/

namespace LineCensus

/-! ## The blocks -/

/-- The block names the file and its language, and it has the counts of the lines of this very file. -/
def FileReport.Describes (fs : FileSystem) (path : Path) (report : FileReport) : Prop :=
  ∃ language lines, Language.ofPath? path = some language ∧ fs.lines? path = some lines ∧
    report = ⟨path, language.name, language.markers.classify lines⟩

namespace FileSystem

/-- A block is printed of what a file adds to the tally. -/
theorem report?_eq (fs : FileSystem) (path : Path) :
    fs.report? path = (fs.counted? path).map fun file => ⟨path, file.1, file.2⟩ := by
  unfold report?
  rcases fs.analyze_cases path with ⟨language, n, hok, hcounted, _⟩ | ⟨reason, herr, hcounted, _⟩
  · rw [hok, hcounted]
    rfl
  · rw [herr, hcounted]
    rfl

variable {fs : FileSystem}

theorem describes_of_report? {path : Path} {report : FileReport} (h : fs.report? path = some report) :
    report.Describes fs path := by
  rw [report?_eq] at h
  obtain ⟨file, hcounted, hreport⟩ := Option.map_eq_some_iff.mp h
  obtain ⟨language, hlanguage, hlines⟩ := Option.bind_eq_some_iff.mp hcounted
  obtain ⟨lines, hlines, hfile⟩ := Option.map_eq_some_iff.mp hlines
  refine ⟨language, lines, hlanguage, hlines, ?_⟩
  rw [← hreport, ← hfile]

/-- **The blocks of a list of files** describe those of them that are counted, one each and in this order. -/
theorem forall₂_reports (files : List Path) :
    List.Forall₂ (FileReport.Describes fs) (files.filter fun path => (fs.counted? path).isSome)
      (files.filterMap fs.report?) := by
  induction files with
  | nil => exact .nil
  | cons path rest ih =>
    cases hreport : fs.report? path with
    | none =>
      have hcounted : (fs.counted? path).isSome ≠ true := by
        rw [report?_eq, Option.map_eq_none_iff] at hreport
        rw [hreport]
        exact Bool.false_ne_true
      rw [List.filter_cons, if_neg hcounted, List.filterMap_cons_none hreport]
      exact ih
    | some report =>
      have hcounted : (fs.counted? path).isSome = true := by
        rw [report?_eq] at hreport
        obtain ⟨file, hfile, _⟩ := Option.map_eq_some_iff.mp hreport
        rw [hfile]
        rfl
      rw [List.filter_cons, if_pos hcounted, List.filterMap_cons_some hreport]
      exact .cons (describes_of_report? hreport) ih

/-- What the blocks say of languages and counts is what their files add to the tally. -/
theorem map_reports (files : List Path) :
    (files.filterMap fs.report?).map (fun report => (report.language, report.counts))
      = files.filterMap fs.counted? := by
  rw [List.map_filterMap]
  refine List.filterMap_congr fun path _ => ?_
  rw [report?_eq, Option.map_map]
  exact Option.map_id'

end FileSystem

/-! ## With and without reports -/

/-- The same settings, with or without reports of single files. -/
def Config.withVerbose (config : Config) (verbose : Bool) : Config := { config with verbose := verbose }

variable {fs : FileSystem} {config : Config}

theorem prepare_withVerbose (fs : FileSystem) (config : Config) (verbose : Bool) :
    prepare fs (config.withVerbose verbose) = prepare fs config := rfl

theorem Prepared.events_withVerbose (p : Prepared) (verbose : Bool) :
    p.events fs (config.withVerbose verbose) = p.events fs config :=
  p.events_congr_settings rfl (fun _ => rfl) rfl

theorem candidates_withVerbose (fs : FileSystem) (config : Config) (verbose : Bool) :
    candidates fs (config.withVerbose verbose) = candidates fs config :=
  candidates_congr (prepare_withVerbose fs config verbose) fun p _ => p.events_withVerbose verbose

/-- **Reports change nothing but what is printed.** -/
theorem scan_withVerbose (fs : FileSystem) (config : Config) (verbose : Bool) (start : Activity) :
    scan fs (config.withVerbose verbose) start
      = { scan fs config start with printed := (scan fs (config.withVerbose verbose) start).printed } := by
  cases hprepared : prepare fs config with
  | error error =>
    have hprepared' : prepare fs (config.withVerbose verbose) = .error error := hprepared
    unfold scan
    rw [hprepared, hprepared']
  | ok p =>
    have hprepared' : prepare fs (config.withVerbose verbose) = .ok p := hprepared
    have hlimit : (config.withVerbose verbose).maxEntries = config.maxEntries := rfl
    have hentered : p.entered fs (config.withVerbose verbose) = p.entered fs config := by
      rw [Prepared.entered, Prepared.entered, p.events_withVerbose, hlimit]
    rw [scan_of_prepared hprepared, scan_of_prepared hprepared', candidates_withVerbose, hentered, hlimit]

/-! ## All together -/

/-- The run `loud` is the run `quiet` with reports of the files that are counted among those examined. What it prints
    are their blocks. -/
structure ScanRun.OnlyReports (loud quiet : ScanRun) (fs : FileSystem) (start : Activity)
    (examined : List Path) : Prop where
  result : loud.result = quiet.result
  activity : loud.activity = quiet.activity
  log : loud.log = quiet.log
  silent : quiet.output = ""
  output : loud.output = String.join (loud.printed.map FileReport.render)
  /-- Each block names its file and the language, and has the four counts. -/
  shown : ∀ report ∈ loud.printed, report.IsShownIn report.render
  /-- One block for each file that is counted, in the order in which the files are examined. -/
  blocks : List.Forall₂ (FileReport.Describes fs)
    (examined.filter fun path => (fs.counted? path).isSome) loud.printed
  files : loud.activity.files = start.files + loud.printed.length
  /-- A language has a row if it has a block. -/
  names : ∀ outcome, loud.result = .ok outcome → ∀ name,
    name ∈ outcome.tally.rows.map Prod.fst ↔ name ∈ loud.printed.map FileReport.language
  /-- The row of a language is the number of its blocks, with the sums of their counts. -/
  rows : ∀ outcome, loud.result = .ok outcome → ∀ name row, (name, row) ∈ outcome.tally.rows →
    row.AddsUp ((loud.printed.filter fun report => report.language = name).map FileReport.counts)

/-- **Reports only observe.** With and without them a scan has the same result, whether it ends well or not,
    the same counters and the same log. Without them nothing is printed. With them the blocks describe, one
    each and in the order in which they are examined, the files that the scan counts, and no other; so there
    are as many as the counter of files grows by. Each block is printed with the path of its file, the name of the
    language and the four counts. If the scan ends well, its rows are what the blocks add up to. -/
theorem scan_verbose (fs : FileSystem) (config : Config) (start : Activity) :
    (scan fs (config.withVerbose true) start).OnlyReports (scan fs (config.withVerbose false) start) fs start
      (scanTraced fs (config.withVerbose true) start).2 := by
  have hloud := scan_withVerbose fs config true start
  have hquiet := scan_withVerbose fs config false start
  have hcovers := scan_covers fs (config.withVerbose true) start
  have hsilent : (scan fs (config.withVerbose false) start).printed = [] := (scan_covers ..).printed
  have hprinted : (scan fs (config.withVerbose true) start).printed
      = (scanTraced fs (config.withVerbose true) start).2.filterMap fs.report? := by
    rw [hcovers.printed, scanTraced_snd]
    rfl
  -- if all candidates are examined, the blocks say what the tally is made from
  have htally : ∀ outcome, (scan fs (config.withVerbose true) start).result = .ok outcome →
      outcome.tally = .ofFiles ((scan fs (config.withVerbose true) start).printed.map
        fun report => (report.language, report.counts)) := by
    intro outcome hok
    obtain ⟨hexamined, htally, _⟩ := scan_of_ok hok
    rw [hprinted, hexamined, FileSystem.map_reports]
    exact htally
  constructor
  case result => rw [hloud, hquiet]
  case activity => rw [hloud, hquiet]
  case log => rw [hloud, hquiet]
  case silent =>
    rw [ScanRun.output, hsilent]
    rfl
  case output => rfl
  case shown => exact fun report _ => report.isShownIn_render
  case blocks =>
    rw [hprinted]
    exact FileSystem.forall₂_reports _
  case files =>
    -- the counter grows by one for each file that is counted, and each of these has its block
    rw [hprinted, ← (FileSystem.forall₂_reports _).length_eq, ← List.countP_eq_length_filter, scanTraced_snd,
      hcovers.activity, fs.sum_effort]
    rfl
  case names =>
    intro outcome hok name
    rw [htally outcome hok, Tally.mem_names_ofFiles, List.map_map]
    rfl
  case rows =>
    intro outcome hok name row hrow
    rw [htally outcome hok] at hrow
    have hsum := Tally.addsUp_of_mem_ofFiles hrow
    rw [List.filter_map, List.map_map] at hsum
    exact hsum

end LineCensus
