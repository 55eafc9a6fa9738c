import LineCensus.CommandLine.Run
import LineCensus.Proofs.Report.Views
import LineCensus.Proofs.Scan.Balance
import LineCensus.Proofs.Scan.Verbose

/-!
# `Proofs.CommandLine.Run` — what a call prints, and its exit status

A call that is accepted lists the languages or scans. A scan prints its opening and a block for each file as
it goes. If it ends well the closing summary and the report follow, and their figures agree, although they
are taken from different accounts. If it does not, nothing follows: what was counted so far is not shown as
if it were a result.

## Contents
- `blocksShown`, the blocks of a scan however it ends, with `scan_output`.
- `ViewsAgree` and `viewsAgree_of_ok`: the figures of the two texts.
- `run_of_languages`, `run_of_ok` and `run_of_error`: the three ways in which an accepted call goes.
- `run_answers`.
-/

namespace LineCensus

open Text CommandLine

variable {fs : FileSystem} {config : Config} {start : Activity} {outcome : Outcome}

/-! ## The blocks -/

/-- The blocks that a scan prints: one for each file that is counted among the first candidates, as many of
    these as the limit allows. -/
def blocksShown (fs : FileSystem) (config : Config) : List FileReport :=
  if config.verbose then ((candidates fs config).take config.maxEntries).filterMap fs.report? else []

/-- A scan prints its blocks, however it ends. -/
theorem scan_output (fs : FileSystem) (config : Config) (start : Activity) :
    (scan fs config start).output = String.join ((blocksShown fs config).map FileReport.render) := by
  unfold ScanRun.output
  rw [(scan_covers fs config start).printed]
  rfl

/-! ## The figures -/

/-- The closing summary and the report say the same. The number of files and that of lines stand in the line
    that says what was classified and in the line of totals; the number of unreadable files stands in the
    line that says what was skipped and in the warning, and is zero where there is no such line. -/
structure ViewsAgree (summary report : String) (outcome : Outcome) : Prop where
  files : numberIn? "Classified" 1 summary = some outcome.tally.grandTotal.files ∧
    numberIn? "TOTAL" 1 report = some outcome.tally.grandTotal.files
  lines : numberIn? "Classified" 3 summary = some outcome.tally.grandTotal.lines.total ∧
    numberIn? "TOTAL" 2 report = some outcome.tally.grandTotal.lines.total
  unreadable : numberOrZero? "Skipped" 4 summary = some outcome.unreadable ∧
    numberOrZero? "Warning:" 1 report = some outcome.unreadable

/-- The names of the languages are words, and none of them is taken for another line of the report. -/
theorem Language.isWord_name : ∀ language ∈ registry,
    IsWord language.name.toList ∧ language.name ≠ "TOTAL" ∧ language.name ≠ "Warning:" := by decide

/-- **The two texts agree** after a scan that ends well. -/
theorem viewsAgree_of_ok (hok : (scan fs config .zero).result = .ok outcome) (elapsed : Nat) :
    ViewsAgree ((scan fs config .zero).activity.summary false elapsed) (Report.report false outcome)
      outcome := by
  obtain ⟨p, hp⟩ := prepared_of_result_ok hok
  -- the counters start from zero, so they are what this scan adds to them
  have hbooks := booksAgree_of_prepared hp hok
  have hfiles : (scan fs config .zero).activity.files = outcome.tally.grandTotal.files := hbooks.files
  have hlines : (scan fs config .zero).activity.lines = outcome.tally.grandTotal.lines.total := hbooks.lines
  have hunreadable : (scan fs config .zero).activity.unreadable = outcome.unreadable := hbooks.unreadable
  -- the rows have the names of languages
  have hnames : ∀ entry ∈ outcome.tally.rows,
      IsWord entry.1.toList ∧ entry.1 ≠ "TOTAL" ∧ entry.1 ≠ "Warning:" := by
    rintro ⟨name, row⟩ hmem
    obtain ⟨language, hlanguage, rfl, _⟩ := rows_of_files hok hmem
    exact Language.isWord_name language hlanguage
  have htotal := Report.wordsOf?_total fun entry hentry => ⟨(hnames entry hentry).1, (hnames entry hentry).2.1⟩
  have hwarning := Report.wordsOf?_warning fun entry hentry => ⟨(hnames entry hentry).1, (hnames entry hentry).2.2⟩
  have hclassified := (scan fs config .zero).activity.wordsOf?_classified elapsed
  have hskipped := (scan fs config .zero).activity.wordsOf?_skipped elapsed
  refine ⟨⟨?_, ?_⟩, ⟨?_, ?_⟩, ⟨?_, ?_⟩⟩
  · rw [← hfiles]
    exact numberIn?_eq_some hclassified rfl
  · exact numberIn?_eq_some htotal rfl
  · rw [← hlines]
    exact numberIn?_eq_some hclassified rfl
  · exact numberIn?_eq_some htotal rfl
  · rw [← hunreadable]
    refine numberOrZero?_eq_some hskipped rfl fun hnone => ?_
    omega
  · refine numberOrZero?_eq_some hwarning rfl fun hnone => ?_
    unfold Outcome.warnings at hnone
    omega

/-! ## The three ways of a call -/

namespace CommandLine

variable {env : Environment} {args : List (List UInt8)} {a : Arguments} {elapsed : Nat}

/-- What a scan prints before its first block. -/
def opening : String := "linetally v0.3.0\nStarting source code analysis...\n"

/-- A call for the languages does not look at anything else. -/
theorem run_of_languages (hparse : parse (args.map Word.ofBytes) = .ok a) (hlanguages : a.languages = true) :
    run env args fs elapsed = ⟨0, Report.languageList, complaints env ++ ""⟩ := by
  unfold run respond
  rw [hparse]
  simp only [hlanguages, if_true]

theorem run_of_scan (hparse : parse (args.map Word.ofBytes) = .ok a) (hlanguages : a.languages = false) :
    run env args fs elapsed
      = { runScan env a fs elapsed with stderr := complaints env ++ (runScan env a fs elapsed).stderr } := by
  unfold run respond
  rw [hparse]
  simp only [hlanguages, Bool.false_eq_true, if_false]

theorem run_of_ok (hparse : parse (args.map Word.ofBytes) = .ok a) (hlanguages : a.languages = false)
    (hcolor : env.color = false) (hok : (scan fs a.config .zero).result = .ok outcome) :
    (run env args fs elapsed).exit = 0 ∧
    (run env args fs elapsed).stdout
      = opening ++ String.join ((blocksShown fs a.config).map FileReport.render)
        ++ (scan fs a.config .zero).activity.summary false elapsed ++ Report.report false outcome := by
  have hopening : banner false = opening := by decide
  rw [run_of_scan hparse hlanguages]
  simp only [runScan, hok, hcolor, hopening, scan_output, and_self]

theorem run_of_error {error : ScanError} (hparse : parse (args.map Word.ofBytes) = .ok a)
    (hlanguages : a.languages = false) (hcolor : env.color = false)
    (herror : (scan fs a.config .zero).result = .error error) :
    (run env args fs elapsed).exit = 1 ∧
    (run env args fs elapsed).stdout
      = opening ++ String.join ((blocksShown fs a.config).map FileReport.render) ∧
    ∃ before, (run env args fs elapsed).stderr = before ++ "Error: " ++ error.message ++ "\n" := by
  have hopening : banner false = opening := by decide
  have hline : errorLine false error = "Error: " ++ error.message ++ "\n" := rfl
  rw [run_of_scan hparse hlanguages]
  simp only [runScan, herror, hcolor, hopening, scan_output, hline, true_and]
  -- before the error stand the complaints and the log
  refine ⟨complaints env ++ renderLog env (scan fs a.config .zero).log, ?_⟩
  simp only [String.append_assoc]

/-- **What a call answers.** Take any arguments that are accepted, without colours. A call for the languages
    ends with status zero and prints their list alone, whatever else the arguments say and whatever the files
    are: a heading, and a line for each language. Any other call ends with status zero exactly if the scan ends
    well. Then it prints the opening, the blocks, the closing summary and the report, in this order, and the
    summary and the report agree. If the scan does not end well the status is one, the opening and the blocks of
    the files before the end are all that is printed, and the error is the last line of the other output. -/
theorem run_answers (hparse : parse (args.map Word.ofBytes) = .ok a) (hcolor : env.color = false)
    (fs : FileSystem) (elapsed : Nat) :
    (a.languages = true →
      (run env args fs elapsed).exit = 0 ∧ (run env args fs elapsed).stdout = Report.languageList ∧
      Report.ListsLanguages (run env args fs elapsed).stdout) ∧
    (a.languages = false →
      (∀ report ∈ blocksShown fs a.config, report.IsShownIn report.render) ∧
      ((run env args fs elapsed).exit = 0 ↔ ∃ outcome, (scan fs a.config .zero).result = .ok outcome) ∧
      (∀ outcome, (scan fs a.config .zero).result = .ok outcome → ∃ summary report,
        (run env args fs elapsed).stdout
          = opening ++ String.join ((blocksShown fs a.config).map FileReport.render) ++ summary ++ report ∧
        summary = (scan fs a.config .zero).activity.summary false elapsed ∧
        report = Report.report false outcome ∧
        ViewsAgree summary report outcome) ∧
      (∀ error, (scan fs a.config .zero).result = .error error →
        (run env args fs elapsed).exit = 1 ∧
        (run env args fs elapsed).stdout
          = opening ++ String.join ((blocksShown fs a.config).map FileReport.render) ∧
        ∃ before, (run env args fs elapsed).stderr = before ++ "Error: " ++ error.message ++ "\n")) := by
  refine ⟨fun hlanguages => ?_, fun hlanguages => ⟨fun report _ => report.isShownIn_render, ?_, ?_, ?_⟩⟩
  · rw [run_of_languages hparse hlanguages]
    exact ⟨rfl, rfl, Report.listsLanguages_languageList⟩
  · cases hresult : (scan fs a.config .zero).result with
    | ok outcome =>
      exact iff_of_true (run_of_ok hparse hlanguages hcolor hresult).1 ⟨outcome, rfl⟩
    | error error =>
      have hexit : (run env args fs elapsed).exit = 1 := (run_of_error hparse hlanguages hcolor hresult).1
      refine iff_of_false (fun hzero => ?_) (fun ⟨outcome, hok⟩ => by cases hok)
      rw [hexit] at hzero
      exact absurd hzero (by decide)
  · intro outcome hok
    exact ⟨_, _, (run_of_ok hparse hlanguages hcolor hok).2, rfl, rfl, viewsAgree_of_ok hok elapsed⟩
  · intro error herror
    exact run_of_error hparse hlanguages hcolor herror

/-- No variable is set. -/
def plainEnvironment : Environment := ⟨none, none, none, none⟩

/-- The settings of a call that reports each file and allows one. -/
def narrowArguments : Arguments := ⟨"/r", [], true, 1, 100, false, none, false⟩

theorem parse_narrowArguments :
    parse ((["-v", "-m", "1", "/r"].map Utf8.bytes).map Word.ofBytes) = .ok narrowArguments := by
  decide +kernel

/-- The second candidate is one too many. -/
theorem scan_narrowArguments :
    (scan sampleView narrowArguments.config .zero).result = .error (.tooManyEntries 1) := by
  have hconfig : narrowArguments.config = ((Config.ofRoot (.ofString "/r")).withVerbose true).withLimit 1 := rfl
  have hprepare : prepare sampleView narrowArguments.config
      = .ok ⟨⟨none, .ofString "/r"⟩, .directory⟩ := rfl
  rw [scan_of_prepared hprepare, hconfig, candidates_withLimit, candidates_withVerbose, candidates_sampleView]
  rfl

theorem blocksShown_narrowArguments :
    blocksShown sampleView narrowArguments.config = [⟨.ofString "/r/link.c", "C/C++", ⟨1, 0, 0, 1⟩⟩] := by
  have hconfig : narrowArguments.config = ((Config.ofRoot (.ofString "/r")).withVerbose true).withLimit 1 := rfl
  have hverbose : narrowArguments.config.verbose = true := rfl
  unfold blocksShown
  rw [if_pos hverbose, hconfig, candidates_withLimit, candidates_withVerbose, candidates_sampleView]
  decide +kernel

/-- Three calls: a scan that ends well, one that is stopped after its first file, and one for the languages
    with a pattern that does not compile and a root that does not exist. -/
theorem run_answers_sampleView :
    plainEnvironment.color = false ∧
    parse ((["/r"].map Utf8.bytes).map Word.ofBytes)
      = .ok ⟨"/r", [], false, 1000000, 100, false, none, false⟩ ∧
    (run plainEnvironment (["/r"].map Utf8.bytes) sampleView 0).exit = 0 ∧
    (∃ summary report, (run plainEnvironment (["/r"].map Utf8.bytes) sampleView 0).stdout
        = "linetally v0.3.0\nStarting source code analysis...\n" ++ "" ++ summary ++ report ∧
      ViewsAgree summary report ⟨⟨[("C/C++", ⟨1, ⟨1, 0, 0, 1⟩⟩)]⟩, 1, 1⟩) ∧
    (run plainEnvironment (["-v", "-m", "1", "/r"].map Utf8.bytes) sampleView 0).exit = 1 ∧
    (run plainEnvironment (["-v", "-m", "1", "/r"].map Utf8.bytes) sampleView 0).stdout
      = "linetally v0.3.0\nStarting source code analysis...\nFile: /r/link.c (C/C++)\n  Total lines: 1\n"
        ++ "  Empty lines: 0\n  Comment lines: 0\n  Code lines: 1\n\n" ∧
    (run plainEnvironment (["-l", "-f", "[", "/absent"].map Utf8.bytes) sampleView 0).stdout
      = "Supported languages:\n  Python           .py\n  JavaScript       .js\n  TypeScript       .ts .tsx\n"
        ++ "  Java             .java\n  C/C++            .c .h .cpp .hpp .cc\n  Solidity         .sol\n"
        ++ "  Vue              .vue\n" := by
  have hcolor : plainEnvironment.color = false := rfl
  have hplain : parse ((["/r"].map Utf8.bytes).map Word.ofBytes)
      = .ok ⟨"/r", [], false, 1000000, 100, false, none, false⟩ := by decide +kernel
  have hlist : parse ((["-l", "-f", "[", "/absent"].map Utf8.bytes).map Word.ofBytes)
      = .ok ⟨"/absent", [], false, 1000000, 100, false, some "[", true⟩ := by decide +kernel
  obtain ⟨_, hwell⟩ := run_answers hplain hcolor sampleView 0
  obtain ⟨_, hnarrow⟩ := run_answers parse_narrowArguments hcolor sampleView 0
  obtain ⟨hlanguages, _⟩ := run_answers hlist hcolor sampleView 0
  obtain ⟨_, hzero, hok, _⟩ := hwell rfl
  obtain ⟨summary, report, hout, _, _, hagree⟩ := hok _ scan_sampleView
  obtain ⟨_, _, _, herror⟩ := hnarrow rfl
  obtain ⟨hone, hstdout, _⟩ := herror _ scan_narrowArguments
  refine ⟨hcolor, hplain, hzero.mpr ⟨_, scan_sampleView⟩, ⟨summary, report, hout, hagree⟩, hone, ?_, ?_⟩
  · rw [hstdout, blocksShown_narrowArguments]
    decide +kernel
  · rw [(hlanguages rfl).2.1]
    decide +kernel

end CommandLine

end LineCensus
