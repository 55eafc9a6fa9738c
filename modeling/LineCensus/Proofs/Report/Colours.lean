import LineCensus.Proofs.Report.Views
import LineCensus.Proofs.Text.Style

/-!
# `Proofs.Report.Colours` — colour changes nothing but colour

The report and the closing summary are put together from texts that are painted, figures and headings, and texts
that are not. The table is one of the latter: it is the same with colours and without, and stands in lines of its
own.

## Contents
- `Activity.summarySpans` and `Activity.summaryOf_eq_showAll`, the parts of the closing summary.
- `Report.headingSpans` and `Report.closingSpans`, the parts above the table and behind it;
  `Report.report_eq_showAll`.
- `Report.lacks_table`, the table.
- `colours_strip`.
-/

namespace LineCensus

open Text Decimal

/-! ## The closing summary -/

namespace Activity

/-- The parts of the line that says what was skipped, if so many files were. -/
def skippedSpans (a : Activity) (skipped : Nat) : List Span :=
  if 0 < skipped then
    [.plain "Skipped ", .painted .figure (toString a.unsupported), .plain " unsupported and ",
      .painted .figure (toString a.unreadable), .plain " unreadable file(s)\n"]
  else []

/-- The parts of the closing summary. -/
def summarySpans (a : Activity) (elapsed skipped : Nat) : List Span :=
  [.plain "\n", .painted .heading "Performance Summary:", .plain "\nClassified ",
    .painted .figure (toString a.files), .plain " file(s), ", .painted .figure (toString a.lines),
    .plain " line(s) in ", .painted .figure (fixed 2 (seconds elapsed)), .plain "s (",
    .painted .figure (fixed 1 (rate a.lines (seconds elapsed))), .plain " lines/sec)\n"]
    ++ a.skippedSpans skipped

/-- **The closing summary** is the text of its parts, with colours and without. -/
theorem summaryOf_eq_showAll (a : Activity) (color : Bool) (elapsed skipped : Nat) :
    a.summaryOf color elapsed skipped = Span.showAll color (a.summarySpans elapsed skipped) := by
  apply String.toList_inj.mp
  unfold summaryOf summarySpans skippedSpans Span.showAll
  split <;> simp [Span.shown]

theorem noControl_of_mem_skippedSpans (a : Activity) (skipped : Nat) :
    ∀ span ∈ a.skippedSpans skipped, NoControl span.text := by
  unfold skippedSpans
  split
  · simp only [List.forall_mem_cons]
    exact ⟨by decide, noControl_toString _, by decide, noControl_toString _, by decide, nofun⟩
  · nofun

theorem noControl_of_mem_summarySpans (a : Activity) (elapsed skipped : Nat) :
    ∀ span ∈ a.summarySpans elapsed skipped, NoControl span.text := by
  unfold summarySpans
  refine List.forall_mem_append.mpr ⟨?_, a.noControl_of_mem_skippedSpans skipped⟩
  simp only [List.forall_mem_cons]
  exact ⟨by decide, by decide, by decide, noControl_toString _, by decide, noControl_toString _, by decide,
    noControl_fixed _ _, by decide, noControl_fixed _ _, by decide, nofun⟩

end Activity

/-! ## The report -/

namespace Report

/-- The parts above the table. -/
def headingSpans : List Span := [.plain "\n", .painted .heading "Line statistics by language:", .plain "\n"]

/-- The parts of a line of the overall summary. -/
def shareSpans (label : String) (part whole : Nat) : List Span :=
  [.plain (label ++ " "), .painted .figure (toString part), .plain " (",
    .painted .figure (fixed 1 (percentage part whole) ++ "%"), .plain ")\n"]

/-- The parts of the overall summary. -/
def summarySpans (t : Tally) : List Span :=
  if t.isEmpty then []
  else
    let lines := t.grandTotal.lines
    [.plain "\n", .painted .heading "Overall Summary:", .plain "\n"]
      ++ (shareSpans "Code lines:   " lines.code lines.total
      ++ (shareSpans "Comment lines:" lines.comment lines.total
      ++ shareSpans "Empty lines:  " lines.empty lines.total))

/-- The parts of the warning. -/
def warningSpans (o : Outcome) : List Span :=
  if 0 < o.warnings then
    [.plain "\n", .painted .alarm "Warning", .plain ": ", .painted .figure (toString o.unreadable),
      .plain " unreadable file(s), ", .painted .figure (toString o.troubles), .plain " traversal error(s)\n"]
  else []

/-- The parts behind the table. -/
def closingSpans (o : Outcome) : List Span := summarySpans o.tally ++ warningSpans o

theorem summary_eq_showAll (color : Bool) (t : Tally) : summary color t = Span.showAll color (summarySpans t) := by
  apply String.toList_inj.mp
  unfold summary summarySpans Span.showAll
  split
  · rfl
  · simp [summaryLine, shareSpans, Span.shown]

theorem warning_eq_showAll (color : Bool) (o : Outcome) : warning color o = Span.showAll color (warningSpans o) := by
  apply String.toList_inj.mp
  unfold warning warningOf warningSpans Span.showAll
  split
  · simp [Span.shown]
  · rfl

/-- **The report** is the table between the texts of these parts, with colours and without. -/
theorem report_eq_showAll (color : Bool) (o : Outcome) :
    report color o = Span.showAll color headingSpans ++ table o.tally ++ Span.showAll color (closingSpans o) := by
  have hheading : "\n" ++ paint color .heading "Line statistics by language:" ++ "\n"
      = Span.showAll color headingSpans := by
    apply String.toList_inj.mp
    simp [headingSpans, Span.showAll, Span.shown]
  rw [closingSpans, Span.showAll_append, ← summary_eq_showAll, ← warning_eq_showAll, ← hheading,
    ← String.append_assoc]
  rfl

theorem noControl_of_mem_shareSpans {label : String} (hlabel : NoControl label) (part whole : Nat) :
    ∀ span ∈ shareSpans label part whole, NoControl span.text := by
  unfold shareSpans
  simp only [List.forall_mem_cons]
  exact ⟨hlabel.append (by decide), noControl_toString _, by decide, (noControl_fixed _ _).append (by decide),
    by decide, nofun⟩

theorem noControl_of_mem_closingSpans (o : Outcome) : ∀ span ∈ closingSpans o, NoControl span.text := by
  refine List.forall_mem_append.mpr ⟨?_, ?_⟩
  · unfold summarySpans
    split
    · nofun
    · simp only [List.forall_mem_append]
      exact ⟨by decide, noControl_of_mem_shareSpans (by decide) _ _, noControl_of_mem_shareSpans (by decide) _ _,
        noControl_of_mem_shareSpans (by decide) _ _⟩
  · unfold warningSpans
    split
    · simp only [List.forall_mem_cons]
      exact ⟨by decide, by decide, by decide, noControl_toString _, by decide, noControl_toString _, by decide,
        nofun⟩
    · nofun

/-- **The table** has no colours, if the names of the rows have none. -/
theorem lacks_table {t : Tally} (hnames : ∀ entry ∈ t.rows, Lacks escape entry.1) : Lacks escape (table t) := by
  have hheader : Lacks escape header := lacks_line (by decide) (by decide) (by decide)
  have hrule : Lacks escape rule := lacks_repeated (by decide) tableWidth
  have htotals : Lacks escape (rowLine "TOTAL" t.grandTotal) := lacks_rowLine (by decide) (by decide) (by decide) _
  have hrows : ∀ entry ∈ t.rows, Lacks escape (rowLine entry.1 entry.2) := fun entry hentry =>
    lacks_rowLine (by decide) (by decide) (hnames entry hentry) entry.2
  have hlines : ∀ line ∈ tableLines t, Lacks escape line := by
    simp only [tableLines, List.forall_mem_append, List.forall_mem_cons, List.forall_mem_map, List.not_mem_nil,
      false_implies, implies_true, and_true]
    exact ⟨⟨⟨hheader, hrule⟩, hrows⟩, hrule, htotals⟩
  refine lacks_join fun text htext => ?_
  obtain ⟨line, hline, rfl⟩ := List.mem_map.mp htext
  exact (hlines line hline).append (by decide)

end Report

/-- **Colour changes nothing but colour.** Take an outcome in which no name holds an escape. The report with
    colours, with the colour sequences taken out of it, is the report without colours, and so is it with the
    closing summary of any activity at any time. The table holds no escape. It stands between a text that ends a
    line and another text, the same table with colours and without; and of these two texts as well colours are
    all that differs. -/
theorem colours_strip {o : Outcome} (hnames : ∀ entry ∈ o.tally.rows, '\x1b' ∉ entry.1.toList) :
    stripStyle (Report.report true o).toList = (Report.report false o).toList ∧
    (∀ m : Meter, stripStyle (m.summary true).toList = (m.summary false).toList) ∧
    '\x1b' ∉ (Report.table o.tally).toList ∧
    ∃ above behind : Bool → String,
      (∀ color, Report.report color o = above color ++ Report.table o.tally ++ behind color) ∧
      (∀ color, (above color).toList.getLast? = some '\n') ∧
      stripStyle (above true).toList = (above false).toList ∧
      stripStyle (behind true).toList = (behind false).toList := by
  have htable : Lacks escape (Report.table o.tally) := Report.lacks_table hnames
  have habove : StripsTo (Span.showAll true Report.headingSpans) (Span.showAll false Report.headingSpans) :=
    Span.stripsTo_showAll (by decide)
  have hbehind := Span.stripsTo_showAll (Report.noControl_of_mem_closingSpans o)
  refine ⟨?_, fun m => ?_, htable, fun color => Span.showAll color Report.headingSpans,
    fun color => Span.showAll color (Report.closingSpans o), fun color => Report.report_eq_showAll color o,
    ?_, stripStyle_of_stripsTo habove, stripStyle_of_stripsTo hbehind⟩
  · rw [Report.report_eq_showAll, Report.report_eq_showAll]
    exact stripStyle_of_stripsTo ((habove.append (stripsTo_of_lacks htable)).append hbehind)
  · rw [Meter.summary, Meter.summary, Activity.summary, Activity.summary, Activity.summaryOf_eq_showAll,
      Activity.summaryOf_eq_showAll]
    exact stripStyle_of_stripsTo (Span.stripsTo_showAll (m.activity.noControl_of_mem_summarySpans _ _))
  · decide

/-- An outcome with a row and with something to warn of. -/
def warnedOutcome : Outcome := ⟨⟨[("Rust", ⟨1, ⟨4, 1, 1, 2⟩⟩)]⟩, 1, 0⟩

theorem colours_strip_warnedOutcome :
    (∀ entry ∈ warnedOutcome.tally.rows, '\x1b' ∉ entry.1.toList) ∧
    stripStyle (Report.report true warnedOutcome).toList = (Report.report false warnedOutcome).toList ∧
    '\x1b' ∉ (Report.table warnedOutcome.tally).toList := by
  have hnames : ∀ entry ∈ warnedOutcome.tally.rows, '\x1b' ∉ entry.1.toList := by decide
  obtain ⟨hreport, _, htable, _⟩ := colours_strip hnames
  exact ⟨hnames, hreport, htable⟩

end LineCensus
