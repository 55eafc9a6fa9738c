import LineCensus.Meter
import LineCensus.Report
import LineCensus.Proofs.Decimal.Digits
import Mathlib.Data.List.Forall2

/-!
# `Proofs.Report.Views` — what is printed, line by line

The block of a file, the closing summary and the report are made of lines, and the lines that hold figures are
made of words. So the figures can be read back: the line is found by its first word, and the figure by its place
in the line. The list of the languages is read back line by line.

## Contents
- `numberIn?`, a figure of a text, by the first word of its line and its place; `numberOrZero?`, if the line may
  be missing.
- `FileReport.IsShownIn` and `FileReport.isShownIn_render`, the block of a file.
- `Activity.summary_eq`, the closing summary, with the words of its two lines.
- `Report.fields_rowLine`, a row of the table; `Report.report_eq`, the report up to the totals and the text
  behind the table.
- `Report.wordsOf?_total`, `Report.wordsOf?_behindTable` and `Report.wordsOf?_warning`: what the report says
  first and last.
- `Report.ListsLanguages` and `Report.listsLanguages_languageList`, the list of the languages.
-/

namespace LineCensus

open Text Decimal

/-- The number at this place of the first line that starts with the given word. -/
def numberIn? (label : String) (place : Nat) (text : String) : Option Nat :=
  (wordsOf? label text).bind fun words => words[place]?.bind ofDigits?

theorem numberIn?_eq_some {label text : String} {words : List (List Char)} {place n : Nat}
    (hwords : wordsOf? label text = some words) (hplace : words[place]? = some (toString n).toList) :
    numberIn? label place text = some n := by
  unfold numberIn?
  rw [hwords, Option.bind_some, hplace, Option.bind_some, ofDigits?_toString]

/-- The number at this place of the line that starts with the word, and zero if there is no such line. -/
def numberOrZero? (label : String) (place : Nat) (text : String) : Option Nat :=
  if (wordsOf? label text).isNone then some 0 else numberIn? label place text

theorem numberOrZero?_eq_some {label text : String} {p : Prop} [Decidable p] {words : List (List Char)}
    {place n : Nat} (hwords : wordsOf? label text = if p then some words else none)
    (hplace : words[place]? = some (toString n).toList) (hzero : ¬p → n = 0) :
    numberOrZero? label place text = some n := by
  unfold numberOrZero?
  by_cases hp : p
  · rw [if_pos hp] at hwords
    rw [hwords]
    exact numberIn?_eq_some hwords hplace
  · rw [if_neg hp] at hwords
    rw [hwords, hzero hp]
    rfl

/-! ## The block of a file -/

/-- A line that says how many lines of a kind there are. -/
def countLine (entry : String × Nat) : String := "  " ++ spaced [entry.1, "lines:", toString entry.2]

theorem isWord_countWords {entry : String × Nat} (h : IsWord entry.1.toList) :
    ∀ word ∈ [entry.1, "lines:", toString entry.2], IsWord word.toList := by
  simp only [List.forall_mem_cons, List.not_mem_nil, false_implies, implies_true, and_true]
  exact ⟨h, by decide, isWord_toString _⟩

theorem fields_countLine {entry : String × Nat} (h : IsWord entry.1.toList) :
    fields (countLine entry).toList = [entry.1, "lines:", toString entry.2].map String.toList := by
  unfold countLine
  rw [fields_indented, fields_spaced (isWord_countWords h)]

theorem oneLine_countLine {entry : String × Nat} (h : IsWord entry.1.toList) : OneLine (countLine entry) :=
  OneLine.append (by decide) (oneLine_spaced (isWord_countWords h))

namespace FileReport

/-- The four counts with the words that their lines start with. -/
def entries (r : FileReport) : List (String × Nat) :=
  [("Total", r.counts.total), ("Empty", r.counts.empty), ("Comment", r.counts.comment), ("Code", r.counts.code)]

theorem isWord_of_mem_entries {r : FileReport} : ∀ entry ∈ r.entries, IsWord entry.1.toList := by
  unfold entries
  simp only [List.forall_mem_cons, List.not_mem_nil, false_implies, implies_true, and_true]
  decide

/-- The text names the file and its language. Below that it has one line for each of the four counts, and a line with
    nothing in it. -/
def IsShownIn (r : FileReport) (text : String) : Prop :=
  ∃ lines, text = "File: " ++ r.path.display ++ " (" ++ r.language ++ ")\n" ++ ofLines lines ++ "\n" ∧
    List.Forall₂ (fun (entry : String × Nat) line => OneLine line ∧
      fields line.toList = [entry.1, "lines:", toString entry.2].map String.toList) r.entries lines

/-- **The block of a file** shows what is reported of it. -/
theorem isShownIn_render (r : FileReport) : r.IsShownIn r.render := by
  refine ⟨r.entries.map countLine, ?_, ?_⟩
  · apply String.toList_inj.mp
    unfold render ofLines entries countLine spaced
    simp
  · refine List.forall₂_map_right_iff.mpr (List.forall₂_same.mpr fun entry hentry => ?_)
    have hword : IsWord entry.1.toList := isWord_of_mem_entries entry hentry
    exact ⟨oneLine_countLine hword, fields_countLine hword⟩

end FileReport

/-! ## The closing summary -/

namespace Activity

/-- The words of the line that says what was counted. -/
def classifiedWords (a : Activity) (elapsed : Nat) : List String :=
  ["Classified", toString a.files, "file(s),", toString a.lines, "line(s)", "in",
    fixed 2 (seconds elapsed) ++ "s", "(" ++ fixed 1 (rate a.lines (seconds elapsed)), "lines/sec)"]

/-- The words of the line that says what was skipped. -/
def skippedWords (a : Activity) : List String :=
  ["Skipped", toString a.unsupported, "unsupported", "and", toString a.unreadable, "unreadable", "file(s)"]

/-- The lines of the summary. -/
def summaryLines (a : Activity) (elapsed : Nat) : List String :=
  ["", "Performance Summary:", spaced (a.classifiedWords elapsed)]
    ++ if 0 < a.unsupported + a.unreadable then [spaced a.skippedWords] else []

theorem isWord_classifiedWords (a : Activity) (elapsed : Nat) :
    ∀ word ∈ a.classifiedWords elapsed, IsWord word.toList := by
  have htime : IsWord (fixed 2 (seconds elapsed) ++ "s").toList := by
    rw [String.toList_append]
    exact ⟨by simp, (noBlank_fixed _ _).append (by decide)⟩
  have hrate : IsWord ("(" ++ fixed 1 (rate a.lines (seconds elapsed))).toList := by
    rw [String.toList_append]
    exact IsWord.append (by decide) (noBlank_fixed _ _)
  unfold classifiedWords
  simp only [List.forall_mem_cons, List.not_mem_nil, false_implies, implies_true, and_true]
  exact ⟨by decide, isWord_toString _, by decide, isWord_toString _, by decide, by decide, htime, hrate,
    by decide⟩

theorem isWord_skippedWords (a : Activity) : ∀ word ∈ a.skippedWords, IsWord word.toList := by
  unfold skippedWords
  simp only [List.forall_mem_cons, List.not_mem_nil, false_implies, implies_true, and_true]
  exact ⟨by decide, isWord_toString _, by decide, by decide, isWord_toString _, by decide, by decide⟩

/-- **The summary is the text of its lines.** -/
theorem summary_eq (a : Activity) (elapsed : Nat) : a.summary false elapsed = ofLines (a.summaryLines elapsed) := by
  apply String.toList_inj.mp
  unfold summary summaryOf summaryLines ofLines classifiedWords skippedWords spaced
  split <;> simp

theorem oneLine_of_mem_summaryLines (a : Activity) (elapsed : Nat) :
    ∀ line ∈ a.summaryLines elapsed, OneLine line := by
  have hclassified := oneLine_spaced (a.isWord_classifiedWords elapsed)
  have hskipped := oneLine_spaced a.isWord_skippedWords
  intro line hline
  unfold summaryLines at hline
  rcases List.mem_append.mp hline with h | h
  · simp only [List.mem_cons, List.not_mem_nil, or_false] at h
    rcases h with rfl | rfl | rfl
    · decide
    · decide
    · exact hclassified
  · split at h
    · rw [List.mem_singleton.mp h]
      exact hskipped
    · cases h

theorem wordsOf?_classified (a : Activity) (elapsed : Nat) :
    wordsOf? "Classified" (a.summary false elapsed) = some ((a.classifiedWords elapsed).map String.toList) := by
  have hwords := a.isWord_classifiedWords elapsed
  have hline : StartsWith "Classified" (spaced (a.classifiedWords elapsed)) := startsWith_spaced hwords
  have hbefore : ∀ l ∈ ["", "Performance Summary:"], ¬StartsWith "Classified" l := by decide
  have hlines : a.summaryLines elapsed = ["", "Performance Summary:"] ++ spaced (a.classifiedWords elapsed)
      :: if 0 < a.unsupported + a.unreadable then [spaced a.skippedWords] else [] := rfl
  have hone := a.oneLine_of_mem_summaryLines elapsed
  rw [summary_eq, ← fields_spaced hwords]
  rw [hlines] at hone ⊢
  exact wordsOf?_eq_some hone hbefore hline

theorem wordsOf?_skipped (a : Activity) (elapsed : Nat) :
    wordsOf? "Skipped" (a.summary false elapsed)
      = if 0 < a.unsupported + a.unreadable then some (a.skippedWords.map String.toList) else none := by
  have hclassified : StartsWith "Classified" (spaced (a.classifiedWords elapsed)) :=
    startsWith_spaced (a.isWord_classifiedWords elapsed)
  have hbefore : ∀ l ∈ ["", "Performance Summary:", spaced (a.classifiedWords elapsed)],
      ¬StartsWith "Skipped" l := by
    intro l hl
    simp only [List.mem_cons, List.not_mem_nil, or_false] at hl
    rcases hl with rfl | rfl | rfl
    · decide
    · decide
    · exact hclassified.not_of_ne (by decide)
  have hone := a.oneLine_of_mem_summaryLines elapsed
  -- the line is the last one, if it is there at all
  rw [summary_eq]
  unfold summaryLines at hone ⊢
  by_cases hskips : 0 < a.unsupported + a.unreadable
  · have hwords := a.isWord_skippedWords
    rw [if_pos hskips] at hone ⊢
    rw [if_pos hskips, ← fields_spaced hwords]
    exact wordsOf?_eq_some hone hbefore (startsWith_spaced hwords)
  · rw [if_neg hskips, List.append_nil] at hone ⊢
    rw [if_neg hskips]
    exact wordsOf?_eq_none hone hbefore

end Activity

/-! ## The table -/

namespace Report

/-- The fields of a line of the table are those of its name and its cells. -/
theorem fields_line (name : String) (cells : List String) :
    fields (line name cells).toList = fields name.toList ++ cells.flatMap fun cell => fields cell.toList := by
  have hblank : isBlank ' ' = true := by decide
  -- the cells follow a text that ends where they begin
  have hcells : ∀ text : List Char,
      fields (text ++ (cells.map fun cell => " " ++ padLeft numberWidth cell).flatMap String.toList)
        = fields text ++ cells.flatMap fun cell => fields cell.toList := by
    induction cells with
    | nil => intro text; simp
    | cons cell rest ih =>
      intro text
      have hfirst : (" " ++ padLeft numberWidth cell).toList = ' ' :: (padLeft numberWidth cell).toList := by
        rw [String.toList_append]
        rfl
      rw [List.map_cons, List.flatMap_cons, List.flatMap_cons, hfirst, List.cons_append,
        fields_append_blank hblank, ih, fields_padLeft]
  unfold line
  rw [String.toList_append, String.toList_join, hcells, fields_padRight]

/-- The fields of a row are its name and its numbers. -/
theorem fields_rowLine {name : String} (hname : IsWord name.toList) (row : Row) :
    fields (rowLine name row).toList = name.toList :: (numbers row).map fun n => (toString n).toList := by
  unfold rowLine
  rw [fields_line, fields_of_isWord hname, List.flatMap_map]
  have hnumber : (fun n : Nat => fields (toString n).toList) = fun n => [(toString n).toList] :=
    funext fun n => fields_of_isWord (isWord_toString n)
  rw [hnumber, ← List.map_eq_flatMap]
  rfl

/-- A line of the table has no characters but those of its name and its cells, and blanks. -/
theorem lacks_line {c : Char} (hblank : c ≠ ' ') {name : String} {cells : List String} (hname : Lacks c name)
    (hcells : ∀ cell ∈ cells, Lacks c cell) : Lacks c (line name cells) := by
  refine (hname.append (lacks_repeated hblank _)).append (lacks_join fun text htext => ?_)
  obtain ⟨cell, hcell, rfl⟩ := List.mem_map.mp htext
  have hgap : Lacks c " " := fun h => hblank (List.mem_singleton.mp h)
  exact hgap.append ((lacks_repeated hblank _).append (hcells cell hcell))

theorem lacks_rowLine {c : Char} (hblank : c ≠ ' ') (hdigit : c.isDigit = false) {name : String}
    (hname : Lacks c name) (row : Row) : Lacks c (rowLine name row) := by
  refine lacks_line hblank hname fun cell hcell => ?_
  obtain ⟨n, _, rfl⟩ := List.mem_map.mp hcell
  exact lacks_toString hdigit n

theorem oneLine_rowLine {name : String} (hname : OneLine name) (row : Row) : OneLine (rowLine name row) :=
  lacks_rowLine (by decide) (by decide) hname row

/-! ## The report -/

/-- A line of the overall summary, without its end. -/
def shareLine (label : String) (part whole : Nat) : String :=
  label ++ " " ++ toString part ++ " (" ++ fixed 1 (percentage part whole) ++ "%)"

/-- The lines of the overall summary. -/
def summaryLines (t : Tally) : List String :=
  if t.isEmpty then []
  else
    let lines := t.grandTotal.lines
    ["", "Overall Summary:", shareLine "Code lines:   " lines.code lines.total,
      shareLine "Comment lines:" lines.comment lines.total, shareLine "Empty lines:  " lines.empty lines.total]

/-- The words of the warning. -/
def warningWords (o : Outcome) : List String :=
  ["Warning:", toString o.unreadable, "unreadable", "file(s),", toString o.troubles, "traversal", "error(s)"]

/-- The lines of the warning. -/
def warningLines (o : Outcome) : List String :=
  if 0 < o.warnings then ["", spaced (warningWords o)] else []

theorem summary_eq (t : Tally) : summary false t = ofLines (summaryLines t) := by
  apply String.toList_inj.mp
  unfold summary summaryLines ofLines
  split
  · rfl
  · simp [summaryLine, shareLine]

theorem warning_eq (o : Outcome) : warning false o = ofLines (warningLines o) := by
  apply String.toList_inj.mp
  unfold warning warningOf warningLines ofLines warningWords spaced
  split
  · simp
  · rfl

/-- The text behind the table. -/
def behindTable (o : Outcome) : String := summary false o.tally ++ warning false o

theorem behindTable_eq (o : Outcome) : behindTable o = ofLines (summaryLines o.tally) ++ ofLines (warningLines o) := by
  rw [behindTable, summary_eq, warning_eq]

/-- The lines above the totals. -/
def linesAbove (t : Tally) : List String :=
  ["", "Line statistics by language:", header, rule] ++ t.rows.map (fun entry => rowLine entry.1 entry.2)
    ++ [rule]

/-- **The report**: the lines above the totals, their line, and the text behind the table. -/
theorem report_eq (o : Outcome) :
    report false o
      = ofLines (linesAbove o.tally) ++ (ofLines [rowLine "TOTAL" o.tally.grandTotal] ++ behindTable o) := by
  have htitle : "\n" ++ paint false .heading "Line statistics by language:" ++ "\n"
      = ofLines ["", "Line statistics by language:"] := by decide
  have hlines : linesAbove o.tally ++ [rowLine "TOTAL" o.tally.grandTotal]
      = ["", "Line statistics by language:"] ++ tableLines o.tally := by
    simp [linesAbove, tableLines]
  rw [← String.append_assoc, ← ofLines_append, hlines, ofLines_append, ← htitle, behindTable, ← String.append_assoc]
  rfl

theorem isWord_warningWords (o : Outcome) : ∀ word ∈ warningWords o, IsWord word.toList := by
  unfold warningWords
  simp only [List.forall_mem_cons, List.not_mem_nil, false_implies, implies_true, and_true]
  exact ⟨by decide, isWord_toString _, by decide, by decide, isWord_toString _, by decide, by decide⟩

theorem oneLine_shareLine {label : String} (hlabel : OneLine label) (part whole : Nat) :
    OneLine (shareLine label part whole) := by
  -- the blanks of such a line are in its fixed parts
  have hpart : OneLine (toString part) := oneLine_of_noBlank (noBlank_toString part)
  have hshare : OneLine (fixed 1 (percentage part whole)) := oneLine_of_noBlank (noBlank_fixed _ _)
  exact ((((hlabel.append (by decide)).append hpart).append (by decide)).append hshare).append (by decide)

theorem oneLine_of_mem_summaryLines (t : Tally) : ∀ line ∈ summaryLines t, OneLine line := by
  intro line hline
  unfold summaryLines at hline
  split at hline
  · cases hline
  · simp only [List.mem_cons, List.not_mem_nil, or_false] at hline
    rcases hline with rfl | rfl | rfl | rfl | rfl
    · decide
    · decide
    · exact oneLine_shareLine (by decide) _ _
    · exact oneLine_shareLine (by decide) _ _
    · exact oneLine_shareLine (by decide) _ _

theorem oneLine_of_mem_linesAbove {t : Tally} (hnames : ∀ entry ∈ t.rows, OneLine entry.1) :
    ∀ line ∈ linesAbove t, OneLine line := by
  have hheader : OneLine header := lacks_line (by decide) (by decide) (by decide)
  have hrule : OneLine rule := by decide +kernel
  have hfixed : ∀ line ∈ ["", "Line statistics by language:", header, rule], OneLine line := by
    simp only [List.forall_mem_cons]
    exact ⟨by decide, by decide, hheader, hrule, nofun⟩
  intro line hline
  unfold linesAbove at hline
  rcases List.mem_append.mp hline with h | h
  · rcases List.mem_append.mp h with htop | hrow
    · exact hfixed line htop
    · obtain ⟨entry, hentry, rfl⟩ := List.mem_map.mp hrow
      exact oneLine_rowLine (hnames entry hentry) entry.2
  · rw [List.mem_singleton.mp h]
    exact hrule

/-! ## Reading the report -/

/-- The first word of a line of the overall summary is that of its label. -/
theorem startsWith_shareLine (first more : String) (hfirst : IsWord first.toList) (part whole : Nat) :
    StartsWith first (shareLine (first ++ " " ++ more) part whole) := by
  have hline : shareLine (first ++ " " ++ more) part whole = first ++ " " ++ shareLine more part whole := by
    simp [shareLine, String.append_assoc]
  rw [hline]
  exact startsWith_append hfirst _

theorem startsWith_rowLine {name : String} (hname : IsWord name.toList) (row : Row) :
    StartsWith name (rowLine name row) := by
  unfold StartsWith
  rw [fields_rowLine hname]
  rfl

theorem startsWith_header : StartsWith "Language" header := by
  have hname : IsWord "Language".toList := by decide
  unfold StartsWith header
  rw [fields_line, fields_of_isWord hname]
  rfl

theorem startsWith_rule : StartsWith rule rule := by
  have hword : IsWord rule.toList := by decide +kernel
  unfold StartsWith
  rw [fields_of_isWord hword]
  rfl

/-- A word that is no name of a row and starts none of the other lines starts no line above the totals. -/
theorem not_startsWith_of_mem_linesAbove {label : String} {t : Tally}
    (hlabel : ∀ first ∈ ["Line", "Language", rule], first ≠ label)
    (hnames : ∀ entry ∈ t.rows, IsWord entry.1.toList ∧ entry.1 ≠ label) :
    ∀ line ∈ linesAbove t, ¬StartsWith label line := by
  simp only [List.forall_mem_cons] at hlabel
  obtain ⟨htitle, hheader, hrule, -⟩ := hlabel
  have hfirst : StartsWith "Line" "Line statistics by language:" := by decide
  have hfixed : ∀ line ∈ ["", "Line statistics by language:", header, rule], ¬StartsWith label line := by
    intro line hline
    simp only [List.mem_cons, List.not_mem_nil, or_false] at hline
    rcases hline with rfl | rfl | rfl | rfl
    · exact fun h => by cases h
    · exact hfirst.not_of_ne htitle
    · exact startsWith_header.not_of_ne hheader
    · exact startsWith_rule.not_of_ne hrule
  intro line hline
  unfold linesAbove at hline
  rcases List.mem_append.mp hline with h | h
  · rcases List.mem_append.mp h with htop | hrow
    · exact hfixed line htop
    · obtain ⟨entry, hentry, rfl⟩ := List.mem_map.mp hrow
      obtain ⟨hword, hne⟩ := hnames entry hentry
      exact (startsWith_rowLine hword entry.2).not_of_ne hne
  · rw [List.mem_singleton.mp h]
    exact startsWith_rule.not_of_ne hrule

/-- **The totals are read back**: their line is the one that starts with their name, if no row has it. -/
theorem wordsOf?_total {o : Outcome} (hnames : ∀ entry ∈ o.tally.rows, IsWord entry.1.toList ∧ entry.1 ≠ "TOTAL") :
    wordsOf? "TOTAL" (report false o)
      = some ("TOTAL".toList :: (numbers o.tally.grandTotal).map fun n => (toString n).toList) := by
  have hone := oneLine_of_mem_linesAbove fun entry hentry => oneLine_of_noBlank (hnames entry hentry).1.2
  have htotal : IsWord "TOTAL".toList := by decide
  rw [report_eq, wordsOf?_ofLines_append hone (not_startsWith_of_mem_linesAbove (by decide) hnames),
    wordsOf?_line_append (oneLine_rowLine (by decide) _) (startsWith_rowLine htotal _), fields_rowLine htotal]

theorem not_startsWith_warning_of_mem_summaryLines (t : Tally) :
    ∀ line ∈ summaryLines t, ¬StartsWith "Warning:" line := by
  intro line hline
  unfold summaryLines at hline
  split at hline
  · cases hline
  · simp only [List.mem_cons, List.not_mem_nil, or_false] at hline
    rcases hline with rfl | rfl | rfl | rfl | rfl
    · decide
    · decide
    · exact (startsWith_shareLine "Code" "lines:   " (by decide) _ _).not_of_ne (by decide)
    · exact (startsWith_shareLine "Comment" "lines:" (by decide) _ _).not_of_ne (by decide)
    · exact (startsWith_shareLine "Empty" "lines:  " (by decide) _ _).not_of_ne (by decide)

/-- **The warning is read back** from behind the table, if there is one. -/
theorem wordsOf?_behindTable (o : Outcome) :
    wordsOf? "Warning:" (behindTable o)
      = if 0 < o.warnings then some ((warningWords o).map String.toList) else none := by
  have hwords := isWord_warningWords o
  rw [behindTable_eq, wordsOf?_ofLines_append (oneLine_of_mem_summaryLines o.tally)
    (not_startsWith_warning_of_mem_summaryLines o.tally)]
  unfold warningLines
  split
  · have hone : ∀ line ∈ [""] ++ [spaced (warningWords o)], OneLine line :=
      List.forall_mem_cons.mpr ⟨by decide, List.forall_mem_singleton.mpr (oneLine_spaced hwords)⟩
    have hread : wordsOf? "Warning:" (ofLines ([""] ++ [spaced (warningWords o)]))
        = some (fields (spaced (warningWords o)).toList) :=
      wordsOf?_eq_some hone (by decide) (startsWith_spaced hwords)
    rw [← fields_spaced hwords]
    exact hread
  · rfl

/-- It is read back from the whole report, if no row has its name. -/
theorem wordsOf?_warning {o : Outcome}
    (hnames : ∀ entry ∈ o.tally.rows, IsWord entry.1.toList ∧ entry.1 ≠ "Warning:") :
    wordsOf? "Warning:" (report false o)
      = if 0 < o.warnings then some ((warningWords o).map String.toList) else none := by
  have hone := oneLine_of_mem_linesAbove fun entry hentry => oneLine_of_noBlank (hnames entry hentry).1.2
  have htotal : StartsWith "TOTAL" (rowLine "TOTAL" o.tally.grandTotal) := startsWith_rowLine (by decide) _
  rw [report_eq, wordsOf?_ofLines_append hone (not_startsWith_of_mem_linesAbove (by decide) hnames),
    wordsOf?_ofLines_append (List.forall_mem_singleton.mpr (oneLine_rowLine (by decide) _))
      (List.forall_mem_singleton.mpr (htotal.not_of_ne (by decide))),
    wordsOf?_behindTable]

/-! ## The languages -/

/-- The text is a heading, and below it a line for each language, in their order of declaration, with its name and
    its extensions. -/
def ListsLanguages (text : String) : Prop :=
  ∃ lines, text = ofLines ("Supported languages:" :: lines) ∧
    List.Forall₂ (fun (language : Language) line => OneLine line ∧
      fields line.toList = language.name.toList :: language.extensions.map String.toList) Language.registry lines

/-- The line of a language, without its end. -/
def languageRow (l : Language) : String := "  " ++ padRight nameWidth l.name ++ " " ++ spaced l.extensions

theorem fields_languageRow {l : Language} (hname : IsWord l.name.toList)
    (hextensions : ∀ extension ∈ l.extensions, IsWord extension.toList) :
    fields (languageRow l).toList = l.name.toList :: l.extensions.map String.toList := by
  have hblank : isBlank ' ' = true := by decide
  have hrow : (languageRow l).toList
      = ("  " ++ padRight nameWidth l.name).toList ++ ' ' :: (spaced l.extensions).toList := by
    simp [languageRow]
  rw [hrow, fields_append_blank hblank, fields_indented, fields_padRight, fields_of_isWord hname,
    fields_spaced hextensions]
  rfl

theorem oneLine_languageRow {l : Language} (hname : IsWord l.name.toList)
    (hextensions : ∀ extension ∈ l.extensions, IsWord extension.toList) : OneLine (languageRow l) := by
  have hpadded : OneLine (padRight nameWidth l.name) :=
    (oneLine_of_noBlank hname.2).append (lacks_repeated (by decide) _)
  exact ((OneLine.append (by decide) hpadded).append (by decide)).append (oneLine_spaced hextensions)

/-- **The list of the languages** has a line for each of them. -/
theorem listsLanguages_languageList : ListsLanguages languageList := by
  have hwords : ∀ language ∈ Language.registry,
      IsWord language.name.toList ∧ ∀ extension ∈ language.extensions, IsWord extension.toList := by decide
  refine ⟨Language.registry.map languageRow, ?_, ?_⟩
  · have hheading : "Supported languages:\n" = ofLines ["Supported languages:"] := by decide
    have hlines : String.join (Language.registry.map languageLine) = ofLines (Language.registry.map languageRow) := by
      unfold ofLines
      rw [List.map_map]
      exact congrArg String.join (List.map_congr_left fun _ _ => rfl)
    unfold languageList
    rw [hlines, hheading, ← ofLines_append, List.singleton_append]
  · refine List.forall₂_map_right_iff.mpr (List.forall₂_same.mpr fun language hlanguage => ?_)
    obtain ⟨hname, hextensions⟩ := hwords language hlanguage
    exact ⟨oneLine_languageRow hname hextensions, fields_languageRow hname hextensions⟩

end Report

end LineCensus
