import LineCensus.Proofs.Classify.Concatenation
import LineCensus.Proofs.Scan.Narrowing
import LineCensus.Proofs.Scan.Limit
import LineCensus.Proofs.Tally.Rows

/-!
# `Proofs.Scan.Balance` — every line is accounted for

A line is empty, a comment or code, or it is a region tag and then in the total alone. So the total of a file
exceeds its three buckets by the number of its tag lines, and sums of files keep this balance. Of the
languages that are known only one has region tags, so only its row has such a gap, and the grand total has the
same one.

## Contents
- `LineCounts.Balances` with `balances_add`; `Markers.classify_balances`, one file, and
  `balances_sum_classify`, the files of one language.
- The languages: `eq_of_name_eq`, `regions_eq_nil`, and `StartsWithRegionTag`, the tags that are declared.
- `FileSystem.linesIn?` and `linesCounted`, the files of a language that a scan counts; `rows_of_files`, what
  a row comes to, and `balances_sum_counted`, what all files come to.
- `FileSystem.Passes` and `scan_picking`: a file that is skipped may as well not be there.
- `scan_balances`.
-/

namespace LineCensus

/-! ## One file -/

/-- All lines are in one of the three buckets, but for so many region tags. -/
def LineCounts.Balances (n : LineCounts) (tags : Nat) : Prop :=
  n.total = n.empty + n.comment + n.code + tags

namespace LineCounts

theorem balances_zero : Balances 0 0 := rfl

theorem balances_add {a b : LineCounts} {s t : Nat} (ha : a.Balances s) (hb : b.Balances t) :
    (a + b).Balances (s + t) := by
  unfold Balances at ha hb ⊢
  rw [add_total, add_empty, add_comment, add_code]
  omega

end LineCounts

namespace Markers

variable {m : Markers}

theorem kindOf_eq_regionTag_iff {b : Bool} {line : List Char} :
    m.kindOf b line = .regionTag ↔ m.IsTag line := by
  unfold kindOf
  by_cases ht : m.IsTag line
  · simp only [ht, if_true]
  · rw [if_neg ht]
    by_cases hc : b = true ∨ m.Opens line ∨ m.HasLineMarker line
    · simp only [hc, if_true, ht, reduceCtorEq]
    · rw [if_neg hc]
      by_cases hn : Text.trim line = []
      · simp only [hn, if_true, ht, reduceCtorEq]
      · simp only [hn, if_false, ht, reduceCtorEq]

/-- The tags among the lines are counted whatever the block flag is. -/
theorem count_kindsIn_regionTag (b : Bool) (lines : List (List Char)) :
    (m.kindsIn b lines).count .regionTag = lines.countP m.IsTag := by
  induction lines generalizing b with
  | nil => rfl
  | cons line rest ih =>
    rw [kindsIn, List.count_cons, List.countP_cons, ih]
    simp only [beq_iff_eq, kindOf_eq_regionTag_iff, decide_eq_true_eq]

/-- **A file balances**: what is in no bucket are its tag lines. -/
theorem classify_balances (m : Markers) (lines : List (List Char)) :
    (m.classify lines).Balances (lines.countP m.IsTag) := by
  have htotal := LineCounts.ofKinds_total (m.kindsIn false lines)
  rw [count_kindsIn_regionTag, ← classify_eq_ofKinds] at htotal
  exact htotal

/-- The total of a file is the number of its lines. -/
theorem classify_total (m : Markers) (lines : List (List Char)) : (m.classify lines).total = lines.length := by
  rw [classify_eq_ofKinds]
  exact length_kindsIn false lines

/-- The totals of files are the number of all their lines. -/
theorem sum_classify_total (m : Markers) (files : List (List (List Char))) :
    ((files.map m.classify).map (·.total)).sum = files.flatten.length := by
  rw [List.map_map, List.length_flatten]
  exact congrArg List.sum (List.map_congr_left fun lines _ => m.classify_total lines)

/-- **The files of one language balance**: what is in no bucket are all their tag lines. -/
theorem balances_sum_classify (m : Markers) (files : List (List (List Char))) :
    (files.map m.classify).sum.Balances (files.flatten.countP m.IsTag) := by
  induction files with
  | nil => exact LineCounts.balances_zero
  | cons lines rest ih =>
    rw [List.map_cons, List.sum_cons, List.flatten_cons, List.countP_append]
    exact LineCounts.balances_add (m.classify_balances lines) ih

/-- Without region tags no line is one. -/
theorem not_isTag (h : m.regions = []) (line : List Char) : ¬m.IsTag line := by
  rintro ⟨tags, hmem, _⟩
  rw [h] at hmem
  exact List.not_mem_nil hmem

end Markers

/-! ## The languages -/

namespace Language

/-- The region tags that a language declares. -/
def regionTags : List String :=
  ["<template>", "</template>", "<script>", "</script>", "<style>", "</style>"]

/-- The line starts with one of them, blanks aside. -/
def StartsWithRegionTag (line : List Char) : Prop := ∃ tag ∈ regionTags, tag.toList <+: Text.trim line

instance : DecidablePred StartsWithRegionTag := fun _ => List.decidableBEx _ _

theorem vue_isTag_iff (line : List Char) : vue.markers.IsTag line ↔ StartsWithRegionTag line := by
  simp [Markers.IsTag, StartsWithRegionTag, regionTags, vue, Delimiters.ofStrings, or_assoc]

theorem mem_registry_of_ofPath? {path : Path} {language : Language} (h : ofPath? path = some language) :
    language ∈ registry := by
  obtain ⟨extension, _, h⟩ := Option.bind_eq_some_iff.mp h
  obtain ⟨text, _, h⟩ := Option.bind_eq_some_iff.mp h
  unfold resolve? at h
  split at h
  · exact List.mem_of_find?_eq_some h
  · cases h

/-- A language is known by its name. -/
theorem eq_of_name_eq : ∀ a ∈ registry, ∀ b ∈ registry, a.name = b.name → a = b := by decide

theorem vue_mem_registry : vue ∈ registry := by decide

/-- All languages but one are plain. -/
theorem regions_eq_nil : ∀ language ∈ registry, language ≠ vue → language.markers.regions = [] := by decide

end Language

/-! ## The files of a language -/

namespace FileSystem

variable {fs : FileSystem} {language : Language}

/-- The lines of a file of this language, if they can be had. -/
def linesIn? (fs : FileSystem) (language : Language) (path : Path) : Option (List (List Char)) :=
  if Language.ofPath? path = some language then fs.lines? path else none

theorem linesIn?_self {path : Path} (h : Language.ofPath? path = some language) :
    fs.linesIn? language path = fs.lines? path := if_pos h

theorem linesIn?_other {path : Path} {other : Language} (h : Language.ofPath? path = some other)
    (hne : other ≠ language) : fs.linesIn? language path = none := by
  unfold linesIn?
  rw [h, if_neg (by simpa using hne)]

theorem linesIn?_of_not_counted {path : Path} (h : fs.counted? path = none) :
    fs.linesIn? language path = none := by
  unfold linesIn?
  by_cases hlanguage : Language.ofPath? path = some language
  · rw [if_pos hlanguage]
    simpa [counted?, hlanguage] using h
  · exact if_neg hlanguage

/-- A file that is counted is one of a language, with lines that can be had. -/
theorem exists_of_counted? {path : Path} {file : String × LineCounts} (h : fs.counted? path = some file) :
    ∃ language ∈ Language.registry, ∃ lines, Language.ofPath? path = some language ∧
      fs.lines? path = some lines ∧ file = (language.name, language.markers.classify lines) := by
  obtain ⟨language, hlanguage, h⟩ := Option.bind_eq_some_iff.mp h
  obtain ⟨lines, hlines, h⟩ := Option.map_eq_some_iff.mp h
  exact ⟨language, Language.mem_registry_of_ofPath? hlanguage, lines, hlanguage, hlines, h.symm⟩

/-- **The counts of one language** among those of all files are the counts of its files. -/
theorem countsOf_counted (hlanguage : language ∈ Language.registry) (files : List Path) :
    Tally.countsOf language.name (files.filterMap fs.counted?)
      = (files.filterMap (fs.linesIn? language)).map language.markers.classify := by
  induction files with
  | nil => rfl
  | cons path rest ih =>
    unfold Tally.countsOf at ih ⊢
    cases hcounted : fs.counted? path with
    | none =>
      -- the file is in neither list
      rw [List.filterMap_cons_none hcounted, List.filterMap_cons_none (linesIn?_of_not_counted hcounted), ih]
    | some file =>
      obtain ⟨other, hother, lines, hpath, hlines, rfl⟩ := exists_of_counted? hcounted
      rw [List.filterMap_cons_some hcounted]
      by_cases hsame : other = language
      · subst hsame
        have hfound : fs.linesIn? other path = some lines := (linesIn?_self hpath).trans hlines
        rw [List.filterMap_cons_some hfound, List.filter_cons_of_pos (by simp), List.map_cons, ih,
          List.map_cons]
      · -- another language has another name
        have hname : other.name ≠ language.name := mt (Language.eq_of_name_eq other hother language hlanguage) hsame
        rw [List.filterMap_cons_none (linesIn?_other hpath hsame), List.filter_cons_of_neg (by simpa using hname),
          ih]

/-- **All files together balance**, with the tag lines of the one language that has tags. -/
theorem balances_sum_counted (files : List Path) :
    ((files.filterMap fs.counted?).map Prod.snd).sum.Balances
      ((files.filterMap (fs.linesIn? .vue)).flatten.countP Language.StartsWithRegionTag) := by
  induction files with
  | nil => exact LineCounts.balances_zero
  | cons path rest ih =>
    cases hcounted : fs.counted? path with
    | none =>
      rw [List.filterMap_cons_none hcounted, List.filterMap_cons_none (linesIn?_of_not_counted hcounted)]
      exact ih
    | some file =>
      obtain ⟨language, hlanguage, lines, hpath, hlines, rfl⟩ := exists_of_counted? hcounted
      have hfile := language.markers.classify_balances lines
      rw [List.filterMap_cons_some hcounted, List.map_cons, List.sum_cons]
      by_cases hvue : language = .vue
      · subst hvue
        have hfound : fs.linesIn? .vue path = some lines := (linesIn?_self hpath).trans hlines
        rw [List.filterMap_cons_some hfound, List.flatten_cons, List.countP_append]
        simp only [Language.vue_isTag_iff] at hfile
        exact LineCounts.balances_add hfile ih
      · -- a file of any other language has no tags, and its lines are in the buckets
        have hplain := Language.regions_eq_nil language hlanguage hvue
        have hnone : lines.countP language.markers.IsTag = 0 :=
          List.countP_eq_zero.mpr fun line _ => by simpa using Markers.not_isTag hplain line
        rw [hnone] at hfile
        rw [List.filterMap_cons_none (linesIn?_other hpath hvue)]
        have hsum := LineCounts.balances_add hfile ih
        rw [Nat.zero_add] at hsum
        exact hsum

/-! ## Files that are skipped -/

/-- The file is skipped by every scan: it is of no known language, or its lines cannot be had, because it
    cannot be read or is not valid UTF-8. -/
def Passes (fs : FileSystem) (path : Path) : Prop :=
  Language.ofPath? path = none ∨ fs.lines? path = none

theorem passes_iff {path : Path} : fs.Passes path ↔ fs.counted? path = none := by
  unfold Passes counted?
  cases Language.ofPath? path with
  | none => simp
  | some language => simp

/-- Where all files are skipped, nothing is counted. -/
theorem filterMap_counted?_eq_nil {files : List Path} (h : ∀ path ∈ files, fs.Passes path) :
    files.filterMap fs.counted? = [] :=
  List.filterMap_eq_nil_iff.mpr fun path hpath => passes_iff.mp (h path hpath)

/-- Files that are skipped may be left out. -/
theorem filterMap_counted?_filter {picks : Path → Bool} {files : List Path}
    (h : ∀ path ∈ files, picks path = false → fs.Passes path) :
    (files.filter picks).filterMap fs.counted? = files.filterMap fs.counted? := by
  rw [List.filterMap_filter]
  refine List.filterMap_congr fun path hpath => ?_
  cases hpick : picks path with
  | true => rfl
  | false => exact (passes_iff.mp (h path hpath hpick)).symm

end FileSystem

section

variable {fs : FileSystem} {config : Config} {start : Activity} {outcome : Outcome}

/-- The candidates of a view with fewer files are those that are picked. -/
theorem candidates_picking (hroot : fs.kind config.root = .ok .directory) (picks : Path → Bool) :
    candidates (fs.picking picks) config = (candidates fs config).filter picks := by
  have hprepare : prepare (fs.picking picks) config = prepare fs config :=
    (prepare_congr (fun _ => rfl) (fun _ => rfl)).symm
  cases hp : prepare fs config with
  | error error =>
    rw [candidates_of_error hp, candidates_of_error (hprepare.trans hp)]
    rfl
  | ok p =>
    have hp' : prepare (fs.picking picks) config = .ok p := hprepare.trans hp
    have hroot' : (fs.picking picks).kind config.root = .ok .directory := hroot
    have hevents : p.events (fs.picking picks) config
        = (p.events fs config).filter (Walk.staysFor picks) := by
      rw [events_of_directory hp hroot, events_of_directory hp' hroot']
      exact (Walk.walk_picking picks rfl (fun _ => rfl) rfl).symm
    -- whether a file is considered and whether it is picked are decided apart
    rw [candidates_of_prepared hp, candidates_of_prepared hp', hevents]
    unfold Books.consideredFiles
    rw [Walk.filesOf_staysFor, List.filter_filter, List.filter_filter]
    exact List.filter_congr fun path _ => Bool.and_comm ..

/-- **A file that is skipped may as well not be there**: without it the scan of a directory ends as well,
    with the same tally. -/
theorem scan_picking (hroot : fs.kind config.root = .ok .directory)
    (hok : (scan fs config start).result = .ok outcome) {picks : Path → Bool}
    (hskipped : ∀ path ∈ candidates fs config, picks path = false → fs.Passes path) :
    ∃ less, (scan (fs.picking picks) config start).result = .ok less ∧ less.tally = outcome.tally := by
  obtain ⟨p, hp⟩ := prepared_of_result_ok hok
  have hp' : prepare (fs.picking picks) config = .ok p :=
    (prepare_congr (fun _ => rfl) (fun _ => rfl)).symm.trans hp
  have hcandidates := candidates_picking hroot picks
  -- fewer candidates fit as well
  have hfits : (candidates (fs.picking picks) config).length ≤ config.maxEntries := by
    rw [hcandidates]
    exact (List.length_filter_le ..).trans (fits_of_result_ok hok)
  obtain ⟨less, hless⟩ : ∃ less, (scan (fs.picking picks) config start).result = .ok less := by
    rw [scan_of_prepared hp']
    exact ⟨_, if_pos hfits⟩
  refine ⟨less, hless, ?_⟩
  -- the files that are counted are the same, and are counted alike
  rw [(scan_of_ok hless).2.1, (scan_of_ok hok).2.1, hcandidates]
  exact congrArg Tally.ofFiles (FileSystem.filterMap_counted?_filter hskipped)

/-! ## A scan that ends well -/

/-- The lines of each file of a language that a scan counts, in traversal order. -/
def linesCounted (fs : FileSystem) (config : Config) (language : Language) : List (List (List Char)) :=
  (candidates fs config).filterMap (fs.linesIn? language)

/-- **What a row comes to**: it is that of a language that is known, and adds up the counts of the files of
    this language, of which there is at least one. Its total is the number of their lines. -/
theorem rows_of_files (hok : (scan fs config start).result = .ok outcome) {name : String} {row : Row}
    (hmem : (name, row) ∈ outcome.tally.rows) :
    ∃ language ∈ Language.registry, language.name = name ∧ linesCounted fs config language ≠ [] ∧
      row.AddsUp ((linesCounted fs config language).map language.markers.classify) ∧
      row.lines.total = (linesCounted fs config language).flatten.length ∧
      row.lines.Balances ((linesCounted fs config language).flatten.countP language.markers.IsTag) := by
  obtain ⟨_, htally, _⟩ := scan_of_ok hok
  rw [htally] at hmem
  obtain ⟨hcounts, hrow⟩ := Tally.mem_rows_ofFiles.mp hmem
  -- the name is that of a file that is counted
  obtain ⟨file, hfile, hname⟩ := List.mem_map.mp (Tally.countsOf_ne_nil.mp hcounts)
  obtain ⟨path, _, hcounted⟩ := List.mem_filterMap.mp hfile
  obtain ⟨language, hlanguage, lines, _, _, rfl⟩ := FileSystem.exists_of_counted? hcounted
  subst hname
  have hsame : Tally.countsOf language.name ((candidates fs config).filterMap fs.counted?)
      = (linesCounted fs config language).map language.markers.classify :=
    FileSystem.countsOf_counted hlanguage _
  rw [hsame] at hcounts hrow
  have hadds : row.AddsUp ((linesCounted fs config language).map language.markers.classify) := by
    rw [hrow]
    exact Row.addsUp_sum _
  refine ⟨language, hlanguage, rfl, fun hnone => hcounts (by rw [hnone]; rfl), hadds, ?_, ?_⟩
  · rw [hadds.total, language.markers.sum_classify_total]
  · rw [hrow]
    exact language.markers.balances_sum_classify _

/-- A language with files that are counted has a row. -/
theorem linesCounted_eq_nil (hok : (scan fs config start).result = .ok outcome) {language : Language}
    (hlanguage : language ∈ Language.registry)
    (habsent : language.name ∉ outcome.tally.rows.map Prod.fst) : linesCounted fs config language = [] := by
  rw [(scan_of_ok hok).2.1, Tally.mem_names_ofFiles, ← Tally.countsOf_ne_nil, not_not,
    FileSystem.countsOf_counted hlanguage] at habsent
  exact List.map_eq_nil_iff.mp habsent

/-- **A scan accounts for every line.** Each row is that of a language that is known and adds up the counts of
    this language's files; its total is the number of their lines. A language with such files has a row, and
    the grand total adds up the counts of all files. The rows of all languages without region tags have every
    line in one of the three buckets. The row of the language with tags has so many lines besides as these
    files have tag lines, and the grand total has the same, also if there is no such row and these are none. A
    file that is of no known language, cannot be read or cannot be decoded contributes nothing: if all are
    such there is no row, and a directory from which any of them are taken away has the same tally. -/
theorem scan_balances (hok : (scan fs config start).result = .ok outcome) :
    (∀ name row, (name, row) ∈ outcome.tally.rows →
      ∃ language ∈ Language.registry, language.name = name ∧ linesCounted fs config language ≠ [] ∧
        row.AddsUp ((linesCounted fs config language).map language.markers.classify) ∧
        row.lines.total = (linesCounted fs config language).flatten.length) ∧
    (∀ language ∈ Language.registry, language.name ∉ outcome.tally.rows.map Prod.fst →
      linesCounted fs config language = []) ∧
    outcome.tally.grandTotal.AddsUp (((candidates fs config).filterMap fs.counted?).map Prod.snd) ∧
    (∀ language ∈ Language.registry, language.markers.regions = [] →
      ∀ row, (language.name, row) ∈ outcome.tally.rows →
        row.lines.total = row.lines.empty + row.lines.comment + row.lines.code) ∧
    (∀ row, (Language.vue.name, row) ∈ outcome.tally.rows →
      row.lines.total = row.lines.empty + row.lines.comment + row.lines.code
        + (linesCounted fs config .vue).flatten.countP Language.StartsWithRegionTag) ∧
    (Language.vue.name ∉ outcome.tally.rows.map Prod.fst →
      (linesCounted fs config .vue).flatten.countP Language.StartsWithRegionTag = 0) ∧
    outcome.tally.grandTotal.lines.total
      = outcome.tally.grandTotal.lines.empty + outcome.tally.grandTotal.lines.comment
        + outcome.tally.grandTotal.lines.code
        + (linesCounted fs config .vue).flatten.countP Language.StartsWithRegionTag ∧
    ((∀ path ∈ candidates fs config, fs.Passes path) → outcome.tally.rows = []) ∧
    (fs.kind config.root = .ok .directory →
      ∀ picks : Path → Bool, (∀ path ∈ candidates fs config, picks path = false → fs.Passes path) →
        ∃ less, (scan (fs.picking picks) config start).result = .ok less ∧
          less.tally = outcome.tally) := by
  have htally := (scan_of_ok hok).2.1
  refine ⟨?_, ?_, ?_, ?_, ?_, ?_, ?_, ?_, fun hroot picks hskipped => scan_picking hroot hok hskipped⟩
  · intro name row hmem
    obtain ⟨language, hlanguage, hname, hne, hadds, htotal, _⟩ := rows_of_files hok hmem
    exact ⟨language, hlanguage, hname, hne, hadds, htotal⟩
  · intro language hlanguage habsent
    exact linesCounted_eq_nil hok hlanguage habsent
  · rw [htally]
    exact Tally.addsUp_grandTotal _
  · intro language hlanguage hplain row hmem
    obtain ⟨other, hother, hname, _, _, _, hbalances⟩ := rows_of_files hok hmem
    have hsame : other = language := Language.eq_of_name_eq other hother language hlanguage hname
    subst hsame
    rw [List.countP_eq_zero.mpr fun line _ => by simpa using Markers.not_isTag hplain line] at hbalances
    exact hbalances
  · intro row hmem
    obtain ⟨other, hother, hname, _, _, _, hbalances⟩ := rows_of_files hok hmem
    have hsame : other = .vue := Language.eq_of_name_eq other hother _ Language.vue_mem_registry hname
    subst hsame
    simp only [Language.vue_isTag_iff] at hbalances
    exact hbalances
  · intro habsent
    rw [linesCounted_eq_nil hok Language.vue_mem_registry habsent]
    rfl
  · rw [htally, Tally.grandTotal_ofFiles]
    exact FileSystem.balances_sum_counted _
  · intro hskipped
    rw [htally, FileSystem.filterMap_counted?_eq_nil hskipped]
    rfl

/-- A directory with a file of the language that has tags, one that is not valid UTF-8 after its first line,
    one of a plain language and one of no known language. -/
def mixedView : FileSystem where
  kind _ := .ok .directory
  list _ :=
    .ok ([⟨Utf8.bytes "a.vue", .ok .file⟩, ⟨Utf8.bytes "b.ts", .ok .file⟩, ⟨Utf8.bytes "c.py", .ok .file⟩,
      ⟨Utf8.bytes "d.txt", .ok .file⟩].map .ok)
  canonical p := .ok p
  read p :=
    if p = .ofString "/m/a.vue" then .ok (Utf8.bytes "<template>\n\n// x\ny\n </template>\n")
    else if p = .ofString "/m/b.ts" then .ok (Utf8.bytes "let a;\n" ++ [255])
    else .ok (Utf8.bytes "a = 1\n")

theorem scan_mixedView :
    (scan mixedView (.ofRoot (.ofString "/m")) .zero).result
      = .ok ⟨⟨[("Python", ⟨1, ⟨1, 0, 0, 1⟩⟩), ("Vue", ⟨1, ⟨5, 1, 1, 1⟩⟩)]⟩, 1, 0⟩ := by
  show (ScanRun.ofBooks (Books.takeAll mixedView (.ofRoot (.ofString "/m")) ⟨none, .ofString "/m"⟩
    (.start .zero) (Walk.walk mixedView (.ofRoot (.ofString "/m")) 101 0 (.ofString "/m")))).result = _
  rw [Walk.walk_of_sorted rfl (by decide)]
  decide +kernel

/-- Two of five lines are tags, and without the two files that are skipped the tally is the same. -/
theorem scan_balances_mixedView :
    (scan mixedView (.ofRoot (.ofString "/m")) .zero).result
      = .ok ⟨⟨[("Python", ⟨1, ⟨1, 0, 0, 1⟩⟩), ("Vue", ⟨1, ⟨5, 1, 1, 1⟩⟩)]⟩, 1, 0⟩ ∧
    5 = 1 + 1 + 1 + (linesCounted mixedView (.ofRoot (.ofString "/m")) .vue).flatten.countP
      Language.StartsWithRegionTag ∧
    1 = 0 + 0 + 1 ∧
    ∃ less, (scan (mixedView.picking fun path => (mixedView.counted? path).isSome)
        (.ofRoot (.ofString "/m")) .zero).result = .ok less ∧
      less.tally = ⟨[("Python", ⟨1, ⟨1, 0, 0, 1⟩⟩), ("Vue", ⟨1, ⟨5, 1, 1, 1⟩⟩)]⟩ := by
  obtain ⟨_, _, _, hplain, hvue, _, _, _, hskipped⟩ := scan_balances scan_mixedView
  refine ⟨scan_mixedView, hvue ⟨1, ⟨5, 1, 1, 1⟩⟩ (by decide), ?_, hskipped rfl _ ?_⟩
  · exact hplain (.plain "Python" [".py"] "#" none) (by decide) rfl ⟨1, ⟨1, 0, 0, 1⟩⟩ (by decide)
  · intro path _ hnot
    exact FileSystem.passes_iff.mpr (by simpa using hnot)

end

end LineCensus
