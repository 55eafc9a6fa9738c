import LineCensus.Proofs.Scan.Visited

/-!
# `Proofs.Scan.Trace` — the files that a scan hands to analysis

`Books.takeAll` enters events into the accounts and keeps no list of the files that it has examined.
`takeTraced` does the same and notes each of them. Forgetting the notes gives `takeAll` back
(`takeTraced_fst`), so what is proved of the notes holds of the scan:

* the files examined are the files considered, up to the limit (`takeTraced_snd`);
* the tally and the number of unreadable files are what these files add up to (`takeTraced_outcome`).
-/

namespace LineCensus

/-! ## What one file comes to -/

namespace FileSystem

/-- The lines of a file, if it can be read and its content is UTF-8. -/
def lines? (fs : FileSystem) (path : Path) : Option (List (List Char)) :=
  (fs.read path).toOption.bind linesOfBytes?

/-- What a file adds to the tally, if its language is known and its lines can be had. -/
def counted? (fs : FileSystem) (path : Path) : Option (String × LineCounts) :=
  (Language.ofPath? path).bind fun language =>
    (fs.lines? path).map fun lines => (language.name, language.markers.classify lines)

/-- The language of the file is known, but it cannot be read or its content is not UTF-8. -/
def FailsToRead (fs : FileSystem) (path : Path) : Prop :=
  (Language.ofPath? path).isSome ∧ fs.lines? path = none

instance (fs : FileSystem) : DecidablePred fs.FailsToRead := fun _ => instDecidableAnd

theorem readLines_of_some {fs : FileSystem} {path : Path} {lines : List (List Char)}
    (h : fs.lines? path = some lines) : fs.readLines path = .ok lines := by
  unfold lines? at h
  cases hread : fs.read path with
  | error error => rw [hread] at h; cases h
  | ok content =>
    have hdecoded : linesOfBytes? content = some lines := by rw [hread] at h; exact h
    simp only [readLines, hread, hdecoded]

theorem readLines_of_none {fs : FileSystem} {path : Path} (h : fs.lines? path = none) :
    ∃ reason, fs.readLines path = .error reason ∧ reason.isFailure = true := by
  unfold lines? at h
  cases hread : fs.read path with
  | error error => exact ⟨.unreadable path error, by simp only [readLines, hread], rfl⟩
  | ok content =>
    have hdecoded : linesOfBytes? content = none := by rw [hread] at h; exact h
    exact ⟨.undecodable path, by simp only [readLines, hread, hdecoded], rfl⟩

/-- **All that an analysis can come to.** The file is counted, or it is skipped, and then the reason is a
    failure exactly if the language of the file is known. -/
theorem analyze_cases (fs : FileSystem) (path : Path) :
    (∃ language n, fs.analyze path = .ok (language, n) ∧
      fs.counted? path = some (language.name, n) ∧ ¬fs.FailsToRead path) ∨
    (∃ reason, fs.analyze path = .error reason ∧
      fs.counted? path = none ∧ (reason.isFailure = true ↔ fs.FailsToRead path)) := by
  cases hlanguage : Language.ofPath? path with
  | none =>
    refine Or.inr ⟨.unsupported path, ?_, ?_, ?_⟩
    · simp only [analyze, hlanguage]
    · simp only [counted?, hlanguage, Option.bind_none]
    · simp [FailsToRead, hlanguage, SkipReason.isFailure]
  | some language =>
    cases hlines : fs.lines? path with
    | none =>
      obtain ⟨reason, hreason, hfailure⟩ := readLines_of_none hlines
      refine Or.inr ⟨reason, ?_, ?_, ?_⟩
      · simp only [analyze, hlanguage, hreason]
      · simp only [counted?, hlanguage, hlines, Option.bind_some, Option.map_none]
      · simp [FailsToRead, hlanguage, hlines, hfailure]
    | some lines =>
      refine Or.inl ⟨language, language.markers.classify lines, ?_, ?_, ?_⟩
      · simp only [analyze, hlanguage, readLines_of_some hlines]
      · simp only [counted?, hlanguage, hlines, Option.bind_some, Option.map_some]
      · simp [FailsToRead, hlines]

end FileSystem

/-- The tally after more files. -/
def Tally.recordAll (t : Tally) (files : List (String × LineCounts)) : Tally :=
  files.foldl (fun t file => t.record file.1 file.2) t

theorem Tally.recordAll_append (t : Tally) (xs ys : List (String × LineCounts)) :
    t.recordAll (xs ++ ys) = (t.recordAll xs).recordAll ys :=
  List.foldl_append

namespace Books

variable {fs : FileSystem} {config : Config} {selection : Selection}

/-! ## One event -/

@[simp] theorem examine_considered (b : Books) (verbose : Bool) (path : Path) :
    (b.examine fs verbose path).considered = b.considered + 1 := by
  unfold examine
  cases fs.analyze path with
  | ok found => rfl
  | error reason => rfl

/-- A file changes the result by what it comes to, and by nothing else. -/
theorem examine_outcome (b : Books) (verbose : Bool) (path : Path) :
    (b.examine fs verbose path).outcome =
      { b.outcome with
        tally := b.outcome.tally.recordAll (fs.counted? path).toList
        unreadable := b.outcome.unreadable + if fs.FailsToRead path then 1 else 0 } := by
  unfold examine
  rcases fs.analyze_cases path with ⟨language, n, hok, hcounted, hfails⟩ | ⟨reason, herr, hcounted, hfails⟩
  · rw [hok, hcounted, if_neg hfails]
    rfl
  · rw [herr, hcounted]
    by_cases hf : fs.FailsToRead path
    · rw [if_pos hf]
      simp only [skip, hfails.mpr hf, if_true]
      rfl
    · rw [if_neg hf]
      simp only [skip, if_neg (mt hfails.mp hf)]
      rfl

/-! ## All events, with notes -/

/-- `takeAll`, with a note of each file that is examined, in order. -/
def takeTraced (fs : FileSystem) (config : Config) (selection : Selection) :
    Books → List Event → (Books × Option ScanError) × List Path
  | b, [] => ((b, none), [])
  | b, .listed _ _ :: rest => takeTraced fs config selection b rest
  | b, .trouble t :: rest => takeTraced fs config selection (b.pass t) rest
  | b, .file path :: rest =>
    if selection.considers path then
      if config.maxEntries < b.considered + 1 then
        ((b, some (.tooManyEntries config.maxEntries)), [])
      else
        let after := takeTraced fs config selection (b.examine fs config.verbose path) rest
        (after.1, path :: after.2)
    else takeTraced fs config selection b rest

/-- The notes change nothing. -/
theorem takeTraced_fst (b : Books) (events : List Event) :
    (takeTraced fs config selection b events).1 = takeAll fs config selection b events := by
  induction events generalizing b with
  | nil => rfl
  | cons event rest ih =>
    cases event with
    | listed depth directory => exact ih b
    | trouble t => exact ih (b.pass t)
    | file path =>
      rw [takeTraced, takeAll]
      by_cases hc : selection.considers path = true
      · rw [if_pos hc, if_pos hc]
        by_cases hm : config.maxEntries < b.considered + 1
        · rw [if_pos hm, if_pos hm]
        · rw [if_neg hm, if_neg hm]
          exact ih _
      · rw [if_neg hc, if_neg hc]
        exact ih b

/-- The files of the events that the selection considers. -/
def consideredFiles (selection : Selection) (events : List Event) : List Path :=
  (Walk.filesOf events).filter selection.considers

theorem consideredFiles_file {path : Path} (h : selection.considers path = true)
    (rest : List Event) :
    consideredFiles selection (.file path :: rest) = path :: consideredFiles selection rest :=
  List.filter_cons_of_pos h

theorem consideredFiles_ignored {path : Path} (h : ¬selection.considers path = true)
    (rest : List Event) :
    consideredFiles selection (.file path :: rest) = consideredFiles selection rest :=
  List.filter_cons_of_neg h

/-- **The files examined are the files considered, up to the limit.** -/
theorem takeTraced_snd (b : Books) (events : List Event) :
    (takeTraced fs config selection b events).2
      = (consideredFiles selection events).take (config.maxEntries - b.considered) := by
  induction events generalizing b with
  | nil => exact List.take_nil.symm
  | cons event rest ih =>
    cases event with
    | listed depth directory => exact ih b
    | trouble t => exact ih (b.pass t)
    | file path =>
      rw [takeTraced]
      by_cases hc : selection.considers path = true
      · rw [if_pos hc, consideredFiles_file hc]
        by_cases hm : config.maxEntries < b.considered + 1
        · -- the limit is used up, and nothing more is noted
          rw [if_pos hm, show config.maxEntries - b.considered = 0 by omega]
          rfl
        · rw [if_neg hm, show config.maxEntries - b.considered
              = (config.maxEntries - (b.considered + 1)) + 1 by omega, List.take_succ_cons]
          show path :: (takeTraced fs config selection _ rest).2 = _
          rw [ih, examine_considered]
      · rw [if_neg hc, consideredFiles_ignored hc]
        exact ih b

/-- Without an error the limit is not exceeded. -/
theorem length_consideredFiles_le {b : Books} {events : List Event}
    (h : (takeAll fs config selection b events).2 = none) :
    (consideredFiles selection events).length ≤ config.maxEntries - b.considered := by
  induction events generalizing b with
  | nil => exact Nat.zero_le _
  | cons event rest ih =>
    cases event with
    | listed depth directory => exact ih h
    | trouble t => exact @ih (b.pass t) h
    | file path =>
      rw [takeAll] at h
      by_cases hc : selection.considers path = true
      · rw [if_pos hc] at h
        by_cases hm : config.maxEntries < b.considered + 1
        · rw [if_pos hm] at h; cases h
        · rw [if_neg hm] at h
          have hrest := ih h
          rw [examine_considered] at hrest
          rw [consideredFiles_file hc, List.length_cons]
          omega
      · rw [if_neg hc] at h
        rw [consideredFiles_ignored hc]
        exact ih h

/-- Without an error, all files considered are examined. -/
theorem takeTraced_snd_of_none {b : Books} {events : List Event}
    (h : (takeTraced fs config selection b events).1.2 = none) :
    (takeTraced fs config selection b events).2 = consideredFiles selection events := by
  rw [takeTraced_fst] at h
  rw [takeTraced_snd]
  exact List.take_of_length_le (length_consideredFiles_le h)

/-- A file in front adds what it comes to. -/
theorem filterMap_counted?_cons (path : Path) (rest : List Path) :
    (path :: rest).filterMap fs.counted?
      = (fs.counted? path).toList ++ rest.filterMap fs.counted? := by
  cases h : fs.counted? path with
  | none => rw [List.filterMap_cons_none h]; rfl
  | some file => rw [List.filterMap_cons_some h]; rfl

/-- **The result is what the files examined add up to.** -/
theorem takeTraced_outcome (b : Books) (events : List Event) :
    (takeTraced fs config selection b events).1.1.outcome.tally
      = b.outcome.tally.recordAll
          ((takeTraced fs config selection b events).2.filterMap fs.counted?) ∧
    (takeTraced fs config selection b events).1.1.outcome.unreadable
      = b.outcome.unreadable
        + (takeTraced fs config selection b events).2.countP (fs.FailsToRead ·) := by
  induction events generalizing b with
  | nil => exact ⟨rfl, rfl⟩
  | cons event rest ih =>
    cases event with
    | listed depth directory => exact ih b
    | trouble t => exact ih (b.pass t)
    | file path =>
      rw [takeTraced]
      by_cases hc : selection.considers path = true
      · rw [if_pos hc]
        by_cases hm : config.maxEntries < b.considered + 1
        · rw [if_pos hm]
          exact ⟨rfl, rfl⟩
        · rw [if_neg hm]
          obtain ⟨htally, hunreadable⟩ := ih (b.examine fs config.verbose path)
          -- what this file comes to is in the accounts that the rest starts from
          rw [examine_outcome] at htally hunreadable
          constructor
          · rw [filterMap_counted?_cons, Tally.recordAll_append]
            exact htally
          · rw [List.countP_cons, hunreadable]
            simp only [decide_eq_true_eq]
            omega
      · rw [if_neg hc]
        exact ih b

end Books

end LineCensus
