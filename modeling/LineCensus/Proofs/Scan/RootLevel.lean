import LineCensus.Proofs.Scan.Decomposition
import LineCensus.Proofs.Scan.Depth
import LineCensus.Proofs.Scan.Errors

/-!
# `Proofs.Scan.RootLevel` — two ways to stay in the root

A scan stays in its root if it leaves all directories alone, or if the limit of depth is zero. The one setting
turns a directory away before it is entered; the other one lets it be entered and turns it away inside, with a
warning. So the events with the first setting are those with the second one, less the warnings about depth.
Such a warning takes no room within the limit of files, wherever it stands, so both scans stop at the same file
or not at all.

## Contents
- `Config.rootOnly` beside `Config.shallow`, and `FileSystem.partsOfRoot`, the directories that make the
  difference.
- `Walk.walk_shallow_eq_filter` and `Walk.walk_rootOnly_perm`, for the walks.
- `Books.withinLimit_filter` and `Books.consideredFiles_filter`: events that are no files take no room.
- `scan_rootOnly`.
-/

namespace LineCensus

/-- The same settings with no level below the root. -/
def Config.rootOnly (config : Config) : Config := { config with nonRecursive := false, maxDepth := 0 }

/-- The directories that stand directly in the root and are not left out. A root that is no directory, or cannot
    be listed, has none. -/
def FileSystem.partsOfRoot (fs : FileSystem) (config : Config) : List Path :=
  match fs.kind config.root with
  | .ok .directory =>
    (fs.subdirectories config (fs.walkRoot config.root)).map (fs.walkRoot config.root).join
  | _ => []

/-- Is it a warning about depth? -/
def Trouble.isDepthLimit : Trouble → Bool
  | .depthLimit _ _ => true
  | _ => false

/-- Is the event anything but a warning about depth? -/
def Event.isWithinDepth : Event → Bool
  | .trouble t => !t.isDepthLimit
  | _ => true

namespace Walk

variable {fs : FileSystem} {config : Config}

/-! ## The two walks -/

/-- Where no directory is entered, it does not matter how many levels are left. -/
theorem walk_of_nonRecursive {config' : Config} (hrec : config.nonRecursive = true)
    (hrec' : config'.nonRecursive = true) (hexcludes : ∀ name, config.excludes name = config'.excludes name)
    (levels levels' depth : Nat) (directory : Path) :
    walk fs config (levels + 1) depth directory = walk fs config' (levels' + 1) depth directory := by
  have hvisit : ∀ entry, visit fs config (walk fs config levels (depth + 1)) directory entry
      = visit fs config' (walk fs config' levels' (depth + 1)) directory entry := by
    intro entry
    apply visit_congr rfl (hrec.trans hrec'.symm) hexcludes
    rintro ⟨_, hentered, _⟩
    rw [hrec] at hentered
    cases hentered
  cases hlist : fs.list directory with
  | error error => simp only [walk, hlist]
  | ok entries => simp only [walk, hlist, funext hvisit]

/-- A visit that enters nothing warns of no depth. -/
theorem isWithinDepth_of_mem_visit_shallow {enter : Path → List Event} {directory : Path} {entry : Entry}
    {event : Event} (h : event ∈ visit fs config.shallow enter directory entry) :
    event.isWithinDepth = true := by
  rcases mem_visit h with ⟨rfl, _⟩ | ⟨error, rfl⟩ | ⟨⟨_, hentered, _⟩, _⟩
  · rfl
  · rfl
  · cases hentered

/-- One entry: what the second setting adds to the first is a warning, if it is a directory to enter. -/
theorem visit_shallow_eq_filter (enter : Path → List Event) (depth : Nat) (directory : Path) (entry : Entry) :
    visit fs config.shallow enter directory entry
      = (visit fs config.rootOnly (walk fs config.rootOnly 0 depth) directory entry).filter
          Event.isWithinDepth := by
  have hsplit : visit fs config.rootOnly (walk fs config.rootOnly 0 depth) directory entry
      = visit fs config.shallow enter directory entry
        ++ if entry.isPart config then [.trouble (.depthLimit 0 (directory.join entry.name))] else [] :=
    visit_eq_append rfl directory entry
  rw [hsplit, List.filter_append,
    List.filter_eq_self.mpr fun _ hevent => isWithinDepth_of_mem_visit_shallow hevent]
  by_cases hpart : entry.isPart config = true
  · rw [if_pos hpart]
    exact (List.append_nil _).symm
  · rw [if_neg hpart]
    exact (List.append_nil _).symm

/-- **The walk that leaves all directories alone** is the walk without a level below the root, less the warnings
    about depth. -/
theorem walk_shallow_eq_filter (levels depth : Nat) (directory : Path) :
    walk fs config.shallow (levels + 1) depth directory
      = (walk fs config.rootOnly 1 depth directory).filter Event.isWithinDepth := by
  cases hlist : fs.list directory with
  | error error =>
    simp only [walk, hlist]
    rfl
  | ok entries =>
    have htroubles : (entryTroubles directory entries).filter Event.isWithinDepth
        = entryTroubles directory entries := by
      refine List.filter_eq_self.mpr fun event hevent => ?_
      obtain ⟨error, rfl⟩ := eq_entry_of_mem_entryTroubles hevent
      rfl
    have hlisted : (Event.listed depth directory).isWithinDepth = true := rfl
    simp only [walk, hlist, List.cons_append, List.filter_cons_of_pos hlisted, List.filter_append, htroubles,
      List.filter_flatMap]
    rw [funext (visit_shallow_eq_filter (walk fs config.shallow levels (depth + 1)) (depth + 1) directory)]
    rfl

/-- **The walk without a level below the root** is the other one, and a warning for each directory in the root
    that is not left out. -/
theorem walk_rootOnly_perm (levels depth : Nat) (directory : Path) :
    (walk fs config.rootOnly 1 depth directory).Perm
      (walk fs config.shallow (levels + 1) depth directory
        ++ (fs.subdirectories config directory).map fun name =>
            .trouble (.depthLimit 0 (directory.join name))) := by
  have hperm := @walk_perm fs config.rootOnly rfl 0 depth directory
  have hshallow : walk fs config.rootOnly.shallow 1 depth directory
      = walk fs config.shallow (levels + 1) depth directory :=
    walk_of_nonRecursive rfl rfl (fun _ => rfl) 0 levels depth directory
  rw [hshallow] at hperm
  show List.Perm _ (_ ++ List.map _ (fs.subdirectories config.rootOnly directory))
  rw [List.map_eq_flatMap]
  exact hperm

end Walk

namespace Books

variable {p : Event → Bool}

/-! ## Events that take no room -/

/-- The files that are considered do not depend on the other events. -/
theorem consideredFiles_filter (hfile : ∀ path, p (.file path) = true) (selection : Selection)
    (events : List Event) :
    consideredFiles selection (events.filter p) = consideredFiles selection events := by
  unfold consideredFiles Walk.filesOf
  rw [List.filterMap_filter]
  refine congrArg (List.filter _) (List.filterMap_congr fun event _ => ?_)
  cases event with
  | listed depth directory => exact ite_self none
  | file path => rw [hfile, if_pos rfl]
  | trouble t => exact ite_self none

/-- **Events that are no files take no room**: it does not matter if they are taken out before the limit cuts the
    events, or after it. -/
theorem withinLimit_filter (hfile : ∀ path, p (.file path) = true) (selection : Selection) (room : Nat)
    (events : List Event) :
    withinLimit selection room (events.filter p) = (withinLimit selection room events).filter p := by
  induction events generalizing room with
  | nil => rfl
  | cons event rest ih =>
    -- an event that takes no room stands in front of both sides, or of neither
    have hkeep : (∀ more, withinLimit selection room (event :: more)
          = event :: withinLimit selection room more) →
        withinLimit selection room ((event :: rest).filter p)
          = (withinLimit selection room (event :: rest)).filter p := by
      intro hfree
      rw [hfree rest]
      by_cases hp : p event = true
      · rw [List.filter_cons_of_pos hp, List.filter_cons_of_pos hp, hfree, ih]
      · rw [List.filter_cons_of_neg hp, List.filter_cons_of_neg hp, ih]
    cases event with
    | listed depth directory => exact hkeep fun _ => rfl
    | trouble t => exact hkeep fun _ => rfl
    | file path =>
      by_cases hc : selection.considers path = true
      · rw [List.filter_cons_of_pos (hfile path)]
        cases room with
        | zero =>
          simp only [withinLimit, hc, if_true]
          rfl
        | succ room =>
          simp only [withinLimit, hc, if_true]
          rw [List.filter_cons_of_pos (hfile path), ih]
      · apply hkeep
        intro more
        simp only [withinLimit, hc, Bool.false_eq_true, if_false]

end Books

/-! ## The two scans -/

section

variable {fs : FileSystem} {config : Config}

theorem Prepared.events_shallow (p : Prepared) :
    p.events fs config.shallow = (p.events fs config.rootOnly).filter Event.isWithinDepth := by
  unfold events
  cases p.kind with
  | file => rfl
  | directory => exact Walk.walk_shallow_eq_filter _ _ _
  | link => rfl
  | other => rfl

theorem Prepared.events_rootOnly_perm {p : Prepared} (hp : prepare fs config = .ok p) :
    (p.events fs config.rootOnly).Perm
      (p.events fs config.shallow
        ++ (fs.partsOfRoot config).map fun path => .trouble (.depthLimit 0 path)) := by
  obtain ⟨_, hwalkRoot, hrootKind⟩ := prepare_eq_ok hp
  have hroot : fs.kind config.root = .ok p.kind := FileSystem.rootKind_eq_ok.mp hrootKind
  unfold events FileSystem.partsOfRoot
  rw [hroot]
  cases p.kind with
  | file => exact List.Perm.refl _
  | directory =>
    rw [hwalkRoot, List.map_map]
    exact Walk.walk_rootOnly_perm _ _ _
  | link => exact List.Perm.refl _
  | other => exact List.Perm.refl _

theorem Prepared.entered_shallow (p : Prepared) :
    p.entered fs config.shallow = (p.entered fs config.rootOnly).filter Event.isWithinDepth := by
  unfold entered
  rw [p.events_shallow]
  exact Books.withinLimit_filter (fun _ => rfl) _ _ _

/-- Both scans have the same candidates. -/
theorem candidates_rootOnly (fs : FileSystem) (config : Config) :
    candidates fs config.rootOnly = candidates fs config.shallow := by
  cases hp : prepare fs config with
  | error error =>
    have hp' : prepare fs config.shallow = .error error := hp
    have hp'' : prepare fs config.rootOnly = .error error := hp
    rw [candidates_of_error hp', candidates_of_error hp'']
  | ok p =>
    have hp' : prepare fs config.shallow = .ok p := hp
    have hp'' : prepare fs config.rootOnly = .ok p := hp
    rw [candidates_of_prepared hp', candidates_of_prepared hp'', p.events_shallow,
      Books.consideredFiles_filter fun _ => rfl]

/-- There is one trouble more for each directory. -/
theorem length_troublesOf_rootOnly {p : Prepared} (hp : prepare fs config = .ok p) :
    (Walk.troublesOf (p.events fs config.rootOnly)).length
      = (Walk.troublesOf (p.events fs config.shallow)).length + (fs.partsOfRoot config).length := by
  have hperm : (Walk.troublesOf (p.events fs config.rootOnly)).Perm _ :=
    (Prepared.events_rootOnly_perm hp).filterMap Walk.trouble?
  have hparts : ((fs.partsOfRoot config).map fun path => Event.trouble (.depthLimit 0 path)).filterMap
      Walk.trouble? = (fs.partsOfRoot config).map (Trouble.depthLimit 0) := by
    rw [List.filterMap_map]
    exact congrFun List.filterMap_eq_map _
  rw [hperm.length_eq, List.filterMap_append, List.length_append, hparts, List.length_map]
  rfl

/-- Both scans end with the same error, or else with the same result but for these troubles. -/
theorem result_rootOnly (fs : FileSystem) (config : Config) (start : Activity) :
    (scan fs config.rootOnly start).result
      = (scan fs config.shallow start).result.map fun outcome =>
          { outcome with troubles := outcome.troubles + (fs.partsOfRoot config).length } := by
  cases hp : prepare fs config with
  | error error =>
    have hp' : prepare fs config.shallow = .error error := hp
    have hp'' : prepare fs config.rootOnly = .error error := hp
    rw [scan_of_prepare_error hp', scan_of_prepare_error hp'']
    rfl
  | ok p =>
    have hp' : prepare fs config.shallow = .ok p := hp
    have hp'' : prepare fs config.rootOnly = .ok p := hp
    have hmax : config.rootOnly.maxEntries = config.shallow.maxEntries := rfl
    rw [scan_of_prepared hp', scan_of_prepared hp'', candidates_rootOnly, hmax]
    by_cases hfits : (candidates fs config.shallow).length ≤ config.shallow.maxEntries
    · have hfits' : (candidates fs config.rootOnly).length ≤ config.rootOnly.maxEntries := by
        rw [candidates_rootOnly]
        exact hfits
      rw [Prepared.entered_of_fits hp' hfits, Prepared.entered_of_fits hp'' hfits',
        length_troublesOf_rootOnly hp]
      simp only [if_pos hfits]
      rfl
    · simp only [if_neg hfits]
      rfl

/-- Whatever the first scan logs, the second one logs too, in the same order. -/
theorem log_shallow_sublist (fs : FileSystem) (config : Config) (start : Activity) :
    (scan fs config.shallow start).log.Sublist (scan fs config.rootOnly start).log := by
  cases hp : prepare fs config with
  | error error =>
    have hp' : prepare fs config.shallow = .error error := hp
    rw [scan_of_prepare_error hp']
    exact List.nil_sublist _
  | ok p =>
    have hp' : prepare fs config.shallow = .ok p := hp
    have hp'' : prepare fs config.rootOnly = .ok p := hp
    rw [scan_of_prepared hp', scan_of_prepared hp'', p.entered_shallow]
    exact List.filter_sublist.flatMap _

/-- What the second scan logs beside it are the warnings about the directories, if it comes to its end. -/
theorem log_rootOnly_perm {start : Activity} {outcome : Outcome}
    (hok : (scan fs config.shallow start).result = .ok outcome) :
    (scan fs config.rootOnly start).log.Perm ((scan fs config.shallow start).log
      ++ (fs.partsOfRoot config).map fun path => (Trouble.depthLimit 0 path).record) := by
  have hfits := fits_of_result_ok hok
  have hfits' : (candidates fs config.rootOnly).length ≤ config.rootOnly.maxEntries := by
    rw [candidates_rootOnly]
    exact hfits
  obtain ⟨p, hp'⟩ := prepared_of_result_ok hok
  have hp'' : prepare fs config.rootOnly = .ok p := hp'
  rw [scan_of_prepared hp', scan_of_prepared hp'', Prepared.entered_of_fits hp' hfits,
    Prepared.entered_of_fits hp'' hfits']
  have hparts : ((fs.partsOfRoot config).map fun path => Event.trouble (.depthLimit 0 path)).flatMap
      (Books.logged fs p.selection)
      = (fs.partsOfRoot config).map fun path => (Trouble.depthLimit 0 path).record := by
    rw [List.flatMap_map, List.map_eq_flatMap]
    rfl
  rw [← hparts, ← List.flatMap_append]
  exact (Prepared.events_rootOnly_perm hp').flatMap_right _

/-! ## The directories that make the difference -/

theorem isPart_iff {entry : Entry} :
    entry.isPart config = true ↔ entry.kind = .ok .directory ∧ config.excludes entry.name = false := by
  unfold Entry.isPart
  cases entry.kind with
  | error error => simp
  | ok kind => cases kind <;> simp

/-- They are the real directories that are listed in the root and are not left out. -/
theorem mem_partsOfRoot {path : Path} :
    path ∈ fs.partsOfRoot config ↔
      fs.kind config.root = .ok .directory ∧
      ∃ entries entry, fs.list (fs.walkRoot config.root) = .ok entries ∧ .ok entry ∈ entries ∧
        entry.kind = .ok .directory ∧ config.excludes entry.name = false ∧
        path = (fs.walkRoot config.root).join entry.name := by
  unfold FileSystem.partsOfRoot
  split
  case h_1 hroot =>
    unfold FileSystem.subdirectories
    cases hlist : fs.list (fs.walkRoot config.root) with
    | error error => simp
    | ok entries =>
      have hread : ∀ entry, entry ∈ entries.filterMap Except.toOption ↔ .ok entry ∈ entries :=
        fun _ => List.mem_mergeSort.symm.trans Walk.mem_sortedEntries
      simp only [List.map_map, List.mem_map, List.mem_filter, hread, isPart_iff, Function.comp_apply, hroot,
        true_and, Except.ok.injEq]
      constructor
      · rintro ⟨entry, ⟨hmem, hkind, hexcluded⟩, rfl⟩
        exact ⟨entries, entry, rfl, hmem, hkind, hexcluded, rfl⟩
      · rintro ⟨_, entry, rfl, hmem, hkind, hexcluded, rfl⟩
        exact ⟨entry, ⟨hmem, hkind, hexcluded⟩, rfl⟩
  case h_2 hother =>
    refine iff_of_false List.not_mem_nil ?_
    rintro ⟨hroot, _⟩
    exact hother hroot

/-- In a lawful view there is one for each name. -/
theorem nodup_partsOfRoot (hlawful : fs.IsLawful) : (fs.partsOfRoot config).Nodup := by
  unfold FileSystem.partsOfRoot
  split
  case h_1 _ =>
    unfold FileSystem.subdirectories
    cases hlist : fs.list (fs.walkRoot config.root) with
    | error error => exact List.nodup_nil
    | ok entries =>
      have hnames := (hlawful _ entries hlist).1
      refine List.Nodup.map ?_ (hnames.sublist (List.filter_sublist.map _))
      intro a b hab
      have hbytes := congrArg Path.bytes hab
      rw [Path.join_bytes, Path.join_bytes] at hbytes
      exact List.append_cancel_left hbytes
  case h_2 _ => exact List.nodup_nil

end

/-- **Two ways to stay in the root.** Take any view, settings and counters. The scan that leaves all directories
    alone, whatever its limit of depth, and the scan without a level below the root end with the same error, or
    both end well with the same rows and the same number of unreadable files. They count the same, print the
    same and log the same about files, however they end. If they end well, then they differ in one trouble and
    one warning for each directory that stands in the root itself and is not left out. If the root is no
    directory or cannot be listed, there is none of these. -/
theorem scan_rootOnly (fs : FileSystem) (config : Config) (start : Activity) :
    let flat := scan fs config.shallow start
    let capped := scan fs config.rootOnly start
    let parts := fs.partsOfRoot config
    (capped.result = flat.result.map fun outcome =>
      { outcome with troubles := outcome.troubles + parts.length }) ∧
    capped.activity = flat.activity ∧ capped.printed = flat.printed ∧
    (capped.log.filter fun record => record.level = .debug)
      = (flat.log.filter fun record => record.level = .debug) ∧
    flat.log.Sublist capped.log ∧
    (∀ outcome, flat.result = .ok outcome →
      capped.log.Perm (flat.log ++ parts.map fun path => (Trouble.depthLimit 0 path).record)) ∧
    (∀ path, path ∈ parts ↔ fs.kind config.root = .ok .directory ∧
      ∃ entries entry, fs.list (fs.walkRoot config.root) = .ok entries ∧ .ok entry ∈ entries ∧
        entry.kind = .ok .directory ∧ config.excludes entry.name = false ∧
        path = (fs.walkRoot config.root).join entry.name) ∧
    (fs.IsLawful → parts.Nodup) := by
  intro flat capped parts
  have hflat := scan_covers fs config.shallow start
  have hcapped := scan_covers fs config.rootOnly start
  rw [candidates_rootOnly] at hcapped
  refine ⟨result_rootOnly fs config start, ?_, ?_, ?_, log_shallow_sublist fs config start,
    fun outcome hok => log_rootOnly_perm hok, fun path => mem_partsOfRoot, nodup_partsOfRoot⟩
  · exact hcapped.activity.trans hflat.activity.symm
  · exact hcapped.printed.trans hflat.printed.symm
  · exact hcapped.logged.trans hflat.logged.symm

theorem scan_sampleView_shallow :
    (scan sampleView (Config.ofRoot (.ofString "/r")).shallow .zero).result
      = .ok ⟨⟨[("C/C++", ⟨1, ⟨1, 0, 0, 1⟩⟩)]⟩, 0, 0⟩ := by
  have hwalk : Walk.walk sampleView (Config.ofRoot (.ofString "/r")).shallow 101 0 (.ofString "/r")
      = [.listed 0 (.ofString "/r"), .file (.ofString "/r/link.c")] := by
    rw [Walk.walk_of_sorted rfl (by decide)]
    rfl
  show (ScanRun.ofBooks (Books.takeAll sampleView (Config.ofRoot (.ofString "/r")).shallow
    ⟨none, .ofString "/r"⟩ (.start .zero)
    (Walk.walk sampleView (Config.ofRoot (.ofString "/r")).shallow 101 0 (.ofString "/r")))).result = _
  rw [hwalk]
  decide +kernel

/-- Two directories make a difference, and the one that is left out makes none. -/
theorem scan_rootOnly_sampleView :
    sampleView.IsLawful ∧
    (scan sampleView (Config.ofRoot (.ofString "/r")).shallow .zero).result
      = .ok ⟨⟨[("C/C++", ⟨1, ⟨1, 0, 0, 1⟩⟩)]⟩, 0, 0⟩ ∧
    (scan sampleView (Config.ofRoot (.ofString "/r")).rootOnly .zero).result
      = .ok ⟨⟨[("C/C++", ⟨1, ⟨1, 0, 0, 1⟩⟩)]⟩, 0, 2⟩ ∧
    (scan sampleView (Config.ofRoot (.ofString "/r")).rootOnly .zero).log.Perm
      ((scan sampleView (Config.ofRoot (.ofString "/r")).shallow .zero).log
        ++ [(Trouble.depthLimit 0 (.ofString "/r/shut")).record,
          (Trouble.depthLimit 0 (.ofString "/r/sub")).record]) ∧
    [Path.ofString "/r/shut", Path.ofString "/r/sub"].Nodup := by
  obtain ⟨hresult, _, _, _, _, hlog, _, hnodup⟩ :=
    scan_rootOnly sampleView (.ofRoot (.ofString "/r")) .zero
  have hparts : sampleView.partsOfRoot (.ofRoot (.ofString "/r"))
      = [.ofString "/r/shut", .ofString "/r/sub"] := by decide
  rw [hparts] at hresult hlog hnodup
  rw [scan_sampleView_shallow] at hresult
  exact ⟨sampleView_isLawful, scan_sampleView_shallow, hresult, hlog _ scan_sampleView_shallow,
    hnodup sampleView_isLawful⟩

end LineCensus
