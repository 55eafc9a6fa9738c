import LineCensus.Proofs.Scan.Congruence
import LineCensus.Proofs.Tally.Merge

/-!
# `Proofs.Scan.Decomposition` — a scan and the scans of its parts

The events of a walk are those of the directory itself and those of the directories in it, in another order.
A scan of one of these directories has the same events but for its depths, and neither order nor depth
matters to what a scan comes to. So a scan comes to what its parts come to together: the scan of the files
directly in the root, and one scan for each directory in it.

## Contents
- `Config.shallow`, `Config.below` and `FileSystem.subdirectories`, the parts of a scan.
- `Walk.walk_perm`, the events of a walk by parts; `Walk.map_blur_walk_below`, those of a part as a scan of
  its own.
- `Yield`, what a scan comes to, from the events alone.
- `scan_decomposes`.
-/

namespace LineCensus

/-! ## The parts of a scan -/

/-- The same settings without the directories below the root. -/
def Config.shallow (config : Config) : Config := { config with nonRecursive := true }

/-- The same settings for a root one level below, with the levels that are left. -/
def Config.below (config : Config) (root : Path) : Config :=
  { config with root := root, maxDepth := config.maxDepth - 1 }

/-- The entry is a directory itself, no link to one, and the settings do not leave out its name. -/
def Entry.isPart (config : Config) (entry : Entry) : Bool :=
  match entry.kind with
  | .ok .directory => !config.excludes entry.name
  | _ => false

/-- The directories that stand directly in a directory and are not left out, as they are listed. -/
def FileSystem.subdirectories (fs : FileSystem) (config : Config) (directory : Path) : List Name :=
  match fs.list directory with
  | .error _ => []
  | .ok entries =>
    ((entries.filterMap Except.toOption).filter (Entry.isPart config)).map Entry.name

namespace Walk

variable {fs : FileSystem} {config : Config}

/-- What an entry leads to is either in the directory or below it. -/
theorem visit_eq_append {enter enter' : Path → List Event} (hrec : config.nonRecursive = false)
    (directory : Path) (entry : Entry) :
    visit fs config enter directory entry
      = visit fs config.shallow enter' directory entry
        ++ if entry.isPart config then enter (directory.join entry.name) else [] := by
  unfold visit Entry.isPart
  cases entry.kind with
  | error error => rfl
  | ok kind =>
    cases kind with
    | file => rfl
    | directory =>
      by_cases hexcluded : config.excludes entry.name = true
      · simp [Config.shallow, hexcluded]
      · simp [Config.shallow, hrec, hexcluded]
    | link => exact (List.append_nil _).symm
    | other => rfl

/-- **One level of a walk, by parts**: what stands directly in the directory, and the walks of the directories
    in it. A walk mixes the two, as its entries are in the order of their names. -/
theorem walk_perm (hrec : config.nonRecursive = false) (levels depth : Nat) (directory : Path) :
    (walk fs config (levels + 1) depth directory).Perm
      (walk fs config.shallow (levels + 1) depth directory
        ++ (fs.subdirectories config directory).flatMap fun name =>
            walk fs config levels (depth + 1) (directory.join name)) := by
  cases hlist : fs.list directory with
  | error error =>
    simp only [walk, FileSystem.subdirectories, hlist]
    exact List.Perm.refl _
  | ok entries =>
    have hsplit : ∀ entry, visit fs config (walk fs config levels (depth + 1)) directory entry
        = visit fs config.shallow (walk fs config.shallow levels (depth + 1)) directory entry
          ++ if entry.isPart config then walk fs config levels (depth + 1) (directory.join entry.name)
            else [] := visit_eq_append hrec directory
    have hsorted : (sortedEntries entries).Perm (entries.filterMap Except.toOption) :=
      List.mergeSort_perm _ _
    simp only [walk, FileSystem.subdirectories, hlist, List.flatMap_map, flatMap_filter]
    rw [funext hsplit, List.append_assoc]
    refine List.Perm.append_left _ ?_
    exact (List.flatMap_append_perm _ _ _).symm.trans
      (List.Perm.append_left _ (hsorted.flatMap_right _))

/-- The parts have no more files than the whole. -/
theorem length_filesOf_shallow_le (hrec : config.nonRecursive = false) (levels depth : Nat)
    (directory : Path) :
    (filesOf (walk fs config.shallow (levels + 1) depth directory)).length
      ≤ (filesOf (walk fs config (levels + 1) depth directory)).length := by
  have hfiles := (@walk_perm fs config hrec levels depth directory).filterMap file?
  rw [filesOf, filesOf, hfiles.length_eq]
  exact ((List.sublist_append_left _ _).filterMap file?).length_le

theorem length_filesOf_part_le (hrec : config.nonRecursive = false) (levels depth : Nat)
    {directory : Path} {name : Name} (hname : name ∈ fs.subdirectories config directory) :
    (filesOf (walk fs config levels (depth + 1) (directory.join name))).length
      ≤ (filesOf (walk fs config (levels + 1) depth directory)).length := by
  have hfiles := (@walk_perm fs config hrec levels depth directory).filterMap file?
  have hpart : (walk fs config levels (depth + 1) (directory.join name)).Sublist
      ((fs.subdirectories config directory).flatMap fun name =>
        walk fs config levels (depth + 1) (directory.join name)) :=
    List.sublist_flatten_of_mem (List.mem_map_of_mem hname)
  rw [filesOf, filesOf, hfiles.length_eq]
  exact ((hpart.trans (List.sublist_append_right _ _)).filterMap file?).length_le

/-! ## A part as a scan of its own -/

/-- An event without its depth and without the limit. -/
def blur : Event → Event
  | .listed _ directory => .listed 0 directory
  | .trouble (.depthLimit _ directory) => .trouble (.depthLimit 0 directory)
  | event => event

theorem file?_blur (event : Event) : file? (blur event) = file? event := by
  cases event with
  | listed depth directory => rfl
  | file path => rfl
  | trouble t => cases t <;> rfl

theorem isSome_trouble?_blur (event : Event) :
    (trouble? (blur event)).isSome = (trouble? event).isSome := by
  cases event with
  | listed depth directory => rfl
  | file path => rfl
  | trouble t => cases t <;> rfl

theorem filesOf_map_blur (events : List Event) : filesOf (events.map blur) = filesOf events := by
  rw [filesOf, List.filterMap_map, show file? ∘ blur = file? from funext file?_blur]
  rfl

theorem length_troublesOf_map_blur (events : List Event) :
    (troublesOf (events.map blur)).length = (troublesOf events).length := by
  rw [troublesOf, troublesOf, List.length_filterMap_eq_countP, List.length_filterMap_eq_countP,
    List.countP_map]
  exact List.countP_congr fun event _ => by rw [Function.comp_apply, isSome_trouble?_blur]

/-- **The walk of a part** is that of a scan of its own, but for the depths and the limit. -/
theorem map_blur_walk_below (root : Path) (levels depth : Nat) (directory : Path) :
    (walk fs config levels (depth + 1) directory).map blur
      = (walk fs (config.below root) levels depth directory).map blur := by
  refine (map_walk_congr ?_ (.of_eq ?_) ?_ ?_ ?_ ?_).symm
  all_goals intros; rfl

end Walk

/-! ## What a scan comes to -/

/-- The results of two scans put together. -/
def Outcome.merge (a b : Outcome) : Outcome :=
  ⟨a.tally.merge b.tally, a.unreadable + b.unreadable, a.troubles + b.troubles⟩

/-- What a scan comes to: its result, and what it adds to the counters. -/
structure Yield where
  outcome : Outcome
  growth : Activity

namespace Yield

/-- What two scans come to together. -/
def merge (a b : Yield) : Yield := ⟨a.outcome.merge b.outcome, a.growth + b.growth⟩

/-- What events come to, if no file among them is one too many or not selected. -/
def ofEvents (fs : FileSystem) (events : List Event) : Yield :=
  let files := Walk.filesOf events
  { outcome :=
      { tally := .ofFiles (files.filterMap fs.counted?)
        unreadable := files.countP (fs.FailsToRead ·)
        troubles := (Walk.troublesOf events).length }
    growth := (files.map fs.effort).sum }

variable {fs : FileSystem}

theorem ofEvents_append (events events' : List Event) :
    ofEvents fs (events ++ events') = (ofEvents fs events).merge (ofEvents fs events') := by
  have hfiles : Walk.filesOf (events ++ events') = Walk.filesOf events ++ Walk.filesOf events' :=
    List.filterMap_append
  have htroubles : Walk.troublesOf (events ++ events')
      = Walk.troublesOf events ++ Walk.troublesOf events' := List.filterMap_append
  simp only [ofEvents, merge, Outcome.merge, hfiles, htroubles, List.filterMap_append,
    Tally.ofFiles_append, List.countP_append, List.length_append, List.map_append, List.sum_append]

/-- The order of the events does not matter. -/
theorem ofEvents_perm {events events' : List Event} (h : events.Perm events') :
    ofEvents fs events = ofEvents fs events' := by
  have hfiles : (Walk.filesOf events).Perm (Walk.filesOf events') := h.filterMap _
  have htroubles : (Walk.troublesOf events).Perm (Walk.troublesOf events') := h.filterMap _
  simp only [ofEvents, Tally.ofFiles_perm (hfiles.filterMap _), hfiles.countP_eq,
    htroubles.length_eq, (hfiles.map _).sum_eq]

theorem ofEvents_of_map_blur {events events' : List Event}
    (h : events.map Walk.blur = events'.map Walk.blur) : ofEvents fs events = ofEvents fs events' := by
  have hfiles : Walk.filesOf events = Walk.filesOf events' := by
    rw [← Walk.filesOf_map_blur, h, Walk.filesOf_map_blur]
  have htroubles : (Walk.troublesOf events).length = (Walk.troublesOf events').length := by
    rw [← Walk.length_troublesOf_map_blur, h, Walk.length_troublesOf_map_blur]
  simp only [ofEvents, hfiles, htroubles]

/-- Events that are followed by those of one part after another. -/
theorem foldl_merge_ofEvents (events : List Event) (names : List Name) (part : Name → List Event) :
    (names.map fun name => ofEvents fs (part name)).foldl merge (ofEvents fs events)
      = ofEvents fs (events ++ names.flatMap part) := by
  induction names generalizing events with
  | nil => rw [List.flatMap_nil, List.append_nil]; rfl
  | cons name rest ih =>
    rw [List.map_cons, List.foldl_cons, ← ofEvents_append, ih, List.flatMap_cons, List.append_assoc]

/-- **A walk comes to what its parts come to together.** -/
theorem ofEvents_walk {config : Config} (hrec : config.nonRecursive = false) (levels depth : Nat)
    (directory : Path) :
    ofEvents fs (Walk.walk fs config (levels + 1) depth directory)
      = ((fs.subdirectories config directory).map fun name =>
          ofEvents fs (Walk.walk fs config levels (depth + 1) (directory.join name))).foldl merge
          (ofEvents fs (Walk.walk fs config.shallow (levels + 1) depth directory)) := by
  rw [foldl_merge_ofEvents]
  exact ofEvents_perm (Walk.walk_perm hrec levels depth directory)

end Yield

/-- Whatever the counters that it starts from, the scan ends well and comes to this. -/
def Yields (fs : FileSystem) (config : Config) (y : Yield) : Prop :=
  ∀ start, (scan fs config start).result = .ok y.outcome ∧
    (scan fs config start).activity = start + y.growth

variable {fs : FileSystem} {config : Config}

/-- Without a pattern, the candidates of a directory are all files of its walk. -/
theorem candidates_of_directory (hroot : fs.kind config.root = .ok .directory)
    (hspec : config.filespec = none) :
    candidates fs config
      = Walk.filesOf (Walk.walk fs config (config.maxDepth + 1) 0 (fs.walkRoot config.root)) := by
  have hp : prepare fs config = .ok ⟨⟨none, fs.walkRoot config.root⟩, .directory⟩ := by
    simp only [prepare, Config.pattern, hspec, FileSystem.rootKind, hroot]
  rw [candidates_of_prepared hp, events_of_directory hp hroot]
  exact List.filter_eq_self.mpr fun _ _ => rfl

/-- A scan of a directory comes to what its walk comes to, if there is room for all files. -/
theorem yields_of_fits (hroot : fs.kind config.root = .ok .directory) (hspec : config.filespec = none)
    (hfits : (Walk.filesOf (Walk.walk fs config (config.maxDepth + 1) 0
      (fs.walkRoot config.root))).length ≤ config.maxEntries) :
    Yields fs config
      (.ofEvents fs (Walk.walk fs config (config.maxDepth + 1) 0 (fs.walkRoot config.root))) := by
  obtain ⟨p, hp⟩ := exists_prepare (by simp [hspec]) hroot
  have hcandidates := candidates_of_directory hroot hspec
  rw [← hcandidates] at hfits
  have hentered := Prepared.entered_of_fits hp hfits
  rw [events_of_directory hp hroot] at hentered
  rw [hcandidates] at hfits
  intro start
  rw [scan_of_prepared hp, hentered, hcandidates, List.take_of_length_le hfits]
  exact ⟨if_pos hfits, rfl⟩

/-- **A recursive scan decomposes.** Take a directory and settings without a pattern that allow for one level
    below the root. Let every directory that stands in the root, and is not left out, be reached as a root of
    its own by some path `sub name`. If the scan of the root ends well, then so does the scan of the files
    directly in it, and the scan of each of these directories with one level less. The whole scan comes to
    what these come to together: the rows of each language are added, and so are the files that could not be
    read, the troubles and the counters. -/
theorem scan_decomposes {sub : Name → Path} {start : Activity} {outcome : Outcome}
    (hroot : fs.kind config.root = .ok .directory) (hrec : config.nonRecursive = false)
    (hspec : config.filespec = none) (hdepth : 1 ≤ config.maxDepth)
    (hsub : ∀ name ∈ fs.subdirectories config (fs.walkRoot config.root),
      fs.kind (sub name) = .ok .directory ∧
        fs.walkRoot (sub name) = (fs.walkRoot config.root).join name)
    (hok : (scan fs config start).result = .ok outcome) :
    ∃ (flat : Yield) (part : Name → Yield),
      Yields fs config.shallow flat ∧
      (∀ name ∈ fs.subdirectories config (fs.walkRoot config.root),
        Yields fs (config.below (sub name)) (part name)) ∧
      Yields fs config
        (((fs.subdirectories config (fs.walkRoot config.root)).map part).foldl Yield.merge flat) ∧
      outcome
        = (((fs.subdirectories config (fs.walkRoot config.root)).map part).foldl Yield.merge flat).outcome := by
  have hwhole := fits_of_result_ok hok
  rw [candidates_of_directory hroot hspec] at hwhole
  refine ⟨.ofEvents fs (Walk.walk fs config.shallow (config.maxDepth + 1) 0 (fs.walkRoot config.root)),
    fun name => .ofEvents fs
      (Walk.walk fs config config.maxDepth 1 ((fs.walkRoot config.root).join name)), ?_, ?_, ?_⟩
  · -- the files directly in the root
    have hfits := Nat.le_trans (Walk.length_filesOf_shallow_le hrec config.maxDepth 0 _) hwhole
    exact yields_of_fits hroot hspec hfits
  · -- a directory in the root; the level that is spent on the root is the one that its own scan lacks
    intro name hname
    obtain ⟨hkind, hplace⟩ := hsub name hname
    have hfits := Nat.le_trans (Walk.length_filesOf_part_le hrec config.maxDepth 0 hname) hwhole
    have hsame := @Walk.map_blur_walk_below fs config (sub name) config.maxDepth 0
      ((fs.walkRoot config.root).join name)
    have hfiles := congrArg Walk.filesOf hsame
    rw [Walk.filesOf_map_blur, Walk.filesOf_map_blur] at hfiles
    have hlevels : (config.below (sub name)).maxDepth + 1 = config.maxDepth := Nat.sub_add_cancel hdepth
    have hown := @yields_of_fits fs (config.below (sub name)) hkind hspec
    rw [hlevels, show fs.walkRoot (config.below (sub name)).root = _ from hplace, ← hfiles,
      ← Yield.ofEvents_of_map_blur hsame] at hown
    exact hown hfits
  · -- together they are the whole walk
    have hyields := yields_of_fits hroot hspec hwhole
    rw [Yield.ofEvents_walk hrec] at hyields
    exact ⟨hyields, Except.ok.inj (hok.symm.trans (hyields start).1)⟩

/-- The sample with answers for the two directories that a scan of it enters. -/
def rootedView : FileSystem :=
  { sampleView with
    kind := fun p =>
      if p = .ofString "/r/shut" ∨ p = .ofString "/r/sub" then .ok .directory else sampleView.kind p }

theorem scan_rootedView :
    (scan rootedView (.ofRoot (.ofString "/r")) .zero).result
      = .ok ⟨⟨[("C/C++", ⟨1, ⟨1, 0, 0, 1⟩⟩)]⟩, 1, 1⟩ := by
  have hfile : ∀ p, rootedView.isFile p = sampleView.isFile p := by
    intro p
    by_cases hp : p = .ofString "/r/shut" ∨ p = .ofString "/r/sub"
    · rcases hp with rfl | rfl <;> rfl
    · simp only [FileSystem.isFile, rootedView, if_neg hp]
  have hwalk : Walk.walk rootedView (.ofRoot (.ofString "/r")) 101 0 (.ofString "/r")
      = Walk.walk sampleView (.ofRoot (.ofString "/r")) 101 0 (.ofString "/r") :=
    Walk.walk_congr hfile (.of_eq fun _ => rfl) rfl (fun _ => rfl) rfl
  show (ScanRun.ofBooks (Books.takeAll rootedView (.ofRoot (.ofString "/r"))
    ⟨none, .ofString "/r"⟩ (.start .zero)
    (Walk.walk rootedView (.ofRoot (.ofString "/r")) 101 0 (.ofString "/r")))).result = _
  rw [hwalk, walk_sampleView]
  decide +kernel

/-- Three parts: one with a file that is counted, one that cannot be listed and one with a file that cannot be
    read. The directory that is left out is not among them. -/
theorem scan_decomposes_rootedView :
    rootedView.subdirectories (.ofRoot (.ofString "/r")) (.ofString "/r")
      = [Utf8.bytes "shut", Utf8.bytes "sub"] ∧
    ∃ flat shut sub : Yield,
      Yields rootedView (Config.ofRoot (.ofString "/r")).shallow flat ∧
      Yields rootedView ((Config.ofRoot (.ofString "/r")).below (.ofString "/r/shut")) shut ∧
      Yields rootedView ((Config.ofRoot (.ofString "/r")).below (.ofString "/r/sub")) sub ∧
      Yields rootedView (.ofRoot (.ofString "/r")) ((flat.merge shut).merge sub) ∧
      ⟨⟨[("C/C++", ⟨1, ⟨1, 0, 0, 1⟩⟩)]⟩, 1, 1⟩ = ((flat.merge shut).merge sub).outcome := by
  have hnames : rootedView.subdirectories (.ofRoot (.ofString "/r"))
      (rootedView.walkRoot (Config.ofRoot (.ofString "/r")).root)
        = [Utf8.bytes "shut", Utf8.bytes "sub"] := by decide
  have hsub : ∀ name ∈ [Utf8.bytes "shut", Utf8.bytes "sub"],
      rootedView.kind ((Path.ofString "/r").join name) = .ok .directory ∧
        rootedView.walkRoot ((Path.ofString "/r").join name) = (Path.ofString "/r").join name := by
    simp only [List.forall_mem_cons, List.not_mem_nil, false_implies, implies_true, and_true]
    exact ⟨⟨rfl, rfl⟩, ⟨rfl, rfl⟩⟩
  rw [← hnames] at hsub
  obtain ⟨flat, part, hflat, hpart, hall, houtcome⟩ :=
    @scan_decomposes rootedView (.ofRoot (.ofString "/r")) (Path.ofString "/r").join .zero _
      rfl rfl rfl (by decide) hsub scan_rootedView
  rw [hnames] at hpart hall houtcome
  obtain ⟨hshut, hrest⟩ := List.forall_mem_cons.mp hpart
  exact ⟨hnames, flat, part (Utf8.bytes "shut"), part (Utf8.bytes "sub"), hflat, hshut,
    hrest _ (List.mem_singleton_self _), hall, houtcome⟩

end LineCensus
