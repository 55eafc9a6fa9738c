import LineCensus.Proofs.Scan.Limit
import LineCensus.Proofs.Scan.Order
import LineCensus.Proofs.Scan.Places
import LineCensus.Proofs.Tally.Merge
import Mathlib.Data.List.Flatten

/-!
# `Proofs.Scan.Depth` — the limit of depth

A directory that lies one level too deep is passed over with a warning. A greater limit lets a scan go on
where it has stopped, so all files that it has found so far are still found, in the same order, and others
between them. Where nothing was too deep, a greater limit makes no difference.

## Contents
- `Config.withDepth`, and `Walk.filesOf_walk_sublist`, the files of a walk with more levels.
- `Walk.walk_eq_of_shallow`, a walk that has levels to spare.
- `Barred`, the directories that lie one level too deep, by rules; `depthLimit_mem_troublesMet`, the warnings
  they cause, and `count_depthLimit`, one for each.
- `scan_depth`.
-/

namespace LineCensus

/-- The same settings with another limit of depth. -/
def Config.withDepth (config : Config) (limit : Nat) : Config := { config with maxDepth := limit }

namespace Walk

variable {fs : FileSystem} {config : Config}

/-! ## More levels -/

/-- **More levels, more files**: a walk with more levels meets the same files in the same order, and others
    between them. -/
theorem filesOf_walk_sublist (limit more : Nat) {levels depth : Nat} {directory : Path} :
    (filesOf (walk fs config levels depth directory)).Sublist
      (filesOf (walk fs (config.withDepth limit) (levels + more) depth directory)) := by
  induction levels generalizing depth directory with
  | zero => exact List.nil_sublist _
  | succ levels ih =>
    rw [Nat.succ_add]
    cases hlist : fs.list directory with
    | error error =>
      rw [filesOf_walk_error hlist]
      exact List.nil_sublist _
    | ok entries =>
      rw [filesOf_walk_ok hlist, filesOf_walk_ok hlist]
      refine List.Sublist.flatMap_right _ fun entry _ => ?_
      by_cases hfile : entry.LeadsToFile fs directory
      · rw [filesOf_visit_file hfile, filesOf_visit_file hfile]
      · by_cases hdir : entry.MayBeEntered config
        · have hdir' : entry.MayBeEntered (config.withDepth limit) := hdir
          rw [filesOf_visit_directory hdir, filesOf_visit_directory hdir']
          exact ih
        · rw [filesOf_visit_other hfile hdir]
          exact List.nil_sublist _

/-- **A walk that comes to no directory that is too deep** has levels to spare: with more of them it is the
    same. -/
theorem walk_eq_of_shallow (limit more : Nat) {levels depth : Nat} {directory : Path}
    (hshallow : ∀ n p, .trouble (.depthLimit n p) ∉ walk fs config levels depth directory) :
    walk fs (config.withDepth limit) (levels + more) depth directory
      = walk fs config levels depth directory := by
  induction levels generalizing depth directory with
  | zero => exact absurd (List.mem_singleton_self _) (hshallow config.maxDepth directory)
  | succ levels ih =>
    rw [Nat.succ_add]
    cases hlist : fs.list directory with
    | error error => simp only [walk, hlist]
    | ok entries =>
      have hvisit : ∀ entry ∈ sortedEntries entries,
          visit fs (config.withDepth limit)
              (walk fs (config.withDepth limit) (levels + more) (depth + 1)) directory entry
            = visit fs config (walk fs config levels (depth + 1)) directory entry := by
        intro entry hentry
        refine visit_congr rfl rfl (fun _ => rfl) fun hdir => ih fun n p hp => ?_
        exact hshallow n p (mem_walk_of_entered hlist (mem_sortedEntries.mp hentry) hdir hp)
      simp only [walk, hlist, List.flatMap_congr hvisit]

/-! ## Too deep -/

/-- One level of a walk: the warnings about depth are those of the directories that may be entered. -/
theorem depthLimit_mem_walk_succ {levels depth limit : Nat} {directory path : Path} :
    .trouble (.depthLimit limit path) ∈ walk fs config (levels + 1) depth directory ↔
      ∃ entries entry, fs.list directory = .ok entries ∧ .ok entry ∈ entries ∧ entry.MayBeEntered config ∧
        .trouble (.depthLimit limit path)
          ∈ walk fs config levels (depth + 1) (directory.join entry.name) := by
  constructor
  · intro h
    rcases mem_walk_succ.mp h with ⟨error, _, heq⟩ | ⟨entries, hlist, heq | hfails | ⟨entry, hmem, hvisit⟩⟩
    · cases heq
    · cases heq
    · obtain ⟨error, heq⟩ := eq_entry_of_mem_entryTroubles hfails
      cases heq
    · rcases mem_visit hvisit with ⟨heq, _⟩ | ⟨error, heq⟩ | ⟨hdir, hwalk⟩
      · cases heq
      · cases heq
      · exact ⟨entries, entry, hlist, hmem, hdir, hwalk⟩
  · rintro ⟨entries, entry, hlist, hmem, hdir, hwalk⟩
    exact mem_walk_of_entered hlist hmem hdir hwalk

end Walk

/-- The directory stands in a visited directory of the greatest depth, and may be entered but for its own
    depth, which is one more. -/
def BarredBelow (fs : FileSystem) (config : Config) (root path : Path) : Prop :=
  ∃ directory entries entry, Visited fs config root config.maxDepth directory ∧
    fs.list directory = .ok entries ∧ .ok entry ∈ entries ∧ entry.MayBeEntered config ∧
    path = directory.join entry.name

/-- The directories that lie one level too deep for the scan. -/
def Barred (fs : FileSystem) (config : Config) (path : Path) : Prop :=
  fs.kind config.root = .ok .directory ∧ BarredBelow fs config (fs.walkRoot config.root) path

namespace Walk

variable {fs : FileSystem} {config : Config}

/-- A walk warns of nothing but what is barred. -/
theorem barredBelow_of_mem_walk {root path : Path} {levels depth limit : Nat} {directory : Path}
    (hlevels : depth + levels = config.maxDepth) (hvisited : Visited fs config root depth directory)
    (h : .trouble (.depthLimit limit path) ∈ walk fs config (levels + 1) depth directory) :
    limit = config.maxDepth ∧ BarredBelow fs config root path := by
  induction levels generalizing depth directory with
  | zero =>
    obtain ⟨entries, entry, hlist, hmem, hdir, hwalk⟩ := depthLimit_mem_walk_succ.mp h
    -- no level is left for the entry, so this is its own warning
    cases List.mem_singleton.mp hwalk
    rw [Nat.add_zero] at hlevels
    subst hlevels
    exact ⟨rfl, directory, entries, entry, hvisited, hlist, hmem, hdir, rfl⟩
  | succ levels ih =>
    obtain ⟨entries, entry, hlist, hmem, hdir, hwalk⟩ := depthLimit_mem_walk_succ.mp h
    obtain ⟨listing, _, hlisting, _⟩ := depthLimit_mem_walk_succ.mp hwalk
    exact ih (by omega) (.entry hvisited hlist hmem hdir (by omega) hlisting) hwalk

/-- **The walk of a root warns of what is barred**, and names the limit. -/
theorem depthLimit_mem_walk_root {root path : Path} {limit : Nat} :
    .trouble (.depthLimit limit path) ∈ walk fs config (config.maxDepth + 1) 0 root ↔
      limit = config.maxDepth ∧ BarredBelow fs config root path := by
  constructor
  · exact barredBelow_of_mem_walk (Nat.zero_add _) .root
  · rintro ⟨rfl, directory, entries, entry, hvisited, hlist, hmem, hdir, rfl⟩
    refine (walk_subset_of_visited hvisited).2 ?_
    rw [Nat.add_sub_cancel_left]
    exact depthLimit_mem_walk_succ.mpr
      ⟨entries, entry, hlist, hmem, hdir, List.mem_singleton_self _⟩

/-- The warning is all that stands at a directory that is barred, or below it. -/
theorem eq_depthLimit_of_within (hlawful : fs.IsLawful) {root path : Path} {event : Event}
    (hbarred : BarredBelow fs config root path)
    (hevent : event ∈ walk fs config (config.maxDepth + 1) 0 root) (hwithin : path.Within event.path) :
    event = .trouble (.depthLimit config.maxDepth path) := by
  obtain ⟨directory, entries, entry, hvisited, hlist, hmem, hdir, rfl⟩ := hbarred
  have hvisit := mem_visit_of_visited hlawful hvisited hlist hmem hevent hwithin
  rw [visit_of_entered hdir, Nat.sub_self] at hvisit
  exact List.mem_singleton.mp hvisit

end Walk

/-! ## A whole scan -/

section

variable {fs : FileSystem} {config : Config}

/-- Only a root that is a directory has troubles. -/
theorem directory_of_mem_troublesMet {t : Trouble} (h : t ∈ troublesMet fs config) :
    fs.kind config.root = .ok .directory := by
  rw [mem_troublesMet] at h
  unfold eventsMet at h
  cases hp : prepare fs config with
  | error error =>
    rw [hp] at h
    cases h
  | ok p =>
    obtain ⟨_, _, hkind⟩ := prepare_eq_ok hp
    rw [FileSystem.rootKind_eq_ok.mp hkind]
    simp only [hp, Prepared.events] at h
    cases hk : p.kind with
    | file =>
      simp only [hk, Walk.eventsOfRoot, List.mem_singleton] at h
      cases h
    | directory => rfl
    | link =>
      rw [hk] at h
      cases h
    | other =>
      rw [hk] at h
      cases h

/-- **The warnings about depth** are about the directories that are barred. -/
theorem depthLimit_mem_troublesMet {p : Prepared} (hp : prepare fs config = .ok p) {limit : Nat}
    {path : Path} :
    .depthLimit limit path ∈ troublesMet fs config ↔ limit = config.maxDepth ∧ Barred fs config path := by
  constructor
  · intro h
    have hroot := directory_of_mem_troublesMet h
    rw [mem_troublesMet, eventsMet_of_directory hp hroot] at h
    obtain ⟨hlimit, hbarred⟩ := Walk.depthLimit_mem_walk_root.mp h
    exact ⟨hlimit, hroot, hbarred⟩
  · rintro ⟨hlimit, hroot, hbarred⟩
    rw [mem_troublesMet, eventsMet_of_directory hp hroot]
    exact Walk.depthLimit_mem_walk_root.mpr ⟨hlimit, hbarred⟩

/-- There is one warning for each. -/
theorem count_depthLimit (hlawful : fs.IsLawful) {p : Prepared} (hp : prepare fs config = .ok p)
    {path : Path} (hbarred : Barred fs config path) :
    (troublesMet fs config).count (.depthLimit config.maxDepth path) = 1 := by
  have hmem := (depthLimit_mem_troublesMet hp).mpr ⟨rfl, hbarred⟩
  have hnodup : ((troublesMet fs config).filter fun t => Walk.tellsOrigin (.trouble t)).Nodup := by
    have hwalk := @Walk.nodup_walk fs config hlawful (config.maxDepth + 1) 0 (fs.walkRoot config.root)
    rw [← eventsMet_of_directory hp hbarred.1] at hwalk
    rw [troublesMet, Walk.filter_troublesOf]
    refine hwalk.filterMap fun event event' t ht ht' => ?_
    rw [Walk.eq_trouble_of_trouble? ht, Walk.eq_trouble_of_trouble? ht']
  have htells : Walk.tellsOrigin (.trouble (.depthLimit config.maxDepth path)) = true := rfl
  rw [← List.count_filter (p := fun t => Walk.tellsOrigin (.trouble t)) htells]
  exact List.count_eq_one_of_mem hnodup (List.mem_filter.mpr ⟨hmem, htells⟩)

/-! ## Another limit -/

/-- The levels of a walk with a greater limit. -/
theorem levels_withDepth {deeper : Nat} (hle : config.maxDepth ≤ deeper) :
    (config.withDepth deeper).maxDepth + 1 = config.maxDepth + 1 + (deeper - config.maxDepth) := by
  show deeper + 1 = _
  omega

theorem prepare_withDepth (fs : FileSystem) (config : Config) (limit : Nat) :
    prepare fs (config.withDepth limit) = prepare fs config := rfl

/-- **A greater limit leaves no candidate out** and keeps their order. -/
theorem candidates_sublist {deeper : Nat} (hle : config.maxDepth ≤ deeper) :
    (candidates fs config).Sublist (candidates fs (config.withDepth deeper)) := by
  cases hp : prepare fs config with
  | error error =>
    rw [candidates_of_error hp]
    exact List.nil_sublist _
  | ok p =>
    have hp' : prepare fs (config.withDepth deeper) = .ok p := hp
    rw [candidates_of_prepared hp, candidates_of_prepared hp']
    refine List.Sublist.filter _ ?_
    unfold Prepared.events
    cases p.kind with
    | file => exact List.Sublist.refl _
    | directory =>
      show (Walk.filesOf (Walk.walk fs config (config.maxDepth + 1) 0 p.selection.root)).Sublist
        (Walk.filesOf (Walk.walk fs (config.withDepth deeper)
          ((config.withDepth deeper).maxDepth + 1) 0 p.selection.root))
      rw [levels_withDepth hle]
      exact Walk.filesOf_walk_sublist deeper (deeper - config.maxDepth)
    | link => exact List.nil_sublist _
    | other => exact List.nil_sublist _

/-- However a scan ends, it has warned of the troubles that it has come across so far. -/
theorem warnings_prefix (fs : FileSystem) (config : Config) (start : Activity) :
    (scan fs config start).log.filter (fun record => record.level = .warn)
      <+: (troublesMet fs config).map Trouble.record := by
  cases hp : prepare fs config with
  | error error =>
    unfold scan
    rw [hp]
    exact List.nil_prefix
  | ok p =>
    have hentered : p.entered fs config <+: p.events fs config := by
      rcases Books.withinLimit_append p.selection config.maxEntries (p.events fs config) with
        ⟨_, hall⟩ | ⟨_, path, rest, _, hcut⟩
      · exact ⟨[], (List.append_nil _).trans hall⟩
      · exact ⟨_, hcut.symm⟩
    rw [scan_of_prepared hp, troublesMet, eventsMet_of_prepared hp]
    show ((p.entered fs config).flatMap (Books.logged fs p.selection)).filter _ <+: _
    rw [Books.filter_warn_logged]
    exact (hentered.filterMap _).map _

/-- Where nothing is barred, a greater limit makes no difference. -/
theorem scan_withDepth {deeper : Nat} (hle : config.maxDepth ≤ deeper)
    (hfree : ∀ path, ¬Barred fs config path) (start : Activity) :
    scan fs (config.withDepth deeper) start = scan fs config start := by
  refine (scan_congr_walk (prepare_withDepth fs config deeper).symm rfl rfl (fun p hp hkind => ?_)
    (fun _ _ => rfl) start).symm
  obtain ⟨_, hwalkRoot, hrootKind⟩ := prepare_eq_ok hp
  have hroot : fs.kind config.root = .ok .directory := hkind ▸ FileSystem.rootKind_eq_ok.mp hrootKind
  rw [levels_withDepth hle]
  refine (Walk.walk_eq_of_shallow deeper _ fun n path hwarned => ?_).symm
  rw [hwalkRoot] at hwarned
  exact hfree path ⟨hroot, (Walk.depthLimit_mem_walk_root.mp hwarned).2⟩

end

/-- **The limit of depth.** With a greater limit, the candidates of a scan are still candidates, in the same
    order. So if both scans end well, each row is at most what it is with the greater limit, and so is the
    number of files that could not be read. In a scan that ends well there is one warning and one trouble for
    each directory that is barred: it stands in a directory that was listed, is a directory itself, is not left
    out, and lies one name deeper below the root than the limit says. Nothing else that the scan comes across
    stands in it or below it. There are no other warnings about depth; and a scan that its other limit ends
    early has given the first of these warnings and no others. Where nothing is barred, a greater limit makes
    no difference to the scan. -/
theorem scan_depth (fs : FileSystem) (config : Config) :
    (∀ deeper, config.maxDepth ≤ deeper →
      (candidates fs config).Sublist (candidates fs (config.withDepth deeper)) ∧
      ∀ start start' outcome outcome', (scan fs config start).result = .ok outcome →
        (scan fs (config.withDepth deeper) start').result = .ok outcome' →
        (scanTraced fs config start).2.Sublist (scanTraced fs (config.withDepth deeper) start').2 ∧
        outcome.tally.AtMost outcome'.tally ∧ outcome.unreadable ≤ outcome'.unreadable) ∧
    (∀ start, (scan fs config start).log.filter (fun record => record.level = .warn)
      <+: (troublesMet fs config).map Trouble.record) ∧
    (∀ start outcome, (scan fs config start).result = .ok outcome →
      outcome.troubles = (troublesMet fs config).length ∧
      (scan fs config start).log.filter (fun record => record.level = .warn)
        = (troublesMet fs config).map Trouble.record ∧
      (∀ limit path, .depthLimit limit path ∈ troublesMet fs config ↔
        limit = config.maxDepth ∧ Barred fs config path) ∧
      (fs.IsLawful → ∀ path, Barred fs config path →
        (troublesMet fs config).count (.depthLimit config.maxDepth path) = 1 ∧
        ∀ event ∈ eventsMet fs config, path.Within event.path →
          event = .trouble (.depthLimit config.maxDepth path))) ∧
    (fs.IsLawful → fs.OmitsDots → ∀ path, Barred fs config path →
      path.components.length = (fs.walkRoot config.root).components.length + (config.maxDepth + 1)) ∧
    ((∀ path, ¬Barred fs config path) → ∀ deeper, config.maxDepth ≤ deeper → ∀ start,
      scan fs (config.withDepth deeper) start = scan fs config start) := by
  refine ⟨?_, warnings_prefix fs config, ?_, ?_, fun hfree deeper hle start =>
    scan_withDepth hle hfree start⟩
  · intro deeper hle
    have hsublist : (candidates fs config).Sublist (candidates fs (config.withDepth deeper)) :=
      candidates_sublist hle
    refine ⟨hsublist, fun start start' outcome outcome' hok hok' => ?_⟩
    obtain ⟨htraced, htally, hunreadable, _⟩ := scan_of_ok hok
    obtain ⟨htraced', htally', hunreadable', _⟩ := scan_of_ok hok'
    rw [htraced, htraced', htally, htally', hunreadable, hunreadable']
    exact ⟨hsublist, Tally.ofFiles_atMost (hsublist.filterMap _), hsublist.countP_le⟩
  · intro start outcome hok
    obtain ⟨_, _, _, htroubles, hlog⟩ := scan_of_ok hok
    obtain ⟨p, hp⟩ := prepared_of_result_ok hok
    refine ⟨htroubles, hlog, fun _ _ => depthLimit_mem_troublesMet hp, fun hlawful path hbarred => ?_⟩
    refine ⟨count_depthLimit hlawful hp hbarred, fun event hevent hwithin => ?_⟩
    rw [eventsMet_of_directory hp hbarred.1] at hevent
    exact Walk.eq_depthLimit_of_within hlawful hbarred.2 hevent hwithin
  · intro hlawful hdots path hbarred
    obtain ⟨_, directory, entries, entry, hvisited, hlist, hmem, _, rfl⟩ := hbarred
    obtain ⟨names, hlength, hnames⟩ := hvisited.goesOn hlawful hdots
    obtain ⟨_, _, hcomponents⟩ := hnames.join (fs.isPlain_of_list hlawful hdots hlist hmem)
    rw [hcomponents, List.length_append, List.length_append, hlength, List.length_singleton]

/-- With no level below the root, two directories are too deep. The one that is left out causes no warning. -/
theorem walk_sampleView_root :
    Walk.walk sampleView ((Config.ofRoot (.ofString "/r")).withDepth 0) 1 0 (.ofString "/r")
      = [.listed 0 (.ofString "/r"), .file (.ofString "/r/link.c"),
        .trouble (.depthLimit 0 (.ofString "/r/shut")), .trouble (.depthLimit 0 (.ofString "/r/sub"))] := by
  rw [Walk.walk_of_sorted rfl (by decide)]
  rfl

/-- One level below the root is enough. -/
theorem walk_sampleView_level :
    Walk.walk sampleView ((Config.ofRoot (.ofString "/r")).withDepth 1) 2 0 (.ofString "/r")
      = [.listed 0 (.ofString "/r"), .file (.ofString "/r/link.c"),
        .trouble (.directory (.ofString "/r/shut") .permission), .listed 1 (.ofString "/r/sub"),
        .file (.ofString "/r/sub/b.py")] := by
  have hsub : Walk.walk sampleView ((Config.ofRoot (.ofString "/r")).withDepth 1) 1 1 (.ofString "/r/sub")
      = [.listed 1 (.ofString "/r/sub"), .file (.ofString "/r/sub/b.py")] := by
    rw [Walk.walk_of_sorted rfl (by decide)]
    rfl
  rw [Walk.walk_of_sorted rfl (by decide)]
  show [.listed 0 (.ofString "/r"), .file (.ofString "/r/link.c"),
      .trouble (.directory (.ofString "/r/shut") .permission)]
    ++ (Walk.walk sampleView ((Config.ofRoot (.ofString "/r")).withDepth 1) 1 1 (.ofString "/r/sub") ++ []) = _
  rw [hsub]
  rfl

theorem scan_sampleView_root :
    (scan sampleView ((Config.ofRoot (.ofString "/r")).withDepth 0) .zero).result
      = .ok ⟨⟨[("C/C++", ⟨1, ⟨1, 0, 0, 1⟩⟩)]⟩, 0, 2⟩ := by
  show (ScanRun.ofBooks (Books.takeAll sampleView ((Config.ofRoot (.ofString "/r")).withDepth 0)
    ⟨none, .ofString "/r"⟩ (.start .zero)
    (Walk.walk sampleView ((Config.ofRoot (.ofString "/r")).withDepth 0) 1 0 (.ofString "/r")))).result = _
  rw [walk_sampleView_root]
  decide +kernel

/-- Two directories are too deep for the first limit and none for the second, so a third one makes no
    difference. -/
theorem scan_depth_sampleView :
    sampleView.IsLawful ∧ sampleView.OmitsDots ∧
    (∃ outcome outcome', (scan sampleView ((Config.ofRoot (.ofString "/r")).withDepth 0) .zero).result
        = .ok outcome ∧
      (scan sampleView (.ofRoot (.ofString "/r")) .zero).result = .ok outcome' ∧
      outcome.tally.AtMost outcome'.tally ∧ outcome.unreadable ≤ outcome'.unreadable) ∧
    Barred sampleView ((Config.ofRoot (.ofString "/r")).withDepth 0) (.ofString "/r/sub") ∧
    (troublesMet sampleView ((Config.ofRoot (.ofString "/r")).withDepth 0)).count
      (.depthLimit 0 (.ofString "/r/sub")) = 1 ∧
    (Path.ofString "/r/sub").components.length = (Path.ofString "/r").components.length + 1 ∧
    (∀ path, ¬Barred sampleView ((Config.ofRoot (.ofString "/r")).withDepth 1) path) ∧
    scan sampleView (.ofRoot (.ofString "/r")) .zero
      = scan sampleView ((Config.ofRoot (.ofString "/r")).withDepth 1) .zero := by
  obtain ⟨hdeeper, _, hwarned, hlevel, _⟩ :=
    scan_depth sampleView ((Config.ofRoot (.ofString "/r")).withDepth 0)
  obtain ⟨_, _, _, _, hfree⟩ := scan_depth sampleView ((Config.ofRoot (.ofString "/r")).withDepth 1)
  obtain ⟨_, _, hiff, hone⟩ := hwarned .zero _ scan_sampleView_root
  obtain ⟨_, hrows⟩ := hdeeper 100 (Nat.zero_le _)
  have hsub : Barred sampleView ((Config.ofRoot (.ofString "/r")).withDepth 0) (.ofString "/r/sub") := by
    refine ((hiff 0 _).mp ?_).2
    show _ ∈ Walk.troublesOf
      (Walk.walk sampleView ((Config.ofRoot (.ofString "/r")).withDepth 0) 1 0 (.ofString "/r"))
    rw [walk_sampleView_root]
    decide
  have hnone : ∀ path, ¬Barred sampleView ((Config.ofRoot (.ofString "/r")).withDepth 1) path := by
    intro path hbarred
    have hevent := Walk.depthLimit_mem_walk_root.mpr ⟨rfl, hbarred.2⟩
    have hwalk : Event.trouble (.depthLimit 1 path) ∈
        Walk.walk sampleView ((Config.ofRoot (.ofString "/r")).withDepth 1) 2 0 (.ofString "/r") := hevent
    rw [walk_sampleView_level] at hwalk
    simp at hwalk
  obtain ⟨_, htally, hunreadable⟩ := hrows .zero .zero _ _ scan_sampleView_root scan_sampleView
  exact ⟨sampleView_isLawful, sampleView_omitsDots,
    ⟨_, _, scan_sampleView_root, scan_sampleView, htally, hunreadable⟩, hsub,
    (hone sampleView_isLawful _ hsub).1, hlevel sampleView_isLawful sampleView_omitsDots _ hsub, hnone,
    hfree hnone 100 (by decide) .zero⟩

end LineCensus
