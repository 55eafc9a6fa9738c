import LineCensus.Proofs.FileSystem.Lawful
import LineCensus.Scan
import Mathlib.Data.List.Nodup

/-!
# `Proofs.Scan.Visited` — the files that a walk comes across

A walk recurses on the levels that are left and lists events. Which files stand among them can be said
without it: a scan visits its root and, level by level, the directories that it may enter, and comes across
the files of every directory that it visits.

## Contents
- `Visited` and `Meets`, the directories and the files, by rules.
- `mem_visit` and `mem_walk_succ`, one entry and one level of a walk, for all events; from these
  `walk_subset_of_visited`.
- `mem_filesOf_walk`, one level of a walk for its files; from it `meets_of_mem_filesOf_walk` (a walk strays
  nowhere) and `filesOf_walk_subset` (a walk leaves nothing out), joined in `mem_filesOf_walk_root`.
-/

namespace LineCensus

/-! ## Directories and files, by rules -/

/-- The entry is a regular file of the directory, or a link that leads to one. -/
def Entry.LeadsToFile (fs : FileSystem) (directory : Path) (entry : Entry) : Prop :=
  entry.kind = .ok .file ∨
    entry.kind = .ok .link ∧ fs.kind (directory.join entry.name) = .ok .file

/-- The entry is a directory itself, no link to one, and the settings do not leave it out. -/
def Entry.MayBeEntered (config : Config) (entry : Entry) : Prop :=
  entry.kind = .ok .directory ∧ config.nonRecursive = false ∧ config.excludes entry.name = false

/-- The directories that a scan of `root` visits, with their depth. The root counts whatever its name; any
    other one stands in a visited directory, may be entered, lies within the depth limit and is listed. -/
inductive Visited (fs : FileSystem) (config : Config) (root : Path) : Nat → Path → Prop where
  | root : Visited fs config root 0 root
  | entry {depth : Nat} {directory : Path} {entries listing : List (Except OsError Entry)}
      {entry : Entry} :
      Visited fs config root depth directory →
      fs.list directory = .ok entries → .ok entry ∈ entries → entry.MayBeEntered config →
      depth + 1 ≤ config.maxDepth → fs.list (directory.join entry.name) = .ok listing →
      Visited fs config root (depth + 1) (directory.join entry.name)

/-- A scan of `root` meets the file: it is a file, or leads to one, directly in a visited directory. -/
def Meets (fs : FileSystem) (config : Config) (root path : Path) : Prop :=
  ∃ depth directory entries entry, Visited fs config root depth directory ∧
    fs.list directory = .ok entries ∧ .ok entry ∈ entries ∧
    entry.LeadsToFile fs directory ∧ path = directory.join entry.name

namespace Walk

variable {fs : FileSystem} {config : Config}

/-! ## Listings -/

theorem mem_sortedEntries {entries : List (Except OsError Entry)} {entry : Entry} :
    entry ∈ sortedEntries entries ↔ .ok entry ∈ entries := by
  unfold sortedEntries
  rw [List.mem_mergeSort, List.mem_filterMap]
  constructor
  · rintro ⟨e, he, hentry⟩
    cases e with
    | ok found => cases hentry; exact he
    | error error => cases hentry
  · intro h
    exact ⟨.ok entry, h, rfl⟩

/-- Entries that were all read are sorted as they are. -/
theorem sortedEntries_map_ok (entries : List Entry) :
    sortedEntries (entries.map .ok) = entries.mergeSort fun a b => decide (a.name ≤ b.name) := by
  unfold sortedEntries
  rw [List.filterMap_map]
  exact congrArg (List.mergeSort · _) List.filterMap_some

theorem entryTroubles_map_ok (directory : Path) (entries : List Entry) :
    entryTroubles directory (entries.map .ok) = [] := by
  refine List.filterMap_eq_nil_iff.mpr fun e he => ?_
  obtain ⟨entry, _, rfl⟩ := List.mem_map.mp he
  rfl

theorem eq_entry_of_mem_entryTroubles {directory : Path} {entries : List (Except OsError Entry)}
    {event : Event} (h : event ∈ entryTroubles directory entries) :
    ∃ error, event = .trouble (.entry directory error) := by
  obtain ⟨e, _, he⟩ := List.mem_filterMap.mp h
  cases e with
  | ok entry => cases he
  | error error => cases he; exact ⟨error, rfl⟩

/-! ## One entry -/

theorem visit_of_entered {enter : Path → List Event} {directory : Path} {entry : Entry}
    (h : entry.MayBeEntered config) :
    visit fs config enter directory entry = enter (directory.join entry.name) := by
  obtain ⟨hkind, hrec, hexcluded⟩ := h
  simp only [visit, hkind, hrec, hexcluded, Bool.or_self, Bool.false_eq_true, if_false]

/-- A visit that enters nothing comes to one event about the entry, or to none. -/
theorem visit_of_not_entered (fs : FileSystem) (enter : Path → List Event) (directory : Path) {entry : Entry}
    (h : ¬entry.MayBeEntered config) :
    visit fs config enter directory entry = [] ∨
    (visit fs config enter directory entry = [.file (directory.join entry.name)] ∧
      entry.LeadsToFile fs directory) ∨
    (∃ error, visit fs config enter directory entry
      = [.trouble (.entryKind (directory.join entry.name) error)]) := by
  unfold visit
  cases hkind : entry.kind with
  | error error => exact Or.inr (Or.inr ⟨error, rfl⟩)
  | ok kind =>
    cases kind with
    | file => exact Or.inr (Or.inl ⟨rfl, Or.inl hkind⟩)
    | directory =>
      by_cases hleft : (config.nonRecursive || config.excludes entry.name) = true
      · exact Or.inl (if_pos hleft)
      · rw [Bool.not_eq_true, Bool.or_eq_false_iff] at hleft
        exact absurd ⟨hkind, hleft⟩ h
    | link =>
      by_cases hleads : fs.isFile (directory.join entry.name) = true
      · refine Or.inr (Or.inl ⟨if_pos hleads, Or.inr ⟨hkind, ?_⟩⟩)
        unfold FileSystem.isFile at hleads
        split at hleads
        · assumption
        · cases hleads
      · exact Or.inl (if_neg hleads)
    | other => exact Or.inl rfl

/-- **All that a visit of one entry can come to**: an event about the entry itself, or one of the walk
    below. -/
theorem mem_visit {enter : Path → List Event} {directory : Path} {entry : Entry} {event : Event}
    (h : event ∈ visit fs config enter directory entry) :
    (event = .file (directory.join entry.name) ∧ entry.LeadsToFile fs directory) ∨
    (∃ error, event = .trouble (.entryKind (directory.join entry.name) error)) ∨
    (entry.MayBeEntered config ∧ event ∈ enter (directory.join entry.name)) := by
  by_cases hdir : entry.MayBeEntered config
  · rw [visit_of_entered hdir] at h
    exact Or.inr (Or.inr ⟨hdir, h⟩)
  · rcases visit_of_not_entered fs enter directory hdir with hnone | ⟨hone, hfile⟩ | ⟨error, hone⟩
    · rw [hnone] at h
      cases h
    · rw [hone] at h
      exact Or.inl ⟨List.mem_singleton.mp h, hfile⟩
    · rw [hone] at h
      exact Or.inr (Or.inl ⟨error, List.mem_singleton.mp h⟩)

/-! ## One level -/

/-- **One level of a walk**: the directory fails, or it is listed, and then there are the entries that fail
    and what the visits of the others come to. -/
theorem mem_walk_succ {levels depth : Nat} {directory : Path} {event : Event} :
    event ∈ walk fs config (levels + 1) depth directory ↔
      (∃ error, fs.list directory = .error error ∧ event = .trouble (.directory directory error)) ∨
      (∃ entries, fs.list directory = .ok entries ∧
        (event = .listed depth directory ∨ event ∈ entryTroubles directory entries ∨
          ∃ entry, .ok entry ∈ entries ∧
            event ∈ visit fs config (walk fs config levels (depth + 1)) directory entry)) := by
  cases hlist : fs.list directory with
  | error error => simp [walk, hlist]
  | ok entries =>
    simp only [walk, hlist, List.mem_append, List.mem_cons, List.mem_flatMap, mem_sortedEntries]
    simp [or_assoc]

/-- The walk of a directory that may be entered is part of the walk above it. -/
theorem mem_walk_of_entered {levels depth : Nat} {directory : Path} {entries : List (Except OsError Entry)}
    {entry : Entry} {event : Event} (hlist : fs.list directory = .ok entries) (hmem : .ok entry ∈ entries)
    (hdir : entry.MayBeEntered config)
    (h : event ∈ walk fs config levels (depth + 1) (directory.join entry.name)) :
    event ∈ walk fs config (levels + 1) depth directory := by
  have hvisit : event ∈ visit fs config (walk fs config levels (depth + 1)) directory entry := by
    rw [visit_of_entered hdir]
    exact h
  exact mem_walk_succ.mpr (Or.inr ⟨entries, hlist, Or.inr (Or.inr ⟨entry, hmem, hvisit⟩)⟩)

/-- **The walk of a visited directory is part of the walk of the root.** -/
theorem walk_subset_of_visited {root : Path} {depth : Nat} {directory : Path}
    (h : Visited fs config root depth directory) :
    depth ≤ config.maxDepth ∧ walk fs config (config.maxDepth + 1 - depth) depth directory
      ⊆ walk fs config (config.maxDepth + 1) 0 root := by
  induction h with
  | root => exact ⟨Nat.zero_le _, List.Subset.refl _⟩
  | @entry depth directory entries listing entry _ hlist hmem hdir hdepth _ ih =>
    refine ⟨hdepth, fun event hevent => ih.2 ?_⟩
    -- one level of the parent's walk is spent on this directory
    rw [show config.maxDepth + 1 - depth = (config.maxDepth + 1 - (depth + 1)) + 1 by omega]
    exact mem_walk_of_entered hlist hmem hdir hevent

/-! ## The files of a list of events -/

/-- The file of an event, if it is one. -/
def file? : Event → Option Path
  | .file path => some path
  | .listed _ _ => none
  | .trouble _ => none

theorem eq_file_of_file? {event : Event} {path : Path} (h : file? event = some path) : event = .file path := by
  cases event with
  | listed depth directory => cases h
  | file path => cases h; rfl
  | trouble t => cases h

/-- The files that stand among the events, in order. -/
def filesOf (events : List Event) : List Path := events.filterMap file?

theorem filesOf_entryTroubles (directory : Path) (entries : List (Except OsError Entry)) :
    filesOf (entryTroubles directory entries) = [] := by
  induction entries with
  | nil => rfl
  | cons e rest ih =>
    cases e with
    | ok entry => exact ih
    | error error => exact ih

/-! ## The files of one entry -/

theorem filesOf_visit_file {enter : Path → List Event} {directory : Path} {entry : Entry}
    (h : entry.LeadsToFile fs directory) :
    filesOf (visit fs config enter directory entry) = [directory.join entry.name] := by
  rcases h with hfile | ⟨hlink, hleads⟩
  · simp only [visit, hfile]; rfl
  · simp only [visit, hlink, FileSystem.isFile, hleads, if_true]; rfl

theorem filesOf_visit_directory {enter : Path → List Event} {directory : Path} {entry : Entry}
    (h : entry.MayBeEntered config) :
    filesOf (visit fs config enter directory entry)
      = filesOf (enter (directory.join entry.name)) := by
  rw [visit_of_entered h]

/-- Every other entry is passed over: what cannot be told, what the settings leave out, links to anything
    but a file, and nodes of another kind. -/
theorem filesOf_visit_other {enter : Path → List Event} {directory : Path} {entry : Entry}
    (hfile : ¬entry.LeadsToFile fs directory) (hdir : ¬entry.MayBeEntered config) :
    filesOf (visit fs config enter directory entry) = [] := by
  rcases visit_of_not_entered fs enter directory hdir with hnone | ⟨_, hleads⟩ | ⟨error, hone⟩
  · rw [hnone]
    rfl
  · exact absurd hleads hfile
  · rw [hone]
    rfl

/-! ## The files of one level -/

theorem filesOf_walk_error {levels depth : Nat} {directory : Path} {error : OsError}
    (h : fs.list directory = .error error) :
    filesOf (walk fs config (levels + 1) depth directory) = [] := by
  simp only [walk, h]
  rfl

theorem filesOf_walk_ok {levels depth : Nat} {directory : Path}
    {entries : List (Except OsError Entry)} (h : fs.list directory = .ok entries) :
    filesOf (walk fs config (levels + 1) depth directory)
      = (sortedEntries entries).flatMap fun entry =>
          filesOf (visit fs config (walk fs config levels (depth + 1)) directory entry) := by
  simp only [walk, h]
  rw [filesOf, List.filterMap_append, List.filterMap_cons, List.filterMap_flatMap]
  rw [show (entryTroubles directory entries).filterMap file? = [] from
    filesOf_entryTroubles directory entries]
  rfl

/-- **One level of a walk**: the files of the listed entries, and those of the directories among them. -/
theorem mem_filesOf_walk {levels depth : Nat} {directory path : Path} :
    path ∈ filesOf (walk fs config (levels + 1) depth directory) ↔
      ∃ entries entry, fs.list directory = .ok entries ∧ .ok entry ∈ entries ∧
        (entry.LeadsToFile fs directory ∧ path = directory.join entry.name ∨
          entry.MayBeEntered config ∧
            path ∈ filesOf (walk fs config levels (depth + 1) (directory.join entry.name))) := by
  cases hlist : fs.list directory with
  | error error => simp [filesOf_walk_error hlist]
  | ok entries =>
    rw [filesOf_walk_ok hlist, List.mem_flatMap]
    constructor
    · rintro ⟨entry, hmem, hpath⟩
      -- an entry leads to a file, or may be entered, or comes to nothing
      refine ⟨entries, entry, rfl, mem_sortedEntries.mp hmem, ?_⟩
      by_cases hfile : entry.LeadsToFile fs directory
      · rw [filesOf_visit_file hfile] at hpath
        exact Or.inl ⟨hfile, List.mem_singleton.mp hpath⟩
      · by_cases hdir : entry.MayBeEntered config
        · rw [filesOf_visit_directory hdir] at hpath
          exact Or.inr ⟨hdir, hpath⟩
        · rw [filesOf_visit_other hfile hdir] at hpath
          cases hpath
    · rintro ⟨listed, entry, hlisted, hmem, hpath⟩
      cases hlisted
      refine ⟨entry, mem_sortedEntries.mpr hmem, ?_⟩
      rcases hpath with ⟨hfile, rfl⟩ | ⟨hdir, hbelow⟩
      · rw [filesOf_visit_file hfile]
        exact List.mem_singleton_self _
      · rw [filesOf_visit_directory hdir]
        exact hbelow

/-! ## The whole walk -/

/-- A directory in which a walk meets a file is within the limit, and it is listed. -/
theorem exists_of_mem_filesOf_walk {levels depth : Nat} {directory path : Path}
    (h : path ∈ filesOf (walk fs config levels depth directory)) :
    0 < levels ∧ ∃ entries, fs.list directory = .ok entries := by
  cases levels with
  | zero => cases h
  | succ levels =>
    obtain ⟨entries, _, hlist, _⟩ := mem_filesOf_walk.mp h
    exact ⟨Nat.succ_pos levels, entries, hlist⟩

/-- **A walk strays nowhere.** From a visited directory on, it meets only files of visited directories. -/
theorem meets_of_mem_filesOf_walk {root path : Path} {levels depth : Nat} {directory : Path}
    (hlevels : depth + levels = config.maxDepth + 1) (hvisited : Visited fs config root depth directory)
    (h : path ∈ filesOf (walk fs config levels depth directory)) : Meets fs config root path := by
  -- levels and depth add up to the limit, so a level that is left is a depth within it
  induction levels generalizing depth directory with
  | zero => cases h
  | succ levels ih =>
    obtain ⟨entries, entry, hlist, hmem, hcase⟩ := mem_filesOf_walk.mp h
    rcases hcase with ⟨hfile, rfl⟩ | ⟨hdir, hbelow⟩
    · exact ⟨depth, directory, entries, entry, hvisited, hlist, hmem, hfile, rfl⟩
    · obtain ⟨hpos, listing, hlisting⟩ := exists_of_mem_filesOf_walk hbelow
      exact ih (by omega) (.entry hvisited hlist hmem hdir (by omega) hlisting) hbelow

/-- **A walk leaves nothing out.** The walk of a visited directory is part of the walk of the root. -/
theorem filesOf_walk_subset {root : Path} {depth : Nat} {directory : Path}
    (h : Visited fs config root depth directory) :
    depth ≤ config.maxDepth ∧
    filesOf (walk fs config (config.maxDepth + 1 - depth) depth directory)
      ⊆ filesOf (walk fs config (config.maxDepth + 1) 0 root) := by
  obtain ⟨hdepth, hsubset⟩ := walk_subset_of_visited h
  exact ⟨hdepth, List.filterMap_subset file? hsubset⟩

/-- **The walk of a root meets the files that the rules say, and no others.** -/
theorem mem_filesOf_walk_root {root path : Path} :
    path ∈ filesOf (walk fs config (config.maxDepth + 1) 0 root) ↔ Meets fs config root path := by
  constructor
  · exact meets_of_mem_filesOf_walk (Nat.zero_add _) .root
  · rintro ⟨depth, directory, entries, entry, hvisited, hlist, hmem, hfile, rfl⟩
    obtain ⟨hdepth, hsubset⟩ := filesOf_walk_subset hvisited
    apply hsubset
    rw [show config.maxDepth + 1 - depth = (config.maxDepth - depth) + 1 by omega]
    exact mem_filesOf_walk.mpr ⟨entries, entry, hlist, hmem, Or.inl ⟨hfile, rfl⟩⟩

end Walk

end LineCensus
