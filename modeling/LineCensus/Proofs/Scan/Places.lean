import LineCensus.Proofs.Scan.Visited
import Mathlib.Data.List.Nodup

/-!
# `Proofs.Scan.Places` — where the events of a walk stand

Each event is about a path, and the events of a walk are about its directory and what lies below. Different
entries of a directory have nothing below them in common, so an event tells by its path which entries it came
through: what stands at an entry of a visited directory, or below it, came from the visit of this entry.

## Contents
- `Event.path`, what an event is about.
- `Walk.within_of_mem_walk`: a walk stays within its directory; `Walk.mem_visit_of_below`, for one level, and
  `Walk.mem_visit_of_visited`, for the walk of a root: which visit an event came from.
- `Walk.nodup_walk`: in a lawful view no event occurs twice, but for entries that fail; from it
  `Walk.nodup_filesOf_walk`, for the files.
-/

namespace LineCensus

/-- The path that a trouble is about; an entry that fails has none but that of its directory. -/
def Trouble.path : Trouble → Path
  | .depthLimit _ p => p
  | .directory p _ => p
  | .entry p _ => p
  | .entryKind p _ => p

/-- The path that an event is about. -/
def Event.path : Event → Path
  | .listed _ directory => directory
  | .file path => path
  | .trouble t => t.path

namespace Walk

variable {fs : FileSystem} {config : Config}

/-! ## Events and places -/

/-- **A walk stays within its directory.** -/
theorem within_of_mem_walk (hlawful : fs.IsLawful) {levels depth : Nat} {directory : Path} {event : Event}
    (h : event ∈ walk fs config levels depth directory) : directory.Within event.path := by
  induction levels generalizing depth directory with
  | zero =>
    rw [List.mem_singleton.mp h]
    exact Path.within_refl directory
  | succ levels ih =>
    rcases mem_walk_succ.mp h with ⟨error, _, rfl⟩ | ⟨entries, hlist, rfl | hfails | ⟨entry, hmem, hvisit⟩⟩
    · exact Path.within_refl directory
    · exact Path.within_refl directory
    · obtain ⟨error, rfl⟩ := eq_entry_of_mem_entryTroubles hfails
      exact Path.within_refl directory
    · have hproper : entry.name.IsProper := (hlawful directory entries hlist).2 entry hmem
      have hentry : (directory.join entry.name).Within event.path := by
        rcases mem_visit hvisit with ⟨rfl, _⟩ | ⟨error, rfl⟩ | ⟨_, hwalk⟩
        · exact Path.within_refl _
        · exact Path.within_refl _
        · exact ih hwalk
      exact (hentry.of_join hproper).within hproper

theorem below_of_mem_visit (hlawful : fs.IsLawful) {levels depth : Nat} {directory : Path} {entry : Entry}
    {event : Event} (hproper : entry.name.IsProper)
    (h : event ∈ visit fs config (walk fs config levels depth) directory entry) :
    directory.Below entry.name event.path := by
  rcases mem_visit h with ⟨rfl, _⟩ | ⟨error, rfl⟩ | ⟨_, hwalk⟩
  · exact directory.below_join entry.name
  · exact directory.below_join entry.name
  · exact (within_of_mem_walk hlawful hwalk).of_join hproper

/-- **One level**: what stands at an entry of the directory, or below it, came from the visit of this
    entry. -/
theorem mem_visit_of_below (hlawful : fs.IsLawful) {levels depth : Nat} {directory : Path}
    {entries : List (Except OsError Entry)} {entry : Entry} {event : Event}
    (hlist : fs.list directory = .ok entries) (hmem : .ok entry ∈ entries)
    (h : event ∈ walk fs config (levels + 1) depth directory)
    (hbelow : directory.Below entry.name event.path) :
    event ∈ visit fs config (walk fs config levels (depth + 1)) directory entry := by
  obtain ⟨hnodup, hnames⟩ := hlawful directory entries hlist
  have hproper : entry.name.IsProper := hnames entry hmem
  -- an event about the directory itself has a path that is too short
  have hshort : event.path ≠ directory := by
    intro heq
    exact absurd (heq ▸ hbelow.length_lt hproper) (Nat.lt_irrefl _)
  rcases mem_walk_succ.mp h with ⟨error, hfails, _⟩ | ⟨listed, hlisted, rfl | hfails | ⟨other, hother, hvisit⟩⟩
  · rw [hlist] at hfails
    cases hfails
  · exact absurd rfl hshort
  · obtain ⟨error, rfl⟩ := eq_entry_of_mem_entryTroubles hfails
    exact absurd rfl hshort
  · cases hlist.symm.trans hlisted
    have hname : other.name = entry.name :=
      Path.below_unique (hnames other hother) hproper
        (below_of_mem_visit hlawful (hnames other hother) hvisit) hbelow
    have hread : ∀ {e : Entry}, .ok e ∈ entries → e ∈ entries.filterMap Except.toOption :=
      fun he => List.mem_filterMap.mpr ⟨_, he, rfl⟩
    rw [← List.inj_on_of_nodup_map hnodup (hread hother) (hread hmem) hname]
    exact hvisit

/-- **What stands within a visited directory came from its walk.** -/
theorem mem_walk_of_visited (hlawful : fs.IsLawful) {root : Path} {depth : Nat} {directory : Path}
    {event : Event} (hvisited : Visited fs config root depth directory)
    (hevent : event ∈ walk fs config (config.maxDepth + 1) 0 root)
    (hwithin : directory.Within event.path) :
    event ∈ walk fs config (config.maxDepth + 1 - depth) depth directory := by
  induction hvisited with
  | root => exact hevent
  | @entry depth directory entries listing entry _ hlist hmem hdir hdepth _ ih =>
    have hproper : entry.name.IsProper := (hlawful directory entries hlist).2 entry hmem
    have hbelow := hwithin.of_join hproper
    have habove := ih (hbelow.within hproper)
    rw [show config.maxDepth + 1 - depth = (config.maxDepth + 1 - (depth + 1)) + 1 by omega] at habove
    have hvisit := mem_visit_of_below hlawful hlist hmem habove hbelow
    rw [visit_of_entered hdir] at hvisit
    exact hvisit

/-- **What stands at an entry of a visited directory, or below it, came from the visit of this entry.** -/
theorem mem_visit_of_visited (hlawful : fs.IsLawful) {root : Path} {depth : Nat} {directory : Path}
    {entries : List (Except OsError Entry)} {entry : Entry} {event : Event}
    (hvisited : Visited fs config root depth directory) (hlist : fs.list directory = .ok entries)
    (hmem : .ok entry ∈ entries) (hevent : event ∈ walk fs config (config.maxDepth + 1) 0 root)
    (hwithin : (directory.join entry.name).Within event.path) :
    event ∈ visit fs config (walk fs config (config.maxDepth - depth) (depth + 1)) directory entry := by
  have hproper : entry.name.IsProper := (hlawful directory entries hlist).2 entry hmem
  have hbelow := hwithin.of_join hproper
  have hdepth := (walk_subset_of_visited hvisited).1
  have hwalk := mem_walk_of_visited hlawful hvisited hevent (hbelow.within hproper)
  rw [show config.maxDepth + 1 - depth = (config.maxDepth - depth) + 1 by omega] at hwalk
  exact mem_visit_of_below hlawful hlist hmem hwalk hbelow

/-! ## No event twice -/

/-- Sorting keeps the names distinct. -/
theorem pairwise_sortedEntries (hlawful : fs.IsLawful) {directory : Path}
    {entries : List (Except OsError Entry)} (hlist : fs.list directory = .ok entries) :
    (sortedEntries entries).Pairwise fun a b => a.name ≠ b.name := by
  obtain ⟨hnodup, _⟩ := hlawful directory entries hlist
  have hperm : (sortedEntries entries).Perm (entries.filterMap Except.toOption) :=
    List.mergeSort_perm _ _
  exact List.pairwise_map.mp ((hperm.map Entry.name).nodup_iff.mpr hnodup)

/-- Does the event tell its origin? The trouble of an entry that fails does not say which entry it is. -/
def tellsOrigin : Event → Bool
  | .trouble (.entry _ _) => false
  | _ => true

/-- **No event occurs twice**, but for entries that fail. -/
theorem nodup_walk (hlawful : fs.IsLawful) (levels depth : Nat) (directory : Path) :
    ((walk fs config levels depth directory).filter tellsOrigin).Nodup := by
  induction levels generalizing depth directory with
  | zero => exact List.nodup_singleton _
  | succ levels ih =>
    cases hlist : fs.list directory with
    | error error =>
      simp only [walk, hlist]
      exact List.nodup_singleton _
    | ok entries =>
      have hproper : ∀ entry ∈ sortedEntries entries, entry.name.IsProper := fun entry hentry =>
        (hlawful directory entries hlist).2 entry (mem_sortedEntries.mp hentry)
      have hfails : (entryTroubles directory entries).filter tellsOrigin = [] := by
        refine List.filter_eq_nil_iff.mpr fun event hevent => ?_
        obtain ⟨error, rfl⟩ := eq_entry_of_mem_entryTroubles hevent
        exact Bool.false_ne_true
      have hwalk : (walk fs config (levels + 1) depth directory).filter tellsOrigin
          = .listed depth directory :: (sortedEntries entries).flatMap fun entry =>
              (visit fs config (walk fs config levels (depth + 1)) directory entry).filter tellsOrigin := by
        simp only [walk, hlist, List.cons_append, List.filter_append, hfails, List.nil_append,
          List.filter_flatMap, List.filter_cons_of_pos (show tellsOrigin (.listed depth directory) = true from rfl)]
      rw [hwalk, List.nodup_cons, List.nodup_flatMap]
      refine ⟨?_, ?_, ?_⟩
      · -- the directory itself lies below none of its entries
        intro hagain
        obtain ⟨entry, hentry, hvisit⟩ := List.mem_flatMap.mp hagain
        have hbelow := below_of_mem_visit hlawful (hproper entry hentry) (List.mem_filter.mp hvisit).1
        exact absurd (hbelow.length_lt (hproper entry hentry)) (Nat.lt_irrefl _)
      · -- within one entry: a single event, or a walk of fewer levels
        intro entry _
        by_cases hdir : entry.MayBeEntered config
        · rw [visit_of_entered hdir]
          exact ih (depth + 1) _
        · refine List.Nodup.filter _ ?_
          have hcases := visit_of_not_entered fs (walk fs config levels (depth + 1)) directory hdir
          rcases hcases with hnone | ⟨hone, _⟩ | ⟨error, hone⟩
          · rw [hnone]
            exact List.nodup_nil
          · rw [hone]
            exact List.nodup_singleton _
          · rw [hone]
            exact List.nodup_singleton _
      · -- an event of two entries would lie below both
        refine (pairwise_sortedEntries hlawful hlist).imp_of_mem fun {a b} ha hb hne => ?_
        intro event hevent hevent'
        apply hne
        exact Path.below_unique (hproper a ha) (hproper b hb)
          (below_of_mem_visit hlawful (hproper a ha) (List.mem_filter.mp hevent).1)
          (below_of_mem_visit hlawful (hproper b hb) (List.mem_filter.mp hevent').1)

/-- **No file is met twice.** -/
theorem nodup_filesOf_walk (hlawful : fs.IsLawful) (levels depth : Nat) (directory : Path) :
    (filesOf (walk fs config levels depth directory)).Nodup := by
  have hfiles : filesOf ((walk fs config levels depth directory).filter tellsOrigin)
      = filesOf (walk fs config levels depth directory) := by
    rw [filesOf, List.filterMap_filter]
    refine List.filterMap_congr fun event _ => ?_
    cases event with
    | listed depth directory => rfl
    | file path => rfl
    | trouble t => exact ite_self none
  rw [← hfiles]
  refine (nodup_walk hlawful levels depth directory).filterMap fun event event' path hpath hpath' => ?_
  rw [eq_file_of_file? hpath, eq_file_of_file? hpath']

end Walk

end LineCensus
