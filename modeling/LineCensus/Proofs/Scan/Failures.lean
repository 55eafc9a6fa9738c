import LineCensus.Proofs.Scan.Limit
import LineCensus.Proofs.Scan.Narrowing
import LineCensus.Proofs.Scan.Termination

/-!
# `Proofs.Scan.Failures` — what goes wrong on a walk, and what is made of it

Below the root a walk makes four requests of the operating system: to list a directory, to read an entry, to tell
what the entry is, and to look up what a link leads to. Any of them may fail, and a directory may lie too deep.
Here these incidents are listed in their own right, beside the events of the walk. All of them are counted and
logged but one: a link whose target cannot be looked up is passed over in silence, as if it were not there.

## Contents
- `Incident` and `Walk.incidents`, the incidents of a walk; `Occurs`, the same by rules, with
  `mem_incidents_root`.
- `Walk.troublesOf_walk`: the troubles of a walk are its incidents, less the links that are lost.
- `FileSystem.withoutLostLinks`, with `Walk.walk_withoutLostLinks`.
- `scan_incidents`, and `not_troubles_eq_incidents`, a scan that counts too few.
-/

namespace LineCensus

/-- What goes wrong below the root. -/
inductive Incident where
  /-- A directory is too deep or cannot be listed, or an entry cannot be read or told. -/
  | trouble (t : Trouble)
  /-- It cannot be looked up what a link leads to. -/
  | lostLink (link : Path) (error : OsError)
  deriving DecidableEq, Repr

namespace Incident

/-- The trouble that a scan makes of an incident, if it makes one. -/
def trouble? : Incident → Option Trouble
  | trouble t => some t
  | lostLink _ _ => none

/-- Is it a link that is lost? -/
def isLostLink : Incident → Bool
  | trouble _ => false
  | lostLink _ _ => true

end Incident

/-- Why it cannot be looked up what a path leads to, if it cannot. -/
def FileSystem.lookupError? (fs : FileSystem) (p : Path) : Option OsError :=
  match fs.kind p with
  | .error error => some error
  | .ok _ => none

theorem FileSystem.lookupError?_eq_some {fs : FileSystem} {p : Path} {error : OsError} :
    fs.lookupError? p = some error ↔ fs.kind p = .error error := by
  unfold lookupError?
  cases fs.kind p with
  | error found => simp
  | ok kind => simp

namespace Walk

/-! ## The incidents of a walk -/

/-- The entries of a directory that cannot be read. -/
def failedEntries (directory : Path) (entries : List (Except OsError Entry)) : List Incident :=
  entries.filterMap fun e =>
    match e with
    | .ok _ => none
    | .error error => some (.trouble (.entry directory error))

/-- What goes wrong with one entry, or below it. -/
def incidentsOfEntry (fs : FileSystem) (config : Config) (enter : Path → List Incident) (directory : Path)
    (entry : Entry) : List Incident :=
  let path := directory.join entry.name
  match entry.kind with
  | .error error => [.trouble (.entryKind path error)]
  | .ok .directory => if config.nonRecursive || config.excludes entry.name then [] else enter path
  | .ok .link => ((fs.lookupError? path).map (Incident.lostLink path)).toList
  | .ok .file => []
  | .ok .other => []

/-- What goes wrong with a directory, or below it, with a number of levels left. -/
def incidents (fs : FileSystem) (config : Config) : Nat → Path → List Incident
  | 0, directory => [.trouble (.depthLimit config.maxDepth directory)]
  | levels + 1, directory =>
    match fs.list directory with
    | .error error => [.trouble (.directory directory error)]
    | .ok entries =>
      failedEntries directory entries
        ++ (sortedEntries entries).flatMap (incidentsOfEntry fs config (incidents fs config levels) directory)

variable {fs : FileSystem} {config : Config}

/-! ## What is told of them -/

theorem troublesOf_entryTroubles (directory : Path) (entries : List (Except OsError Entry)) :
    troublesOf (entryTroubles directory entries)
      = (failedEntries directory entries).filterMap Incident.trouble? := by
  unfold troublesOf entryTroubles failedEntries
  rw [List.filterMap_filterMap, List.filterMap_filterMap]
  refine List.filterMap_congr fun e _ => ?_
  cases e with
  | ok entry => rfl
  | error error => rfl

/-- One entry: a link that is lost is told by no event. -/
theorem troublesOf_visit {enter : Path → List Event} {enter' : Path → List Incident}
    (henter : ∀ p, troublesOf (enter p) = (enter' p).filterMap Incident.trouble?) (directory : Path)
    (entry : Entry) :
    troublesOf (visit fs config enter directory entry)
      = (incidentsOfEntry fs config enter' directory entry).filterMap Incident.trouble? := by
  unfold visit incidentsOfEntry
  cases entry.kind with
  | error error => rfl
  | ok kind =>
    cases kind with
    | file => rfl
    | directory =>
      by_cases hleft : (config.nonRecursive || config.excludes entry.name) = true
      · simp only [if_pos hleft]
        rfl
      · simp only [if_neg hleft]
        exact henter _
    | link =>
      -- no trouble is made of a link, whatever it leads to, and nothing is told of one that is lost
      show troublesOf (if fs.isFile (directory.join entry.name) then [.file (directory.join entry.name)] else [])
        = ((fs.lookupError? (directory.join entry.name)).map
            (Incident.lostLink (directory.join entry.name))).toList.filterMap Incident.trouble?
      trans []
      · split <;> rfl
      · cases fs.lookupError? (directory.join entry.name) <;> rfl
    | other => rfl

/-- **The troubles of a walk** are its incidents, in their order, less the links that are lost. -/
theorem troublesOf_walk (levels depth : Nat) (directory : Path) :
    troublesOf (walk fs config levels depth directory)
      = (incidents fs config levels directory).filterMap Incident.trouble? := by
  induction levels generalizing depth directory with
  | zero => rfl
  | succ levels ih =>
    cases hlist : fs.list directory with
    | error error =>
      simp only [walk, incidents, hlist]
      rfl
    | ok entries =>
      have hvisit : ∀ entry, troublesOf (visit fs config (walk fs config levels (depth + 1)) directory entry)
          = (incidentsOfEntry fs config (incidents fs config levels) directory entry).filterMap
              Incident.trouble? :=
        troublesOf_visit (ih (depth + 1)) directory
      simp only [walk, incidents, hlist, List.filterMap_append, List.filterMap_flatMap,
        ← troublesOf_entryTroubles, ← hvisit]
      rw [troublesOf, List.cons_append, List.filterMap_cons_none rfl, List.filterMap_append,
        List.filterMap_flatMap]
      rfl

end Walk

/-! ## The incidents by rules -/

/-- What goes wrong in a scan of `root`: a directory that is entered is too deep, or else a request fails in it. -/
inductive Occurs (fs : FileSystem) (config : Config) (root : Path) : Incident → Prop where
  | depthLimit {depth : Nat} {directory : Path} :
      Entered fs config root depth directory → config.maxDepth < depth →
      Occurs fs config root (.trouble (.depthLimit config.maxDepth directory))
  | directory {depth : Nat} {directory : Path} {error : OsError} :
      Entered fs config root depth directory → depth ≤ config.maxDepth →
      fs.list directory = .error error →
      Occurs fs config root (.trouble (.directory directory error))
  | entry {depth : Nat} {directory : Path} {entries : List (Except OsError Entry)} {error : OsError} :
      Entered fs config root depth directory → depth ≤ config.maxDepth →
      fs.list directory = .ok entries → .error error ∈ entries →
      Occurs fs config root (.trouble (.entry directory error))
  | entryKind {depth : Nat} {directory : Path} {entries : List (Except OsError Entry)} {entry : Entry}
      {error : OsError} :
      Entered fs config root depth directory → depth ≤ config.maxDepth →
      fs.list directory = .ok entries → .ok entry ∈ entries → entry.kind = .error error →
      Occurs fs config root (.trouble (.entryKind (directory.join entry.name) error))
  | lostLink {depth : Nat} {directory : Path} {entries : List (Except OsError Entry)} {entry : Entry}
      {error : OsError} :
      Entered fs config root depth directory → depth ≤ config.maxDepth →
      fs.list directory = .ok entries → .ok entry ∈ entries → entry.kind = .ok .link →
      fs.kind (directory.join entry.name) = .error error →
      Occurs fs config root (.lostLink (directory.join entry.name) error)

namespace Walk

variable {fs : FileSystem} {config : Config} {root : Path}

/-- All that can go wrong with one entry. -/
theorem mem_incidentsOfEntry {enter : Path → List Incident} {directory : Path} {entry : Entry}
    {incident : Incident} :
    incident ∈ incidentsOfEntry fs config enter directory entry ↔
      (∃ error, entry.kind = .error error ∧
        incident = .trouble (.entryKind (directory.join entry.name) error)) ∨
      (entry.MayBeEntered config ∧ incident ∈ enter (directory.join entry.name)) ∨
      (∃ error, entry.kind = .ok .link ∧ fs.kind (directory.join entry.name) = .error error ∧
        incident = .lostLink (directory.join entry.name) error) := by
  unfold incidentsOfEntry Entry.MayBeEntered
  cases entry.kind with
  | error error => simp
  | ok kind =>
    cases kind with
    | file => simp
    | directory => cases config.nonRecursive <;> cases config.excludes entry.name <;> simp
    | link => simp [FileSystem.lookupError?_eq_some, @eq_comm _ incident]
    | other => simp

theorem mem_failedEntries {directory : Path} {entries : List (Except OsError Entry)} {incident : Incident} :
    incident ∈ failedEntries directory entries ↔
      ∃ error, .error error ∈ entries ∧ incident = .trouble (.entry directory error) := by
  unfold failedEntries
  rw [List.mem_filterMap]
  constructor
  · rintro ⟨e, hmem, he⟩
    cases e with
    | ok entry => cases he
    | error error => exact ⟨error, hmem, (Option.some.inj he).symm⟩
  · rintro ⟨error, hmem, rfl⟩
    exact ⟨.error error, hmem, rfl⟩

/-- All that can go wrong with a directory that is not too deep. -/
theorem mem_incidents_succ {levels : Nat} {directory : Path} {incident : Incident} :
    incident ∈ incidents fs config (levels + 1) directory ↔
      (∃ error, fs.list directory = .error error ∧ incident = .trouble (.directory directory error)) ∨
      (∃ entries error, fs.list directory = .ok entries ∧ .error error ∈ entries ∧
        incident = .trouble (.entry directory error)) ∨
      (∃ entries entry, fs.list directory = .ok entries ∧ .ok entry ∈ entries ∧
        incident ∈ incidentsOfEntry fs config (incidents fs config levels) directory entry) := by
  cases hlist : fs.list directory with
  | error error => simp [incidents, hlist]
  | ok entries =>
    simp only [incidents, hlist, List.mem_append, mem_failedEntries, List.mem_flatMap, mem_sortedEntries]
    simp

/-- A walk meets what the rules say, and nothing else. -/
theorem occurs_of_mem_incidents {levels depth : Nat} {directory : Path} {incident : Incident}
    (hlevels : depth + levels = config.maxDepth + 1) (hentered : Entered fs config root depth directory)
    (h : incident ∈ incidents fs config levels directory) : Occurs fs config root incident := by
  induction levels generalizing depth directory with
  | zero =>
    rw [List.mem_singleton.mp h]
    exact .depthLimit hentered (by omega)
  | succ levels ih =>
    have hdepth : depth ≤ config.maxDepth := by omega
    rcases mem_incidents_succ.mp h with ⟨error, hlist, rfl⟩ | ⟨entries, error, hlist, hmem, rfl⟩ |
      ⟨entries, entry, hlist, hmem, hentry⟩
    · exact .directory hentered hdepth hlist
    · exact .entry hentered hdepth hlist hmem
    · rcases mem_incidentsOfEntry.mp hentry with ⟨error, hkind, rfl⟩ | ⟨hdir, hbelow⟩ |
        ⟨error, hkind, htarget, rfl⟩
      · exact .entryKind hentered hdepth hlist hmem hkind
      · exact ih (by omega) (.entry hentered hdepth hlist hmem hdir) hbelow
      · exact .lostLink hentered hdepth hlist hmem hkind htarget

/-- What goes wrong in a directory that is entered goes wrong on the walk of the root. -/
theorem incidents_subset_of_entered {depth : Nat} {directory : Path}
    (h : Entered fs config root depth directory) :
    incidents fs config (config.maxDepth + 1 - depth) directory
      ⊆ incidents fs config (config.maxDepth + 1) root := by
  induction h with
  | root => exact List.Subset.refl _
  | @entry depth directory entries entry _ hdepth hlist hmem hdir ih =>
    intro incident hincident
    apply ih
    -- one level of the parent's walk is spent on this directory
    rw [show config.maxDepth + 1 - depth = (config.maxDepth + 1 - (depth + 1)) + 1 by omega]
    apply mem_incidents_succ.mpr
    exact Or.inr (Or.inr ⟨entries, entry, hlist, hmem,
      mem_incidentsOfEntry.mpr (Or.inr (Or.inl ⟨hdir, hincident⟩))⟩)

/-- **The incidents of a walk, by rules.** -/
theorem mem_incidents_root {incident : Incident} :
    incident ∈ incidents fs config (config.maxDepth + 1) root ↔ Occurs fs config root incident := by
  -- what goes wrong in a directory that is not too deep, one level down
  have hlevel : ∀ {depth directory}, Entered fs config root depth directory → depth ≤ config.maxDepth →
      ∀ incident ∈ incidents fs config (config.maxDepth - depth + 1) directory,
        incident ∈ incidents fs config (config.maxDepth + 1) root := by
    intro depth directory hentered hdepth incident hincident
    apply incidents_subset_of_entered hentered
    rw [Nat.succ_sub hdepth]
    exact hincident
  constructor
  · exact occurs_of_mem_incidents (Nat.zero_add _) .root
  · intro h
    cases h with
    | @depthLimit depth directory hentered hdeep =>
      apply incidents_subset_of_entered hentered
      rw [Nat.sub_eq_zero_of_le hdeep]
      exact List.mem_singleton_self _
    | directory hentered hdepth hlist =>
      exact hlevel hentered hdepth _ (mem_incidents_succ.mpr (Or.inl ⟨_, hlist, rfl⟩))
    | entry hentered hdepth hlist hmem =>
      exact hlevel hentered hdepth _ (mem_incidents_succ.mpr (Or.inr (Or.inl ⟨_, _, hlist, hmem, rfl⟩)))
    | entryKind hentered hdepth hlist hmem hkind =>
      refine hlevel hentered hdepth _ (mem_incidents_succ.mpr (Or.inr (Or.inr ⟨_, _, hlist, hmem, ?_⟩)))
      exact mem_incidentsOfEntry.mpr (Or.inl ⟨_, hkind, rfl⟩)
    | lostLink hentered hdepth hlist hmem hkind htarget =>
      refine hlevel hentered hdepth _ (mem_incidents_succ.mpr (Or.inr (Or.inr ⟨_, _, hlist, hmem, ?_⟩)))
      exact mem_incidentsOfEntry.mpr (Or.inr (Or.inr ⟨_, hkind, htarget, rfl⟩))

end Walk

/-! ## A lost link leaves no trace -/

/-- Is the entry a link that is lost? -/
def Entry.isLost (fs : FileSystem) (directory : Path) (entry : Entry) : Bool :=
  match entry.kind with
  | .ok .link => (fs.lookupError? (directory.join entry.name)).isSome
  | _ => false

/-- The view without the links that are lost. -/
def FileSystem.withoutLostLinks (fs : FileSystem) : FileSystem :=
  fs.keeping fun directory entry => !entry.isLost fs directory

section

variable {fs : FileSystem} {config : Config} {start : Activity} {outcome : Outcome}

theorem FileSystem.isFile_of_lookupError? {p : Path} (h : (fs.lookupError? p).isSome = true) :
    fs.isFile p = false := by
  obtain ⟨error, herror⟩ := Option.isSome_iff_exists.mp h
  unfold isFile
  rw [lookupError?_eq_some.mp herror]

/-- **The walk is the same without the links that are lost.** -/
theorem Walk.walk_withoutLostLinks (levels depth : Nat) (directory : Path) :
    walk fs.withoutLostLinks config levels depth directory = walk fs config levels depth directory := by
  have hall : ∀ events : List Event, events.filter (fun _ => true) = events :=
    fun events => List.filter_eq_self.mpr fun _ _ => rfl
  rw [← hall (walk fs config levels depth directory)]
  refine (filter_walk (fun _ _ => rfl) (fun _ => rfl) rfl ?_).symm
  intro enter enter' henter directory entry
  rw [hall]
  have hsame : ∀ p, enter p = enter' p := fun p => (hall (enter p)).symm.trans (henter p)
  rw [funext hsame]
  by_cases hlost : entry.isLost fs directory = true
  · rw [if_neg (by simp [hlost])]
    unfold Entry.isLost at hlost
    split at hlost
    · next hkind =>
      simp only [visit, hkind, FileSystem.isFile_of_lookupError? hlost, Bool.false_eq_true, if_false]
    · cases hlost
  · rw [if_pos (by simpa using hlost)]
    rfl

/-- **A link that is lost leaves no trace**: the scan is the one of the view without it. -/
theorem scan_withoutLostLinks (fs : FileSystem) (config : Config) (start : Activity) :
    scan fs.withoutLostLinks config start = scan fs config start := by
  have hprepare : prepare fs.withoutLostLinks config = prepare fs config := rfl
  refine scan_congr_walk hprepare rfl rfl ?_ ?_ start
  · intro p _ _
    exact Walk.walk_withoutLostLinks _ _ _
  · intro path _
    rfl

/-! ## A whole scan -/

/-- The incidents that a scan meets if nothing stops it, in order. Only a root that is a directory has any. -/
def incidentsMet (fs : FileSystem) (config : Config) : List Incident :=
  match fs.kind config.root with
  | .ok .directory => Walk.incidents fs config (config.maxDepth + 1) (fs.walkRoot config.root)
  | _ => []

theorem mem_incidentsMet {incident : Incident} :
    incident ∈ incidentsMet fs config ↔
      fs.kind config.root = .ok .directory ∧ Occurs fs config (fs.walkRoot config.root) incident := by
  unfold incidentsMet
  split
  case h_1 hroot => rw [Walk.mem_incidents_root, hroot, and_iff_right rfl]
  case h_2 hother => exact iff_of_false List.not_mem_nil fun ⟨hroot, _⟩ => hother hroot

/-- The troubles that a scan comes across are the incidents that are told. -/
theorem troublesMet_eq {p : Prepared} (hp : prepare fs config = .ok p) :
    troublesMet fs config = (incidentsMet fs config).filterMap Incident.trouble? := by
  obtain ⟨_, hwalkRoot, hrootKind⟩ := prepare_eq_ok hp
  have hroot : fs.kind config.root = .ok p.kind := FileSystem.rootKind_eq_ok.mp hrootKind
  unfold troublesMet incidentsMet
  rw [eventsMet_of_prepared hp, Prepared.events, hwalkRoot, hroot]
  cases p.kind with
  | file => rfl
  | directory => exact Walk.troublesOf_walk _ _ _
  | link => rfl
  | other => rfl

/-- An incident is told, or it is a link that is lost. -/
theorem length_incidents (incidents : List Incident) :
    (incidents.filterMap Incident.trouble?).length + incidents.countP Incident.isLostLink
      = incidents.length := by
  have htold : incidents.countP (fun incident => incident.trouble?.isSome)
      = incidents.countP fun incident => !incident.isLostLink := by
    refine List.countP_congr fun incident _ => ?_
    cases incident with
    | trouble t => exact Iff.rfl
    | lostLink link error => exact Iff.rfl
  rw [List.length_filterMap_eq_countP, htold, List.length_eq_countP_add_countP Incident.isLostLink, Nat.add_comm]
  simp only [Bool.not_eq_true, Bool.decide_eq_false]

theorem countP_isLostLink_eq_zero {incidents : List Incident} :
    incidents.countP Incident.isLostLink = 0 ↔ ∀ link error, .lostLink link error ∉ incidents := by
  rw [List.countP_eq_zero]
  constructor
  · intro h link error hmem
    exact h _ hmem rfl
  · intro h incident hmem hlost
    cases incident with
    | trouble t => cases hlost
    | lostLink link error => exact h link error hmem

end

/-- **What goes wrong below the root, and what a scan makes of it.** Take any scan that ends well. The incidents
    that it meets are a directory that is too deep, a directory that cannot be listed, an entry that cannot be
    read, an entry of which it cannot be told what it is, and a link of which it cannot be looked up what it leads
    to; each of them in a directory that the scan enters. Each incident but the last adds one to the troubles
    and logs one warning, in this order, and nothing else does. A link that is lost adds nothing and logs
    nothing: the scan is the one of the view without such links. So the troubles are as many as the incidents
    exactly if no link is lost. -/
theorem scan_incidents {fs : FileSystem} {config : Config} {start : Activity} {outcome : Outcome}
    (hok : (scan fs config start).result = .ok outcome) :
    (∀ incident, incident ∈ incidentsMet fs config ↔
      fs.kind config.root = .ok .directory ∧ Occurs fs config (fs.walkRoot config.root) incident) ∧
    outcome.troubles + (incidentsMet fs config).countP Incident.isLostLink
      = (incidentsMet fs config).length ∧
    ((scan fs config start).log.filter fun record => record.level = .warn)
      = ((incidentsMet fs config).filterMap Incident.trouble?).map Trouble.record ∧
    ((scan fs config start).log.countP fun record => record.level = .warn) = outcome.troubles ∧
    (outcome.troubles = (incidentsMet fs config).length ↔
      ∀ link error, .lostLink link error ∉ incidentsMet fs config) ∧
    scan fs.withoutLostLinks config start = scan fs config start := by
  obtain ⟨_, _, _, htroubles, hlog⟩ := scan_of_ok hok
  obtain ⟨p, hp⟩ := prepared_of_result_ok hok
  have htold := troublesMet_eq hp
  have hlength := length_incidents (incidentsMet fs config)
  rw [← htold, ← htroubles] at hlength
  refine ⟨fun _ => mem_incidentsMet, hlength, ?_, ?_, ?_, scan_withoutLostLinks fs config start⟩
  · rw [hlog, htold]
  · rw [List.countP_eq_length_filter, hlog, List.length_map, htroubles]
  · rw [← countP_isLostLink_eq_zero]
    omega

/-- A link to nothing, an entry that cannot be read, one that cannot be told, and a directory that cannot be
    listed. -/
def failingEntries : List (Except OsError Entry) :=
  [.ok ⟨Utf8.bytes "gone.py", .ok .link⟩, .error .io, .ok ⟨Utf8.bytes "odd", .error .permission⟩,
    .ok ⟨Utf8.bytes "shut", .ok .directory⟩]

/-- A root with these entries, and nothing else that can be looked up. -/
def failingView : FileSystem where
  kind p := if p = .ofString "/r" then .ok .directory else .error .notFound
  list p := if p = .ofString "/r" then .ok failingEntries else .error .permission
  canonical p := .ok p
  read _ := .error .notFound

theorem list_failingView : failingView.list (.ofString "/r") = .ok failingEntries := rfl

theorem sortedEntries_failingView :
    Walk.sortedEntries failingEntries
      = [⟨Utf8.bytes "gone.py", .ok .link⟩, ⟨Utf8.bytes "odd", .error .permission⟩,
        ⟨Utf8.bytes "shut", .ok .directory⟩] :=
  List.mergeSort_of_pairwise (by decide)

theorem incidentsMet_failingView :
    incidentsMet failingView (.ofRoot (.ofString "/r"))
      = [.trouble (.entry (.ofString "/r") .io), .lostLink (.ofString "/r/gone.py") .notFound,
        .trouble (.entryKind (.ofString "/r/odd") .permission),
        .trouble (.directory (.ofString "/r/shut") .permission)] := by
  show Walk.incidents failingView (.ofRoot (.ofString "/r")) 101 (.ofString "/r") = _
  rw [Walk.incidents, list_failingView]
  simp only [sortedEntries_failingView]
  rfl

theorem scan_failingView :
    (scan failingView (.ofRoot (.ofString "/r")) .zero).result = .ok ⟨⟨[]⟩, 0, 3⟩ := by
  have hwalk : Walk.walk failingView (.ofRoot (.ofString "/r")) 101 0 (.ofString "/r")
      = [.listed 0 (.ofString "/r"), .trouble (.entry (.ofString "/r") .io),
        .trouble (.entryKind (.ofString "/r/odd") .permission),
        .trouble (.directory (.ofString "/r/shut") .permission)] := by
    rw [Walk.walk, list_failingView]
    simp only [sortedEntries_failingView]
    rfl
  show (ScanRun.ofBooks (Books.takeAll failingView (.ofRoot (.ofString "/r")) ⟨none, .ofString "/r"⟩
    (.start .zero) (Walk.walk failingView (.ofRoot (.ofString "/r")) 101 0 (.ofString "/r")))).result = _
  rw [hwalk]
  rfl

/-- Four incidents make three troubles and three warnings, since nothing is told of the link. -/
theorem scan_incidents_failingView :
    (scan failingView (.ofRoot (.ofString "/r")) .zero).result = .ok ⟨⟨[]⟩, 0, 3⟩ ∧
    Occurs failingView (.ofRoot (.ofString "/r")) (.ofString "/r")
      (.lostLink (.ofString "/r/gone.py") .notFound) ∧
    ((scan failingView (.ofRoot (.ofString "/r")) .zero).log.filter fun record => record.level = .warn)
      = [(Trouble.entry (.ofString "/r") .io).record,
        (Trouble.entryKind (.ofString "/r/odd") .permission).record,
        (Trouble.directory (.ofString "/r/shut") .permission).record] ∧
    scan failingView.withoutLostLinks (.ofRoot (.ofString "/r")) .zero
      = scan failingView (.ofRoot (.ofString "/r")) .zero := by
  obtain ⟨hmem, _, hlog, _, _, hsame⟩ := scan_incidents scan_failingView
  rw [incidentsMet_failingView] at hmem hlog
  have hlost := (hmem (.lostLink (.ofString "/r/gone.py") .notFound)).mp (by decide)
  exact ⟨scan_failingView, hlost.2, hlog, hsame⟩

/-- A scan that counts fewer troubles than it meets incidents. -/
theorem not_troubles_eq_incidents :
    ¬ ∀ (fs : FileSystem) (config : Config) (start : Activity) (outcome : Outcome),
      (scan fs config start).result = .ok outcome →
        outcome.troubles = (incidentsMet fs config).length := by
  intro h
  have hcount := h _ _ _ _ scan_failingView
  rw [incidentsMet_failingView] at hcount
  exact absurd hcount (by decide)

end LineCensus
