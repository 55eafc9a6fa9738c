import LineCensus.Proofs.Scan.Narrowing
import LineCensus.Proofs.Scan.Places
import LineCensus.Proofs.Text.Utf8

/-!
# `Proofs.Scan.Pruning` — directories that are left out

The settings name directories to leave out. To a scan they are as good as gone: it gives the same as a scan
that leaves out nothing, of a tree from which they were taken away with all that is below them. Nothing else is
taken away: not the root, whatever its name, and no file or link.

## Contents
- `Config.withoutExclusions` and `Config.excludes_iff`, the names that are left out.
- `Walk.walk_prune` and `scan_prune`, the pruned view.
- `scan_congr_excluded`: the order of the names does not matter, nor how often one is given.
- `scan_prunes`.
-/

namespace LineCensus

/-- The same settings with other names to leave out. -/
def Config.withExcluded (config : Config) (names : List String) : Config := { config with excluded := names }

/-- The same settings without names to leave out. -/
def Config.withoutExclusions (config : Config) : Config := config.withExcluded []

/-- The names that are left out are those of the texts in the settings, as UTF-8. -/
theorem Config.excludes_iff {config : Config} {name : Name} :
    config.excludes name = true ↔ ∃ text ∈ config.excluded, Utf8.bytes text = name := by
  unfold excludes Utf8.string?
  constructor
  · intro h
    cases hdecoded : Utf8.decode? name with
    | none => simp [hdecoded] at h
    | some cs =>
      have hmem : String.ofList cs ∈ config.excluded := by simpa [hdecoded] using h
      refine ⟨String.ofList cs, hmem, ?_⟩
      rw [Utf8.decode?_eq_some_iff.mp hdecoded, Utf8.bytes, String.toList_ofList]
  · rintro ⟨text, hmem, rfl⟩
    rw [Utf8.bytes, Utf8.decode?_encode]
    simpa using hmem

theorem Config.excludes_withoutExclusions (config : Config) (name : Name) :
    config.withoutExclusions.excludes name = false := by
  rw [← Bool.not_eq_true, excludes_iff]
  rintro ⟨text, hmem, _⟩
  cases hmem

section

variable {fs : FileSystem} {config : Config}

/-! ## The pruned view -/

/-- **The walk of the pruned view** is the same, although the settings leave out nothing. -/
theorem Walk.walk_prune {levels depth : Nat} {directory : Path} :
    walk fs config levels depth directory
      = walk (fs.prune config) config.withoutExclusions levels depth directory := by
  have hall : ∀ events : List Event, events.filter (fun _ => true) = events := fun events =>
    List.filter_eq_self.mpr fun _ _ => rfl
  rw [← hall (walk fs config levels depth directory)]
  refine @filter_walk fs config config.withoutExclusions _ (fun _ => true) (fun _ _ => rfl) (fun _ => rfl) rfl
    ?_ levels depth directory
  intro enter enter' henter directory entry
  have hsame : enter = enter' := funext fun p => (hall (enter p)).symm.trans (henter p)
  subst hsame
  rw [hall]
  cases hkind : entry.kind with
  | error error => simp only [visit, hkind, if_true]
  | ok kind =>
    cases kind with
    | file => simp only [visit, hkind, if_true]
    | directory =>
      -- a directory that is not left out is entered in both views
      have hnone := config.excludes_withoutExclusions entry.name
      by_cases hexcluded : config.excludes entry.name = true
      · simp [visit, hkind, hexcluded]
      · rw [Bool.not_eq_true] at hexcluded
        simp only [visit, hkind, hexcluded, hnone, Bool.not_false, if_true]
        rfl
    | link =>
      simp only [visit, hkind, if_true]
      rfl
    | other => simp only [visit, hkind, if_true]

theorem scan_prune (fs : FileSystem) (config : Config) (start : Activity) :
    scan fs config start = scan (fs.prune config) config.withoutExclusions start := by
  have hprepare : prepare fs config = prepare (fs.prune config) config.withoutExclusions := rfl
  refine scan_congr_walk hprepare ?_ ?_ (fun _ _ _ => Walk.walk_prune) ?_ start
  all_goals intros; rfl

/-! ## Names to leave out -/

/-- The settings after some calls that each give more names to leave out. -/
theorem foldl_exclude (config : Config) (calls : List (List String)) :
    calls.foldl Config.exclude config = config.withExcluded (config.excluded ++ calls.flatten) := by
  induction calls generalizing config with
  | nil =>
    rw [List.foldl_nil, List.flatten_nil, List.append_nil]
    rfl
  | cons names rest ih =>
    rw [List.foldl_cons, ih, List.flatten_cons, ← List.append_assoc]
    rfl

/-- Of the names to leave out it matters which there are, and nothing else. -/
theorem scan_congr_excluded {names names' : List String} (h : ∀ text, text ∈ names ↔ text ∈ names')
    (start : Activity) :
    scan fs (config.withExcluded names) start = scan fs (config.withExcluded names') start := by
  have hexcludes : ∀ name,
      (config.withExcluded names).excludes name = (config.withExcluded names').excludes name := by
    intro name
    rw [Bool.eq_iff_iff, Config.excludes_iff, Config.excludes_iff]
    simp only [Config.withExcluded, h]
  have hwalk : ∀ levels directory, Walk.walk fs (config.withExcluded names) levels 0 directory
      = Walk.walk fs (config.withExcluded names') levels 0 directory := by
    intro levels directory
    refine Walk.walk_congr ?_ (.of_eq ?_) ?_ hexcludes ?_
    all_goals intros; rfl
  have hprepare : prepare fs (config.withExcluded names) = prepare fs (config.withExcluded names') := rfl
  refine scan_congr_walk hprepare ?_ ?_ (fun _ _ _ => hwalk _ _) ?_ start
  all_goals intros; rfl

/-! ## Both together -/

/-- A directory that is left out leaves no trace: no event stands at it, or below it. -/
theorem not_within_of_excluded (hlawful : fs.IsLawful) (hroot : fs.kind config.root = .ok .directory)
    {depth : Nat} {directory : Path} {entries : List (Except OsError Entry)} {entry : Entry}
    (hvisited : Visited fs config (fs.walkRoot config.root) depth directory)
    (hlist : fs.list directory = .ok entries) (hmem : .ok entry ∈ entries)
    (hkind : entry.kind = .ok .directory) (hexcluded : config.excludes entry.name = true)
    {event : Event} (hevent : event ∈ eventsMet fs config) :
    ¬(directory.join entry.name).Within event.path := by
  intro hwithin
  cases hp : prepare fs config with
  | error error =>
    rw [eventsMet, hp] at hevent
    cases hevent
  | ok p =>
    rw [eventsMet_of_directory hp hroot] at hevent
    have hvisit := Walk.mem_visit_of_visited hlawful hvisited hlist hmem hevent hwithin
    simp [Walk.visit, hkind, hexcluded] at hvisit

/-- **To leave a directory out is to prune the tree.** Take any settings and a root that is a directory. Let
    `fs'` be a view that has below the root what is left there when the directories that are left out are
    taken away with all that is below them; links lead in it where they led. A scan with no names to leave out
    gives there what the scan gives here: the result or the error, the counters, the log and what is printed.
    The names are those of the texts in the settings, so a name that is not UTF-8 is never left out. In the
    root, whatever its name, and in every other directory that is visited, each file and each link to a file
    is a candidate if it is selected, whatever its name; of a directory that is left out nothing is told, not
    even at the limit of depth. The order in which names to leave out are given does not matter, nor how often
    one is given. The candidates are what the scan examines, as many as its limit allows, and the events are what
    it enters into its accounts. -/
theorem scan_prunes (hroot : fs.kind config.root = .ok .directory) :
    (∀ fs' : FileSystem, fs.kind config.root = fs'.kind config.root →
      fs.canonical config.root = fs'.canonical config.root →
      (fs.prune config).AgreesBelow fs' (fs.walkRoot config.root) → ∀ start,
      scan fs config start = scan fs' config.withoutExclusions start) ∧
    (∀ start, scan fs config start = scan (fs.prune config) config.withoutExclusions start) ∧
    (∀ name, config.excludes name = true ↔ ∃ text ∈ config.excluded, Utf8.bytes text = name) ∧
    (∀ depth directory entries entry, Visited fs config (fs.walkRoot config.root) depth directory →
      fs.list directory = .ok entries → .ok entry ∈ entries → entry.LeadsToFile fs directory →
      config.Selects (fs.walkRoot config.root) (directory.join entry.name) →
      directory.join entry.name ∈ candidates fs config) ∧
    (fs.IsLawful → ∀ depth directory entries entry,
      Visited fs config (fs.walkRoot config.root) depth directory →
      fs.list directory = .ok entries → .ok entry ∈ entries → entry.kind = .ok .directory →
      config.excludes entry.name = true →
      ∀ event ∈ eventsMet fs config, ¬(directory.join entry.name).Within event.path) ∧
    (∀ calls calls' : List (List String), (∀ text, text ∈ calls.flatten ↔ text ∈ calls'.flatten) → ∀ start,
      scan fs (calls.foldl Config.exclude config) start
        = scan fs (calls'.foldl Config.exclude config) start) ∧
    (∀ start, scanTraced fs config start
      = (scan fs config start, (candidates fs config).take config.maxEntries)) ∧
    (∀ p start, prepare fs config = .ok p → scan fs config start
      = .ofBooks (Books.takeAll fs config p.selection (.start start) (eventsMet fs config))) := by
  refine ⟨?_, scan_prune fs config, fun _ => Config.excludes_iff, ?_, ?_, ?_, scanTraced_eq fs config,
    fun _ start hp => scan_eq_takeAll hp start⟩
  · intro fs' hkind hcanonical hbelow start
    have hpruned : (fs.prune config).kind config.withoutExclusions.root = .ok .directory := hroot
    rw [scan_prune]
    exact scan_congr_below hpruned hkind hcanonical hbelow start
  · intro depth directory entries entry hvisited hlist hmem hfile hselects
    have hmeets : Meets fs config (fs.walkRoot config.root) (directory.join entry.name) :=
      ⟨depth, directory, entries, entry, hvisited, hlist, hmem, hfile, rfl⟩
    exact mem_candidates.mpr ⟨Or.inr ⟨hroot, hmeets⟩, hselects⟩
  · intro hlawful depth directory entries entry hvisited hlist hmem hkind hexcluded event hevent
    exact not_within_of_excluded hlawful hroot hvisited hlist hmem hkind hexcluded hevent
  · intro calls calls' h start
    rw [foldl_exclude, foldl_exclude]
    refine scan_congr_excluded (fun text => ?_) start
    rw [List.mem_append, List.mem_append, h]

/-- A file, a link whose name is one to leave out, and, if `inner` says so, a directory of such a name. -/
def namesakeEntries (inner : Bool) : List Entry :=
  [⟨Utf8.bytes "a.py", .ok .file⟩, ⟨Utf8.bytes "node_modules", .ok .link⟩]
    ++ if inner then [⟨Utf8.bytes "venv", .ok .directory⟩] else []

/-- A root whose name is one to leave out. -/
def namesakeView (inner : Bool) : FileSystem where
  kind p :=
    if p = .ofString "/venv" then .ok .directory
    else if p = .ofString "/venv/node_modules" then .ok .file
    else .error .notFound
  list p :=
    if p = .ofString "/venv" then .ok ((namesakeEntries inner).map .ok)
    else if p = .ofString "/venv/venv" ∧ inner then .ok ([⟨Utf8.bytes "b.py", .ok .file⟩].map .ok)
    else .error .notFound
  canonical p := .ok p
  read p := if p = .ofString "/venv/venv/b.py" ∧ inner = false then .error .notFound else .ok []

theorem namesakeView_isLawful : (namesakeView true).IsLawful := by
  intro directory entries hlist
  simp only [namesakeView] at hlist
  split at hlist
  · cases hlist
    exact ⟨by decide, by simp [namesakeEntries]; decide⟩
  · split at hlist
    · cases hlist
      exact ⟨by decide, by simp; decide⟩
    · cases hlist

/-- Without the inner directory, the view is what the pruned view shows below the root. -/
theorem namesakeView_agreesBelow :
    ((namesakeView true).prune (.ofRoot (.ofString "/venv"))).AgreesBelow (namesakeView false)
      (.ofString "/venv") := by
  have hlisted : ((namesakeView true).prune (.ofRoot (.ofString "/venv"))).list (.ofString "/venv")
      = .ok [.ok ⟨Utf8.bytes "a.py", .ok .file⟩, .ok ⟨Utf8.bytes "node_modules", .ok .link⟩] := rfl
  -- the pruned view holds no directory but the root
  have hholds : ∀ directory, ((namesakeView true).prune (.ofRoot (.ofString "/venv"))).Holds
      (.ofString "/venv") directory → directory = .ofString "/venv" := by
    intro directory h
    induction h with
    | root => rfl
    | entry _ hlist hmem hkind ih =>
      subst ih
      rw [hlisted] at hlist
      cases hlist
      simp at hmem
      rcases hmem with rfl | rfl <;> cases hkind
  have hstands : ∀ path, ((namesakeView true).prune (.ofRoot (.ofString "/venv"))).Stands
      (.ofString "/venv") path →
      path = .ofString "/venv/a.py" ∨ path = .ofString "/venv/node_modules" := by
    rintro path ⟨directory, entries, entry, hdirectory, hlist, hmem, rfl⟩
    rw [hholds directory hdirectory] at hlist ⊢
    rw [hlisted] at hlist
    cases hlist
    simp at hmem
    rcases hmem with rfl | rfl
    · exact Or.inl rfl
    · exact Or.inr rfl
  refine ⟨fun directory h => ?_, fun path h => ?_, fun path h => ?_⟩
  · rw [hholds directory h]
    rfl
  · rcases hstands path h with rfl | rfl <;> rfl
  · rcases hstands path h with rfl | rfl <;> rfl

/-- The root is scanned and the link is counted, although their names are left out. The directory inside is
    gone without a trace, also where it lies just below the limit. -/
theorem scan_prunes_namesakeView :
    (namesakeView true).kind (.ofString "/venv") = .ok .directory ∧
    scan (namesakeView true) (.ofRoot (.ofString "/venv")) .zero
      = scan (namesakeView false) ((Config.ofRoot (.ofString "/venv")).withExcluded []) .zero ∧
    .ofString "/venv/node_modules"
      ∈ candidates (namesakeView true) (.ofRoot (.ofString "/venv")) ∧
    (∀ event ∈ eventsMet (namesakeView true) { Config.ofRoot (.ofString "/venv") with maxDepth := 0 },
      ¬(Path.ofString "/venv/venv").Within event.path) ∧
    scan (namesakeView true) (([["a"], ["b", "a"]] : List (List String)).foldl Config.exclude
        (.ofRoot (.ofString "/venv"))) .zero
      = scan (namesakeView true) (([["b"], [], ["a"]] : List (List String)).foldl Config.exclude
        (.ofRoot (.ofString "/venv"))) .zero := by
  have hroot : (namesakeView true).kind (Config.ofRoot (.ofString "/venv")).root = .ok .directory := rfl
  have hroot' : (namesakeView true).kind
      ({ Config.ofRoot (.ofString "/venv") with maxDepth := 0 } : Config).root = .ok .directory := rfl
  obtain ⟨hgone, _, _, hkept, _, hcalls, _⟩ := scan_prunes hroot
  obtain ⟨_, _, _, _, htrace, _⟩ := scan_prunes hroot'
  refine ⟨hroot, hgone (namesakeView false) rfl rfl namesakeView_agreesBelow .zero, ?_, ?_,
    hcalls _ _ (by simp) .zero⟩
  · refine hkept 0 (.ofString "/venv") _ ⟨Utf8.bytes "node_modules", .ok .link⟩ .root rfl
      (by simp [namesakeEntries]) (Or.inr ⟨rfl, rfl⟩) ?_
    intro spec hspec
    cases hspec
  · exact htrace namesakeView_isLawful 0 (.ofString "/venv") _ ⟨Utf8.bytes "venv", .ok .directory⟩ .root rfl
      (by simp [namesakeEntries]) rfl (by decide)

end

end LineCensus
