import LineCensus.Proofs.Scan.Congruence
import LineCensus.Proofs.Scan.Places
import LineCensus.Proofs.Scan.Stepwise

/-!
# `Proofs.Scan.Termination` — every scan comes to an end

A view may hold directories that list themselves, or one another, and links in circles. No scan of it goes on for
ever all the same. Each directory that is entered is one level deeper than the one that lists it, and one that
lies deeper than the limit is not listed any more; the entries of a listing become fewer with each step; and a
link gives no directory to enter.

## Contents
- `ScanState.bound`, which each step makes smaller (`bound_lt_of_step?`); so `wellFounded_step?`, no run goes on
  for ever, and `exists_rest`.
- `Entered`, the directories that a scan enters, by rules; `Task.Belongs`, which each step keeps
  (`ScanState.Steps.belongs`), and so a scan enters no others.
- `Entered.not_behindLink`, nothing behind a link is listed.
- `ScanState.step?_congr` and `scan_congr_entered`, what the view says of all other directories does not matter.
- `scan_ends`.
-/

namespace LineCensus

/-! ## The measure -/

/-- The most steps that an entry gives rise to, with those that it takes to do a directory below. -/
def Walk.entryBound (below : Path → Nat) (directory : Path) (entry : Entry) : Nat :=
  match entry.kind with
  | .ok .directory => 1 + below (directory.join entry.name)
  | _ => 2

/-- The most steps that it takes to do a directory, with a number of levels left. -/
def Walk.stepBound (fs : FileSystem) : Nat → Path → Nat
  | 0, _ => 1
  | levels + 1, directory =>
    match fs.list directory with
    | .error _ => 1
    | .ok entries => 2 + ((sortedEntries entries).map (entryBound (stepBound fs levels) directory)).sum

/-- The most steps that it takes to do a task: of a directory, they depend on the levels that are left and on the
    entries that are left. -/
def Task.bound (fs : FileSystem) (config : Config) : Task → Nat
  | .enter depth directory => Walk.stepBound fs (config.maxDepth + 1 - depth) directory
  | .remaining depth directory left =>
    1 + (left.map (Walk.entryBound (Walk.stepBound fs (config.maxDepth - depth)) directory)).sum
  | .file _ => 1

/-- The most steps that are ahead. -/
def ScanState.bound (fs : FileSystem) (config : Config) : ScanState → Nat
  | .running pending _ => (pending.map (Task.bound fs config)).sum
  | .stopped _ _ => 0

section

variable {fs : FileSystem} {config : Config} {selection : Selection}

/-- What an entry gives to do takes fewer steps than the entry. -/
theorem Task.bound_task?_lt (depth : Nat) (directory : Path) (entry : Entry) :
    ((entry.task? fs config depth directory).toList.map (Task.bound fs config)).sum
      < Walk.entryBound (Walk.stepBound fs (config.maxDepth - depth)) directory entry := by
  unfold Entry.task? Walk.entryBound
  cases entry.kind with
  | error error => exact Nat.zero_lt_two
  | ok kind =>
    cases kind with
    | directory =>
      by_cases hleft : (config.nonRecursive || config.excludes entry.name) = true
      · simp only [if_pos hleft]
        exact Nat.succ_pos _ |>.trans_eq (Nat.add_comm _ 1)
      · have hlevels : config.maxDepth + 1 - (depth + 1) = config.maxDepth - depth := by omega
        simp only [if_neg hleft, Option.toList_some, List.map_singleton, List.sum_singleton, bound, hlevels]
        exact Nat.lt_add_of_pos_left Nat.one_pos
    | file => exact Nat.one_lt_two
    | link =>
      by_cases hleads : fs.isFile (directory.join entry.name) = true
      · simp only [if_pos hleads]
        exact Nat.one_lt_two
      · simp only [if_neg hleads]
        exact Nat.zero_lt_two
    | other => exact Nat.zero_lt_two

/-- **Each task takes a step and leaves less to do.** -/
theorem Task.bound_perform_lt (task : Task) (others : List Task) (b : Books) :
    (task.perform fs config selection others b).bound fs config
      < task.bound fs config + (others.map (Task.bound fs config)).sum := by
  cases task with
  | enter depth directory =>
    by_cases hdeep : config.maxDepth < depth
    · have hlevels : config.maxDepth + 1 - depth = 0 := by omega
      simp only [perform, if_pos hdeep, ScanState.bound, bound, hlevels, Walk.stepBound]
      omega
    · have hlevels : config.maxDepth + 1 - depth = config.maxDepth - depth + 1 := by omega
      cases hlist : fs.list directory with
      | error error =>
        simp only [perform, if_neg hdeep, hlist, ScanState.bound, bound, hlevels, Walk.stepBound]
        omega
      | ok entries =>
        simp only [perform, if_neg hdeep, hlist, ScanState.bound, bound, hlevels, Walk.stepBound,
          List.map_cons, List.sum_cons]
        omega
  | remaining depth directory left =>
    cases left with
    | nil =>
      simp only [perform, ScanState.bound, bound, List.map_nil, List.sum_nil]
      omega
    | cons entry left =>
      have hentry : ((entry.task? fs config depth directory).toList.map (Task.bound fs config)).sum
          < Walk.entryBound (Walk.stepBound fs (config.maxDepth - depth)) directory entry :=
        bound_task?_lt depth directory entry
      simp only [perform, ScanState.bound, bound, List.map_append, List.sum_append, List.map_cons,
        List.sum_cons]
      omega
  | file path =>
    have hothers : (others.map (Task.bound fs config)).sum
        < bound fs config (.file path) + (others.map (Task.bound fs config)).sum :=
      Nat.lt_add_of_pos_left Nat.one_pos
    rw [perform]
    split
    · split
      · exact Nat.zero_lt_of_lt hothers
      · exact hothers
    · exact hothers

namespace ScanState

theorem bound_lt_of_step? {s s' : ScanState} (h : s.step? fs config selection = some s') :
    s'.bound fs config < s.bound fs config := by
  obtain ⟨task, others, b, rfl, rfl⟩ := exists_task_of_step? h
  exact task.bound_perform_lt others b

/-- **No run goes on for ever**, wherever it begins. -/
theorem wellFounded_step? (fs : FileSystem) (config : Config) (selection : Selection) :
    WellFounded fun s' s : ScanState => s.step? fs config selection = some s' :=
  Subrelation.wf (fun hstep => bound_lt_of_step? hstep) (measure (bound fs config)).wf

/-- So from every state some steps lead to one in which nothing is pending. -/
theorem exists_rest (fs : FileSystem) (config : Config) (selection : Selection) (s : ScanState) :
    ∃ s', Steps fs config selection s s' ∧ s'.step? fs config selection = none := by
  induction s using (wellFounded_step? fs config selection).induction with
  | _ s ih =>
    cases hstep : s.step? fs config selection with
    | none => exact ⟨s, .refl, hstep⟩
    | some s' =>
      obtain ⟨last, hsteps, hrest⟩ := ih s' hstep
      exact ⟨last, .head hstep hsteps, hrest⟩

end ScanState

/-! ## The directories that are entered -/

/-- The directories that a scan of `root` enters, with their depth. The root is one, whatever it is; any other
    one stands in the listing of one that is within the limit, is a directory there and no link, and may be
    entered. -/
inductive Entered (fs : FileSystem) (config : Config) (root : Path) : Nat → Path → Prop where
  | root : Entered fs config root 0 root
  | entry {depth : Nat} {directory : Path} {entries : List (Except OsError Entry)} {entry : Entry} :
      Entered fs config root depth directory → depth ≤ config.maxDepth →
      fs.list directory = .ok entries → .ok entry ∈ entries → entry.MayBeEntered config →
      Entered fs config root (depth + 1) (directory.join entry.name)

theorem Entered.depth_le {root : Path} {depth : Nat} {directory : Path}
    (h : Entered fs config root depth directory) : depth ≤ config.maxDepth + 1 := by
  cases h with
  | root => exact Nat.zero_le _
  | entry _ hdepth => exact Nat.succ_le_succ hdepth

/-- A directory that is entered within the limit, and can be listed, is visited. -/
theorem Entered.visited {root : Path} {depth : Nat} {directory : Path} {listing : List (Except OsError Entry)}
    (h : Entered fs config root depth directory) (hdepth : depth ≤ config.maxDepth)
    (hlist : fs.list directory = .ok listing) : Visited fs config root depth directory := by
  induction h generalizing listing with
  | root => exact .root
  | entry _ habove hentries hmem hentered ih =>
    exact .entry (ih habove hentries) hentries hmem hentered hdepth hlist

/-- What a scan of `root` may have to do: enter a directory that it enters, or go on with one that is within the
    limit. -/
def Task.Belongs (fs : FileSystem) (config : Config) (root : Path) : Task → Prop
  | .enter depth directory => Entered fs config root depth directory
  | .remaining depth directory left =>
    Entered fs config root depth directory ∧ depth ≤ config.maxDepth ∧
      ∃ entries, fs.list directory = .ok entries ∧ ∀ entry ∈ left, .ok entry ∈ entries
  | .file _ => True

/-- The tasks that are pending. -/
def ScanState.pending : ScanState → List Task
  | .running pending _ => pending
  | .stopped _ _ => []

/-- What an entry of a directory gives to do belongs to the scan. -/
theorem Task.belongs_task? {root : Path} {depth : Nat} {directory : Path}
    {entries : List (Except OsError Entry)} {entry : Entry} {task : Task}
    (hentered : Entered fs config root depth directory) (hdepth : depth ≤ config.maxDepth)
    (hlist : fs.list directory = .ok entries) (hmem : .ok entry ∈ entries)
    (h : entry.task? fs config depth directory = some task) : task.Belongs fs config root := by
  unfold Entry.task? at h
  cases hkind : entry.kind with
  | error error => simp [hkind] at h
  | ok kind =>
    cases kind with
    | directory =>
      by_cases hleft : (config.nonRecursive || config.excludes entry.name) = true
      · simp [hkind, hleft] at h
      · have hmay : entry.MayBeEntered config := by
          rw [Bool.not_eq_true, Bool.or_eq_false_iff] at hleft
          exact ⟨hkind, hleft⟩
        simp only [hkind, if_neg hleft, Option.some.injEq] at h
        subst h
        exact .entry hentered hdepth hlist hmem hmay
    | file =>
      simp only [hkind, Option.some.injEq] at h
      subst h
      exact trivial
    | link =>
      simp only [hkind, Option.ite_none_right_eq_some, Option.some.injEq] at h
      obtain ⟨_, rfl⟩ := h
      exact trivial
    | other => simp [hkind] at h

/-- **A step gives rise to no task that does not belong to the scan.** -/
theorem Task.belongs_perform {root : Path} {task : Task} {others : List Task} (b : Books)
    (htask : task.Belongs fs config root) (hothers : ∀ t ∈ others, t.Belongs fs config root) :
    ∀ t ∈ (task.perform fs config selection others b).pending, t.Belongs fs config root := by
  cases task with
  | enter depth directory =>
    by_cases hdeep : config.maxDepth < depth
    · simp only [perform, if_pos hdeep]
      exact hothers
    · cases hlist : fs.list directory with
      | error error =>
        simp only [perform, if_neg hdeep, hlist]
        exact hothers
      | ok entries =>
        simp only [perform, if_neg hdeep, hlist]
        refine List.forall_mem_cons.mpr ⟨⟨htask, Nat.not_lt.mp hdeep, entries, hlist, ?_⟩, hothers⟩
        exact fun entry hentry => Walk.mem_sortedEntries.mp hentry
  | remaining depth directory left =>
    cases left with
    | nil => exact hothers
    | cons entry left =>
      obtain ⟨hentered, hdepth, entries, hlist, hleft⟩ := htask
      obtain ⟨hentry, hmore⟩ := List.forall_mem_cons.mp hleft
      intro t ht
      rcases List.mem_append.mp ht with hnext | hlater
      · exact belongs_task? hentered hdepth hlist hentry (Option.mem_toList.mp hnext)
      · rcases List.mem_cons.mp hlater with rfl | hother
        · exact ⟨hentered, hdepth, entries, hlist, hmore⟩
        · exact hothers t hother
  | file path =>
    rw [perform]
    split
    · split
      · exact fun t ht => absurd ht List.not_mem_nil
      · exact hothers
    · exact hothers

/-- **Nor do any number of steps.** -/
theorem ScanState.Steps.belongs {root : Path} {s s' : ScanState} (h : Steps fs config selection s s')
    (hs : ∀ t ∈ s.pending, t.Belongs fs config root) : ∀ t ∈ s'.pending, t.Belongs fs config root := by
  induction h with
  | refl => exact hs
  | tail _ hstep ih =>
    obtain ⟨task, others, b, rfl, rfl⟩ := exists_task_of_step? hstep
    obtain ⟨htask, hothers⟩ := List.forall_mem_cons.mp ih
    exact Task.belongs_perform b htask hothers

theorem Prepared.belongs_firstState (p : Prepared) (activity : Activity) :
    ∀ t ∈ (p.firstState activity).pending, t.Belongs fs config p.selection.root := by
  intro t ht
  have htask : p.task? = some t := Option.mem_toList.mp ht
  unfold Prepared.task? at htask
  cases hkind : p.kind with
  | file =>
    rw [hkind] at htask
    cases htask
    exact trivial
  | directory =>
    rw [hkind] at htask
    cases htask
    exact .root
  | link => simp [hkind] at htask
  | other => simp [hkind] at htask

/-! ## Entering and listing -/

/-- The directory that the next step enters, with its depth. -/
def ScanState.enters? : ScanState → Option (Nat × Path)
  | .running (.enter depth directory :: _) _ => some (depth, directory)
  | _ => none

/-- The directory that the next step lists, or fails to list: the one that it enters, unless that is too deep. -/
def ScanState.lists? (config : Config) (s : ScanState) : Option (Nat × Path) :=
  s.enters?.filter fun entered => entered.1 ≤ config.maxDepth

/-- The next step asks for no other listing: it is the same in a view that answers otherwise only elsewhere. -/
theorem ScanState.step?_congr {fs' : FileSystem} (s : ScanState) (hkind : ∀ p, fs.kind p = fs'.kind p)
    (hread : ∀ p, fs.read p = fs'.read p)
    (hlist : ∀ depth directory, s.lists? config = some (depth, directory) →
      fs.list directory = fs'.list directory) :
    s.step? fs config selection = s.step? fs' config selection := by
  cases s with
  | stopped b error => rfl
  | running pending b =>
    cases pending with
    | nil => rfl
    | cons task others =>
      refine congrArg some ?_
      cases task with
      | enter depth directory =>
        by_cases hdeep : config.maxDepth < depth
        · simp only [Task.perform, if_pos hdeep]
        · have hsame := hlist depth directory (by
            rw [lists?, enters?, Option.filter_some, if_pos (by simpa using Nat.not_lt.mp hdeep)])
          simp only [Task.perform, if_neg hdeep, hsame]
      | remaining depth directory left =>
        cases left with
        | nil => rfl
        | cons entry left =>
          have hfile := FileSystem.isFile_congr (hkind (directory.join entry.name))
          simp only [Task.perform, Entry.task?, hfile]
      | file path => simp only [Task.perform, Books.examine_congr (hread path)]

theorem ScanState.entered_of_enters? {p : Prepared} {activity : Activity} {s : ScanState}
    (hsteps : Steps fs config p.selection (p.firstState activity) s) {depth : Nat} {directory : Path}
    (h : s.enters? = some (depth, directory)) : Entered fs config p.selection.root depth directory := by
  have hpending : .enter depth directory ∈ s.pending := by
    unfold enters? at h
    split at h
    · cases h
      exact List.mem_cons_self
    · cases h
  exact hsteps.belongs (p.belongs_firstState activity) _ hpending

/-! ## Behind a link -/

/-- The walk of a directory that is entered within the limit is part of the walk of the root. -/
theorem Entered.walk_subset {root : Path} {depth : Nat} {directory : Path}
    (h : Entered fs config root depth directory) :
    Walk.walk fs config (config.maxDepth + 1 - depth) depth directory
      ⊆ Walk.walk fs config (config.maxDepth + 1) 0 root := by
  cases h with
  | root => exact List.Subset.refl _
  | @entry depth directory entries entry habove hdepth hlist hmem hmay =>
    intro event hevent
    refine (Walk.walk_subset_of_visited (habove.visited hdepth hlist)).2 ?_
    rw [show config.maxDepth + 1 - depth = (config.maxDepth + 1 - (depth + 1)) + 1 by omega]
    exact Walk.mem_walk_of_entered hlist hmem hmay hevent

/-- A directory that is entered within the limit is listed, or it is a trouble that it cannot be. -/
theorem Entered.exists_event {root : Path} {depth : Nat} {directory : Path}
    (h : Entered fs config root depth directory) (hdepth : depth ≤ config.maxDepth) :
    ∃ event ∈ Walk.walk fs config (config.maxDepth + 1) 0 root, event.path = directory ∧
      (event = .listed depth directory ∨ ∃ error, event = .trouble (.directory directory error)) := by
  have hsubset := h.walk_subset
  rw [show config.maxDepth + 1 - depth = (config.maxDepth - depth) + 1 by omega] at hsubset
  cases hlist : fs.list directory with
  | error error =>
    exact ⟨_, hsubset (Walk.mem_walk_succ.mpr (Or.inl ⟨error, hlist, rfl⟩)), rfl, Or.inr ⟨error, rfl⟩⟩
  | ok entries =>
    exact ⟨_, hsubset (Walk.mem_walk_succ.mpr (Or.inr ⟨entries, hlist, Or.inl rfl⟩)), rfl, Or.inl rfl⟩

/-- The path stands at a link that a scan meets below its root, or behind it. -/
def BehindLink (fs : FileSystem) (config : Config) (root path : Path) : Prop :=
  ∃ depth directory entries entry, Entered fs config root depth directory ∧ depth ≤ config.maxDepth ∧
    fs.list directory = .ok entries ∧ .ok entry ∈ entries ∧ entry.kind = .ok .link ∧
    (directory.join entry.name).Within path

/-- **Nothing behind a link is listed.** -/
theorem Entered.not_behindLink (hlawful : fs.IsLawful) {root : Path} {depth : Nat} {directory : Path}
    (h : Entered fs config root depth directory) (hdepth : depth ≤ config.maxDepth) :
    ¬BehindLink fs config root directory := by
  rintro ⟨above, parent, entries, entry, hparent, habove, hlist, hmem, hlink, hwithin⟩
  obtain ⟨event, hevent, hpath, hkind⟩ := h.exists_event hdepth
  -- the event would have come from the visit of the link, and that comes to a file or to nothing
  have hvisit := Walk.mem_visit_of_visited hlawful (hparent.visited habove hlist) hlist hmem hevent
    (hpath ▸ hwithin)
  rcases Walk.mem_visit hvisit with ⟨rfl, _⟩ | ⟨error, rfl⟩ | ⟨⟨hdir, _⟩, _⟩
  · rcases hkind with heq | ⟨error, heq⟩
    · cases heq
    · cases heq
  · rcases hkind with heq | ⟨error, heq⟩
    · cases heq
    · cases heq
  · rw [hlink] at hdir
    cases hdir

/-! ## All other directories -/

/-- A walk lists no directory but those that are entered within the limit. -/
theorem Walk.walk_congr_entered {fs' : FileSystem} {root : Path} (hkind : ∀ p, fs.kind p = fs'.kind p)
    (hlist : ∀ depth directory, Entered fs config root depth directory → depth ≤ config.maxDepth →
      fs.list directory = fs'.list directory) {levels depth : Nat} {directory : Path}
    (hlevels : depth + levels = config.maxDepth + 1) (hentered : Entered fs config root depth directory) :
    walk fs config levels depth directory = walk fs' config levels depth directory := by
  induction levels generalizing depth directory with
  | zero => rfl
  | succ levels ih =>
    have hdepth : depth ≤ config.maxDepth := by omega
    have hsame := hlist depth directory hentered hdepth
    cases hentries : fs.list directory with
    | error error =>
      rw [hentries] at hsame
      simp only [walk, hentries, ← hsame]
    | ok entries =>
      have hvisit : ∀ entry ∈ sortedEntries entries,
          visit fs config (walk fs config levels (depth + 1)) directory entry
            = visit fs' config (walk fs' config levels (depth + 1)) directory entry := by
        intro entry hsorted
        refine visit_congr (FileSystem.isFile_congr (hkind _)) rfl (fun _ => rfl) fun hmay => ?_
        exact ih (by omega) (.entry hentered hdepth hentries (mem_sortedEntries.mp hsorted) hmay)
      rw [hentries] at hsame
      simp only [walk, hentries, ← hsame, List.flatMap_congr hvisit]

/-- **What the view says of all other directories does not matter to a scan.** -/
theorem scan_congr_entered {fs' : FileSystem} (hkind : ∀ p, fs.kind p = fs'.kind p)
    (hcanonical : ∀ p, fs.canonical p = fs'.canonical p) (hread : ∀ p, fs.read p = fs'.read p)
    (hlist : ∀ depth directory, Entered fs config (fs.walkRoot config.root) depth directory →
      depth ≤ config.maxDepth → fs.list directory = fs'.list directory) (activity : Activity) :
    scan fs config activity = scan fs' config activity := by
  refine scan_congr_walk (prepare_congr hkind hcanonical) rfl rfl (fun p hp _ => ?_) (fun path _ => hread path)
    activity
  rw [(prepare_eq_ok hp).2.1]
  exact Walk.walk_congr_entered hkind hlist (Nat.zero_add _) .root

/-- **Every scan comes to an end**, whatever it finds: also in a view in which directories list themselves, or one
    another, and links go in circles. From no state at all does a run of steps go on for ever, and the run of the
    scan ends with what the scan leaves behind. On its way it enters no directory that lies more than one level
    too deep, and it lists none that lies too deep. Every directory that it enters, but for the root, is a
    directory itself, and no link, in the listing of one that it has listed; so in a lawful view nothing behind a
    link is listed. A step asks for no other listing, and what the view says of other directories does not matter
    to the scan. -/
theorem scan_ends {p : Prepared} (h : prepare fs config = .ok p) (activity : Activity) :
    (WellFounded fun s' s : ScanState => s.step? fs config p.selection = some s') ∧
    (∃ s, ScanState.Steps fs config p.selection (p.firstState activity) s ∧
      s.step? fs config p.selection = none ∧ s.run? = some (scan fs config activity)) ∧
    (∀ s, ScanState.Steps fs config p.selection (p.firstState activity) s →
      (∀ depth directory, s.enters? = some (depth, directory) →
        depth ≤ config.maxDepth + 1 ∧ Entered fs config (fs.walkRoot config.root) depth directory) ∧
      (∀ depth directory, s.lists? config = some (depth, directory) →
        depth ≤ config.maxDepth ∧ Entered fs config (fs.walkRoot config.root) depth directory ∧
        (fs.IsLawful → ¬BehindLink fs config (fs.walkRoot config.root) directory)) ∧
      (∀ fs' : FileSystem, (∀ q, fs.kind q = fs'.kind q) → (∀ q, fs.read q = fs'.read q) →
        (∀ depth directory, s.lists? config = some (depth, directory) →
          fs.list directory = fs'.list directory) →
        s.step? fs config p.selection = s.step? fs' config p.selection)) ∧
    (∀ fs' : FileSystem, (∀ q, fs.kind q = fs'.kind q) → (∀ q, fs.canonical q = fs'.canonical q) →
      (∀ q, fs.read q = fs'.read q) →
      (∀ depth directory, Entered fs config (fs.walkRoot config.root) depth directory →
        depth ≤ config.maxDepth → fs.list directory = fs'.list directory) →
      scan fs config activity = scan fs' config activity) := by
  obtain ⟨last, hsteps, hrest⟩ := ScanState.exists_rest fs config p.selection (p.firstState activity)
  refine ⟨ScanState.wellFounded_step? fs config p.selection, ⟨last, hsteps, hrest, run_of_steps h hsteps hrest⟩,
    fun s hs => ?_, fun fs' hkind hcanonical hread hlist =>
      scan_congr_entered hkind hcanonical hread hlist activity⟩
  rw [← (prepare_eq_ok h).2.1]
  have hentered : ∀ {depth directory}, s.enters? = some (depth, directory) →
      Entered fs config p.selection.root depth directory := ScanState.entered_of_enters? hs
  refine ⟨fun depth directory henters => ⟨(hentered henters).depth_le, hentered henters⟩,
    fun depth directory hlists => ?_, fun fs' hkind hread hlist => s.step?_congr hkind hread hlist⟩
  obtain ⟨henters, hdepth⟩ := Option.filter_eq_some_iff.mp hlists
  have hdepth : depth ≤ config.maxDepth := of_decide_eq_true hdepth
  exact ⟨hdepth, hentered henters, fun hlawful => (hentered henters).not_behindLink hlawful hdepth⟩

end

/-- Every directory lists a directory of its own kind, and a link that leads back to a directory. -/
def loopView : FileSystem where
  kind _ := .ok .directory
  list _ := .ok ([⟨Utf8.bytes "again", .ok .directory⟩, ⟨Utf8.bytes "link", .ok .link⟩].map .ok)
  canonical p := .ok p
  read _ := .error .isDirectory

/-- A scan of it that goes down one level. -/
def loopConfig : Config := { Config.ofRoot (.ofString "/r") with maxDepth := 1 }

theorem loopView_isLawful : loopView.IsLawful := by
  intro directory entries hlist
  cases hlist
  exact ⟨by decide, by simp; decide⟩

/-- The scan turns back two levels down, one level too deep, and does not follow the link. -/
theorem walk_loopView :
    Walk.walk loopView loopConfig 2 0 (.ofString "/r") =
      [.listed 0 (.ofString "/r"), .listed 1 (.ofString "/r/again"),
       .trouble (.depthLimit 1 (.ofString "/r/again/again"))] := by
  have hagain : Walk.walk loopView loopConfig 1 1 (.ofString "/r/again")
      = [.listed 1 (.ofString "/r/again"), .trouble (.depthLimit 1 (.ofString "/r/again/again"))] := by
    rw [Walk.walk_of_sorted rfl (by decide)]
    rfl
  rw [Walk.walk_of_sorted rfl (by decide)]
  show .listed 0 (.ofString "/r") :: (Walk.walk loopView loopConfig 1 1 (.ofString "/r/again") ++ []) = _
  rw [hagain]
  rfl

theorem scan_ends_loopView :
    prepare loopView loopConfig = .ok ⟨⟨none, .ofString "/r"⟩, .directory⟩ ∧ loopView.IsLawful ∧
    (∃ s, ScanState.Steps loopView loopConfig ⟨none, .ofString "/r"⟩
        (Prepared.firstState ⟨⟨none, .ofString "/r"⟩, .directory⟩ .zero) s ∧
      s.step? loopView loopConfig ⟨none, .ofString "/r"⟩ = none ∧
      s.run? = some ⟨.ok ⟨.empty, 0, 1⟩, .zero,
        [(Trouble.depthLimit 1 (.ofString "/r/again/again")).record], []⟩) ∧
    BehindLink loopView loopConfig (.ofString "/r") (.ofString "/r/link/again") ∧
    (∀ s, ScanState.Steps loopView loopConfig ⟨none, .ofString "/r"⟩
        (Prepared.firstState ⟨⟨none, .ofString "/r"⟩, .directory⟩ .zero) s →
      ∀ depth, s.lists? loopConfig ≠ some (depth, .ofString "/r/link/again")) := by
  have hprepared : prepare loopView loopConfig = .ok ⟨⟨none, .ofString "/r"⟩, .directory⟩ := rfl
  have hscan : scan loopView loopConfig .zero = ⟨.ok ⟨.empty, 0, 1⟩, .zero,
      [(Trouble.depthLimit 1 (.ofString "/r/again/again")).record], []⟩ := by
    show ScanRun.ofBooks (Books.takeAll loopView loopConfig ⟨none, .ofString "/r"⟩ (.start .zero)
      (Walk.walk loopView loopConfig 2 0 (.ofString "/r"))) = _
    rw [walk_loopView]
    rfl
  have hbehind : BehindLink loopView loopConfig (.ofString "/r") (.ofString "/r/link/again") := by
    refine ⟨0, .ofString "/r", _, ⟨Utf8.bytes "link", .ok .link⟩, .root, Nat.zero_le _, rfl, ?_, rfl,
      Or.inr ⟨Utf8.bytes "again", by decide, [], rfl, Or.inl rfl⟩⟩
    exact List.mem_map_of_mem (List.mem_cons_of_mem _ List.mem_cons_self)
  obtain ⟨_, ⟨s, hsteps, hrest, hrun⟩, hsafe, _⟩ := scan_ends hprepared .zero
  refine ⟨hprepared, loopView_isLawful, ⟨s, hsteps, hrest, hscan ▸ hrun⟩, hbehind, ?_⟩
  intro s hs depth hlists
  obtain ⟨_, hlisted, _⟩ := hsafe s hs
  exact (hlisted depth _ hlists).2.2 loopView_isLawful hbehind

end LineCensus
