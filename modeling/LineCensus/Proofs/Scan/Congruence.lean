import LineCensus.Proofs.Scan.Accounts

/-!
# `Proofs.Scan.Congruence` — what a scan depends on

A walk looks at listings and at what is a file, and a scan reads the files that it examines. So two views may
differ in the order in which they list a directory, and in the content of every file that is not examined,
without any difference to a scan.

## Contents
- `FileSystem.ListsAlike`, two views that list the same as far as a walk can tell.
- `Walk.map_walk_congr`, for two views, two settings and two depths at once; `Walk.walk_congr`, for two views.
- `candidates_congr`, for the candidates; `scan_congr_walk`, for two scans; `scan_congr`, for two views.
-/

namespace LineCensus

/-- As far as a walk can tell, the two views list each directory alike: with the same entries in the order
    of their names and the same troubles, or with the same failure. -/
def FileSystem.ListsAlike (fs fs' : FileSystem) : Prop :=
  ∀ p,
    (∃ error, fs.list p = .error error ∧ fs'.list p = .error error) ∨
    (∃ entries entries', fs.list p = .ok entries ∧ fs'.list p = .ok entries' ∧
      Walk.sortedEntries entries = Walk.sortedEntries entries' ∧
      Walk.entryTroubles p entries = Walk.entryTroubles p entries')

theorem FileSystem.ListsAlike.of_eq {fs fs' : FileSystem} (h : ∀ p, fs.list p = fs'.list p) :
    fs.ListsAlike fs' := by
  intro p
  cases hlist : fs.list p with
  | error error => exact Or.inl ⟨error, rfl, by rw [← h, hlist]⟩
  | ok entries => exact Or.inr ⟨entries, entries, rfl, by rw [← h, hlist], rfl, rfl⟩

theorem FileSystem.isFile_congr {fs fs' : FileSystem} {p : Path} (h : fs.kind p = fs'.kind p) :
    fs.isFile p = fs'.isFile p := by
  unfold isFile
  rw [h]

namespace Walk

variable {fs fs' : FileSystem} {config config' : Config} {f : Event → Event}

theorem flatMap_filter {β γ : Type} (p : β → Bool) (f : β → List γ) (l : List β) :
    (l.filter p).flatMap f = l.flatMap fun x => if p x then f x else [] := by
  induction l with
  | nil => rfl
  | cons x rest ih =>
    by_cases hx : p x = true
    · rw [List.filter_cons_of_pos hx, List.flatMap_cons, List.flatMap_cons, ih, if_pos hx]
    · rw [List.filter_cons_of_neg hx, List.flatMap_cons, ih, if_neg hx, List.nil_append]

/-! ## A walk -/

/-- What a visit depends on: of what is below, only if the entry may be entered. -/
theorem map_visit_congr {enter enter' : Path → List Event} {directory : Path} {entry : Entry}
    (hfile : fs.isFile (directory.join entry.name) = fs'.isFile (directory.join entry.name))
    (hrec : config.nonRecursive = config'.nonRecursive)
    (hexcludes : ∀ name, config.excludes name = config'.excludes name)
    (henter : entry.MayBeEntered config →
      (enter (directory.join entry.name)).map f = (enter' (directory.join entry.name)).map f) :
    (visit fs config enter directory entry).map f = (visit fs' config' enter' directory entry).map f := by
  by_cases hdir : entry.MayBeEntered config
  · have hdir' : entry.MayBeEntered config' := by
      obtain ⟨hkind, hrecursive, hexcluded⟩ := hdir
      exact ⟨hkind, hrec ▸ hrecursive, hexcludes entry.name ▸ hexcluded⟩
    rw [visit_of_entered hdir, visit_of_entered hdir']
    exact henter hdir
  · cases h : entry.kind with
    | error error => simp only [visit, h]
    | ok kind =>
      cases kind with
      | file => simp only [visit, h]
      | directory =>
        have hleft : (config.nonRecursive || config.excludes entry.name) = true := by
          by_contra hnot
          rw [Bool.not_eq_true, Bool.or_eq_false_iff] at hnot
          exact hdir ⟨h, hnot⟩
        have hleft' : (config'.nonRecursive || config'.excludes entry.name) = true := by
          rw [← hrec, ← hexcludes]
          exact hleft
        simp only [visit, h, if_pos hleft, if_pos hleft']
      | link => simp only [visit, h, hfile]
      | other => simp only [visit, h]

theorem visit_congr {enter enter' : Path → List Event} {directory : Path} {entry : Entry}
    (hfile : fs.isFile (directory.join entry.name) = fs'.isFile (directory.join entry.name))
    (hrec : config.nonRecursive = config'.nonRecursive)
    (hexcludes : ∀ name, config.excludes name = config'.excludes name)
    (henter : entry.MayBeEntered config →
      enter (directory.join entry.name) = enter' (directory.join entry.name)) :
    visit fs config enter directory entry = visit fs' config' enter' directory entry := by
  have h := map_visit_congr (f := id) hfile hrec hexcludes fun hdir => congrArg (List.map id) (henter hdir)
  simpa only [List.map_id] using h

/-- **What a walk depends on.** `f` forgets of an event what may be different: the limit, and a depth that is
    `k` greater in the second walk. -/
theorem map_walk_congr {k : Nat} (hfile : ∀ p, fs.isFile p = fs'.isFile p) (hlist : fs.ListsAlike fs')
    (hrec : config.nonRecursive = config'.nonRecursive)
    (hexcludes : ∀ name, config.excludes name = config'.excludes name)
    (hlimit : ∀ p, f (.trouble (.depthLimit config.maxDepth p))
      = f (.trouble (.depthLimit config'.maxDepth p)))
    (hlisted : ∀ depth p, f (.listed depth p) = f (.listed (depth + k) p))
    {levels depth : Nat} {directory : Path} :
    (walk fs config levels depth directory).map f
      = (walk fs' config' levels (depth + k) directory).map f := by
  induction levels generalizing depth directory with
  | zero => exact congrArg ([·]) (hlimit directory)
  | succ levels ih =>
    rcases hlist directory with
      ⟨error, herror, herror'⟩ | ⟨entries, entries', hok, hok', hsorted, htroubles⟩
    · simp only [walk, herror, herror']
    · have henter : ∀ p, (walk fs config levels (depth + 1) p).map f
          = (walk fs' config' levels (depth + k + 1) p).map f := by
        intro p
        rw [ih, Nat.add_right_comm]
      have hvisit : ∀ entry, (visit fs config (walk fs config levels (depth + 1)) directory entry).map f
          = (visit fs' config' (walk fs' config' levels (depth + k + 1)) directory entry).map f :=
        fun _ => map_visit_congr (hfile _) hrec hexcludes fun _ => henter _
      simp only [walk, hok, hok', hsorted, htroubles, List.map_append, List.map_cons, List.map_flatMap,
        hlisted depth directory]
      rw [funext hvisit]

/-- Two views that list alike and agree on what is a file are walked alike, with settings that agree on the
    directories to enter. -/
theorem walk_congr (hfile : ∀ p, fs.isFile p = fs'.isFile p) (hlist : fs.ListsAlike fs')
    (hrec : config.nonRecursive = config'.nonRecursive)
    (hexcludes : ∀ name, config.excludes name = config'.excludes name)
    (hlimit : config.maxDepth = config'.maxDepth) {levels depth : Nat} {directory : Path} :
    walk fs config levels depth directory = walk fs' config' levels depth directory := by
  have h : (walk fs config levels depth directory).map id
      = (walk fs' config' levels (depth + 0) directory).map id :=
    map_walk_congr hfile hlist hrec hexcludes (fun _ => by rw [hlimit]) (fun _ _ => rfl)
  simpa only [List.map_id, Nat.add_zero] using h

end Walk

/-! ## The files that are examined -/

namespace Books

variable {fs fs' : FileSystem} {config : Config} {selection : Selection}

/-- An analysis asks for the content of its file alone. -/
theorem examine_congr {path : Path} (h : fs.read path = fs'.read path) (b : Books) (verbose : Bool) :
    b.examine fs verbose path = b.examine fs' verbose path := by
  have hanalyze : fs.analyze path = fs'.analyze path := by
    unfold FileSystem.analyze FileSystem.readLines
    rw [h]
  unfold examine
  rw [hanalyze]

/-- Of the files, those that are examined matter. -/
theorem takeAll_congr {b : Books} {events : List Event}
    (hread : ∀ path ∈ (consideredFiles selection events).take (config.maxEntries - b.considered),
      fs.read path = fs'.read path) :
    takeAll fs config selection b events = takeAll fs' config selection b events := by
  induction events generalizing b with
  | nil => rfl
  | cons event rest ih =>
    cases event with
    | listed depth directory => exact ih hread
    | trouble t => exact @ih (b.pass t) hread
    | file path =>
      rw [takeAll, takeAll]
      by_cases hc : selection.considers path = true
      · rw [if_pos hc, if_pos hc]
        by_cases hm : config.maxEntries < b.considered + 1
        · rw [if_pos hm, if_pos hm]
        · rw [if_neg hm, if_neg hm]
          rw [consideredFiles_file hc, show config.maxEntries - b.considered
              = (config.maxEntries - (b.considered + 1)) + 1 by omega, List.take_succ_cons] at hread
          obtain ⟨hpath, hrest⟩ := List.forall_mem_cons.mp hread
          rw [examine_congr hpath]
          exact ih (by rw [examine_considered]; exact hrest)
      · rw [if_neg hc, if_neg hc]
        rw [consideredFiles_ignored hc] at hread
        exact ih hread

/-- Of the settings, the limit and the reports matter. -/
theorem takeAll_congr_settings {config' : Config} (hmax : config.maxEntries = config'.maxEntries)
    (hverbose : config.verbose = config'.verbose) (b : Books) (events : List Event) :
    takeAll fs config selection b events = takeAll fs config' selection b events := by
  rw [takeAll_eq, takeAll_eq, hmax, hverbose]

end Books

/-! ## A whole scan -/

variable {fs fs' : FileSystem} {config config' : Config}

/-- The events of two scans of the same root are the same if the walks of a directory are. -/
theorem Prepared.events_congr_of_walk (p : Prepared)
    (hwalk : p.kind = .directory → Walk.walk fs config (config.maxDepth + 1) 0 p.selection.root
      = Walk.walk fs' config' (config'.maxDepth + 1) 0 p.selection.root) :
    p.events fs config = p.events fs' config' := by
  unfold events
  cases hkind : p.kind with
  | file => rfl
  | directory => exact hwalk hkind
  | link => rfl
  | other => rfl

/-- Of the settings, the events depend on which directories are entered and how deep. -/
theorem Prepared.events_congr_settings (p : Prepared)
    (hrec : config.nonRecursive = config'.nonRecursive)
    (hexcludes : ∀ name, config.excludes name = config'.excludes name)
    (hlimit : config.maxDepth = config'.maxDepth) : p.events fs config = p.events fs config' := by
  refine p.events_congr_of_walk fun _ => ?_
  rw [hlimit]
  exact Walk.walk_congr (fun _ => rfl) (.of_eq fun _ => rfl) hrec hexcludes hlimit

/-- Two scans that are prepared alike and come across the same events have the same candidates. -/
theorem candidates_congr (hprepare : prepare fs config = prepare fs' config')
    (hevents : ∀ p, prepare fs config = .ok p → p.events fs config = p.events fs' config') :
    candidates fs config = candidates fs' config' := by
  cases hp : prepare fs config with
  | error error => rw [candidates_of_error hp, candidates_of_error (hprepare.symm.trans hp)]
  | ok p => rw [candidates_of_prepared hp, candidates_of_prepared (hprepare.symm.trans hp), hevents p hp]

/-- **What a scan depends on.** Two scans that are prepared alike and walk alike are the same, if the files that
    are examined have the same content, and the limit and the reports are set alike. -/
theorem scan_congr_walk (hprepare : prepare fs config = prepare fs' config')
    (hmax : config.maxEntries = config'.maxEntries) (hverbose : config.verbose = config'.verbose)
    (hwalk : ∀ p, prepare fs config = .ok p → p.kind = .directory →
      Walk.walk fs config (config.maxDepth + 1) 0 p.selection.root
        = Walk.walk fs' config' (config'.maxDepth + 1) 0 p.selection.root)
    (hread : ∀ path ∈ (candidates fs config).take config.maxEntries, fs.read path = fs'.read path)
    (activity : Activity) : scan fs config activity = scan fs' config' activity := by
  unfold scan
  rw [← hprepare]
  cases hp : prepare fs config with
  | error error => rfl
  | ok p =>
    rw [candidates_of_prepared hp] at hread
    have hevents := p.events_congr_of_walk (hwalk p hp)
    have hbooks : Books.takeAll fs config p.selection (.start activity) (p.events fs config)
        = Books.takeAll fs' config' p.selection (.start activity) (p.events fs' config') := by
      rw [← hevents]
      exact (Books.takeAll_congr (b := .start activity) hread).trans
        (Books.takeAll_congr_settings hmax hverbose ..)
    exact congrArg ScanRun.ofBooks hbooks

theorem prepare_congr (hkind : ∀ p, fs.kind p = fs'.kind p)
    (hcanonical : ∀ p, fs.canonical p = fs'.canonical p) : prepare fs config = prepare fs' config := by
  unfold prepare FileSystem.rootKind FileSystem.walkRoot
  rw [hkind, hcanonical]

/-- A scan depends on what its walk looks at and on the content of the files that it examines. -/
theorem scan_congr (hkind : ∀ p, fs.kind p = fs'.kind p)
    (hcanonical : ∀ p, fs.canonical p = fs'.canonical p) (hlist : fs.ListsAlike fs')
    (hread : ∀ path ∈ (candidates fs config).take config.maxEntries, fs.read path = fs'.read path)
    (activity : Activity) : scan fs config activity = scan fs' config activity := by
  refine scan_congr_walk (prepare_congr hkind hcanonical) rfl rfl (fun p _ _ => ?_) hread activity
  exact Walk.walk_congr (fun p => FileSystem.isFile_congr (hkind p)) hlist rfl (fun _ => rfl) rfl

end LineCensus
