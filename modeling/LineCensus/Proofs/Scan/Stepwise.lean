import LineCensus.Proofs.Scan.Accounts
import Mathlib.Logic.Relation

/-!
# `Proofs.Scan.Stepwise` — a scan, step by step

`Walk.walk` recurses on the levels that are left and lists events, and `Books.takeAll` enters them into the
accounts afterwards. A program does both at once. It keeps the tasks that it has not done yet, the innermost
first; it compares the depth of a directory with the limit when it comes to enter it; and it makes its entries
when it comes across something. `Task.perform` is one such step. Nothing in it counts levels or steps, so
whether the steps come to an end is not settled beforehand.

## Contents
- `Task`, `ScanState` and `ScanState.step?`, one step; `Task.perform_running`, all that a step can do.
- `ScanState.Steps`, any number of steps.
- `Task.events`, what a task comes to in a walk; `ScanState.outlook`, what a state comes to, which no step
  changes (`Steps.outlook_eq`).
- `Prepared.firstState`, where a scan begins, and `run_of_steps`: wherever its steps end, they have come to what
  the scan leaves behind.
-/

namespace LineCensus

/-! ## Tasks and states -/

/-- What a scan has to do. -/
inductive Task where
  /-- Enter a directory at a depth. -/
  | enter (depth : Nat) (directory : Path)
  /-- Go on with a directory at a depth, of which these entries are left. -/
  | remaining (depth : Nat) (directory : Path) (left : List Entry)
  /-- Consider a file. -/
  | file (path : Path)

/-- A scan under way, with the innermost task first, or a scan that an error has stopped: then no task is
    pending any more. -/
inductive ScanState where
  | running (pending : List Task) (books : Books)
  | stopped (books : Books) (error : ScanError)

/-- Enter troubles, one after another. -/
def Books.passAll (b : Books) (ts : List Trouble) : Books := ts.foldl Books.pass b

/-- The troubles of the entries of a listing that could not be read. -/
def Walk.failures (directory : Path) (entries : List (Except OsError Entry)) : List Trouble :=
  entries.filterMap fun e =>
    match e with
    | .ok _ => none
    | .error error => some (.entry directory error)

namespace Entry

/-- The trouble with an entry, if it cannot be told what it is. -/
def trouble? (directory : Path) (entry : Entry) : Option Trouble :=
  match entry.kind with
  | .error error => some (.entryKind (directory.join entry.name) error)
  | .ok _ => none

/-- What an entry of a directory at a depth gives a scan to do. -/
def task? (fs : FileSystem) (config : Config) (depth : Nat) (directory : Path) (entry : Entry) :
    Option Task :=
  let path := directory.join entry.name
  match entry.kind with
  | .error _ => none
  | .ok .directory =>
    if config.nonRecursive || config.excludes entry.name then none else some (.enter (depth + 1) path)
  | .ok .file => some (.file path)
  | .ok .link => if fs.isFile path then some (.file path) else none
  | .ok .other => none

end Entry

/-! ## One step -/

/-- Do the innermost task, with the others and the accounts given. -/
def Task.perform (fs : FileSystem) (config : Config) (selection : Selection) (others : List Task)
    (b : Books) : Task → ScanState
  | .enter depth directory =>
    if config.maxDepth < depth then .running others (b.pass (.depthLimit config.maxDepth directory))
    else
      match fs.list directory with
      | .error error => .running others (b.pass (.directory directory error))
      | .ok entries =>
        .running (.remaining depth directory (Walk.sortedEntries entries) :: others)
          (b.passAll (Walk.failures directory entries))
  | .remaining _ _ [] => .running others b
  | .remaining depth directory (entry :: left) =>
    .running ((entry.task? fs config depth directory).toList ++ .remaining depth directory left :: others)
      (b.passAll (entry.trouble? directory).toList)
  | .file path =>
    if selection.considers path then
      if config.maxEntries < b.considered + 1 then .stopped b (.tooManyEntries config.maxEntries)
      else .running others (b.examine fs config.verbose path)
    else .running others b

namespace ScanState

/-- One step; there is none if nothing is pending. -/
def step? (fs : FileSystem) (config : Config) (selection : Selection) : ScanState → Option ScanState
  | .running (task :: others) b => some (task.perform fs config selection others b)
  | .running [] _ => none
  | .stopped _ _ => none

/-- Any number of steps. -/
def Steps (fs : FileSystem) (config : Config) (selection : Selection) : ScanState → ScanState → Prop :=
  Relation.ReflTransGen fun s s' => s.step? fs config selection = some s'

/-- What a scan leaves behind in this state, if it makes no step any more. -/
def run? : ScanState → Option ScanRun
  | .running [] b => some (.ofBooks (b, none))
  | .running (_ :: _) _ => none
  | .stopped b error => some (.ofBooks (b, some error))

end ScanState

section

variable {fs : FileSystem} {config : Config} {selection : Selection}

/-- **All that a step can do**: the task makes way for others and the tasks behind it stay as they are; or it
    was a file one too many, and the scan is stopped. -/
theorem Task.perform_running (task : Task) (others : List Task) (b : Books) :
    (∃ more b', ∀ others, task.perform fs config selection others b = .running (more ++ others) b') ∨
    (∃ path, task = .file path ∧ selection.considers path = true ∧ config.maxEntries < b.considered + 1 ∧
      task.perform fs config selection others b = .stopped b (.tooManyEntries config.maxEntries)) := by
  cases task with
  | enter depth directory =>
    by_cases hdeep : config.maxDepth < depth
    · exact Or.inl ⟨[], _, fun _ => if_pos hdeep⟩
    · cases hlist : fs.list directory with
      | error error => exact Or.inl ⟨[], _, fun _ => by simp only [perform, if_neg hdeep, hlist]; rfl⟩
      | ok entries =>
        refine Or.inl ⟨[.remaining depth directory (Walk.sortedEntries entries)],
          b.passAll (Walk.failures directory entries), fun _ => ?_⟩
        simp only [perform, if_neg hdeep, hlist]
        rfl
  | remaining depth directory left =>
    cases left with
    | nil => exact Or.inl ⟨[], b, fun _ => rfl⟩
    | cons entry left =>
      refine Or.inl ⟨(entry.task? fs config depth directory).toList ++ [.remaining depth directory left],
        b.passAll (entry.trouble? directory).toList, fun _ => ?_⟩
      rw [List.append_assoc]
      rfl
  | file path =>
    by_cases hc : selection.considers path = true
    · by_cases hm : config.maxEntries < b.considered + 1
      · exact Or.inr ⟨path, rfl, hc, hm, by simp only [perform, hc, hm, if_true]⟩
      · exact Or.inl ⟨[], _, fun _ => by simp only [perform, hc, hm, if_true, if_false]; rfl⟩
    · exact Or.inl ⟨[], b, fun _ => by rw [perform, if_neg hc]; rfl⟩

/-! ## What is ahead -/

/-- The events that a task comes to in a walk. -/
def Task.events (fs : FileSystem) (config : Config) : Task → List Event
  | .enter depth directory => Walk.walk fs config (config.maxDepth + 1 - depth) depth directory
  | .remaining depth directory left =>
    left.flatMap (Walk.visit fs config (Walk.walk fs config (config.maxDepth - depth) (depth + 1)) directory)
  | .file path => [.file path]

/-- The accounts and the error that a state comes to, if what is pending is walked and then entered. -/
def ScanState.outlook (fs : FileSystem) (config : Config) (selection : Selection) :
    ScanState → Books × Option ScanError
  | .running pending b => b.takeAll fs config selection (pending.flatMap (Task.events fs config))
  | .stopped b error => (b, some error)

theorem Walk.entryTroubles_eq (directory : Path) (entries : List (Except OsError Entry)) :
    entryTroubles directory entries = (failures directory entries).map .trouble := by
  rw [failures, List.map_filterMap]
  refine List.filterMap_congr fun e _ => ?_
  cases e with
  | ok entry => rfl
  | error error => rfl

theorem Books.takeAll_troubles (b : Books) (ts : List Trouble) (events : List Event) :
    b.takeAll fs config selection (ts.map .trouble ++ events)
      = (b.passAll ts).takeAll fs config selection events := by
  induction ts generalizing b with
  | nil => rfl
  | cons t rest ih => exact ih (b.pass t)

/-- A visit comes to the trouble with its entry and to what the entry gives to do. -/
theorem Walk.visit_eq (depth : Nat) (directory : Path) (entry : Entry) :
    visit fs config (walk fs config (config.maxDepth - depth) (depth + 1)) directory entry
      = (entry.trouble? directory).toList.map .trouble
        ++ (entry.task? fs config depth directory).toList.flatMap (Task.events fs config) := by
  unfold visit Entry.trouble? Entry.task?
  cases hkind : entry.kind with
  | error error => rfl
  | ok kind =>
    cases kind with
    | directory =>
      by_cases hleft : (config.nonRecursive || config.excludes entry.name) = true
      · simp [hleft]
      · have hlevels : config.maxDepth + 1 - (depth + 1) = config.maxDepth - depth := by omega
        simp [hleft, Task.events, hlevels]
    | file => rfl
    | link =>
      by_cases hleads : fs.isFile (directory.join entry.name) = true
      · simp [hleads, Task.events]
      · simp [hleads]
    | other => rfl

/-- **A step does not change what is ahead.** -/
theorem Task.outlook_perform (task : Task) (others : List Task) (b : Books) :
    (task.perform fs config selection others b).outlook fs config selection
      = (ScanState.running (task :: others) b).outlook fs config selection := by
  show _ = b.takeAll fs config selection (task.events fs config ++ others.flatMap (Task.events fs config))
  cases task with
  | enter depth directory =>
    by_cases hdeep : config.maxDepth < depth
    · have hlevels : config.maxDepth + 1 - depth = 0 := by omega
      simp only [perform, if_pos hdeep, events, hlevels]
      rfl
    · have hlevels : config.maxDepth + 1 - depth = config.maxDepth - depth + 1 := by omega
      cases hlist : fs.list directory with
      | error error =>
        simp only [perform, if_neg hdeep, hlist, events, hlevels, Walk.walk]
        rfl
      | ok entries =>
        simp only [perform, if_neg hdeep, hlist, events, hlevels, Walk.walk, Walk.entryTroubles_eq]
        rw [List.cons_append, List.cons_append, List.append_assoc, Books.takeAll, Books.takeAll_troubles]
        rfl
  | remaining depth directory left =>
    cases left with
    | nil => rfl
    | cons entry left =>
      -- the entry is visited first, and the others are left to the tasks behind it
      simp only [perform, events, List.flatMap_cons, Walk.visit_eq, ScanState.outlook, List.flatMap_append,
        List.append_assoc, Books.takeAll_troubles]
  | file path =>
    by_cases hc : selection.considers path = true
    · by_cases hm : config.maxEntries < b.considered + 1
      · simp only [perform, events, hc, hm, if_true, List.cons_append, List.nil_append, Books.takeAll]
        rfl
      · simp only [perform, events, hc, hm, if_true, if_false, List.cons_append, List.nil_append,
          Books.takeAll]
        rfl
    · simp only [perform, events, if_neg hc, List.cons_append, List.nil_append, Books.takeAll]
      rfl

namespace ScanState

/-- A step does the innermost of the tasks that are pending. -/
theorem exists_task_of_step? {s s' : ScanState} (h : s.step? fs config selection = some s') :
    ∃ task others b, s = .running (task :: others) b ∧ s' = task.perform fs config selection others b := by
  cases s with
  | running pending b =>
    cases pending with
    | nil => cases h
    | cons task others =>
      cases h
      exact ⟨task, others, b, rfl, rfl⟩
  | stopped b error => cases h

theorem outlook_eq_of_step? {s s' : ScanState} (h : s.step? fs config selection = some s') :
    s'.outlook fs config selection = s.outlook fs config selection := by
  obtain ⟨task, others, b, rfl, rfl⟩ := exists_task_of_step? h
  exact task.outlook_perform others b

/-- **Nor do any number of steps.** -/
theorem Steps.outlook_eq {s s' : ScanState} (h : Steps fs config selection s s') :
    s'.outlook fs config selection = s.outlook fs config selection := by
  induction h with
  | refl => rfl
  | tail _ hstep ih => rw [outlook_eq_of_step? hstep, ih]

/-- A state in which nothing is pending is what it comes to. -/
theorem run?_eq_of_rest {s : ScanState} (h : s.step? fs config selection = none) :
    s.run? = some (.ofBooks (s.outlook fs config selection)) := by
  cases s with
  | running pending b =>
    cases pending with
    | nil => rfl
    | cons task others => cases h
  | stopped b error => rfl

end ScanState

/-! ## A whole scan -/

/-- The task that a scan begins with, if its root gives it one. -/
def Prepared.task? (p : Prepared) : Option Task :=
  match p.kind with
  | .file => some (.file p.selection.root)
  | .directory => some (.enter 0 p.selection.root)
  | .link => none
  | .other => none

/-- Where a scan begins, with the counters so far. -/
def Prepared.firstState (p : Prepared) (activity : Activity) : ScanState :=
  .running p.task?.toList (.start activity)

theorem Prepared.events_task? (p : Prepared) :
    p.task?.toList.flatMap (Task.events fs config) = p.events fs config := by
  unfold Prepared.task? Prepared.events Walk.eventsOfRoot
  cases p.kind with
  | file => rfl
  | directory => exact List.append_nil _
  | link => rfl
  | other => rfl

/-- **Wherever the steps of a scan end, they have come to what the scan leaves behind.** -/
theorem run_of_steps {p : Prepared} (h : prepare fs config = .ok p) {activity : Activity} {s : ScanState}
    (hsteps : ScanState.Steps fs config p.selection (p.firstState activity) s)
    (hrest : s.step? fs config p.selection = none) : s.run? = some (scan fs config activity) := by
  have hahead : (p.firstState activity).outlook fs config p.selection
      = Books.takeAll fs config p.selection (.start activity) (p.events fs config) := by
    rw [← p.events_task?]
    rfl
  rw [ScanState.run?_eq_of_rest hrest, hsteps.outlook_eq, hahead]
  unfold scan
  rw [h]

end

end LineCensus
