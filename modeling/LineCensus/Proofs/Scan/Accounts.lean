import LineCensus.Proofs.Scan.Candidates
import LineCensus.Proofs.Sums

/-!
# `Proofs.Scan.Accounts` — the accounts of a scan in closed form

`Books.takeAll` enters one event after another and stops at the file that is one too many. Here the two
matters are taken apart. `Books.enter` enters an event and knows no limit; `Books.withinLimit` cuts the
events where the limit stops them. `takeAll_eq` joins the two again, and `enterAll_eq` says what the
accounts are after any events, as sums and lists over these events.

## Contents
- What one file comes to: `FileSystem.effort`, `skipReason?` and `report?`, with `examine_eq`.
- `Books.enterAll` with `enterAll_eq`.
- `Books.withinLimit` with `takeAll_eq`.
- `candidates`, `eventsMet` and `troublesMet`, what a scan looks at and comes across if nothing stops it;
  `scan_of_prepared`, `scan_eq_takeAll` and `scanTraced_eq`, the scan in their terms.
-/

namespace LineCensus

/-! ## What one file comes to -/

/-- The log record of a file that is skipped. -/
def SkipReason.record (reason : SkipReason) : LogRecord := ⟨.debug, "skipping " ++ reason.message⟩

/-- The log record of a part of the tree that is passed over. -/
def Trouble.record (t : Trouble) : LogRecord := ⟨.warn, t.message⟩

namespace FileSystem

/-- What a file adds to the running counters. -/
def effort (fs : FileSystem) (path : Path) : Activity :=
  match fs.analyze path with
  | .ok (_, n) => Activity.zero.count n.total
  | .error reason => Activity.zero.skip reason

/-- Why a file is skipped, if it is. -/
def skipReason? (fs : FileSystem) (path : Path) : Option SkipReason :=
  match fs.analyze path with
  | .ok _ => none
  | .error reason => some reason

/-- The block that is printed for a file, if it is counted. -/
def report? (fs : FileSystem) (path : Path) : Option FileReport :=
  match fs.analyze path with
  | .ok (language, n) => some ⟨path, language.name, n⟩
  | .error _ => none

end FileSystem

namespace Books

variable {fs : FileSystem} {config : Config} {selection : Selection} {verbose : Bool}

/-- **The entries for one file**: each account grows by what the file comes to. -/
theorem examine_eq (b : Books) (path : Path) :
    b.examine fs verbose path =
      { outcome :=
          { b.outcome with
            tally := b.outcome.tally.recordAll (fs.counted? path).toList
            unreadable := b.outcome.unreadable + if fs.FailsToRead path then 1 else 0 }
        activity := b.activity + fs.effort path
        log := b.log ++ ((fs.skipReason? path).map SkipReason.record).toList
        printed := b.printed ++ if verbose then (fs.report? path).toList else []
        considered := b.considered + 1 } := by
  rw [← examine_outcome b verbose path]
  unfold examine FileSystem.effort FileSystem.skipReason? FileSystem.report?
  cases fs.analyze path with
  | ok found =>
    obtain ⟨language, n⟩ := found
    cases verbose <;> simp [count, ← Activity.count_eq_add]
  | error reason =>
    cases verbose <;> simp [skip, SkipReason.record, ← Activity.skip_eq_add]

/-! ## All events, without a limit -/

/-- The entries for one event. A file counts if the selection considers it. -/
def enter (fs : FileSystem) (verbose : Bool) (selection : Selection) (b : Books) : Event → Books
  | .listed _ _ => b
  | .trouble t => b.pass t
  | .file path => if selection.considers path then b.examine fs verbose path else b

/-- The accounts after all the events. -/
def enterAll (fs : FileSystem) (verbose : Bool) (selection : Selection) (b : Books)
    (events : List Event) : Books :=
  events.foldl (enter fs verbose selection) b

/-- What is logged for an event. -/
def logged (fs : FileSystem) (selection : Selection) : Event → List LogRecord
  | .listed _ _ => []
  | .trouble t => [t.record]
  | .file path =>
    if selection.considers path then ((fs.skipReason? path).map SkipReason.record).toList else []

end Books

/-- The trouble of an event, if it is one. -/
def Walk.trouble? : Event → Option Trouble
  | .trouble t => some t
  | .listed _ _ => none
  | .file _ => none

/-- The troubles among the events, in order. -/
def Walk.troublesOf (events : List Event) : List Trouble := events.filterMap trouble?

namespace Walk

theorem eq_trouble_of_trouble? {event : Event} {t : Trouble} (h : trouble? event = some t) :
    event = .trouble t := by
  cases event with
  | listed depth directory => cases h
  | file path => cases h
  | trouble t => cases h; rfl

theorem mem_troublesOf {t : Trouble} {events : List Event} : t ∈ troublesOf events ↔ .trouble t ∈ events := by
  unfold troublesOf
  rw [List.mem_filterMap]
  constructor
  · rintro ⟨event, hevent, ht⟩
    rw [← eq_trouble_of_trouble? ht]
    exact hevent
  · intro h
    exact ⟨.trouble t, h, rfl⟩

theorem filter_troublesOf (p : Event → Bool) (events : List Event) :
    (troublesOf events).filter (fun t => p (.trouble t)) = troublesOf (events.filter p) := by
  unfold troublesOf
  rw [List.filter_filterMap, List.filterMap_filter]
  refine List.filterMap_congr fun event _ => ?_
  cases event with
  | listed depth directory => exact (ite_self none).symm
  | file path => exact (ite_self none).symm
  | trouble t => rfl

end Walk

namespace Books

variable {fs : FileSystem} {config : Config} {selection : Selection} {verbose : Bool}

/-- **The accounts after any events.** The tally, the counters and what is printed depend on the files that
    are considered; the number of troubles on the troubles; the log on both, in their order. -/
theorem enterAll_eq (b : Books) (events : List Event) :
    enterAll fs verbose selection b events =
      let files := consideredFiles selection events
      { outcome :=
          { tally := b.outcome.tally.recordAll (files.filterMap fs.counted?)
            unreadable := b.outcome.unreadable + files.countP (fs.FailsToRead ·)
            troubles := b.outcome.troubles + (Walk.troublesOf events).length }
        activity := b.activity + (files.map fs.effort).sum
        log := b.log ++ events.flatMap (logged fs selection)
        printed := b.printed ++ if verbose then files.filterMap fs.report? else []
        considered := b.considered + files.length } := by
  induction events generalizing b with
  | nil => cases verbose <;> simp [enterAll, consideredFiles, Walk.filesOf, Walk.troublesOf, Tally.recordAll]
  | cons event rest ih =>
    have hstep : enterAll fs verbose selection b (event :: rest)
        = enterAll fs verbose selection (enter fs verbose selection b event) rest := rfl
    rw [hstep, ih]
    cases event with
    | listed depth directory => rfl
    | trouble t =>
      have hfiles : consideredFiles selection (.trouble t :: rest) = consideredFiles selection rest := rfl
      have htroubles : Walk.troublesOf (.trouble t :: rest) = t :: Walk.troublesOf rest := rfl
      simp only [enter, pass, hfiles, htroubles, List.length_cons, List.flatMap_cons, logged,
        Trouble.record, List.append_assoc]
      rw [Nat.add_assoc, Nat.add_comm 1]
    | file path =>
      have htroubles : Walk.troublesOf (.file path :: rest) = Walk.troublesOf rest := rfl
      by_cases hc : selection.considers path = true
      · simp only [enter, hc, if_true, examine_eq, consideredFiles_file hc, htroubles,
          List.flatMap_cons, logged, List.length_cons, List.map_cons, List.sum_cons, List.countP_cons,
          filterMap_counted?_cons, Tally.recordAll_append, List.append_assoc, add_assoc,
          decide_eq_true_eq]
        cases verbose <;> cases hr : fs.report? path <;> simp [hr, Nat.add_comm]
      · simp only [enter, hc, if_false, consideredFiles_ignored hc, htroubles, List.flatMap_cons,
          logged, Bool.false_eq_true, List.nil_append]

/-! ## The limit -/

/-- The events up to the limit: those before the first file that is one too many, with room for so many
    files that are considered. -/
def withinLimit (selection : Selection) : Nat → List Event → List Event
  | _, [] => []
  | room, .listed depth directory :: rest => .listed depth directory :: withinLimit selection room rest
  | room, .trouble t :: rest => .trouble t :: withinLimit selection room rest
  | room, .file path :: rest =>
    if selection.considers path then
      match room with
      | 0 => []
      | room + 1 => .file path :: withinLimit selection room rest
    else .file path :: withinLimit selection room rest

/-- What is cut off starts with the file that is one too many, and nothing is cut off where the files
    considered fit. -/
theorem withinLimit_append (selection : Selection) (room : Nat) (events : List Event) :
    (consideredFiles selection events).length ≤ room ∧ withinLimit selection room events = events ∨
    room < (consideredFiles selection events).length ∧ ∃ path rest, selection.considers path = true ∧
      events = withinLimit selection room events ++ .file path :: rest := by
  induction events generalizing room with
  | nil => exact Or.inl ⟨Nat.zero_le _, rfl⟩
  | cons event rest ih =>
    -- an event that takes no room is kept in front of what is kept of the rest
    have hkeep : ∀ room, withinLimit selection room (event :: rest)
          = event :: withinLimit selection room rest →
        consideredFiles selection (event :: rest) = consideredFiles selection rest →
        (consideredFiles selection (event :: rest)).length ≤ room ∧
            withinLimit selection room (event :: rest) = event :: rest ∨
          room < (consideredFiles selection (event :: rest)).length ∧
            ∃ path more, selection.considers path = true ∧
              event :: rest = withinLimit selection room (event :: rest) ++ .file path :: more := by
      intro room hwithin hfiles
      rw [hwithin, hfiles]
      rcases ih room with ⟨hfits, hall⟩ | ⟨hover, path, more, hpath, hcut⟩
      · exact Or.inl ⟨hfits, by rw [hall]⟩
      · exact Or.inr ⟨hover, path, more, hpath, congrArg (event :: ·) hcut⟩
    cases event with
    | listed depth directory => exact hkeep room rfl rfl
    | trouble t => exact hkeep room rfl rfl
    | file path =>
      by_cases hc : selection.considers path = true
      · cases room with
        | zero =>
          refine Or.inr ⟨?_, path, rest, hc, ?_⟩
          · rw [consideredFiles_file hc]
            exact Nat.succ_pos _
          · simp only [withinLimit, hc, if_true, List.nil_append]
        | succ room =>
          have hwithin : withinLimit selection (room + 1) (.file path :: rest)
              = .file path :: withinLimit selection room rest := by
            simp only [withinLimit, hc, if_true]
          rw [hwithin, consideredFiles_file hc, List.length_cons]
          rcases ih room with ⟨hfits, hall⟩ | ⟨hover, other, more, hother, hcut⟩
          · exact Or.inl ⟨Nat.succ_le_succ hfits, by rw [hall]⟩
          · exact Or.inr ⟨Nat.succ_lt_succ hover, other, more, hother,
              congrArg (Event.file path :: ·) hcut⟩
      · exact hkeep room (by simp only [withinLimit, hc, Bool.false_eq_true, if_false])
          (consideredFiles_ignored hc rest)

theorem withinLimit_prefix (selection : Selection) (room : Nat) (events : List Event) :
    withinLimit selection room events <+: events := by
  rcases withinLimit_append selection room events with ⟨_, hall⟩ | ⟨_, path, rest, _, hcut⟩
  · exact ⟨[], by rw [hall, List.append_nil]⟩
  · exact ⟨.file path :: rest, hcut.symm⟩

/-- The files considered within the limit are the first ones. -/
theorem consideredFiles_withinLimit (selection : Selection) (room : Nat) (events : List Event) :
    consideredFiles selection (withinLimit selection room events)
      = (consideredFiles selection events).take room := by
  induction events generalizing room with
  | nil => exact List.take_nil.symm
  | cons event rest ih =>
    cases event with
    | listed depth directory => exact ih room
    | trouble t => exact ih room
    | file path =>
      by_cases hc : selection.considers path = true
      · rw [consideredFiles_file hc]
        cases room with
        | zero =>
          simp only [withinLimit, hc, if_true, List.take_zero]
          rfl
        | succ room =>
          simp only [withinLimit, hc, if_true]
          rw [consideredFiles_file hc, ih, List.take_succ_cons]
      · simp only [withinLimit, hc, Bool.false_eq_true, if_false]
        rw [consideredFiles_ignored hc, consideredFiles_ignored hc, ih]

/-- What comes after the file that is one too many does not matter. -/
theorem takeAll_append_of_error {b : Books} {events : List Event} {error : ScanError} (rest : List Event)
    (h : (takeAll fs config selection b events).2 = some error) :
    takeAll fs config selection b (events ++ rest) = takeAll fs config selection b events := by
  induction events generalizing b with
  | nil => cases h
  | cons event more ih =>
    cases event with
    | listed depth directory => exact ih h
    | trouble t => exact ih h
    | file path =>
      rw [takeAll] at h
      rw [List.cons_append, takeAll, takeAll]
      by_cases hc : selection.considers path = true
      · rw [if_pos hc] at h
        rw [if_pos hc, if_pos hc]
        by_cases hm : config.maxEntries < b.considered + 1
        · rw [if_pos hm, if_pos hm]
        · rw [if_neg hm] at h
          rw [if_neg hm, if_neg hm, ih h]
      · rw [if_neg hc] at h
        rw [if_neg hc, if_neg hc, ih h]

/-- **The limit cuts the events and does nothing else.** The accounts are those of the events within it, and
    there is an error exactly if it does not hold all files that are considered. -/
theorem takeAll_eq (b : Books) (events : List Event) :
    takeAll fs config selection b events =
      let room := config.maxEntries - b.considered
      (enterAll fs config.verbose selection b (withinLimit selection room events),
        if (consideredFiles selection events).length ≤ room then none
        else some (.tooManyEntries config.maxEntries)) := by
  induction events generalizing b with
  | nil => rfl
  | cons event rest ih =>
    cases event with
    | listed depth directory => exact ih b
    | trouble t => exact ih (b.pass t)
    | file path =>
      rw [takeAll]
      by_cases hc : selection.considers path = true
      · rw [if_pos hc, consideredFiles_file hc]
        by_cases hm : config.maxEntries < b.considered + 1
        · have hroom : config.maxEntries - b.considered = 0 := by omega
          simp only [if_pos hm, hroom, withinLimit, hc, if_true, List.length_cons]
          rfl
        · -- the file takes one of the places that are left
          have hroom : config.maxEntries - b.considered
              = config.maxEntries - (b.considered + 1) + 1 := by omega
          have hentered : enter fs config.verbose selection b (.file path)
              = b.examine fs config.verbose path := if_pos hc
          rw [if_neg hm, ih, examine_considered, hroom]
          simp only [withinLimit, hc, if_true, List.length_cons, Nat.add_le_add_iff_right, enterAll,
            List.foldl_cons, hentered]
      · have hentered : enter fs config.verbose selection b (.file path) = b := if_neg hc
        rw [if_neg hc, ih, consideredFiles_ignored hc]
        simp only [withinLimit, hc, Bool.false_eq_true, if_false, enterAll, List.foldl_cons, hentered]

end Books

/-! ## A whole scan -/

/-- The files that a scan looks at if nothing stops it, in traversal order: those that its walk comes across
    and its settings select. -/
def candidates (fs : FileSystem) (config : Config) : List Path :=
  match prepare fs config with
  | .error _ => []
  | .ok p => Books.consideredFiles p.selection (p.events fs config)

/-- The events that a scan comes across if nothing stops it, in order. -/
def eventsMet (fs : FileSystem) (config : Config) : List Event :=
  match prepare fs config with
  | .error _ => []
  | .ok p => p.events fs config

/-- The troubles that a scan comes across if nothing stops it, in order. -/
def troublesMet (fs : FileSystem) (config : Config) : List Trouble :=
  Walk.troublesOf (eventsMet fs config)

/-- The events that a scan enters into its accounts. -/
def Prepared.entered (p : Prepared) (fs : FileSystem) (config : Config) : List Event :=
  Books.withinLimit p.selection config.maxEntries (p.events fs config)

/-- A scan comes across the file: it is the root itself, if that is a file, or the scan meets it below the
    root, if that is a directory. -/
def ComesAcross (fs : FileSystem) (config : Config) (path : Path) : Prop :=
  fs.kind config.root = .ok .file ∧ path = fs.walkRoot config.root ∨
  fs.kind config.root = .ok .directory ∧ Meets fs config (fs.walkRoot config.root) path

section

variable {fs : FileSystem} {config : Config} {p : Prepared}

theorem candidates_of_prepared (h : prepare fs config = .ok p) :
    candidates fs config = Books.consideredFiles p.selection (p.events fs config) := by
  rw [candidates, h]

/-- A scan that does not come to its walk has no candidates. -/
theorem candidates_of_error {error : ScanError} (h : prepare fs config = .error error) :
    candidates fs config = [] := by
  rw [candidates, h]

theorem mem_troublesMet {t : Trouble} : t ∈ troublesMet fs config ↔ .trouble t ∈ eventsMet fs config :=
  Walk.mem_troublesOf

theorem eventsMet_of_prepared (h : prepare fs config = .ok p) :
    eventsMet fs config = p.events fs config := by
  rw [eventsMet, h]

theorem eventsMet_of_directory (h : prepare fs config = .ok p) (hroot : fs.kind config.root = .ok .directory) :
    eventsMet fs config = Walk.walk fs config (config.maxDepth + 1) 0 (fs.walkRoot config.root) := by
  rw [eventsMet_of_prepared h, events_of_directory h hroot]

theorem FileSystem.rootKind_eq_ok {root : Path} {kind : NodeKind} :
    fs.rootKind root = .ok kind ↔ fs.kind root = .ok kind := by
  unfold FileSystem.rootKind
  cases h : fs.kind root with
  | ok found => simp
  | error error => cases error <;> simp

/-- A scan whose pattern compiles and whose root exists comes to its walk. -/
theorem exists_prepare {kind : NodeKind}
    (hspec : ∀ spec ∈ config.filespec, ∃ tokens, Glob.compile spec = .ok tokens)
    (hroot : fs.kind config.root = .ok kind) : ∃ p, prepare fs config = .ok p := by
  have hpattern : ∃ pattern, config.pattern = .ok pattern := by
    unfold Config.pattern
    cases hs : config.filespec with
    | none => exact ⟨none, rfl⟩
    | some spec =>
      obtain ⟨tokens, htokens⟩ := hspec spec hs
      exact ⟨some tokens, by simp only [htokens]⟩
  obtain ⟨pattern, hpattern⟩ := hpattern
  refine ⟨⟨⟨pattern, fs.walkRoot config.root⟩, kind⟩, ?_⟩
  simp only [prepare, hpattern, FileSystem.rootKind_eq_ok.mpr hroot]

/-- **The candidates, by rules.** They are the files that the scan comes across and that its settings
    select. -/
theorem mem_candidates {path : Path} :
    path ∈ candidates fs config ↔
      ComesAcross fs config path ∧ config.Selects (fs.walkRoot config.root) path := by
  cases hprepared : prepare fs config with
  | error error =>
    rw [candidates_of_error hprepared]
    refine iff_of_false List.not_mem_nil fun ⟨hacross, hselects⟩ => ?_
    -- a file that is come across and selected needs a root and a pattern that compiles
    have hspec : ∀ spec ∈ config.filespec, ∃ tokens, Glob.compile spec = .ok tokens := by
      intro spec hs
      obtain ⟨tokens, htokens, _⟩ := hselects spec hs
      exact ⟨tokens, htokens⟩
    have hroot : ∃ kind, fs.kind config.root = .ok kind := by
      rcases hacross with ⟨hfile, _⟩ | ⟨hdirectory, _⟩
      · exact ⟨_, hfile⟩
      · exact ⟨_, hdirectory⟩
    obtain ⟨kind, hkind⟩ := hroot
    obtain ⟨p, hp⟩ := exists_prepare hspec hkind
    rw [hprepared] at hp
    cases hp
  | ok p =>
    obtain ⟨hpattern, hwalkRoot, hrootKind⟩ := prepare_eq_ok hprepared
    have hkind : fs.kind config.root = .ok p.kind := FileSystem.rootKind_eq_ok.mp hrootKind
    have hacross : path ∈ Walk.filesOf (p.events fs config) ↔ ComesAcross fs config path := by
      rw [Prepared.events, hwalkRoot, ComesAcross, hkind]
      cases p.kind with
      | file => simp [Walk.eventsOfRoot, Walk.filesOf, Walk.file?]
      | directory => simp [Walk.eventsOfRoot, Walk.mem_filesOf_walk_root]
      | link => simp [Walk.eventsOfRoot, Walk.filesOf]
      | other => simp [Walk.eventsOfRoot, Walk.filesOf]
    rw [candidates_of_prepared hprepared, Books.consideredFiles, List.mem_filter, hacross,
      considers_iff_selects hpattern, hwalkRoot]

/-- No file is a candidate twice. -/
theorem nodup_candidates (hlawful : fs.IsLawful) : (candidates fs config).Nodup := by
  cases hprepared : prepare fs config with
  | error error =>
    rw [candidates_of_error hprepared]
    exact List.nodup_nil
  | ok p =>
    rw [candidates_of_prepared hprepared]
    refine List.Nodup.filter _ ?_
    rw [Prepared.events]
    cases p.kind with
    | file => exact List.nodup_singleton _
    | directory => exact Walk.nodup_filesOf_walk hlawful _ _ _
    | link => exact List.nodup_nil
    | other => exact List.nodup_nil

/-- With room for all candidates, all events are entered. -/
theorem Prepared.entered_of_fits (h : prepare fs config = .ok p)
    (hfits : (candidates fs config).length ≤ config.maxEntries) :
    p.entered fs config = p.events fs config := by
  rw [candidates_of_prepared h] at hfits
  rcases Books.withinLimit_append p.selection config.maxEntries (p.events fs config) with
    ⟨_, hall⟩ | ⟨hover, _⟩
  · exact hall
  · omega

/-- **What a scan leaves behind.** The files that it examines are the first candidates, as many as the limit
    allows, and it ends well exactly if these are all. -/
theorem scan_of_prepared (h : prepare fs config = .ok p) (activity : Activity) :
    scan fs config activity =
      let files := (candidates fs config).take config.maxEntries
      { result :=
          if (candidates fs config).length ≤ config.maxEntries then
            .ok
              { tally := .ofFiles (files.filterMap fs.counted?)
                unreadable := files.countP (fs.FailsToRead ·)
                troubles := (Walk.troublesOf (p.entered fs config)).length }
          else .error (.tooManyEntries config.maxEntries)
        activity := activity + (files.map fs.effort).sum
        log := (p.entered fs config).flatMap (Books.logged fs p.selection)
        printed := if config.verbose then files.filterMap fs.report? else [] } := by
  have hbooks : Books.takeAll fs config p.selection (.start activity) (p.events fs config)
      = (Books.enterAll fs config.verbose p.selection (.start activity) (p.entered fs config),
        if (candidates fs config).length ≤ config.maxEntries then none
        else some (.tooManyEntries config.maxEntries)) := by
    rw [candidates_of_prepared h]
    exact Books.takeAll_eq ..
  have hfiles : Books.consideredFiles p.selection (p.entered fs config)
      = (candidates fs config).take config.maxEntries := by
    rw [candidates_of_prepared h]
    exact Books.consideredFiles_withinLimit ..
  unfold scan
  rw [h]
  show ScanRun.ofBooks (Books.takeAll fs config p.selection (.start activity) _) = _
  rw [hbooks, Books.enterAll_eq, hfiles]
  by_cases hfits : (candidates fs config).length ≤ config.maxEntries
  · simp only [if_pos hfits, ScanRun.ofBooks, Books.start, Outcome.empty, Nat.zero_add, List.nil_append]
    rfl
  · simp only [if_neg hfits, ScanRun.ofBooks, Books.start, List.nil_append]

/-- A scan that comes to its walk enters the events that it comes across, one after another. -/
theorem scan_eq_takeAll (h : prepare fs config = .ok p) (activity : Activity) :
    scan fs config activity
      = .ofBooks (Books.takeAll fs config p.selection (.start activity) (eventsMet fs config)) := by
  rw [eventsMet_of_prepared h]
  unfold scan
  rw [h]

/-- The files that a scan examines are the first candidates, as many as the limit allows. -/
theorem scanTraced_snd (fs : FileSystem) (config : Config) (start : Activity) :
    (scanTraced fs config start).2 = (candidates fs config).take config.maxEntries := by
  unfold scanTraced candidates
  cases prepare fs config with
  | error error => exact List.take_nil.symm
  | ok p => exact Books.takeTraced_snd ..

/-- A scan with its notes, as the scan itself and the files that it examines. -/
theorem scanTraced_eq (fs : FileSystem) (config : Config) (start : Activity) :
    scanTraced fs config start = (scan fs config start, (candidates fs config).take config.maxEntries) := by
  rw [← scanTraced_fst, ← scanTraced_snd fs config start]

/-- A scan ends well only if it comes to its walk. -/
theorem prepared_of_result_ok {activity : Activity} {outcome : Outcome}
    (hok : (scan fs config activity).result = .ok outcome) : ∃ p, prepare fs config = .ok p := by
  cases hprepared : prepare fs config with
  | ok p => exact ⟨p, rfl⟩
  | error error =>
    unfold scan at hok
    rw [hprepared] at hok
    cases hok

/-- A scan ends well only with room for all candidates. -/
theorem fits_of_result_ok {activity : Activity} {outcome : Outcome}
    (hok : (scan fs config activity).result = .ok outcome) :
    (candidates fs config).length ≤ config.maxEntries := by
  obtain ⟨p, hp⟩ := prepared_of_result_ok hok
  rw [scan_of_prepared hp] at hok
  by_contra hover
  simp only [if_neg hover] at hok
  cases hok

end

end LineCensus
