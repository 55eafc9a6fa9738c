import LineCensus.Proofs.Scan.Accounts

/-!
# `Proofs.Scan.Counters` — the running counters in 64 bits

A scan may start from any counters, so they may need more than 64 bits before it ends. Nothing that it does
depends on them. So it is the scan without a bound, and of its counters what 64 bits hold; a build that stops
when they need more stops exactly if they need more at the end, because they only grow.

## Contents
- `Books.hold?`, accounts whose counters are cut to 64 bits, with `Books.hold?_bind_examine?` for one file and
  `Books.hold?_bind_takeAll?` for all events.
- `scan_activity`: the counters that a scan starts from are added to what it does, and change nothing else.
- `scan?_eq_hold?` and `scan?_eq_add`, a scan in 64 bits.
- `scanSeries?`, scans one after another on the same counters, with `scanSeries?_activity` and
  `scanSeries?_results`.
-/

namespace LineCensus

namespace Books

variable {fs : FileSystem} {config : Config} {selection : Selection} {verbose : Bool} {v : Overflow}

/-- What becomes of the accounts in 64 bits. -/
def hold? (v : Overflow) (b : Books) : Option Books :=
  (b.activity.hold? v).map fun activity => { b with activity := activity }

/-- Accounts whose counters fit stay as they are. -/
theorem hold?_of_fits (v : Overflow) {b : Books} (h : b.activity.Fits) : b.hold? v = some b := by
  rw [hold?, Activity.hold?_of_fits v h]
  rfl

theorem considered_of_hold? {b held : Books} (h : b.hold? v = some held) : held.considered = b.considered := by
  obtain ⟨activity, -, rfl⟩ := Option.map_eq_some_iff.mp h
  rfl

/-- **The entries for one file** may be made before or after the counters are cut to 64 bits. -/
theorem hold?_bind_examine? (v : Overflow) (b : Books) (path : Path) :
    ((b.hold? v).bind fun held => held.examine? v fs verbose path) = (b.examine fs verbose path).hold? v := by
  unfold hold? examine? examine
  rw [Option.bind_map]
  cases fs.analyze path with
  | ok found =>
    have hcounter : ({ b with considered := b.considered + 1 }.count verbose path found.1 found.2).activity.hold? v
        = (b.activity.hold? v).bind fun held => held.count? v found.2.total :=
      (b.activity.hold?_bind_count? ..).symm
    rw [hcounter, Option.map_bind]
    rfl
  | error reason =>
    have hcounter : ({ b with considered := b.considered + 1 }.skip reason).activity.hold? v
        = (b.activity.hold? v).bind fun held => held.skip? v reason :=
      (b.activity.hold?_bind_skip? ..).symm
    rw [hcounter, Option.map_bind]
    rfl

/-- **The entries for all events** may be made before or after the counters are cut to 64 bits. -/
theorem hold?_bind_takeAll? (v : Overflow) (b : Books) (events : List Event) :
    ((b.hold? v).bind fun held => takeAll? v fs config selection held events)
      = ((takeAll fs config selection b events).1.hold? v).map fun held =>
          (held, (takeAll fs config selection b events).2) := by
  -- the limit looks at the files that were considered, and cutting the counters leaves these alone
  induction events generalizing b with
  | nil => cases h : b.hold? v <;> simp [takeAll, takeAll?, h]
  | cons event rest ih =>
    cases event with
    | listed depth directory => exact ih b
    | trouble t =>
      -- a trouble has no counter, so it may be passed before the cut
      have hpass : (b.pass t).hold? v = (b.hold? v).map (·.pass t) := by
        unfold hold?
        rw [Option.map_map]
        rfl
      have hrest := ih (b.pass t)
      rw [hpass, Option.bind_map] at hrest
      exact hrest
    | file path =>
      by_cases hc : selection.considers path = true
      · by_cases hm : config.maxEntries < b.considered + 1
        · -- the file is one too many, whatever the counters are
          have hover : ∀ held, b.hold? v = some held → takeAll? v fs config selection held (.file path :: rest)
              = some (held, some (.tooManyEntries config.maxEntries)) := by
            intro held hheld
            rw [takeAll?, if_pos hc, considered_of_hold? hheld, if_pos hm]
          have hexact : takeAll fs config selection b (.file path :: rest)
              = (b, some (.tooManyEntries config.maxEntries)) := by
            rw [takeAll, if_pos hc, if_pos hm]
          rw [hexact, Option.bind_congr hover]
          exact Option.map_eq_bind.symm
        · have hfile : ∀ held, b.hold? v = some held → takeAll? v fs config selection held (.file path :: rest)
              = (held.examine? v fs config.verbose path).bind fun next =>
                  takeAll? v fs config selection next rest := by
            intro held hheld
            rw [takeAll?, if_pos hc, considered_of_hold? hheld, if_neg hm]
          have hexact : takeAll fs config selection b (.file path :: rest)
              = takeAll fs config selection (b.examine fs config.verbose path) rest := by
            rw [takeAll, if_pos hc, if_neg hm]
          rw [hexact, ← ih, ← hold?_bind_examine?, Option.bind_assoc, Option.bind_congr hfile]
      · have hignored : ∀ held, takeAll? v fs config selection held (.file path :: rest)
            = takeAll? v fs config selection held rest := by
          intro held
          rw [takeAll?, if_neg hc]
        have hexact : takeAll fs config selection b (.file path :: rest) = takeAll fs config selection b rest := by
          rw [takeAll, if_neg hc]
        rw [hexact, ← ih, Option.bind_congr fun held _ => hignored held]

end Books

/-! ## A whole scan -/

section

variable {fs : FileSystem} {config : Config} {v : Overflow} {start : Activity}

/-- **The counters that a scan starts from change nothing**: it adds to them what it adds to none. -/
theorem scan_activity (fs : FileSystem) (config : Config) (activity : Activity) :
    scan fs config activity =
      { scan fs config 0 with activity := activity + (scan fs config 0).activity } := by
  cases hprepared : prepare fs config with
  | error error =>
    unfold scan
    rw [hprepared]
    exact congrArg (ScanRun.mk _ · _ _) (add_zero activity).symm
  | ok p =>
    rw [scan_of_prepared hprepared, scan_of_prepared hprepared]
    simp only [zero_add]

/-- **A scan in 64 bits** is the scan without a bound, and of its counters what 64 bits hold. -/
theorem scan?_eq_hold? (v : Overflow) (fs : FileSystem) (config : Config) (hstart : start.Fits) :
    scan? v fs config start
      = ((scan fs config start).activity.hold? v).map fun activity =>
          { scan fs config start with activity := activity } := by
  cases hprepared : prepare fs config with
  | error error =>
    unfold scan? scan
    rw [hprepared]
    dsimp only
    rw [Activity.hold?_of_fits v hstart]
    rfl
  | ok p =>
    have hbooks : Books.takeAll? v fs config p.selection (.start start) (p.events fs config)
        = ((Books.takeAll fs config p.selection (.start start) (p.events fs config)).1.hold? v).map fun held =>
            (held, (Books.takeAll fs config p.selection (.start start) (p.events fs config)).2) := by
      rw [← Books.hold?_bind_takeAll?, Books.hold?_of_fits v hstart]
      rfl
    unfold scan? scan
    rw [hprepared]
    dsimp only
    rw [hbooks]
    obtain ⟨b, error⟩ := Books.takeAll fs config p.selection (.start start) (p.events fs config)
    rw [Option.map_map, Books.hold?, Option.map_map]
    cases error <;> rfl

/-- It adds to the counters what a scan from none adds to none, and changes nothing else. -/
theorem scan?_eq_add (v : Overflow) (fs : FileSystem) (config : Config) (hstart : start.Fits) :
    scan? v fs config start
      = ((start + (scan fs config 0).activity).hold? v).map fun activity =>
          { scan fs config 0 with activity := activity } := by
  rw [scan?_eq_hold? v fs config hstart, scan_activity]

/-! ## One scan after another -/

/-- Scans one after another; each goes on with the counters that the one before has left. -/
def scanSeries? (v : Overflow) : Activity → List (FileSystem × Config) → Option (List ScanRun × Activity)
  | activity, [] => some ([], activity)
  | activity, (fs, config) :: rest => do
    let run ← scan? v fs config activity
    let after ← scanSeries? v run.activity rest
    return (run :: after.1, after.2)

/-- The counters of a series are the sum of what its scans add to none, in 64 bits. -/
theorem scanSeries?_activity (v : Overflow) (hstart : start.Fits) (jobs : List (FileSystem × Config)) :
    (scanSeries? v start jobs).map Prod.snd
      = (start + (jobs.map fun job => (scan job.1 job.2 0).activity).sum).hold? v := by
  induction jobs generalizing start with
  | nil =>
    rw [List.map_nil, List.sum_nil, add_zero, Activity.hold?_of_fits v hstart]
    rfl
  | cons job rest ih =>
    obtain ⟨fs, config⟩ := job
    rw [List.map_cons, List.sum_cons, ← add_assoc, ← Activity.hold?_bind_add, scanSeries?,
      scan?_eq_add v fs config hstart]
    cases hheld : (start + (scan fs config 0).activity).hold? v with
    | none => rfl
    | some activity =>
      -- the counters between two scans fit, because they are held
      have hrest := ih (Activity.fits_of_hold?_eq_some hheld)
      rw [Option.bind_some, ← hrest, Option.map_some]
      show ((scanSeries? v activity rest).bind _).map _ = _
      rw [Option.map_bind]
      exact Option.map_eq_bind.symm

/-- No scan of a series is changed by those before it. -/
theorem scanSeries?_results {runs : List ScanRun} {last : Activity} (hstart : start.Fits)
    {jobs : List (FileSystem × Config)} (h : scanSeries? v start jobs = some (runs, last)) :
    runs.map (fun run => (run.result, run.log, run.printed))
      = jobs.map fun job =>
          ((scan job.1 job.2 0).result, (scan job.1 job.2 0).log, (scan job.1 job.2 0).printed) := by
  induction jobs generalizing start runs with
  | nil =>
    cases h
    rfl
  | cons job rest ih =>
    obtain ⟨fs, config⟩ := job
    rw [scanSeries?] at h
    obtain ⟨run, hrun, h⟩ := Option.bind_eq_some_iff.mp h
    obtain ⟨after, hafter, h⟩ := Option.bind_eq_some_iff.mp h
    cases h
    rw [scan?_eq_add v fs config hstart] at hrun
    obtain ⟨activity, hheld, rfl⟩ := Option.map_eq_some_iff.mp hrun
    rw [List.map_cons, List.map_cons, ih (Activity.fits_of_hold?_eq_some hheld) hafter]

end

end LineCensus
