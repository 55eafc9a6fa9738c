import LineCensus.Proofs.Report.Colours
import LineCensus.Proofs.Sums

/-!
# `Proofs.Meter.Progress` — progress once a second

A meter writes a progress line when a file is counted and the last line, or the start, is a second ago or more.
It remembers when a line was last due; as long as progress is shown, that is when a line was last written. A
meter that shows no progress remembers the same and writes nothing, so nothing else tells the two apart.

All this is about a meter with counters of 64 bits, in either build. Such a meter may stop. As long as the counts
fit it does not, and is the meter without a bound.

## Contents
- `Meter.Act`, what can happen to a meter, with `Meter.totals`, what acts add up to.
- `Meter.step?` and `Meter.run?`, the meter afterwards with the texts that are written and their times;
  `Meter.step` and `Meter.run`, the same without a bound. `Meter.step?_cases`, what one act does.
- `Meter.progressLines` and `Meter.progressTimes`, the progress lines in what is written.
- `Meter.Paced`, what the meter remembers of these lines; `Meter.Paced.step?`, for one act, and
  `Meter.Paced.run?`, for a run.
- `Meter.run?_withProgress`, showing progress or not.
- `Meter.hold?_totals`, the counters; `Meter.run?_of_fits` and `Meter.exists_run?_wraps`, which runs go through.
- `Meter.run_paced`.
-/

namespace LineCensus.Meter

open Text Decimal

/-! ## Runs -/

/-- What can happen to a meter. -/
inductive Act where
  | count (lines : Nat)
  | skip (reason : SkipReason)
  | summarize
  | advance (nanos : Nat)
  deriving DecidableEq, Repr

namespace Act

/-- The lines that are counted. -/
def lines? : Act → Option Nat
  | count lines => some lines
  | _ => none

/-- Why a file is skipped. -/
def reason? : Act → Option SkipReason
  | skip reason => some reason
  | _ => none

/-- The time that goes by. -/
def nanos? : Act → Option Nat
  | advance nanos => some nanos
  | _ => none

end Act

/-- What the acts add up to: the files that are counted, their lines, and the files that are skipped, which are told
    apart by whether the reason is a failure. -/
def totals (acts : List Act) : Activity where
  files := (acts.filterMap Act.lines?).length
  lines := (acts.filterMap Act.lines?).sum
  unsupported := (acts.filterMap Act.reason?).countP (!·.isFailure)
  unreadable := (acts.filterMap Act.reason?).countP (·.isFailure)

/-- The meter after an act, and what is written. -/
def step (color : Bool) (m : Meter) : Act → Meter × String
  | .count lines => m.count lines
  | .skip reason => (m.skip reason, "")
  | .summarize => (m, m.summary color)
  | .advance nanos => (m.advance nanos, "")

/-- The meter after a run, and the texts that are written, with their times. -/
def run (color : Bool) (m : Meter) : List Act → Meter × List (Nat × String)
  | [] => (m, [])
  | act :: rest =>
    let next := m.step color act
    let last := next.1.run color rest
    (last.1, (m.now, next.2) :: last.2)

/-- The meter after an act, and what is written, in 64 bits. -/
def step? (v : Overflow) (color : Bool) (m : Meter) : Act → Option (Meter × String)
  | .count lines => m.count? v lines
  | .skip reason => (m.skip? v reason).map fun next => (next, "")
  | .summarize => (m.summary? v color).map fun text => (m, text)
  | .advance nanos => some (m.advance nanos, "")

/-- The meter after a run, and the texts that are written, with their times, in 64 bits. -/
def run? (v : Overflow) (color : Bool) (m : Meter) : List Act → Option (Meter × List (Nat × String))
  | [] => some (m, [])
  | act :: rest => do
    let next ← m.step? v color act
    let last ← next.1.run? v color rest
    return (last.1, (m.now, next.2) :: last.2)

/-- How many progress lines are in a text: each starts at the left edge, and nothing else goes back there. -/
def progressLines (text : String) : Nat := text.toList.count '\r'

/-- When progress lines are written. -/
def progressTimes (texts : List (Nat × String)) : List Nat :=
  texts.flatMap fun written => List.replicate (progressLines written.2) written.1

variable {v : Overflow} {color : Bool} {m next last : Meter} {text : String} {texts : List (Nat × String)}
  {times : List Nat} {act : Act} {acts : List Act}

/-- A run that goes through, by its first act. -/
theorem run?_cons_eq_some {written : List (Nat × String)} :
    m.run? v color (act :: acts) = some (last, written) ↔
      ∃ next text texts, m.step? v color act = some (next, text) ∧ next.run? v color acts = some (last, texts) ∧
        written = (m.now, text) :: texts := by
  rw [run?]
  simp only [Option.bind_eq_bind, Option.bind_eq_some_iff, Option.pure_def, Option.some.injEq, Prod.exists,
    Prod.mk.injEq]
  constructor
  · rintro ⟨next, text, hstep, last', texts, hrest, rfl, rfl⟩
    exact ⟨next, text, texts, hstep, hrest, rfl⟩
  · rintro ⟨next, text, texts, hstep, hrest, rfl⟩
    exact ⟨next, text, hstep, last, texts, hrest, rfl, rfl⟩

/-- **What one act does** if it goes through. -/
theorem step?_cases (hstep : m.step? v color act = some (next, text)) :
    (∃ lines activity, act = .count lines ∧ m.activity.count? v lines = some activity ∧
      next = (m.settle activity).1 ∧ text = (m.settle activity).2) ∨
    (∃ reason activity, act = .skip reason ∧ m.activity.skip? v reason = some activity ∧
      next = { m with activity := activity } ∧ text = "") ∨
    (∃ skipped, act = .summarize ∧ next = m ∧ text = m.activity.summaryOf color m.now skipped) ∨
    ∃ nanos, act = .advance nanos ∧ next = m.advance nanos ∧ text = "" := by
  cases act with
  | count lines =>
    obtain ⟨activity, hcount, hnext⟩ := Option.map_eq_some_iff.mp hstep
    exact Or.inl ⟨lines, activity, rfl, hcount, (congrArg Prod.fst hnext).symm, (congrArg Prod.snd hnext).symm⟩
  | skip reason =>
    obtain ⟨_, hskipped, hnext⟩ := Option.map_eq_some_iff.mp hstep
    obtain ⟨activity, hskip, rfl⟩ := Option.map_eq_some_iff.mp hskipped
    cases hnext
    exact Or.inr (Or.inl ⟨reason, activity, rfl, hskip, rfl, rfl⟩)
  | summarize =>
    obtain ⟨_, hsummary, hnext⟩ := Option.map_eq_some_iff.mp hstep
    obtain ⟨skipped, _, rfl⟩ := Option.map_eq_some_iff.mp hsummary
    cases hnext
    exact Or.inr (Or.inr (Or.inl ⟨skipped, rfl, rfl, rfl⟩))
  | advance nanos =>
    cases hstep
    exact Or.inr (Or.inr (Or.inr ⟨nanos, rfl, rfl, rfl⟩))

/-! ## Progress lines -/

theorem progressLines_empty : progressLines "" = 0 := rfl

theorem progressLines_append (s t : String) : progressLines (s ++ t) = progressLines s + progressLines t := by
  simp [progressLines, List.count_append]

theorem progressLines_of_lacks {text : String} (h : Lacks '\r' text) : progressLines text = 0 :=
  List.count_eq_zero.mpr h

theorem progressLines_progress (a : Activity) (elapsed : Nat) : progressLines (a.progress elapsed) = 1 := by
  have hnumber : ∀ n : Nat, progressLines (toString n) = 0 := fun n =>
    progressLines_of_lacks ((noControl_toString n).lacks (by decide) (by decide))
  have hrate : ∀ x : Float, progressLines (fixed 1 x) = 0 := fun x =>
    progressLines_of_lacks ((noControl_fixed 1 x).lacks (by decide) (by decide))
  unfold Activity.progress
  simp only [progressLines_append, hnumber, hrate]
  decide

/-- A painted text has no progress line if the text has none. -/
theorem lacks_return_paint (color : Bool) (style : Style) {text : String} (h : Lacks '\r' text) :
    Lacks '\r' (paint color style text) := by
  cases color with
  | false => exact h
  | true =>
    have hopen : Lacks '\r' (String.join (style.codes.map sequence)) := by cases style <;> decide
    exact (hopen.append h).append (by decide)

theorem progressLines_summaryOf (a : Activity) (color : Bool) (elapsed skipped : Nat) :
    progressLines (a.summaryOf color elapsed skipped) = 0 := by
  refine progressLines_of_lacks ?_
  rw [Activity.summaryOf_eq_showAll]
  refine lacks_join fun text htext => ?_
  obtain ⟨span, hspan, rfl⟩ := List.mem_map.mp htext
  have hspan : Lacks '\r' span.text :=
    (a.noControl_of_mem_summarySpans elapsed skipped span hspan).lacks (by decide) (by decide)
  cases span with
  | plain text => exact hspan
  | painted style text => exact lacks_return_paint color style hspan

/-- Nothing but a count writes a progress line. -/
theorem progressLines_of_step? (hstep : m.step? v color act = some (next, text)) (h : ∀ lines, act ≠ .count lines) :
    progressLines text = 0 := by
  rcases step?_cases hstep with ⟨lines, _, rfl, -⟩ | ⟨_, _, _, _, _, rfl⟩ | ⟨_, _, _, rfl⟩ | ⟨_, _, _, rfl⟩
  · exact absurd rfl (h lines)
  · exact progressLines_empty
  · exact progressLines_summaryOf ..
  · exact progressLines_empty

/-! ## What the meter remembers -/

/-- Progress lines are written at these times, at least a second apart, and the meter remembers the last one. -/
structure Paced (m : Meter) (times : List Nat) : Prop where
  shows : m.showsProgress = true
  last : m.lastProgress = times.getLast?.getD 0
  passed : m.lastProgress ≤ m.now
  le_last : ∀ time ∈ times, time ≤ m.lastProgress
  spaced : times.Pairwise fun time time' => time + nanosPerSecond ≤ time'
  few : times.length * nanosPerSecond ≤ m.lastProgress

theorem paced_start : (start true).Paced [] := ⟨rfl, rfl, Nat.le_refl 0, nofun, .nil, Nat.le_refl 0⟩

/-- After a file is counted a progress line is written if the last one is a second ago. -/
theorem Paced.settle_eq (h : m.Paced times) (activity : Activity) :
    m.settle activity
      = if times.getLast?.getD 0 + nanosPerSecond ≤ m.now then
          ({ m with activity := activity, lastProgress := m.now }, activity.progress m.now)
        else ({ m with activity := activity }, "") := by
  have hdue : m.isDue = true ↔ times.getLast?.getD 0 + nanosPerSecond ≤ m.now := by
    have hpassed := h.passed
    rw [← h.last, isDue, decide_eq_true_iff]
    omega
  unfold settle
  by_cases hlate : m.isDue = true
  · rw [if_pos hlate, if_pos (hdue.mp hlate), h.shows]
    rfl
  · rw [if_neg hlate, if_neg (mt hdue.mpr hlate)]

/-- Time may go by, and the activity may change, as long as no progress line is written. -/
theorem Paced.of_silent (h : m.Paced times) (htext : progressLines text = 0)
    (hshows : next.showsProgress = m.showsProgress) (hlast : next.lastProgress = m.lastProgress)
    (hnow : m.now ≤ next.now) : next.Paced (times ++ List.replicate (progressLines text) m.now) := by
  rw [htext, List.replicate_zero, List.append_nil]
  exact {
    shows := hshows.trans h.shows
    last := hlast.trans h.last
    passed := hlast ▸ Nat.le_trans h.passed hnow
    le_last := hlast ▸ h.le_last
    spaced := h.spaced
    few := hlast ▸ h.few }

/-- A progress line that is written when it is due. -/
theorem Paced.push (h : m.Paced times) (hdue : times.getLast?.getD 0 + nanosPerSecond ≤ m.now) (a : Activity) :
    Paced { m with activity := a, lastProgress := m.now } (times ++ [m.now]) := by
  rw [← h.last] at hdue
  refine ⟨h.shows, ?_, Nat.le_refl _, ?_, ?_, ?_⟩
  · rw [List.getLast?_concat]
    rfl
  · intro time htime
    rcases List.mem_append.mp htime with hbefore | hnow
    · exact Nat.le_trans (h.le_last time hbefore) h.passed
    · exact Nat.le_of_eq (List.mem_singleton.mp hnow)
  · refine List.pairwise_append.mpr ⟨h.spaced, List.pairwise_singleton _ _, fun time htime time' htime' => ?_⟩
    have hbefore := h.le_last time htime
    rw [List.mem_singleton.mp htime']
    omega
  · have hfew := h.few
    rw [List.length_append, List.length_singleton, Nat.add_mul, Nat.one_mul]
    show _ ≤ m.now
    omega

/-- A count keeps the pace. -/
theorem Paced.settle (h : m.Paced times) (activity : Activity) :
    (m.settle activity).1.Paced (times ++ List.replicate (progressLines (m.settle activity).2) m.now) := by
  rw [h.settle_eq]
  by_cases hdue : times.getLast?.getD 0 + nanosPerSecond ≤ m.now
  · rw [if_pos hdue, progressLines_progress]
    exact h.push hdue _
  · rw [if_neg hdue]
    exact h.of_silent progressLines_empty rfl rfl (Nat.le_refl _)

/-- **One act** keeps the pace. -/
theorem Paced.step? (h : m.Paced times) (hstep : m.step? v color act = some (next, text)) :
    next.Paced (times ++ List.replicate (progressLines text) m.now) := by
  rcases step?_cases hstep with ⟨_, activity, _, _, rfl, rfl⟩ | ⟨_, _, _, _, rfl, rfl⟩ | ⟨_, _, rfl, rfl⟩ |
    ⟨_, _, rfl, rfl⟩
  · exact h.settle activity
  · exact h.of_silent progressLines_empty rfl rfl (Nat.le_refl _)
  · exact h.of_silent (progressLines_summaryOf ..) rfl rfl (Nat.le_refl _)
  · exact h.of_silent progressLines_empty rfl rfl (Nat.le_add_right _ _)

/-- **A run** keeps the pace. -/
theorem Paced.run? (h : m.Paced times) (hrun : m.run? v color acts = some (last, texts)) :
    last.Paced (times ++ progressTimes texts) := by
  -- the times before are any, because the rest of a run goes on from those of its first act
  induction acts generalizing m times texts with
  | nil =>
    cases hrun
    rw [progressTimes, List.flatMap_nil, List.append_nil]
    exact h
  | cons act rest ih =>
    obtain ⟨next, text, more, hstep, hrest, rfl⟩ := run?_cons_eq_some.mp hrun
    rw [progressTimes, List.flatMap_cons, ← List.append_assoc]
    exact ih (h.step? hstep) hrest

/-! ## Without progress -/

/-- The meter, showing progress or not. -/
def withProgress (m : Meter) (shows : Bool) : Meter := { m with showsProgress := shows }

/-- The text, if it is no progress line. -/
def unlessProgress (text : String) : String := if progressLines text = 0 then text else ""

theorem unlessProgress_of_progressLines (h : progressLines text = 0) : unlessProgress text = text := if_pos h

theorem progressLines_unlessProgress (text : String) : progressLines (unlessProgress text) = 0 := by
  unfold unlessProgress
  split
  · assumption
  · exact progressLines_empty

theorem progressTimes_unlessProgress (texts : List (Nat × String)) :
    progressTimes (texts.map fun written => (written.1, unlessProgress written.2)) = [] := by
  unfold progressTimes
  simp only [List.flatMap_map, progressLines_unlessProgress, List.replicate_zero]
  exact List.flatMap_eq_nil_iff.mpr fun _ _ => rfl

/-- What a meter without progress does after a file is counted. -/
theorem settle_withProgress (m : Meter) (activity : Activity) :
    (m.withProgress false).settle activity
      = ((m.settle activity).1.withProgress false, unlessProgress (m.settle activity).2) := by
  have hdue : (m.withProgress false).isDue = m.isDue := rfl
  have hprogress : unlessProgress (activity.progress m.now) = "" :=
    if_neg (by rw [progressLines_progress]; decide)
  unfold settle
  rw [hdue]
  by_cases hlate : m.isDue = true
  · rw [if_pos hlate, if_pos hlate]
    cases hshows : m.showsProgress with
    | false => rfl
    | true =>
      simp only [if_true, hprogress]
      rfl
  · rw [if_neg hlate, if_neg hlate]
    rfl

/-- **One act** does the same without progress, and writes the same unless that is a progress line. -/
theorem step?_withProgress (v : Overflow) (color : Bool) (m : Meter) (act : Act) :
    (m.withProgress false).step? v color act
      = (m.step? v color act).map fun next => (next.1.withProgress false, unlessProgress next.2) := by
  cases act with
  | count lines =>
    show (m.activity.count? v lines).map (m.withProgress false).settle
      = ((m.activity.count? v lines).map m.settle).map _
    rw [Option.map_map]
    exact congrFun (congrArg Option.map (funext m.settle_withProgress)) _
  | skip reason =>
    show ((m.activity.skip? v reason).map _).map _ = (((m.activity.skip? v reason).map _).map _).map _
    rw [Option.map_map, Option.map_map, Option.map_map]
    rfl
  | summarize =>
    show (m.summary? v color).map _ = ((m.summary? v color).map _).map _
    cases hsummary : m.summary? v color with
    | none => rfl
    | some text =>
      obtain ⟨skipped, _, rfl⟩ := Option.map_eq_some_iff.mp hsummary
      rw [Option.map_some, Option.map_some, Option.map_some,
        unlessProgress_of_progressLines (progressLines_summaryOf ..)]
  | advance nanos => rfl

/-- **A run** does the same without progress, and writes the same but the progress lines. -/
theorem run?_withProgress (v : Overflow) (color : Bool) (m : Meter) (acts : List Act) :
    (m.withProgress false).run? v color acts
      = (m.run? v color acts).map fun last =>
          (last.1.withProgress false, last.2.map fun written => (written.1, unlessProgress written.2)) := by
  induction acts generalizing m with
  | nil => rfl
  | cons act rest ih =>
    rw [run?, run?, step?_withProgress]
    cases m.step? v color act with
    | none => rfl
    | some next =>
      show ((next.1.withProgress false).run? v color rest).bind _ = ((next.1.run? v color rest).bind _).map _
      rw [ih]
      cases next.1.run? v color rest with
      | none => rfl
      | some last => rfl

/-! ## Counters -/

theorem totals_append (acts more : List Act) : totals (acts ++ more) = totals acts + totals more := by
  ext <;> simp [totals, List.filterMap_append]

theorem totals_cons (act : Act) (acts : List Act) : totals (act :: acts) = totals [act] + totals acts :=
  totals_append [act] acts

theorem totals_skip (reason : SkipReason) : totals [.skip reason] = Activity.zero.skip reason := by
  show (⟨0, 0, [reason].countP (!·.isFailure), [reason].countP (·.isFailure)⟩ : Activity) = _
  cases h : reason.isFailure <;> simp [Activity.skip, Activity.zero, h]

theorem totals_count (lines : Nat) : totals [.count lines] = Activity.zero.count lines := by
  show (⟨1, [lines].sum, 0, 0⟩ : Activity) = ⟨0 + 1, 0 + lines, 0, 0⟩
  rw [List.sum_singleton, Nat.zero_add, Nat.zero_add]

theorem activity_settle (m : Meter) (activity : Activity) : (m.settle activity).1.activity = activity := by
  unfold settle
  split <;> rfl

/-- An act without a bound adds to the counters what it stands for. -/
theorem activity_step (color : Bool) (m : Meter) (act : Act) :
    (m.step color act).1.activity = m.activity + totals [act] := by
  cases act with
  | count lines =>
    rw [totals_count, ← Activity.count_eq_add]
    exact m.activity_settle _
  | skip reason =>
    rw [totals_skip, ← Activity.skip_eq_add]
    rfl
  | summarize => exact (add_zero _).symm
  | advance nanos => exact (add_zero _).symm

/-- **An act in 64 bits** adds to the counters what it stands for, and then 64 bits. -/
theorem hold?_totals_step? (hfits : m.activity.Fits) (hstep : m.step? v color act = some (next, text)) :
    Activity.hold? v (m.activity + totals [act]) = some next.activity := by
  rcases step?_cases hstep with ⟨lines, activity, rfl, hcount, rfl, -⟩ | ⟨reason, activity, rfl, hskip, rfl, -⟩ |
    ⟨_, rfl, rfl, -⟩ | ⟨_, rfl, rfl, -⟩
  · rw [totals_count, ← Activity.count_eq_add, ← Activity.count?_eq_hold? hfits, hcount, m.activity_settle]
  · rw [totals_skip, ← Activity.skip_eq_add, ← Activity.skip?_eq_hold? hfits, hskip]
  · exact Activity.hold?_of_fits v hfits
  · exact Activity.hold?_of_fits v hfits

/-- **The counters** of a run are what its acts add up to, in 64 bits. -/
theorem hold?_totals (hfits : m.activity.Fits) (hrun : m.run? v color acts = some (last, texts)) :
    Activity.hold? v (m.activity + totals acts) = some last.activity := by
  -- the counters are cut after each act, and the sum at the end alone
  induction acts generalizing m texts with
  | nil =>
    cases hrun
    exact Activity.hold?_of_fits v hfits
  | cons act rest ih =>
    obtain ⟨next, text, more, hstep, hrest, -⟩ := run?_cons_eq_some.mp hrun
    have hfirst := hold?_totals_step? hfits hstep
    have hlater := ih (Activity.fits_of_hold?_eq_some hfirst) hrest
    rw [totals_cons, ← add_assoc, ← Activity.hold?_bind_add, hfirst]
    exact hlater

theorem now_settle (m : Meter) (activity : Activity) : (m.settle activity).1.now = m.now := by
  unfold settle
  split <;> rfl

theorem now_step? (hstep : m.step? v color act = some (next, text)) :
    next.now = m.now + ([act].filterMap Act.nanos?).sum := by
  rcases step?_cases hstep with ⟨_, activity, rfl, _, rfl, -⟩ | ⟨_, _, rfl, _, rfl, -⟩ | ⟨_, rfl, rfl, -⟩ |
    ⟨_, rfl, rfl, -⟩
  · exact m.now_settle activity
  · rfl
  · rfl
  · rfl

/-- The clock shows the time that has gone by. -/
theorem now_run? (hrun : m.run? v color acts = some (last, texts)) :
    last.now = m.now + (acts.filterMap Act.nanos?).sum := by
  induction acts generalizing m texts with
  | nil =>
    cases hrun
    rfl
  | cons act rest ih =>
    obtain ⟨next, text, more, hstep, hrest, -⟩ := run?_cons_eq_some.mp hrun
    rw [ih hrest, now_step? hstep, Nat.add_assoc, ← List.sum_append, ← List.filterMap_append]
    rfl

/-! ## Which runs go through -/

/-- **One act** in 64 bits is the act without a bound, if all counts fit. -/
theorem step?_of_fits (v : Overflow) (color : Bool) (hfits : (m.activity + totals [act]).Fits)
    (hskipped : m.activity.unsupported + m.activity.unreadable < numberLimit) :
    m.step? v color act = some (m.step color act) := by
  have hbefore : m.activity.Fits := hfits.of_add
  cases act with
  | count lines =>
    have hcounted : m.activity.count? v lines = some (m.activity.count lines) := by
      rw [totals_count, ← Activity.count_eq_add] at hfits
      rw [Activity.count?_eq_hold? hbefore, Activity.hold?_of_fits v hfits]
    exact congrArg (Option.map m.settle) hcounted
  | skip reason =>
    have hskip : m.activity.skip? v reason = some (m.activity.skip reason) := by
      rw [totals_skip, ← Activity.skip_eq_add] at hfits
      rw [Activity.skip?_eq_hold? hbefore, Activity.hold?_of_fits v hfits]
    show ((m.activity.skip? v reason).map _).map _ = _
    rw [hskip]
    rfl
  | summarize =>
    have hsum : v.add? m.activity.unsupported m.activity.unreadable
        = some (m.activity.unsupported + m.activity.unreadable) := by
      rw [Overflow.add?_eq_hold?, v.hold?_of_lt hskipped]
    show ((v.add? _ _).map _).map _ = _
    rw [hsum]
    rfl
  | advance nanos => rfl

/-- **A run** in 64 bits is the run without a bound, if all counts fit. -/
theorem run?_of_fits (v : Overflow) (color : Bool) (hfits : (m.activity + totals acts).Fits)
    (hskipped : (m.activity + totals acts).unsupported + (m.activity + totals acts).unreadable < numberLimit) :
    m.run? v color acts = some (m.run color acts) := by
  induction acts generalizing m with
  | nil => rfl
  | cons act rest ih =>
    rw [totals_cons, ← add_assoc] at hfits hskipped
    -- what fits in the end fits after the first act, because counters only grow
    have hfirst : m.step? v color act = some (m.step color act) := by
      apply step?_of_fits v color hfits.of_add
      simp only [Activity.add_unsupported, Activity.add_unreadable] at hskipped
      omega
    rw [← activity_step color] at hfits hskipped
    rw [run?, hfirst, Option.bind_eq_bind, Option.bind_some, ih hfits hskipped]
    rfl

/-- A run in a build that drops bits always goes through. -/
theorem exists_run?_wraps (color : Bool) (m : Meter) (acts : List Act) :
    ∃ last texts, m.run? .wraps color acts = some (last, texts) := by
  have hstep : ∀ (m : Meter) (act : Act), ∃ next text, m.step? .wraps color act = some (next, text) := by
    intro m act
    cases act with
    | count lines => exact ⟨_, _, rfl⟩
    | skip reason =>
      have hskip : ∃ activity, m.activity.skip? .wraps reason = some activity := by
        unfold Activity.skip?
        split
        · exact ⟨_, rfl⟩
        · exact ⟨_, rfl⟩
      obtain ⟨activity, hactivity⟩ := hskip
      exact ⟨_, _, congrArg (Option.map _) (congrArg (Option.map _) hactivity)⟩
    | summarize => exact ⟨_, _, rfl⟩
    | advance nanos => exact ⟨_, _, rfl⟩
  induction acts generalizing m with
  | nil => exact ⟨m, [], rfl⟩
  | cons act rest ih =>
    obtain ⟨next, text, hnext⟩ := hstep m act
    obtain ⟨last, texts, hlast⟩ := ih next
    exact ⟨last, (m.now, text) :: texts, run?_cons_eq_some.mpr ⟨next, text, texts, hnext, hlast, rfl⟩⟩

/-! ## All together -/

/-- **Progress once a second.** Take any run of a new meter with counters of 64 bits. It goes through if its counts
    fit, and then it is the run without a bound; in a build that drops bits it always goes through. The same run of a
    meter that shows no progress comes to the same counters at the same time, and writes the same texts but the
    progress lines.

    Whatever comes next after a run, a file that is counted makes the meter write a progress line if the last one, or
    the start if there is none, is a second ago or more, else it makes it write nothing; and nothing but a count
    writes a progress line. So the lines are at least a second apart, and there are no more of them than whole seconds
    have gone by. Without progress there are none. The counters are the totals as long as 64 bits hold them, and else
    what these hold of them: of the files that were counted, of their lines, and of the files that were skipped, told
    apart by whether the reason is a failure. -/
theorem run_paced (v : Overflow) (color : Bool) (acts : List Act) :
    ((totals acts).Fits → (totals acts).unsupported + (totals acts).unreadable < numberLimit →
      (start true).run? v color acts = some ((start true).run color acts)) ∧
    (v = .wraps → ∃ m texts, (start true).run? v color acts = some (m, texts)) ∧
    (start false).run? v color acts = ((start true).run? v color acts).map (fun last =>
      (last.1.withProgress false, last.2.map fun written => (written.1, unlessProgress written.2))) ∧
    ∀ m texts, (start true).run? v color acts = some (m, texts) →
      (∀ lines, m.count? v lines = (m.activity.count? v lines).map fun activity =>
        if (progressTimes texts).getLast?.getD 0 + nanosPerSecond ≤ m.now then
          ({ m with activity := activity, lastProgress := m.now }, activity.progress m.now)
        else ({ m with activity := activity }, "")) ∧
      (∀ a elapsed, progressLines (Activity.progress a elapsed) = 1) ∧
      (∀ act next text, (∀ lines, act ≠ .count lines) → m.step? v color act = some (next, text) →
        progressLines text = 0) ∧
      (progressTimes texts).Pairwise (fun time time' => time + nanosPerSecond ≤ time') ∧
      (progressTimes texts).length ≤ m.now / nanosPerSecond ∧
      progressTimes (texts.map fun written => (written.1, unlessProgress written.2)) = [] ∧
      m.now = (acts.filterMap Act.nanos?).sum ∧
      Activity.hold? v (totals acts) = some m.activity ∧
      ((totals acts).Fits → m.activity = totals acts) := by
  have hstart : (start true).activity + totals acts = totals acts := zero_add _
  refine ⟨fun hfits hskipped => ?_, ?_, run?_withProgress v color (start true) acts, fun m texts hrun => ?_⟩
  · rw [← hstart] at hfits hskipped
    exact run?_of_fits v color hfits hskipped
  · rintro rfl
    exact exists_run?_wraps color (start true) acts
  have hpaced : m.Paced (progressTimes texts) := paced_start.run? hrun
  have hfew : (progressTimes texts).length * nanosPerSecond ≤ m.now := Nat.le_trans hpaced.few hpaced.passed
  have hheld : Activity.hold? v (totals acts) = some m.activity := by
    rw [← hstart]
    exact hold?_totals (by decide) hrun
  refine ⟨fun lines => ?_, progressLines_progress, fun act next text hact hstep => progressLines_of_step? hstep hact,
    hpaced.spaced, (Nat.le_div_iff_mul_le (by decide)).mpr hfew, progressTimes_unlessProgress texts, ?_, hheld,
    fun hfits => Activity.eq_of_hold?_eq_some hfits hheld⟩
  · exact congrFun (congrArg Option.map (funext hpaced.settle_eq)) _
  · rw [now_run? hrun]
    exact Nat.zero_add _

/-- More lines than 64 bits hold: a build that drops bits goes on from zero, and one that stops does not come to the
    end. -/
theorem run_paced_overflow :
    let acts := [.count 18446744073709551615, .advance 1000000000, .count 1, .skip (.unsupported ⟨[]⟩)]
    (∃ m texts, (start true).run? .wraps false acts = some (m, texts) ∧ m.activity = ⟨2, 0, 1, 0⟩ ∧
      m.now = 1000000000 ∧ (progressTimes texts).length ≤ 1) ∧
    (start true).run? .stops false acts = none := by
  intro acts
  obtain ⟨_, hgoes, _, hwraps⟩ := run_paced .wraps false acts
  obtain ⟨_, _, _, hstops⟩ := run_paced .stops false acts
  obtain ⟨m, texts, hrun⟩ := hgoes rfl
  obtain ⟨_, _, _, _, hfew, _, hnow, hheld, _⟩ := hwraps m texts hrun
  have hclock : m.now = 1000000000 := hnow
  have htotals : (totals acts).wrapped = ⟨2, 0, 1, 0⟩ := by decide
  refine ⟨⟨m, texts, hrun, (Option.some.inj hheld).symm.trans htotals, hclock, ?_⟩, ?_⟩
  · rw [hclock] at hfew
    exact hfew
  · refine Option.eq_none_iff_forall_ne_some.mpr fun last hrun => ?_
    obtain ⟨_, _, _, _, _, _, _, hheld, _⟩ := hstops last.1 last.2 hrun
    cases hheld

end LineCensus.Meter
