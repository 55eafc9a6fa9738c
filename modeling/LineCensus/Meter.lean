import LineCensus.Activity
import LineCensus.Decimal.Fixed
import LineCensus.Text.Style

/-!
# `Meter` — activity over time

Time is a whole number of nanoseconds.

## Contents
- `seconds` and `rate`, the two figures that are derived from time.
- `Activity.summary`, the closing summary of an activity.
- `Meter`, an activity with a clock; `Meter.count`, which writes a progress line once a second.
- `Activity.summary?`, `Meter.count?` and `Meter.skip?`, the same with counters of 64 bits.
-/

namespace LineCensus

/-- Nanoseconds in a second. -/
def nanosPerSecond : Nat := 1000000000

/-- A time in seconds: the whole seconds and the rest are converted apart, then added. -/
def seconds (nanos : Nat) : Float :=
  Float.ofNat (nanos / nanosPerSecond)
    + Float.ofNat (nanos % nanosPerSecond) / Float.ofNat nanosPerSecond

/-- The distance from one to the next number above it; no rate is taken over a shorter time. -/
def leastTime : Float := Float.ofBits 0x3CB0000000000000

/-- Units for each second; zero over no time. -/
def rate (value : Nat) (elapsed : Float) : Float :=
  if elapsed ≤ leastTime then 0.0 else Float.ofNat value / elapsed

open Text Decimal

/-- The closing summary with a number of skipped files in all. The last line is left out if there are none. -/
def Activity.summaryOf (a : Activity) (color : Bool) (elapsed skipped : Nat) : String :=
  let figure (text : String) := paint color .figure text
  let time := seconds elapsed
  "\n" ++ paint color .heading "Performance Summary:" ++ "\n"
    ++ "Classified " ++ figure (toString a.files) ++ " file(s), " ++ figure (toString a.lines)
    ++ " line(s) in " ++ figure (fixed 2 time) ++ "s ("
    ++ figure (fixed 1 (rate a.lines time)) ++ " lines/sec)\n"
    ++ if 0 < skipped then
        "Skipped " ++ figure (toString a.unsupported) ++ " unsupported and "
          ++ figure (toString a.unreadable) ++ " unreadable file(s)\n"
      else ""

/-- The closing summary. -/
def Activity.summary (a : Activity) (color : Bool) (elapsed : Nat) : String :=
  a.summaryOf color elapsed (a.unsupported + a.unreadable)

/-- The progress line; it starts at the left edge, over the one before. -/
def Activity.progress (a : Activity) (elapsed : Nat) : String :=
  let time := seconds elapsed
  "\rProcessed " ++ toString a.files ++ " files (" ++ fixed 1 (rate a.files time)
    ++ " files/sec) and " ++ toString a.lines ++ " lines (" ++ fixed 1 (rate a.lines time)
    ++ " lines/sec)..."

/-- An activity with a clock that starts at zero. -/
structure Meter where
  activity : Activity
  now : Nat
  /-- When progress was last due. -/
  lastProgress : Nat
  /-- Is progress written? -/
  showsProgress : Bool
  deriving DecidableEq, Repr

namespace Meter

/-- A new meter. -/
def start (showsProgress : Bool) : Meter := ⟨.zero, 0, 0, showsProgress⟩

/-- Is progress due? -/
def isDue (m : Meter) : Bool := nanosPerSecond ≤ m.now - m.lastProgress

/-- Time goes by. -/
def advance (m : Meter) (nanos : Nat) : Meter := { m with now := m.now + nanos }

/-- A file was counted, so this is the activity now; the text is what is written then. -/
def settle (m : Meter) (activity : Activity) : Meter × String :=
  let counted := { m with activity := activity }
  if m.isDue then
    ({ counted with lastProgress := m.now },
      if m.showsProgress then activity.progress m.now else "")
  else (counted, "")

/-- A file was counted. -/
def count (m : Meter) (lines : Nat) : Meter × String := m.settle (m.activity.count lines)

/-- A file was skipped. -/
def skip (m : Meter) (reason : SkipReason) : Meter :=
  { m with activity := m.activity.skip reason }

/-- The closing summary at this time. -/
def summary (m : Meter) (color : Bool) : String := m.activity.summary color m.now

end Meter

/-! ## In 64 bits -/

/-- The closing summary adds up the files that were skipped. -/
def Activity.summary? (v : Overflow) (a : Activity) (color : Bool) (elapsed : Nat) : Option String :=
  (v.add? a.unsupported a.unreadable).map (a.summaryOf color elapsed)

namespace Meter

/-- A file was counted. -/
def count? (v : Overflow) (m : Meter) (lines : Nat) : Option (Meter × String) :=
  (m.activity.count? v lines).map m.settle

/-- A file was skipped. -/
def skip? (v : Overflow) (m : Meter) (reason : SkipReason) : Option Meter :=
  (m.activity.skip? v reason).map fun activity => { m with activity := activity }

/-- The closing summary at this time. -/
def summary? (v : Overflow) (m : Meter) (color : Bool) : Option String := m.activity.summary? v color m.now

end Meter

end LineCensus
