import LineCensus.Regex.Pattern

/-!
# `Regex.Room` — how large the automaton of a pattern would be

Patterns are bounded by the room that an automaton over bytes would take for them, with every repetition
written out. The automaton is needed twice, forward with the groups and backward without, and neither is
built here: only its states and links are counted.

## Contents
- `byteRanges`, the sequences of byte ranges that spell the characters of a set.
- `setRoom`, the room of a set.
- `Pattern.room`, the room of a pattern.
-/

namespace LineCensus.Regex

/-- The bytes of a state. -/
def stateRoom : Nat := 32

/-- The bytes of a link from a branching state. -/
def linkRoom : Nat := 4

/-- The bytes of a range of bytes in a state that has several. -/
def rangeRoom : Nat := 8

/-- The bytes that an automaton may take. -/
def roomLimit : Nat := 10485760

/-! ## Sets -/

/-- How many values so many continuation bytes have. -/
def blockSize : Nat → Nat
  | 0 => 1
  | more + 1 => 64 * blockSize more

/-- The sequences of ranges that hold the values from `low` to `high`, written in the base 64 with `more`
    digits after the first. `lead` is added to the first digit and 128 to the others. -/
def digitRanges (lead : Nat) : Nat → Nat → Nat → List (List (Nat × Nat))
  | 0, low, high => [[(lead + low, lead + high)]]
  | more + 1, low, high =>
    let block := blockSize (more + 1)
    let a := low / block
    let b := high / block
    if a = b then
      (digitRanges 0x80 more (low % block) (high % block)).map ((lead + a, lead + a) :: ·)
    else
      let start := if low % block = 0 then a else a + 1
      let stop := if high % block + 1 = block then b + 1 else b
      (if start = a then []
        else (digitRanges 0x80 more (low % block) (block - 1)).map ((lead + a, lead + a) :: ·))
      ++ (if start < stop then
            [(lead + start, lead + (stop - 1)) :: List.replicate (more + 1) (0x80, 0xBF)]
          else [])
      ++ (if stop = b + 1 then []
          else (digitRanges 0x80 more 0 (high % block)).map ((lead + b, lead + b) :: ·))

/-- The scalar values by the number of their continuation bytes, with what is added to the first byte. -/
def encodingSpans : List (Nat × Nat × Nat × Nat) :=
  [(0, 0x7F, 0, 0), (0x80, 0x7FF, 1, 0xC0), (0x800, 0xD7FF, 2, 0xE0), (0xE000, 0xFFFF, 2, 0xE0),
   (0x10000, 0x10FFFF, 3, 0xF0)]

/-- The sequences of byte ranges that spell the characters of a set. -/
def byteRanges (s : CharSet) : List (List (Nat × Nat)) :=
  s.flatMap fun (low, high) => encodingSpans.flatMap fun (first, last, more, lead) =>
    let low := max low first
    let high := min high last
    if low ≤ high then digitRanges lead more low high else []

/-- What follows the first range in the sequences that begin with it. -/
def tailsAfter (r : Nat × Nat) (sequences : List (List (Nat × Nat))) : List (List (Nat × Nat)) :=
  sequences.filterMap fun
    | [] => none
    | first :: rest => if first = r then some rest else none

/-- The different first ranges. -/
def headsOf (sequences : List (List (Nat × Nat))) : List (Nat × Nat) :=
  (sequences.filterMap List.head?).eraseDups

/-- What may be left of the sequences in a forward automaton, in up to `depth` bytes. Equal rests are one
    state. -/
def restsOf : Nat → List (List (Nat × Nat)) → List (List (List (Nat × Nat)))
  | 0, _ => []
  | depth + 1, sequences =>
    if (headsOf sequences).isEmpty then []
    else (sequences :: (headsOf sequences).flatMap fun r => restsOf depth (tailsAfter r sequences)).eraseDups

/-- How many states a backward automaton has: sequences that begin alike share them. -/
def sharedStates : Nat → List (List (Nat × Nat)) → Nat
  | 0, _ => 0
  | depth + 1, sequences =>
    (headsOf sequences).foldl (fun n r => n + 1 + sharedStates depth (tailsAfter r sequences)) 0

/-- The room of a set. -/
def setRoom (forward : Bool) (s : CharSet) : Nat :=
  let sequences := byteRanges s
  match s with
  | [] => stateRoom
  | [(low, high)] =>
    if low = high then stateRoom * (sequences.headD []).length
    else if s.isAscii then 2 * stateRoom + rangeRoom
    else wide sequences
  | _ => if s.isAscii then 2 * stateRoom + rangeRoom * s.length else wide sequences
where
  /-- The room of a set that is not ASCII. -/
  wide (sequences : List (List (Nat × Nat))) : Nat :=
    if forward then
      (restsOf 4 sequences).foldl (fun n rest => n + stateRoom + rangeRoom * (headsOf rest).length)
        stateRoom
    else stateRoom * (2 + sharedStates 4 sequences) + linkRoom * sequences.length

/-! ## Patterns -/

namespace Pattern

/-- May the pattern match an empty stretch at some gap? -/
def mayBeEmpty : Pattern → Bool
  | empty => true
  | chars s => s.isEmpty
  | anchor _ => true
  | seq p q => p.mayBeEmpty && q.mayBeEmpty
  | either p q => p.mayBeEmpty || q.mayBeEmpty
  | times p least _ => least == 0 || p.mayBeEmpty
  | group p => p.mayBeEmpty

/-- The room that `n` branching states take, each with two links. -/
def forks (n : Nat) : Nat := n * (stateRoom + 2 * linkRoom)

/-- The room of a pattern. -/
def room (forward : Bool) : Pattern → Nat
  | empty => stateRoom
  | chars s => setRoom forward s
  | anchor _ => stateRoom
  | seq p q => p.room forward + q.room forward
  | either p q =>
    p.room forward + q.room forward
      + match q with
        | either _ _ => linkRoom
        | _ => forks 1 + stateRoom
  | times p least none =>
    let once := p.room forward
    if least = 0 then once + if p.mayBeEmpty then forks 2 + stateRoom else forks 1
    else least * once + forks 1
  | times p least (some most) =>
    let once := p.room forward
    least * once
      + if least = most then 0 else (most - least) * (once + forks 1) + stateRoom
  | group p => p.room forward + if forward then 2 * stateRoom else 0

/-- Does the pattern ask for words in the letters of all scripts? -/
def asksForScripts : Pattern → Bool
  | empty => false
  | chars _ => false
  | anchor a => a == .anyScript
  | seq p q => p.asksForScripts || q.asksForScripts
  | either p q => p.asksForScripts || q.asksForScripts
  | times p _ _ => p.asksForScripts
  | group p => p.asksForScripts

end Pattern

end LineCensus.Regex
