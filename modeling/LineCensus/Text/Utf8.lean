/-!
# `Text.Utf8` — bytes and scalar values

A UTF-8 reader that takes one byte at a time, and two ways to run it.

## Contents
- **One byte.** `lead` says what a byte means between two scalar values, `Awaiting.next` what it means
  inside one. The bounds of the second byte shut out overlong forms, surrogates and values above
  `U+10FFFF`, so every scalar value has exactly one accepted form.
- **Strict reading.** `decode?` answers `none` as soon as one byte fits nowhere.
- **Replacing reading.** `decodeLossy` puts `U+FFFD` in place of each maximal sequence that cannot be
  continued, and reads the offending byte again as the start of something new.
- **Writing.** `encode`, and `bytes` for a whole string.
-/

namespace LineCensus.Utf8

/-- A scalar value of which some bytes are read. The next byte must lie between `low` and `high`;
    `more` continuation bytes follow it; `bits` is the value of the bytes so far. -/
structure Awaiting where
  low : UInt8
  high : UInt8
  more : Nat
  bits : Nat
  deriving DecidableEq, Repr

/-- What one more byte leads to. -/
inductive Progress where
  /-- The byte completes a scalar value. -/
  | done (c : Char)
  /-- The byte fits, and more are needed. -/
  | partway (a : Awaiting)
  /-- No scalar value continues with this byte. -/
  | refused
  deriving DecidableEq, Repr

/-! ## One byte -/

/-- A byte between two scalar values. -/
def lead (b : UInt8) : Progress :=
  if b < 0x80 then .done (Char.ofNat b.toNat)
  else if b < 0xC2 then .refused
  else if b < 0xE0 then .partway ⟨0x80, 0xBF, 0, b.toNat - 0xC0⟩
  else if b < 0xF0 then
    .partway ⟨if b = 0xE0 then 0xA0 else 0x80, if b = 0xED then 0x9F else 0xBF, 1, b.toNat - 0xE0⟩
  else if b < 0xF5 then
    .partway ⟨if b = 0xF0 then 0x90 else 0x80, if b = 0xF4 then 0x8F else 0xBF, 2, b.toNat - 0xF0⟩
  else .refused

/-- A byte inside a scalar value: it adds six bits if it lies within the bounds. -/
def Awaiting.next (a : Awaiting) (b : UInt8) : Progress :=
  if a.low ≤ b ∧ b ≤ a.high then
    let bits := a.bits * 64 + (b.toNat - 0x80)
    match a.more with
    | 0 => .done (Char.ofNat bits)
    | more + 1 => .partway ⟨0x80, 0xBF, more, bits⟩
  else .refused

/-- A byte, wherever the reader stands. -/
def advance : Option Awaiting → UInt8 → Progress
  | none, b => lead b
  | some a, b => a.next b

/-! ## Strict reading -/

/-- What is read so far, the last scalar value first, and the one in progress if there is one. -/
structure Reader where
  out : List Char
  awaiting : Option Awaiting
  deriving DecidableEq, Repr

/-- Nothing read yet. -/
def Reader.start : Reader := ⟨[], none⟩

/-- Take one byte, or refuse it. -/
def Reader.feed? (r : Reader) (b : UInt8) : Option Reader :=
  match advance r.awaiting b with
  | .done c => some ⟨c :: r.out, none⟩
  | .partway a => some ⟨r.out, some a⟩
  | .refused => none

/-- The text read, provided that no scalar value is left in progress. -/
def Reader.finish? (r : Reader) : Option (List Char) :=
  match r.awaiting with
  | none => some r.out.reverse
  | some _ => none

/-- The text that well-formed bytes stand for; `none` for all other bytes. -/
def decode? (bs : List UInt8) : Option (List Char) :=
  (bs.foldlM Reader.feed? Reader.start).bind Reader.finish?

/-! ## Replacing reading -/

/-- What stands for bytes that mean nothing. -/
def replacement : Char := '\uFFFD'

/-- Take one byte; a byte that breaks off a scalar value is read again from the start. -/
def Reader.feed (r : Reader) (b : UInt8) : Reader :=
  match advance r.awaiting b with
  | .done c => ⟨c :: r.out, none⟩
  | .partway a => ⟨r.out, some a⟩
  | .refused =>
    match r.awaiting with
    | none => ⟨replacement :: r.out, none⟩
    | some _ =>
      match lead b with
      | .done c => ⟨c :: replacement :: r.out, none⟩
      | .partway a => ⟨replacement :: r.out, some a⟩
      | .refused => ⟨replacement :: replacement :: r.out, none⟩

/-- The text read; a scalar value left in progress is replaced as well. -/
def Reader.finish (r : Reader) : List Char :=
  match r.awaiting with
  | none => r.out.reverse
  | some _ => (replacement :: r.out).reverse

/-- A readable text for any bytes. -/
def decodeLossy (bs : List UInt8) : List Char :=
  (bs.foldl Reader.feed Reader.start).finish

/-! ## Writing -/

/-- The bytes of a text. -/
def encode (cs : List Char) : List UInt8 := cs.flatMap String.utf8EncodeChar

/-- The bytes of a string. -/
def bytes (s : String) : List UInt8 := encode s.toList

/-- The string that well-formed bytes stand for. -/
def string? (bs : List UInt8) : Option String := (decode? bs).map String.ofList

@[simp] theorem encode_nil : encode [] = [] := rfl

@[simp] theorem encode_cons (c : Char) (cs : List Char) :
    encode (c :: cs) = String.utf8EncodeChar c ++ encode cs := by
  simp [encode]

@[simp] theorem encode_append (xs ys : List Char) : encode (xs ++ ys) = encode xs ++ encode ys := by
  simp [encode]

end LineCensus.Utf8
