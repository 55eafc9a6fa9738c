import LineCensus.Text.Utf8

/-!
# `Proofs.Text.Utf8` — the strict reader reads what the writer writes

Which bytes are well-formed is said twice: by the ranges of the bytes of a scalar value (`Sequence`), and as
what `encode` writes. The two agree (`wellFormed_iff`), and `decode?` accepts nothing else
(`decode?_eq_some_iff`).

## Contents
- `Sequence` and `WellFormed`, by ranges of bytes.
- `encodeChar_one` to `encodeChar_four`: the bytes of a sequence are those of one scalar value;
  `sequence_encodeChar`, the converse, and `encode_injective`.
- `lead_cases` and `second_iff`, what one byte leads to; from these `Sequence.foldlM_feed?` and
  `wellFormed_of_foldlM_feed?`.
- `wellFormed_iff` and `decode?_eq_some_iff`.
- `mem_encode_of_ascii` and `exists_of_encode_eq_append`: a byte below `0x80` stands for itself, and cuts the text
  that it stands in.
-/

namespace LineCensus.Utf8

/-! ## Ranges of bytes -/

/-- A byte that continues a scalar value. -/
def IsTail (b : UInt8) : Prop := 0x80 ≤ b ∧ b ≤ 0xBF

/-- The bytes of one scalar value. The first byte says how many follow. After four of the first bytes the
    range of the second is narrower: this leaves out overlong forms (`0xE0`, `0xF0`; `0xC0` and `0xC1` begin
    nothing else), surrogates (`0xED`) and values above `U+10FFFF` (`0xF4`). -/
inductive Sequence : List UInt8 → Prop where
  | one {a : UInt8} : a ≤ 0x7F → Sequence [a]
  | two {a b : UInt8} : 0xC2 ≤ a → a ≤ 0xDF → IsTail b → Sequence [a, b]
  | three {a b c : UInt8} : 0xE0 ≤ a → a ≤ 0xEF → IsTail b → IsTail c →
      (a = 0xE0 → 0xA0 ≤ b) → (a = 0xED → b ≤ 0x9F) → Sequence [a, b, c]
  | four {a b c d : UInt8} : 0xF0 ≤ a → a ≤ 0xF4 → IsTail b → IsTail c → IsTail d →
      (a = 0xF0 → 0x90 ≤ b) → (a = 0xF4 → b ≤ 0x8F) → Sequence [a, b, c, d]

/-- Bytes that are one sequence after another. -/
inductive WellFormed : List UInt8 → Prop where
  | nil : WellFormed []
  | cons {bs rest : List UInt8} : Sequence bs → WellFormed rest → WellFormed (bs ++ rest)

/-! ## Bytes and scalar values -/

theorem toNat_val_ofNat {n : Nat} (h : n.isValidChar) : (Char.ofNat n).val.toNat = n := by
  rw [Char.ofNat, dif_pos h]
  rfl

theorem encodeChar_one {a : UInt8} (ha : a ≤ 0x7F) : String.utf8EncodeChar (Char.ofNat a.toNat) = [a] := by
  simp only [UInt8.le_iff_toNat_le, UInt8.reduceToNat] at ha
  have hv : Nat.isValidChar a.toNat := Or.inl (by omega)
  unfold String.utf8EncodeChar
  rw [toNat_val_ofNat hv, if_pos ha, UInt8.ofNat_toNat]

theorem encodeChar_two {a b : UInt8} (ha : 0xC2 ≤ a) (ha' : a ≤ 0xDF) (hb : IsTail b) :
    String.utf8EncodeChar (Char.ofNat ((a.toNat - 0xC0) * 64 + (b.toNat - 0x80))) = [a, b] := by
  simp only [IsTail, UInt8.le_iff_toNat_le, UInt8.reduceToNat] at ha ha' hb
  have hv : Nat.isValidChar ((a.toNat - 0xC0) * 64 + (b.toNat - 0x80)) := Or.inl (by omega)
  unfold String.utf8EncodeChar
  rw [toNat_val_ofNat hv, if_neg (by omega), if_pos (by omega)]
  simp only [List.cons.injEq, ← UInt8.toNat_inj, UInt8.toNat_ofNat', and_true]
  omega

theorem encodeChar_three {a b c : UInt8} (ha : 0xE0 ≤ a) (ha' : a ≤ 0xEF) (hb : IsTail b) (hc : IsTail c)
    (hlow : a = 0xE0 → 0xA0 ≤ b) (hhigh : a = 0xED → b ≤ 0x9F) :
    String.utf8EncodeChar
        (Char.ofNat (((a.toNat - 0xE0) * 64 + (b.toNat - 0x80)) * 64 + (c.toNat - 0x80)))
      = [a, b, c] := by
  simp only [IsTail, UInt8.le_iff_toNat_le, UInt8.reduceToNat, ← UInt8.toNat_inj]
    at ha ha' hb hc hlow hhigh
  -- below the surrogates unless the first byte is `0xEE` or `0xEF`, and then above them
  have hv : Nat.isValidChar (((a.toNat - 0xE0) * 64 + (b.toNat - 0x80)) * 64 + (c.toNat - 0x80)) := by
    unfold Nat.isValidChar
    omega
  unfold String.utf8EncodeChar
  rw [toNat_val_ofNat hv, if_neg (by omega), if_neg (by omega), if_pos (by omega)]
  simp only [List.cons.injEq, ← UInt8.toNat_inj, UInt8.toNat_ofNat', and_true]
  omega

theorem encodeChar_four {a b c d : UInt8} (ha : 0xF0 ≤ a) (ha' : a ≤ 0xF4) (hb : IsTail b)
    (hc : IsTail c) (hd : IsTail d) (hlow : a = 0xF0 → 0x90 ≤ b) (hhigh : a = 0xF4 → b ≤ 0x8F) :
    String.utf8EncodeChar
        (Char.ofNat ((((a.toNat - 0xF0) * 64 + (b.toNat - 0x80)) * 64 + (c.toNat - 0x80)) * 64
          + (d.toNat - 0x80)))
      = [a, b, c, d] := by
  simp only [IsTail, UInt8.le_iff_toNat_le, UInt8.reduceToNat, ← UInt8.toNat_inj]
    at ha ha' hb hc hd hlow hhigh
  have hv : Nat.isValidChar ((((a.toNat - 0xF0) * 64 + (b.toNat - 0x80)) * 64 + (c.toNat - 0x80)) * 64
      + (d.toNat - 0x80)) := by
    unfold Nat.isValidChar
    omega
  unfold String.utf8EncodeChar
  rw [toNat_val_ofNat hv, if_neg (by omega), if_neg (by omega), if_neg (by omega)]
  simp only [List.cons.injEq, ← UInt8.toNat_inj, UInt8.toNat_ofNat', and_true]
  omega

/-- **What the writer writes for a scalar value is a sequence.** -/
theorem sequence_encodeChar (c : Char) : Sequence (String.utf8EncodeChar c) := by
  have hvalid := c.valid
  have htail : ∀ n, IsTail (UInt8.ofNat (n % 64 + 128)) := by
    intro n
    simp only [IsTail, UInt8.le_iff_toNat_le, UInt8.reduceToNat, UInt8.toNat_ofNat']
    omega
  unfold UInt32.isValidChar Nat.isValidChar at hvalid
  unfold String.utf8EncodeChar
  generalize c.val.toNat = v at hvalid ⊢
  dsimp only
  split
  · exact .one (by simp only [UInt8.le_iff_toNat_le, UInt8.reduceToNat, UInt8.toNat_ofNat']; omega)
  split
  · refine .two ?_ ?_ (htail _) <;>
      simp only [UInt8.le_iff_toNat_le, UInt8.reduceToNat, UInt8.toNat_ofNat'] <;> omega
  split
  · refine .three ?_ ?_ (htail _) (htail _) ?_ ?_ <;>
      simp only [UInt8.le_iff_toNat_le, UInt8.reduceToNat, UInt8.toNat_ofNat', ← UInt8.toNat_inj] <;> omega
  · refine .four ?_ ?_ (htail _) (htail _) (htail _) ?_ ?_ <;>
      simp only [UInt8.le_iff_toNat_le, UInt8.reduceToNat, UInt8.toNat_ofNat', ← UInt8.toNat_inj] <;> omega

theorem encode_injective {cs ds : List Char} (h : encode cs = encode ds) : cs = ds := by
  have htext : (String.ofList cs).toList.utf8Encode = (String.ofList ds).toList.utf8Encode := by
    rw [String.toList_ofList, String.toList_ofList]
    exact congrArg List.toByteArray h
  rw [String.utf8Encode_toList, String.utf8Encode_toList, String.toByteArray_inj] at htext
  exact String.ofList_injective htext

/-! ## One byte -/

theorem lead_one {b : UInt8} (h : b ≤ 0x7F) : lead b = .done (Char.ofNat b.toNat) := by
  simp only [UInt8.le_iff_toNat_le, UInt8.reduceToNat] at h
  unfold lead
  simp only [UInt8.lt_iff_toNat_lt, UInt8.reduceToNat]
  rw [if_pos (by omega)]

theorem lead_two {b : UInt8} (h : 0xC2 ≤ b) (h' : b ≤ 0xDF) :
    lead b = .partway ⟨0x80, 0xBF, 0, b.toNat - 0xC0⟩ := by
  simp only [UInt8.le_iff_toNat_le, UInt8.reduceToNat] at h h'
  unfold lead
  simp only [UInt8.lt_iff_toNat_lt, UInt8.reduceToNat]
  rw [if_neg (by omega), if_neg (by omega), if_pos (by omega)]

theorem lead_three {b : UInt8} (h : 0xE0 ≤ b) (h' : b ≤ 0xEF) :
    lead b = .partway
      ⟨if b = 0xE0 then 0xA0 else 0x80, if b = 0xED then 0x9F else 0xBF, 1, b.toNat - 0xE0⟩ := by
  simp only [UInt8.le_iff_toNat_le, UInt8.reduceToNat] at h h'
  unfold lead
  simp only [UInt8.lt_iff_toNat_lt, UInt8.reduceToNat]
  rw [if_neg (by omega), if_neg (by omega), if_neg (by omega), if_pos (by omega)]

theorem lead_four {b : UInt8} (h : 0xF0 ≤ b) (h' : b ≤ 0xF4) :
    lead b = .partway
      ⟨if b = 0xF0 then 0x90 else 0x80, if b = 0xF4 then 0x8F else 0xBF, 2, b.toNat - 0xF0⟩ := by
  simp only [UInt8.le_iff_toNat_le, UInt8.reduceToNat] at h h'
  unfold lead
  simp only [UInt8.lt_iff_toNat_lt, UInt8.reduceToNat]
  rw [if_neg (by omega), if_neg (by omega), if_neg (by omega), if_neg (by omega), if_pos (by omega)]

/-- A byte of no other range is refused between two scalar values. -/
theorem lead_cases (b : UInt8) :
    b ≤ 0x7F ∨ (0xC2 ≤ b ∧ b ≤ 0xDF) ∨ (0xE0 ≤ b ∧ b ≤ 0xEF) ∨ (0xF0 ≤ b ∧ b ≤ 0xF4) ∨
      lead b = .refused := by
  unfold lead
  simp only [UInt8.le_iff_toNat_le, UInt8.lt_iff_toNat_lt, UInt8.reduceToNat]
  split
  · omega
  split
  · exact Or.inr (Or.inr (Or.inr (Or.inr rfl)))
  split
  · omega
  split
  · omega
  split
  · omega
  · exact Or.inr (Or.inr (Or.inr (Or.inr rfl)))

/-- The bounds of a second byte: those of any tail, and a narrower one after two of the first bytes. -/
theorem second_iff {a b x y l h : UInt8} (hl : 0x80 ≤ l) (hh : h ≤ 0xBF) :
    ((if a = x then l else 0x80) ≤ b ∧ b ≤ if a = y then h else 0xBF) ↔
      IsTail b ∧ (a = x → l ≤ b) ∧ (a = y → b ≤ h) := by
  unfold IsTail
  grind [UInt8.le_trans]

namespace Reader

variable {a : Awaiting} {b low high : UInt8} {bs rest : List UInt8} {more bits : Nat}
  {out cs : List Char}

theorem feed?_done {c : Char} (h : lead b = .done c) : feed? ⟨out, none⟩ b = some ⟨c :: out, none⟩ := by
  simp only [feed?, advance, h]

theorem feed?_partway (h : lead b = .partway a) : feed? ⟨out, none⟩ b = some ⟨out, some a⟩ := by
  simp only [feed?, advance, h]

/-- The last byte of a scalar value. -/
theorem feed?_last (h : low ≤ b) (h' : b ≤ high) :
    feed? ⟨out, some ⟨low, high, 0, bits⟩⟩ b
      = some ⟨Char.ofNat (bits * 64 + (b.toNat - 0x80)) :: out, none⟩ := by
  simp only [feed?, advance, Awaiting.next, if_pos (And.intro h h')]

/-- A byte of a scalar value that is not the last one. -/
theorem feed?_more (h : low ≤ b) (h' : b ≤ high) :
    feed? ⟨out, some ⟨low, high, more + 1, bits⟩⟩ b
      = some ⟨out, some ⟨0x80, 0xBF, more, bits * 64 + (b.toNat - 0x80)⟩⟩ := by
  simp only [feed?, advance, Awaiting.next, if_pos (And.intro h h')]

/-- Inside a scalar value a byte outside the bounds is refused. -/
theorem bounds_of_feed? {r : Reader} (h : feed? ⟨out, some a⟩ b = some r) :
    a.low ≤ b ∧ b ≤ a.high := by
  by_cases hin : a.low ≤ b ∧ b ≤ a.high
  · exact hin
  · simp only [feed?, advance, Awaiting.next, if_neg hin] at h
    cases h

/-- A scalar value in progress goes on with a byte within the bounds. -/
theorem exists_of_foldlM_awaiting (h : bs.foldlM feed? ⟨out, some a⟩ = some ⟨cs, none⟩) :
    ∃ b rest r, bs = b :: rest ∧ a.low ≤ b ∧ b ≤ a.high ∧ feed? ⟨out, some a⟩ b = some r ∧
      rest.foldlM feed? r = some ⟨cs, none⟩ := by
  cases bs with
  | nil => cases h
  | cons b rest =>
    rw [List.foldlM_cons] at h
    obtain ⟨r, hr, hrest⟩ := Option.bind_eq_some_iff.mp h
    obtain ⟨hlow, hhigh⟩ := bounds_of_feed? hr
    exact ⟨b, rest, r, rfl, hlow, hhigh, hr, hrest⟩

/-- One byte is missing. -/
theorem exists_of_foldlM_last
    (h : bs.foldlM feed? ⟨out, some ⟨low, high, 0, bits⟩⟩ = some ⟨cs, none⟩) :
    ∃ b rest out', bs = b :: rest ∧ low ≤ b ∧ b ≤ high ∧
      rest.foldlM feed? ⟨out', none⟩ = some ⟨cs, none⟩ := by
  obtain ⟨b, rest, r, rfl, hlow, hhigh, hr, hrest⟩ := exists_of_foldlM_awaiting h
  rw [feed?_last hlow hhigh] at hr
  cases hr
  exact ⟨b, rest, _, rfl, hlow, hhigh, hrest⟩

/-- More than one byte is missing. -/
theorem exists_of_foldlM_more
    (h : bs.foldlM feed? ⟨out, some ⟨low, high, more + 1, bits⟩⟩ = some ⟨cs, none⟩) :
    ∃ b rest bits', bs = b :: rest ∧ low ≤ b ∧ b ≤ high ∧
      rest.foldlM feed? ⟨out, some ⟨0x80, 0xBF, more, bits'⟩⟩ = some ⟨cs, none⟩ := by
  obtain ⟨b, rest, r, rfl, hlow, hhigh, hr, hrest⟩ := exists_of_foldlM_awaiting h
  rw [feed?_more hlow hhigh] at hr
  cases hr
  exact ⟨b, rest, _, rfl, hlow, hhigh, hrest⟩

end Reader

/-! ## All bytes -/

/-- **The reader takes a sequence for the scalar value that it encodes.** -/
theorem Sequence.foldlM_feed? {bs : List UInt8} (h : Sequence bs) :
    ∃ c, String.utf8EncodeChar c = bs ∧
      ∀ out, bs.foldlM Reader.feed? ⟨out, none⟩ = some ⟨c :: out, none⟩ := by
  cases h with
  | one ha =>
    refine ⟨_, encodeChar_one ha, fun out => ?_⟩
    simp [Reader.feed?_done (lead_one ha)]
  | two ha ha' hb =>
    refine ⟨_, encodeChar_two ha ha' hb, fun out => ?_⟩
    simp [Reader.feed?_partway (lead_two ha ha'), Reader.feed?_last hb.1 hb.2]
  | @three a b c ha ha' hb hc hlow hhigh =>
    refine ⟨_, encodeChar_three ha ha' hb hc hlow hhigh, fun out => ?_⟩
    obtain ⟨hb, hb'⟩ := (second_iff (by decide) (by decide)).mpr ⟨hb, hlow, hhigh⟩
    simp [Reader.feed?_partway (lead_three ha ha'), Reader.feed?_more hb hb',
      Reader.feed?_last hc.1 hc.2]
  | @four a b c d ha ha' hb hc hd hlow hhigh =>
    refine ⟨_, encodeChar_four ha ha' hb hc hd hlow hhigh, fun out => ?_⟩
    obtain ⟨hb, hb'⟩ := (second_iff (by decide) (by decide)).mpr ⟨hb, hlow, hhigh⟩
    simp [Reader.feed?_partway (lead_four ha ha'), Reader.feed?_more hb hb',
      Reader.feed?_more hc.1 hc.2, Reader.feed?_last hd.1 hd.2]

/-- **The reader accepts sequences and nothing else.** -/
theorem wellFormed_of_foldlM_feed? (bs : List UInt8) {out cs : List Char}
    (h : bs.foldlM Reader.feed? ⟨out, none⟩ = some ⟨cs, none⟩) : WellFormed bs := by
  match bs with
  | [] => exact .nil
  | a :: rest =>
    rw [List.foldlM_cons] at h
    obtain ⟨r, hr, hrest⟩ := Option.bind_eq_some_iff.mp h
    rcases lead_cases a with ha | ⟨ha, ha'⟩ | ⟨ha, ha'⟩ | ⟨ha, ha'⟩ | href
    · rw [Reader.feed?_done (lead_one ha)] at hr
      cases hr
      exact .cons (.one ha) (wellFormed_of_foldlM_feed? rest hrest)
    · rw [Reader.feed?_partway (lead_two ha ha')] at hr
      cases hr
      obtain ⟨b, more, _, rfl, hb⟩ := Reader.exists_of_foldlM_last hrest
      exact .cons (.two ha ha' ⟨hb.1, hb.2.1⟩) (wellFormed_of_foldlM_feed? more hb.2.2)
    · rw [Reader.feed?_partway (lead_three ha ha')] at hr
      cases hr
      obtain ⟨b, rest, _, rfl, hb, hb', hrest⟩ := Reader.exists_of_foldlM_more hrest
      obtain ⟨c, more, _, rfl, hc, hc', hmore⟩ := Reader.exists_of_foldlM_last hrest
      obtain ⟨htail, hlow, hhigh⟩ := (second_iff (by decide) (by decide)).mp ⟨hb, hb'⟩
      exact .cons (.three ha ha' htail ⟨hc, hc'⟩ hlow hhigh) (wellFormed_of_foldlM_feed? more hmore)
    · rw [Reader.feed?_partway (lead_four ha ha')] at hr
      cases hr
      obtain ⟨b, rest, _, rfl, hb, hb', hrest⟩ := Reader.exists_of_foldlM_more hrest
      obtain ⟨c, rest, _, rfl, hc, hc', hrest⟩ := Reader.exists_of_foldlM_more hrest
      obtain ⟨d, more, _, rfl, hd, hd', hmore⟩ := Reader.exists_of_foldlM_last hrest
      obtain ⟨htail, hlow, hhigh⟩ := (second_iff (by decide) (by decide)).mp ⟨hb, hb'⟩
      exact .cons (.four ha ha' htail ⟨hc, hc'⟩ ⟨hd, hd'⟩ hlow hhigh)
        (wellFormed_of_foldlM_feed? more hmore)
    · simp only [Reader.feed?, advance, href] at hr
      cases hr
termination_by bs.length

/-- The reader reads what the writer writes, one scalar value after another. -/
theorem foldlM_feed?_encode (cs out : List Char) :
    (encode cs).foldlM Reader.feed? ⟨out, none⟩ = some ⟨cs.reverse ++ out, none⟩ := by
  induction cs generalizing out with
  | nil => rfl
  | cons c rest ih =>
    obtain ⟨d, hd, hread⟩ := (sequence_encodeChar c).foldlM_feed?
    -- no other scalar value has the same bytes
    have hcd : d = c := by
      have hbytes : encode [d] = encode [c] := by simp only [encode_cons, hd]
      exact List.singleton_inj.mp (encode_injective hbytes)
    rw [encode_cons, List.foldlM_append, hread, hcd]
    show (encode rest).foldlM Reader.feed? ⟨c :: out, none⟩ = _
    rw [ih, List.reverse_cons, List.append_assoc, List.singleton_append]

theorem decode?_encode (cs : List Char) : decode? (encode cs) = some cs := by
  unfold decode?
  rw [Reader.start, foldlM_feed?_encode]
  simp [Reader.finish?]

/-- **Well-formed bytes are those that the writer writes.** -/
theorem wellFormed_iff {bs : List UInt8} : WellFormed bs ↔ ∃ cs, bs = encode cs := by
  constructor
  · intro h
    induction h with
    | nil => exact ⟨[], rfl⟩
    | cons hseq _ ih =>
      obtain ⟨c, rfl, _⟩ := hseq.foldlM_feed?
      obtain ⟨cs, rfl⟩ := ih
      exact ⟨c :: cs, (encode_cons c cs).symm⟩
  · rintro ⟨cs, rfl⟩
    induction cs with
    | nil => exact .nil
    | cons c rest ih =>
      rw [encode_cons]
      exact .cons (sequence_encodeChar c) ih

/-- **Reading undoes writing, and accepts nothing else.** -/
theorem decode?_eq_some_iff {bs : List UInt8} {cs : List Char} : decode? bs = some cs ↔ bs = encode cs := by
  constructor
  · intro h
    obtain ⟨r, hr, hfinish⟩ := Option.bind_eq_some_iff.mp h
    obtain ⟨out, awaiting⟩ := r
    cases awaiting with
    | some a => cases hfinish
    | none =>
      obtain ⟨ds, rfl⟩ := wellFormed_iff.mp (wellFormed_of_foldlM_feed? bs hr)
      rw [decode?_encode] at h
      rw [Option.some.inj h]
  · rintro rfl
    exact decode?_encode cs

/-! ## ASCII -/

/-- A byte below `0x80` is a sequence of its own and no part of a longer one. -/
theorem Sequence.eq_singleton {bs : List UInt8} (h : Sequence bs) {b : UInt8} (hb : b ≤ 0x7F)
    (hmem : b ∈ bs) : bs = [b] := by
  have htail : ¬IsTail b := fun ht => absurd (UInt8.le_trans ht.1 hb) (by decide)
  have hlead : ∀ {a : UInt8}, 0x80 ≤ a → b ≠ a := by
    rintro a ha rfl
    exact absurd (UInt8.le_trans ha hb) (by decide)
  cases h with
  | one ha => rw [List.mem_singleton.mp hmem]
  | two ha =>
    have hfirst := hlead (UInt8.le_trans (by decide) ha)
    grind
  | three ha =>
    have hfirst := hlead (UInt8.le_trans (by decide) ha)
    grind
  | four ha =>
    have hfirst := hlead (UInt8.le_trans (by decide) ha)
    grind

/-- A byte below `0x80` stands for the scalar value of its own number, wherever it stands. -/
theorem mem_encode_of_ascii {b : UInt8} {cs : List Char} (hb : b ≤ 0x7F) (h : b ∈ encode cs) :
    Char.ofNat b.toNat ∈ cs := by
  obtain ⟨c, hc, hmem⟩ := List.mem_flatMap.mp h
  have hbytes : encode [c] = encode [Char.ofNat b.toNat] := by
    rw [encode_cons, encode_cons, (sequence_encodeChar c).eq_singleton hb hmem, encodeChar_one hb]
  rw [← List.singleton_inj.mp (encode_injective hbytes)]
  exact hc

/-- A byte below `0x80` cuts a text where it cuts its bytes. -/
theorem exists_of_encode_eq_append {b : UInt8} (hb : b ≤ 0x7F) {cs : List Char} {front back : List UInt8}
    (h : encode cs = front ++ b :: back) :
    ∃ before after, cs = before ++ Char.ofNat b.toNat :: after ∧ front = encode before ∧ back = encode after := by
  induction cs generalizing front with
  | nil => simp at h
  | cons c rest ih =>
    rw [encode_cons] at h
    rcases List.append_eq_append_iff.mp h with ⟨more, rfl, hrest⟩ | ⟨more, hchar, hback⟩
    · obtain ⟨before, after, rfl, rfl, rfl⟩ := ih hrest
      exact ⟨c :: before, after, rfl, (encode_cons c before).symm, rfl⟩
    · cases more with
      | nil =>
        -- the character ends where the byte stands
        obtain ⟨before, after, rfl, hbefore, rfl⟩ := @ih [] hback.symm
        refine ⟨c :: before, after, rfl, ?_, rfl⟩
        rw [encode_cons, hchar, ← hbefore, List.append_nil, List.append_nil]
      | cons d more =>
        cases hback
        have hmem : b ∈ String.utf8EncodeChar c := hchar ▸ List.mem_append_right _ List.mem_cons_self
        have hbytes : String.utf8EncodeChar c = [b] := (sequence_encodeChar c).eq_singleton hb hmem
        have hc : Char.ofNat b.toNat = c :=
          List.mem_singleton.mp (mem_encode_of_ascii hb (List.mem_append_left _ hmem : b ∈ encode [c]))
        rw [hbytes] at hchar
        -- it is a character of one byte, so nothing stands around the byte
        rcases List.singleton_eq_append_iff.mp hchar with ⟨rfl, hmore⟩ | ⟨_, hnone⟩
        · cases hmore
          exact ⟨[], rest, hc ▸ rfl, rfl, rfl⟩
        · cases hnone

end LineCensus.Utf8
