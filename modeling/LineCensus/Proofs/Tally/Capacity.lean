import LineCensus.Proofs.Classify.Concatenation
import LineCensus.Proofs.Tally.Rows
import LineCensus.Tally.Checked

/-!
# `Proofs.Tally.Capacity` — when 64 bits are enough

Counts of lines are sound if no more lines are in the three buckets than there are. Sound counts stay sound when they
are added, and a bound on their total bounds everything else: the other counters, and the sum of the three buckets.
A row is at most the sum of all rows. So if the number of files and the number of their lines fit into 64 bits, no
addition on the way needs more, in whichever order the files come and whichever languages they have. And if one
of the two does not fit, then some addition does not.

## Contents
- `foldlM_eq_some_foldl` and `eq_foldl_of_foldlM_eq_some`, one pass of checked additions and back.
- `LineCounts.IsSound`, with `isSound_classify` and `isSound_sum`; `LineCounts.sum?_eq_some`.
- `Row.IsSmall`, a row that 64 bits hold; `Row.addFile?_eq_some` and `Row.add?_eq_some`.
- `Tally.lt_of_grandTotal?_eq_some`: what goes through fits.
- `Tally.FilesFit` and `Tally.Fits`, files and rows that 64 bits hold with all their sums, and `fits_ofFiles`, from
  one to the other; `ofFiles?_eq_some` and `grandTotal?_eq_some`.
- `Tally.counting_fits`.
-/

namespace LineCensus

open Decimal

theorem addWord?_eq_some {a b : Nat} (h : a + b < numberLimit) : addWord? a b = some (a + b) :=
  addWord?_eq_some_iff.mpr ⟨h, rfl⟩

/-! ## One pass of checked steps -/

section Pass

variable {State Item : Type} {step? : State → Item → Option State} {step : State → Item → State} {start : State}
  {items : List Item}

/-- **One pass of checked steps** is the pass without the checks, if each step goes through on what the steps before
    it have left. -/
theorem foldlM_eq_some_foldl
    (h : ∀ before item, before ++ [item] <+: items →
      step? (before.foldl step start) item = some ((before ++ [item]).foldl step start)) :
    items.foldlM step? start = some (items.foldl step start) := by
  induction items using List.reverseRecOn with
  | nil => rfl
  | append_singleton before item ih =>
    have hbefore : before.foldlM step? start = some (before.foldl step start) := by
      apply ih
      intro part next hpart
      exact h part next (hpart.trans (List.prefix_append before [item]))
    rw [List.foldlM_append, hbefore]
    show [item].foldlM step? (before.foldl step start) = _
    rw [List.foldlM_cons, h before item (List.prefix_refl _)]
    rfl

/-- If it goes through, it is that pass, and what each step ensures holds at the end. -/
theorem eq_foldl_of_foldlM_eq_some {Good : State → Prop} (hstart : Good start)
    (hstep : ∀ state item next, step? state item = some next → next = step state item ∧ Good next) {last : State}
    (h : items.foldlM step? start = some last) : last = items.foldl step start ∧ Good last := by
  induction items generalizing start with
  | nil =>
    cases h
    exact ⟨rfl, hstart⟩
  | cons item rest ih =>
    rw [List.foldlM_cons] at h
    obtain ⟨next, hnext, hrest⟩ := Option.bind_eq_some_iff.mp h
    obtain ⟨rfl, hgood⟩ := hstep start item next hnext
    exact ih hgood hrest

end Pass

/-! ## Sound counts -/

namespace LineCounts

/-- No more lines are in the three buckets than there are. -/
def IsSound (n : LineCounts) : Prop := n.classified ≤ n.total

instance : DecidablePred IsSound := fun _ => Nat.decLe _ _

variable {a b n : LineCounts}

theorem isSound_zero : IsSound 0 := Nat.le_refl 0

theorem IsSound.add (ha : a.IsSound) (hb : b.IsSound) : (a + b).IsSound := by
  simp only [IsSound, classified, add_total, add_empty, add_comment, add_code] at ha hb ⊢
  omega

theorem isSound_sum {counts : List LineCounts} (h : ∀ n ∈ counts, n.IsSound) : counts.sum.IsSound := by
  apply List.sum_induction IsSound
  · exact fun _ _ => IsSound.add
  · exact isSound_zero
  · exact h

/-- **Classified lines have sound counts**: each is in one bucket, or in none. -/
theorem isSound_classify (m : Markers) (lines : List (List Char)) : (m.classify lines).IsSound := by
  rw [IsSound, m.classify_eq_ofKinds, ofKinds_total]
  exact Nat.le_add_right ..

/-! ## Additions of sound counts -/

/-- **The total bounds the other counters.** -/
theorem add?_eq_some (ha : a.IsSound) (hb : b.IsSound) (h : (a + b).total < numberLimit) :
    a.add? b = some (a + b) := by
  simp only [IsSound, classified, add_total] at ha hb h
  unfold add?
  rw [addWord?_eq_some h, addWord?_eq_some (a := a.empty) (by omega), addWord?_eq_some (a := a.comment) (by omega),
    addWord?_eq_some (a := a.code) (by omega)]
  rfl

theorem eq_of_add?_eq_some {c : LineCounts} (h : a.add? b = some c) : c = a + b ∧ c.total < numberLimit := by
  unfold add? at h
  obtain ⟨total, htotal, h⟩ := Option.bind_eq_some_iff.mp h
  obtain ⟨empty, hempty, h⟩ := Option.bind_eq_some_iff.mp h
  obtain ⟨comment, hcomment, h⟩ := Option.bind_eq_some_iff.mp h
  obtain ⟨code, hcode, h⟩ := Option.bind_eq_some_iff.mp h
  obtain ⟨hfits, rfl⟩ := addWord?_eq_some_iff.mp htotal
  obtain ⟨-, rfl⟩ := addWord?_eq_some_iff.mp hempty
  obtain ⟨-, rfl⟩ := addWord?_eq_some_iff.mp hcomment
  obtain ⟨-, rfl⟩ := addWord?_eq_some_iff.mp hcode
  cases h
  exact ⟨rfl, hfits⟩

/-- It bounds the sum of the three buckets too. -/
theorem classified?_eq_some (hn : n.IsSound) (h : n.total < numberLimit) :
    n.classified? = some n.classified := by
  simp only [IsSound, classified] at hn
  have hfirst : n.empty + n.comment < numberLimit := by omega
  have hboth : n.empty + n.comment + n.code < numberLimit := by omega
  unfold classified?
  rw [addWord?_eq_some hfirst]
  exact addWord?_eq_some hboth

/-- **No addition of one pass needs more than 64 bits**, if the sum of the totals does not. -/
theorem sum?_eq_some {counts : List LineCounts} (hsound : ∀ n ∈ counts, n.IsSound)
    (h : counts.sum.total < numberLimit) : sum? counts = some counts.sum := by
  rw [List.sum_eq_foldl]
  apply foldlM_eq_some_foldl
  intro before n hprefix
  rw [← List.sum_eq_foldl, ← List.sum_eq_foldl, List.sum_append, List.sum_singleton]
  obtain ⟨after, rfl⟩ := hprefix
  obtain ⟨hsound, -⟩ := List.forall_mem_append.mp hsound
  obtain ⟨hbefore, hn⟩ := List.forall_mem_append.mp hsound
  refine add?_eq_some (isSound_sum hbefore) (hn n (List.mem_singleton_self n)) ?_
  rw [List.sum_append, List.sum_append, List.sum_singleton, add_total] at h
  exact Nat.lt_of_le_of_lt (Nat.le_add_right ..) h

end LineCounts

/-! ## Rows that 64 bits hold -/

namespace Row

variable {a b r : Row} {n : LineCounts}

/-- The number of files fits into 64 bits, and so does the number of lines. -/
structure IsSmall (r : Row) : Prop where
  files : r.files < numberLimit
  total : r.lines.total < numberLimit

theorem AtMost.isSmall (hab : a.AtMost b) (hb : b.IsSmall) : a.IsSmall where
  files := Nat.lt_of_le_of_lt hab.files hb.files
  total := Nat.lt_of_le_of_lt hab.lines.total hb.total

theorem addFile?_eq_some (hr : r.lines.IsSound) (hn : n.IsSound) (h : (r.addFile n).IsSmall) :
    r.addFile? n = some (r.addFile n) := by
  unfold addFile?
  rw [addWord?_eq_some h.files, LineCounts.add?_eq_some hr hn h.total]
  rfl

theorem add?_eq_some (ha : a.lines.IsSound) (hb : b.lines.IsSound) (h : (a + b).IsSmall) :
    a.add? b = some (a + b) := by
  unfold add?
  rw [addWord?_eq_some h.files, LineCounts.add?_eq_some ha hb h.total]
  rfl

theorem eq_of_addFile?_eq_some {next : Row} (h : r.addFile? n = some next) : next = r.addFile n := by
  unfold addFile? at h
  obtain ⟨files, hfiles, h⟩ := Option.bind_eq_some_iff.mp h
  obtain ⟨lines, hlines, h⟩ := Option.bind_eq_some_iff.mp h
  obtain ⟨-, rfl⟩ := addWord?_eq_some_iff.mp hfiles
  obtain ⟨rfl, -⟩ := LineCounts.eq_of_add?_eq_some hlines
  cases h
  rfl

theorem eq_of_add?_eq_some {next : Row} (h : a.add? b = some next) : next = a + b ∧ next.IsSmall := by
  unfold add? at h
  obtain ⟨files, hfiles, h⟩ := Option.bind_eq_some_iff.mp h
  obtain ⟨lines, hlines, h⟩ := Option.bind_eq_some_iff.mp h
  obtain ⟨hfits, rfl⟩ := addWord?_eq_some_iff.mp hfiles
  obtain ⟨rfl, htotal⟩ := LineCounts.eq_of_add?_eq_some hlines
  cases h
  exact ⟨rfl, hfits, htotal⟩

theorem isSound_sum_lines {rows : List Row} (h : ∀ row ∈ rows, row.lines.IsSound) : rows.sum.lines.IsSound := by
  apply List.sum_induction fun row : Row => row.lines.IsSound
  · exact fun _ _ => LineCounts.IsSound.add
  · exact LineCounts.isSound_zero
  · exact h

end Row

/-! ## Files and their rows -/

namespace Tally

/-- One file more needs no more than 64 bits, if none of the rows does that it leaves. -/
theorem recordIn?_eq_some {name : String} {n : LineCounts} {rows : List (String × Row)} (hn : n.IsSound)
    (hrows : ∀ entry ∈ rows, entry.2.lines.IsSound) (h : ∀ entry ∈ recordIn name n rows, entry.2.IsSmall) :
    recordIn? name n rows = some (recordIn name n rows) := by
  induction rows with
  | nil =>
    have hnew : ((0 : Row).addFile n).IsSmall := h _ List.mem_cons_self
    rw [recordIn?, Row.addFile?_eq_some LineCounts.isSound_zero hn hnew]
    rfl
  | cons entry rest ih =>
    obtain ⟨other, row⟩ := entry
    obtain ⟨hrow, hrest⟩ := List.forall_mem_cons.mp hrows
    rw [recordIn] at h ⊢
    rw [recordIn?]
    by_cases hname : name = other
    · rw [if_pos hname] at h ⊢
      rw [if_pos hname, Row.addFile?_eq_some hrow hn (h _ List.mem_cons_self)]
      rfl
    · rw [if_neg hname] at h ⊢
      rw [if_neg hname]
      by_cases hlt : nameLt name other
      · rw [if_pos hlt] at h ⊢
        rw [if_pos hlt, Row.addFile?_eq_some LineCounts.isSound_zero hn (h _ List.mem_cons_self)]
        rfl
      · rw [if_neg hlt] at h ⊢
        rw [if_neg hlt, ih hrest fun entry hentry => h entry (List.mem_cons_of_mem _ hentry)]
        rfl

theorem eq_of_recordIn?_eq_some {name : String} {n : LineCounts} {rows next : List (String × Row)}
    (h : recordIn? name n rows = some next) : next = recordIn name n rows := by
  induction rows generalizing next with
  | nil =>
    rw [recordIn?] at h
    obtain ⟨row, hrow, h⟩ := Option.bind_eq_some_iff.mp h
    cases h
    rw [Row.eq_of_addFile?_eq_some hrow, recordIn]
  | cons entry rest ih =>
    obtain ⟨other, row⟩ := entry
    rw [recordIn?] at h
    rw [recordIn]
    by_cases hname : name = other
    · rw [if_pos hname] at h ⊢
      obtain ⟨more, hmore, h⟩ := Option.bind_eq_some_iff.mp h
      cases h
      rw [Row.eq_of_addFile?_eq_some hmore]
    · rw [if_neg hname] at h ⊢
      by_cases hlt : nameLt name other
      · rw [if_pos hlt] at h ⊢
        obtain ⟨first, hfirst, h⟩ := Option.bind_eq_some_iff.mp h
        cases h
        rw [Row.eq_of_addFile?_eq_some hfirst]
      · rw [if_neg hlt] at h ⊢
        obtain ⟨later, hlater, h⟩ := Option.bind_eq_some_iff.mp h
        cases h
        rw [ih hlater]

theorem eq_of_ofFiles?_eq_some {files : List (String × LineCounts)} {t : Tally} (h : ofFiles? files = some t) :
    t = ofFiles files := by
  have hstep : ∀ (u : Tally) (file : String × LineCounts) next, u.record? file.1 file.2 = some next →
      next = u.record file.1 file.2 ∧ True := by
    intro u file next hnext
    obtain ⟨rows, hrows, rfl⟩ := Option.map_eq_some_iff.mp hnext
    exact ⟨congrArg Tally.mk (eq_of_recordIn?_eq_some hrows), trivial⟩
  exact (eq_foldl_of_foldlM_eq_some trivial hstep h).1

theorem eq_of_grandTotal?_eq_some {t : Tally} {total : Row} (h : t.grandTotal? = some total) :
    total = t.grandTotal ∧ total.IsSmall := by
  refine eq_foldl_of_foldlM_eq_some ⟨by decide, by decide⟩ ?_ h
  intro sum entry next hnext
  exact Row.eq_of_add?_eq_some hnext

/-- **Nothing more is counted**: if the files go through, and then their rows, 64 bits hold their numbers. -/
theorem lt_of_grandTotal?_eq_some {files : List (String × LineCounts)} {total : Row}
    (h : (ofFiles? files).bind grandTotal? = some total) :
    files.length < numberLimit ∧ (files.map fun file => file.2.total).sum < numberLimit := by
  obtain ⟨t, ht, htotal⟩ := Option.bind_eq_some_iff.mp h
  have hfiles := eq_of_ofFiles?_eq_some ht
  obtain ⟨rfl, hlength, hlines⟩ := eq_of_grandTotal?_eq_some htotal
  rw [hfiles, grandTotal_ofFiles] at hlength hlines
  rw [LineCounts.sum_total, List.map_map] at hlines
  exact ⟨hlength, hlines⟩

/-- Sound rows whose sum 64 bits hold. -/
structure Fits (t : Tally) : Prop where
  sound : ∀ entry ∈ t.rows, entry.2.lines.IsSound
  small : t.grandTotal.IsSmall

namespace Fits

variable {t : Tally}

theorem isSound_grandTotal (h : t.Fits) : t.grandTotal.lines.IsSound := by
  rw [grandTotal_eq_sum]
  exact Row.isSound_sum_lines (List.forall_mem_map.mpr h.sound)

theorem isSmall (h : t.Fits) : ∀ entry ∈ t.rows, entry.2.IsSmall := by
  intro entry hentry
  exact (atMost_grandTotal hentry).isSmall h.small

/-- Nothing is lost with the rows that are still to come. -/
theorem of_initial (h : t.Fits) {part : List (String × Row)} (hpart : part <+: t.rows) : Fits ⟨part⟩ := by
  obtain ⟨rest, hrest⟩ := hpart
  refine ⟨?_, ?_⟩
  · intro entry hentry
    exact h.sound entry (hrest ▸ List.mem_append_left rest hentry)
  · have hsum : t.grandTotal = grandTotal ⟨part⟩ + grandTotal ⟨rest⟩ := by
      rw [grandTotal_eq_sum, grandTotal_eq_sum, grandTotal_eq_sum, ← hrest, List.map_append, List.sum_append]
    exact (hsum ▸ Row.atMost_add_right ..).isSmall h.small

/-- **No addition of the rows needs more than 64 bits.** -/
theorem grandTotal?_eq_some (h : t.Fits) : t.grandTotal? = some t.grandTotal := by
  apply foldlM_eq_some_foldl
  intro before entry hprefix
  have hafter : Fits ⟨before ++ [entry]⟩ := h.of_initial hprefix
  have hbefore : Fits ⟨before⟩ := hafter.of_initial (List.prefix_append before [entry])
  have hentry : entry.2.lines.IsSound := hafter.sound entry List.mem_concat_self
  have hsum : grandTotal ⟨before ++ [entry]⟩ = grandTotal ⟨before⟩ + entry.2 := List.foldl_concat ..
  have hsmall : (grandTotal ⟨before⟩ + entry.2).IsSmall := hsum ▸ hafter.small
  rw [List.foldl_concat]
  exact Row.add?_eq_some hbefore.isSound_grandTotal hentry hsmall

end Fits

/-- Files with sound counts, with 64 bits enough for their number and for that of their lines. -/
structure FilesFit (files : List (String × LineCounts)) : Prop where
  sound : ∀ file ∈ files, file.2.IsSound
  length : files.length < numberLimit
  total : (files.map Prod.snd).sum.total < numberLimit

namespace FilesFit

variable {files : List (String × LineCounts)}

theorem perm (h : FilesFit files) {order : List (String × LineCounts)} (horder : order.Perm files) :
    FilesFit order where
  sound file hfile := h.sound file (horder.mem_iff.mp hfile)
  length := horder.length_eq ▸ h.length
  total := (horder.map Prod.snd).sum_eq ▸ h.total

/-- Nothing is lost with the files that are still to come. -/
theorem of_initial (h : FilesFit files) {done : List (String × LineCounts)} (hdone : done <+: files) :
    FilesFit done := by
  obtain ⟨rest, rfl⟩ := hdone
  refine ⟨fun file hfile => h.sound file (List.mem_append_left rest hfile), ?_, ?_⟩
  · have hlength := h.length
    rw [List.length_append] at hlength
    exact Nat.lt_of_le_of_lt (Nat.le_add_right ..) hlength
  · have htotal := h.total
    rw [List.map_append, List.sum_append, LineCounts.add_total] at htotal
    exact Nat.lt_of_le_of_lt (Nat.le_add_right ..) htotal

theorem isSound_counts (h : FilesFit files) : ∀ n ∈ files.map Prod.snd, n.IsSound :=
  List.forall_mem_map.mpr h.sound

theorem isSound_row (h : FilesFit files) : ∀ entry ∈ (ofFiles files).rows, entry.2.lines.IsSound := by
  rintro ⟨name, row⟩ hrow
  obtain ⟨-, rfl⟩ := mem_rows_ofFiles.mp hrow
  refine LineCounts.isSound_sum fun n hn => h.isSound_counts n ?_
  exact ((List.filter_sublist.map Prod.snd).subset hn)

/-- The rows of the files fit: together they are no more than the files. -/
theorem fits_ofFiles (h : FilesFit files) : (ofFiles files).Fits where
  sound := h.isSound_row
  small := by
    rw [grandTotal_ofFiles]
    exact ⟨h.length, h.total⟩

/-- **No file of one pass needs more than 64 bits**, whichever row it goes to. -/
theorem ofFiles?_eq_some (h : FilesFit files) : ofFiles? files = some (ofFiles files) := by
  apply foldlM_eq_some_foldl
  intro before file hprefix
  have hafter : FilesFit (before ++ [file]) := h.of_initial hprefix
  have hbefore : FilesFit before := hafter.of_initial (List.prefix_append before [file])
  have hfile : file.2.IsSound := hafter.sound file List.mem_concat_self
  have hstep : ofFiles (before ++ [file]) = (ofFiles before).record file.1 file.2 := List.foldl_concat ..
  have hrecord : recordIn? file.1 file.2 (ofFiles before).rows = some (recordIn file.1 file.2 (ofFiles before).rows) :=
    recordIn?_eq_some hfile hbefore.isSound_row (hstep ▸ hafter.fits_ofFiles).isSmall
  rw [List.foldl_concat]
  exact congrArg (Option.map Tally.mk) hrecord

end FilesFit

/-- **When 64 bits are enough.** Classified lines are never counted in more than one bucket. If files have such counts,
    and 64 bits hold their number and the number of their lines, then no addition needs more, in any order of the files
    and after any number of them: not in the sum of their counts nor in that of its three buckets, not in the row of
    any language, and not in the sum of the rows up to any of them. All these sums are sound again. The bounds are
    exact: wherever files are recorded and their rows added up within 64 bits, both numbers fit. -/
theorem counting_fits {files : List (String × LineCounts)} (hsound : ∀ file ∈ files, file.2.IsSound)
    (hlength : files.length < numberLimit) (htotal : (files.map fun file => file.2.total).sum < numberLimit) :
    (∀ (m : Markers) (lines : List (List Char)), (m.classify lines).IsSound) ∧
    (∀ order, order.Perm files → ∀ done, done <+: order →
      (∃ sum, LineCounts.sum? (done.map Prod.snd) = some sum ∧ sum = (done.map Prod.snd).sum ∧
        sum.IsSound ∧ sum.classified? = some sum.classified) ∧
      ofFiles? done = some (ofFiles done) ∧
      (∀ entry ∈ (ofFiles done).rows, entry.2.lines.IsSound) ∧
      ∀ part, part <+: (ofFiles done).rows →
        grandTotal? ⟨part⟩ = some (grandTotal ⟨part⟩) ∧ (grandTotal ⟨part⟩).lines.IsSound) ∧
    ∀ (others : List (String × LineCounts)) total, (ofFiles? others).bind grandTotal? = some total →
      others.length < numberLimit ∧ (others.map fun file => file.2.total).sum < numberLimit := by
  have hfit : FilesFit files := by
    refine ⟨hsound, hlength, ?_⟩
    rw [LineCounts.sum_total, List.map_map]
    exact htotal
  refine ⟨LineCounts.isSound_classify, fun order horder done hdone => ?_, fun _ _ => lt_of_grandTotal?_eq_some⟩
  have hpass : FilesFit done := (hfit.perm horder).of_initial hdone
  have hsum : (done.map Prod.snd).sum.IsSound := LineCounts.isSound_sum hpass.isSound_counts
  refine ⟨⟨_, LineCounts.sum?_eq_some hpass.isSound_counts hpass.total, rfl, hsum, ?_⟩, hpass.ofFiles?_eq_some,
    hpass.isSound_row, fun part hpart => ?_⟩
  · exact LineCounts.classified?_eq_some hsum hpass.total
  · have hrows : Fits ⟨part⟩ := hpass.fits_ofFiles.of_initial hpart
    exact ⟨hrows.grandTotal?_eq_some, hrows.isSound_grandTotal⟩

/-- Two files with as many lines as 64 bits hold. -/
def fullFiles : List (String × LineCounts) :=
  [("Vue", ⟨9223372036854775807, 7, 1, 0⟩), ("Java", ⟨9223372036854775808, 0, 0, 9223372036854775808⟩)]

/-- They are counted in the other order, and their rows are added up to the first one and to the last. -/
theorem counting_fits_fullFiles :
    (∀ file ∈ fullFiles, file.2.IsSound) ∧ fullFiles.length < numberLimit ∧
    (fullFiles.map fun file => file.2.total).sum + 1 = numberLimit ∧ fullFiles.reverse.Perm fullFiles ∧
    LineCounts.sum? (fullFiles.reverse.map Prod.snd) = some ⟨18446744073709551615, 7, 1, 9223372036854775808⟩ ∧
    LineCounts.classified? ⟨18446744073709551615, 7, 1, 9223372036854775808⟩ = some 9223372036854775816 ∧
    ofFiles? fullFiles.reverse = some ⟨[("Java", ⟨1, ⟨9223372036854775808, 0, 0, 9223372036854775808⟩⟩),
      ("Vue", ⟨1, ⟨9223372036854775807, 7, 1, 0⟩⟩)]⟩ ∧
    grandTotal? ⟨[("Java", ⟨1, ⟨9223372036854775808, 0, 0, 9223372036854775808⟩⟩)]⟩
      = some ⟨1, ⟨9223372036854775808, 0, 0, 9223372036854775808⟩⟩ ∧
    grandTotal? ⟨[("Java", ⟨1, ⟨9223372036854775808, 0, 0, 9223372036854775808⟩⟩),
      ("Vue", ⟨1, ⟨9223372036854775807, 7, 1, 0⟩⟩)]⟩
      = some ⟨2, ⟨18446744073709551615, 7, 1, 9223372036854775808⟩⟩ := by
  have hsound : ∀ file ∈ fullFiles, file.2.IsSound := by decide
  have hlength : fullFiles.length < numberLimit := by decide
  have hlimit : (fullFiles.map fun file => file.2.total).sum + 1 = numberLimit := by decide
  have hperm : fullFiles.reverse.Perm fullFiles := List.reverse_perm fullFiles
  obtain ⟨-, hall, -⟩ := counting_fits hsound hlength (hlimit ▸ Nat.lt_succ_self _)
  obtain ⟨⟨_, hsum, rfl, -, hclassified⟩, htally, -, hparts⟩ := hall fullFiles.reverse hperm _ (List.prefix_refl _)
  exact ⟨hsound, hlength, hlimit, hperm, hsum, hclassified, htally, (hparts [("Java", _)] ⟨[("Vue", _)], rfl⟩).1,
    (hparts _ (List.prefix_refl _)).1⟩

/-- With one line more the sum of the rows needs more than 64 bits, and it is the last row that does not fit. -/
example : grandTotal? ⟨[("Java", ⟨1, ⟨9223372036854775808, 0, 0, 0⟩⟩), ("Vue", ⟨1, ⟨9223372036854775808, 0, 0, 0⟩⟩)]⟩
    = none := by
  decide +kernel

end Tally

end LineCensus
