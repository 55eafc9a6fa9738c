import LineCensus.Text.Blank
import LineCensus.Text.Pad
import LineCensus.Text.Split

/-!
# `Proofs.Text.Words` — texts that are put together from lines and words

A text of lines, each one ended, is cut into these lines again, if none of them holds a line end. A line of
words with blanks between them has these words as its fields, however many blanks there are.

## Contents
- `NoBlank` and `IsWord`: a text without blanks, a field.
- `Lacks`, `NoControl` and `OneLine`: a text without a character, without control characters, without line ends.
- `fields_eq_filter` with `fields_append_blank` and `fields_of_isWord`: the fields of a line, from its parts.
- `spaced` and `fields_spaced`, words with one blank between them; `fields_padRight` and `fields_padLeft`.
- `ofLines`, a text of lines; `splitAt_ofLines_append`, lines in front of a text.
- `wordsOf?`, the words of the line that starts with a given one (`StartsWith`); `wordsOf?_eq_some` and
  `wordsOf?_eq_none` for a text of lines.
-/

namespace LineCensus.Text

/-! ## Words -/

/-- The text holds no blank. -/
def NoBlank (cs : List Char) : Prop := ∀ c ∈ cs, isBlank c = false

instance : DecidablePred NoBlank := fun cs =>
  decidable_of_iff (cs.all (!isBlank ·) = true) (by simp [NoBlank, List.all_eq_true])

/-- A field: at least one character, and no blank. -/
def IsWord (cs : List Char) : Prop := cs ≠ [] ∧ NoBlank cs

instance : DecidablePred IsWord := fun cs => inferInstanceAs (Decidable (cs ≠ [] ∧ NoBlank cs))

theorem NoBlank.append {a b : List Char} (ha : NoBlank a) (hb : NoBlank b) : NoBlank (a ++ b) := by
  intro c hc
  rcases List.mem_append.mp hc with h | h
  · exact ha c h
  · exact hb c h

theorem IsWord.append {a b : List Char} (ha : IsWord a) (hb : NoBlank b) : IsWord (a ++ b) :=
  ⟨List.append_ne_nil_of_left_ne_nil ha.1 b, ha.2.append hb⟩

/-- The text does not hold the character. -/
def Lacks (c : Char) (s : String) : Prop := c ∉ s.toList

instance (c : Char) : DecidablePred (Lacks c) := fun s => inferInstanceAs (Decidable (c ∉ s.toList))

theorem Lacks.append {c : Char} {s t : String} (hs : Lacks c s) (ht : Lacks c t) : Lacks c (s ++ t) := by
  unfold Lacks at hs ht ⊢
  rw [String.toList_append, List.mem_append, not_or]
  exact ⟨hs, ht⟩

theorem lacks_join {c : Char} {texts : List String} (h : ∀ text ∈ texts, Lacks c text) :
    Lacks c (String.join texts) := by
  unfold Lacks
  rw [String.toList_join, List.mem_flatMap]
  rintro ⟨text, htext, hmem⟩
  exact h text htext hmem

theorem lacks_repeated {c d : Char} (hne : c ≠ d) (n : Nat) : Lacks c (repeated d n) := by
  unfold Lacks repeated
  rw [String.toList_ofList]
  exact fun h => hne (List.eq_of_mem_replicate h)

/-- The text holds no control characters but line ends. -/
def NoControl (s : String) : Prop := ∀ c ∈ s.toList, c = '\n' ∨ 32 ≤ c.toNat

instance : DecidablePred NoControl := fun _ => List.decidableBAll _ _

theorem NoControl.append {s t : String} (hs : NoControl s) (ht : NoControl t) : NoControl (s ++ t) := by
  unfold NoControl
  rw [String.toList_append]
  exact List.forall_mem_append.mpr ⟨hs, ht⟩

theorem NoControl.lacks {s : String} (h : NoControl s) {c : Char} (hend : c ≠ '\n') (hc : c.toNat < 32) :
    Lacks c s := by
  intro hmem
  rcases h c hmem with hline | hlow
  · exact hend hline
  · omega

/-- The text holds no line end. -/
def OneLine (s : String) : Prop := '\n' ∉ s.toList

instance : DecidablePred OneLine := fun s => inferInstanceAs (Decidable ('\n' ∉ s.toList))

theorem OneLine.append {s t : String} (hs : OneLine s) (ht : OneLine t) : OneLine (s ++ t) := Lacks.append hs ht

/-- A line end is a blank. -/
theorem oneLine_of_noBlank {s : String} (h : NoBlank s.toList) : OneLine s := by
  intro hmem
  have hblank : isBlank '\n' = true := by decide
  rw [h _ hmem] at hblank
  cases hblank

theorem isBlank_of_mem_repeated {n : Nat} {c : Char} (h : c ∈ (repeated ' ' n).toList) : isBlank c = true := by
  unfold repeated at h
  rw [String.toList_ofList] at h
  rw [List.eq_of_mem_replicate h]
  decide

/-! ## Fields -/

/-- The fields are the pieces between blanks, without the empty ones. -/
theorem fields_eq_filter (cs : List Char) :
    fields cs = (splitAt isBlank cs).filter fun piece => !piece.isEmpty := by
  -- the fold keeps the first piece apart from the fields after it
  have hfold : ∀ cs : List Char, ∃ word rest,
      cs.foldr (fun c (p : List Char × List (List Char)) =>
          if isBlank c then ([], if p.1.isEmpty then p.2 else p.1 :: p.2) else (c :: p.1, p.2)) ([], [])
        = (word, rest.filter fun piece => !piece.isEmpty) ∧ splitAt isBlank cs = word :: rest := by
    intro cs
    induction cs with
    | nil => exact ⟨[], [], rfl, rfl⟩
    | cons c rest ih =>
      obtain ⟨word, more, hfields, hpieces⟩ := ih
      rw [List.foldr_cons, hfields, splitAt_cons, hpieces]
      by_cases hc : isBlank c = true
      · rw [if_pos hc, if_pos hc]
        refine ⟨[], word :: more, ?_, rfl⟩
        cases word with
        | nil => rfl
        | cons d word => rfl
      · rw [if_neg hc, if_neg hc]
        exact ⟨c :: word, more, rfl, rfl⟩
  obtain ⟨word, rest, hfields, hpieces⟩ := hfold cs
  rw [hpieces]
  show (fun p : List Char × List (List Char) => if p.1.isEmpty then p.2 else p.1 :: p.2)
    (cs.foldr (fun c (p : List Char × List (List Char)) =>
      if isBlank c then ([], if p.1.isEmpty then p.2 else p.1 :: p.2) else (c :: p.1, p.2)) ([], [])) = _
  rw [hfields]
  cases word with
  | nil => rfl
  | cons c word => rfl

/-- **A blank parts the fields** before it from those after it. -/
theorem fields_append_blank {c : Char} (hc : isBlank c = true) (xs ys : List Char) :
    fields (xs ++ c :: ys) = fields xs ++ fields ys := by
  rw [fields_eq_filter, fields_eq_filter, fields_eq_filter, splitAt_append_separator hc, List.filter_append]

@[simp] theorem fields_nil : fields [] = [] := rfl

theorem fields_of_isWord {cs : List Char} (h : IsWord cs) : fields cs = [cs] := by
  rw [fields_eq_filter, splitAt_of_forall h.2, List.filter_cons_of_pos (by simpa using h.1), List.filter_nil]

/-- Blanks in front leave the fields as they are. -/
theorem fields_blanks_append {blanks : List Char} (h : ∀ c ∈ blanks, isBlank c = true) (cs : List Char) :
    fields (blanks ++ cs) = fields cs := by
  induction blanks with
  | nil => rfl
  | cons c rest ih =>
    obtain ⟨hc, hrest⟩ := List.forall_mem_cons.mp h
    have hstep := fields_append_blank hc [] (rest ++ cs)
    rw [List.nil_append, fields_nil, List.nil_append] at hstep
    rw [List.cons_append, hstep, ih hrest]

/-- So do blanks behind. -/
theorem fields_append_blanks {blanks : List Char} (h : ∀ c ∈ blanks, isBlank c = true) (cs : List Char) :
    fields (cs ++ blanks) = fields cs := by
  cases blanks with
  | nil => rw [List.append_nil]
  | cons c rest =>
    obtain ⟨hc, hrest⟩ := List.forall_mem_cons.mp h
    have hnone := fields_blanks_append hrest []
    rw [List.append_nil] at hnone
    rw [fields_append_blank hc, hnone, fields_nil, List.append_nil]

/-- A line that is moved in has the same fields. -/
theorem fields_indented (s : String) : fields ("  " ++ s).toList = fields s.toList := by
  have hindent : "  " = repeated ' ' 2 := by decide
  rw [hindent, String.toList_append]
  exact fields_blanks_append (fun _ => isBlank_of_mem_repeated) _

theorem fields_padRight (width : Nat) (s : String) : fields (padRight width s).toList = fields s.toList := by
  unfold padRight
  rw [String.toList_append]
  exact fields_append_blanks (fun _ => isBlank_of_mem_repeated) _

theorem fields_padLeft (width : Nat) (s : String) : fields (padLeft width s).toList = fields s.toList := by
  unfold padLeft
  rw [String.toList_append]
  exact fields_blanks_append (fun _ => isBlank_of_mem_repeated) _

/-! ## Words with one blank between them -/

/-- A word that is followed by a blank is the first field. -/
theorem fields_word_append {word : String} (hword : IsWord word.toList) (rest : String) :
    fields (word ++ " " ++ rest).toList = word.toList :: fields rest.toList := by
  have hblank : isBlank ' ' = true := by decide
  have hline : (word ++ " " ++ rest).toList = word.toList ++ ' ' :: rest.toList := by
    simp
  rw [hline, fields_append_blank hblank, fields_of_isWord hword]
  rfl

/-- The words with one blank between them. -/
def spaced (words : List String) : String := String.intercalate " " words

theorem spaced_singleton (word : String) : spaced [word] = word := rfl

theorem spaced_cons_cons (word next : String) (rest : List String) :
    spaced (word :: next :: rest) = word ++ " " ++ spaced (next :: rest) := by
  apply String.toList_inj.mp
  unfold spaced
  simp only [String.toList_intercalate, String.toList_append, List.map_cons, List.intercalate_cons_cons]

/-- The line of the words has them as its fields. -/
theorem fields_spaced {words : List String} (h : ∀ word ∈ words, IsWord word.toList) :
    fields (spaced words).toList = words.map String.toList := by
  induction words with
  | nil => rfl
  | cons word rest ih =>
    obtain ⟨hword, hrest⟩ := List.forall_mem_cons.mp h
    cases rest with
    | nil =>
      rw [spaced_singleton, fields_of_isWord hword]
      rfl
    | cons next rest =>
      rw [spaced_cons_cons, fields_word_append hword, ih hrest]
      rfl

theorem oneLine_spaced {words : List String} (h : ∀ word ∈ words, IsWord word.toList) :
    OneLine (spaced words) := by
  induction words with
  | nil => decide
  | cons word rest ih =>
    obtain ⟨hword, hrest⟩ := List.forall_mem_cons.mp h
    have hone : OneLine word := oneLine_of_noBlank hword.2
    cases rest with
    | nil =>
      rw [spaced_singleton]
      exact hone
    | cons next rest =>
      rw [spaced_cons_cons]
      exact (hone.append (by decide)).append (ih hrest)

/-! ## Lines -/

/-- The text of the lines, each one ended. -/
def ofLines (lines : List String) : String := String.join (lines.map (· ++ "\n"))

theorem ofLines_append (xs ys : List String) : ofLines (xs ++ ys) = ofLines xs ++ ofLines ys := by
  rw [ofLines, List.map_append, String.join_append]
  rfl

/-- Lines in front of a text are cut off, one by one. -/
theorem splitAt_ofLines_append {lines : List String} (h : ∀ line ∈ lines, OneLine line) (rest : List Char) :
    splitAt (· == '\n') ((ofLines lines).toList ++ rest)
      = lines.map String.toList ++ splitAt (· == '\n') rest := by
  unfold ofLines
  rw [String.toList_join]
  induction lines with
  | nil => rfl
  | cons line more ih =>
    obtain ⟨hline, hmore⟩ := List.forall_mem_cons.mp h
    have hpiece : splitAt (· == '\n') line.toList = [line.toList] := by
      refine splitAt_of_forall fun c hc => ?_
      rw [beq_eq_false_iff_ne]
      exact fun he => hline (he ▸ hc)
    have hcut : ∀ back, splitAt (· == '\n') (line.toList ++ '\n' :: back)
        = splitAt (· == '\n') line.toList ++ splitAt (· == '\n') back :=
      fun back => splitAt_append_separator (by decide) _ back
    rw [List.map_cons, List.flatMap_cons, String.toList_append, List.append_assoc, List.append_assoc]
    show splitAt _ (line.toList ++ '\n' :: ((more.map (· ++ "\n")).flatMap String.toList ++ rest)) = _
    rw [hcut, hpiece, ih hmore]
    rfl

/-! ## Reading a text -/

/-- The words of the first line that starts with the given one. -/
def wordsOf? (label : String) (text : String) : Option (List (List Char)) :=
  ((splitAt (· == '\n') text.toList).map fields).find? fun words => words.head? = some label.toList

/-- The first word of the line is this one. -/
def StartsWith (label line : String) : Prop := (fields line.toList).head? = some label.toList

instance (label line : String) : Decidable (StartsWith label line) :=
  inferInstanceAs (Decidable ((fields line.toList).head? = some label.toList))

theorem startsWith_spaced {word : String} {words : List String} (h : ∀ w ∈ word :: words, IsWord w.toList) :
    StartsWith word (spaced (word :: words)) := by
  unfold StartsWith
  rw [fields_spaced h]
  rfl

theorem startsWith_append {word : String} (hword : IsWord word.toList) (rest : String) :
    StartsWith word (word ++ " " ++ rest) := by
  unfold StartsWith
  rw [fields_word_append hword]
  rfl

/-- A line starts with one word only. -/
theorem StartsWith.not_of_ne {a b line : String} (ha : StartsWith a line) (hne : a ≠ b) :
    ¬StartsWith b line := by
  intro hb
  unfold StartsWith at ha hb
  rw [ha] at hb
  exact hne (String.toList_inj.mp (Option.some.inj hb))

/-- Lines in front that do not start with the word do not matter. -/
theorem wordsOf?_ofLines_append {lines : List String} {label : String} (hone : ∀ l ∈ lines, OneLine l)
    (h : ∀ l ∈ lines, ¬StartsWith label l) (rest : String) :
    wordsOf? label (ofLines lines ++ rest) = wordsOf? label rest := by
  have hnone : ((lines.map String.toList).map fields).find? (fun words => words.head? = some label.toList)
      = none := by
    refine List.find?_eq_none.mpr fun words hwords => ?_
    obtain ⟨_, hline, rfl⟩ := List.mem_map.mp hwords
    obtain ⟨line, hmem, rfl⟩ := List.mem_map.mp hline
    exact fun hstarts => h line hmem (of_decide_eq_true hstarts)
  unfold wordsOf?
  rw [String.toList_append, splitAt_ofLines_append hone, List.map_append, List.find?_append, hnone]
  exact Option.none_or

/-- A first line that starts with the word is the one. -/
theorem wordsOf?_line_append {label line : String} (hone : OneLine line) (h : StartsWith label line)
    (rest : String) : wordsOf? label (ofLines [line] ++ rest) = some (fields line.toList) := by
  unfold wordsOf?
  rw [String.toList_append, splitAt_ofLines_append (List.forall_mem_singleton.mpr hone), List.map_append,
    List.find?_append]
  have hfirst : (List.map fields [line.toList]).find? (fun words => words.head? = some label.toList)
      = some (fields line.toList) := List.find?_cons_of_pos (decide_eq_true h)
  rw [List.map_singleton, hfirst]
  rfl

/-- The line is the first that starts with the word. -/
theorem wordsOf?_eq_some {before after : List String} {label line : String}
    (hone : ∀ l ∈ before ++ line :: after, OneLine l) (hbefore : ∀ l ∈ before, ¬StartsWith label l)
    (hline : StartsWith label line) :
    wordsOf? label (ofLines (before ++ line :: after)) = some (fields line.toList) := by
  have hlines : ofLines (before ++ line :: after) = ofLines before ++ (ofLines [line] ++ ofLines after) := by
    rw [← ofLines_append, ← ofLines_append, List.singleton_append]
  rw [hlines, wordsOf?_ofLines_append (fun l hl => hone l (List.mem_append_left _ hl)) hbefore,
    wordsOf?_line_append (hone line (by simp)) hline]

/-- No line starts with the word. -/
theorem wordsOf?_eq_none {lines : List String} {label : String} (hone : ∀ l ∈ lines, OneLine l)
    (h : ∀ l ∈ lines, ¬StartsWith label l) : wordsOf? label (ofLines lines) = none := by
  have hempty : wordsOf? label "" = none := rfl
  rw [← String.append_empty (s := ofLines lines), wordsOf?_ofLines_append hone h, hempty]

end LineCensus.Text
