import LineCensus.Proofs.Glob.Language
import LineCensus.Proofs.Path.LastName
import LineCensus.Proofs.Scan.Filtering

/-!
# `Proofs.Scan.Patterns` — what a pattern picks

A pattern picks a file if the name of the file is in the language of the pattern, or the path of the file below
the root with a slash for each backslash. The name is what stands behind the last slash of that path. So a
pattern for an ending picks by the name alone: an ending without slashes reaches no further than the name.

## Contents
- `LastPart`, what stands behind the last slash; `exists_lastPart`, for a path below a root.
- `filespec_language`, what is picked by any pattern.
- `Path.nameEndsWith` and `scan_ending`, what is picked by a pattern for an ending.
-/

namespace LineCensus

/-! ## The last part of a path -/

theorem Path.joinNames_concat (names : List Name) (name : Name) :
    joinNames (names ++ [name]) = name ∨ ∃ front, joinNames (names ++ [name]) = front ++ slash :: name := by
  induction names with
  | nil => exact Or.inl rfl
  | cons first rest ih =>
    right
    have hjoin : joinNames (first :: rest ++ [name]) = first ++ slash :: joinNames (rest ++ [name]) := by
      cases rest <;> rfl
    rw [hjoin]
    rcases ih with h | ⟨front, h⟩
    · exact ⟨first, by rw [h]⟩
    · exact ⟨first ++ slash :: front, by rw [h, List.append_assoc, List.cons_append]⟩

/-- What stands behind the last slash of a text. -/
def LastPart (text last : List Char) : Prop :=
  '/' ∉ last ∧ (text = last ∨ ∃ front, text = front ++ '/' :: last)

/-- Names of which the last has no slash, with slashes between them: if they are a text, the last name is its
    last part. -/
theorem lastPart_of_joinNames {names : List Name} {name : Name} {text : List Char} (hname : name.IsProper)
    (h : Path.joinNames (names ++ [name]) = Utf8.encode text) :
    ∃ last, name = Utf8.encode last ∧ LastPart text last := by
  have hfree : ∀ last, name = Utf8.encode last → '/' ∉ last := by
    rintro last rfl hmem
    exact hname.2 (List.mem_flatMap.mpr ⟨'/', hmem, by decide⟩)
  rcases Path.joinNames_concat names name with honly | ⟨front, hfront⟩
  · have hencoded : name = Utf8.encode text := honly.symm.trans h
    exact ⟨text, hencoded, hfree text hencoded, Or.inl rfl⟩
  · obtain ⟨before, last, hcut, _, hlast⟩ :=
      Utf8.exists_of_encode_eq_append (by decide) (h.symm.trans hfront)
    exact ⟨last, hlast, hfree last hlast, Or.inr ⟨before, hcut⟩⟩

/-- **The name of a file** is the last part of its path below the root. -/
theorem exists_lastPart {root path : Path} {text : List Char} {name : Name}
    (hway : root.relativeTo? path = some ⟨Utf8.encode text⟩) (hbelow : text ≠ [])
    (hname : path.fileName? = some name) : ∃ last, name = Utf8.encode last ∧ LastPart text last := by
  have hends : path.EndsIn name := (Path.fileName?_eq_some_iff.mp hname).1
  unfold Path.relativeTo? at hway
  split at hway
  · rw [Option.some.injEq, Path.mk.injEq] at hway
    have hnonempty : path.components.drop root.components.length ≠ [] := by
      intro hnone
      rw [hnone] at hway
      exact hbelow (Utf8.encode_injective hway.symm)
    obtain ⟨names, last, hnames⟩ := (List.eq_nil_or_concat' _).resolve_left hnonempty
    have hlast : path.components.getLast? = some last := by
      rw [← List.take_append_drop root.components.length path.components, hnames, ← List.append_assoc,
        List.getLast?_concat]
    cases (Path.getLast?_components_iff.mp hlast).unique hends
    rw [hnames] at hway
    exact lastPart_of_joinNames hends.1.1 hway
  · cases hway

/-! ## What is picked by a pattern -/

section

variable {fs : FileSystem} {config : Config} {spec : String} {tokens : List Glob.Token}

/-- The name or the path below the root is in the language of the tokens. -/
def Selection.Picks (tokens : List Glob.Token) (root path : Path) : Prop :=
  (∃ name, path.fileName? = some (Utf8.encode name) ∧ Glob.Denotes tokens name) ∨
  (∃ text, root.relativeTo? path = some ⟨Utf8.encode text⟩ ∧ Glob.Denotes tokens (slashed text))

theorem considers_iff_picks (hplaced : Glob.WellPlaced tokens) {root path : Path} :
    (Selection.mk (some tokens) root).considers path = true ↔ Selection.Picks tokens root path := by
  show (Selection.matchesName tokens path || Selection.matchesRelative tokens root path) = true ↔ _
  rw [Bool.or_eq_true, matchesName_iff, matchesRelative_iff]
  simp only [Glob.matchesText_iff_denotes hplaced, Selection.Picks]

/-- **What a pattern picks.** Take a pattern that compiles. `Glob.Denotes` is the language of tokens: it
    satisfies the equations that define the language, and nothing else does. The search of a text says yes to
    the texts that the tokens of the pattern stand for, and to no others. A file whose path below the root is a
    text is considered if its name or this text, with a slash for each backslash, is in the language; the name
    is the last part of the text. The candidates of a scan are those of a scan without a pattern whose name, or
    path below the root with a slash for each backslash, is a text in the language. -/
theorem filespec_language (hcompiled : Glob.compile spec = .ok tokens) :
    Glob.IsLanguage Glob.Denotes ∧
    (∀ L, Glob.IsLanguage L → ∀ ts cs, L ts cs ↔ Glob.Denotes ts cs) ∧
    (∀ cs, Glob.matchesText tokens cs = true ↔ Glob.Denotes tokens cs) ∧
    (∀ root path text, root.relativeTo? path = some ⟨Utf8.encode text⟩ →
      ((Selection.mk (some tokens) root).considers path = true ↔
        (∃ name, path.fileName? = some (Utf8.encode name) ∧ Glob.Denotes tokens name) ∨
        Glob.Denotes tokens (slashed text)) ∧
      (text ≠ [] → ∀ name, path.fileName? = some name →
        ∃ last, name = Utf8.encode last ∧ LastPart text last)) ∧
    (∀ (fs : FileSystem) (config : Config), config.filespec = some spec → ∀ path,
      path ∈ candidates fs config ↔
        path ∈ candidates fs config.withoutPattern ∧
          Selection.Picks tokens (fs.walkRoot config.root) path) := by
  have hplaced := Glob.wellPlaced_of_compile hcompiled
  refine ⟨Glob.isLanguage_denotes, fun L hL => hL.unique Glob.isLanguage_denotes,
    fun cs => Glob.matchesText_iff_denotes hplaced, ?_, ?_⟩
  · intro root path text hway
    refine ⟨?_, fun hbelow name hname => exists_lastPart hway hbelow hname⟩
    rw [considers_iff_picks hplaced]
    refine or_congr_right ⟨?_, fun h => ⟨text, hway, h⟩⟩
    rintro ⟨text', hway', hdenotes⟩
    rw [hway, Option.some.injEq, Path.mk.injEq] at hway'
    rw [Utf8.encode_injective hway']
    exact hdenotes
  · intro fs config hspec path
    rw [candidates_eq_filter hspec hcompiled, List.mem_filter]
    exact and_congr_right fun _ => considers_iff_picks hplaced

/-- The tokens of a pattern with components and a set of which a character is to be outside. -/
def nestedTokens : List Glob.Token :=
  [.literal 's', .literal 'u', .literal 'b', .literal '/', .anyComponents, .literal 'b', .literal '.',
    .charSet true [.range 'a' 'o'], .anySequence]

theorem Glob.compileFrom_set {r : Reading} {rest after : List Char} {t : Token}
    (h : readSet? rest = some (t, after)) :
    compileFrom r ('[' :: rest) = compileFrom (r.push t (rest.length - after.length + 1) ']') after := by
  rw [compileFrom]
  split
  · rename_i hread
    cases h.symm.trans hread
    rfl
  · rename_i hread
    cases h.symm.trans hread

theorem compile_nestedTokens : Glob.compile "sub/**/b.[!a-o]*" = .ok nestedTokens := by
  have hset : Glob.readSet? ['!', 'a', '-', 'o', ']', '*']
      = some (.charSet true [.range 'a' 'o'], ['*']) := by decide
  simp [Glob.compile, Glob.compileFrom, Glob.compileFrom_set hset, Glob.Reading.push,
    Glob.Reading.pushComponents, Glob.Reading.atComponent, Glob.Reading.start, nestedTokens]

/-- A name with a backslash in it is not in the language, but the path below the root is: it has a slash
    there. -/
theorem filespec_language_nestedTokens :
    Glob.compile "sub/**/b.[!a-o]*" = .ok nestedTokens ∧
    ¬Glob.Denotes nestedTokens "sub\\b.py".toList ∧
    Glob.Denotes nestedTokens (slashed "sub\\b.py".toList) ∧
    (Selection.mk (some nestedTokens) (.ofString "/r")).considers (.ofString "/r/sub\\b.py") = true := by
  obtain ⟨_, _, hsearch, hfile, _⟩ := filespec_language compile_nestedTokens
  have hway : (Path.ofString "/r").relativeTo? (.ofString "/r/sub\\b.py")
      = some ⟨Utf8.encode "sub\\b.py".toList⟩ := by decide
  have hpath : Glob.Denotes nestedTokens (slashed "sub\\b.py".toList) := (hsearch _).mp (by decide)
  exact ⟨compile_nestedTokens, fun hname => absurd ((hsearch _).mpr hname) (by decide), hpath,
    (hfile _ _ _ hway).1.mpr (Or.inr hpath)⟩

/-! ## What is picked by a pattern for an ending -/

/-- The name of the path is a text that ends so. -/
def Path.nameEndsWith (ending : List Char) (path : Path) : Bool :=
  match path.fileName?.bind Utf8.decode? with
  | some name => ending.isSuffixOf name
  | none => false

variable {ending : List Char}

theorem Path.nameEndsWith_eq_matchesName (hplaced : Glob.WellPlaced (.anySequence :: ending.map .literal))
    (path : Path) :
    path.nameEndsWith ending = Selection.matchesName (.anySequence :: ending.map .literal) path := by
  unfold nameEndsWith Selection.matchesName
  cases path.fileName?.bind Utf8.decode? with
  | none => rfl
  | some name =>
    dsimp only
    rw [Bool.eq_iff_iff, List.isSuffixOf_iff_suffix, Glob.matchesText_iff_denotes hplaced, Glob.denotes_ending]

/-- Without slashes a text is as it was. -/
theorem eq_of_slashed {cs : List Char} (h : '/' ∉ slashed cs) : slashed cs = cs := by
  induction cs with
  | nil => rfl
  | cons c rest ih =>
    have hcons : slashed (c :: rest) = (if c = '\\' then '/' else c) :: slashed rest := rfl
    rw [hcons, List.mem_cons, not_or] at h
    have hc : c ≠ '\\' := fun hc => h.1 (if_pos hc).symm
    rw [hcons, if_neg hc, ih h.2]

/-- An ending without slashes reaches no further than the last part. -/
theorem suffix_of_lastPart {text last : List Char} (hslash : '/' ∉ ending) (hlast : LastPart text last)
    (h : ending <:+ slashed text) : ending <:+ last := by
  have htext : ending <:+ text := by
    obtain ⟨part, hpart, rfl⟩ := List.suffix_map_iff.mp h
    rwa [← slashed, eq_of_slashed hslash]
  rcases hlast.2 with rfl | ⟨front, rfl⟩
  · exact htext
  · rcases List.suffix_or_suffix_of_suffix htext (List.suffix_append front ('/' :: last)) with hshort | hlong
    · rcases List.suffix_cons_iff.mp hshort with rfl | hends
      · exact absurd List.mem_cons_self hslash
      · exact hends
    · exact absurd (hlong.mem List.mem_cons_self) hslash

/-- A file with a name is picked by its name or not at all. -/
theorem considers_ending (hne : ending ≠ []) (hslash : '/' ∉ ending)
    (hplaced : Glob.WellPlaced (.anySequence :: ending.map .literal)) {root path : Path}
    (hnamed : ∀ text, root.relativeTo? path = some ⟨Utf8.encode text⟩ → text ≠ [] →
      ∃ name, path.fileName? = some name) :
    (Selection.mk (some (.anySequence :: ending.map .literal)) root).considers path
      = Selection.matchesName (.anySequence :: ending.map .literal) path := by
  rw [Bool.eq_iff_iff, considers_iff_picks hplaced, matchesName_iff]
  simp only [Glob.matchesText_iff_denotes hplaced]
  refine ⟨?_, Or.inl⟩
  rintro (hname | ⟨text, hway, hdenotes⟩)
  · exact hname
  · rw [Glob.denotes_ending] at hdenotes
    have hbelow : text ≠ [] := by
      rintro rfl
      exact hne (List.suffix_nil.mp hdenotes)
    obtain ⟨name, hname⟩ := hnamed text hway hbelow
    obtain ⟨last, rfl, hlast⟩ := exists_lastPart hway hbelow hname
    exact ⟨last, hname, Glob.denotes_ending.mpr (suffix_of_lastPart hslash hlast hdenotes)⟩

/-- A file that a scan comes across has a name if it lies below the root. -/
theorem ComesAcross.exists_fileName (hlawful : fs.IsLawful) (hdots : fs.OmitsDots) {path : Path}
    (h : ComesAcross fs config path) {text : List Char}
    (hway : (fs.walkRoot config.root).relativeTo? path = some ⟨Utf8.encode text⟩) (hbelow : text ≠ []) :
    ∃ name, path.fileName? = some name := by
  rcases h with ⟨_, rfl⟩ | ⟨_, hmeets⟩
  · -- the root is no way below itself
    have hself := Path.relativeTo?_eq_joinNames rfl (List.append_nil (fs.walkRoot config.root).components).symm
    rw [hway, Option.some.injEq, Path.mk.injEq] at hself
    exact absurd (Utf8.encode_injective hself) hbelow
  · obtain ⟨names, name, hpath, hname⟩ := hmeets.goesOn hlawful hdots
    exact ⟨name, hpath.fileName? hname⟩

/-- **A pattern for an ending.** Take an ending that is not empty and has neither marks of a pattern nor slashes
    nor backslashes in it. A star and this ending are a pattern that compiles, and the candidates of a scan with
    it are the candidates without a pattern whose name is a text with this ending; whether the root is a
    directory or a file makes no difference. To try the path below the root as well adds no candidate and loses
    none. Of these files the scan looks at as many as its limit allows. -/
theorem scan_ending {e : String} (hne : e ≠ "")
    (hplain : ∀ c ∈ e.toList, c ∉ ['?', '*', '[', ']', '/', '\\'])
    (hspec : config.filespec = some ("*" ++ e)) (hlawful : fs.IsLawful) (hdots : fs.OmitsDots) :
    candidates fs config = (candidates fs config.withoutPattern).filter (Path.nameEndsWith e.toList) ∧
    (∃ tokens, Glob.compile ("*" ++ e) = .ok tokens ∧ ∀ path ∈ candidates fs config.withoutPattern,
      (fs.selecting config tokens).considers path = Selection.matchesName tokens path) ∧
    (∀ start, scanTraced fs config start = (scan fs config start,
      ((candidates fs config.withoutPattern).filter (Path.nameEndsWith e.toList)).take config.maxEntries)) := by
  have hslash : '/' ∉ e.toList := fun hmem => hplain '/' hmem (by decide)
  have hmarks : ∀ c ∈ e.toList, c ∉ Glob.marks := by
    intro c hc hmark
    exact hplain c hc (List.mem_append_left ([']', '/', '\\'] : List Char) hmark)
  have hcompiled := Glob.compile_ending hmarks
  have hplaced := Glob.wellPlaced_of_compile hcompiled
  have hpicked : ∀ path ∈ candidates fs config.withoutPattern,
      (fs.selecting config (.anySequence :: e.toList.map .literal)).considers path
        = Selection.matchesName (.anySequence :: e.toList.map .literal) path := by
    intro path hpath
    have hacross : ComesAcross fs config.withoutPattern path := (mem_candidates.mp hpath).1
    refine considers_ending ?_ hslash hplaced fun text => hacross.exists_fileName hlawful hdots
    exact fun hnil => hne (String.toList_eq_nil_iff.mp hnil)
  have hfilter : candidates fs config
      = (candidates fs config.withoutPattern).filter (Path.nameEndsWith e.toList) := by
    rw [candidates_eq_filter hspec hcompiled]
    refine List.filter_congr fun path hpath => ?_
    rw [hpicked path hpath, Path.nameEndsWith_eq_matchesName hplaced]
  refine ⟨hfilter, ⟨_, hcompiled, hpicked⟩, fun start => ?_⟩
  rw [scanTraced_eq, hfilter]

/-- The settings for the sample, with a pattern for an ending. -/
def endingConfig : Config := { Config.ofRoot (.ofString "/r") with filespec := some "*.py" }

/-- The ending picks the file in `sub` and not the link. -/
theorem scan_ending_sampleView :
    ".py" ≠ "" ∧ (∀ c ∈ ".py".toList, c ∉ ['?', '*', '[', ']', '/', '\\']) ∧
    endingConfig.filespec = some ("*" ++ ".py") ∧ sampleView.IsLawful ∧ sampleView.OmitsDots ∧
    candidates sampleView endingConfig = [.ofString "/r/sub/b.py"] ∧
    (scanTraced sampleView endingConfig .zero).2 = [.ofString "/r/sub/b.py"] := by
  have hplain : ∀ c ∈ ".py".toList, c ∉ ['?', '*', '[', ']', '/', '\\'] := by
    show ∀ c ∈ ['.', 'p', 'y'], _
    simp only [List.forall_mem_cons]
    exact ⟨by decide, by decide, by decide, nofun⟩
  have hspec : endingConfig.filespec = some ("*" ++ ".py") := by decide
  obtain ⟨hfilter, _, htraced⟩ := scan_ending (by decide) hplain hspec sampleView_isLawful sampleView_omitsDots
  have hall : candidates sampleView endingConfig.withoutPattern
      = [.ofString "/r/link.c", .ofString "/r/sub/b.py"] := candidates_sampleView
  have hpicked : (candidates sampleView endingConfig.withoutPattern).filter (Path.nameEndsWith ".py".toList)
      = [.ofString "/r/sub/b.py"] := by
    rw [hall]
    decide
  rw [hpicked] at hfilter
  refine ⟨by decide, hplain, hspec, sampleView_isLawful, sampleView_omitsDots, hfilter, ?_⟩
  rw [htraced, hpicked]
  rfl

end

end LineCensus
