import LineCensus.Glob.Denotation
import LineCensus.Proofs.Glob.Placement

/-!
# `Proofs.Glob.Search` — a search that gives up early finds what there is to find

`Glob.search` tries one way to split the text after another. When the text ends too early it gives up, and
leaves later splits untried. This is right because what is left of the text only gets shorter, with one
exception: components are tried behind slashes only, so a text that is too short for them here might be one
for them where they are not tried. They stand behind a slash in every pattern that compiles, and there the
exception does not arise.

## Contents
- `Reached`, the places in a text where a search goes on; `sweep_eq`, the place that decides a sweep.
- `denotes_of_isSequence` and `search_of_isSequence`, tokens for sequences; `denotes_of_single` and
  `search_of_single`, the others.
- `Verdict.Asserts`, what an answer asserts; `search_asserts`, and from it `matchesText_iff_denotes`.
-/

namespace LineCensus.Glob

/-! ## Places -/

/-- A place in the text behind a character that satisfies `stop`, or the end of the text. A place is given by
    what follows it. -/
def Behind (stop : Char → Bool) (cs place : List Char) : Prop :=
  place = [] ∨ ∃ front c, stop c = true ∧ cs = front ++ c :: place

/-- The start of the text, or such a place. -/
def Reached (stop : Char → Bool) (cs place : List Char) : Prop := place = cs ∨ Behind stop cs place

section

variable {stop stop' : Char → Bool} {c : Char} {cs place other : List Char}

theorem reached_refl (stop : Char → Bool) (cs : List Char) : Reached stop cs cs := Or.inl rfl

theorem behind_nil : Behind stop [] place ↔ place = [] := by
  constructor
  · rintro (h | ⟨front, c, _, h⟩)
    · exact h
    · simp at h
  · exact Or.inl

theorem behind_cons : Behind stop (c :: cs) place ↔ stop c = true ∧ place = cs ∨ Behind stop cs place := by
  constructor
  · rintro (rfl | ⟨front, d, hd, hcut⟩)
    · exact Or.inr (Or.inl rfl)
    · cases front with
      | nil =>
        cases hcut
        exact Or.inl ⟨hd, rfl⟩
      | cons e more =>
        cases hcut
        exact Or.inr (Or.inr ⟨more, d, hd, rfl⟩)
  · rintro (⟨hc, rfl⟩ | rfl | ⟨front, d, hd, rfl⟩)
    · exact Or.inr ⟨[], c, hc, rfl⟩
    · exact Or.inl rfl
    · exact Or.inr ⟨c :: front, d, hd, rfl⟩

theorem Behind.trans (h : Behind stop cs place) (h' : Behind stop place other) : Behind stop cs other := by
  rcases h' with rfl | ⟨front', d, hd, rfl⟩
  · exact Or.inl rfl
  · rcases h with h | ⟨front, c, _, rfl⟩
    · simp at h
    · exact Or.inr ⟨front ++ c :: front', d, hd, by simp⟩

theorem Reached.trans (h : Reached stop cs place) (h' : Reached stop place other) : Reached stop cs other := by
  rcases h with rfl | h
  · exact h'
  · rcases h' with rfl | h'
    · exact Or.inr h
    · exact Or.inr (h.trans h')

theorem Reached.mono (hstop : ∀ c, stop c = true → stop' c = true) (h : Reached stop cs place) :
    Reached stop' cs place := by
  rcases h with rfl | rfl | ⟨front, c, hc, rfl⟩
  · exact Or.inl rfl
  · exact Or.inr (Or.inl rfl)
  · exact Or.inr (Or.inr ⟨front, c, hstop c hc, rfl⟩)

/-- **The place that decides a sweep.** Places before it do not match, and where it does not match either no
    place does. -/
theorem sweep_eq (rest : List Char → Verdict) (stop : Char → Bool) (cs : List Char) :
    ∃ place, Behind stop cs place ∧ sweep rest stop cs = rest place ∧
      ∀ other, Behind stop cs other → rest other = .mismatch ∨
        sweep rest stop cs ≠ .mismatch ∧ Reached stop place other := by
  induction cs with
  | nil =>
    refine ⟨[], Or.inl rfl, rfl, fun other hother => ?_⟩
    rw [behind_nil.mp hother]
    by_cases h : rest [] = .mismatch
    · exact Or.inl h
    · exact Or.inr ⟨h, reached_refl _ _⟩
  | cons c cs ih =>
    by_cases hdecides : stop c = true ∧ rest cs ≠ .mismatch
    · obtain ⟨hc, hrest⟩ := hdecides
      have hhere : sweep rest stop (c :: cs) = rest cs := by
        rw [sweep, if_pos hc]
        cases hverdict : rest cs with
        | mismatch => exact absurd hverdict hrest
        | found => rfl
        | tooShort => rfl
      refine ⟨cs, behind_cons.mpr (Or.inl ⟨hc, rfl⟩), hhere, fun other hother => Or.inr ⟨hhere ▸ hrest, ?_⟩⟩
      rcases behind_cons.mp hother with ⟨_, rfl⟩ | hother
      · exact reached_refl _ _
      · exact Or.inr hother
    · -- the sweep goes on
      have hskipped : stop c = true → rest cs = .mismatch :=
        fun hc => Decidable.not_not.mp fun hne => hdecides ⟨hc, hne⟩
      have hon : sweep rest stop (c :: cs) = sweep rest stop cs := by
        rw [sweep]
        by_cases hc : stop c = true
        · rw [if_pos hc, hskipped hc]
        · rw [if_neg hc]
      obtain ⟨place, hplace, hsweep, hothers⟩ := ih
      refine ⟨place, behind_cons.mpr (Or.inr hplace), hon.trans hsweep, fun other hother => ?_⟩
      rw [hon]
      rcases behind_cons.mp hother with ⟨hc, rfl⟩ | hother
      · exact Or.inl (hskipped hc)
      · exact hothers other hother

end

/-! ## Two sorts of tokens -/

/-- Does the token stand for sequences of any length? -/
def Token.isSequence : Token → Bool
  | .literal _ => false
  | .anyChar => false
  | .charSet _ _ => false
  | .anySequence => true
  | .anyComponents => true

/-- May a text that the token stands for end with this character? -/
def Token.endsWith (c : Char) : Token → Bool
  | .anySequence => true
  | .anyComponents => c == '/'
  | t => t.accepts c

section

variable {t : Token} {ts : List Token} {cs : List Char}

/-- **A sequence** reaches from the start to any place behind a character that it may end with. -/
theorem denotes_of_isSequence (h : t.isSequence = true) :
    Denotes (t :: ts) cs ↔ ∃ place, Reached (t.endsWith ·) cs place ∧ Denotes ts place := by
  cases t with
  | literal c => cases h
  | anyChar => cases h
  | charSet negated items => cases h
  | anySequence =>
    constructor
    · intro hd
      cases hd with
      | one ha => cases ha
      | @sequence ts xs rest hrest =>
        refine ⟨rest, ?_, hrest⟩
        rcases List.eq_nil_or_concat xs with rfl | ⟨front, c, rfl⟩
        · exact Or.inl rfl
        · exact Or.inr (Or.inr ⟨front, c, rfl, by simp⟩)
    · rintro ⟨place, rfl | rfl | ⟨front, c, _, rfl⟩, hplace⟩
      · rw [← List.nil_append place]
        exact .sequence hplace
      · rw [← List.append_nil cs]
        exact .sequence hplace
      · rw [List.append_cons]
        exact .sequence hplace
  | anyComponents =>
    constructor
    · intro hd
      cases hd with
      | one ha => cases ha
      | noComponents hrest => exact ⟨cs, reached_refl _ _, hrest⟩
      | @components ts front rest hrest => exact ⟨rest, Or.inr (Or.inr ⟨front, '/', rfl, rfl⟩), hrest⟩
      | remainder hrest => exact ⟨[], Or.inr (Or.inl rfl), hrest⟩
    · rintro ⟨place, rfl | rfl | ⟨front, c, hc, rfl⟩, hplace⟩
      · exact .noComponents hplace
      · exact .remainder hplace
      · rw [eq_of_beq hc]
        exact .components hplace

/-- A token that is no sequence stands for one character. -/
theorem denotes_of_single (h : t.isSequence = false) :
    Denotes (t :: ts) cs ↔ ∃ c rest, cs = c :: rest ∧ t.accepts c = true ∧ Denotes ts rest := by
  constructor
  · intro hd
    cases hd with
    | one ha hrest => exact ⟨_, _, rfl, ha, hrest⟩
    | sequence => cases h
    | noComponents => cases h
    | components => cases h
    | remainder => cases h
  · rintro ⟨c, rest, rfl, ha, hrest⟩
    exact .one ha hrest

theorem endsWith_of_single (h : t.isSequence = false) (c : Char) : t.endsWith c = t.accepts c := by
  cases t with
  | literal d => rfl
  | anyChar => rfl
  | charSet negated items => rfl
  | anySequence => cases h
  | anyComponents => cases h

theorem search_eq_sweep (h : t.isSequence = true) (hstart : search ts cs = .mismatch) :
    search (t :: ts) cs = sweep (search ts) (t.endsWith ·) cs := by
  cases t with
  | literal c => cases h
  | anyChar => cases h
  | charSet negated items => cases h
  | anySequence =>
    rw [search, hstart]
    rfl
  | anyComponents =>
    rw [search, hstart]
    rfl

theorem search_eq_start (h : t.isSequence = true) (hstart : search ts cs ≠ .mismatch) :
    search (t :: ts) cs = search ts cs := by
  cases t with
  | literal c => cases h
  | anyChar => cases h
  | charSet negated items => cases h
  | anySequence =>
    rw [search]
    cases hverdict : search ts cs with
    | mismatch => exact absurd hverdict hstart
    | found => rfl
    | tooShort => rfl
  | anyComponents =>
    rw [search]
    cases hverdict : search ts cs with
    | mismatch => exact absurd hverdict hstart
    | found => rfl
    | tooShort => rfl

/-- **The place that decides a search** that begins with a sequence. -/
theorem search_of_isSequence (h : t.isSequence = true) (ts : List Token) (cs : List Char) :
    ∃ place, Reached (t.endsWith ·) cs place ∧ search (t :: ts) cs = search ts place ∧
      ∀ other, Reached (t.endsWith ·) cs other → search ts other = .mismatch ∨
        search (t :: ts) cs ≠ .mismatch ∧ Reached (t.endsWith ·) place other := by
  by_cases hstart : search ts cs = .mismatch
  · obtain ⟨place, hplace, hsweep, hothers⟩ := sweep_eq (search ts) (t.endsWith ·) cs
    rw [search_eq_sweep h hstart]
    refine ⟨place, Or.inr hplace, hsweep, ?_⟩
    rintro other (rfl | hother)
    · exact Or.inl hstart
    · exact hothers other hother
  · rw [search_eq_start h hstart]
    exact ⟨cs, reached_refl _ _, rfl, fun other hother => Or.inr ⟨hstart, hother⟩⟩

/-- A search that begins with one character. -/
theorem search_of_single (h : t.isSequence = false) (ts : List Token) (cs : List Char) :
    search (t :: ts) cs = match cs with
      | [] => .tooShort
      | c :: rest => if t.accepts c then search ts rest else .mismatch := by
  cases t with
  | literal d => cases cs <;> rw [search] <;> nofun
  | anyChar => cases cs <;> rw [search] <;> nofun
  | charSet negated items => cases cs <;> rw [search] <;> nofun
  | anySequence => cases h
  | anyComponents => cases h

end

/-! ## What an answer asserts -/

/-- May the tokens be tried behind this character? Components are tried behind a slash only. -/
def resumes (c : Char) : List Token → Bool
  | .anyComponents :: _ => c == '/'
  | _ => true

/-- What an answer asserts of the tokens and the text. To give up is to say that they stand for nothing from any
    place on where they can still be tried. -/
def Verdict.Asserts (ts : List Token) (cs : List Char) : Verdict → Prop
  | .found => Denotes ts cs
  | .mismatch => ¬Denotes ts cs
  | .tooShort => ∀ place, Reached (resumes · ts) cs place → ¬Denotes ts place

section

variable {t : Token} {ts : List Token}

theorem resumes_of_isSequence (h : t.isSequence = true) (c : Char) : resumes c (t :: ts) = t.endsWith c := by
  cases t with
  | literal d => cases h
  | anyChar => cases h
  | charSet negated items => cases h
  | anySequence => rfl
  | anyComponents => rfl

/-- Behind a text of one token the next tokens may be tried. -/
theorem resumes_of_endsWith (hfollow : ∀ next ∈ ts.head?, MayFollow t next) {c : Char}
    (hc : t.endsWith c = true) : resumes c ts = true := by
  unfold resumes
  split
  · -- components follow, so this token is a slash or components itself
    rcases hfollow _ rfl rfl with rfl | rfl
    · exact hc
    · exact hc
  · rfl

theorem asserts_nil (cs : List Char) : (search [] cs).Asserts [] cs := by
  cases cs with
  | nil => exact Denotes.nil
  | cons c rest =>
    show ¬Denotes [] (c :: rest)
    rw [denotes_nil]
    exact List.cons_ne_nil c rest

/-- A search that begins with a sequence. -/
theorem asserts_sequence (h : t.isSequence = true) (hfollow : ∀ next ∈ ts.head?, MayFollow t next)
    (ih : ∀ cs, (search ts cs).Asserts ts cs) (cs : List Char) : (search (t :: ts) cs).Asserts (t :: ts) cs := by
  obtain ⟨place, hplace, hverdict, hothers⟩ := search_of_isSequence h ts cs
  have hhere := ih place
  rw [← hverdict] at hhere
  have hmismatch : ∀ other, search ts other = .mismatch → ¬Denotes ts other := by
    intro other hother
    have hasserts := ih other
    rwa [hother] at hasserts
  cases hanswer : search (t :: ts) cs with
  | found =>
    rw [hanswer] at hhere
    exact (denotes_of_isSequence h).mpr ⟨place, hplace, hhere⟩
  | mismatch =>
    intro hdenotes
    obtain ⟨other, hother, hrest⟩ := (denotes_of_isSequence h).mp hdenotes
    rcases hothers other hother with hmis | ⟨hne, _⟩
    · exact hmismatch other hmis hrest
    · exact hne hanswer
  | tooShort =>
    rw [hanswer] at hhere
    intro later hlater hdenotes
    obtain ⟨other, hother, hrest⟩ := (denotes_of_isSequence h).mp hdenotes
    -- what is reached from a later place is reached from here, and so from where the search gave up
    have hreached : Reached (t.endsWith ·) cs other :=
      (hlater.mono fun c hc => resumes_of_isSequence h c ▸ hc).trans hother
    rcases hothers other hreached with hmis | ⟨_, hleft⟩
    · exact hmismatch other hmis hrest
    · exact hhere other (hleft.mono fun c => resumes_of_endsWith hfollow) hrest

/-- A search that begins with one character. -/
theorem asserts_single (h : t.isSequence = false) (hfollow : ∀ next ∈ ts.head?, MayFollow t next)
    (ih : ∀ cs, (search ts cs).Asserts ts cs) (cs : List Char) : (search (t :: ts) cs).Asserts (t :: ts) cs := by
  rw [search_of_single h]
  cases cs with
  | nil =>
    intro place hplace hdenotes
    obtain ⟨c, rest, rfl, _⟩ := (denotes_of_single h).mp hdenotes
    rcases hplace with hstart | hend
    · cases hstart
    · cases behind_nil.mp hend
  | cons c cs =>
    have hdenotes : Denotes (t :: ts) (c :: cs) → t.accepts c = true ∧ Denotes ts cs := by
      intro hd
      obtain ⟨d, rest, heq, haccepts, hrest⟩ := (denotes_of_single h).mp hd
      cases heq
      exact ⟨haccepts, hrest⟩
    dsimp only
    by_cases haccepts : t.accepts c = true
    · have hrest := ih cs
      rw [if_pos haccepts]
      cases hanswer : search ts cs with
      | found =>
        rw [hanswer] at hrest
        exact .one haccepts hrest
      | mismatch =>
        rw [hanswer] at hrest
        exact fun hd => hrest (hdenotes hd).2
      | tooShort =>
        rw [hanswer] at hrest
        intro place hplace hd
        obtain ⟨d, after, rfl, haccepts', hafter⟩ := (denotes_of_single h).mp hd
        have hresumes : resumes d ts = true :=
          resumes_of_endsWith hfollow ((endsWith_of_single h d).trans haccepts')
        -- one character further on, the rest of the tokens can be tried
        have hbehind : Behind (resumes · ts) (c :: cs) after := by
          rcases hplace with heq | hnil | ⟨front, e, _, hcut⟩
          · exact Or.inr ⟨[], d, hresumes, heq.symm⟩
          · cases hnil
          · exact Or.inr ⟨front ++ [e], d, hresumes, by rw [hcut, List.append_assoc, List.singleton_append]⟩
        rcases behind_cons.mp hbehind with ⟨_, rfl⟩ | hbehind
        · exact hrest _ (reached_refl _ _) hafter
        · exact hrest _ (Or.inr hbehind) hafter
    · rw [if_neg haccepts]
      exact fun hd => haccepts (hdenotes hd).1

/-- **What a search answers is so**, for tokens that are well placed. -/
theorem search_asserts (h : WellPlaced ts) (cs : List Char) : (search ts cs).Asserts ts cs := by
  induction ts generalizing cs with
  | nil => exact asserts_nil cs
  | cons t ts ih =>
    obtain ⟨hfollow, hplaced⟩ := List.isChain_cons.mp h
    by_cases hsequence : t.isSequence = true
    · exact asserts_sequence hsequence hfollow (ih hplaced) cs
    · exact asserts_single (Bool.not_eq_true _ ▸ hsequence) hfollow (ih hplaced) cs

/-- **The search loses no match and finds no false one.** -/
theorem matchesText_iff_denotes (h : WellPlaced ts) {cs : List Char} :
    matchesText ts cs = true ↔ Denotes ts cs := by
  have hasserts := search_asserts h cs
  unfold matchesText
  cases hanswer : search ts cs with
  | found =>
    rw [hanswer] at hasserts
    exact iff_of_true rfl hasserts
  | mismatch =>
    rw [hanswer] at hasserts
    exact iff_of_false (by decide) hasserts
  | tooShort =>
    rw [hanswer] at hasserts
    exact iff_of_false (by decide) (hasserts cs (reached_refl _ _))

end

end LineCensus.Glob
