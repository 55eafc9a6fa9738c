/-!
# `Glob` — patterns of file names

A pattern is read into tokens; the tokens are then matched against a text by a backtracking search. A set
has no escapes, and neither `?` nor `*` stops at a slash.

## Contents
- `Token` and `SetItem`, what a pattern is made of.
- `Glob.compile`, the tokens of a pattern, or the `Fault` in it.
- `Token.search`, the search; `Glob.matchesText`, whether it finds a match.
-/

namespace LineCensus

namespace Glob

/-! ## Tokens -/

/-- A member of a set: a character, or all characters between two. -/
inductive SetItem where
  | single (c : Char)
  | range (first last : Char)
  deriving DecidableEq, Repr

/-- A part of a pattern. -/
inductive Token where
  /-- The character itself. -/
  | literal (c : Char)
  /-- Any one character. -/
  | anyChar
  /-- One character in the set, or one outside it. -/
  | charSet (negated : Bool) (items : List SetItem)
  /-- Any sequence of characters. -/
  | anySequence
  /-- Any sequence of whole components. -/
  | anyComponents
  deriving DecidableEq, Repr

/-- Does the item hold the character? -/
def SetItem.holds (c : Char) : SetItem → Bool
  | .single d => c == d
  | .range first last => first ≤ c && c ≤ last

/-- Does the token stand for this one character? Tokens for sequences stand for no character of their own. -/
def Token.accepts (c : Char) : Token → Bool
  | .literal d => c == d
  | .anyChar => true
  | .charSet negated items => items.any (·.holds c) != negated
  | .anySequence => false
  | .anyComponents => false

/-! ## Reading a pattern -/

/-- What is wrong with a pattern. -/
inductive FaultKind where
  /-- More than two stars in a row. -/
  | wildcards
  /-- Two stars that are no whole component. -/
  | components
  /-- A set that has no end. -/
  | setRange
  deriving DecidableEq, Repr

/-- What is wrong with a pattern, and at which character. -/
structure Fault where
  position : Nat
  kind : FaultKind
  deriving DecidableEq, Repr

/-- The wording of a fault. -/
def FaultKind.message : FaultKind → String
  | .wildcards => "wildcards are either regular `*` or recursive `**`"
  | .components => "recursive wildcards must form a single path component"
  | .setRange => "invalid range pattern"

/-- The wording of a fault with its place. -/
def Fault.message (f : Fault) : String :=
  "Pattern syntax error near position " ++ toString f.position ++ ": " ++ f.kind.message

/-- The items of a set: three characters with a hyphen in the middle are a range. -/
def setItems : List Char → List SetItem
  | first :: '-' :: last :: rest => .range first last :: setItems rest
  | c :: rest => .single c :: setItems rest
  | [] => []

/-- The set that stands after a `[`, and what follows its `]`. The character after `[` or `[!` is a member
    whatever it is. -/
def readSet? : List Char → Option (Token × List Char)
  | '!' :: first :: rest =>
    match rest.dropWhile (· != ']') with
    | _ :: after => some (.charSet true (setItems (first :: rest.takeWhile (· != ']'))), after)
    | [] => none
  | '!' :: [] => none
  | first :: rest =>
    match rest.dropWhile (· != ']') with
    | _ :: after => some (.charSet false (setItems (first :: rest.takeWhile (· != ']'))), after)
    | [] => none
  | [] => none

/-- What is read of a pattern: its tokens, the last first, how many characters they took, and the last of
    these characters. -/
structure Reading where
  tokens : List Token
  position : Nat
  before : Option Char
  deriving DecidableEq, Repr

namespace Reading

/-- Nothing read yet. -/
def start : Reading := ⟨[], 0, none⟩

/-- One token more, of `width` characters of which the last is given. -/
def push (r : Reading) (t : Token) (width : Nat) (last : Char) : Reading :=
  ⟨t :: r.tokens, r.position + width, some last⟩

/-- A token for components more, unless one is there already after some other token. -/
def pushComponents (r : Reading) (width : Nat) (last : Char) : Reading :=
  match r.tokens with
  | .anyComponents :: _ :: _ => ⟨r.tokens, r.position + width, some last⟩
  | _ => r.push .anyComponents width last

/-- May two stars stand here? Only at the start of the pattern or after a slash. -/
def atComponent (r : Reading) : Bool := r.before.all (· == '/')

end Reading

/-- Less is left after a set than before it. -/
theorem length_readSet? {cs : List Char} {t : Token} {after : List Char}
    (h : readSet? cs = some (t, after)) : after.length < cs.length := by
  unfold readSet? at h
  split at h
  · rename_i first rest
    split at h
    · rename_i c after' hd
      have := (List.dropWhile_suffix (l := rest) (· != ']')).length_le
      rw [hd] at this
      cases h
      simp at this ⊢
      omega
    · cases h
  · cases h
  · rename_i first rest _ _
    split at h
    · rename_i c after' hd
      have := (List.dropWhile_suffix (l := rest) (· != ']')).length_le
      rw [hd] at this
      cases h
      simp at this ⊢
      omega
    · cases h
  · cases h

/-- The tokens of a pattern of which a part is read. -/
def compileFrom (r : Reading) : List Char → Except Fault (List Token)
  | [] => .ok r.tokens.reverse
  | '?' :: rest => compileFrom (r.push .anyChar 1 '?') rest
  | '*' :: '*' :: '*' :: _ => .error ⟨r.position + 2, .wildcards⟩
  | '*' :: '*' :: rest =>
    if r.atComponent then
      match rest with
      | [] => .ok (r.pushComponents 2 '*').tokens.reverse
      | '/' :: after => compileFrom (r.pushComponents 3 '/') after
      | _ => .error ⟨r.position + 2, .components⟩
    else .error ⟨r.position - 1, .components⟩
  | '*' :: rest => compileFrom (r.push .anySequence 1 '*') rest
  | '[' :: rest =>
    match h : readSet? rest with
    | some (t, after) => compileFrom (r.push t (rest.length - after.length + 1) ']') after
    | none => .error ⟨r.position, .setRange⟩
  | c :: rest => compileFrom (r.push (.literal c) 1 c) rest
termination_by cs => cs.length
decreasing_by
  all_goals simp only [List.length_cons]
  all_goals try omega
  have hlt := length_readSet? h
  omega

/-- The tokens of a pattern. -/
def compile (pattern : String) : Except Fault (List Token) := compileFrom .start pattern.toList

/-! ## Searching for a match -/

/-- What a search comes to. -/
inductive Verdict where
  | found
  /-- No match from here; another way to split the text may still lead to one. -/
  | mismatch
  /-- The text ended too early, and so it would for every later split. -/
  | tooShort
  deriving DecidableEq, Repr

/-- Try the rest of the tokens here, then after each further character that satisfies `stop`, and in any
    case at the end of the text. The first answer other than `mismatch` counts. -/
def sweep (rest : List Char → Verdict) (stop : Char → Bool) : List Char → Verdict
  | [] => rest []
  | c :: cs =>
    if stop c then
      match rest cs with
      | .mismatch => sweep rest stop cs
      | verdict => verdict
    else sweep rest stop cs

/-- Match the tokens against the whole text. A sequence is first taken to be empty, then longer and longer;
    a sequence of components grows by whole components. -/
def search : List Token → List Char → Verdict
  | [], [] => .found
  | [], _ :: _ => .mismatch
  | .anySequence :: tokens, cs =>
    match search tokens cs with
    | .mismatch => sweep (search tokens) (fun _ => true) cs
    | verdict => verdict
  | .anyComponents :: tokens, cs =>
    match search tokens cs with
    | .mismatch => sweep (search tokens) (· == '/') cs
    | verdict => verdict
  | _ :: _, [] => .tooShort
  | t :: tokens, c :: cs => if t.accepts c then search tokens cs else .mismatch

/-- Does the pattern match the text? -/
def matchesText (tokens : List Token) (cs : List Char) : Bool := search tokens cs == .found

end Glob

end LineCensus
