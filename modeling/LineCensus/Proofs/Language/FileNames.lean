import LineCensus.Proofs.Language.Extensions
import LineCensus.Proofs.Path.LastName

/-!
# `Proofs.Language.FileNames` — the language of a path

The language of a path is that of the extension of its last name, and of the path nothing else matters:
neither the directories in front, nor slashes behind, nor the bytes before the last dot of the name, as long
as there are some. These bytes need not be a text. Those behind the dot have to be ASCII.

## Contents
- `Utf8.asciiText`, bytes of ASCII as a text; `decode?_asciiText` and `isAscii_iff_of_decode?`.
- `ofPath?_eq_of_fileName?`: the last component decides.
- `ofPath?_eq_some_iff`, and `ofPath_lastName` with what follows from it.
-/

namespace LineCensus

/-! ## ASCII as bytes -/

namespace Utf8

/-- The text of bytes of ASCII. -/
def asciiText (bs : List UInt8) : List Char := bs.map fun b => Char.ofNat b.toNat

theorem encode_asciiText {bs : List UInt8} (h : ∀ b ∈ bs, b ≤ 0x7F) : encode (asciiText bs) = bs := by
  induction bs with
  | nil => rfl
  | cons b rest ih =>
    obtain ⟨hb, hrest⟩ := List.forall_mem_cons.mp h
    rw [asciiText, List.map_cons, encode_cons, encodeChar_one hb]
    exact congrArg (b :: ·) (ih hrest)

theorem decode?_asciiText {bs : List UInt8} (h : ∀ b ∈ bs, b ≤ 0x7F) : decode? bs = some (asciiText bs) :=
  decode?_eq_some_iff.mpr (encode_asciiText h).symm

theorem isAscii_asciiText {bs : List UInt8} (h : ∀ b ∈ bs, b ≤ 0x7F) : Text.IsAscii (asciiText bs) := by
  intro c hc
  obtain ⟨b, hb, rfl⟩ := List.mem_map.mp hc
  have hlow : b.toNat ≤ 0x7F := UInt8.le_iff_toNat_le.mp (h b hb)
  rw [Text.toNat_ofNat (Or.inl (by omega))]
  omega

/-- The bytes of an ASCII text are bytes of ASCII. -/
theorem le_of_mem_encode {cs : List Char} (h : Text.IsAscii cs) : ∀ b ∈ encode cs, b ≤ 0x7F := by
  intro b hb
  obtain ⟨c, hc, hmem⟩ := List.mem_flatMap.mp hb
  have hlow : c.val.toNat ≤ 0x7F := Nat.le_of_lt_succ (h c hc)
  unfold String.utf8EncodeChar at hmem
  rw [if_pos hlow, List.mem_singleton] at hmem
  have hlimit : UInt8.toNat 0x7F = 0x7F := rfl
  rw [hmem, UInt8.le_iff_toNat_le, UInt8.toNat_ofNat', hlimit]
  omega

end Utf8

namespace Language

open Text LineCensus.Path

variable {path : Path} {name : Name} {language : Language}

/-! ## The last component decides -/

theorem ofPath?_eq_bind (path : Path) :
    ofPath? path = (path.fileName?.bind nameExtension?).bind fun ext =>
      (Utf8.decode? ext).bind fun text => resolve? ('.' :: text) := rfl

/-- **The language of an extension as bytes.** -/
theorem resolve?_bytes_eq_some_iff {ext : Name} :
    ((Utf8.decode? ext).bind fun text => resolve? ('.' :: text)) = some language ↔
      language ∈ registry ∧ (∀ b ∈ ext, b ≤ 0x7F) ∧
        String.ofList ('.' :: (Utf8.asciiText ext).map Char.toLower) ∈ language.extensions := by
  rw [Option.bind_eq_some_iff]
  constructor
  · rintro ⟨text, hdecode, h⟩
    obtain ⟨hmem, hascii, hfound⟩ := resolve?_eq_some_iff.mp h
    obtain ⟨-, htext⟩ := List.forall_mem_cons.mp hascii
    have hbytes : ∀ b ∈ ext, b ≤ 0x7F := by
      rw [Utf8.decode?_eq_some_iff.mp hdecode]
      exact Utf8.le_of_mem_encode htext
    rw [Utf8.decode?_asciiText hbytes] at hdecode
    cases hdecode
    exact ⟨hmem, hbytes, hfound⟩
  · rintro ⟨hmem, hbytes, hfound⟩
    refine ⟨_, Utf8.decode?_asciiText hbytes, resolve?_eq_some_iff.mpr ⟨hmem, ?_, hfound⟩⟩
    exact List.forall_mem_cons.mpr ⟨by decide, Utf8.isAscii_asciiText hbytes⟩

theorem ofPath?_eq_some_iff :
    ofPath? path = some language ↔ ∃ name, path.EndsIn name ∧ name ≠ [dot, dot] ∧
      ∃ stem ext, name = stem ++ dot :: ext ∧ stem ≠ [] ∧ dot ∉ ext ∧
        language ∈ registry ∧ (∀ b ∈ ext, b ≤ 0x7F) ∧
        String.ofList ('.' :: (Utf8.asciiText ext).map Char.toLower) ∈ language.extensions := by
  rw [ofPath?_eq_bind, Option.bind_eq_some_iff]
  constructor
  · rintro ⟨ext, hext, h⟩
    obtain ⟨name, hname, hext⟩ := Option.bind_eq_some_iff.mp hext
    obtain ⟨hends, hup⟩ := fileName?_eq_some_iff.mp hname
    obtain ⟨stem, hcut, hstem, hfree⟩ := nameExtension?_eq_some_iff.mp hext
    exact ⟨name, hends, hup, stem, ext, hcut, hstem, hfree, resolve?_bytes_eq_some_iff.mp h⟩
  · rintro ⟨name, hends, hup, stem, ext, hcut, hstem, hfree, h⟩
    refine ⟨ext, ?_, resolve?_bytes_eq_some_iff.mpr h⟩
    rw [fileName?_eq_some_iff.mpr ⟨hends, hup⟩]
    exact nameExtension?_eq_some_iff.mpr ⟨stem, hcut, hstem, hfree⟩

/-! ## What does not matter -/

/-- Paths with the same last component have the same language. -/
theorem ofPath?_congr {other : Path} (h : other.components.getLast? = path.components.getLast?) :
    ofPath? other = ofPath? path := by
  have hname : other.fileName? = path.fileName? := by
    unfold fileName?
    rw [h]
  rw [ofPath?_eq_bind, ofPath?_eq_bind, hname]

/-- A path with two parts around the last dot of its name has the language of the second. The name that leads
    up has two such parts as well, and no language is found for its second, which is empty. -/
theorem ofPath?_of_endsIn {stem ext : Name} (h : path.EndsIn (stem ++ dot :: ext)) (hstem : stem ≠ [])
    (hfree : dot ∉ ext) :
    ofPath? path = (Utf8.decode? ext).bind fun text => resolve? ('.' :: text) := by
  rw [ofPath?_eq_bind]
  by_cases hup : stem ++ dot :: ext = [dot, dot]
  · have hext : ext = [] := by
      have hlength := congrArg List.length hup
      have hpos : 0 < stem.length := List.length_pos_iff.mpr hstem
      simp only [List.length_append, List.length_cons, List.length_nil] at hlength
      exact List.length_eq_zero_iff.mp (by omega)
    have hnone : path.fileName? = none := by
      refine Option.eq_none_iff_forall_ne_some.mpr fun name hname => ?_
      obtain ⟨hends, hne⟩ := fileName?_eq_some_iff.mp hname
      exact hne ((hends.unique h).trans hup)
    rw [hnone, hext]
    decide +kernel
  · rw [fileName?_eq_some_iff.mpr ⟨h, hup⟩, Option.bind_some, nameExtension?_append_dot hfree, if_neg hstem]
    rfl

theorem ofPath?_of_endsIn_dot {rest : Name} (h : path.EndsIn (dot :: rest)) (hfree : dot ∉ rest) :
    ofPath? path = none := by
  have hnone : nameExtension? (dot :: rest) = none := nameExtension?_append_dot hfree []
  rw [ofPath?_eq_bind]
  cases hname : path.fileName? with
  | none => rfl
  | some name =>
    rw [(fileName?_eq_some_iff.mp hname).1.unique h, Option.bind_some, hnone]
    rfl

/-- **The language of a path.** A path has a language exactly if it ends in a name, there is only one such
    name, and the name does not lead up, has a dot that is not its first byte, and goes on after its last dot
    with bytes of ASCII that are, in lower case and after a dot, an extension of this language. So directories
    in front of a name do not matter, nor slashes behind it with a dot each perhaps, nor the bytes before the
    last dot as long as there are some; and a name whose only dot comes first has no language. -/
theorem ofPath_lastName (path : Path) :
    (∀ language, ofPath? path = some language ↔ ∃ name, path.EndsIn name ∧
      (∀ other, path.EndsIn other → other = name) ∧ name ≠ [dot, dot] ∧
      ∃ stem ext, name = stem ++ dot :: ext ∧ stem ≠ [] ∧ dot ∉ ext ∧
        language ∈ registry ∧ (∀ b ∈ ext, b ≤ 0x7F) ∧
        String.ofList ('.' :: (Utf8.asciiText ext).map Char.toLower) ∈ language.extensions) ∧
    (∀ name dirs, path.EndsIn name → ofPath? ⟨dirs ++ slash :: path.bytes⟩ = ofPath? path) ∧
    (∀ back, Idle back → ofPath? ⟨path.bytes ++ back⟩ = ofPath? path) ∧
    (∀ (other : Path) (stem stem' ext : Name), path.EndsIn (stem ++ dot :: ext) →
      other.EndsIn (stem' ++ dot :: ext) → stem ≠ [] → stem' ≠ [] → dot ∉ ext →
      ofPath? other = ofPath? path) ∧
    (∀ rest, path.EndsIn (dot :: rest) → dot ∉ rest → ofPath? path = none) := by
  refine ⟨fun language => ?_, ?_, ?_, ?_, fun _ => ofPath?_of_endsIn_dot⟩
  · rw [ofPath?_eq_some_iff]
    refine exists_congr fun name => and_congr_right fun hends => ?_
    exact (and_iff_right fun other hother => hother.unique hends).symm
  · intro name dirs hends
    refine ofPath?_congr ?_
    rw [(hends.below dirs).getLast?_components, hends.getLast?_components]
  · intro back hidle
    refine ofPath?_congr ?_
    rw [components_append_idle hidle]
  · intro other stem stem' ext hends hother hstem hstem' hfree
    rw [ofPath?_of_endsIn hother hstem' hfree, ofPath?_of_endsIn hends hstem hfree]

/-- A path with directories and a dot in front of its name, slashes behind it, and a name that is no text. -/
def oddPath : Path := ⟨Utf8.bytes "src/./v1.0/" ++ ([0xFF] ++ dot :: Utf8.bytes "TSX") ++ Utf8.bytes "//./"⟩

theorem endsIn_oddPath : oddPath.EndsIn ([0xFF] ++ dot :: Utf8.bytes "TSX") :=
  ⟨by decide +kernel, Utf8.bytes "src/./v1.0/", Utf8.bytes "//./", rfl, Or.inr (by decide +kernel),
    .slash (.slashDot (.slash .nil))⟩

/-- The odd path, the path of another name with the same extension, and a name whose only dot comes first. -/
theorem ofPath_lastName_oddPath :
    oddPath.EndsIn ([0xFF] ++ dot :: Utf8.bytes "TSX") ∧
    (∃ language, ofPath? oddPath = some language ∧ language.name = "TypeScript") ∧
    ofPath? ⟨Utf8.bytes "/a.py" ++ slash :: oddPath.bytes⟩ = ofPath? oddPath ∧
    Idle (Utf8.bytes "/./") ∧ ofPath? ⟨oddPath.bytes ++ Utf8.bytes "/./"⟩ = ofPath? oddPath ∧
    EndsIn (.ofString "x.TSX") (Utf8.bytes "x" ++ dot :: Utf8.bytes "TSX") ∧
    ofPath? (.ofString "x.TSX") = ofPath? oddPath ∧
    EndsIn (.ofString "a.py/.py") (dot :: Utf8.bytes "py") ∧ ofPath? (.ofString "a.py/.py") = none := by
  obtain ⟨hiff, hdirs, hbehind, hstem, _⟩ := ofPath_lastName oddPath
  obtain ⟨_, _, _, _, hdot⟩ := ofPath_lastName (.ofString "a.py/.py")
  have hidle : Idle (Utf8.bytes "/./") := .slashDot (.slash .nil)
  have hother : EndsIn (.ofString "x.TSX") (Utf8.bytes "x" ++ dot :: Utf8.bytes "TSX") :=
    ⟨by decide +kernel, [], [], by decide +kernel, Or.inl rfl, .nil⟩
  have hhidden : EndsIn (.ofString "a.py/.py") (dot :: Utf8.bytes "py") :=
    ⟨by decide +kernel, Utf8.bytes "a.py/", [], by decide +kernel, Or.inr (by decide +kernel), .nil⟩
  have hfound : ofPath? oddPath = some (plain "TypeScript" [".ts", ".tsx"] "//" (some slashStar)) :=
    (hiff _).mpr ⟨_, endsIn_oddPath, fun _ h => h.unique endsIn_oddPath, by decide +kernel, [0xFF],
      Utf8.bytes "TSX", rfl, by decide, by decide +kernel, by decide, by decide +kernel, by decide +kernel⟩
  exact ⟨endsIn_oddPath, ⟨_, hfound, rfl⟩, hdirs _ _ endsIn_oddPath, hidle, hbehind _ hidle, hother,
    hstem _ _ _ _ endsIn_oddPath hother (by decide) (by decide +kernel) (by decide +kernel), hhidden,
    hdot _ hhidden (by decide +kernel)⟩

end Language

end LineCensus
