import LineCensus.Language.Registry
import LineCensus.Proofs.Text.LowerCase

/-!
# `Proofs.Language.Extensions` — the language of an extension

An extension is looked up by its lower case, and lower case follows the whole of Unicode. It comes to the
same as ASCII letters alone: the lower case of a text outside ASCII has a trace in it that no registered
extension has. No extension belongs to two languages, so the order of the languages does not matter.

## Contents
- `resolveAmong`, the language of an extension among any languages.
- What the registered extensions are like: `isPlain_of_mem_extensions`, `eq_of_shared_extension`.
- `resolveAmong_eq_some_iff`, with `resolve?_eq_some_iff` and `resolve_asciiLower` for the registry.
-/

namespace LineCensus.Language

open Text

/-! ## The registered extensions -/

/-- A dot comes first, and no character is a trace of one outside ASCII. -/
def IsPlainExtension (extension : String) : Prop :=
  extension.toList.head? = some '.' ∧ ∀ c ∈ extension.toList, ¬IsTrace c

-- character by character; not over all of Unicode
instance : DecidablePred IsPlainExtension := fun _ => @instDecidableAnd _ _ _ (List.decidableBAll _ _)

theorem isPlain_of_mem_extensions :
    ∀ language ∈ registry, ∀ extension ∈ language.extensions, IsPlainExtension extension := by decide

/-- **No extension belongs to two languages.** -/
theorem eq_of_shared_extension :
    ∀ a ∈ registry, ∀ b ∈ registry, ∀ extension ∈ a.extensions, extension ∈ b.extensions → a = b := by
  decide

/-! ## Looking up -/

/-- The first of the languages that has the extension, which has to begin with a dot. -/
def resolveAmong (languages : List Language) (extension : List Char) : Option Language :=
  if extension.head? = some '.' then
    languages.find? fun l => l.extensions.contains (String.ofList (lowerCase extension))
  else none

theorem resolve?_eq_resolveAmong (extension : List Char) :
    resolve? extension = resolveAmong registry extension := rfl

variable {languages : List Language} {extension : List Char} {language : Language}

/-- The lower case of a text is a plain extension only if the text is ASCII. -/
theorem isAscii_of_isPlain_lowerCase (h : IsPlainExtension (String.ofList (lowerCase extension))) :
    IsAscii extension := by
  refine Decidable.byContradiction fun hnot => ?_
  obtain ⟨d, hd, htrace⟩ := exists_isTrace_lowerCase hnot
  rw [IsPlainExtension, String.toList_ofList] at h
  exact h.2 d hd htrace

/-- **An extension is found by its ASCII letters**, among registered languages in any order. -/
theorem resolveAmong_eq_some_iff (hlanguages : ∀ l ∈ languages, l ∈ registry) :
    resolveAmong languages extension = some language ↔
      language ∈ languages ∧ IsAscii extension ∧
        String.ofList (extension.map Char.toLower) ∈ language.extensions := by
  unfold resolveAmong
  constructor
  · intro h
    split at h
    · have hmem := List.mem_of_find?_eq_some h
      have hfound := List.find?_some h
      rw [List.contains_iff_mem] at hfound
      have hascii : IsAscii extension :=
        isAscii_of_isPlain_lowerCase (isPlain_of_mem_extensions language (hlanguages language hmem) _ hfound)
      rw [lowerCase_of_isAscii hascii] at hfound
      exact ⟨hmem, hascii, hfound⟩
    · cases h
  · rintro ⟨hmem, hascii, hfound⟩
    have hdot : extension.head? = some '.' := by
      have hlower := (isPlain_of_mem_extensions language (hlanguages language hmem) _ hfound).1
      rw [String.toList_ofList, List.head?_map, Option.map_eq_some_iff] at hlower
      obtain ⟨c, hc, hlow⟩ := hlower
      rw [hc, toLower_eq_dot_iff.mp hlow]
    rw [if_pos hdot, lowerCase_of_isAscii hascii]
    cases hfirst : languages.find? fun l => l.extensions.contains (String.ofList (extension.map Char.toLower)) with
    | none => exact absurd (List.contains_iff_mem.mpr hfound) (List.find?_eq_none.mp hfirst language hmem)
    | some first =>
      -- the first language that has the extension is the only one
      have hshared := List.find?_some hfirst
      rw [List.contains_iff_mem] at hshared
      rw [eq_of_shared_extension first (hlanguages first (List.mem_of_find?_eq_some hfirst)) language
        (hlanguages language hmem) _ hshared hfound]

/-- The registered languages are found so. -/
theorem resolve?_eq_some_iff :
    resolve? extension = some language ↔
      language ∈ registry ∧ IsAscii extension ∧ String.ofList (extension.map Char.toLower) ∈ language.extensions := by
  rw [resolve?_eq_resolveAmong]
  exact resolveAmong_eq_some_iff fun _ h => h

/-- **The language of an extension** depends on the extension up to the case of its ASCII letters, and on the
    languages up to their order: it is the one that has the extension in lower case among its own. So an
    extension with a character outside ASCII has no language, although lower case may lead into ASCII. -/
theorem resolve_asciiLower (extension : List Char) :
    (∀ language, resolve? extension = some language ↔
      language ∈ registry ∧ IsAscii extension ∧
        String.ofList (extension.map Char.toLower) ∈ language.extensions) ∧
    (¬IsAscii extension → resolve? extension = none) ∧
    (∀ variant : List Char, variant.map Char.toLower = extension.map Char.toLower →
      resolve? variant = resolve? extension) ∧
    ∀ languages : List Language, languages.Perm registry →
      resolveAmong languages extension = resolve? extension := by
  refine ⟨fun _ => resolve?_eq_some_iff, ?_, ?_, ?_⟩
  · intro hnot
    exact Option.eq_none_iff_forall_ne_some.mpr fun language h => hnot (resolve?_eq_some_iff.mp h).2.1
  · intro variant hvariant
    have hascii : IsAscii variant ↔ IsAscii extension := by
      rw [← isAscii_map_toLower, hvariant, isAscii_map_toLower]
    refine Option.ext fun language => ?_
    rw [resolve?_eq_some_iff, resolve?_eq_some_iff, hascii, hvariant]
  · intro languages hperm
    refine Option.ext fun language => ?_
    rw [resolveAmong_eq_some_iff fun l h => hperm.mem_iff.mp h, resolve?_eq_some_iff, hperm.mem_iff]

/-- TypeScript in three spellings and with the languages in reverse; the Kelvin sign is lowered to `k`. -/
theorem resolve_asciiLower_tsx :
    (∃ language, resolve? ".TsX".toList = some language ∧ language.name = "TypeScript") ∧
    ".tSx".toList.map Char.toLower = ".TsX".toList.map Char.toLower ∧
    resolve? ".tSx".toList = resolve? ".TsX".toList ∧
    registry.reverse.Perm registry ∧
    resolveAmong registry.reverse ".TsX".toList = resolve? ".TsX".toList ∧
    ¬IsAscii ".\u212A".toList ∧ resolve? ".\u212A".toList = none := by
  obtain ⟨htsx, _, hvariant, horder⟩ := resolve_asciiLower ".TsX".toList
  obtain ⟨_, hnone, _, _⟩ := resolve_asciiLower ".\u212A".toList
  have hlanguage := (htsx (plain "TypeScript" [".ts", ".tsx"] "//" (some slashStar))).mpr (by decide)
  have hspelling : ".tSx".toList.map Char.toLower = ".TsX".toList.map Char.toLower := by decide
  have hreverse : registry.reverse.Perm registry := List.reverse_perm registry
  have hkelvin : ¬IsAscii ".\u212A".toList := by decide
  exact ⟨⟨_, hlanguage, rfl⟩, hspelling, hvariant _ hspelling, hreverse, horder _ hreverse, hkelvin,
    hnone hkelvin⟩

end LineCensus.Language
