import LineCensus.CommandLine.Spelling
import LineCensus.Proofs.Text.Utf8
import Mathlib.Data.List.TakeWhile

/-!
# `Proofs.CommandLine.Reading` — one item after the other

Whichever way an item is written, the reader hands it to the draft and goes on with what follows, with no option that
waits for a value. So the arguments of several items are read by setting one item after the other.

## Contents
- `Opt.ofLetter?_letter` and `Opt.ofName?_name`: the table of options has no two alike; `Word.ofBytes_bytes`, a text as
  an argument.
- `read_path`, `read_value`, `read_letters` and `read_named`: what becomes of the first argument.
- `read_spells` and `read_spellAll`, one item and all items.
-/

namespace LineCensus.CommandLine

/-! ## The table of options -/

namespace Opt

theorem mem_all (o : Opt) : o ∈ all := by cases o <;> decide

theorem ofLetter?_letter (o : Opt) : ofLetter? o.letter = some o := by cases o <;> decide

theorem ofName?_name (o : Opt) : ofName? o.name.toList = some o := by cases o <;> decide

theorem letter_ne_hyphen (o : Opt) : o.letter ≠ '-' := by cases o <;> decide

theorem name_ne_nil (o : Opt) : o.name.toList ≠ [] := by cases o <;> decide

/-- A name ends before the first equals sign. -/
theorem ne_equals_of_mem_name (o : Opt) : ∀ c ∈ o.name.toList, (c != '=') = true := by
  have hall : o.name.toList.all (· != '=') = true := by cases o <;> decide
  exact List.all_eq_true.mp hall

theorem IsSwitch.takesValue {o : Opt} (h : o.IsSwitch) : o.takesValue = false := by
  have hall : ∀ o ∈ [verbose, nonRecursive, languages], o.takesValue = false := by decide
  exact hall o h

/-- Only a request for help tells a letter from a name. -/
theorem IsSwitch.setFlag {o : Opt} (h : o.IsSwitch) (d : Draft) : d.setFlag false o = d.setFlag true o := by
  cases o with
  | help => exact absurd h (by decide)
  | _ => rfl

end Opt

/-- An argument that is a text. -/
def Word.ofString (s : String) : Word := ⟨s.toList, true⟩

theorem Word.ofBytes_bytes (s : String) : Word.ofBytes (Utf8.bytes s) = .ofString s := by
  unfold Word.ofBytes Utf8.bytes
  rw [Utf8.decode?_encode]
  rfl

namespace Draft

variable {d : Draft} {o : Opt} {w : Word}

/-! ## One argument -/

theorem startsOption_of_not_hyphen {text : String} (h : ¬StartsWithHyphen text) :
    startsOption (.ofString text) = false := by
  have hhead : ((Word.ofString text).text.head? == some '-') = false := beq_eq_false_iff_ne.mpr h
  rw [startsOption, hhead, Bool.false_and]

theorem read_path (h : startsOption w = false) (d : Draft) (rest : List Word) :
    d.read none (w :: rest) = d.setPath w >>= fun d => d.read none rest := by
  rw [read, h]
  cases d.setPath w <;> rfl

theorem read_value (h : startsOption w = false) (d : Draft) (o : Opt) (rest : List Word) :
    d.read (some o) (w :: rest) = d.setValue o w >>= fun d => d.read none rest := by
  rw [read, h]
  cases d.setValue o w <;> rfl

theorem read_letters {c : Char} {cs : List Char} (hw : w.text = '-' :: c :: cs) (hc : c ≠ '-') (d : Draft)
    (rest : List Word) :
    d.read none (w :: rest) = d.letters w.clean (c :: cs) >>= fun r => r.1.read r.2 rest := by
  have hoption : startsOption w = true := by simp [startsOption, hw]
  have hfirst : ¬w.text.take 2 = ['-', '-'] := by simpa [hw] using hc
  have hends : ¬w.text = ['-', '-'] := fun h => hfirst (by rw [h]; rfl)
  have hdrop : w.text.drop 1 = c :: cs := by rw [hw]; rfl
  rw [read, hoption, if_neg (by decide), if_neg hends, if_neg hfirst, hdrop]
  cases d.letters w.clean (c :: cs) <;> rfl

theorem read_named {cs : List Char} (hw : w.text = '-' :: '-' :: cs) (hcs : cs ≠ []) (d : Draft)
    (rest : List Word) :
    d.read none (w :: rest) = d.named ⟨cs, w.clean⟩ >>= fun r => r.1.read r.2 rest := by
  have hoption : startsOption w = true := by simp [startsOption, hw]
  have hfirst : w.text.take 2 = ['-', '-'] := by rw [hw]; rfl
  have hends : ¬w.text = ['-', '-'] := by simp [hw, hcs]
  have hdrop : w.text.drop 2 = cs := by rw [hw]; rfl
  rw [read, hoption, if_neg (by decide), if_neg hends, if_pos hfirst, hdrop]
  cases d.named ⟨cs, w.clean⟩ <;> rfl

theorem letters_value (h : o.takesValue = true) (d : Draft) (clean : Bool) :
    d.letters clean [o.letter] = .ok (d, some o) := by
  rw [letters, Opt.ofLetter?_letter]
  simp only [h, if_true]

theorem letters_switch (h : o.takesValue = false) (d : Draft) (clean : Bool) :
    d.letters clean [o.letter] = d.setFlag false o >>= fun d => .ok (d, none) := by
  rw [letters, Opt.ofLetter?_letter]
  simp only [h, Bool.false_eq_true, if_false]
  cases d.setFlag false o <;> rfl

/-- The name ends at the first equals sign, or where the text ends. -/
theorem named_name (o : Opt) (d : Draft) (clean : Bool) :
    d.named ⟨o.name.toList, clean⟩
      = if o.takesValue then .ok (d, some o) else (d.setFlag true o).map (·, none) := by
  have htake : o.name.toList.takeWhile (· != '=') = o.name.toList :=
    List.takeWhile_eq_self_iff.mpr o.ne_equals_of_mem_name
  have hdrop : o.name.toList.dropWhile (· != '=') = [] := List.dropWhile_eq_nil_iff.mpr o.ne_equals_of_mem_name
  simp only [named, htake, hdrop, Opt.ofName?_name]

theorem named_attached (o : Opt) (d : Draft) (clean : Bool) (value : List Char) :
    d.named ⟨o.name.toList ++ '=' :: value, clean⟩ = (d.setValue o ⟨value, clean⟩).map (·, none) := by
  have htake : (o.name.toList ++ '=' :: value).takeWhile (· != '=') = o.name.toList := by
    rw [List.takeWhile_append_of_pos o.ne_equals_of_mem_name]
    exact List.append_nil _
  have hdrop : (o.name.toList ++ '=' :: value).dropWhile (· != '=') = '=' :: value :=
    List.dropWhile_append_of_pos o.ne_equals_of_mem_name
  simp only [named, htake, hdrop, Opt.ofName?_name]

/-! ## One item -/

/-- Set what an item asks for. -/
def apply (d : Draft) : Item → Except Stop Draft
  | .path text => d.setPath (.ofString text)
  | .value o text => d.setValue o (.ofString text)
  | .switch o => d.setFlag true o

/-- **An item is read as it is meant**, however it is written and whatever follows. -/
theorem read_spells {item : Item} {words : List String} (h : item.Spells words) (d : Draft) (rest : List Word) :
    d.read none (words.map .ofString ++ rest) = d.apply item >>= fun d => d.read none rest := by
  cases h with
  | path hhyphen => exact read_path (startsOption_of_not_hyphen hhyphen) d rest
  | @letterValue o text htakes hhyphen =>
    have hletters : (Word.ofString ("-" ++ String.singleton o.letter)).text = '-' :: [o.letter] := by
      simp [Word.ofString]
    show d.read none (.ofString _ :: .ofString text :: rest) = _
    rw [read_letters hletters o.letter_ne_hyphen, letters_value htakes]
    exact read_value (startsOption_of_not_hyphen hhyphen) d o rest
  | @nameValue o text htakes hhyphen =>
    have hname : (Word.ofString ("--" ++ o.name)).text = '-' :: '-' :: o.name.toList := by
      simp [Word.ofString]
    show d.read none (.ofString _ :: .ofString text :: rest) = _
    rw [read_named hname o.name_ne_nil, named_name, if_pos htakes]
    exact read_value (startsOption_of_not_hyphen hhyphen) d o rest
  | @attachedValue o text htakes =>
    have hname : (Word.ofString ("--" ++ o.name ++ "=" ++ text)).text
        = '-' :: '-' :: (o.name.toList ++ '=' :: text.toList) := by
      simp [Word.ofString]
    show d.read none (.ofString _ :: rest) = d.setValue o (.ofString text) >>= _
    rw [read_named hname (List.append_ne_nil_of_left_ne_nil o.name_ne_nil _), named_attached]
    show (d.setValue o (.ofString text)).map (·, none) >>= _ = _
    cases d.setValue o (.ofString text) <;> rfl
  | @letterSwitch o hswitch =>
    have hletters : (Word.ofString ("-" ++ String.singleton o.letter)).text = '-' :: [o.letter] := by
      simp [Word.ofString]
    show d.read none (.ofString _ :: rest) = d.setFlag true o >>= _
    rw [read_letters hletters o.letter_ne_hyphen, letters_switch hswitch.takesValue, hswitch.setFlag]
    cases d.setFlag true o <;> rfl
  | @nameSwitch o hswitch =>
    have hname : (Word.ofString ("--" ++ o.name)).text = '-' :: '-' :: o.name.toList := by
      simp [Word.ofString]
    show d.read none (.ofString _ :: rest) = d.setFlag true o >>= _
    rw [read_named hname o.name_ne_nil, named_name, hswitch.takesValue, if_neg (by decide)]
    cases d.setFlag true o <;> rfl

/-- **Items are read one after the other.** -/
theorem read_spellAll {items : List Item} {words : List String} (h : Item.SpellAll items words) (d : Draft) :
    d.read none (words.map .ofString) = items.foldlM apply d := by
  induction h generalizing d with
  | nil => rfl
  | cons hfirst _ ih =>
    rw [List.map_append, read_spells hfirst, List.foldlM_cons]
    exact congrArg _ (funext ih)

end Draft

end LineCensus.CommandLine
