import LineCensus.CommandLine.Arguments

/-!
# `CommandLine.Spelling` — writing the arguments

What is asked for can be written in many ways: its parts in any order, each option with its letter or with its name,
a value as an argument of its own or behind an equals sign, and a default not at all. Here all these ways are
described, without the reader.

## Contents
- `Item`, one part of what is asked for; `Item.Spells` and `Item.SpellAll`, the arguments that say it.
- `Arguments.items`, all parts of some arguments; `Arguments.IsWrittenAs`, parts that say the same.
-/

namespace LineCensus.CommandLine

/-- One part of what is asked for. -/
inductive Item where
  | path (text : String)
  | value (o : Opt) (text : String)
  | switch (o : Opt)
  deriving DecidableEq, Repr

/-- The text could be taken for an option. -/
def StartsWithHyphen (text : String) : Prop := text.toList.head? = some '-'

instance : DecidablePred StartsWithHyphen := fun text => inferInstanceAs (Decidable (text.toList.head? = some '-'))

/-- The option is one of those that are on or off. -/
def Opt.IsSwitch (o : Opt) : Prop := o ∈ [verbose, nonRecursive, languages]

instance : DecidablePred Opt.IsSwitch := fun o => inferInstanceAs (Decidable (o ∈ _))

namespace Item

/-- The arguments say the item. A value that starts with a hyphen has to be attached. -/
inductive Spells : Item → List String → Prop where
  | path {text : String} : ¬StartsWithHyphen text → Spells (.path text) [text]
  | letterValue {o : Opt} {text : String} : o.takesValue = true → ¬StartsWithHyphen text →
      Spells (.value o text) ["-" ++ String.singleton o.letter, text]
  | nameValue {o : Opt} {text : String} : o.takesValue = true → ¬StartsWithHyphen text →
      Spells (.value o text) ["--" ++ o.name, text]
  | attachedValue {o : Opt} {text : String} : o.takesValue = true →
      Spells (.value o text) ["--" ++ o.name ++ "=" ++ text]
  | letterSwitch {o : Opt} : o.IsSwitch → Spells (.switch o) ["-" ++ String.singleton o.letter]
  | nameSwitch {o : Opt} : o.IsSwitch → Spells (.switch o) ["--" ++ o.name]

/-- The arguments say the items, one after the other. -/
inductive SpellAll : List Item → List String → Prop where
  | nil : SpellAll [] []
  | cons {item : Item} {items : List Item} {first rest : List String} :
      item.Spells first → SpellAll items rest → SpellAll (item :: items) (first ++ rest)

/-- What goes without saying. -/
def defaults : List Item := [.path ".", .value .maxEntries "1000000", .value .maxDepth "100"]

end Item

namespace Arguments

/-- The values that an option is given. -/
def values (a : Arguments) : Opt → List String
  | .ignore => a.ignore
  | .maxEntries => [toString a.maxEntries]
  | .maxDepth => [toString a.maxDepth]
  | .filespec => a.filespec.toList
  | .verbose | .nonRecursive | .languages | .help | .version => []

/-- Is the option on? -/
def isOn (a : Arguments) : Opt → Bool
  | .verbose => a.verbose
  | .nonRecursive => a.nonRecursive
  | .languages => a.languages
  | .ignore | .maxEntries | .maxDepth | .filespec | .help | .version => false

/-- All that the arguments ask for. -/
def items (a : Arguments) : List Item :=
  .path a.path :: (Opt.all.flatMap fun o => (a.values o).map (.value o)) ++ (Opt.all.filter a.isOn).map .switch

/-- The items ask for the same, in any order; some that go without saying may be left out. -/
def IsWrittenAs (a : Arguments) (written : List Item) : Prop :=
  ∃ omitted, (∀ item ∈ omitted, item ∈ Item.defaults) ∧ (written ++ omitted).Perm a.items

end Arguments

end LineCensus.CommandLine
