import LineCensus.Proofs.CommandLine.Reading
import LineCensus.Proofs.Decimal.Digits
import Mathlib.Data.List.Induction
import Mathlib.Data.List.Nodup

/-!
# `Proofs.CommandLine.Spelling` — arguments are read as they are meant

Setting items one after the other gives what they ask for together, whatever their order, as long as none that may be
said once is said twice. All items of some arguments are such items. So arguments that are written in any order, and
without some of the defaults, are read as they are meant.

## Contents
- `Item.textsOf`, what several items say; `Item.Once`, nothing is said twice.
- `Draft.ofItems` with `apply_ofItems` and `foldlM_apply`, what they ask for together.
- `textsOf_items`, `switch_mem_items` and `once_items`: the items of some arguments.
- `IsWrittenAs.finish_ofItems`, the same if they are written in another way.
- `parse_written`.
-/

namespace LineCensus.CommandLine

open Decimal

/-! ## Items as a whole -/

namespace Item

/-- The text that an item gives to an option, or as the path if no option is asked for. -/
def text? : Option Opt → Item → Option String
  | none, .path text => some text
  | some o, .value other text => if other = o then some text else none
  | _, _ => none

/-- The texts that the items give to an option, or as the path. -/
def textsOf (slot : Option Opt) (items : List Item) : List String := items.filterMap (text? slot)

theorem textsOf_append (slot : Option Opt) (items more : List Item) :
    textsOf slot (items ++ more) = textsOf slot items ++ textsOf slot more := List.filterMap_append

@[simp] theorem textsOf_concat (slot : Option Opt) (items : List Item) (item : Item) :
    textsOf slot (items ++ [item]) = textsOf slot items ++ (item.text? slot).toList := by
  rw [textsOf_append]
  cases h : item.text? slot <;> simp [textsOf, h]

/-- What may be said once is not said twice; only names of directories may be given more often. -/
structure Once (items : List Item) : Prop where
  text : ∀ slot ≠ some .ignore, (textsOf slot items).length ≤ 1
  switch : ∀ o, items.count (.switch o) ≤ 1

/-- The item sets what it names: values are given to options that take them, and numbers are numbers. -/
def Sets : Item → Prop
  | .path _ => True
  | .value o text => o.takesValue = true ∧
      (o ∈ [Opt.maxEntries, Opt.maxDepth] → (number? text.toList).isSome = true)
  | .switch o => o.IsSwitch

variable {items more : List Item} {item : Item} {slot : Option Opt} {text : String}

theorem Once.of_sublist (honce : Once more) (h : items.Sublist more) : Once items where
  text slot hslot := Nat.le_trans (h.filterMap _).length_le (honce.text slot hslot)
  switch o := Nat.le_trans (h.count_le _) (honce.switch o)

theorem Once.of_perm (honce : Once more) (h : items.Perm more) : Once items where
  text slot hslot := (h.filterMap _).length_eq ▸ honce.text slot hslot
  switch o := h.count_eq _ ▸ honce.switch o

/-- A text that is given now was not given before. -/
theorem Once.textsOf_eq_nil (honce : Once (items ++ [item])) (hslot : slot ≠ some .ignore)
    (htext : item.text? slot = some text) : textsOf slot items = [] := by
  have hlength := honce.text slot hslot
  rw [textsOf_concat, htext] at hlength
  simpa using hlength

theorem Once.switch_notMem {o : Opt} (honce : Once (items ++ [.switch o])) : .switch o ∉ items := by
  have hcount := honce.switch o
  rw [List.count_append, List.count_singleton_self] at hcount
  exact List.count_eq_zero.mp (by omega)

end Item

namespace Draft

open Item

variable {items : List Item} {item : Item}

/-- What the items ask for. -/
def ofItems (items : List Item) : Draft where
  path := (textsOf none items).head?
  ignore := textsOf (some .ignore) items
  verbose := decide (.switch .verbose ∈ items)
  maxEntries := (textsOf (some .maxEntries) items).head?.bind fun text => number? text.toList
  maxDepth := (textsOf (some .maxDepth) items).head?.bind fun text => number? text.toList
  nonRecursive := decide (.switch .nonRecursive ∈ items)
  filespec := (textsOf (some .filespec) items).head?
  languages := decide (.switch .languages ∈ items)

/-- **One item more.** -/
theorem apply_ofItems (honce : Once (items ++ [item])) (hsets : item.Sets) :
    (ofItems items).apply item = .ok (ofItems (items ++ [item])) := by
  cases item with
  | path text =>
    have hnone : textsOf none items = [] := honce.textsOf_eq_nil nofun rfl
    simp [apply, setPath, ofItems, Word.ofString, text?, hnone]
  | value o text =>
    obtain ⟨htakes, hnumber⟩ := hsets
    have hnone : some o ≠ some .ignore → textsOf (some o) items = [] := fun ho =>
      honce.textsOf_eq_nil ho (if_pos rfl)
    cases o with
    | ignore => simp [apply, setValue, ofItems, Word.ofString, text?]
    | maxEntries =>
      obtain ⟨n, hn⟩ := Option.isSome_iff_exists.mp (hnumber (by decide))
      simp [apply, setValue, once, ofItems, Word.ofString, text?, hnone, hn]
    | maxDepth =>
      obtain ⟨n, hn⟩ := Option.isSome_iff_exists.mp (hnumber (by decide))
      simp [apply, setValue, once, ofItems, Word.ofString, text?, hnone, hn]
    | filespec => simp [apply, setValue, once, ofItems, Word.ofString, text?, hnone]
    | verbose | nonRecursive | languages | help | version => cases htakes
  | switch o =>
    have hswitch : o.IsSwitch := hsets
    have hnew : .switch o ∉ items := honce.switch_notMem
    cases o with
    | verbose => simp [apply, setFlag, flag, ofItems, text?, hnew]
    | nonRecursive => simp [apply, setFlag, flag, ofItems, text?, hnew]
    | languages => simp [apply, setFlag, flag, ofItems, text?, hnew]
    | ignore | maxEntries | maxDepth | filespec | help | version => exact absurd hswitch (by decide)

/-- **All items**, one after the other. -/
theorem foldlM_apply (honce : Once items) (hsets : ∀ item ∈ items, item.Sets) :
    items.foldlM apply start = .ok (ofItems items) := by
  induction items using List.reverseRecOn with
  | nil => rfl
  | append_singleton items item ih =>
    obtain ⟨hitems, hitem⟩ := List.forall_mem_append.mp hsets
    rw [List.foldlM_append, ih (honce.of_sublist (List.sublist_append_left items [item])) hitems]
    show [item].foldlM apply (ofItems items) = _
    rw [List.foldlM_cons, apply_ofItems honce (hitem item (List.mem_singleton_self item))]
    rfl

end Draft

namespace Arguments

open Item

/-! ## The items of some arguments -/

section Items

variable (a : Arguments)

/-- The texts for an option, or the path. -/
def texts : Option Opt → List String
  | none => [a.path]
  | some o => a.values o

theorem value_mem_items {o : Opt} {text : String} : .value o text ∈ a.items ↔ text ∈ a.values o := by
  simp [items, o.mem_all]

theorem switch_mem_items {o : Opt} : .switch o ∈ a.items ↔ a.isOn o = true := by
  simp [items, o.mem_all]

/-- What an option is given among all items is what it is given, and no other option adds to it. -/
theorem textsOf_items (slot : Option Opt) : textsOf slot a.items = a.texts slot := by
  have hpath : textsOf slot [.path a.path] = if slot = none then [a.path] else [] := by
    cases slot <;> rfl
  have hvalues : ∀ o, textsOf slot ((a.values o).map (.value o)) = if some o = slot then a.values o else [] := by
    intro o
    rw [textsOf, List.filterMap_map]
    cases slot with
    | none => simp [text?]
    | some p => by_cases hp : o = p <;> simp [text?, hp]
  have hswitches : textsOf slot ((Opt.all.filter a.isOn).map .switch) = [] := by
    cases slot <;> simp [textsOf, text?]
  have hall : textsOf slot (Opt.all.flatMap fun o => (a.values o).map (.value o))
      = Opt.all.flatMap fun o => if some o = slot then a.values o else [] := by
    rw [textsOf, List.filterMap_flatMap]
    exact congrArg (Opt.all.flatMap ·) (funext hvalues)
  have hitems : a.items = [.path a.path] ++ (Opt.all.flatMap fun o => (a.values o).map (.value o))
      ++ (Opt.all.filter a.isOn).map .switch := rfl
  rw [hitems, textsOf_append, textsOf_append, hswitches, hpath, hall, List.append_nil]
  cases slot with
  | none => simp [Opt.all, texts]
  | some o => cases o <;> simp [Opt.all, texts]

theorem once_items : Once a.items where
  text slot hslot := by
    rw [textsOf_items]
    cases slot with
    | none => exact Nat.le_refl 1
    | some o =>
      cases o with
      | ignore => exact absurd rfl hslot
      | filespec => cases h : a.filespec <;> simp [texts, values, h]
      | _ => simp [texts, values]
  switch o := by
    have hother : Item.switch o ∉ .path a.path :: Opt.all.flatMap fun p => (a.values p).map (.value p) := by simp
    have hnodup : ((Opt.all.filter a.isOn).map Item.switch).Nodup :=
      (List.Nodup.filter _ (by decide)).map fun _ _ => Item.switch.inj
    rw [items, List.count_append, List.count_eq_zero.mpr hother, Nat.zero_add]
    exact List.nodup_iff_count_le_one.mp hnodup _

theorem sets_of_mem_items (hentries : a.maxEntries < numberLimit) (hdepth : a.maxDepth < numberLimit) :
    ∀ item ∈ a.items, item.Sets := by
  intro item hitem
  cases item with
  | path text => trivial
  | value o text =>
    have hvalue : text ∈ a.values o := a.value_mem_items.mp hitem
    cases o with
    | ignore | filespec => exact ⟨rfl, fun h => absurd h (by decide)⟩
    | maxEntries =>
      rw [List.mem_singleton.mp hvalue]
      exact ⟨rfl, fun _ => number?_toString hentries ▸ rfl⟩
    | maxDepth =>
      rw [List.mem_singleton.mp hvalue]
      exact ⟨rfl, fun _ => number?_toString hdepth ▸ rfl⟩
    | verbose | nonRecursive | languages | help | version => cases hvalue
  | switch o =>
    have hon : a.isOn o = true := a.switch_mem_items.mp hitem
    cases o with
    | verbose | nonRecursive | languages =>
      show Opt.IsSwitch _
      decide
    | ignore | maxEntries | maxDepth | filespec | help | version => cases hon

end Items

/-! ## What is written -/

namespace IsWrittenAs

variable {a : Arguments} {written : List Item} {slot : Option Opt} {text default : String}

theorem once (h : a.IsWrittenAs written) : Once written := by
  obtain ⟨omitted, -, hperm⟩ := h
  exact (a.once_items.of_perm hperm).of_sublist (List.sublist_append_left written omitted)

theorem mem_items (h : a.IsWrittenAs written) {item : Item} (hitem : item ∈ written) : item ∈ a.items := by
  obtain ⟨omitted, -, hperm⟩ := h
  exact hperm.mem_iff.mp (List.mem_append_left omitted hitem)

/-- The texts that are not written go without saying. -/
theorem exists_perm (h : a.IsWrittenAs written) (slot : Option Opt) :
    ∃ omitted, omitted ⊆ textsOf slot defaults ∧ (textsOf slot written ++ omitted).Perm (a.texts slot) := by
  obtain ⟨omitted, homitted, hperm⟩ := h
  refine ⟨textsOf slot omitted, List.filterMap_subset _ homitted, ?_⟩
  rw [← textsOf_append, ← textsOf_items]
  exact hperm.filterMap _

/-- Texts without a default are all written. -/
theorem texts_perm (h : a.IsWrittenAs written) (hdefault : textsOf slot defaults = []) :
    (textsOf slot written).Perm (a.texts slot) := by
  obtain ⟨omitted, homitted, hperm⟩ := h.exists_perm slot
  rw [hdefault, List.subset_nil] at homitted
  rwa [homitted, List.append_nil] at hperm

/-- A single text is the one that is written, or the default. -/
theorem head?_getD (h : a.IsWrittenAs written) (htexts : a.texts slot = [text])
    (hdefault : textsOf slot defaults = [default]) : (textsOf slot written).head?.getD default = text := by
  obtain ⟨omitted, homitted, hperm⟩ := h.exists_perm slot
  have hone : textsOf slot written ++ omitted = [text] := List.perm_singleton.mp (htexts ▸ hperm)
  cases hwritten : textsOf slot written with
  | nil =>
    rw [hwritten, List.nil_append] at hone
    have hmem : text ∈ textsOf slot defaults := homitted (hone ▸ List.mem_singleton_self text)
    rw [hdefault] at hmem
    exact (List.mem_singleton.mp hmem).symm
  | cons first rest =>
    rw [hwritten] at hone
    exact (List.cons.inj hone).1

/-- A number is the one that is written, or the default. -/
theorem number_eq (h : a.IsWrittenAs written) {n d : Nat} (htexts : a.texts slot = [toString n])
    (hdefault : textsOf slot defaults = [toString d]) (hn : n < numberLimit) (hd : d < numberLimit) :
    ((textsOf slot written).head?.bind fun text => number? text.toList).getD d = n := by
  have hhead := h.head?_getD htexts hdefault
  cases hwritten : (textsOf slot written).head? with
  | none =>
    rw [hwritten, Option.getD_none] at hhead
    have hsame : some d = some n := by
      rw [← number?_toString hd, hhead, number?_toString hn]
    exact Option.some.inj hsame
  | some text =>
    rw [hwritten, Option.getD_some] at hhead
    rw [Option.bind_some, hhead, number?_toString hn, Option.getD_some]

theorem switch_eq (h : a.IsWrittenAs written) (o : Opt) : decide (.switch o ∈ written) = a.isOn o := by
  rw [Bool.eq_iff_iff, decide_eq_true_eq, ← switch_mem_items]
  obtain ⟨omitted, homitted, hperm⟩ := h
  have hnot : .switch o ∉ omitted := fun hmem => by simpa [defaults] using homitted _ hmem
  rw [← hperm.mem_iff, List.mem_append, or_iff_left hnot]

/-- **What is written is what is meant**, but for the order of the names of directories. -/
theorem finish_ofItems (h : a.IsWrittenAs written) (hentries : a.maxEntries < numberLimit)
    (hdepth : a.maxDepth < numberLimit) :
    (Draft.ofItems written).finish = { a with ignore := textsOf (some .ignore) written } := by
  have hpath : (textsOf none written).head?.getD "." = a.path := h.head?_getD rfl rfl
  have hmany : ((textsOf (some .maxEntries) written).head?.bind fun text => number? text.toList).getD 1000000
      = a.maxEntries := h.number_eq rfl rfl hentries (by decide)
  have hdeep : ((textsOf (some .maxDepth) written).head?.bind fun text => number? text.toList).getD 100
      = a.maxDepth := h.number_eq rfl rfl hdepth (by decide)
  have hfilespec : (textsOf (some .filespec) written).head? = a.filespec := by
    have hperm : (textsOf (some .filespec) written).Perm a.filespec.toList := h.texts_perm rfl
    cases hspec : a.filespec with
    | none =>
      rw [hspec] at hperm
      rw [hperm.eq_nil]
      rfl
    | some spec =>
      rw [hspec] at hperm
      rw [List.perm_singleton.mp hperm]
      rfl
  simp only [Draft.finish, Draft.ofItems, hpath, hfilespec, hmany, hdeep, h.switch_eq, isOn]

end IsWrittenAs

end Arguments

/-! ## Arguments as they are meant -/

/-- **Arguments are read as they are meant.** Take a path, names of directories, two limits of 64 bits, flags and
    perhaps a pattern. Write them in any order: each option with its letter or its name, a value behind it or attached
    to the name, each name of a directory once for each time that it is given, and the path anywhere, unless it could
    be taken for an option. What has its default may be left out. Then the arguments are accepted, and the settings of
    the scan have this root, these limits, these flags and this pattern, and leave out the directories of the four
    names that are always left out, those that are given, and no others. -/
theorem parse_written {a : Arguments} (hentries : a.maxEntries < numberLimit) (hdepth : a.maxDepth < numberLimit)
    {written : List Item} (hwritten : a.IsWrittenAs written) {words : List String}
    (hwords : Item.SpellAll written words) :
    ∃ given, parse ((words.map Utf8.bytes).map Word.ofBytes) = .ok given ∧
      given.languages = a.languages ∧
      given.config.root = .ofString a.path ∧
      given.config.maxEntries = a.maxEntries ∧
      given.config.maxDepth = a.maxDepth ∧
      given.config.nonRecursive = a.nonRecursive ∧
      given.config.verbose = a.verbose ∧
      given.config.filespec = a.filespec ∧
      ∀ name, name ∈ given.config.excluded ↔
        name ∈ ["venv", ".git", "__pycache__", "node_modules"] ∨ name ∈ a.ignore := by
  have hbytes : (words.map Utf8.bytes).map Word.ofBytes = words.map .ofString := by
    rw [List.map_map]
    exact congrArg (words.map ·) (funext Word.ofBytes_bytes)
  have hsets : ∀ item ∈ written, item.Sets := fun item hitem =>
    a.sets_of_mem_items hentries hdepth item (hwritten.mem_items hitem)
  have hparse : parse (words.map .ofString) = .ok { a with ignore := Item.textsOf (some .ignore) written } := by
    rw [parse, Draft.read_spellAll hwords, Draft.foldlM_apply hwritten.once hsets]
    exact congrArg Except.ok (hwritten.finish_ofItems hentries hdepth)
  have hnames : (Item.textsOf (some .ignore) written).Perm a.ignore := hwritten.texts_perm rfl
  refine ⟨{ a with ignore := Item.textsOf (some .ignore) written }, hbytes ▸ hparse, rfl, rfl, rfl, rfl, rfl, rfl, rfl,
    fun name => ?_⟩
  exact List.mem_append.trans (or_congr_right hnames.mem_iff)

/-- What a call with many options asks for; one name of a directory is given twice, and another looks like an option. -/
def manifoldArguments : Arguments := ⟨"src", ["-x", "dist", "dist"], true, 1000000, 3, true, some "*.vue", false⟩

/-- The same, in another order and without a default. -/
def manifoldItems : List Item :=
  [.value .ignore "dist", .value .maxDepth "3", .path "src", .switch .nonRecursive, .value .filespec "*.vue",
    .value .ignore "-x", .switch .verbose, .value .ignore "dist"]

theorem isWrittenAs_manifoldItems : manifoldArguments.IsWrittenAs manifoldItems :=
  ⟨[.value .maxEntries "1000000"], by decide, by decide⟩

theorem spellAll_manifoldItems : Item.SpellAll manifoldItems
    ["-i", "dist", "--max-depth=3", "src", "-n", "-f", "*.vue", "--ignore=-x", "--verbose", "--ignore", "dist"] :=
  .cons (.letterValue rfl (by decide)) <| .cons (.attachedValue rfl) <| .cons (.path (by decide)) <|
    .cons (.letterSwitch (by decide)) <| .cons (.letterValue rfl (by decide)) <| .cons (.attachedValue rfl) <|
    .cons (.nameSwitch (by decide)) <| .cons (.nameValue rfl (by decide)) .nil

theorem parse_written_manifoldArguments :
    manifoldArguments.maxEntries < numberLimit ∧ manifoldArguments.maxDepth < numberLimit ∧
    manifoldArguments.IsWrittenAs manifoldItems ∧
    Item.SpellAll manifoldItems
      ["-i", "dist", "--max-depth=3", "src", "-n", "-f", "*.vue", "--ignore=-x", "--verbose", "--ignore", "dist"] ∧
    ∃ given, parse ((["-i", "dist", "--max-depth=3", "src", "-n", "-f", "*.vue", "--ignore=-x", "--verbose",
        "--ignore", "dist"].map Utf8.bytes).map Word.ofBytes) = .ok given ∧
      given.config.root = .ofString "src" ∧ given.config.maxEntries = 1000000 ∧ given.config.maxDepth = 3 ∧
      given.config.filespec = some "*.vue" ∧ "-x" ∈ given.config.excluded ∧ ".git" ∈ given.config.excluded ∧
      "src" ∉ given.config.excluded := by
  have hentries : manifoldArguments.maxEntries < numberLimit := by decide
  have hdepth : manifoldArguments.maxDepth < numberLimit := by decide
  obtain ⟨given, hparse, -, hroot, hmany, hdeep, -, -, hfilespec, hexcluded⟩ :=
    parse_written hentries hdepth isWrittenAs_manifoldItems spellAll_manifoldItems
  refine ⟨hentries, hdepth, isWrittenAs_manifoldItems, spellAll_manifoldItems, given, hparse, hroot, hmany, hdeep,
    hfilespec, (hexcluded _).mpr (by decide), (hexcluded _).mpr (by decide), fun hsrc => ?_⟩
  exact absurd ((hexcluded _).mp hsrc) (by decide)

end LineCensus.CommandLine
