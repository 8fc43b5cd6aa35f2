/-
This file says what the values of a settings file ask for. A setting has its place in the
tree of values, which is the row of keys that leads there, and what stands there either
gives a choice for the setting or is not valid for it. What a value gives is said by the
form of the value alone; reading the value finds exactly that.
-/

import Manuscript.Proofs.Settings.Words
import Manuscript.Settings.Overlay

namespace Manuscript

/-! ### Places in a tree -/

namespace Tree

/-- A row of keys leads from a tree to a value. Only an object has something under a key. -/
inductive Holds : Tree → List String → Tree → Prop where
  | here (value : Tree) : Holds value [] value
  | under {entries : List (Text × Tree)} {key : String} {keys : List String}
      {inner value : Tree} (found : entries.lookup key.toList = some inner)
      (behind : Holds inner keys value) : Holds (object entries) (key :: keys) value

/-- The value that a row of keys leads to. -/
def find? : List String → Tree → Option Tree
  | [], tree => some tree
  | key :: keys, tree => (tree.get? key.toList).bind (find? keys)

theorem get?_eq_some_iff {tree value : Tree} {key : Text} :
    tree.get? key = some value ↔
      ∃ entries, tree = object entries ∧ entries.lookup key = some value := by
  cases tree <;> simp [get?]

theorem find?_eq_some_iff {keys : List String} {tree value : Tree} :
    tree.find? keys = some value ↔ tree.Holds keys value := by
  induction keys generalizing tree with
  | nil =>
    constructor
    · intro found
      cases found
      exact .here _
    · rintro ⟨⟩
      rfl
  | cons key keys inductionHypothesis =>
    simp only [find?, Option.bind_eq_some_iff, get?_eq_some_iff]
    constructor
    · rintro ⟨inner, ⟨entries, rfl, found⟩, behind⟩
      exact .under found (inductionHypothesis.mp behind)
    · rintro (_ | ⟨found, behind⟩)
      exact ⟨_, ⟨_, rfl, found⟩, inductionHypothesis.mpr behind⟩

/-! ### What a value is -/

theorem asBool?_eq_some_iff {tree : Tree} {value : Bool} :
    tree.asBool? = some value ↔ tree = bool value := by
  cases tree <;> simp [asBool?]

theorem asString?_eq_some_iff {tree : Tree} {text : Text} :
    tree.asString? = some text ↔ tree = string text := by
  cases tree <;> simp [asString?]

theorem asArray?_eq_some_iff {tree : Tree} {items : List Tree} :
    tree.asArray? = some items ↔ tree = array items := by
  cases tree <;> simp [asArray?]

/-- An array of strings. -/
def ofTexts (texts : List Text) : Tree :=
  array (texts.map string)

/-- Reading every item of an array undoes writing them, if reading one undoes writing one. -/
theorem mapM_eq_some_iff {Value : Type} {read : Tree → Option Value} {write : Value → Tree}
    (inverse : ∀ {tree value}, read tree = some value ↔ tree = write value)
    {items : List Tree} {values : List Value} :
    items.mapM read = some values ↔ items = values.map write := by
  induction items generalizing values with
  | nil => cases values <;> simp
  | cons item items inductionHypothesis =>
    cases values with
    | nil => simp [Option.bind_eq_some_iff]
    | cons value values =>
      simp [Option.bind_eq_some_iff, inverse, inductionHypothesis]

theorem asStrings?_eq_some_iff {tree : Tree} {texts : List Text} :
    tree.asStrings? = some texts ↔ tree = ofTexts texts := by
  simp only [asStrings?, Option.bind_eq_some_iff, asArray?_eq_some_iff,
    mapM_eq_some_iff asString?_eq_some_iff]
  constructor
  · rintro ⟨items, rfl, rfl⟩
    rfl
  · rintro rfl
    exact ⟨_, rfl, rfl⟩

end Tree

/-! ### What a value gives -/

/-- An array gives its strings as an order of files if it has any, whatever else it has. -/
inductive OrderGivenBy : Tree → List Path → Prop where
  | strings (items : List Tree) (some : items.filterMap Tree.asString? ≠ []) :
      OrderGivenBy (.array items) ((items.filterMap Tree.asString?).map Path.mk)

/-- A word for an indent may be written in any case; a width is from one to sixteen. -/
inductive Indent.GivenBy : Tree → Indent → Prop where
  | tab {word : Text} (same : Text.lowerAscii word = "tab".toList) :
      GivenBy (.string word) .tab
  | spaces {word : Text} (same : Text.lowerAscii word = "spaces".toList) :
      GivenBy (.string word) (.spaces Indent.usualWidth)
  | width {count : Nat} (positive : 1 ≤ count) (narrow : count ≤ Indent.greatestWidth) :
      GivenBy (.int count) (.spaces count)

/-- The names under a key: those of an array of strings, or none if the key is missing. -/
inductive NamesUnder (tree : Tree) (key : String) : List Text → Prop where
  | listed {names : List Text} (there : tree.Holds [key] (.ofTexts names)) :
      NamesUnder tree key names
  | missing (nothing : ∀ value, ¬ tree.Holds [key] value) : NamesUnder tree key []

/-- Names are given by an object of arrays of strings, or by up to four such arrays in a
row. A list that is missing is empty. -/
inductive Names.GivenBy : Tree → Names → Prop where
  | byKey {entries : List (Text × Tree)} {names : Names}
      (characters : NamesUnder (.object entries) "characters" names.characters)
      (places : NamesUnder (.object entries) "places" names.places)
      (things : NamesUnder (.object entries) "things" names.things)
      (invalid : NamesUnder (.object entries) "invalid" names.invalid) :
      GivenBy (.object entries) names
  | inRow {lists : List (List Text)} (few : lists.length ≤ 4) :
      GivenBy (.array (lists.map Tree.ofTexts))
        ⟨lists[0]?.getD [], lists[1]?.getD [], lists[2]?.getD [], lists[3]?.getD []⟩

namespace Tree

theorem asOrder?_eq_some_iff {tree : Tree} {files : List Path} :
    tree.asOrder? = some files ↔ OrderGivenBy tree files := by
  constructor
  · intro read
    simp only [asOrder?] at read
    split at read
    case h_1 first rest listed =>
      cases read
      obtain ⟨items, isArray, strings⟩ := Option.map_eq_some_iff.mp listed
      obtain rfl := asArray?_eq_some_iff.mp isArray
      rw [← strings]
      exact .strings items (by rw [strings]; exact List.cons_ne_nil first rest)
    case h_2 => cases read
  · rintro ⟨items, some⟩
    obtain ⟨first, rest, strings⟩ := List.exists_cons_of_ne_nil some
    simp [asOrder?, asArray?, strings]

theorem asSpacing?_eq_some_iff {tree : Tree} {spacing : Spacing} :
    tree.asSpacing? = some spacing ↔
      ∃ word, tree = string word ∧ Text.lowerAscii word = spacing.word := by
  simp only [asSpacing?, Option.bind_eq_some_iff, asString?_eq_some_iff,
    Spacing.ofWord?_eq_some_iff]

theorem asMode?_eq_some_iff {tree : Tree} {mode : Mode} :
    tree.asMode? = some mode ↔
      ∃ word, tree = string word ∧ Text.lowerAscii word = mode.word := by
  simp only [asMode?, Option.bind_eq_some_iff, asString?_eq_some_iff, Mode.ofWord?_eq_some_iff]

theorem asIndent?_eq_some_iff {tree : Tree} {indent : Indent} :
    tree.asIndent? = some indent ↔ Indent.GivenBy tree indent := by
  constructor
  · intro read
    cases tree with
    | string word =>
      simp only [asIndent?] at read
      split at read
      case isTrue same => cases read; exact .tab same
      case isFalse =>
        split at read
        case isTrue same => cases read; exact .spaces same
        case isFalse => cases read
    | int width =>
      simp only [asIndent?] at read
      split at read
      case isTrue bounds =>
        cases read
        obtain ⟨count, rfl⟩ := Int.eq_ofNat_of_zero_le (by omega : 0 ≤ width)
        exact .width (by omega) (by omega)
      case isFalse => cases read
    | null | bool | float | array | object => cases read
  · intro given
    cases given with
    | tab same => simp [asIndent?, same]
    | spaces same => simp [asIndent?, same]
    | width positive narrow =>
      simp only [asIndent?]
      rw [if_pos ⟨by omega, by omega⟩]
      rfl

theorem namesUnder?_eq_some_iff {tree : Tree} {key : String} {names : List Text} :
    tree.namesUnder? key = some names ↔ NamesUnder tree key names := by
  have single {value : Tree} : tree.get? key.toList = some value ↔ tree.Holds [key] value := by
    rw [← find?_eq_some_iff]
    simp [find?]
  constructor
  · intro read
    simp only [namesUnder?] at read
    split at read
    case h_1 value found =>
      obtain rfl := asStrings?_eq_some_iff.mp read
      exact .listed (single.mp found)
    case h_2 absent =>
      cases read
      exact .missing fun value there => by rw [single.mpr there] at absent; cases absent
  · intro given
    cases given with
    | listed there =>
      rw [namesUnder?, single.mpr there]
      exact asStrings?_eq_some_iff.mpr rfl
    | missing nothing =>
      have absent : tree.get? key.toList = none :=
        Option.eq_none_iff_forall_ne_some.mpr fun value found =>
          nothing value (single.mp found)
      rw [namesUnder?, absent]

theorem asNames?_eq_some_iff {tree : Tree} {names : Names} :
    tree.asNames? = some names ↔ Names.GivenBy tree names := by
  constructor
  · intro read
    cases tree with
    | object entries =>
      simp only [asNames?, Option.bind_eq_bind, Option.bind_eq_some_iff,
        namesUnder?_eq_some_iff] at read
      obtain ⟨characters, first, places, second, things, third, invalid, fourth, whole⟩ := read
      cases whole
      exact .byKey first second third fourth
    | array items =>
      simp only [asNames?] at read
      split at read
      case isTrue few =>
        simp only [Option.bind_eq_bind, Option.bind_eq_some_iff,
          mapM_eq_some_iff asStrings?_eq_some_iff] at read
        obtain ⟨lists, rfl, whole⟩ := read
        cases whole
        exact .inRow (by simpa using few)
      case isFalse => cases read
    | null | bool | int | float | string => cases read
  · intro given
    cases given with
    | byKey characters places things invalid =>
      simp only [asNames?, namesUnder?_eq_some_iff.mpr characters,
        namesUnder?_eq_some_iff.mpr places, namesUnder?_eq_some_iff.mpr things,
        namesUnder?_eq_some_iff.mpr invalid, Option.bind_eq_bind, Option.bind_some]
    | @inRow lists few =>
      simp only [asNames?]
      rw [if_pos (by simpa using few), (mapM_eq_some_iff asStrings?_eq_some_iff).mpr rfl]
      rfl

end Tree

/-! ### The settings -/

/-- What a project can choose, each of which is chosen apart from the others. -/
inductive Setting where
  | order
  | spacing
  | mode
  | removeBlankLines
  | indent
  /-- Whether the first paragraph behind a title is indented. -/
  | titleIndent
  /-- Whether the first paragraph of a chapter is indented. -/
  | chapterIndent
  /-- Whether the first paragraph of a section is indented. -/
  | sectionIndent
  /-- The four lists of names, which are chosen together. -/
  | names
  deriving DecidableEq, Repr

namespace Setting

/-- What a setting can be set to. -/
abbrev Choice : Setting → Type
  | order => List Path
  | spacing => Spacing
  | mode => Mode
  | indent => Indent
  | removeBlankLines | titleIndent | chapterIndent | sectionIndent => Bool
  | names => Names

/-- The keys that lead to a setting. -/
def keys : Setting → List String
  | order => ["compile", "order"]
  | spacing => ["compile", "spacing"]
  | mode => ["compile", "paragraph", "mode"]
  | removeBlankLines => ["compile", "paragraph", "removeBlankLines"]
  | indent => ["compile", "paragraph", "indent"]
  | titleIndent => ["compile", "paragraph", "tabFirst", "title"]
  | chapterIndent => ["compile", "paragraph", "tabFirst", "chapter"]
  | sectionIndent => ["compile", "paragraph", "tabFirst", "section"]
  | names => ["names"]

/-- What settings hold for one of them. -/
def ofSettings : (setting : Setting) → Settings → setting.Choice
  | order, settings => settings.options.order
  | spacing, settings => settings.options.spacing
  | mode, settings => settings.options.mode
  | removeBlankLines, settings => settings.options.removeBlankLines
  | indent, settings => settings.options.indent
  | titleIndent, settings => settings.options.firstIndent.title
  | chapterIndent, settings => settings.options.firstIndent.chapter
  | sectionIndent, settings => settings.options.firstIndent.inSection
  | names, settings => settings.names

/-- Settings that agree in each setting are the same. -/
theorem ext_ofSettings {settings other : Settings}
    (same : ∀ setting : Setting, setting.ofSettings settings = setting.ofSettings other) :
    settings = other := by
  obtain ⟨⟨order, spacing, mode, removeBlankLines, indent, title, chapter, inSection⟩, names⟩ :=
    settings
  cases same .order
  cases same .spacing
  cases same .mode
  cases same .removeBlankLines
  cases same .indent
  cases same .titleIndent
  cases same .chapterIndent
  cases same .sectionIndent
  cases same .names
  rfl

/-- What a value gives for a setting. -/
def GivenBy : (setting : Setting) → Tree → setting.Choice → Prop
  | order, value, files => OrderGivenBy value files
  | spacing, value, chosen => ∃ word, value = .string word ∧ Text.lowerAscii word = chosen.word
  | mode, value, chosen => ∃ word, value = .string word ∧ Text.lowerAscii word = chosen.word
  | indent, value, chosen => Indent.GivenBy value chosen
  | removeBlankLines, value, flag | titleIndent, value, flag | chapterIndent, value, flag
  | sectionIndent, value, flag => value = .bool flag
  | names, value, chosen => Names.GivenBy value chosen

/-- A file chooses something for a setting: what stands at the place of the setting in its
tree gives it. -/
def ChosenBy (setting : Setting) (tree : Tree) (choice : setting.Choice) : Prop :=
  ∃ value, tree.Holds setting.keys value ∧ setting.GivenBy value choice

/-- How a value is read for a setting. -/
def read? : (setting : Setting) → Tree → Option setting.Choice
  | order => Tree.asOrder?
  | spacing => Tree.asSpacing?
  | mode => Tree.asMode?
  | indent => Tree.asIndent?
  | removeBlankLines | titleIndent | chapterIndent | sectionIndent => Tree.asBool?
  | names => Tree.asNames?

theorem read?_eq_some_iff {setting : Setting} {value : Tree} {choice : setting.Choice} :
    setting.read? value = some choice ↔ setting.GivenBy value choice := by
  cases setting with
  | order => exact Tree.asOrder?_eq_some_iff
  | spacing => exact Tree.asSpacing?_eq_some_iff
  | mode => exact Tree.asMode?_eq_some_iff
  | indent => exact Tree.asIndent?_eq_some_iff
  | removeBlankLines | titleIndent | chapterIndent | sectionIndent =>
    exact Tree.asBool?_eq_some_iff
  | names => exact Tree.asNames?_eq_some_iff

/-- What a tree chooses for a setting. -/
def choice? (setting : Setting) (tree : Tree) : Option setting.Choice :=
  (tree.find? setting.keys).bind setting.read?

theorem choice?_eq_some_iff {setting : Setting} {tree : Tree} {choice : setting.Choice} :
    setting.choice? tree = some choice ↔ setting.ChosenBy tree choice := by
  simp only [choice?, Option.bind_eq_some_iff, Tree.find?_eq_some_iff, read?_eq_some_iff, ChosenBy]

theorem choice?_eq_none_iff {setting : Setting} {tree : Tree} :
    setting.choice? tree = none ↔ ∀ choice, ¬ setting.ChosenBy tree choice := by
  simp only [Option.eq_none_iff_forall_ne_some, ne_eq, choice?_eq_some_iff]

end Setting

end Manuscript
