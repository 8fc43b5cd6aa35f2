/-
This file lays the values of a settings file over settings. Each option is looked at on
its own: a value that is valid takes the place of what was there, and one of the wrong
type or outside the allowed set changes nothing, neither the option itself nor any
other. What should be an object and is not counts as one without entries. The names are
replaced together or not at all.
-/

import Manuscript.Data.Tree
import Manuscript.Notice
import Manuscript.Settings.Options

namespace Manuscript

namespace Tree

/-- The value under a key of what may be missing. -/
def under? (key : String) (tree : Option Tree) : Option Tree :=
  tree.bind (get? key.toList)

/-- The order of files that a value gives: its strings, if there is one among its items. -/
def asOrder? (tree : Tree) : Option (List Path) :=
  match tree.asArray?.map (·.filterMap asString?) with
  | some (first :: rest) => some ((first :: rest).map Path.mk)
  | _ => none

/-- The spacing that a value gives. -/
def asSpacing? (tree : Tree) : Option Spacing :=
  tree.asString?.bind Spacing.ofWord?

/-- The layout of paragraphs that a value gives. -/
def asMode? (tree : Tree) : Option Mode :=
  tree.asString?.bind Mode.ofWord?

/-- The indent that a value gives: a word in any case, or a width from one to sixteen. -/
def asIndent? : Tree → Option Indent
  | string word =>
    let folded := Text.lowerAscii word
    if folded = "tab".toList then some .tab
    else if folded = "spaces".toList then some (.spaces Indent.usualWidth)
    else none
  | int width =>
    if 1 ≤ width ∧ width ≤ Indent.greatestWidth then some (.spaces width.toNat) else none
  | _ => none

/-- The names under a key: none if the key is missing, and nothing if its value is not an
array of strings. -/
def namesUnder? (key : String) (tree : Tree) : Option (List Text) :=
  match tree.get? key.toList with
  | some value => value.asStrings?
  | none => some []

/-- The names that a value gives: an object of arrays of strings, or up to four such arrays
in a row. -/
def asNames? (tree : Tree) : Option Names :=
  match tree with
  | object _ => do
    let characters ← tree.namesUnder? "characters"
    let places ← tree.namesUnder? "places"
    let things ← tree.namesUnder? "things"
    let invalid ← tree.namesUnder? "invalid"
    some ⟨characters, places, things, invalid⟩
  | array items =>
    if items.length ≤ 4 then do
      let lists ← items.mapM asStrings?
      some ⟨lists[0]?.getD [], lists[1]?.getD [], lists[2]?.getD [], lists[3]?.getD []⟩
    else none
  | _ => none

end Tree

namespace FirstIndent

/-- The choices with those of a value laid over them. -/
def overlay (choice : FirstIndent) (tree : Option Tree) : FirstIndent where
  title := ((Tree.under? "title" tree).bind Tree.asBool?).getD choice.title
  chapter := ((Tree.under? "chapter" tree).bind Tree.asBool?).getD choice.chapter
  inSection := ((Tree.under? "section" tree).bind Tree.asBool?).getD choice.inSection

end FirstIndent

namespace Options

/-- The options with those of a value laid over them. -/
def overlay (options : Options) (tree : Option Tree) : Options :=
  let paragraph := Tree.under? "paragraph" tree
  { order := ((Tree.under? "order" tree).bind Tree.asOrder?).getD options.order
    spacing := ((Tree.under? "spacing" tree).bind Tree.asSpacing?).getD options.spacing
    mode := ((Tree.under? "mode" paragraph).bind Tree.asMode?).getD options.mode
    removeBlankLines :=
      ((Tree.under? "removeBlankLines" paragraph).bind Tree.asBool?).getD options.removeBlankLines
    indent := ((Tree.under? "indent" paragraph).bind Tree.asIndent?).getD options.indent
    firstIndent := options.firstIndent.overlay (Tree.under? "tabFirst" paragraph) }

end Options

namespace Settings

/-- The settings with those of a file laid over them, and what there is to report. -/
def overlay (settings : Settings) (tree : Tree) : Settings × List Notice :=
  let options := settings.options.overlay (tree.get? "compile".toList)
  match tree.get? "names".toList with
  | none => (⟨options, settings.names⟩, [])
  | some value =>
    match value.asNames? with
    | some names => (⟨options, names⟩, [])
    | none => (⟨options, settings.names⟩, [.namesIgnored])

end Settings

end Manuscript
