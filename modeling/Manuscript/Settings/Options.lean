/-
This file holds what a project can choose: the order of its files, the layout of
paragraphs, the spacing of lines, and the names that its manuscript uses. An option
that takes one of a few words is read from the word in any case.
-/

import Manuscript.Text.LowerCase
import Manuscript.Path

namespace Manuscript

/-- How paragraphs are laid out. -/
inductive Mode where
  /-- The first line of a paragraph is indented. -/
  | prose
  /-- No line is indented. -/
  | justified
  deriving DecidableEq, Repr

/-- The layout that a word asks for. -/
def Mode.ofWord? (word : Text) : Option Mode :=
  let folded := Text.lower word
  if folded = "prose".toList then some prose
  else if folded = "justified".toList then some justified
  else none

/-- The empty lines between lines of text. -/
inductive Spacing where
  | single
  /-- Single spacing with an empty line before each paragraph. -/
  | singlePlus
  | double
  deriving DecidableEq, Repr

/-- The spacing that a word asks for. -/
def Spacing.ofWord? (word : Text) : Option Spacing :=
  let folded := Text.lower word
  if folded = "single".toList then some single
  else if folded = "single+".toList then some singlePlus
  else if folded = "double".toList then some double
  else none

/-- What stands before the first line of an indented paragraph. -/
inductive Indent where
  | tab
  | spaces (count : Nat)
  deriving DecidableEq, Repr

namespace Indent

/-- The indent as it is written. -/
def text : Indent → Text
  | tab => ['\t']
  | spaces count => List.replicate count ' '

/-- The width of the indent that the word for spaces asks for. -/
def usualWidth : Nat := 4

/-- The widest indent that a project can choose. -/
def greatestWidth : Nat := 16

end Indent

/-- Whether the first paragraph behind a title, in a chapter and in a section is indented
like the others. -/
structure FirstIndent where
  title : Bool
  chapter : Bool
  inSection : Bool
  deriving DecidableEq, Repr

/-- The choices that decide how a manuscript is compiled. -/
structure Options where
  /-- The files to compile, seen from the project's folder. -/
  order : List Path
  spacing : Spacing
  mode : Mode
  removeBlankLines : Bool
  indent : Indent
  firstIndent : FirstIndent
  deriving DecidableEq, Repr

/-- What holds where a project chooses nothing. -/
def Options.standard : Options where
  order := []
  spacing := .single
  mode := .prose
  removeBlankLines := true
  indent := .tab
  firstIndent := ⟨false, false, false⟩

/-- The names of a manuscript. -/
structure Names where
  characters : List Text
  places : List Text
  things : List Text
  /-- Names that must not appear anywhere. -/
  invalid : List Text
  deriving DecidableEq, Repr

/-- No names at all. -/
def Names.none : Names := ⟨[], [], [], []⟩

/-- Everything that a project chooses. -/
structure Settings where
  options : Options
  names : Names
  deriving DecidableEq, Repr

/-- What holds where a project chooses nothing. -/
def Settings.standard : Settings :=
  ⟨.standard, .none⟩

end Manuscript
