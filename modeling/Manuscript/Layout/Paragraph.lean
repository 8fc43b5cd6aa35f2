/-
This file decides what stands in front of a line of prose and takes the marks of bold
and italic words out of it. A line that begins a paragraph is indented, except that the
first paragraph behind a title, in a chapter or in a section is indented only where the
project asks for it, and that justified text is never indented.
-/

import Manuscript.Context
import Manuscript.Settings.Options

namespace Manuscript.Layout

/-- What decides about the indent of a line. -/
structure ParagraphPlace where
  isFirst : Bool
  starts : Bool
  inChapter : Bool
  inSection : Bool
  deriving DecidableEq, Repr

/-- The place of the present line. -/
def ParagraphPlace.ofContext (context : Context) : ParagraphPlace where
  isFirst := context.isFirstParagraph
  starts := context.startsParagraph
  inChapter := context.scope == .inChapter
  inSection := context.scope == .inSection

/-- Whether a line at this place is indented. -/
def isIndented (options : Options) (place : ParagraphPlace) : Bool :=
  options.mode == .prose && place.starts &&
    (if place.isFirst then
      if place.inChapter then options.firstIndent.chapter
      else if place.inSection then options.firstIndent.inSection
      else options.firstIndent.title
    else true)

/-- What stands in front of a line at this place. -/
def firstCharacters (options : Options) (place : ParagraphPlace) : Text :=
  if isIndented options place then options.indent.text else []

/-- A line without the marks of bold words, and then without those of italic ones. -/
def stripEmphasis (line : Text) : Text :=
  (Text.dropPairs line).filter (· ≠ '*')

end Manuscript.Layout
