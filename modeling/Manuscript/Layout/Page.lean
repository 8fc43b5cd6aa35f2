/-
This file lays out one line of a manuscript as physical lines of plain text. The line
has been stripped of everything hidden and the context has already moved on to it. Its
white space is normalised; empty lines go in front of it; a tag loses its word, and an
author gets a `by`; prose is indented and loses its emphasis marks; and what is left is
wrapped. A line of which nothing is left leaves no trace at all, whatever it was.
-/

import Manuscript.Layout.Wrap
import Manuscript.Layout.Paragraph

namespace Manuscript.Layout

/-- The width of the page, in characters. -/
def pageWidth : Nat := 80

/-- The empty lines in front of a tag. -/
def paddingOfTag : Tag → Nat
  | .chapter | .sectionTag => 2
  | .sectionBreak => 1
  | .author | .title => 0

/-- The empty lines in front of a line of prose. -/
def paddingOfProse (options : Options) (context : Context) : Nat :=
  if context.isFirstParagraph then
    if context.scope = .wholeDocument then 2 else 1
  else if options.spacing = .singlePlus && context.startsParagraph then 1
  else 0

/-- What a line that declares a tag says without the tag's word. -/
def renderTag (tag : Tag) (line : Text) : Text :=
  let rest := tag.strip line
  match tag with
  | .author => if rest.isEmpty then "by".toList else "by ".toList ++ rest
  | _ => rest

/-- The text of a line of prose, from its words. -/
def renderProse (options : Options) (context : Context) (line : Text) : Text :=
  stripEmphasis (firstCharacters options (.ofContext context) ++ line)

/-- Physical lines at the chosen spacing. -/
def spaced (options : Options) (lines : List Text) : List Text :=
  if options.spacing = .double then lines.flatMap fun line => [line, []] else lines

/-- A text on the page. -/
def typeset (options : Options) (text : Text) : List Text :=
  spaced options (wrap pageWidth text)

/-- The physical lines of a blank line: an empty one where blank lines are kept and prose
came before. -/
def blankLines (options : Options) (context : Context) : List Text :=
  if !options.removeBlankLines && !context.previous.isBlank && !context.previous.isTagged then [[]]
  else []

/-- The physical lines of one line of the manuscript. -/
def linesOf (options : Options) (context : Context) (visible : Text) : List Text :=
  let words := Text.tidy visible
  match context.line with
  | .blank => blankLines options context
  | .tagged tag =>
    if words.isEmpty then []
    else
      let text := renderTag tag words
      List.replicate (paddingOfTag tag) [] ++ if text.isEmpty then [] else typeset options text
  | .prose =>
    if words.isEmpty then []
    else
      List.replicate (paddingOfProse options context) [] ++
        typeset options (renderProse options context words)

end Manuscript.Layout
