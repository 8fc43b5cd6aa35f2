/-
This file recognises structural tags. Four of them are words with a colon at the very
start of a line, in capital or small ASCII letters; the section break is three
hyphens that are the whole line once the white space around them is gone. At most one
tag fits a line.
-/

import Manuscript.Text.LowerCase

namespace Manuscript

/-- A tag that declares a part of the document's structure. -/
inductive Tag where
  | author
  | chapter
  | sectionTag
  | title
  | sectionBreak
  deriving DecidableEq, Repr

namespace Tag

/-- The tags in the order in which they are tried. -/
def all : List Tag :=
  [author, chapter, sectionTag, title, sectionBreak]

/-- What the tag is written as, in small letters. -/
def literal : Tag → Text
  | author => "author:".toList
  | chapter => "chapter:".toList
  | sectionTag => "section:".toList
  | title => "title:".toList
  | sectionBreak => "---".toList

/-- What follows the tag's word, if the line starts with it in any case. -/
def restAfter? (tag : Tag) (line : Text) : Option Text :=
  if Text.lowerAscii (line.take tag.literal.length) = tag.literal then
    some (line.drop tag.literal.length)
  else none

/-- Whether a line declares the tag. -/
def matchesLine (tag : Tag) (line : Text) : Bool :=
  match tag with
  | sectionBreak => Text.trim line == sectionBreak.literal
  | _ => (tag.restAfter? line).isSome

/-- The tag that a line declares, if it declares one. -/
def detect? (line : Text) : Option Tag :=
  all.find? (·.matchesLine line)

/-- The trimmed line without the tag's word in front. A line that does not start with the
tag is only trimmed, and so is a section break. -/
def strip (tag : Tag) (line : Text) : Text :=
  let line := Text.trim line
  match tag with
  | sectionBreak => line
  | _ => Text.trim ((tag.restAfter? line).getD line)

/-- Whether the next paragraph counts as the first one of what the tag opens. An author
line opens nothing. -/
def opensParagraph : Tag → Bool
  | author => false
  | _ => true

/-- Whether the tag opens a chapter. -/
def opensChapter : Tag → Bool
  | chapter => true
  | _ => false

/-- Whether the tag opens a section, by its name or by a break. -/
def opensSection : Tag → Bool
  | sectionTag | sectionBreak => true
  | _ => false

end Tag

end Manuscript
