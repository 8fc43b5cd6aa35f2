/-
This file follows a manuscript line by line and keeps what the layout of a line
depends on: what kind of line it is and what came before it, the chapter or section it
belongs to, whether it opens the first paragraph after a tag, whether bold or italic
words run over from earlier lines, and the open block quotes. It is fed the lines as
they are written, comments included, so structure shows also where a comment hides
part of it.

Each part of the context moves by a rule of its own, given the kind of the new line.
-/

import Manuscript.Tag
import Manuscript.Quote

namespace Manuscript

/-- What kind of line a line is. -/
inductive LineKind where
  | blank
  | tagged (tag : Tag)
  | prose
  deriving DecidableEq, Repr

namespace LineKind

/-- Whether the line is blank. -/
def isBlank : LineKind → Bool
  | blank => true
  | _ => false

/-- Whether the line declares structure. -/
def isTagged : LineKind → Bool
  | tagged _ => true
  | _ => false

/-- The tag that the line declares, if it declares one. -/
def tag? : LineKind → Option Tag
  | tagged tag => some tag
  | _ => none

end LineKind

/-- What part of the document a line belongs to. -/
inductive Scope where
  /-- No chapter or section is open, or a title or author has closed it. -/
  | wholeDocument
  | inChapter
  | inSection
  deriving DecidableEq, Repr

/-- The scope that begins with a tag. -/
def Scope.ofTag (tag : Tag) : Scope :=
  if tag.opensChapter then inChapter else if tag.opensSection then inSection else wholeDocument

/-- The watch for a first paragraph. -/
inductive Opening where
  /-- The next line of prose is like any other. -/
  | idle
  /-- The next line of prose opens the first paragraph. -/
  | armed
  /-- The present line opens the first paragraph. -/
  | current
  deriving DecidableEq, Repr

namespace Opening

/-- The watch lasts for one line once a first paragraph has begun. -/
def settle : Opening → Opening
  | current => idle
  | opening => opening

/-- The watch after a line of the given kind. -/
def after (opening : Opening) : LineKind → Opening
  | .blank => opening.settle
  | .tagged tag => if tag.opensParagraph then armed else opening.settle
  | .prose => if opening = armed then current else idle

end Opening

/-- What is known at a line of a manuscript. -/
structure Context where
  line : LineKind
  previous : LineKind
  scope : Scope
  opening : Opening
  bold : Bool
  italics : Bool
  quotes : Quotes
  deriving DecidableEq, Repr

namespace Context

/-- Before the first line of a document. The beginning counts as a blank line, and it is
watched for a first paragraph as after a tag. -/
def start : Context where
  line := .blank
  previous := .blank
  scope := .wholeDocument
  opening := .armed
  bold := false
  italics := false
  quotes := .none

/-- Before the first line of a further file. It may go on with the chapter of the file
before it, so its first paragraph is like any other. -/
def restart : Context :=
  { start with opening := .idle }

/-- Watches for a first paragraph from here on. -/
def arm (context : Context) : Context :=
  { context with opening := .armed }

/-- A first file and a document on its own begin alike. -/
theorem arm_restart : restart.arm = start := rfl

/-- What kind of line follows a line of the given kind. A tag counts only directly after a
blank line or another tag. -/
def classify (previous : LineKind) (raw : Text) : LineKind :=
  let folded := Text.lower raw
  if (Text.trim folded).isEmpty then .blank
  else
    match previous with
    | .prose => .prose
    | _ =>
      match Tag.detect? folded with
      | some tag => .tagged tag
      | none => .prose

/-- Whether bold or italic text runs on after a line that holds `marks` of its marks. A
blank line ends it, and a tag has no part in it. -/
def emphasisAfter (open_ : Bool) (marks : Nat) : LineKind → Bool
  | .blank => false
  | .tagged _ => open_
  | .prose => if marks % 2 = 1 then !open_ else open_

/-- The context at the next line. -/
def advance (context : Context) (raw : Text) : Context :=
  let folded := Text.lower raw
  let line := classify context.line raw
  { line
    previous := context.line
    scope :=
      match line with
      | .tagged tag => Scope.ofTag tag
      | _ => context.scope
    opening := context.opening.after line
    bold := emphasisAfter context.bold (Text.countPairs folded) line
    italics := emphasisAfter context.italics (folded.count '*') line
    quotes :=
      match line, context.line with
      | .prose, .blank => context.quotes.adjust raw
      | _, _ => context.quotes }

/-- Whether the line opens the first paragraph after a tag. -/
def isFirstParagraph (context : Context) : Bool :=
  context.opening = .current

/-- Whether the line begins a paragraph. -/
def startsParagraph (context : Context) : Bool :=
  context.previous.isBlank || context.previous.isTagged

end Context

end Manuscript
