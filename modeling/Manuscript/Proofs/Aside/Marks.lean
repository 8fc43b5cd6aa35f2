/-
This file reads hidden text off the characters of a line, without dividing the line
into pieces first. Which marks are live is decided for each place of the line by what
stands directly around it: the hashes that run through the place and the backslashes
directly in front of them, whatever block is open there. The open block then decides
which of the live marks it takes notice of, and the earliest of those is the next one
to count.

This is the rule as a writer knows it. That stripping a line piece by piece follows
it is shown in `Proofs/Aside/Reading.lean`.
-/

import Manuscript.Aside.Block

namespace Manuscript

namespace Text

/-- How many times the character stands directly in front of a place. -/
def runBefore (character : Char) (line : Text) (place : Nat) : Nat :=
  ((line.take place).reverse.takeWhile (· == character)).length

/-- How many times the character stands from a place on. -/
def runFrom (character : Char) (line : Text) (place : Nat) : Nat :=
  ((line.drop place).takeWhile (· == character)).length

end Text

/-- A live mark: one that a block can take notice of. -/
inductive Mark where
  | blockMark
  | lineMark
  | openBracket
  | closeBracket
  deriving DecidableEq, Repr

namespace Mark

/-- The live mark at an offset into a run of hashes that nothing escapes: a block mark for
each three of them, and a line mark where two are left over. -/
def inRun? (length offset : Nat) : Option Mark :=
  if offset % 3 ≠ 0 then none
  else if offset + 3 ≤ length then some blockMark
  else if offset + 2 = length then some lineMark
  else none

/-- The live mark at an offset into a run of hashes that so many backslashes stand directly
in front of. An odd number of them takes the meaning from the first three hashes, or from
all of them if there are no more than three, and what is left is read like any run. -/
def inRunBehind? (slashes length offset : Nat) : Option Mark :=
  if slashes % 2 = 0 then inRun? length offset
  else if offset < 3 then none
  else inRun? (length - 3) (offset - 3)

/-- The live mark that begins at a place of a line, if one does. The run of hashes around
the place is taken as a whole, and a bracket is live behind an even number of backslashes. -/
def at? (text : Text) (place : Nat) : Option Mark :=
  match text[place]? with
  | some '#' =>
    let offset := Text.runBefore '#' text place
    let slashes := Text.runBefore '\\' text (place - offset)
    inRunBehind? slashes (offset + Text.runFrom '#' text place) offset
  | some '[' => if Text.runBefore '\\' text place % 2 = 0 then some openBracket else none
  | some ']' => if Text.runBefore '\\' text place % 2 = 0 then some closeBracket else none
  | _ => none

/-- The live marks of a line, each with the place where it begins, from left to right. -/
def ofLine (line : Text) : List (Nat × Mark) :=
  (List.range line.length).filterMap fun place => (at? line place).map fun mark => (place, mark)

/-- Behind one backslash three of five hashes are escaped, and two are left for a line mark. -/
example : ofLine "\\#####[".toList = [(4, lineMark), (6, openBracket)] := by decide

end Mark

namespace Block

/-- Reads a line from a place on, where `marks` are the live marks from there on. The
earliest one that the open block takes notice of decides. Outside a block that is a block
mark, a line mark or an opening bracket; inside a comment it is a block mark, and inside a
bracket a closing bracket. What is visible is kept as it is written. -/
def readMarks (line : Text) : Block → (place : Nat) → List (Nat × Mark) → Text × Block
  | .visible, place, [] => (line.drop place, .visible)
  | .visible, place, (found, .blockMark) :: marks =>
    let (kept, after) := readMarks line .comment (found + 3) marks
    ((line.drop place).take (found - place) ++ kept, after)
  | .visible, place, (found, .openBracket) :: marks =>
    let (kept, after) := readMarks line .bracket (found + 1) marks
    ((line.drop place).take (found - place) ++ kept, after)
  | .visible, place, (found, .lineMark) :: _ =>
    ((line.drop place).take (found - place), .visible)
  | .visible, place, (_, .closeBracket) :: marks => readMarks line .visible place marks
  | .comment, _, (found, .blockMark) :: marks => readMarks line .visible (found + 3) marks
  | .bracket, _, (found, .closeBracket) :: marks => readMarks line .visible (found + 1) marks
  | .comment, place, _ :: marks => readMarks line .comment place marks
  | .bracket, place, _ :: marks => readMarks line .bracket place marks
  | block, _, [] => ([], block)

/-- Strips a line that begins inside the block, read by its live marks. -/
def stripByMarks (block : Block) (line : Text) : Text × Block :=
  block.readMarks line 0 (Mark.ofLine line)

/-- Strips lines one after another: what is kept of each, and the block open after it. -/
def alongLines (strip : Block → Text → Text × Block) : Block → List Text → List (Text × Block)
  | _, [] => []
  | block, line :: rest =>
    let (kept, after) := strip block line
    (kept, after) :: alongLines strip after rest

end Block

end Manuscript
