/-
This file lists the pieces that a YAML text is divided into, and moves through the text to
find them. Blocks that the notation shows by indentation alone have a beginning and an end
among the pieces like bracketed ones. A cursor knows what is left to read and where it
stands: lines and columns decide what belongs to what in this notation. Five characters
and one pair of characters end a line; two of them are kept as they are where line ends
are text, and the others count as a line feed.
-/

import Manuscript.Text.Basic

namespace Manuscript.Yaml

/-! ### Pieces -/

/-- A piece of a YAML text. -/
inductive Token where
  | version (major minor : Nat)
  | handle (handle meaning : Text)
  | documentStart
  | documentEnd
  | blockSequenceStart
  | blockMappingStart
  | blockEnd
  | flowSequenceStart
  | flowSequenceEnd
  | flowMappingStart
  | flowMappingEnd
  /-- The hyphen before an item of a block sequence. -/
  | item
  /-- The comma in a bracketed collection. -/
  | comma
  | key
  | value
  | aliasOf (name : Text)
  | anchor (name : Text)
  | tag (handle suffix : Text)
  /-- A text. `plain` says that it stands there without quotes or a block of its own. -/
  | scalar (text : Text) (plain : Bool)
  deriving DecidableEq

/-! ### Characters -/

/-- Whether the character may stand in a YAML text at all. -/
def isAllowed (character : Char) : Bool :=
  let code := character.toNat
  code == 9 || code == 0xA || code == 0xD || (0x20 ≤ code && code ≤ 0x7E) || code == 0x85 ||
    (0xA0 ≤ code && code ≤ 0xD7FF) || (0xE000 ≤ code && code ≤ 0xFFFD) || 0x10000 ≤ code

/-- Whether the character ends a line. -/
def isBreak (character : Char) : Bool :=
  let code := character.toNat
  code == 0xA || code == 0xD || code == 0x85 || code == 0x2028 || code == 0x2029

/-- Whether the character separates words within a line. -/
def isGap (character : Char) : Bool :=
  character = ' ' || character = '\t'

/-- Whether a word ends before what comes next. -/
def endsWord : Option Char → Bool
  | none => true
  | some character => isGap character || isBreak character

/-- Whether the character may stand in the name of an anchor, a directive or a handle. -/
def isNameCharacter (character : Char) : Bool :=
  character.isAlphanum || character = '_' || character = '-'

/-! ### Places -/

/-- A place in a text: what is left to read, and where it stands. -/
structure Cursor where
  rest : Text
  index : Nat
  line : Nat
  column : Nat

/-- Repeats a step until it has a result. A step that leaves as much to do as there was
before it can never come to an end, so it counts as a failure. -/
def iterate {State Result : Type} (left : State → Nat)
    (step : State → Option (State ⊕ Result)) (state : State) : Option Result :=
  match step state with
  | none => none
  | some (.inr result) => some result
  | some (.inl next) => if left next < left state then iterate left step next else none
termination_by left state

namespace Cursor

/-- At the beginning of a text. -/
def start (text : Text) : Cursor := ⟨text, 0, 0, 0⟩

/-- How much is left to read. -/
def left (cursor : Cursor) : Nat := cursor.rest.length

/-- The next character. -/
def next? (cursor : Cursor) : Option Char := cursor.rest.head?

/-- Whether the given character comes next. -/
def sees (cursor : Cursor) (character : Char) : Bool :=
  cursor.next? == some character

/-- Whether one of the given characters comes next. -/
def seesOneOf (cursor : Cursor) (characters : Text) : Bool :=
  cursor.next?.any characters.contains

/-- Whether the next character separates words within a line. -/
def seesGap (cursor : Cursor) : Bool :=
  cursor.next?.any isGap

/-- Whether the line ends here. -/
def seesBreak (cursor : Cursor) : Bool :=
  cursor.next?.any isBreak

/-- Whether the word that comes before the cursor is at its end. -/
def seesWordEnd (cursor : Cursor) : Bool :=
  endsWord cursor.next?

/-- Whether nothing is left on the line. -/
def seesLineEnd (cursor : Cursor) : Bool :=
  cursor.next?.all isBreak

/-- Behind the next `count` characters, none of which ends the line. -/
def skip (cursor : Cursor) (count : Nat) : Cursor where
  rest := cursor.rest.drop count
  index := cursor.index + count
  line := cursor.line
  column := cursor.column + count

/-- The characters up to the first that fails the test, and the place behind them. -/
def takeWhile (cursor : Cursor) (test : Char → Bool) : Text × Cursor :=
  let taken := cursor.rest.takeWhile test
  (taken, cursor.skip taken.length)

/-- Behind the characters up to the first that fails the test. -/
def skipWhile (cursor : Cursor) (test : Char → Bool) : Cursor :=
  (cursor.takeWhile test).2

/-- Behind a line end: what it counts as, and the beginning of the next line. Where no line
ends nothing is read. -/
def takeBreak (cursor : Cursor) : Text × Cursor :=
  match cursor.rest with
  | '\r' :: '\n' :: rest => (['\n'], ⟨rest, cursor.index + 2, cursor.line + 1, 0⟩)
  | character :: rest =>
    if isBreak character then
      let meant := if character.toNat < 0x2000 then '\n' else character
      ([meant], ⟨rest, cursor.index + 1, cursor.line + 1, 0⟩)
    else ([], cursor)
  | [] => ([], cursor)

/-- Whether a line begins here with the three given characters as a word of their own. -/
def seesMarker (cursor : Cursor) (character : Char) : Bool :=
  cursor.column == 0 && cursor.rest.take 3 == [character, character, character] &&
    endsWord cursor.rest[3]?

/-- Whether a line begins here that begins or ends a document. -/
def seesDocumentMarker (cursor : Cursor) : Bool :=
  cursor.seesMarker '-' || cursor.seesMarker '.'

end Cursor

end Manuscript.Yaml
