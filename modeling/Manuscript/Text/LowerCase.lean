/-
This file lower-cases text the way Unicode does. Every character but two has a
lower-case form that is its own. The capital `İ` becomes two characters, and a
capital sigma is written in its final form at the end of a word: after a cased
character and not before one, where the marks that may stand inside a word are
passed over on both sides.
-/

import Manuscript.Text.Basic
import Manuscript.Text.LetterTable

namespace Manuscript

/-- Whether a character counts as a letter with case. -/
def isCased (character : Char) : Bool :=
  inRanges casedRanges character.toNat

/-- Whether a character is passed over when the neighbours of a sigma are looked at. -/
def isIgnorable (character : Char) : Bool :=
  inRanges ignorableRanges character.toNat

/-- The small letter of a character outside ASCII, by the table of capitals. -/
def smallByTable (character : Char) : Char :=
  match caseRuns.find? (·.covers character.toNat) with
  | some run => Char.ofNat (run.small character.toNat)
  | none => character

/-- The lower-case form of one character out of context. -/
def smallForm (character : Char) : Text :=
  if character.toNat < 0x80 then [character.toLower]
  else if character.toNat = 0x130 then ['i', Char.ofNat 0x307]
  else [smallByTable character]

namespace Text

/-- Whether the next character that is not passed over is cased. -/
def startsCased : Text → Bool
  | [] => false
  | character :: rest => if isIgnorable character then startsCased rest else isCased character

/-- Lower-cases what follows. The flag says whether the last character that is not passed
over was cased. -/
def lowerAfter (afterCased : Bool) : Text → Text
  | [] => []
  | character :: rest =>
    let form :=
      if character.toNat = 0x3A3 then
        [Char.ofNat (if afterCased && !startsCased rest then 0x3C2 else 0x3C3)]
      else smallForm character
    form ++ lowerAfter (if isIgnorable character then afterCased else isCased character) rest

/-- A text in lower case. -/
def lower (text : Text) : Text :=
  lowerAfter false text

/-- A text with its ASCII letters in lower case and everything else as it is. -/
def lowerAscii (text : Text) : Text :=
  text.map Char.toLower

end Text

end Manuscript
