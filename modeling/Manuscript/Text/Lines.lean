/-
This file cuts a stream into lines. A line ends at a line feed, and one carriage
return directly before that line feed belongs to the line end. What follows the
last line feed is a line only if there is something there, and it keeps a carriage
return at its end, since no line feed follows. Texts and files are cut by the same
rule, so the rule is stated for any alphabet with the two marks.
-/

import Manuscript.Text.Basic

namespace Manuscript

/-- The lines of a stream. -/
def cutLines {Symbol : Type} [DecidableEq Symbol] (feed carriage : Symbol) :
    List Symbol → List (List Symbol)
  | [] => []
  | symbol :: rest =>
    if symbol = feed then [] :: cutLines feed carriage rest
    else if symbol = carriage ∧ rest.head? = some feed then cutLines feed carriage rest
    else
      match cutLines feed carriage rest with
      | [] => [[symbol]]
      | line :: others => (symbol :: line) :: others

/-- The content of a file. -/
abbrev Bytes := List UInt8

namespace Text

/-- The lines of a text. -/
def lines (text : Text) : List Text :=
  cutLines '\n' '\r' text

/-- A text as bytes, in UTF-8. -/
def encode (text : Text) : Bytes :=
  (String.ofList text).toUTF8.toList

/-- The text that the bytes encode in UTF-8, if they encode one. -/
def decode? (bytes : Bytes) : Option Text :=
  (String.fromUTF8? ⟨bytes.toArray⟩).map String.toList

/-- The lines of a file. A line whose bytes are not valid UTF-8 cannot be read; the lines
around it can. -/
def fileLines (bytes : Bytes) : List (Option Text) :=
  (cutLines 10 13 bytes).map decode?

/-- Lines as a file holds them, each with its line feed. -/
def unlines (lines : List Text) : Text :=
  lines.flatMap (· ++ ['\n'])

end Text

end Manuscript
