/-
This file keeps the nesting of block quotes. A paragraph that is indented further
than the quote it stands in opens a quote inside it, one that is indented less closes
a single quote, and one at the margin closes them all. The indentation of a list item
says nothing about quotes: a line whose white space runs into a hyphen counts as one
at the margin.
-/

import Manuscript.Text.Basic

namespace Manuscript

/-- The indentations of the open quotes, the innermost first. -/
structure Quotes where
  levels : List Text
  deriving DecidableEq, Repr

namespace Quotes

/-- No quote is open. -/
def none : Quotes := ⟨[]⟩

/-- How many quotes are open. -/
def depth (quotes : Quotes) : Nat :=
  quotes.levels.length

/-- The indentations from the outermost quote to the innermost. -/
def outermostFirst (quotes : Quotes) : List Text :=
  quotes.levels.reverse

/-- How far the innermost quote is indented. -/
def reach (quotes : Quotes) : Nat :=
  (quotes.levels.head?.map List.length).getD 0

/-- The white space a line begins with, where it stands before something other than a
hyphen. -/
def indentation? (line : Text) : Option Text :=
  let leading := line.takeWhile isSpace
  match leading, line.dropWhile isSpace with
  | _ :: _, character :: _ => if character = '-' then Option.none else some leading
  | _, _ => Option.none

/-- The open quotes from a line on that begins a paragraph. -/
def adjust (quotes : Quotes) (line : Text) : Quotes :=
  match indentation? line with
  | Option.none => none
  | some leading =>
    if quotes.reach < leading.length then ⟨leading :: quotes.levels⟩
    else if leading.length < quotes.reach then ⟨quotes.levels.tail⟩
    else quotes

end Quotes

end Manuscript
