/-
This file hides comments and bracketed asides. What is hidden depends on the block
that is open when a line begins, and a block stays open over any number of lines
until its own closing mark turns up, so stripping a line answers with the text that
is kept and with the block that is open after it. Inside a block nothing but its
closing mark counts; a line mark hides what is left of a line only where text is
visible.
-/

import Manuscript.Aside.Token

namespace Manuscript

/-- The hidden block that a place in the manuscript lies in. -/
inductive Block where
  | visible
  | comment
  | bracket
  deriving DecidableEq, Repr

namespace Block

/-- The block as a message names it. -/
def describe : Block → String
  | visible => "no block"
  | comment => "block comment"
  | bracket => "bracket block"

/-- Reads the pieces of a line: the text that is kept, and the block that is open after. -/
def read : Block → List Token → Text × Block
  | block, [] => ([], block)
  | .visible, token :: rest =>
    match token.kind with
    | .blockMark => read .comment rest
    | .openBracket => read .bracket rest
    | .lineMark => ([], .visible)
    | _ =>
      let (kept, after) := read .visible rest
      (token.lexeme ++ kept, after)
  | .comment, token :: rest =>
    match token.kind with
    | .blockMark => read .visible rest
    | _ => read .comment rest
  | .bracket, token :: rest =>
    match token.kind with
    | .closeBracket => read .visible rest
    | _ => read .bracket rest

/-- Strips a line that begins inside the block of everything hidden. -/
def strip (block : Block) (line : Text) : Text × Block :=
  block.read (Token.ofLine line)

end Block

end Manuscript
