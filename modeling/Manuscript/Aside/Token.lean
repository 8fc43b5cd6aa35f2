/-
This file divides a line into the pieces that comments, brackets and escapes are
made of. At every place the longest piece is taken, so three hashes are one block
mark and never a line mark followed by a hash, and a backslash takes the mark behind
it along: an escaped mark is a single piece and can neither open nor close anything.
Whatever is none of this is plain text, gathered into runs. Nothing is dropped: the
pieces of a line, put together again, are the line.
-/

import Manuscript.Text.Basic

namespace Manuscript

/-- What a piece of a line means for hiding text. -/
inductive TokenKind where
  /-- Three hashes open and close a block comment. -/
  | blockMark
  /-- Two hashes hide the rest of the line. -/
  | lineMark
  | openBracket
  | closeBracket
  /-- Two backslashes. -/
  | escapedBackslash
  /-- A backslash with the mark that it takes the meaning from. -/
  | escapedMark
  /-- A hash that belongs to no mark. -/
  | hash
  /-- A backslash that escapes nothing. -/
  | backslash
  | plain
  deriving DecidableEq, Repr

namespace TokenKind

/-- The pieces that can open or close a hidden block. -/
def isBlockDelimiter : TokenKind → Bool
  | blockMark | openBracket | closeBracket => true
  | _ => false

/-- The pieces that never change what is hidden. -/
def isContent : TokenKind → Bool
  | plain | hash | backslash | escapedBackslash | escapedMark => true
  | _ => false

end TokenKind

/-- A piece of a line: its meaning and the characters it is written with. -/
structure Token where
  kind : TokenKind
  lexeme : Text
  deriving DecidableEq, Repr

namespace Token

/-- Puts a plain character in front of the pieces that follow it, as part of the first one
if that is plain text too. -/
def consPlain (character : Char) : List Token → List Token
  | ⟨.plain, lexeme⟩ :: rest => ⟨.plain, character :: lexeme⟩ :: rest
  | rest => ⟨.plain, [character]⟩ :: rest

/-- The pieces of a line, the longest one at every place. -/
def ofLine : Text → List Token
  | [] => []
  | '#' :: '#' :: '#' :: rest => ⟨.blockMark, ['#', '#', '#']⟩ :: ofLine rest
  | '#' :: '#' :: rest => ⟨.lineMark, ['#', '#']⟩ :: ofLine rest
  | '#' :: rest => ⟨.hash, ['#']⟩ :: ofLine rest
  | '[' :: rest => ⟨.openBracket, ['[']⟩ :: ofLine rest
  | ']' :: rest => ⟨.closeBracket, [']']⟩ :: ofLine rest
  | '\\' :: '\\' :: rest => ⟨.escapedBackslash, ['\\', '\\']⟩ :: ofLine rest
  | '\\' :: '#' :: '#' :: '#' :: rest =>
    ⟨.escapedMark, ['\\', '#', '#', '#']⟩ :: ofLine rest
  | '\\' :: '#' :: '#' :: rest => ⟨.escapedMark, ['\\', '#', '#']⟩ :: ofLine rest
  | '\\' :: '[' :: rest => ⟨.escapedMark, ['\\', '[']⟩ :: ofLine rest
  | '\\' :: ']' :: rest => ⟨.escapedMark, ['\\', ']']⟩ :: ofLine rest
  | '\\' :: rest => ⟨.backslash, ['\\']⟩ :: ofLine rest
  | character :: rest => consPlain character (ofLine rest)

theorem lexemes_consPlain (character : Char) (tokens : List Token) :
    (consPlain character tokens).flatMap lexeme = character :: tokens.flatMap lexeme := by
  fun_cases consPlain character tokens <;> simp

/-- The pieces of a line, put together again, are the line. -/
theorem lexemes_ofLine (line : Text) : (ofLine line).flatMap lexeme = line := by
  fun_induction ofLine line <;> simp_all [lexemes_consPlain]

/-- Pieces with the byte offsets at which they begin and end, counted from `start`. -/
def placed : (start : Nat) → List Token → List (Token × Nat × Nat)
  | _, [] => []
  | start, token :: rest =>
    let stop := start + token.lexeme.byteLength
    (token, start, stop) :: placed stop rest

end Token

end Manuscript
