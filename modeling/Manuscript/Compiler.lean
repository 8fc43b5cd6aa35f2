/-
This file compiles manuscripts line by line. Every line goes the same way: what is
hidden is taken out of it, what is left is checked for invalid names, the context moves
on with the line as it was written, and the visible part is laid out. Hidden text so
never reaches the page, while structure shows even on a line that a comment partly
hides.

A compiler carries its state from file to file only as far as the next file's
beginning: there the block is closed and the context starts again. The one thing that
is remembered is whether any file has been started, because the first file opens with a
first paragraph and the later ones do not.
-/

import Manuscript.Text.Lines
import Manuscript.Layout.Page
import Manuscript.Watchlist
import Manuscript.Notice
import Manuscript.Failure

namespace Manuscript

/-- A compilation under way. -/
structure Compiler where
  options : Options
  watchlist : Watchlist
  block : Block
  context : Context
  /-- Whether any file has been started. -/
  started : Bool
  deriving DecidableEq, Repr

/-- What compiling some lines or files came to: the compiler after them, the physical lines
that were written, the notices in order, and the number of lines or files done, or why
it ended before all were. -/
structure Passage where
  compiler : Compiler
  written : List Text
  notices : List Notice
  outcome : Except Failure Nat

namespace Passage

/-- The passage with something written and reported in front of it. -/
def after (passage : Passage) (written : List Text) (notices : List Notice) : Passage :=
  { passage with
    written := written ++ passage.written
    notices := notices ++ passage.notices }

end Passage

namespace Compiler

/-- Before the first file. -/
def new (options : Options) (names : Names) : Compiler where
  options := options
  watchlist := .ofNames names.invalid
  block := .visible
  context := .start
  started := false

/-- At the beginning of a file. -/
def begin (compiler : Compiler) : Compiler :=
  { compiler with
    block := .visible
    context := if compiler.started then .restart else Context.restart.arm
    started := true }

/-- What is visible of the next line. -/
def visible (compiler : Compiler) (raw : Text) : Text :=
  (compiler.block.strip raw).1

/-- After the next line. -/
def advance (compiler : Compiler) (raw : Text) : Compiler :=
  { compiler with
    block := (compiler.block.strip raw).2
    context := compiler.context.advance raw }

/-- The physical lines of the next line. -/
def layOut (compiler : Compiler) (raw : Text) : List Text :=
  Layout.linesOf compiler.options (compiler.context.advance raw) (compiler.visible raw)

/-- What there is to report about the next line. -/
def inspect (compiler : Compiler) (source : Path) (number : Nat) (raw : Text) : List Notice :=
  match compiler.watchlist.found (compiler.visible raw) with
  | [] => []
  | names => [.invalidNames source number names]

/-- What there is to report at the end of a file. -/
def leave (compiler : Compiler) (source : Path) : List Notice :=
  match compiler.block with
  | .visible => []
  | block => [.unterminated block source]

/-- Compiles the lines of a file after the first `number` of them, as far as they can be
read. -/
def compileFrom (source : Path) : (compiler : Compiler) → (number : Nat) →
    List (Option Text) → Passage
  | compiler, number, [] => ⟨compiler, [], compiler.leave source, .ok number⟩
  | compiler, _, none :: _ => ⟨compiler, [], [], .error (.inputNotRead source)⟩
  | compiler, number, some raw :: rest =>
    (compileFrom source (compiler.advance raw) (number + 1) rest).after
      (compiler.layOut raw) (compiler.inspect source (number + 1) raw)

/-- Compiles a file from its lines. `source` names it in messages. -/
def compileLines (compiler : Compiler) (source : Path) (lines : List (Option Text)) : Passage :=
  compileFrom source compiler.begin 0 lines

end Compiler

/-- The name of a manuscript that is not read from a file. -/
def unnamedSource : Path :=
  .ofString "<string>"

/-- Compiles a manuscript that is at hand as a text. -/
def compileText (options : Options) (source : Text) : Passage :=
  (Compiler.new options .none).compileLines unnamedSource ((Text.lines source).map some)

end Manuscript
