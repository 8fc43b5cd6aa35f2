/-
This file breaks a line of text into physical lines of a given width. A line that is
too long is broken at the last space or hyphen that still fits: the space is dropped,
the hyphen stays at the end of its line. Where there is neither, the line is cut at
exactly the width. A break always uses up something of the line, so breaking comes to
an end.
-/

import Manuscript.Text.Basic

namespace Manuscript

/-- A place to break a line: how many characters stay before it, and how many are used up
together with the break itself. -/
structure Break where
  kept : Nat
  used : Nat
  used_pos : 0 < used

namespace Break

/-- The break that a character at the given place allows. A space may stand just outside the
width, since it is dropped; a hyphen has to fit. -/
def at? (width place : Nat) (character : Char) : Option Break :=
  if character = ' ' then
    if positive : 0 < place then some ⟨place, place + 1, by omega⟩ else none
  else if character = '-' ∧ place < width then some ⟨place + 1, place + 1, by omega⟩
  else none

/-- The last break that the characters from the given place on allow. -/
def last? (width : Nat) : (place : Nat) → Text → Option Break
  | _, [] => none
  | place, character :: rest =>
    match last? width (place + 1) rest with
    | some later => some later
    | none => at? width place character

/-- Where a line longer than the width is broken. The character at its beginning is never a
place to break at. -/
def ofLine (width : Nat) (wide : 0 < width) (line : Text) : Break :=
  match last? width 1 ((line.drop 1).take width) with
  | some found => found
  | none => ⟨width, width, wide⟩

end Break

namespace Layout

/-- The physical lines of a line, for a width above zero. -/
def wrapWithin (width : Nat) (wide : 0 < width) (line : Text) : List Text :=
  if _ : width < line.length then
    let place := Break.ofLine width wide line
    line.take place.kept :: wrapWithin width wide (line.drop place.used)
  else [line]
termination_by line.length
decreasing_by
  have used := (Break.ofLine width wide line).used_pos
  simp only [List.length_drop]
  omega

/-- The physical lines of a line. A width of zero counts as one. -/
def wrap (width : Nat) (line : Text) : List Text :=
  wrapWithin (max width 1) (by omega) line

end Layout

end Manuscript
