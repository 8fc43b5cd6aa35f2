/-
This file is about breaking a line. Every break fits: no more stays before it than the
width, and what is used up with it is at most one space. So the physical lines of a line
are never wider than asked for, are unbroken parts of the line, and together hold everything
of the line but some of its spaces.
-/

import Manuscript.Proofs.Layout.Breaks
import Manuscript.Proofs.Text.Space

namespace Manuscript

namespace Break

/-! ### Breaks fit -/

/-- A break fits a line where what stays before it is within the width and where nothing is
lost with it but a space. -/
structure Fits (width : Nat) (text : Text) (found : Break) : Prop where
  kept : found.kept ≤ width
  used : found.used = found.kept ∨ text[found.kept]? = some ' ' ∧ found.used = found.kept + 1

/-- Every break that a line allows fits it. -/
theorem Allowed.fits {width : Nat} {text : Text} {found : Break}
    (allowed : Allowed width text found.kept found.used) : Fits width text found := by
  refine ⟨allowed.kept_le, ?_⟩
  generalize found.kept = kept at allowed
  generalize found.used = used at allowed
  cases allowed with
  | space _ _ here => exact Or.inr ⟨here, rfl⟩
  | hyphen _ _ _ => exact Or.inl rfl
  | cut _ _ => exact Or.inl rfl

/-- Nothing but white space is lost at a break. -/
theorem Fits.ink {width : Nat} {text : Text} {found : Break} (fits : Fits width text found) :
    Text.ink (text.take found.kept) ++ Text.ink (text.drop found.used) = Text.ink text := by
  have behind : Text.ink (text.drop found.used) = Text.ink (text.drop found.kept) := by
    rcases fits.used with used | ⟨space, used⟩
    · rw [used]
    · obtain ⟨inside, here⟩ := List.getElem?_eq_some_iff.mp space
      rw [List.drop_eq_getElem_cons inside, here, used]
      rfl
  rw [behind, ← Text.ink_append, List.take_append_drop]

end Break

namespace Layout

/-! ### The physical lines of a line -/

theorem length_of_mem_wrapWithin {width : Nat} {wide : 0 < width} {line piece : Text}
    (member : piece ∈ wrapWithin width wide line) : piece.length ≤ width := by
  fun_induction wrapWithin width wide line with
  | case1 line long place inductionHypothesis =>
    rcases List.mem_cons.mp member with rfl | behind
    · exact (List.length_take_le _ _).trans (Break.allowed_ofLine wide long).kept_le
    · exact inductionHypothesis behind
  | case2 line short =>
    rw [List.mem_singleton.mp member]
    exact Nat.le_of_not_lt short

theorem infix_of_mem_wrapWithin {width : Nat} {wide : 0 < width} {line piece : Text}
    (member : piece ∈ wrapWithin width wide line) : piece <:+: line := by
  fun_induction wrapWithin width wide line with
  | case1 line long place inductionHypothesis =>
    rcases List.mem_cons.mp member with rfl | behind
    · exact (List.take_prefix _ _).isInfix
    · exact (inductionHypothesis behind).trans (List.drop_suffix _ _).isInfix
  | case2 line short =>
    obtain rfl := List.mem_singleton.mp member
    exact List.infix_rfl

theorem ink_wrapWithin (width : Nat) (wide : 0 < width) (line : Text) :
    (wrapWithin width wide line).flatMap Text.ink = Text.ink line := by
  fun_induction wrapWithin width wide line with
  | case1 line long place inductionHypothesis =>
    rw [List.flatMap_cons, inductionHypothesis]
    exact (Break.allowed_ofLine wide long).fits.ink
  | case2 line short => exact List.append_nil _

/-- No physical line is wider than the page. -/
theorem length_of_mem_wrap {width : Nat} {line piece : Text} (member : piece ∈ wrap width line) :
    piece.length ≤ max width 1 :=
  length_of_mem_wrapWithin member

/-- A physical line is an unbroken part of the line. -/
theorem infix_of_mem_wrap {width : Nat} {line piece : Text} (member : piece ∈ wrap width line) :
    piece <:+: line :=
  infix_of_mem_wrapWithin member

/-- The physical lines of a line hold all of it but white space. -/
theorem ink_wrap (width : Nat) (line : Text) :
    (wrap width line).flatMap Text.ink = Text.ink line :=
  ink_wrapWithin _ _ line

end Layout

end Manuscript
