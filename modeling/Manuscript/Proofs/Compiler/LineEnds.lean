/-
This file proves that white space at the end of a line never shows, and with it that it
does not matter how the lines of a manuscript are ended. Such white space goes all the way
a line goes: it is stripped with the line, it stands behind the words, and the line it ends
may be blank or declare a tag. None of this changes the face of the line, nor the block that
is open behind it, so the document is the same.
-/

import Manuscript.Proofs.Aside.Ending
import Manuscript.Proofs.Compiler.HiddenText

namespace Manuscript

/-! ### Faces of lines that differ at their ends -/

/-- White space at the end of a line is no part of its face. -/
theorem Face.ofLine_congr_of_trimEnd (block : Block) {raw other : Text}
    (same : Text.trimEnd raw = Text.trimEnd other) :
    Face.ofLine raw (block.strip raw).1 = Face.ofLine other (block.strip other).1 := by
  have words : Text.tidy (block.strip raw).1 = Text.tidy (block.strip other).1 :=
    Text.congr_of_trimEnd Text.tidy Text.tidy_append_of_isBlank
      (block.strip_congr_of_trimEnd same).1
  have blank : raw.isBlank = other.isBlank :=
    Text.congr_of_trimEnd Text.isBlank Text.isBlank_append_of_isBlank same
  have tag : Tag.detect? raw = Tag.detect? other :=
    Text.congr_of_trimEnd Tag.detect? Tag.detect?_append_of_isBlank same
  rw [Face.ofLine, Face.ofLine, words, blank, tag]

theorem facesFrom_congr_of_trimEnd (block : Block) {lines others : List Text}
    (same : lines.map Text.trimEnd = others.map Text.trimEnd) :
    facesFrom block lines = facesFrom block others := by
  induction lines generalizing block others with
  | nil => rw [List.map_eq_nil_iff.mp same.symm]
  | cons raw rest inductionHypothesis =>
    cases others with
    | nil => cases same
    | cons other further =>
      obtain ⟨here, behind⟩ := List.cons_eq_cons.mp same
      rw [facesFrom_cons, facesFrom_cons, Face.ofLine_congr_of_trimEnd block here,
        (block.strip_congr_of_trimEnd here).2, inductionHypothesis _ behind]

/-- Lines that differ only in the white space at their ends are laid out the same. -/
theorem Compiler.layOutAll_congr_of_trimEnd (compiler : Compiler) {lines others : List Text}
    (same : lines.map Text.trimEnd = others.map Text.trimEnd) :
    compiler.layOutAll lines = compiler.layOutAll others :=
  layOutAll_eq_of_faces rfl rfl lines others (facesFrom_congr_of_trimEnd compiler.block same)

/-! ### The ends of lines in a manuscript -/

/-- White space at the ends of lines never shows, and carriage returns in front of the line
feeds are such white space, whether some of the lines had one already or not. -/
theorem compiled_eq_of_sameButForEnds (options : Options) (source : Text) :
    (∀ other : Text, Text.SameButForEnds source other →
        compiled options other = compiled options source) ∧
      compiled options (Text.withCarriages source) = compiled options source := by
  have alike (other : Text) (same : Text.SameButForEnds source other) :
      compiled options other = compiled options source := by
    rw [compiled, compiled, written_compileText, written_compileText,
      Compiler.layOutAll_congr_of_trimEnd _ same.map_trimEnd_lines]
  exact ⟨alike, alike _ (Text.sameButForEnds_withCarriages source)⟩

/-- White space behind a lone backslash, on an empty line, in an open bracket, in front of a
carriage return and at the end of a line that is not ended. -/
theorem compiled_eq_of_sameButForEnds_in_bracket :
    compiled .standard ("A bell\\ \r".toList ++ '\n' :: ("\t".toList ++ '\n' ::
        ("rang [low\u2003\r".toList ++ '\n' :: "Chapter:] on.\u2028 ".toList))) =
      compiled .standard ("A bell\\".toList ++ '\n' :: ([] ++ '\n' ::
        ("rang [low\r".toList ++ '\n' :: "Chapter:] on.".toList))) := by
  refine (compiled_eq_of_sameButForEnds .standard _).1 _ ?_
  refine .line (by decide) (by decide) (by decide) (.line (by decide) (by decide) (by decide) ?_)
  refine .line (by decide) (by decide) (by decide) ?_
  exact .last (by decide) (by decide) (by decide) (by decide) (by decide)

end Manuscript
