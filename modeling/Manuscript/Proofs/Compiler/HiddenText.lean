/-
This file proves that hidden text never shows. The context follows the lines as they are
written, so what a comment or an aside holds does reach it: a hidden mark turns bold or
italic words on, and hidden white space opens a quote. But of a line as it is written
only two things have a part in the layout, whether it is blank and which tag is found in
it. With the words that are visible these are the face of the line, and two manuscripts
whose lines have the same faces become the same document, whatever else is hidden in
them and whatever their contexts make of it.
-/

import Manuscript.Proofs.Compiler.Division

namespace Manuscript

/-- What the layout gets to see of a line: the words that are visible, whether the line is
blank as it is written, and the tag that is found in it as it is written. -/
structure Face where
  words : Text
  blank : Bool
  tag : Option Tag
  deriving DecidableEq, Repr

/-- The face of a line, from the line as it is written and what is visible of it. -/
def Face.ofLine (raw visible : Text) : Face where
  words := Text.tidy visible
  blank := raw.isBlank
  tag := Tag.detect? raw

/-- The faces of lines, the first of which begins inside a block. -/
def facesFrom (block : Block) (lines : List Text) : List Face :=
  List.zipWith (fun raw stripped => Face.ofLine raw stripped.1) lines
    (Block.alongLines Block.strip block lines)

/-- The faces of the lines of a manuscript. -/
def faces (source : Text) : List Face :=
  facesFrom .visible (Text.lines source)

theorem facesFrom_cons (block : Block) (raw : Text) (rest : List Text) :
    facesFrom block (raw :: rest) =
      Face.ofLine raw (block.strip raw).1 :: facesFrom (block.strip raw).2 rest := rfl

/-! ### Lines with the same face -/

/-- The kind of a line is a part of its face. -/
theorem Context.classify_congr (previous : LineKind) {raw other : Text}
    (blank : raw.isBlank = other.isBlank) (tag : Tag.detect? raw = Tag.detect? other) :
    classify previous raw = classify previous other := by
  rw [classify_eq, classify_eq, blank, tag]

/-- Of what is visible only the words are laid out. -/
theorem Layout.linesOf_congr_words (options : Options) (context : Context) {visible other : Text}
    (words : Text.tidy visible = Text.tidy other) :
    linesOf options context visible = linesOf options context other := by
  rw [linesOf, linesOf, words]

namespace Compiler

section SameFace

variable {first second : Compiler} {raw other : Text}

theorem bearing_advance_of_face (bearing : first.context.bearing = second.context.bearing)
    (same : Face.ofLine raw (first.visible raw) = Face.ofLine other (second.visible other)) :
    (first.advance raw).context.bearing = (second.advance other).context.bearing := by
  have line : first.context.line = second.context.line := Context.line_eq_of_bearing_eq bearing
  have kind := Context.classify_congr first.context.line (congrArg Face.blank same)
    (congrArg Face.tag same)
  show (first.context.advance raw).bearing = (second.context.advance other).bearing
  rw [Context.bearing_advance, Context.bearing_advance, bearing, kind, line]

theorem layOut_eq_of_face (options : first.options = second.options)
    (bearing : first.context.bearing = second.context.bearing)
    (same : Face.ofLine raw (first.visible raw) = Face.ofLine other (second.visible other)) :
    first.layOut raw = second.layOut other := by
  have words : Text.tidy (first.visible raw) = Text.tidy (second.visible other) :=
    congrArg Face.words same
  have previous : (first.context.advance raw).previous = (second.context.advance other).previous :=
    Context.line_eq_of_bearing_eq bearing
  rw [layOut, layOut, options, Layout.linesOf_congr_words _ _ words]
  exact Layout.linesOf_congr _ _ (bearing_advance_of_face bearing same) previous

end SameFace

/-- Lines with the same faces are laid out the same. The blocks that are open may differ all
along, and so may everything in the contexts that is not a part of their bearings. -/
theorem layOutAll_eq_of_faces {first second : Compiler} (options : first.options = second.options)
    (bearing : first.context.bearing = second.context.bearing) (lines others : List Text)
    (same : facesFrom first.block lines = facesFrom second.block others) :
    first.layOutAll lines = second.layOutAll others := by
  induction lines generalizing first second others with
  | nil =>
    cases others with
    | nil => rfl
    | cons other further => cases same
  | cons raw rest inductionHypothesis =>
    cases others with
    | nil => cases same
    | cons other further =>
      rw [facesFrom_cons, facesFrom_cons] at same
      obtain ⟨here, behind⟩ := List.cons_eq_cons.mp same
      have moved : (first.advance raw).context.bearing = (second.advance other).context.bearing :=
        bearing_advance_of_face bearing here
      have kept : (first.advance raw).options = (second.advance other).options := options
      rw [layOutAll, layOutAll, layOut_eq_of_face options bearing here,
        inductionHypothesis kept moved further behind]

/-- The compiler with other emphasis and other open quotes. -/
def withMarks (compiler : Compiler) (bold italics : Bool) (quotes : Quotes) : Compiler :=
  { compiler with
    context := { compiler.context with bold := bold, italics := italics, quotes := quotes } }

end Compiler

/-- Hidden text never shows. Manuscripts whose lines have the same faces become the same
document; and wherever a manuscript has got to, emphasis and open quotes make no
difference to what is written of the lines to come. -/
theorem compiled_eq_of_faces (options : Options) (first second : Text)
    (same : faces first = faces second) :
    compiled options first = compiled options second ∧
      ∀ (compiler : Compiler) (bold italics : Bool) (quotes : Quotes) (lines : List Text),
        (compiler.withMarks bold italics quotes).layOutAll lines = compiler.layOutAll lines := by
  refine ⟨?_, fun compiler bold italics quotes lines => ?_⟩
  · rw [compiled, compiled, written_compileText, written_compileText]
    exact congrArg Text.unlines (Compiler.layOutAll_eq_of_faces rfl rfl _ _ same)
  · have options : (compiler.withMarks bold italics quotes).options = compiler.options := rfl
    exact Compiler.layOutAll_eq_of_faces options rfl lines lines rfl

/-- Two manuscripts that differ in an indent, in a hidden line and in the marks it holds, and
that end with different emphasis and different quotes. -/
theorem compiled_eq_of_faces_of_hidden_marks :
    compiled .standard "  Ink\nruns [*__\nChapter: Two\n] on\n".toList =
        compiled .standard "Ink\nruns ###\nChapter: One\n### on\n".toList ∧
      (compileText .standard "  Ink\nruns [*__\nChapter: Two\n] on\n".toList).compiler.context ≠
        (compileText .standard "Ink\nruns ###\nChapter: One\n### on\n".toList).compiler.context :=
  ⟨(compiled_eq_of_faces .standard _ _ (by decide +kernel)).1, by decide +kernel⟩

end Manuscript
