/-
This file proves that a manuscript can be divided in front of a tag. What the lines
before the division leave behind, such as an old scope, a watch for a first paragraph or
open quotes, could show in the lines that follow. It does not where the division is a
break: no block is open there and the line before it is not prose. Blank lines leave
nothing on the page at a break and lead to another break. The first tag is laid out by
the tag alone and sets the bearing afresh, and from then on two compilers that came
there from different beginnings write alike.
-/

import Mathlib.Tactic.Common
import Manuscript.Proofs.Compiler.Run
import Manuscript.Proofs.Text.Lines

namespace Manuscript

/-- Whether the first line that is not blank, if there is one, declares a tag other than an
author. -/
def opensWithTag : List Text → Bool
  | [] => true
  | raw :: rest =>
    if raw.isBlank then opensWithTag rest
    else
      match Tag.detect? raw with
      | some tag => tag ≠ .author
      | none => false

theorem Tag.opensParagraph_of_ne_author {tag : Tag} (other : tag ≠ .author) :
    tag.opensParagraph = true := by
  cases tag with
  | author => exact absurd rfl other
  | chapter | sectionTag | title | sectionBreak => rfl

namespace Compiler

/-! ### Breaks -/

/-- Where lines can be divided: nothing is hidden, and a tag would count. -/
structure AtBreak (compiler : Compiler) : Prop where
  block : compiler.block = .visible
  line : compiler.context.line ≠ .prose

/-- The beginning of a file is a break, whatever came before it. -/
theorem atBreak_begin (compiler : Compiler) : AtBreak compiler.begin where
  block := rfl
  line := by
    unfold begin
    split <;> exact LineKind.noConfusion

/-- Behind a blank line a break is still a break. -/
theorem AtBreak.advance_blank {compiler : Compiler} (atBreak : AtBreak compiler) {raw : Text}
    (blank : raw.isBlank = true) : AtBreak (compiler.advance raw) where
  block := (compiler.block.snd_strip_of_isBlank blank).trans atBreak.block
  line := by
    show Context.classify compiler.context.line raw ≠ .prose
    rw [Context.classify_of_isBlank _ blank]
    exact LineKind.noConfusion

/-- At a break a blank line leaves nothing on the page. -/
theorem AtBreak.layOut_blank {compiler : Compiler} (atBreak : AtBreak compiler) {raw : Text}
    (blank : raw.isBlank = true) : compiler.layOut raw = [] :=
  Layout.linesOf_blank _ _ _ atBreak.line blank

/-! ### The first tag behind a break -/

section FirstTag

variable {first second : Compiler} {raw : Text} {tag : Tag}

/-- At two breaks the same tag is laid out the same way. -/
theorem AtBreak.layOut_tag (options : first.options = second.options) (one : AtBreak first)
    (other : AtBreak second) (solid : raw.isBlank = false) (found : Tag.detect? raw = some tag) :
    first.layOut raw = second.layOut raw := by
  have kind {compiler : Compiler} (atBreak : AtBreak compiler) :
      (compiler.context.advance raw).line = .tagged tag :=
    Context.classify_of_detect? atBreak.line solid found
  rw [layOut, layOut, visible, visible, options, one.block, other.block]
  exact Layout.linesOf_tagged _ _ (kind one) (kind other)

/-- Behind the same tag, compilers that were at breaks write alike. -/
theorem AtBreak.alike_after_tag (options : first.options = second.options) (one : AtBreak first)
    (other : AtBreak second) (solid : raw.isBlank = false) (found : Tag.detect? raw = some tag)
    (opens : tag.opensParagraph = true) : Alike (first.advance raw) (second.advance raw) where
  options := options
  block := by
    show (first.block.strip raw).2 = (second.block.strip raw).2
    rw [one.block, other.block]
  bearing := by
    have kind {compiler : Compiler} (atBreak : AtBreak compiler) :
        Context.classify compiler.context.line raw = .tagged tag :=
      Context.classify_of_detect? atBreak.line solid found
    show (first.context.advance raw).bearing = (second.context.advance raw).bearing
    rw [Context.bearing_advance, Context.bearing_advance, kind one, kind other]
    exact Context.bearing_after_tag _ _ opens

end FirstTag

/-- Lines that open with a tag come out the same from every break. -/
theorem layOutAll_eq_of_opensWithTag {first second : Compiler}
    (options : first.options = second.options) (one : AtBreak first) (other : AtBreak second)
    (lines : List Text) (tagged : opensWithTag lines = true) :
    first.layOutAll lines = second.layOutAll lines := by
  induction lines generalizing first second with
  | nil => rfl
  | cons raw rest inductionHypothesis =>
    rw [opensWithTag] at tagged
    rw [layOutAll, layOutAll]
    split at tagged
    · rename_i blank
      have further : (first.advance raw).options = (second.advance raw).options := options
      rw [one.layOut_blank blank, other.layOut_blank blank,
        inductionHypothesis further (one.advance_blank blank) (other.advance_blank blank) tagged]
    · rename_i ink
      have solid : raw.isBlank = false := Bool.eq_false_iff.mpr ink
      split at tagged
      · rename_i tag found
        have opens : tag.opensParagraph = true :=
          Tag.opensParagraph_of_ne_author (of_decide_eq_true tagged)
        rw [AtBreak.layOut_tag options one other solid found,
          (AtBreak.alike_after_tag options one other solid found opens).layOutAll_eq]
      · cases tagged

end Compiler

/-! ### Dividing a manuscript -/

/-- What a manuscript that is at hand as a text becomes. -/
def compiled (options : Options) (source : Text) : Text :=
  Text.unlines (compileText options source).written

/-- The physical lines of a manuscript, from the lines it is written in. -/
theorem written_compileText (options : Options) (source : Text) :
    (compileText options source).written =
      (Compiler.new options .none).begin.layOutAll (Text.lines source) := by
  rw [compileText, Compiler.written_compileLines, readable_map_some]

/-- The compiler at the end of a manuscript. -/
theorem compiler_compileText (options : Options) (source : Text) :
    (compileText options source).compiler =
      (Compiler.new options .none).begin.advanceAll (Text.lines source) := by
  rw [compileText, Compiler.compiler_compileLines, readable_map_some]

/-- A manuscript can be divided in front of a tag. Where the first part ends its last line,
closes its blocks and ends in a blank line or a tag, and the second part opens with a tag
other than an author, the whole comes out as the two parts do one after the other. -/
theorem compiled_append (options : Options) (first second : Text)
    (whole : first = [] ∨ first.getLast? = some '\n')
    (closed : (compileText options first).compiler.block = .visible)
    (apart : (compileText options first).compiler.context.line ≠ .prose)
    (tagged : opensWithTag (Text.lines second) = true) :
    compiled options (first ++ second) = compiled options first ++ compiled options second := by
  rw [compiler_compileText] at closed apart
  have fromBreak :
      ((Compiler.new options .none).begin.advanceAll (Text.lines first)).layOutAll
          (Text.lines second) =
        (Compiler.new options .none).begin.layOutAll (Text.lines second) :=
    Compiler.layOutAll_eq_of_opensWithTag (Compiler.options_advanceAll _ _) ⟨closed, apart⟩
      (Compiler.atBreak_begin _) _ tagged
  rw [compiled, compiled, compiled, written_compileText, written_compileText, written_compileText,
    Text.lines_append second whole, Compiler.layOutAll_append, fromBreak, Text.unlines_append]

/-- A division behind a chapter that leaves its scope and an open quote behind. -/
theorem compiled_append_behind_quote :
    compiled .standard
        ("Chapter: One\n\n    A bell\n\n".toList ++ " \nSection: Two\nrang.\n".toList) =
      compiled .standard "Chapter: One\n\n    A bell\n\n".toList ++
        compiled .standard " \nSection: Two\nrang.\n".toList :=
  compiled_append .standard _ _ (Or.inr (by decide)) (by decide +kernel) (by decide +kernel)
    (by decide +kernel)

end Manuscript
