/-
This file is about lines that leave no trace. Nothing is written for such a line, the block
that is open is the same behind it, and the bearing has changed in one thing at most: if
the line before it has opened a first paragraph, that is over. It is over at the next line
anyway, whatever that line is, so the two runs with and without the line come together
there, and all that follows is laid out the same.

Two kinds of lines leave no trace. One is a blank line where the line before it is blank
already or where the file begins. The other is a line of a paragraph, behind another one,
that is hidden from its beginning to its end: it counts as prose and may turn bold and
italic words on or off, but nothing is laid out by that.
-/

import Manuscript.Proofs.Compiler.LineEnds
import Manuscript.Proofs.Context.FirstParagraph

namespace Manuscript

/-! ### When a first paragraph is over -/

theorem Opening.after_settle (opening : Opening) (line : LineKind) :
    opening.settle.after line = opening.after line := by
  cases opening <;> cases line <;> rfl

/-- The bearing when the present line opens a first paragraph no longer. -/
def Bearing.settled (bearing : Bearing) : Bearing :=
  { bearing with opening := bearing.opening.settle }

/-- At the next line it makes no difference. -/
theorem Bearing.after_settled (bearing : Bearing) (line : LineKind) :
    bearing.settled.after line = bearing.after line := by
  simp only [after, settled, Opening.after_settle]

/-- A line of the same kind again, if it declares no tag, does no more than that. -/
theorem Bearing.after_eq_settled {bearing : Bearing} {line : LineKind} (same : bearing.line = line)
    (untagged : line.isTagged = false)
    (opening : bearing.opening.after line = bearing.opening.settle) :
    bearing.after line = bearing.settled := by
  cases line with
  | tagged tag => cases untagged
  | blank | prose => simp only [after, settled, opening, same]

namespace Compiler

/-! ### Leaving a line out -/

/-- A line that the compiler could do without. -/
structure Traceless (compiler : Compiler) (raw : Text) : Prop where
  unwritten : compiler.layOut raw = []
  block : (compiler.advance raw).block = compiler.block
  bearing : (compiler.advance raw).context.bearing = compiler.context.bearing.settled

section LeavingOut

variable {compiler : Compiler} {raw : Text}

theorem Traceless.line (traceless : Traceless compiler raw) :
    (compiler.advance raw).context.line = compiler.context.line :=
  congrArg Bearing.line traceless.bearing

theorem Traceless.bearing_advance (traceless : Traceless compiler raw) (next : Text) :
    ((compiler.advance raw).context.advance next).bearing =
      (compiler.context.advance next).bearing := by
  rw [Context.bearing_advance, Context.bearing_advance, traceless.bearing, traceless.line,
    Bearing.after_settled]

/-- The next line is laid out as if the line were not there. -/
theorem Traceless.layOut_eq (traceless : Traceless compiler raw) (next : Text) :
    (compiler.advance raw).layOut next = compiler.layOut next := by
  have options : (compiler.advance raw).options = compiler.options := rfl
  rw [layOut, layOut, visible, visible, options, traceless.block]
  exact Layout.linesOf_congr _ _ (traceless.bearing_advance next) traceless.line

/-- Behind the next line the compiler writes as if the line had not been there. -/
theorem Traceless.alike (traceless : Traceless compiler raw) (next : Text) :
    Alike ((compiler.advance raw).advance next) (compiler.advance next) where
  options := rfl
  block := congrArg (fun block => (Block.strip block next).2) traceless.block
  bearing := traceless.bearing_advance next

theorem Traceless.layOutAll_cons (traceless : Traceless compiler raw) (lines : List Text) :
    compiler.layOutAll (raw :: lines) = compiler.layOutAll lines := by
  rw [layOutAll, traceless.unwritten, List.nil_append]
  cases lines with
  | nil => rfl
  | cons next rest =>
    rw [layOutAll, layOutAll, traceless.layOut_eq, (traceless.alike next).layOutAll_eq]

/-- A line that leaves no trace where it stands can be left out. -/
theorem layOutAll_insert (before after : List Text)
    (traceless : Traceless (compiler.advanceAll before) raw) :
    compiler.layOutAll (before ++ raw :: after) = compiler.layOutAll (before ++ after) := by
  rw [layOutAll_append, traceless.layOutAll_cons, ← layOutAll_append]

end LeavingOut

theorem advanceAll_concat (compiler : Compiler) (lines : List Text) (raw : Text) :
    compiler.advanceAll (lines ++ [raw]) = (compiler.advanceAll lines).advance raw :=
  List.foldl_concat ..

end Compiler

/-- A line that leaves no trace can be put into a manuscript. White space at the ends of the
lines may change with that. -/
theorem compiled_insert (options : Options) {source longer raw : Text} {before after : List Text}
    (lines : Text.lines source = before ++ after)
    (inserted :
      (Text.lines longer).map Text.trimEnd = (before ++ raw :: after).map Text.trimEnd)
    (traceless :
      Compiler.Traceless ((Compiler.new options .none).begin.advanceAll before) raw) :
    compiled options longer = compiled options source := by
  rw [compiled, compiled, written_compileText, written_compileText, lines,
    Compiler.layOutAll_congr_of_trimEnd _ inserted,
    Compiler.layOutAll_insert before after traceless]

/-! ### Blank lines behind blank lines -/

/-- Whether lines end with a blank one, or there are none at all. -/
def endsBlank (lines : List (Option Text)) : Bool :=
  lines.getLast?.all fun line => line.any Text.isBlank

namespace Compiler

theorem line_of_endsBlank (compiler : Compiler) {lines : List Text}
    (place : endsBlank (lines.map some) = true) :
    (compiler.begin.advanceAll lines).context.line = .blank := by
  cases lines using List.reverseRecOn with
  | nil =>
    show compiler.begin.context.line = .blank
    unfold begin
    split <;> rfl
  | append_singleton lines raw =>
    have blank : raw.isBlank = true := by simpa [endsBlank] using place
    rw [advanceAll_concat]
    exact Context.classify_of_isBlank _ blank

/-- A blank line behind another one leaves no trace, whatever block is open. -/
theorem traceless_of_isBlank {compiler : Compiler} {raw : Text}
    (line : compiler.context.line = .blank) (blank : raw.isBlank = true) :
    Traceless compiler raw := by
  refine ⟨?_, compiler.block.snd_strip_of_isBlank blank, ?_⟩
  · have apart : compiler.context.line ≠ .prose := by
      rw [line]
      exact LineKind.noConfusion
    exact Layout.linesOf_blank _ _ _ apart blank
  · show (compiler.context.advance raw).bearing = compiler.context.bearing.settled
    rw [Context.bearing_advance, Context.classify_of_isBlank _ blank]
    exact Bearing.after_eq_settled line rfl rfl

end Compiler

/-- Runs of blank lines count once. A blank line behind a blank line or at the beginning of a
file can be put in or taken out without changing what is written for the file, whether it is
the first one or a later one and whatever else has come before it. -/
theorem written_insert_blank (blank : Text) (empty : blank.isBlank = true) :
    (∀ (compiler : Compiler) (path : Path) (before after : List (Option Text)),
      endsBlank before = true →
        (compiler.compileLines path (before ++ some blank :: after)).written =
          (compiler.compileLines path (before ++ after)).written) ∧
      ∀ (options : Options) (source longer : Text) (before after : List Text),
        endsBlank (before.map some) = true → Text.lines source = before ++ after →
          (Text.lines longer).map Text.trimEnd = (before ++ blank :: after).map Text.trimEnd →
            compiled options longer = compiled options source := by
  have traceless (compiler : Compiler) {before : List Text}
      (place : endsBlank (before.map some) = true) :
      Compiler.Traceless (compiler.begin.advanceAll before) blank :=
    Compiler.traceless_of_isBlank (compiler.line_of_endsBlank place) empty
  refine ⟨fun compiler path before after place => ?_,
    fun options source longer before after place lines inserted =>
      compiled_insert options lines inserted (traceless _ place)⟩
  rw [Compiler.written_compileLines, Compiler.written_compileLines]
  by_cases broken : none ∈ before
  · rw [readable_append_of_unreadable broken, readable_append_of_unreadable broken]
  · rw [← map_some_readable broken] at place ⊢
    rw [readable_map_some_append, readable_map_some_append, readable]
    exact Compiler.layOutAll_insert _ _ (traceless compiler place)

/-- A blank line in a comment of a later file where blank lines are kept, and one at the very
beginning of a document. -/
theorem written_insert_blank_in_comment :
    let options : Options := { Options.standard with removeBlankLines := false }
    let compiler := (Compiler.new options .none).begin
    let before := [some "Rain. ###".toList, some "\t".toList]
    let after := [some "*low".toList, some "### Wind.".toList]
    (compiler.compileLines unnamedSource (before ++ some "\t".toList :: after)).written =
        (compiler.compileLines unnamedSource (before ++ after)).written ∧
      compiled options "\t\n\nRain.".toList = compiled options "\nRain.".toList := by
  intro options compiler before after
  obtain ⟨inFile, inText⟩ := written_insert_blank "\t".toList (by decide)
  exact ⟨inFile compiler unnamedSource before after (by decide),
    inText options _ _ [] [[], "Rain.".toList] (by decide) (by decide +kernel) (by decide +kernel)⟩

/-! ### Hidden lines in a paragraph -/

namespace Compiler

/-- The watch for a first paragraph does not outlast prose. -/
theorem opening_ne_armed_of_prose (compiler : Compiler) (lines : List Text)
    (prose : (compiler.begin.advanceAll lines).context.line = .prose) :
    (compiler.begin.advanceAll lines).context.opening ≠ .armed := by
  cases lines using List.reverseRecOn with
  | nil => exact absurd prose (atBreak_begin compiler).line
  | append_singleton lines raw =>
    intro armed
    rw [advanceAll_concat] at prose armed
    rcases (Opening.after_eq_armed_iff _ _).mp armed with ⟨_, other⟩ | ⟨tag, same, _⟩
    · exact other prose
    · cases prose.symm.trans same

/-- A line behind prose of which nothing is visible leaves no trace if it leaves the block as it
was. -/
theorem traceless_of_hidden {compiler : Compiler} {hidden : Text}
    (prose : compiler.context.line = .prose) (answered : compiler.context.opening ≠ .armed)
    (solid : hidden.isBlank = false) (unseen : (compiler.visible hidden).isBlank = true)
    (kept : (compiler.advance hidden).block = compiler.block) : Traceless compiler hidden := by
  have kind : Context.classify compiler.context.line hidden = .prose := by
    rw [Context.classify_eq, if_neg (Bool.eq_false_iff.mp solid), if_pos prose]
  refine ⟨?_, kept, ?_⟩
  · have line : (compiler.context.advance hidden).line ≠ .blank := by
      rw [Context.line_advance, kind]
      exact LineKind.noConfusion
    exact Layout.linesOf_of_isBlank _ _ line unseen
  · have settles : compiler.context.opening.after .prose = compiler.context.opening.settle := by
      cases opening : compiler.context.opening with
      | armed => exact absurd opening answered
      | idle | current => rfl
    show (compiler.context.advance hidden).bearing = compiler.context.bearing.settled
    rw [Context.bearing_advance, kind]
    exact Bearing.after_eq_settled prose rfl settles

end Compiler

/-- A hidden line inside a paragraph is invisible. Behind a line of prose, a line of which
nothing is visible and that leaves the block as it was, whatever tags and marks are hidden in
it, can be put into a manuscript without changing the document. -/
theorem compiled_insert_hidden (options : Options) (source longer hidden : Text)
    (before after : List Text) (lines : Text.lines source = before ++ after)
    (inserted :
      (Text.lines longer).map Text.trimEnd = (before ++ hidden :: after).map Text.trimEnd) :
    let here := (Compiler.new options .none).begin.advanceAll before
    here.context.line = .prose → hidden.isBlank = false → (here.visible hidden).isBlank = true →
      (here.advance hidden).block = here.block → compiled options longer = compiled options source := by
  intro here prose solid unseen kept
  have answered : here.context.opening ≠ .armed :=
    (Compiler.new options .none).opening_ne_armed_of_prose before prose
  exact compiled_insert options lines inserted
    (Compiler.traceless_of_hidden prose answered solid unseen kept)

/-- A line in a bracket that the first line of a paragraph has opened. The line holds a tag and
marks, and the marks are still open when the manuscript ends. -/
theorem compiled_insert_hidden_in_bracket :
    let source := "Chapter: One\nA bell [low\nand] rang.\n".toList
    let longer := "Chapter: One\nA bell [low\nTitle: *__ ###\nand] rang.\n".toList
    compiled .standard longer = compiled .standard source ∧
      (compileText .standard longer).compiler.context ≠
        (compileText .standard source).compiler.context :=
  ⟨compiled_insert_hidden .standard _ _ "Title: *__ ###".toList
    ["Chapter: One".toList, "A bell [low".toList] ["and] rang.".toList]
    (by decide +kernel) (by decide +kernel) (by decide +kernel) (by decide +kernel)
    (by decide +kernel) (by decide +kernel), by decide +kernel⟩

end Manuscript
