/-
This file is about white space at the end of a line that is stripped. It may stand behind
a backslash, at the end of a run of hashes or within a block, but it can neither escape
nor lengthen a mark, nor is it one. So the live marks of the line are those it has without
that white space, the same block is open behind it, and what is kept of it is the same
but for white space at its end.
-/

import Manuscript.Proofs.Aside.Reading
import Manuscript.Proofs.Text.Space

namespace Manuscript

namespace Mark

/-! ### White space behind a line -/

section BlankTail

variable (line : Text) {tail : Text} (blank : tail.isBlank = true)

include blank

theorem at?_behind_of_isBlank (place : Nat) : at? (line ++ tail) (line.length + place) = none := by
  have space : ∀ character, (line ++ tail)[line.length + place]? = some character →
      isSpace character = true := by
    intro character here
    rw [Text.getElem?_append_length] at here
    exact (Text.isBlank_iff tail).mp blank character (List.mem_of_getElem? here)
  refine at?_eq_none _ _ ?_ ?_ ?_ <;> exact fun here => absurd (space _ here) (by decide)

/-- White space behind a line neither is a mark nor changes one. -/
theorem ofLine_append_of_isBlank : ofLine (line ++ tail) = ofLine line := by
  have apart : tail.head? ≠ some '#' := fun hash =>
    absurd ((Text.isBlank_iff tail).mp blank '#' (List.mem_of_head? hash)) (by decide)
  have behind : ((List.range tail.length).map (line.length + ·)).filterMap (fun place =>
      (at? (line ++ tail) place).map fun mark => (place, mark)) = [] := by
    rw [List.filterMap_map]
    refine List.filterMap_eq_nil_iff.mpr fun place _ => ?_
    rw [Function.comp_apply, at?_behind_of_isBlank line blank place]
    rfl
  rw [ofLine, List.length_append, List.range_add, List.filterMap_append, behind, List.append_nil,
    ofLine]
  refine List.filterMap_congr fun place member => ?_
  have inside := List.mem_range.mp member
  rw [at?_append_left inside (Text.runFrom_append_of_head?_ne line inside.le apart)]

end BlankTail

end Mark

namespace Block

/-- White space behind a line adds nothing but white space to what is kept, and changes nothing
about the block, as long as the marks are in front of it. -/
theorem readMarks_append_of_isBlank (line : Text) {tail : Text} (blank : tail.isBlank = true)
    (block : Block) (place : Nat) (marks : List (Nat × Mark))
    (inside : ∀ entry ∈ marks, entry.1 < line.length) :
    let longer := block.readMarks (line ++ tail) place marks
    let reading := block.readMarks line place marks
    Text.trimEnd longer.1 = Text.trimEnd reading.1 ∧ longer.2 = reading.2 := by
  induction marks generalizing block place with
  | nil =>
    cases block with
    | visible =>
      have blankEnd : Text.isBlank (tail.drop (place - line.length)) = true :=
        Text.isBlank_of_sublist (List.drop_sublist _ _) blank
      simp only [readMarks, List.drop_append, Text.trimEnd_append_of_isBlank _ blankEnd, and_self]
    | comment | bracket => exact ⟨rfl, rfl⟩
  | cons entry marks inductionHypothesis =>
    obtain ⟨found, mark⟩ := entry
    have further (block : Block) (place : Nat) := inductionHypothesis block place fun other member =>
      inside other (List.mem_cons_of_mem _ member)
    have front : ((line ++ tail).drop place).take (found - place) =
        (line.drop place).take (found - place) := by
      have within : found < line.length := inside (found, mark) List.mem_cons_self
      rw [List.drop_append, List.take_append_of_le_length]
      rw [List.length_drop]
      omega
    cases block with
    | visible =>
      cases mark with
      | blockMark | openBracket =>
        simp only [readMarks, front]
        exact ⟨Text.trimEnd_append_congr _ (further _ _).1, (further _ _).2⟩
      | lineMark => simp only [readMarks, front, and_self]
      | closeBracket => exact further .visible place
    | comment => cases mark <;> exact further _ _
    | bracket => cases mark <;> exact further _ _

theorem strip_append_of_isBlank (block : Block) (line : Text) {tail : Text}
    (blank : tail.isBlank = true) :
    Text.trimEnd (block.strip (line ++ tail)).1 = Text.trimEnd (block.strip line).1 ∧
      (block.strip (line ++ tail)).2 = (block.strip line).2 := by
  simp only [strip_eq_stripByMarks, stripByMarks, Mark.ofLine_append_of_isBlank line blank]
  exact readMarks_append_of_isBlank line blank block 0 _ fun _ => Mark.lt_of_mem_ofLine

/-- Of lines that differ only in the white space at their ends the same is kept, but for white
space at its end, and the same block is open behind them. -/
theorem strip_congr_of_trimEnd (block : Block) {line other : Text}
    (same : Text.trimEnd line = Text.trimEnd other) :
    Text.trimEnd (block.strip line).1 = Text.trimEnd (block.strip other).1 ∧
      (block.strip line).2 = (block.strip other).2 :=
  ⟨Text.congr_of_trimEnd (fun line => Text.trimEnd (block.strip line).1)
      (fun line _ blank => (strip_append_of_isBlank block line blank).1) same,
    Text.congr_of_trimEnd (fun line => (block.strip line).2)
      (fun line _ blank => (strip_append_of_isBlank block line blank).2) same⟩

end Block

end Manuscript
