/-
This file is about files that end early. The lines of a file are compiled one at a time,
and nothing is done for a line before it has been read, so a line that cannot be read
leaves no trace: what was written, what was reported and what the compiler has become are
as if the file had ended before it, but for the report on a block that is open at the end
of a file. And whatever part of a file comes first on the page is there already when only
that part has been compiled.
-/

import Mathlib.Tactic.Common
import Manuscript.Proofs.Compiler.Run
import Manuscript.Proofs.Text.Lines

namespace Manuscript

namespace Compiler

section Front

variable (compiler : Compiler) (source : Path) (lines : List (Option Text)) (count : Nat)

/-- What is written of the first lines of a file is written first. -/
theorem written_take_prefix :
    (compiler.compileLines source (lines.take count)).written <+:
      (compiler.compileLines source lines).written := by
  rw [written_compileLines, written_compileLines]
  obtain ⟨behind, whole⟩ := readable_take_prefix lines count
  rw [← whole, layOutAll_append]
  exact List.prefix_append _ _

variable {lines count}

/-- In front of a line that cannot be read, the compiler gets as far as with the whole file. -/
theorem compiler_take_of_unreadable (unreadable : lines[count]? = some none) :
    (compiler.compileLines source (lines.take count)).compiler =
      (compiler.compileLines source lines).compiler := by
  rw [compiler_compileLines, compiler_compileLines, readable_take_of_unreadable unreadable]

theorem written_take_of_unreadable (unreadable : lines[count]? = some none) :
    (compiler.compileLines source (lines.take count)).written =
      (compiler.compileLines source lines).written := by
  rw [written_compileLines, written_compileLines, readable_take_of_unreadable unreadable]

/-- Where the first line that cannot be read is taken away with all that follow it, the end of
the file is reported too. -/
theorem notices_take_of_unreadable (unreadable : lines[count]? = some none)
    (first : none ∉ lines.take count) :
    (compiler.compileLines source (lines.take count)).notices =
      (compiler.compileLines source lines).notices ++
        (compiler.compileLines source (lines.take count)).compiler.leave source := by
  have broken : none ∈ lines := List.mem_of_getElem? unreadable
  rw [notices_compileLines, notices_compileLines, if_neg first, if_pos broken, List.append_nil,
    readable_take_of_unreadable unreadable]

end Front

/-- A file is cut cleanly at the first of its lines that is not valid UTF-8. The compilation
fails and names the file; what it has written, what has become of the compiler, and what it
has reported are those of the lines in front of that line, only that the end of the file is
not reported on. And from any file the first lines write the beginning of what all of them
write. -/
theorem compileLines_cut (compiler : Compiler) (source : Path) (content : Bytes) (count : Nat) :
    let lines := Text.fileLines content
    let front := compiler.compileLines source (lines.take count)
    let whole := compiler.compileLines source lines
    (lines[count]? = some none → none ∉ lines.take count →
        whole.outcome = .error (.inputNotRead source) ∧
          front.outcome = .ok count ∧
          whole.written = front.written ∧
          whole.compiler = front.compiler ∧
          front.notices = whole.notices ++ front.compiler.leave source) ∧
      front.written <+: whole.written ∧
      Text.unlines front.written <+: Text.unlines whole.written := by
  intro lines front whole
  have begins : front.written <+: whole.written := written_take_prefix compiler source lines count
  refine ⟨fun unreadable first => ⟨?_, ?_, ?_, ?_, ?_⟩, begins, ?_⟩
  · rw [outcome_compileLines, if_pos (List.mem_of_getElem? unreadable)]
  · have inside : count < lines.length := (List.getElem?_eq_some_iff.mp unreadable).1
    rw [outcome_compileLines, if_neg first, List.length_take_of_le inside.le]
  · exact (written_take_of_unreadable compiler source unreadable).symm
  · exact (compiler_take_of_unreadable compiler source unreadable).symm
  · exact notices_take_of_unreadable compiler source unreadable first
  · obtain ⟨behind, written⟩ := begins
    rw [← written, Text.unlines_append]
    exact List.prefix_append _ _

/-- A file whose second line is not valid UTF-8, behind a first line that names a name that is
looked for and leaves a bracket open. -/
def brokenContent : Bytes :=
  Text.encode "Ann sat [still\n".toList ++ [0xFF, 0x0A] ++ Text.encode "and] read.\n".toList

/-- The file is compiled behind another one that has failed and left a comment open. -/
theorem compileLines_cut_behind_failure :
    let compiler := ((new .standard ⟨[], [], [], ["Ann".toList]⟩).compileLines (.ofString "one")
      [some "Chapter: One ###".toList, none]).compiler
    let source : Path := .ofString "two"
    let lines := Text.fileLines brokenContent
    let front := compiler.compileLines source (lines.take 1)
    let whole := compiler.compileLines source lines
    lines[1]? = some none ∧ none ∉ lines.take 1 ∧
      whole.outcome = .error (.inputNotRead source) ∧
      whole.written = front.written ∧
      whole.notices = [.invalidNames source 1 ["Ann".toList]] ∧
      front.notices = whole.notices ++ [.unterminated .bracket source] := by
  intro compiler source lines front whole
  have unreadable : lines[1]? = some none := by decide +kernel
  have first : none ∉ lines.take 1 := by decide +kernel
  have cut := (compileLines_cut compiler source brokenContent 1).1 unreadable first
  have open_ : front.compiler.leave source = [.unterminated .bracket source] := by decide +kernel
  refine ⟨unreadable, first, cut.1, cut.2.2.1, by decide +kernel, ?_⟩
  rw [← open_]
  exact cut.2.2.2.2

end Compiler

end Manuscript
