/-
This file says what can come of the files of an order. The compilation asks a tree only for
the lines of those files, so trees that answer alike are compiled alike. It ends early only at
a file that cannot be opened or holds a line that cannot be read, and it passes over a file
only if that file is missing.
-/

import Mathlib.Tactic.Common
import Manuscript.Project
import Manuscript.Proofs.Compiler.Run

namespace Manuscript

namespace Compiler

/-- Trees in which the files of an order hold the same lines are compiled alike. -/
theorem compileFiles_congr {first second : FileSystem} {root : Path} {order : List Path}
    (same : ∀ entry ∈ order,
      first.readLines (root.join entry) = second.readLines (root.join entry))
    (compiler : Compiler) (done : Nat) :
    compileFiles first root compiler done order = compileFiles second root compiler done order := by
  induction order generalizing compiler done with
  | nil => rfl
  | cons entry rest inductionHypothesis =>
    have further := inductionHypothesis fun other member =>
      same other (List.mem_cons_of_mem entry member)
    rw [compileFiles, compileFiles, same entry List.mem_cons_self]
    simp only [further]

/-! ### Files that are missing -/

theorem missingFile_not_mem_inspectAll (compiler : Compiler) (source path : Path) (number : Nat)
    (lines : List Text) : .missingFile path ∉ inspectAll source compiler number lines := by
  induction lines generalizing compiler number with
  | nil => exact List.not_mem_nil
  | cons raw rest inductionHypothesis =>
    rw [inspectAll, List.mem_append, not_or]
    refine ⟨?_, inductionHypothesis _ _⟩
    rw [inspect]
    split <;> simp

theorem missingFile_not_mem_compileLines (compiler : Compiler) (source path : Path)
    (lines : List (Option Text)) :
    .missingFile path ∉ (compiler.compileLines source lines).notices := by
  rw [notices_compileLines, List.mem_append, not_or]
  refine ⟨missingFile_not_mem_inspectAll _ _ _ _ _, ?_⟩
  split
  · exact List.not_mem_nil
  · rw [leave]
    split <;> simp

/-- Only files of the order that are missing are reported as missing. -/
theorem missing_of_mem_compileFiles {files : FileSystem} {root path : Path} {order : List Path}
    {compiler : Compiler} {done : Nat}
    (reported : .missingFile path ∈ (compileFiles files root compiler done order).notices) :
    ∃ entry ∈ order, path = root.join entry ∧ files.readLines path = .error .missing := by
  fun_induction compileFiles files root compiler done order with
  | case1 => cases reported
  | case2 compiler done entry rest joined missing inductionHypothesis =>
    rcases List.mem_cons.mp reported with here | later
    · have same : path = root.join entry := Notice.missingFile.inj here
      exact ⟨entry, List.mem_cons_self, same, same ▸ missing⟩
    · obtain ⟨other, member, found⟩ := inductionHypothesis later
      exact ⟨other, List.mem_cons_of_mem entry member, found⟩
  | case3 => cases reported
  | case4 compiler done entry rest joined lines =>
    exact absurd reported (missingFile_not_mem_compileLines compiler joined path lines)
  | case5 compiler done entry rest joined lines _ passage count _ inductionHypothesis =>
    rcases List.mem_append.mp reported with one | later
    · rcases List.mem_append.mp one with inside | counted
      · exact absurd inside (missingFile_not_mem_compileLines compiler joined path lines)
      · cases List.mem_singleton.mp counted
    · obtain ⟨other, member, found⟩ := inductionHypothesis later
      exact ⟨other, List.mem_cons_of_mem entry member, found⟩

/-! ### Files that cannot be read -/

/-- The compilation fails only at a file of the order that cannot be opened, or that holds a
line that cannot be read. -/
theorem unreadable_of_compileFiles {files : FileSystem} {root : Path} {order : List Path}
    {compiler : Compiler} {done : Nat} {failure : Failure}
    (fails : (compileFiles files root compiler done order).outcome = .error failure) :
    ∃ entry ∈ order, failure = .inputNotRead (root.join entry) ∧
      (files.readLines (root.join entry) = .error .refused ∨
        ∃ lines, files.readLines (root.join entry) = .ok lines ∧ none ∈ lines) := by
  fun_induction compileFiles files root compiler done order with
  | case1 => cases fails
  | case3 compiler done entry rest joined refused =>
    exact ⟨entry, List.mem_cons_self, (Except.error.inj fails).symm, Or.inl refused⟩
  | case4 compiler done entry rest joined lines opened =>
    rw [outcome_compileLines] at fails
    split at fails
    · rename_i unreadable
      exact ⟨entry, List.mem_cons_self, (Except.error.inj fails).symm,
        Or.inr ⟨lines, opened, unreadable⟩⟩
    · cases fails
  | case2 compiler done entry rest joined missing inductionHypothesis
  | case5 compiler done entry rest joined lines _ passage count _ inductionHypothesis =>
    obtain ⟨other, member, unreadable⟩ := inductionHypothesis fails
    exact ⟨other, List.mem_cons_of_mem entry member, unreadable⟩

/-- An order of files that can all be read is compiled to its end, and none is missing. -/
theorem compileFiles_of_readable {files : FileSystem} {root : Path} {order : List Path}
    (readable : ∀ entry ∈ order, ∃ lines,
      files.readLines (root.join entry) = .ok lines ∧ none ∉ lines)
    (compiler : Compiler) (done : Nat) :
    let passage := compileFiles files root compiler done order
    (∀ path, .missingFile path ∉ passage.notices) ∧ ∃ count, passage.outcome = .ok count := by
  intro passage
  constructor
  · intro path reported
    obtain ⟨entry, member, rfl, missing⟩ := missing_of_mem_compileFiles reported
    obtain ⟨lines, read, _⟩ := readable entry member
    rw [read] at missing
    cases missing
  · cases ended : passage.outcome with
    | ok count => exact ⟨count, rfl⟩
    | error failure =>
      obtain ⟨entry, member, _, unreadable⟩ := unreadable_of_compileFiles ended
      obtain ⟨lines, read, solid⟩ := readable entry member
      rcases unreadable with refused | ⟨others, opens, broken⟩
      · rw [read] at refused
        cases refused
      · rw [read] at opens
        cases opens
        exact absurd broken solid

end Compiler

end Manuscript
