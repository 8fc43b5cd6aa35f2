/-
This file says what compiling the lines of a file comes to. The lines that can be read are
laid out one after another, each by the compiler as the lines before it have left it; the
first line that cannot be read ends the file with a failure. Everything a passage holds
follows from that, and of the compiler only the options, the open block and the bearing
of the context have a part in what is written.
-/

import Manuscript.Compiler
import Manuscript.Proofs.Aside.Reading
import Manuscript.Proofs.Context.Bearing

namespace Manuscript

/-- The lines in front of the first one that cannot be read. -/
def readable : List (Option Text) → List Text
  | some raw :: rest => raw :: readable rest
  | _ => []

theorem readable_map_some (lines : List Text) : readable (lines.map some) = lines := by
  induction lines with
  | nil => rfl
  | cons raw rest inductionHypothesis =>
    rw [List.map_cons, readable, inductionHypothesis]

/-- Where a line cannot be read, nothing that follows is read. -/
theorem readable_append_of_unreadable {first : List (Option Text)} (unreadable : none ∈ first)
    (second : List (Option Text)) : readable (first ++ second) = readable first := by
  induction first with
  | nil => cases unreadable
  | cons line rest inductionHypothesis =>
    cases line with
    | none => rfl
    | some raw =>
      have behind : none ∈ rest := by simpa using unreadable
      rw [List.cons_append, readable, readable, inductionHypothesis behind]

theorem readable_map_some_append (first : List Text) (second : List (Option Text)) :
    readable (first.map some ++ second) = first ++ readable second := by
  induction first with
  | nil => rfl
  | cons raw rest inductionHypothesis =>
    rw [List.map_cons, List.cons_append, readable, inductionHypothesis, List.cons_append]

/-- Where every line can be read, all of them are read. -/
theorem map_some_readable {lines : List (Option Text)} (whole : none ∉ lines) :
    (readable lines).map some = lines := by
  induction lines with
  | nil => rfl
  | cons line rest inductionHypothesis =>
    cases line with
    | none => exact absurd List.mem_cons_self whole
    | some raw =>
      rw [readable, List.map_cons,
        inductionHypothesis fun broken => whole (List.mem_cons_of_mem _ broken)]

theorem readable_take_prefix (lines : List (Option Text)) (count : Nat) :
    readable (lines.take count) <+: readable lines := by
  induction lines generalizing count with
  | nil => cases count <;> exact List.prefix_rfl
  | cons line rest inductionHypothesis =>
    cases count with
    | zero => exact List.nil_prefix
    | succ count =>
      rw [List.take_succ_cons]
      cases line with
      | none => exact List.prefix_rfl
      | some raw => exact List.cons_prefix_cons.mpr ⟨rfl, inductionHypothesis count⟩

/-- Nothing from a line on that cannot be read is read. -/
theorem readable_take_of_unreadable {lines : List (Option Text)} {count : Nat}
    (unreadable : lines[count]? = some none) : readable (lines.take count) = readable lines := by
  induction lines generalizing count with
  | nil => rw [List.take_nil]
  | cons line rest inductionHypothesis =>
    cases line with
    | none => cases count <;> rfl
    | some raw =>
      cases count with
      | zero => cases unreadable
      | succ count =>
        rw [List.take_succ_cons, readable, readable, inductionHypothesis unreadable]

namespace Compiler

/-- The compiler after some lines. -/
def advanceAll (compiler : Compiler) (lines : List Text) : Compiler :=
  lines.foldl advance compiler

/-- The physical lines of some lines. -/
def layOutAll : Compiler → List Text → List Text
  | _, [] => []
  | compiler, raw :: rest => compiler.layOut raw ++ layOutAll (compiler.advance raw) rest

/-- What there is to report about some lines, behind `number` others. -/
def inspectAll (source : Path) : Compiler → (number : Nat) → List Text → List Notice
  | _, _, [] => []
  | compiler, number, raw :: rest =>
    compiler.inspect source (number + 1) raw ++
      inspectAll source (compiler.advance raw) (number + 1) rest

/-! ### What a passage holds -/

theorem compiler_compileFrom (source : Path) (compiler : Compiler) (number : Nat)
    (lines : List (Option Text)) :
    (compileFrom source compiler number lines).compiler = compiler.advanceAll (readable lines) := by
  fun_induction compileFrom source compiler number lines with
  | case1 | case2 => rfl
  | case3 compiler number raw rest inductionHypothesis => exact inductionHypothesis

theorem written_compileFrom (source : Path) (compiler : Compiler) (number : Nat)
    (lines : List (Option Text)) :
    (compileFrom source compiler number lines).written = compiler.layOutAll (readable lines) := by
  fun_induction compileFrom source compiler number lines with
  | case1 | case2 => rfl
  | case3 compiler number raw rest inductionHypothesis =>
    rw [Passage.after, inductionHypothesis]
    rfl

/-- All lines are counted, unless one of them cannot be read. -/
theorem outcome_compileFrom (source : Path) (compiler : Compiler) (number : Nat)
    (lines : List (Option Text)) :
    (compileFrom source compiler number lines).outcome =
      if none ∈ lines then .error (.inputNotRead source) else .ok (number + lines.length) := by
  fun_induction compileFrom source compiler number lines with
  | case1 => rfl
  | case2 => rw [if_pos List.mem_cons_self]
  | case3 compiler number raw rest inductionHypothesis =>
    have further : none ∈ some raw :: rest ↔ none ∈ rest := by simp
    simp only [Passage.after, inductionHypothesis, further, List.length_cons, Nat.add_comm 1,
      Nat.add_assoc]

/-- Every line that is read is reported on by itself. How the file ends is reported only
where its end is reached. -/
theorem notices_compileFrom (source : Path) (compiler : Compiler) (number : Nat)
    (lines : List (Option Text)) :
    (compileFrom source compiler number lines).notices =
      inspectAll source compiler number (readable lines) ++
        if none ∈ lines then [] else (compiler.advanceAll (readable lines)).leave source := by
  fun_induction compileFrom source compiler number lines with
  | case1 => rfl
  | case2 =>
    rw [if_pos List.mem_cons_self]
    rfl
  | case3 compiler number raw rest inductionHypothesis =>
    have further : none ∈ some raw :: rest ↔ none ∈ rest := by simp
    rw [Passage.after, inductionHypothesis, readable, inspectAll, List.append_assoc]
    simp only [further]
    rfl

theorem compiler_compileLines (compiler : Compiler) (source : Path)
    (lines : List (Option Text)) :
    (compiler.compileLines source lines).compiler =
      compiler.begin.advanceAll (readable lines) :=
  compiler_compileFrom source compiler.begin 0 lines

theorem written_compileLines (compiler : Compiler) (source : Path) (lines : List (Option Text)) :
    (compiler.compileLines source lines).written = compiler.begin.layOutAll (readable lines) :=
  written_compileFrom source compiler.begin 0 lines

theorem outcome_compileLines (compiler : Compiler) (source : Path) (lines : List (Option Text)) :
    (compiler.compileLines source lines).outcome =
      if none ∈ lines then .error (.inputNotRead source) else .ok lines.length := by
  rw [compileLines, outcome_compileFrom, Nat.zero_add]

theorem notices_compileLines (compiler : Compiler) (source : Path) (lines : List (Option Text)) :
    (compiler.compileLines source lines).notices =
      compiler.begin.inspectAll source 0 (readable lines) ++
        if none ∈ lines then [] else (compiler.compileLines source lines).compiler.leave source := by
  rw [compiler_compileLines]
  exact notices_compileFrom source compiler.begin 0 lines

/-! ### What lines leave behind -/

theorem context_advanceAll (compiler : Compiler) (lines : List Text) :
    (compiler.advanceAll lines).context = lines.foldl Context.advance compiler.context := by
  induction lines generalizing compiler with
  | nil => rfl
  | cons raw rest inductionHypothesis => exact inductionHypothesis (compiler.advance raw)

theorem options_advanceAll (compiler : Compiler) (lines : List Text) :
    (compiler.advanceAll lines).options = compiler.options := by
  induction lines generalizing compiler with
  | nil => rfl
  | cons raw rest inductionHypothesis => exact inductionHypothesis (compiler.advance raw)

theorem started_advanceAll (compiler : Compiler) (lines : List Text) :
    (compiler.advanceAll lines).started = compiler.started := by
  induction lines generalizing compiler with
  | nil => rfl
  | cons raw rest inductionHypothesis => exact inductionHypothesis (compiler.advance raw)

theorem layOutAll_append (compiler : Compiler) (first second : List Text) :
    compiler.layOutAll (first ++ second) =
      compiler.layOutAll first ++ (compiler.advanceAll first).layOutAll second := by
  induction first generalizing compiler with
  | nil => rfl
  | cons raw rest inductionHypothesis =>
    rw [List.cons_append, layOutAll, inductionHypothesis, layOutAll, List.append_assoc]
    rfl

/-! ### Compilers that write alike -/

/-- Compilers that write the same, whatever lines there are to come. Names to look for,
emphasis, quotes and the files that came before have no part in it. -/
structure Alike (first second : Compiler) : Prop where
  options : first.options = second.options
  block : first.block = second.block
  bearing : first.context.bearing = second.context.bearing

theorem Alike.advance {first second : Compiler} (alike : Alike first second) (raw : Text) :
    Alike (first.advance raw) (second.advance raw) where
  options := alike.options
  block := congrArg (fun block => (Block.strip block raw).2) alike.block
  bearing := Context.bearing_advance_congr alike.bearing raw

theorem Alike.layOut_eq {first second : Compiler} (alike : Alike first second) (raw : Text) :
    first.layOut raw = second.layOut raw := by
  rw [layOut, layOut, visible, visible, alike.options, alike.block]
  exact Layout.linesOf_advance_congr _ _ _ alike.bearing

theorem Alike.layOutAll_eq {first second : Compiler} (alike : Alike first second)
    (lines : List Text) : first.layOutAll lines = second.layOutAll lines := by
  induction lines generalizing first second with
  | nil => rfl
  | cons raw rest inductionHypothesis =>
    rw [layOutAll, layOutAll, alike.layOut_eq, inductionHypothesis (alike.advance raw)]

end Compiler

end Manuscript
