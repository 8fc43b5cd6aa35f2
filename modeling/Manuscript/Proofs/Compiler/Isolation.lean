/-
This file proves that files are compiled in isolation. One compiler takes all the files of
a project, and a file can leave anything behind in it: an open block, a scope, open
quotes, a count of lines cut short by a failure. At the beginning of the next file all of
this is gone. What remains is that a file has been started, so the first file comes out
as it would from a new compiler, and every later one as it would from any compiler that
has started a file before. Where a file opens with a tag, even that makes no difference.
-/

import Mathlib.Tactic.Common
import Manuscript.Project
import Manuscript.Proofs.Compiler.Division

namespace Manuscript

/-- A file that has been opened: its path and its lines. -/
structure OpenedFile where
  path : Path
  lines : List (Option Text)
  deriving DecidableEq, Repr

/-- What is seen of a passage: the physical lines, the number of lines read or the failure,
and the context at the end. -/
def Passage.seen (passage : Passage) : List Text × Except Failure Nat × Context :=
  (passage.written, passage.outcome, passage.compiler.context)

namespace Compiler

/-- Compiles a file that has been opened. -/
def compileFile (compiler : Compiler) (file : OpenedFile) : Passage :=
  compiler.compileLines file.path file.lines

/-- Compiles files with one compiler, one after another. A file that fails does not keep the
next one from being compiled. -/
def compileEach : Compiler → List OpenedFile → List Passage
  | _, [] => []
  | compiler, file :: rest =>
    compiler.compileFile file :: compileEach (compiler.compileFile file).compiler rest

/-- Compiles every file by itself, each with a compiler as it is given: one for the first
file, and one for any other. -/
def compileApart (first later : Compiler) : List OpenedFile → List Passage
  | [] => []
  | file :: rest => first.compileFile file :: rest.map later.compileFile

/-! ### What is left at the beginning of a file -/

theorem options_compileFile (compiler : Compiler) (file : OpenedFile) :
    (compiler.compileFile file).compiler.options = compiler.options := by
  rw [compileFile, compiler_compileLines, options_advanceAll]
  rfl

/-- A file counts as started even where it fails. -/
theorem started_compileFile (compiler : Compiler) (file : OpenedFile) :
    (compiler.compileFile file).compiler.started = true := by
  rw [compileFile, compiler_compileLines, started_advanceAll]
  rfl

/-- Compilers begin a file with the same context if both or neither have started one. -/
theorem context_begin_congr {first second : Compiler} (started : first.started = second.started) :
    first.begin.context = second.begin.context := by
  rw [begin, begin, started]

/-- What is seen of a file depends on the compiler only through its options and through
whether it has started a file. -/
theorem seen_compileFile_congr {first second : Compiler}
    (options : first.options = second.options) (started : first.started = second.started)
    (file : OpenedFile) : (first.compileFile file).seen = (second.compileFile file).seen := by
  have context := context_begin_congr started
  have alike : Alike first.begin second.begin := ⟨options, rfl, congrArg Context.bearing context⟩
  simp only [Passage.seen, compileFile, written_compileLines, outcome_compileLines,
    compiler_compileLines, context_advanceAll, alike.layOutAll_eq, context]

/-! ### Files one after another -/

/-- Behind the first file, every file is seen as any compiler that has started one shows it. -/
theorem seen_compileEach_of_started {compiler other : Compiler}
    (options : compiler.options = other.options) (started : compiler.started = true)
    (otherStarted : other.started = true) (files : List OpenedFile) :
    (compiler.compileEach files).map Passage.seen =
      (files.map other.compileFile).map Passage.seen := by
  induction files generalizing compiler with
  | nil => rfl
  | cons file rest inductionHypothesis =>
    have behind : (compiler.compileFile file).compiler.options = other.options :=
      (options_compileFile compiler file).trans options
    rw [compileEach, List.map_cons, List.map_cons, List.map_cons,
      seen_compileFile_congr options (started.trans otherStarted.symm),
      inductionHypothesis behind (started_compileFile compiler file)]

theorem seen_compileEach {compiler first later : Compiler}
    (firstOptions : compiler.options = first.options) (begun : compiler.started = first.started)
    (laterOptions : compiler.options = later.options) (started : later.started = true)
    (files : List OpenedFile) :
    (compiler.compileEach files).map Passage.seen =
      (compileApart first later files).map Passage.seen := by
  cases files with
  | nil => rfl
  | cons file rest =>
    have behind : (compiler.compileFile file).compiler.options = later.options :=
      (options_compileFile compiler file).trans laterOptions
    rw [compileEach, compileApart, List.map_cons, List.map_cons,
      seen_compileFile_congr firstOptions begun,
      seen_compileEach_of_started behind (started_compileFile compiler file) started]

/-- What is written in all, from what is seen of each passage. -/
theorem written_of_seen {first second : List Passage}
    (same : first.map Passage.seen = second.map Passage.seen) :
    first.flatMap Passage.written = second.flatMap Passage.written := by
  have written (passages : List Passage) :
      passages.flatMap Passage.written = (passages.map Passage.seen).flatMap Prod.fst := by
    rw [List.flatMap_map]
    rfl
  rw [written, written, same]

/-- A file that opens with a tag is written the same by every compiler with the same options,
whether it is the first file or not. -/
theorem written_compileFile_of_tagged {first second : Compiler}
    (options : first.options = second.options) {file : OpenedFile}
    (tagged : opensWithTag (readable file.lines) = true) :
    (first.compileFile file).written = (second.compileFile file).written := by
  have begun : first.begin.options = second.begin.options := options
  rw [compileFile, compileFile, written_compileLines, written_compileLines,
    layOutAll_eq_of_opensWithTag begun (atBreak_begin first) (atBreak_begin second) _ tagged]

/-! ### The files of an order -/

/-- The files of an order that are opened. One that does not exist is passed over; one that
cannot be opened or cannot be read to its end is where the compilation ends. -/
def openedFiles (files : FileSystem) (root : Path) : List Path → List OpenedFile
  | [] => []
  | entry :: rest =>
    match files.readLines (root.join entry) with
    | .error .missing => openedFiles files root rest
    | .error .refused => []
    | .ok lines =>
      ⟨root.join entry, lines⟩ :: if none ∈ lines then [] else openedFiles files root rest

/-- An order is compiled by compiling the files that are opened, and each is counted. -/
theorem compileFiles_eq (files : FileSystem) (root : Path) (compiler : Compiler) (done : Nat)
    (order : List Path) :
    (compileFiles files root compiler done order).written =
        (compiler.compileEach (openedFiles files root order)).flatMap Passage.written ∧
      ∀ count, (compileFiles files root compiler done order).outcome = .ok count →
        count = done + (openedFiles files root order).length := by
  induction order generalizing compiler done with
  | nil => exact ⟨rfl, fun count same => (Except.ok.inj same).symm⟩
  | cons entry rest inductionHypothesis =>
    rw [compileFiles, openedFiles]
    cases opened : files.readLines (root.join entry) with
    | error obstacle =>
      cases obstacle with
      | missing => exact inductionHypothesis compiler done
      | refused => exact ⟨rfl, fun count failed => nomatch failed⟩
    | ok lines =>
      have outcome := outcome_compileLines compiler (root.join entry) lines
      simp only [compileEach, compileFile, List.flatMap_cons, List.length_cons]
      by_cases broken : none ∈ lines
      · rw [if_pos broken] at outcome ⊢
        simp only [outcome]
        refine ⟨(List.append_nil _).symm, fun count failed => ?_⟩
        cases failed
      · rw [if_neg broken] at outcome ⊢
        obtain ⟨written, counted⟩ := inductionHypothesis
          (compiler.compileLines (root.join entry) lines).compiler (done + 1)
        simp only [outcome, Passage.after]
        refine ⟨congrArg _ written, fun count same => ?_⟩
        rw [counted count same]
        omega

/-- Every file is written as if it stood alone, whatever the files before it have left behind
and whatever names are looked for: the first one as by a new compiler, and any other as by
any compiler that has started a file, with the same count or failure and the same context
at its end. Where a file opens with a tag, both write the same. In an order the first file
is the first one that exists, and where all files open with a tag, the document is what
they are by themselves, one after another. -/
theorem files_isolated (options : Options) (names others : Names) (other : Compiler)
    (sameOptions : other.options = options) (started : other.started = true) :
    (∀ files, ((new options names).compileEach files).map Passage.seen =
        (compileApart (new options others) other files).map Passage.seen) ∧
      (∀ file, opensWithTag (readable file.lines) = true →
        ((new options others).compileFile file).written = (other.compileFile file).written) ∧
      ∀ (files : FileSystem) (root : Path),
        let opened := openedFiles files root options.order
        let passage := (new options names).compileOrder files root
        passage.written =
            (compileApart (new options others) other opened).flatMap Passage.written ∧
          (∀ count, passage.outcome = .ok count → count = opened.length) ∧
          ((∀ file ∈ opened, opensWithTag (readable file.lines) = true) →
            passage.written =
              opened.flatMap fun file => ((new options others).compileFile file).written) := by
  have apart (files : List OpenedFile) :
      ((new options names).compileEach files).map Passage.seen =
        (compileApart (new options others) other files).map Passage.seen := by
    refine seen_compileEach ?_ ?_ ?_ started files
    · rfl
    · rfl
    · exact sameOptions.symm
  have tagged (file : OpenedFile) (opens : opensWithTag (readable file.lines) = true) :
      ((new options others).compileFile file).written = (other.compileFile file).written :=
    written_compileFile_of_tagged sameOptions.symm opens
  refine ⟨apart, tagged, fun files root => ?_⟩
  intro opened passage
  obtain ⟨written, counted⟩ := compileFiles_eq files root (new options names) 0 options.order
  have inOrder : passage.written =
      (compileApart (new options others) other opened).flatMap Passage.written :=
    written.trans (written_of_seen (apart opened))
  refine ⟨inOrder, fun count same => ?_, fun opens => ?_⟩
  · rw [counted count same, Nat.zero_add]
  · rw [inOrder]
    cases files : opened with
    | nil => rfl
    | cons file rest =>
      rw [compileApart, List.flatMap_cons, List.flatMap_cons, List.flatMap_map]
      congr 1
      refine List.flatMap_congr fun later member => (tagged later (opens later ?_)).symm
      rw [files]
      exact List.mem_cons_of_mem file member

/-- A manuscript in two parts. The first part leaves a bracket open. -/
def twoParts : FileSystem where
  entries :=
    [(["one".toList], .file (Text.encode "Title: One\n[open\n".toList)),
      (["two".toList], .file (Text.encode "\nSection: Two\nrang.\n".toList))]
  workingFolder := []

/-- An order of the two parts, behind a file that does not exist. -/
def orderOfTwoParts : Options :=
  { Options.standard with order := [.ofString "none", .ofString "one", .ofString "two"] }

theorem files_isolated_in_two_parts :
    ((new orderOfTwoParts ⟨[], [], [], ["One".toList]⟩).compileOrder twoParts
        (.ofString ".")).written =
      (openedFiles twoParts (.ofString ".") orderOfTwoParts.order).flatMap fun file =>
        ((new orderOfTwoParts .none).compileFile file).written := by
  have isolated := files_isolated orderOfTwoParts ⟨[], [], [], ["One".toList]⟩ .none
    (new orderOfTwoParts .none).begin rfl rfl
  exact (isolated.2.2 twoParts (.ofString ".")).2.2 (by decide +kernel)

end Compiler

end Manuscript
