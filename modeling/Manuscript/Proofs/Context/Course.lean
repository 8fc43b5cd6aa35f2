/-
This file follows a context through the lines of a file. A file begins as a document of
its own, as a further file, or as a further file that is watched for a first paragraph
like a document; from there every line moves the context on. What later files say about
a context is said of the kinds of the lines that it has come through, so the kinds of a
sequence of lines are the record that is kept here.
-/

import Mathlib.Data.List.Induction
import Manuscript.Proofs.Context.Bearing

namespace Manuscript

namespace Context

theorem line_advance (context : Context) (raw : Text) :
    (context.advance raw).line = classify context.line raw := rfl

/-- The context after some lines. -/
def advanceAll (context : Context) (lines : List Text) : Context :=
  lines.foldl advance context

/-- The kinds of some lines. -/
def kindsOf : Context → List Text → List LineKind
  | _, [] => []
  | context, raw :: rest => (context.advance raw).line :: kindsOf (context.advance raw) rest

theorem advanceAll_append (context : Context) (first second : List Text) :
    context.advanceAll (first ++ second) = (context.advanceAll first).advanceAll second :=
  List.foldl_append

/-- One line more is one step more. -/
theorem advanceAll_concat (context : Context) (lines : List Text) (raw : Text) :
    context.advanceAll (lines ++ [raw]) = (context.advanceAll lines).advance raw :=
  advanceAll_append context lines [raw]

theorem kindsOf_append (context : Context) (first second : List Text) :
    context.kindsOf (first ++ second) =
      context.kindsOf first ++ (context.advanceAll first).kindsOf second := by
  induction first generalizing context with
  | nil => rfl
  | cons raw rest inductionHypothesis =>
    rw [List.cons_append, kindsOf, inductionHypothesis, kindsOf, List.cons_append]
    rfl

theorem kindsOf_concat (context : Context) (lines : List Text) (raw : Text) :
    context.kindsOf (lines ++ [raw]) =
      context.kindsOf lines ++ [(context.advanceAll (lines ++ [raw])).line] := by
  rw [kindsOf_append, advanceAll_concat]
  rfl

theorem length_kindsOf (context : Context) (lines : List Text) :
    (context.kindsOf lines).length = lines.length := by
  induction lines generalizing context with
  | nil => rfl
  | cons raw rest inductionHypothesis =>
    rw [kindsOf, List.length_cons, inductionHypothesis, List.length_cons]

/-- After some lines the context stands at the last of them. -/
theorem line_advanceAll (context : Context) (lines : List Text) :
    (context.advanceAll lines).line = (context.kindsOf lines).getLast?.getD context.line := by
  cases lines using List.reverseRecOn with
  | nil => rfl
  | append_singleton lines raw => rw [kindsOf_concat, List.getLast?_concat, Option.getD_some]

end Context

/-- How the lines of a file can begin. -/
inductive Beginning where
  /-- A document of its own. -/
  | document
  /-- A further file, which may go on with the chapter of the file before it. -/
  | furtherFile
  /-- A further file that is watched for a first paragraph all the same. -/
  | watchedFile
  deriving DecidableEq, Repr

namespace Beginning

/-- The context before the first line. -/
def context : Beginning → Context
  | document => .start
  | furtherFile => .restart
  | watchedFile => Context.restart.arm

/-- Whether there is a watch for a first paragraph from the first line on. -/
def isWatched : Beginning → Bool
  | document | watchedFile => true
  | furtherFile => false

/-- The context after the first lines. -/
def after (beginning : Beginning) (lines : List Text) : Context :=
  beginning.context.advanceAll lines

/-- The kinds of the first lines. -/
def kinds (beginning : Beginning) (lines : List Text) : List LineKind :=
  beginning.context.kindsOf lines

theorem after_concat (beginning : Beginning) (lines : List Text) (raw : Text) :
    beginning.after (lines ++ [raw]) = (beginning.after lines).advance raw :=
  Context.advanceAll_concat _ _ _

theorem previous_after_concat (beginning : Beginning) (lines : List Text) (raw : Text) :
    (beginning.after (lines ++ [raw])).previous = (beginning.after lines).line := by
  rw [after_concat]
  rfl

theorem kinds_concat (beginning : Beginning) (lines : List Text) (raw : Text) :
    beginning.kinds (lines ++ [raw]) =
      beginning.kinds lines ++ [(beginning.after (lines ++ [raw])).line] :=
  Context.kindsOf_concat _ _ _

theorem length_kinds (beginning : Beginning) (lines : List Text) :
    (beginning.kinds lines).length = lines.length :=
  Context.length_kindsOf _ _

/-- Every beginning counts as a blank line. -/
theorem line_context (beginning : Beginning) : beginning.context.line = .blank := by
  cases beginning <;> rfl

theorem kinds_take (beginning : Beginning) (lines : List Text) (count : Nat) :
    beginning.kinds (lines.take count) = (beginning.kinds lines).take count := by
  have whole : beginning.kinds lines = beginning.kinds (lines.take count) ++
      (beginning.after (lines.take count)).kindsOf (lines.drop count) := by
    rw [kinds, kinds, after, ← Context.kindsOf_append, List.take_append_drop]
  have filled : (beginning.kinds (lines.take count)).length = min count lines.length := by
    rw [length_kinds, List.length_take]
  rcases Nat.le_total count lines.length with inside | outside
  · rw [whole, List.take_left' (filled.trans (Nat.min_eq_left inside))]
  · rw [List.take_of_length_le outside,
      List.take_of_length_le (by rw [length_kinds]; exact outside)]

/-- The kind of a line is the one that the context has when it stands there. -/
theorem getElem?_kinds (beginning : Beginning) {lines : List Text} {number : Nat}
    (inside : number < lines.length) :
    (beginning.kinds lines)[number]? =
      some (beginning.after (lines.take (number + 1))).line := by
  have front : (beginning.kinds (lines.take number)).length = number := by
    rw [length_kinds, List.length_take_of_le inside.le]
  have upTo : beginning.kinds (lines.take (number + 1)) =
      beginning.kinds (lines.take number) ++ [(beginning.after (lines.take (number + 1))).line] := by
    rw [List.take_succ_eq_append_getElem inside]
    exact kinds_concat _ _ _
  rw [← List.getElem?_take_of_lt (Nat.lt_succ_self number), ← kinds_take, upTo,
    List.getElem?_append_right front.le, front, Nat.sub_self]
  rfl

theorem line_after (beginning : Beginning) (lines : List Text) :
    (beginning.after lines).line = (beginning.kinds lines).getLast?.getD .blank := by
  rw [after, Context.line_advanceAll, line_context]
  rfl

end Beginning

end Manuscript
