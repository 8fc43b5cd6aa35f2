/-
This file says when bold and italic words run on behind a line. A line of prose turns
them on or off by the number of its marks, a blank line turns them off, and a tag leaves
them as they are. But a tag counts only behind a blank line or another tag, so they are
off at every tag as well: what runs on at a line is decided by the lines of prose that
have come up to it without a break, and it is whether their marks are odd in number.
-/

import Mathlib.Algebra.GroupWithZero.Nat
import Mathlib.Data.List.DropRight
import Manuscript.Proofs.Context.Course
import Manuscript.Proofs.Text.Marks

namespace Manuscript

namespace Context

/-- A tag is never found directly behind prose. -/
theorem line_ne_prose_of_tagged {context : Context} {raw : Text} {tag : Tag}
    (found : (context.advance raw).line = .tagged tag) : context.line ≠ .prose := by
  intro prose
  rw [line_advance, classify_eq, if_pos prose] at found
  split at found <;> cases found

theorem bold_advance (context : Context) (raw : Text) :
    (context.advance raw).bold =
      emphasisAfter context.bold raw.countPairs (context.advance raw).line := by
  rw [← countPairs_lower]
  rfl

theorem italics_advance (context : Context) (raw : Text) :
    (context.advance raw).italics =
      emphasisAfter context.italics (raw.count '*') (context.advance raw).line := by
  rw [← count_lower raw rfl]
  rfl

end Context

namespace Beginning

/-! ### The prose that lines end with -/

/-- The lines of prose that some lines end with, up to the last one that is not prose. -/
def lastProse (beginning : Beginning) (lines : List Text) : List Text :=
  ((lines.zip (beginning.kinds lines)).rtakeWhile fun entry => entry.2 = .prose).map Prod.fst

theorem lastProse_concat (beginning : Beginning) (lines : List Text) (raw : Text) :
    beginning.lastProse (lines ++ [raw]) =
      if (beginning.after (lines ++ [raw])).line = .prose then beginning.lastProse lines ++ [raw]
      else [] := by
  have zipped : (lines ++ [raw]).zip (beginning.kinds (lines ++ [raw])) =
      lines.zip (beginning.kinds lines) ++ [(raw, (beginning.after (lines ++ [raw])).line)] := by
    rw [kinds_concat, List.zip_append (length_kinds beginning lines).symm]
    rfl
  rw [lastProse, zipped, List.rtakeWhile_concat]
  simp only [decide_eq_true_eq]
  split
  · rw [List.map_append]
    rfl
  · rfl

theorem lastProse_eq_nil {beginning : Beginning} {lines : List Text}
    (apart : (beginning.after lines).line ≠ .prose) : beginning.lastProse lines = [] := by
  cases lines using List.reverseRecOn with
  | nil => rfl
  | append_singleton lines raw => rw [lastProse_concat, if_neg apart]

/-! ### Parity -/

/-- Whether the marks of some lines are odd in number. -/
def isOdd (marks : Text → Nat) (lines : List Text) : Bool :=
  (lines.map marks).sum % 2 = 1

theorem isOdd_concat (marks : Text → Nat) (lines : List Text) (raw : Text) :
    isOdd marks (lines ++ [raw]) =
      if marks raw % 2 = 1 then !isOdd marks lines else isOdd marks lines := by
  have total : ((lines ++ [raw]).map marks).sum = (lines.map marks).sum + marks raw := by
    rw [List.map_append, List.sum_append, List.map_singleton, List.sum_singleton]
  rw [isOdd, isOdd, total, Bool.eq_iff_iff]
  split <;> simp only [Bool.not_eq_true', decide_eq_true_eq, decide_eq_false_iff_not] <;> omega

/-- What is turned on and off by one kind of mark, and is off at the beginning, is on where the
marks of the last lines of prose are odd in number. -/
theorem emphasis_eq_isOdd (emphasis : Context → Bool) (marks : Text → Nat)
    (moves : ∀ context raw, emphasis (context.advance raw) =
      Context.emphasisAfter (emphasis context) (marks raw) (context.advance raw).line)
    (off : ∀ beginning : Beginning, emphasis beginning.context = false)
    (beginning : Beginning) (lines : List Text) :
    emphasis (beginning.after lines) = isOdd marks (beginning.lastProse lines) := by
  induction lines using List.reverseRecOn with
  | nil => exact off beginning
  | append_singleton lines raw inductionHypothesis =>
    rw [lastProse_concat, after_concat, moves, inductionHypothesis]
    cases kind : ((beginning.after lines).advance raw).line with
    | blank => rfl
    | tagged tag =>
      -- Nothing runs on in front of a tag, so leaving it as it is leaves it off.
      rw [lastProse_eq_nil (Context.line_ne_prose_of_tagged kind)]
      rfl
    | prose =>
      rw [if_pos rfl, isOdd_concat]
      rfl

/-- Bold words run on where the lines of prose up to here hold an odd number of pairs of
underscores, and italic words where they hold an odd number of asterisks. Nothing runs on at a
blank line or at a tag. -/
theorem emphasis_by_parity (beginning : Beginning) (lines : List Text) :
    let here := beginning.after lines
    let paragraph := beginning.lastProse lines
    (here.bold = true ↔ (paragraph.map Text.countPairs).sum % 2 = 1) ∧
      (here.italics = true ↔ (paragraph.map fun raw => raw.count '*').sum % 2 = 1) ∧
      (here.line = .prose ∨ here.bold = false ∧ here.italics = false) := by
  intro here paragraph
  have bold : here.bold = isOdd Text.countPairs paragraph :=
    emphasis_eq_isOdd Context.bold _ Context.bold_advance
      (fun beginning => by cases beginning <;> rfl) beginning lines
  have italics : here.italics = isOdd (fun raw => raw.count '*') paragraph :=
    emphasis_eq_isOdd Context.italics _ Context.italics_advance
      (fun beginning => by cases beginning <;> rfl) beginning lines
  refine ⟨by rw [bold, isOdd, decide_eq_true_iff], by rw [italics, isOdd, decide_eq_true_iff], ?_⟩
  by_cases prose : here.line = .prose
  · exact Or.inl prose
  · have empty : paragraph = [] := lastProse_eq_nil prose
    rw [bold, italics, empty]
    exact Or.inr ⟨rfl, rfl⟩

/-- Italic words may end on a later line than they began on, and bold ones that nobody ends run
over to the next one. -/
example :
    let here := Beginning.document.after (["She *said", "__no*."].map String.toList)
    here.line = .prose ∧ here.bold = true ∧ here.italics = false := by
  decide +kernel

end Beginning

end Manuscript
