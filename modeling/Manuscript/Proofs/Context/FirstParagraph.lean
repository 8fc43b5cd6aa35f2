/-
This file says which lines open a first paragraph. The watch for one is kept by a tag
that opens a part of the document and by a beginning that is watched like one; blank
lines and author lines leave it as it is, the first line of prose answers it, and with
the line behind that it is over. So a line opens a first paragraph exactly if it is
prose and the watch has been set at some place with no prose in between. A place where
it has been set accounts for one such line and no more, however many there are in a row.
-/

import Manuscript.Proofs.Context.Course

namespace Manuscript

namespace Opening

/-- The watch is on behind whatever sets it, and stays on up to the next line of prose. -/
theorem after_eq_armed_iff (opening : Opening) (line : LineKind) :
    opening.after line = .armed ↔
      (opening = .armed ∧ line ≠ .prose) ∨ ∃ tag, line = .tagged tag ∧ tag ≠ .author := by
  cases opening <;> cases line with
  | blank => simp [after, settle]
  | tagged tag => cases tag <;> simp [after, settle, Tag.opensParagraph]
  | prose => simp [after]

/-- The line that answers the watch is the first line of prose. -/
theorem after_eq_current_iff (opening : Opening) (line : LineKind) :
    opening.after line = .current ↔ line = .prose ∧ opening = .armed := by
  cases opening <;> cases line with
  | blank => simp [after, settle]
  | tagged tag => cases tag <;> simp [after, settle, Tag.opensParagraph]
  | prose => simp [after]

end Opening

namespace Beginning

/-! ### Where the watch is set -/

/-- Whether a first paragraph is watched for from a place on: place zero is the beginning, and
any other place is the line with that number, which has to declare a tag that opens a part of
the document. -/
def SetAt (beginning : Beginning) (kinds : List LineKind) : (place : Nat) → Prop
  | 0 => beginning.isWatched = true
  | number + 1 => ∃ tag, kinds[number]? = some (.tagged tag) ∧ tag ≠ .author

/-- Whether the first paragraph that is watched for from a place on is still to come behind
lines of these kinds: there has been no prose since. -/
def IsDue (beginning : Beginning) (kinds : List LineKind) (place : Nat) : Prop :=
  beginning.SetAt kinds place ∧ .prose ∉ kinds.drop place

variable {beginning : Beginning}

theorem SetAt.le {kinds : List LineKind} {place : Nat} (set : beginning.SetAt kinds place) :
    place ≤ kinds.length := by
  cases place with
  | zero => exact Nat.zero_le _
  | succ number =>
    obtain ⟨tag, here, _⟩ := set
    exact (List.getElem?_eq_some_iff.mp here).1

theorem isDue_nil_iff (beginning : Beginning) (place : Nat) :
    beginning.IsDue [] place ↔ place = 0 ∧ beginning.isWatched = true := by
  cases place with
  | zero => simp [IsDue, SetAt]
  | succ number => simp [IsDue, SetAt]

/-- One line more can set the watch itself. -/
theorem setAt_concat_iff (beginning : Beginning) (kinds : List LineKind) (line : LineKind)
    (place : Nat) :
    beginning.SetAt (kinds ++ [line]) place ↔
      beginning.SetAt kinds place ∨
        place = kinds.length + 1 ∧ ∃ tag, line = .tagged tag ∧ tag ≠ .author := by
  cases place with
  | zero => simp [SetAt]
  | succ number =>
    rcases Nat.lt_trichotomy number kinds.length with inside | same | outside
    · simp [SetAt, List.getElem?_append_left inside, inside.ne]
    · subst same
      simp [SetAt]
    · have nothing : (kinds ++ [line])[number]? = none := by
        rw [List.getElem?_eq_none_iff, List.length_append, List.length_singleton]
        exact outside
      simp [SetAt, nothing, outside.ne', List.getElem?_eq_none outside.le]

/-- One line more keeps due what was due before, unless it is prose. -/
theorem isDue_concat_iff (beginning : Beginning) (kinds : List LineKind) (line : LineKind)
    (place : Nat) :
    beginning.IsDue (kinds ++ [line]) place ↔
      (beginning.IsDue kinds place ∧ line ≠ .prose) ∨
        place = kinds.length + 1 ∧ ∃ tag, line = .tagged tag ∧ tag ≠ .author := by
  constructor
  · rintro ⟨set, clear⟩
    rcases (setAt_concat_iff ..).mp set with before | now
    · rw [List.drop_append_of_le_length before.le, List.mem_append, not_or] at clear
      exact Or.inl ⟨⟨before, clear.1⟩, fun prose => clear.2 (List.mem_singleton.mpr prose.symm)⟩
    · exact Or.inr now
  · rintro (⟨⟨set, clear⟩, other⟩ | ⟨rfl, opens⟩)
    · refine ⟨(setAt_concat_iff ..).mpr (Or.inl set), ?_⟩
      rw [List.drop_append_of_le_length set.le, List.mem_append, not_or]
      exact ⟨clear, fun prose => other (List.mem_singleton.mp prose).symm⟩
    · refine ⟨(setAt_concat_iff ..).mpr (Or.inr ⟨rfl, opens⟩), ?_⟩
      rw [List.drop_eq_nil_of_le (by rw [List.length_append, List.length_singleton])]
      exact List.not_mem_nil

/-! ### The watch along the lines -/

theorem opening_after_concat (beginning : Beginning) (lines : List Text) (raw : Text) :
    (beginning.after (lines ++ [raw])).opening =
      (beginning.after lines).opening.after (beginning.after (lines ++ [raw])).line := by
  rw [after_concat]
  rfl

/-- The watch is on exactly where a first paragraph is due. -/
theorem opening_eq_armed_iff (beginning : Beginning) (lines : List Text) :
    (beginning.after lines).opening = .armed ↔
      ∃ place, beginning.IsDue (beginning.kinds lines) place := by
  induction lines using List.reverseRecOn with
  | nil =>
    have start : (beginning.after []).opening = .armed ↔ beginning.isWatched = true := by
      cases beginning <;> decide
    rw [start, show beginning.kinds [] = [] from rfl]
    simp only [isDue_nil_iff, exists_eq_left]
  | append_singleton lines raw inductionHypothesis =>
    rw [opening_after_concat, Opening.after_eq_armed_iff, inductionHypothesis, kinds_concat]
    simp only [isDue_concat_iff, exists_or, exists_and_right, exists_eq, true_and]

/-- A line opens a first paragraph exactly if it is prose and one is due. -/
theorem isFirstParagraph_iff (beginning : Beginning) (lines : List Text) (raw : Text) :
    (beginning.after (lines ++ [raw])).isFirstParagraph = true ↔
      (beginning.after (lines ++ [raw])).line = .prose ∧
        ∃ place, beginning.IsDue (beginning.kinds lines) place := by
  rw [Context.isFirstParagraph, decide_eq_true_iff, opening_after_concat,
    Opening.after_eq_current_iff, opening_eq_armed_iff]

/-- Behind prose no first paragraph is due. -/
theorem line_ne_prose_of_isDue {lines : List Text} {place : Nat}
    (due : beginning.IsDue (beginning.kinds lines) place) : (beginning.after lines).line ≠ .prose := by
  intro prose
  cases lines using List.reverseRecOn with
  | nil =>
    rw [line_after] at prose
    cases prose
  | append_singleton lines raw =>
    rw [kinds_concat, prose, isDue_concat_iff] at due
    rcases due with ⟨_, other⟩ | ⟨_, tag, same, _⟩
    · exact other rfl
    · cases same

/-- A first paragraph begins at the beginning, behind a blank line or behind a tag. -/
theorem startsParagraph_of_isFirstParagraph (beginning : Beginning) (lines : List Text) (raw : Text)
    (first : (beginning.after (lines ++ [raw])).isFirstParagraph = true) :
    (beginning.after (lines ++ [raw])).startsParagraph = true := by
  obtain ⟨_, place, due⟩ := (isFirstParagraph_iff ..).mp first
  have apart := line_ne_prose_of_isDue due
  rw [Context.startsParagraph, previous_after_concat]
  cases kind : (beginning.after lines).line with
  | prose => exact absurd kind apart
  | blank | tagged => rfl

/-! ### One first paragraph for each place -/

/-- Whether the line with a number opens the first paragraph that has been watched for from a
place on. -/
structure Answers (beginning : Beginning) (lines : List Text) (number place : Nat) : Prop where
  inside : number < lines.length
  opens : (beginning.after (lines.take (number + 1))).isFirstParagraph = true
  due : beginning.IsDue (beginning.kinds (lines.take number)) place

variable {lines : List Text} {number other place : Nat}

/-- Once the first paragraph has been opened it is not due any more. -/
theorem Answers.not_due_behind (answers : beginning.Answers lines number place)
    (behind : number < other) : ¬beginning.IsDue (beginning.kinds (lines.take other)) place := by
  rintro ⟨_, clear⟩
  have front : place ≤ number := by
    have bound := answers.due.1.le
    rwa [length_kinds, List.length_take_of_le answers.inside.le] at bound
  have opens := answers.opens
  rw [List.take_succ_eq_append_getElem answers.inside] at opens
  have prose : (beginning.kinds lines)[number]? = some .prose := by
    rw [getElem?_kinds beginning answers.inside, List.take_succ_eq_append_getElem answers.inside,
      ((isFirstParagraph_iff ..).mp opens).1]
  refine clear (List.mem_of_getElem? (i := number - place) ?_)
  rw [List.getElem?_drop, Nat.add_sub_cancel' front, kinds_take, List.getElem?_take_of_lt behind,
    prose]

/-- A place where the watch has been set accounts for one first paragraph at most. -/
theorem Answers.number_eq (one : beginning.Answers lines number place)
    (two : beginning.Answers lines other place) : number = other := by
  rcases Nat.lt_trichotomy number other with before | same | behind
  · exact absurd two.due (one.not_due_behind before)
  · exact same
  · exact absurd one.due (two.not_due_behind behind)

/-- A line opens a first paragraph exactly if it is prose and there is a place in front of it
where the watch for one has been set, with no prose in between; such a line always begins a
paragraph. Each of these places accounts for one first paragraph at most. -/
theorem firstParagraphs_answer_places (beginning : Beginning) (lines : List Text) :
    (∀ number, number < lines.length →
        let here := beginning.after (lines.take (number + 1))
        (here.isFirstParagraph = true ↔
            here.line = .prose ∧
              ∃ place, beginning.IsDue (beginning.kinds (lines.take number)) place) ∧
          (here.isFirstParagraph = true → here.startsParagraph = true)) ∧
      ∀ place number other, beginning.Answers lines number place →
        beginning.Answers lines other place → number = other := by
  refine ⟨fun number inside => ?_, fun place number other => Answers.number_eq⟩
  rw [List.take_succ_eq_append_getElem inside]
  exact ⟨isFirstParagraph_iff .., startsParagraph_of_isFirstParagraph _ _ _⟩

/-- Two tags stacked with an author and a blank line between them account for one and the same
first paragraph. -/
theorem firstParagraphs_answer_places_behind_stacked_tags :
    let lines := ["Title: One", "Author: Two", "", "Chapter: Three", "Ink", "runs", "", "on"].map
      String.toList
    let here := furtherFile.after (lines.take 5)
    4 < lines.length ∧ here.isFirstParagraph = true ∧ here.startsParagraph = true ∧
      ∀ place, place = 1 ∨ place = 4 →
        furtherFile.Answers lines 4 place ∧
          ∀ other, furtherFile.Answers lines other place → 4 = other := by
  intro lines here
  have inside : 4 < lines.length := by decide
  have first : here.isFirstParagraph = true := by decide +kernel
  have kinds : furtherFile.kinds (lines.take 4) =
      [.tagged .title, .tagged .author, .blank, .tagged .chapter] := by decide +kernel
  obtain ⟨each, once⟩ := firstParagraphs_answer_places furtherFile lines
  refine ⟨inside, first, (each 4 inside).2 first, fun place at_ => ?_⟩
  have answers : furtherFile.Answers lines 4 place := by
    refine ⟨inside, first, ?_⟩
    rw [kinds]
    rcases at_ with rfl | rfl
    · exact ⟨⟨.title, rfl, by decide⟩, by decide⟩
    · exact ⟨⟨.chapter, rfl, by decide⟩, by decide⟩
  exact ⟨answers, fun other => once place 4 other answers⟩

end Beginning

end Manuscript
