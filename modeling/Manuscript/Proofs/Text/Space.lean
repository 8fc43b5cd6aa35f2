/-
This file is about the white space of a line: what trimming leaves, and that the words of
a line are nothing exactly when the line is blank. Between the words of a line there is
never anything but single spaces, so no character that could end a line is among them.
-/

import Mathlib.Data.List.TakeWhile
import Mathlib.Tactic.Common
import Manuscript.Text.Basic

namespace Manuscript.Text

/-! ### Blank texts -/

theorem isBlank_iff (text : Text) :
    text.isBlank = true ↔ ∀ character ∈ text, isSpace character = true :=
  List.all_eq_true

theorem isBlank_append (first second : Text) :
    isBlank (first ++ second) = (first.isBlank && second.isBlank) :=
  List.all_append

theorem isBlank_of_sublist {part text : Text} (within : part.Sublist text)
    (blank : text.isBlank = true) : part.isBlank = true :=
  (isBlank_iff part).mpr fun character member =>
    (isBlank_iff text).mp blank character (within.mem member)

/-! ### Trimming -/

theorem trimStart_eq_nil_iff (text : Text) : trimStart text = [] ↔ text.isBlank = true := by
  rw [trimStart, List.dropWhile_eq_nil_iff, isBlank_iff]

theorem trimEnd_eq_nil_iff (text : Text) : trimEnd text = [] ↔ text.isBlank = true := by
  rw [trimEnd, List.reverse_eq_nil_iff, List.dropWhile_eq_nil_iff, isBlank_iff]
  simp only [List.mem_reverse]

theorem isSpace_head?_trimStart (text : Text) {character : Char}
    (here : (trimStart text).head? = some character) : isSpace character = false := by
  have stops := List.head?_dropWhile_not isSpace text
  rw [trimStart] at here
  rw [here] at stops
  simpa using stops

theorem trimStart_sublist (text : Text) : (trimStart text).Sublist text :=
  List.dropWhile_sublist _

theorem trimEnd_sublist (text : Text) : (trimEnd text).Sublist text := by
  have reversed := (List.dropWhile_sublist isSpace (l := text.reverse)).reverse
  rwa [List.reverse_reverse] at reversed

theorem trim_sublist (text : Text) : (trim text).Sublist text :=
  (trimEnd_sublist _).trans (trimStart_sublist text)

theorem isBlank_takeWhile (text : Text) : isBlank (text.takeWhile isSpace) = true :=
  (isBlank_iff _).mpr fun _ member => List.mem_takeWhile_imp member

/-- A text is what is left of it when its end is trimmed, and white space. -/
theorem exists_eq_trimEnd (text : Text) :
    ∃ tail : Text, tail.isBlank = true ∧ text = trimEnd text ++ tail := by
  refine ⟨(text.reverse.takeWhile isSpace).reverse, ?_, ?_⟩
  · rw [isBlank, List.all_reverse]
    exact isBlank_takeWhile _
  · rw [trimEnd, ← List.reverse_append, List.takeWhile_append_dropWhile, List.reverse_reverse]

/-- A text is white space, what is left of it when it is trimmed, and white space again. -/
theorem exists_eq_trim (text : Text) : ∃ front back : Text,
    front.isBlank = true ∧ back.isBlank = true ∧ text = front ++ trim text ++ back := by
  obtain ⟨back, blank, whole⟩ := exists_eq_trimEnd (trimStart text)
  refine ⟨text.takeWhile isSpace, back, isBlank_takeWhile text, blank, ?_⟩
  rw [List.append_assoc, trim, ← whole]
  exact List.takeWhile_append_dropWhile.symm

/-- Nothing is left of a text exactly when it was blank. -/
theorem trim_eq_nil_iff (text : Text) : trim text = [] ↔ text.isBlank = true := by
  obtain ⟨front, back, blankFront, blankBack, whole⟩ := exists_eq_trim text
  constructor
  · intro empty
    rw [whole, empty, List.append_nil, isBlank_append, blankFront, blankBack]
    rfl
  · intro blank
    rw [trim, trimEnd_eq_nil_iff, (trimStart_eq_nil_iff text).mpr blank]
    rfl

/-! ### The words of a line -/

theorem squeeze_false_eq_nil_iff (text : Text) : squeeze false text = [] ↔ text = [] := by
  cases text with
  | nil => exact iff_of_true rfl rfl
  | cons character rest =>
    refine iff_of_false ?_ (List.cons_ne_nil _ _)
    rw [squeeze]
    split
    · rw [if_neg Bool.false_ne_true]
      exact List.cons_ne_nil _ _
    · exact List.cons_ne_nil _ _

/-- A line has words exactly when it is not blank. -/
theorem tidy_eq_nil_iff (line : Text) : tidy line = [] ↔ line.isBlank = true := by
  rw [tidy, squeeze_false_eq_nil_iff, trim_eq_nil_iff]

theorem eq_space_of_mem_squeeze {inRun : Bool} {text : Text} {character : Char}
    (member : character ∈ squeeze inRun text) (space : isSpace character = true) :
    character = ' ' := by
  fun_induction squeeze inRun text with
  | case1 => cases member
  | case2 first rest white inductionHypothesis => exact inductionHypothesis member
  | case3 inRun first rest white fresh inductionHypothesis =>
    rcases List.mem_cons.mp member with rfl | behind
    · rfl
    · exact inductionHypothesis behind
  | case4 inRun first rest solid inductionHypothesis =>
    rcases List.mem_cons.mp member with rfl | behind
    · exact absurd space solid
    · exact inductionHypothesis behind

/-- The only white space between the words of a line is the space itself. -/
theorem eq_space_of_mem_tidy {line : Text} {character : Char}
    (member : character ∈ tidy line) (space : isSpace character = true) : character = ' ' :=
  eq_space_of_mem_squeeze member space

/-! ### White space at the end of a line -/

theorem isBlank_append_of_isBlank (text : Text) {tail : Text} (blank : tail.isBlank = true) :
    isBlank (text ++ tail) = text.isBlank := by
  rw [isBlank_append, blank, Bool.and_true]

theorem trimEnd_append_of_isBlank (text : Text) {tail : Text} (blank : tail.isBlank = true) :
    trimEnd (text ++ tail) = trimEnd text := by
  have gone : tail.reverse.dropWhile isSpace = [] :=
    List.reverse_eq_nil_iff.mp ((trimEnd_eq_nil_iff tail).mpr blank)
  rw [trimEnd, trimEnd, List.reverse_append, List.dropWhile_append, gone]
  rfl

theorem trim_append_of_isBlank (text : Text) {tail : Text} (blank : tail.isBlank = true) :
    trim (text ++ tail) = trim text := by
  have gone : tail.dropWhile isSpace = [] := (trimStart_eq_nil_iff tail).mpr blank
  rw [trim, trim, trimStart, List.dropWhile_append]
  split
  · rename_i empty
    rw [gone, trimStart, List.isEmpty_iff.mp empty]
  · exact trimEnd_append_of_isBlank _ blank

/-- White space behind a line is no part of its words. -/
theorem tidy_append_of_isBlank (line : Text) {tail : Text} (blank : tail.isBlank = true) :
    tidy (line ++ tail) = tidy line := by
  rw [tidy, trim_append_of_isBlank line blank, tidy]

/-- What white space behind a text makes no difference to is the same for texts that differ in
nothing else. -/
theorem congr_of_trimEnd {Value : Type} (view : Text → Value)
    (apart : ∀ (text : Text) {tail : Text}, tail.isBlank = true → view (text ++ tail) = view text)
    {text other : Text} (same : trimEnd text = trimEnd other) : view text = view other := by
  have trimmed (text : Text) : view text = view (trimEnd text) := by
    obtain ⟨tail, blank, whole⟩ := exists_eq_trimEnd text
    conv_lhs => rw [whole, apart _ blank]
  rw [trimmed text, same, ← trimmed other]

theorem trimEnd_append_congr (front : Text) {text other : Text}
    (same : trimEnd text = trimEnd other) : trimEnd (front ++ text) = trimEnd (front ++ other) := by
  refine congr_of_trimEnd (fun text => trimEnd (front ++ text)) (fun text tail blank => ?_) same
  rw [← List.append_assoc, trimEnd_append_of_isBlank _ blank]

/-! ### What is not white space -/

/-- The characters of a text that are not white space. -/
def ink (text : Text) : Text :=
  text.filter fun character => !isSpace character

theorem ink_append (first second : Text) : ink (first ++ second) = ink first ++ ink second :=
  List.filter_append first second

theorem ink_flatten (texts : List Text) : ink texts.flatten = texts.flatMap ink := by
  rw [ink, List.filter_flatten, List.flatMap_def]
  rfl

theorem ink_eq_nil_of_isBlank {text : Text} (blank : text.isBlank = true) : ink text = [] := by
  refine List.filter_eq_nil_iff.mpr fun character member => ?_
  rw [(isBlank_iff text).mp blank character member]
  exact Bool.false_ne_true

end Manuscript.Text
