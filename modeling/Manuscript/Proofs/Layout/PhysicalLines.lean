/-
This file says what the physical lines of a line are, without saying how they are found.
They are no wider than the page, none but the last is empty, and joined with one space or
with nothing at each break they are the line again. Nothing is put between them only behind
a hyphen or at a cut, and what was left in front of a cut had no place to break at. At every
break all that fits stays in front of it: no space or hyphen that the line could have been
broken at is behind it.

How they are found is looked at only to see that it comes to an end and never goes behind
the end of what is left: a round of breaking that checks every place before it is looked at
or used up has the same outcome.
-/

import Manuscript.Proofs.Layout.Breaks

namespace Manuscript

/-! ### Breaking with every place checked -/

namespace Break

/-- Looks for a break from a place down to the second character of a line. There is no answer
if a place to look at is behind the end of the line, and no break in the answer if none of
the characters allows one. -/
def search? (width : Nat) (text : Text) : (place : Nat) → Option (Option Break)
  | 0 => some none
  | place + 1 =>
    match text[place + 1]? with
    | none => none
    | some character =>
      match at? width (place + 1) character with
      | some found => some (some found)
      | none => search? width text place

theorem last?_concat (width place : Nat) (text : Text) (character : Char) :
    last? width place (text ++ [character]) =
      match at? width (place + text.length) character with
      | some found => some found
      | none => last? width place text := by
  induction text generalizing place with
  | nil =>
    rw [List.nil_append, last?, List.length_nil, Nat.add_zero, last?]
    cases at? width place character <;> rfl
  | cons first rest inductionHypothesis =>
    rw [List.cons_append, last?, inductionHypothesis, List.length_cons, Nat.add_right_comm,
      ← Nat.add_assoc, last?]
    cases at? width (place + rest.length + 1) character with
    | none => rfl
    | some found => rfl

/-- In a line that is long enough every place that is looked at is there. -/
theorem search?_eq (width : Nat) (text : Text) {place : Nat} (inside : place < text.length) :
    search? width text place = some (last? width 1 ((text.drop 1).take place)) := by
  induction place with
  | zero => rfl
  | succ place inductionHypothesis =>
    have here : text[place + 1]? = some text[place + 1] := List.getElem?_eq_getElem inside
    have next : (text.drop 1)[place]? = some text[place + 1] := by
      rw [List.getElem?_drop, Nat.add_comm, here]
    have window : ((text.drop 1).take place).length = place := by
      rw [List.length_take, List.length_drop]
      omega
    rw [search?, List.take_add_one, next, Option.toList_some, last?_concat, window, here,
      Nat.add_comm 1]
    simp only
    split
    · rfl
    · exact inductionHypothesis (Nat.lt_of_succ_lt inside)

end Break

namespace Layout

/-- The physical lines of a line, found in no more than so many rounds. There is no answer if
the rounds do not suffice, or if a place that is looked at, kept or used up is behind the end
of what is left of the line. -/
def wrapChecked? (width : Nat) (wide : 0 < width) : (rounds : Nat) → Text → Option (List Text)
  | 0, _ => none
  | rounds + 1, line =>
    if width < line.length then
      match Break.search? width line width with
      | none => none
      | some found =>
        let place := found.getD ⟨width, width, wide⟩
        if place.kept ≤ line.length ∧ place.used ≤ line.length then
          (wrapChecked? width wide rounds (line.drop place.used)).map (line.take place.kept :: ·)
        else none
    else some [line]

/-- A round for each character and one more suffice, and no place is behind the end. -/
theorem wrapChecked?_eq {width rounds : Nat} (wide : 0 < width) {line : Text}
    (enough : line.length < rounds) :
    wrapChecked? width wide rounds line = some (wrapWithin width wide line) := by
  induction rounds generalizing line with
  | zero => exact absurd enough (Nat.not_lt_zero _)
  | succ rounds inductionHypothesis =>
    rw [wrapChecked?, wrapWithin]
    split
    · rename_i long
      have chosen : (Break.last? width 1 ((line.drop 1).take width)).getD ⟨width, width, wide⟩ =
          Break.ofLine width wide line := by
        rw [Break.ofLine]
        cases Break.last? width 1 ((line.drop 1).take width) <;> rfl
      have allowed := Break.allowed_ofLine wide long
      have shorter : (line.drop (Break.ofLine width wide line).used).length < rounds := by
        have := (Break.ofLine width wide line).used_pos
        rw [List.length_drop]
        omega
      simp only [Break.search?_eq width line long, chosen]
      rw [if_pos ⟨allowed.kept_le.trans long.le, allowed.used_le_length⟩,
        inductionHypothesis shorter, Option.map_some]
    · rfl

/-! ### The rules for a break -/

/-- What the rules ask of a break, by the physical line in front of it, what is dropped at it,
and what is left behind it. -/
structure IsBreak (width : Nat) (piece gap rest : Text) : Prop where
  /-- A break is made only where more than the width is left. -/
  long : width < (piece ++ gap ++ rest).length
  solid : piece ≠ []
  narrow : piece.length ≤ width
  /-- One space is dropped, or nothing. It is nothing only behind a hyphen, or at exactly the
  width where there is no place to break at. -/
  dropped : gap = [' '] ∨ gap = [] ∧ (piece.getLast? = some '-' ∨
    piece.length = width ∧ ∀ place, ¬Break.IsPlace width (piece ++ gap ++ rest) place)
  /-- No place to break at is left behind the break. -/
  last : ∀ place, Break.IsPlace width (piece ++ gap ++ rest) place → place < (piece ++ gap).length

/-- The physical lines that the rules divide a line into. -/
inductive Divided (width : Nat) : Text → List Text → Prop
  | last {piece : Text} (narrow : piece.length ≤ width) : Divided width piece [piece]
  | next {piece gap rest : Text} {pieces : List Text} (isBreak : IsBreak width piece gap rest)
      (behind : Divided width rest pieces) : Divided width (piece ++ gap ++ rest) (piece :: pieces)

/-- A line is what stays in front of a break that it allows, a space or nothing, and what is
left behind the break. -/
theorem exists_gap {width kept used : Nat} {line : Text}
    (allowed : Break.Allowed width line kept used) :
    ∃ gap, line.take kept ++ gap ++ line.drop used = line ∧
      (line.take kept ++ gap).length = used ∧
      (gap = [' '] ∨ gap = [] ∧ ((line.take kept).getLast? = some '-' ∨
        (line.take kept).length = width ∧ ∀ place, ¬Break.IsPlace width line place)) := by
  have inside := allowed.used_le_length
  cases allowed with
  | @space place first within here =>
    obtain ⟨there, space⟩ := List.getElem?_eq_some_iff.mp here
    refine ⟨[' '], ?_, ?_, Or.inl rfl⟩
    · rw [List.append_assoc, List.singleton_append, ← space, ← List.drop_eq_getElem_cons there,
        List.take_append_drop]
    · rw [List.length_append, List.length_take, Nat.min_eq_left there.le, List.length_singleton]
  | @hyphen place first within here =>
    refine ⟨[], ?_, ?_, Or.inr ⟨rfl, Or.inl ?_⟩⟩
    · rw [List.append_nil, List.take_append_drop]
    · rw [List.append_nil, List.length_take, Nat.min_eq_left inside]
    · rw [List.getLast?_take, if_neg (Nat.succ_ne_zero place), Nat.add_sub_cancel, here]
      rfl
  | cut long nowhere =>
    have whole : (line.take width).length = width := by
      rw [List.length_take, Nat.min_eq_left inside]
    refine ⟨[], ?_, ?_, Or.inr ⟨rfl, Or.inr ⟨whole, nowhere⟩⟩⟩
    · rw [List.append_nil, List.take_append_drop]
    · rw [List.append_nil, whole]

/-- The chosen break is what the rules ask for. -/
theorem isBreak_ofLine {width : Nat} (wide : 0 < width) {line : Text} (long : width < line.length) :
    ∃ gap, let chosen := Break.ofLine width wide line
      line.take chosen.kept ++ gap ++ line.drop chosen.used = line ∧
        IsBreak width (line.take chosen.kept) gap (line.drop chosen.used) := by
  have allowed := Break.allowed_ofLine wide long
  obtain ⟨gap, whole, used, rule⟩ := exists_gap allowed
  refine ⟨gap, whole, ?_, ?_, ?_, ?_, ?_⟩
  · rw [whole]
    exact long
  · refine List.ne_nil_of_length_pos ?_
    rw [List.length_take]
    exact Nat.lt_min.mpr ⟨allowed.kept_pos wide, by omega⟩
  · exact (List.length_take_le _ _).trans allowed.kept_le
  · rw [whole]
    exact rule
  · rw [whole, used]
    exact fun place => Break.lt_used_ofLine wide long

theorem divided_wrapWithin (width : Nat) (wide : 0 < width) (line : Text) :
    Divided width line (wrapWithin width wide line) := by
  fun_induction wrapWithin width wide line with
  | case1 line long place inductionHypothesis =>
    obtain ⟨gap, whole, isBreak⟩ := isBreak_ofLine wide long
    have divided := Divided.next isBreak inductionHypothesis
    rw [whole] at divided
    exact divided
  | case2 line short => exact .last (Nat.le_of_not_lt short)

theorem Divided.ne_nil {width : Nat} {line : Text} {pieces : List Text}
    (divided : Divided width line pieces) : pieces ≠ [] := by
  cases divided <;> exact List.cons_ne_nil _ _

theorem Divided.narrow {width : Nat} {line : Text} {pieces : List Text}
    (divided : Divided width line pieces) : ∀ piece ∈ pieces, piece.length ≤ width := by
  induction divided with
  | last narrow => exact List.forall_mem_singleton.mpr narrow
  | next isBreak behind inductionHypothesis =>
    exact List.forall_mem_cons.mpr ⟨isBreak.narrow, inductionHypothesis⟩

/-- Only the last physical line can be empty. -/
theorem Divided.solid {width : Nat} {line : Text} {pieces : List Text}
    (divided : Divided width line pieces) : ∀ piece ∈ pieces.dropLast, piece ≠ [] := by
  induction divided with
  | last narrow => exact fun piece member => absurd member List.not_mem_nil
  | next isBreak behind inductionHypothesis =>
    rw [List.dropLast_cons_of_ne_nil behind.ne_nil]
    exact List.forall_mem_cons.mpr ⟨isBreak.solid, inductionHypothesis⟩

/-- Breaking a line comes to an end and never looks behind the end of what is left of it. The
physical lines are no wider than asked for, where a width of zero counts as one, none but the
last is empty, and they are what the rules divide the line into: joined with what was dropped
at the breaks they are the line, and every break is where the rules ask for it. -/
theorem wrap_divides (width : Nat) (line : Text) :
    let page := max width 1
    wrapChecked? page (Nat.le_max_right width 1) (line.length + 1) line = some (wrap width line) ∧
      (∀ piece ∈ wrap width line, piece.length ≤ page) ∧
      (∀ piece ∈ (wrap width line).dropLast, piece ≠ []) ∧
      Divided page line (wrap width line) := by
  intro page
  have divided : Divided page line (wrap width line) := divided_wrapWithin _ _ line
  exact ⟨wrapChecked?_eq _ (Nat.lt_succ_self _), divided.narrow, divided.solid, divided⟩

/-- A space behind the width, a hyphen, and a word that has to be cut. -/
example : wrap 4 "dark well-lit abcdefg".toList =
    ["dark", "well", "-lit", "abcd", "efg"].map String.toList := by
  cbv

end Layout

end Manuscript
