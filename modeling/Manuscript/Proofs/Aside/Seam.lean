/-
This file is about cutting a line in two without changing what it means. Which marks are
live at a place depends on the whole run of hashes around it and on the backslashes in
front, so in general a mark behind a cut can change its meaning. A seam is a cut where
none does: no run of hashes is divided other than at a full mark, and no unpaired
backslash is cut off from what it escapes.
-/

import Mathlib.Data.List.TakeWhile
import Mathlib.Tactic.Common
import Manuscript.Proofs.Aside.Marks

namespace Manuscript

namespace Text

/-! ### Runs in a text that is put together -/

/-- Behind a piece a text has the characters of what follows the piece. -/
theorem getElem?_append_length (piece rest : Text) (place : Nat) :
    (piece ++ rest)[piece.length + place]? = rest[place]? := by
  rw [List.getElem?_append_right (Nat.le_add_right _ _), Nat.add_sub_cancel_left]

theorem runFrom_append (character : Char) (piece rest : Text) (place : Nat) :
    runFrom character (piece ++ rest) (piece.length + place) = runFrom character rest place := by
  rw [runFrom, List.drop_length_add_append, runFrom]

/-- A run of a character does not go on in a text that begins with another one. -/
theorem runFrom_append_of_head?_ne {character : Char} (piece : Text) {rest : Text} {place : Nat}
    (inside : place ≤ piece.length) (apart : rest.head? ≠ some character) :
    runFrom character (piece ++ rest) place = runFrom character piece place := by
  have stops : rest.takeWhile (· == character) = [] := by
    cases rest with
    | nil => rfl
    | cons first rest =>
      refine List.takeWhile_cons_of_neg fun same => apart ?_
      rw [List.head?_cons, beq_iff_eq.mp same]
  rw [runFrom, runFrom, List.drop_append_of_le_length inside, List.takeWhile_append, stops,
    List.append_nil]
  split
  · rename_i whole
    exact whole.symm
  · rfl

/-- A run that reaches back to the beginning of the second text goes on in the first. -/
theorem runBefore_append (character : Char) (piece rest : Text) (place : Nat)
    (inside : place ≤ rest.length) :
    runBefore character (piece ++ rest) (piece.length + place) =
      if runBefore character rest place = place then
        place + runBefore character piece piece.length
      else runBefore character rest place := by
  have taken : (rest.take place).reverse.length = place := by
    rw [List.length_reverse, List.length_take, Nat.min_eq_left inside]
  simp only [runBefore, List.take_length_add_append, List.reverse_append, List.takeWhile_append,
    taken, List.take_length]
  split
  · rw [List.length_append, taken]
  · rfl

theorem runBefore_append_of_le (character : Char) (piece rest : Text) (place : Nat)
    (inside : place ≤ piece.length) :
    runBefore character (piece ++ rest) place = runBefore character piece place := by
  rw [runBefore, List.take_append_of_le_length inside, runBefore]

theorem runBefore_le (character : Char) (line : Text) (place : Nat) :
    runBefore character line place ≤ place := by
  refine le_trans (List.takeWhile_sublist _).length_le ?_
  rw [List.length_reverse, List.length_take]
  exact Nat.min_le_left _ _

theorem runBefore_zero (character : Char) (line : Text) : runBefore character line 0 = 0 :=
  Nat.le_zero.mp (runBefore_le character line 0)

/-- A text does not end in a character that it does not hold. -/
theorem runBefore_length_of_not_mem {character : Char} {text : Text} (free : character ∉ text) :
    runBefore character text text.length = 0 := by
  rw [runBefore, List.take_length, List.length_eq_zero_iff, List.takeWhile_eq_nil_iff]
  intro inside
  rw [beq_iff_eq]
  exact fun same => free (List.mem_reverse.mp (same ▸ List.get_mem _ _))

/-- Before a place that only the character stands in front of, the line is that character. -/
theorem take_of_runBefore_eq (character : Char) (line : Text) (place : Nat)
    (inside : place ≤ line.length) (full : runBefore character line place = place) :
    line.take place = List.replicate place character := by
  have all : ∀ other ∈ (line.take place).reverse, (other == character) = true := by
    rw [← List.takeWhile_eq_self_iff]
    refine (List.takeWhile_sublist _).eq_of_length ?_
    rw [List.length_reverse, List.length_take, Nat.min_eq_left inside]
    exact full
  refine List.eq_replicate_iff.mpr ⟨?_, ?_⟩
  · rw [List.length_take, Nat.min_eq_left inside]
  · intro other member
    exact beq_iff_eq.mp (all other (List.mem_reverse.mpr member))

theorem head?_of_runBefore_eq (character : Char) (line : Text) (place : Nat)
    (inside : place ≤ line.length) (positive : 0 < place)
    (full : runBefore character line place = place) : line.head? = some character := by
  have taken := take_of_runBefore_eq character line place inside full
  have head : (line.take place).head? = line.head? := by
    cases line with
    | nil => simp
    | cons first rest =>
      cases place with
      | zero => exact absurd positive (Nat.lt_irrefl 0)
      | succ place => rfl
  rw [← head, taken]
  cases place with
  | zero => exact absurd positive (Nat.lt_irrefl 0)
  | succ place => rfl

/-- The run at the beginning of a line holds whatever of it stands in front of a place and
from there on. -/
theorem runFrom_zero_of_runBefore_eq (character : Char) (line : Text) (place : Nat)
    (inside : place ≤ line.length) (full : runBefore character line place = place) :
    runFrom character line 0 = place + runFrom character line place := by
  have taken := take_of_runBefore_eq character line place inside full
  simp only [runFrom, List.drop_zero]
  conv_lhs => rw [← List.take_append_drop place line, taken]
  rw [List.takeWhile_append_of_pos (by simp), List.length_append, List.length_replicate]

theorem runFrom_pos (character : Char) (text : Text) (place : Nat)
    (here : text[place]? = some character) : 0 < runFrom character text place := by
  obtain ⟨inside, equal⟩ := List.getElem?_eq_some_iff.mp here
  simp only [runFrom, List.drop_eq_getElem_cons inside, equal, List.takeWhile_cons, beq_self_eq_true,
    if_true, List.length_cons]
  exact Nat.succ_pos _

end Text

namespace Mark

/-! ### Seams -/

theorem inRun?_add_three (length offset : Nat) :
    inRun? (3 + length) (3 + offset) = inRun? length offset := by
  simp only [inRun?, Nat.add_mod_left]
  congr 1
  simp only [show (3 + offset + 3 ≤ 3 + length) = (offset + 3 ≤ length) by
      apply propext; omega,
    show (3 + offset + 2 = 3 + length) = (offset + 2 = length) by apply propext; omega]

theorem inRunBehind?_congr (slashes others length offset : Nat)
    (parity : slashes % 2 = others % 2) :
    inRunBehind? slashes length offset = inRunBehind? others length offset := by
  simp only [inRunBehind?, parity]

/-- A place where a line can be cut without any mark behind it changing. Backslashes at the
end of the piece have to be paired where what follows could be escaped by one, and a run of
hashes that the cut divides has to be read from there as if it began there. -/
structure Seam (piece rest : Text) : Prop where
  slashes : Text.runBefore '\\' piece piece.length % 2 = 1 →
    rest.head? ≠ some '\\' ∧ rest.head? ≠ some '[' ∧ rest.head? ≠ some ']'
  hashes : ∀ offset < Text.runFrom '#' rest 0,
    let trailing := Text.runBefore '#' piece piece.length
    inRunBehind? (Text.runBefore '\\' piece (piece.length - trailing))
      (trailing + Text.runFrom '#' rest 0) (trailing + offset) =
        inRun? (Text.runFrom '#' rest 0) offset

/-- Cutting at a seam changes whether the backslashes in front of a place are paired only
where none of the characters that care for it stands. -/
theorem Seam.runBefore_slash {piece rest : Text} (seam : Seam piece rest) (place : Nat)
    (inside : place ≤ rest.length)
    (cares : 0 < place ∨ rest.head? = some '[' ∨ rest.head? = some ']') :
    Text.runBefore '\\' (piece ++ rest) (piece.length + place) % 2 =
      Text.runBefore '\\' rest place % 2 := by
  rw [Text.runBefore_append _ _ _ _ inside]
  split
  · rename_i full
    have paired : Text.runBefore '\\' piece piece.length % 2 = 0 := by
      by_contra unpaired
      obtain ⟨noSlash, noOpen, noClose⟩ := seam.slashes (by omega)
      rcases cares with positive | opens | closes
      · exact noSlash (Text.head?_of_runBefore_eq _ _ _ inside positive full)
      · exact noOpen opens
      · exact noClose closes
    rw [full, Nat.add_mod, paired, Nat.add_zero, Nat.mod_mod]
  · rfl

/-- A hash behind a seam is read like in the rest alone. -/
theorem at?_append_hash {piece rest : Text} (seam : Seam piece rest) (place : Nat)
    (here : rest[place]? = some '#') :
    at? (piece ++ rest) (piece.length + place) = at? rest place := by
  have inside : place < rest.length := (List.getElem?_eq_some_iff.mp here).1
  have same : (piece ++ rest)[piece.length + place]? = some '#' :=
    (Text.getElem?_append_length piece rest place).trans here
  have offset := Text.runBefore_append '#' piece rest place inside.le
  simp only [at?, same, here, Text.runFrom_append]
  by_cases full : Text.runBefore '#' rest place = place
  · -- The run reaches back into the piece, so all of the rest before the place is in it.
    have whole := Text.runFrom_zero_of_runBefore_eq '#' rest place inside.le full
    have positive := Text.runFrom_pos '#' rest place here
    have divided := seam.hashes place (by omega)
    have trailing := Text.runBefore_le '#' piece piece.length
    have start : piece.length + place - (place + Text.runBefore '#' piece piece.length) =
        piece.length - Text.runBefore '#' piece piece.length := by
      omega
    rw [if_pos full] at offset
    rw [offset, full, start, Nat.sub_self, Text.runBefore_zero,
      Text.runBefore_append_of_le '\\' piece rest _ (Nat.sub_le _ _), ← whole]
    rw [show place + Text.runBefore '#' piece piece.length + Text.runFrom '#' rest place =
        Text.runBefore '#' piece piece.length + Text.runFrom '#' rest 0 by omega,
      show place + Text.runBefore '#' piece piece.length =
        Text.runBefore '#' piece piece.length + place by omega]
    exact divided
  · -- The run begins within the rest, and only the backslashes in front of it can reach back.
    have shorter := Text.runBefore_le '#' rest place
    rw [if_neg full] at offset
    rw [offset, Nat.add_sub_assoc shorter]
    exact inRunBehind?_congr _ _ _ _ (seam.runBefore_slash _ (by omega) (Or.inl (by omega)))

theorem at?_eq_none (text : Text) (place : Nat) (hash : text[place]? ≠ some '#')
    (opens : text[place]? ≠ some '[') (closes : text[place]? ≠ some ']') :
    at? text place = none := by
  unfold at?
  split <;> first | contradiction | rfl

/-- The marks behind a seam are those of the rest alone. -/
theorem at?_append {piece rest : Text} (seam : Seam piece rest) (place : Nat)
    (inside : place < rest.length) :
    at? (piece ++ rest) (piece.length + place) = at? rest place := by
  have same := Text.getElem?_append_length piece rest place
  have bracket : rest[place]? = some '[' ∨ rest[place]? = some ']' →
      Text.runBefore '\\' (piece ++ rest) (piece.length + place) % 2 =
        Text.runBefore '\\' rest place % 2 := by
    intro here
    refine seam.runBefore_slash place inside.le ?_
    rcases Nat.eq_zero_or_pos place with rfl | positive
    · rw [← List.head?_eq_getElem?] at here
      exact Or.inr here
    · exact Or.inl positive
  by_cases hash : rest[place]? = some '#'
  · exact at?_append_hash seam place hash
  by_cases opens : rest[place]? = some '['
  · simp only [at?, same, opens, bracket (Or.inl opens)]
  by_cases closes : rest[place]? = some ']'
  · simp only [at?, same, closes, bracket (Or.inr closes)]
  rw [at?_eq_none rest place hash opens closes,
    at?_eq_none _ _ (same ▸ hash) (same ▸ opens) (same ▸ closes)]

/-- A mark can be changed from behind only by a run of hashes that goes on there. -/
theorem at?_append_left {piece rest : Text} {place : Nat} (inside : place < piece.length)
    (run : Text.runFrom '#' (piece ++ rest) place = Text.runFrom '#' piece place) :
    at? (piece ++ rest) place = at? piece place := by
  have same : (piece ++ rest)[place]? = piece[place]? := List.getElem?_append_left inside
  have before (character : Char) (place : Nat) (inside : place ≤ piece.length) :=
    Text.runBefore_append_of_le character piece rest place inside
  unfold at?
  rw [same]
  split
  · simp only [run, before '#' place inside.le, before '\\' _ ((Nat.sub_le _ _).trans inside.le)]
  · rw [before '\\' place inside.le]
  · rw [before '\\' place inside.le]
  · rfl

theorem lt_of_mem_ofLine {line : Text} {entry : Nat × Mark} (member : entry ∈ ofLine line) :
    entry.1 < line.length := by
  obtain ⟨place, inside, here⟩ := List.mem_filterMap.mp member
  obtain ⟨mark, _, rfl⟩ := Option.map_eq_some_iff.mp here
  exact List.mem_range.mp inside

end Mark

end Manuscript
