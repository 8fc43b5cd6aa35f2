/-
This file says at which of its places a line is broken. A line can be broken at a space up
to the width, which is dropped, and behind a hyphen in front of the width; where there is
neither, a line that is too long can be cut at the width. The break that is chosen is one
of these, and no other one uses up more of the line. What is said about the physical lines
of a line follows from these two facts.
-/

import Mathlib.Order.Nat
import Mathlib.Tactic.Common
import Manuscript.Layout.Wrap

namespace Manuscript.Break

/-! ### Places to break at -/

/-- A place that a line can be broken at: a space up to the width, or a hyphen in front of
it. The place at the beginning of the line is none. -/
def IsPlace (width : Nat) (text : Text) (place : Nat) : Prop :=
  0 < place ∧ (text[place]? = some ' ' ∧ place ≤ width ∨ text[place]? = some '-' ∧ place < width)

/-- The breaks that a line allows, by how many characters stay in front of them and how many
are used up together with them. -/
inductive Allowed (width : Nat) (text : Text) : (kept used : Nat) → Prop
  /-- At a space, which is dropped. -/
  | space {place : Nat} (first : 0 < place) (inside : place ≤ width)
      (here : text[place]? = some ' ') : Allowed width text place (place + 1)
  /-- Behind a hyphen. -/
  | hyphen {place : Nat} (first : 0 < place) (inside : place < width)
      (here : text[place]? = some '-') : Allowed width text (place + 1) (place + 1)
  /-- At exactly the width, in a line that is longer and has no place to break at. -/
  | cut (long : width < text.length) (nowhere : ∀ place, ¬IsPlace width text place) :
      Allowed width text width width

theorem Allowed.kept_pos {width kept used : Nat} {text : Text} (wide : 0 < width)
    (allowed : Allowed width text kept used) : 0 < kept := by
  cases allowed with
  | space first _ _ => exact first
  | hyphen _ _ _ => exact Nat.succ_pos _
  | cut _ _ => exact wide

/-- No more than the width stays in front of a break. -/
theorem Allowed.kept_le {width kept used : Nat} {text : Text}
    (allowed : Allowed width text kept used) : kept ≤ width := by
  cases allowed with
  | space _ inside _ => exact inside
  | hyphen _ inside _ => exact inside
  | cut _ _ => exact Nat.le_refl width

/-- A break uses up no more than there is. -/
theorem Allowed.used_le_length {width kept used : Nat} {text : Text}
    (allowed : Allowed width text kept used) : used ≤ text.length := by
  cases allowed with
  | space _ _ here => exact (List.getElem?_eq_some_iff.mp here).1
  | hyphen _ _ here => exact (List.getElem?_eq_some_iff.mp here).1
  | cut long _ => exact Nat.le_of_lt long

/-! ### The last break -/

theorem at?_eq_none_of_last? {width place : Nat} {text : Text}
    (last : last? width place text = none) {offset : Nat} {character : Char}
    (here : text[offset]? = some character) :
    at? width (place + offset) character = none := by
  induction text generalizing place offset with
  | nil => cases here
  | cons first rest inductionHypothesis =>
    rw [last?] at last
    split at last
    · cases last
    · rename_i none
      cases offset with
      | zero =>
        cases here
        exact last
      | succ offset =>
        rw [← Nat.add_assoc, Nat.add_right_comm]
        exact inductionHypothesis none here

/-- The last break is allowed by one of the characters, and none behind it allows one. -/
theorem exists_of_last? {width place : Nat} {text : Text} {found : Break}
    (last : last? width place text = some found) :
    ∃ offset character, text[offset]? = some character ∧
      at? width (place + offset) character = some found ∧
      ∀ later other, offset < later → text[later]? = some other →
        at? width (place + later) other = none := by
  induction text generalizing place with
  | nil => cases last
  | cons first rest inductionHypothesis =>
    rw [last?] at last
    split at last
    · rename_i later further
      cases last
      obtain ⟨offset, character, here, allows, final⟩ := inductionHypothesis further
      refine ⟨offset + 1, character, here, ?_, fun later other behind there => ?_⟩
      · rw [← allows, Nat.add_assoc, Nat.add_comm 1]
      · obtain ⟨later, rfl⟩ := Nat.exists_eq_add_of_lt (Nat.zero_lt_of_lt behind)
        rw [Nat.zero_add] at behind there ⊢
        rw [← final later other (by omega) there, Nat.add_assoc, Nat.add_comm 1]
    · rename_i none
      refine ⟨0, first, rfl, last, fun later other behind there => ?_⟩
      obtain ⟨later, rfl⟩ := Nat.exists_eq_add_of_lt behind
      rw [Nat.zero_add] at there ⊢
      rw [← at?_eq_none_of_last? none there, Nat.add_assoc, Nat.add_comm 1]

/-- The places from the first one to the width are those that a break is looked for at. -/
theorem getElem?_window {width offset : Nat} (text : Text) (inside : offset < width) :
    ((text.drop 1).take width)[offset]? = text[1 + offset]? := by
  rw [List.getElem?_take_of_lt inside, List.getElem?_drop]

theorem lt_of_getElem?_window {width offset : Nat} {text : Text} {character : Char}
    (here : ((text.drop 1).take width)[offset]? = some character) : offset < width := by
  by_contra outside
  rw [List.getElem?_take_eq_none (Nat.le_of_not_lt outside)] at here
  cases here

/-! ### The break at a place -/

/-- A character allows a break exactly at a place to break at, and the break uses up the line
through that place. -/
theorem allowed_of_at? {width place : Nat} {text : Text} {character : Char} {found : Break}
    (inside : place ≤ width) (here : text[place]? = some character)
    (allows : at? width place character = some found) (first : 0 < place) :
    Allowed width text found.kept found.used ∧ found.used = place + 1 := by
  unfold at? at allows
  split at allows
  · rename_i space
    cases allows
    exact ⟨.space first inside (by rw [here, space]), rfl⟩
  · split at allows
    · rename_i hyphen
      cases allows
      exact ⟨.hyphen first hyphen.2 (by rw [here, hyphen.1]), rfl⟩
    · cases allows

theorem IsPlace.exists_at? {width place : Nat} {text : Text} (isPlace : IsPlace width text place) :
    ∃ character found, text[place]? = some character ∧ at? width place character = some found := by
  obtain ⟨first, ⟨space, _⟩ | ⟨hyphen, inside⟩⟩ := isPlace
  · exact ⟨' ', _, space, by rw [at?, if_pos rfl, dif_pos first]⟩
  · exact ⟨'-', _, hyphen, by rw [at?, if_neg (by decide), if_pos ⟨rfl, inside⟩]⟩

theorem IsPlace.le_width {width place : Nat} {text : Text} (isPlace : IsPlace width text place) :
    place ≤ width := by
  obtain ⟨_, ⟨_, inside⟩ | ⟨_, inside⟩⟩ := isPlace
  · exact inside
  · exact Nat.le_of_lt inside

/-! ### The break that is chosen -/

section Chosen

variable {width : Nat} (wide : 0 < width) {text : Text}

/-- The chosen break is allowed, and it uses up the line through every place to break at. -/
theorem ofLine_spec (long : width < text.length) :
    Allowed width text (ofLine width wide text).kept (ofLine width wide text).used ∧
      ∀ place, IsPlace width text place → place < (ofLine width wide text).used := by
  -- A place to break at, seen from the window in which the break is looked for.
  have inWindow {place : Nat} (isPlace : IsPlace width text place) : ∃ offset character found,
      place = 1 + offset ∧ ((text.drop 1).take width)[offset]? = some character ∧
        at? width (1 + offset) character = some found := by
    obtain ⟨character, found, here, allows⟩ := isPlace.exists_at?
    obtain ⟨offset, rfl⟩ := Nat.exists_eq_add_of_le isPlace.1
    have inside : offset < width := by
      have := isPlace.le_width
      omega
    exact ⟨offset, character, found, rfl, by rw [getElem?_window text inside, here], allows⟩
  unfold ofLine
  split
  · rename_i found last
    obtain ⟨offset, character, here, allows, final⟩ := exists_of_last? last
    have inside := lt_of_getElem?_window here
    rw [getElem?_window text inside] at here
    obtain ⟨allowed, used⟩ := allowed_of_at? (by omega) here allows (by omega)
    refine ⟨allowed, fun place isPlace => ?_⟩
    obtain ⟨other, _, _, rfl, there, allowsThere⟩ := inWindow isPlace
    by_contra further
    rw [final other _ (by omega) there] at allowsThere
    cases allowsThere
  · rename_i none
    have nowhere (place : Nat) : ¬IsPlace width text place := by
      intro isPlace
      obtain ⟨_, _, _, rfl, there, allows⟩ := inWindow isPlace
      rw [at?_eq_none_of_last? none there] at allows
      cases allows
    exact ⟨.cut long nowhere, fun place isPlace => absurd isPlace (nowhere place)⟩

theorem allowed_ofLine (long : width < text.length) :
    Allowed width text (ofLine width wide text).kept (ofLine width wide text).used :=
  (ofLine_spec wide long).1

theorem lt_used_ofLine (long : width < text.length) {place : Nat}
    (isPlace : IsPlace width text place) : place < (ofLine width wide text).used :=
  (ofLine_spec wide long).2 place isPlace

/-- No break that a line allows uses up more of it than the chosen one. -/
theorem used_le_ofLine (long : width < text.length) {kept used : Nat}
    (allowed : Allowed width text kept used) : used ≤ (ofLine width wide text).used := by
  cases allowed with
  | space first inside here => exact lt_used_ofLine wide long ⟨first, Or.inl ⟨here, inside⟩⟩
  | hyphen first inside here => exact lt_used_ofLine wide long ⟨first, Or.inr ⟨here, inside⟩⟩
  | cut _ nowhere =>
    -- Where there is no place to break at, the chosen break is the cut as well.
    have chosen := allowed_ofLine wide long
    generalize (ofLine width wide text).kept = kept at chosen
    generalize (ofLine width wide text).used = used at chosen
    cases chosen with
    | space first inside here => exact absurd ⟨first, Or.inl ⟨here, inside⟩⟩ (nowhere _)
    | hyphen first inside here => exact absurd ⟨first, Or.inr ⟨here, inside⟩⟩ (nowhere _)
    | cut _ _ => exact Nat.le_refl width

end Chosen

end Manuscript.Break
