/-
This file counts the marks of bold and italic words. They are counted in the lower case
of a line, and there are as many in it as in the line itself: a mark comes only from the
same mark, and what becomes of any other character holds none, so that underscores stand
next to each other in the one exactly where they do in the other.
-/

import Manuscript.Proofs.Text.LowerCase

namespace Manuscript

/-- The characters that the marks of bold and italic words are written with. -/
def isMark (character : Char) : Bool :=
  character == '_' || character == '*'

theorem isMark_iff (character : Char) :
    isMark character = true ↔ character = '_' ∨ character = '*' := by
  rw [isMark, Bool.or_eq_true, beq_iff_eq, beq_iff_eq]

/-! ### A mark and its lower case -/

theorem ascii_mark : ∀ code < 0x80,
    isMark (Char.ofNat code).toLower = true → (Char.ofNat code).toLower = Char.ofNat code := by
  decide +kernel

theorem LowersTo.eq_of_isMark {character : Char} {form : Text} (here : LowersTo character form)
    (mark : isMark character = true) : form = [character] := by
  have small : character.toNat < 0x80 := by
    rcases (isMark_iff _).mp mark with rfl | rfl <;> decide
  cases here with
  | ascii _ => rcases (isMark_iff _).mp mark with rfl | rfl <;> rfl
  | dotted code | kelvin code => omega
  | other form large _ _ _ => omega

theorem LowersTo.eq_of_mem_isMark {character letter : Char} {form : Text}
    (here : LowersTo character form) (member : letter ∈ form) (mark : isMark letter = true) :
    form = [character] := by
  cases here with
  | ascii small =>
    rw [List.mem_singleton.mp member] at mark
    have same := ascii_mark character.toNat small
    rw [Char.ofNat_toNat] at same
    rw [same mark]
  | dotted _ =>
    have none : ∀ letter ∈ ['i', Char.ofNat 0x307], isMark letter = false :=
      List.forall_mem_cons.mpr ⟨rfl, List.forall_mem_singleton.mpr rfl⟩
    exact absurd mark (Bool.eq_false_iff.mp (none letter member))
  | kelvin _ =>
    rw [List.mem_singleton.mp member] at mark
    exact absurd mark (by decide)
  | other form _ formLarge _ _ =>
    rw [List.mem_singleton.mp member] at mark
    rcases (isMark_iff _).mp mark with rfl | rfl <;> exact absurd formLarge (by decide)

/-- A mark is in the lower case of a character exactly if the character is that mark. -/
theorem LowersTo.mem_iff {character mark : Char} {form : Text} (here : LowersTo character form)
    (marks : isMark mark = true) : mark ∈ form ↔ character = mark := by
  constructor
  · intro member
    rw [here.eq_of_mem_isMark member marks] at member
    exact (List.mem_singleton.mp member).symm
  · rintro rfl
    rw [here.eq_of_isMark marks]
    exact List.mem_singleton_self _

/-! ### Counting -/

theorem Lowers.count_mark {text small : Text} (lowers : Lowers text small) {mark : Char}
    (marks : isMark mark = true) : small.count mark = text.count mark := by
  induction lowers with
  | nil => rfl
  | @cons character form rest small here behind inductionHypothesis =>
    have front : form.count mark = [character].count mark := by
      by_cases same : character = mark
      · subst same
        rw [here.eq_of_isMark marks]
      · rw [List.count_eq_zero_of_not_mem (same ∘ (here.mem_iff marks).mp),
          List.count_eq_zero_of_not_mem (Ne.symm same ∘ List.mem_singleton.mp)]
    rw [List.count_append, front, inductionHypothesis, ← List.count_append, List.singleton_append]

namespace Text

theorem countPairs_cons {character : Char} (other : character ≠ '_') (rest : Text) :
    countPairs (character :: rest) = countPairs rest := by
  rw [countPairs]
  exact fun _ same => absurd same other

/-- An underscore that is followed by no other one is not part of a pair. -/
theorem countPairs_single {rest : Text} (alone : rest.head? ≠ some '_') :
    countPairs ('_' :: rest) = countPairs rest := by
  cases rest with
  | nil => rfl
  | cons next rest =>
    rw [countPairs]
    intro further _ same
    exact alone (congrArg List.head? same)

theorem countPairs_append {front : Text} (free : '_' ∉ front) (rest : Text) :
    countPairs (front ++ rest) = countPairs rest := by
  induction front with
  | nil => rfl
  | cons character front inductionHypothesis =>
    rw [List.mem_cons, not_or] at free
    rw [List.cons_append, countPairs_cons (Ne.symm free.1), inductionHypothesis free.2]

end Text

theorem LowersTo.ne_nil {character : Char} {form : Text} (here : LowersTo character form) :
    form ≠ [] := by
  cases here <;> exact List.cons_ne_nil _ _

/-- A mark in front of a line is in front of its lower case. -/
theorem Lowers.exists_behind_mark {mark : Char} {rest small : Text}
    (lowers : Lowers (mark :: rest) small) (marks : isMark mark = true) :
    ∃ behind, small = mark :: behind ∧ Lowers rest behind := by
  cases lowers with
  | cons here behind =>
    rw [here.eq_of_isMark marks]
    exact ⟨_, rfl, behind⟩

theorem Lowers.head?_ne_underscore {text small : Text} (lowers : Lowers text small)
    (other : text.head? ≠ some '_') : small.head? ≠ some '_' := by
  cases lowers with
  | nil => exact other
  | @cons character form rest small here behind =>
    cases form with
    | nil => exact absurd rfl here.ne_nil
    | cons letter letters =>
      intro underscore
      obtain rfl : letter = '_' := Option.some.inj underscore
      exact other (congrArg some ((here.mem_iff rfl).mp List.mem_cons_self))

/-- A line in lower case holds as many pairs of underscores as the line. -/
theorem Lowers.countPairs_eq {text small : Text} (lowers : Lowers text small) :
    small.countPairs = text.countPairs := by
  induction text using Text.countPairs.induct generalizing small with
  | case1 rest inductionHypothesis =>
    obtain ⟨_, rfl, once⟩ := lowers.exists_behind_mark rfl
    obtain ⟨behind, rfl, twice⟩ := once.exists_behind_mark rfl
    rw [Text.countPairs, Text.countPairs, inductionHypothesis twice]
  | case2 character rest apart inductionHypothesis =>
    cases lowers with
    | @cons _ form _ small here behind =>
      have skipped : Text.countPairs (character :: rest) = Text.countPairs rest := by
        rw [Text.countPairs]
        exact apart
      rw [skipped, ← inductionHypothesis behind]
      by_cases underscore : character = '_'
      · subst underscore
        have alone : rest.head? ≠ some '_' := by
          intro next
          obtain ⟨further, whole⟩ := List.head?_eq_some_iff.mp next
          exact apart further rfl whole
        rw [here.eq_of_isMark rfl]
        exact Text.countPairs_single (behind.head?_ne_underscore alone)
      · exact Text.countPairs_append (underscore ∘ (here.mem_iff rfl).mp) small
  | case3 =>
    cases lowers
    rfl

theorem countPairs_lower (line : Text) : (Text.lower line).countPairs = line.countPairs :=
  (lowers_lower line).countPairs_eq

theorem count_lower (line : Text) {mark : Char} (marks : isMark mark = true) :
    (Text.lower line).count mark = line.count mark :=
  (lowers_lower line).count_mark marks

end Manuscript
