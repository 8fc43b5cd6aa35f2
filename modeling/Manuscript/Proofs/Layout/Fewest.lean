/-
This file proves that no way of breaking a line makes fewer physical lines of it. A line may
be broken earlier than it has to be, and that might keep a later part of it from being cut.
But whoever has come further in a line never falls behind. A place to break at that is in
front of both is at hand for the one that is further on whenever it is for the other; and
where the other one can only cut the line, the one that is further on comes at least as far.
So the line that is broken as late as possible every time is always ahead.
-/

import Manuscript.Proofs.Layout.Breaks

namespace Manuscript

namespace Break

/-! ### Further on in a line -/

section FurtherOn

variable {width passed place : Nat} {line : Text}

/-- A place to break at is one from further on as well, as long as it is still ahead. -/
theorem IsPlace.drop (isPlace : IsPlace width line (passed + place)) (ahead : 0 < place) :
    IsPlace width (line.drop passed) place := by
  obtain ⟨_, places⟩ := isPlace
  rw [IsPlace, List.getElem?_drop]
  refine ⟨ahead, places.imp ?_ ?_⟩
  · exact fun space => ⟨space.1, by omega⟩
  · exact fun hyphen => ⟨hyphen.1, by omega⟩

/-- A place to break at from further on is one from here if it is in front of the width. -/
theorem IsPlace.of_drop (isPlace : IsPlace width (line.drop passed) place)
    (inside : passed + place < width) : IsPlace width line (passed + place) := by
  obtain ⟨first, places⟩ := isPlace
  rw [List.getElem?_drop] at places
  refine ⟨by omega, places.imp ?_ ?_⟩
  · exact fun space => ⟨space.1, inside.le⟩
  · exact fun hyphen => ⟨hyphen.1, inside⟩

/-- Where a line can only be cut, every break from further on reaches at least as far. -/
theorem Allowed.width_le {kept used : Nat} (allowed : Allowed width (line.drop passed) kept used)
    (nowhere : ∀ place, ¬IsPlace width line place) : width ≤ passed + used := by
  cases allowed with
  | space first inside here =>
    have isPlace : IsPlace width (line.drop passed) _ := ⟨first, Or.inl ⟨here, inside⟩⟩
    by_contra further
    exact nowhere _ (isPlace.of_drop (by omega))
  | hyphen first inside here =>
    have isPlace : IsPlace width (line.drop passed) _ := ⟨first, Or.inr ⟨here, inside⟩⟩
    by_contra further
    exact nowhere _ (isPlace.of_drop (by omega))
  | cut _ _ => exact Nat.le_add_left _ _

/-- What is chosen from further on reaches at least as far as any break from here. -/
theorem Allowed.used_le {kept used : Nat} (wide : 0 < width)
    (long : width < (line.drop passed).length) (allowed : Allowed width line kept used) :
    used ≤ passed + (ofLine width wide (line.drop passed)).used := by
  have progress := (ofLine width wide (line.drop passed)).used_pos
  have reached {place : Nat} (isPlace : IsPlace width line place) :
      place < passed + (ofLine width wide (line.drop passed)).used := by
    rcases Nat.lt_or_ge passed place with ahead | behind
    · obtain ⟨further, rfl⟩ := Nat.exists_eq_add_of_le ahead.le
      have := lt_used_ofLine wide long (isPlace.drop (by omega))
      omega
    · omega
  cases allowed with
  | space first inside here => exact reached ⟨first, Or.inl ⟨here, inside⟩⟩
  | hyphen first inside here => exact reached ⟨first, Or.inr ⟨here, inside⟩⟩
  | cut _ nowhere => exact (allowed_ofLine wide long).width_le nowhere

end FurtherOn

end Break

namespace Layout

/-- The ways to split a line by breaks that what is left of it allows, one after another, into
pieces that are no longer than the width. What is left may be broken although it fits. -/
inductive Splits (width : Nat) : Text → List Text → Prop
  | last {piece : Text} (narrow : piece.length ≤ width) : Splits width piece [piece]
  | next {line : Text} {kept used : Nat} {pieces : List Text}
      (allowed : Break.Allowed width line kept used)
      (behind : Splits width (line.drop used) pieces) :
      Splits width line (line.take kept :: pieces)

/-- What is left further on in a line has no more physical lines. -/
theorem length_wrapWithin_drop_le {width : Nat} (wide : 0 < width) (line : Text) (passed : Nat) :
    (wrapWithin width wide (line.drop passed)).length ≤ (wrapWithin width wide line).length := by
  fun_induction wrapWithin width wide line generalizing passed with
  | case1 line long place inductionHypothesis =>
    rw [wrapWithin]
    split
    · rename_i still
      have ahead := (Break.allowed_ofLine wide long).used_le wide still
      obtain ⟨more, reached⟩ := Nat.exists_eq_add_of_le ahead
      rw [List.length_cons, List.length_cons, List.drop_drop, reached, ← List.drop_drop]
      exact Nat.succ_le_succ (inductionHypothesis more)
    · exact Nat.succ_le_succ (Nat.zero_le _)
  | case2 line short =>
    have shorter : ¬width < (line.drop passed).length := by
      rw [List.length_drop]
      omega
    rw [wrapWithin, dif_neg shorter]
    exact Nat.le_refl 1

theorem splits_wrapWithin (width : Nat) (wide : 0 < width) (line : Text) :
    Splits width line (wrapWithin width wide line) := by
  fun_induction wrapWithin width wide line with
  | case1 line long place inductionHypothesis =>
    exact .next (Break.allowed_ofLine wide long) inductionHypothesis
  | case2 line short => exact .last (Nat.le_of_not_lt short)

theorem Splits.length_wrapWithin_le {width : Nat} (wide : 0 < width) {line : Text}
    {pieces : List Text} (splits : Splits width line pieces) :
    (wrapWithin width wide line).length ≤ pieces.length := by
  induction splits with
  | last narrow =>
    rw [wrapWithin, dif_neg (Nat.not_lt_of_le narrow)]
  | @next line kept used pieces allowed behind inductionHypothesis =>
    rw [wrapWithin]
    split
    · rename_i long
      obtain ⟨more, ahead⟩ := Nat.exists_eq_add_of_le
        (Break.used_le_ofLine wide long allowed)
      have left := length_wrapWithin_drop_le wide (line.drop used) more
      rw [List.drop_drop, ← ahead] at left
      exact Nat.succ_le_succ (left.trans inductionHypothesis)
    · exact Nat.succ_le_succ (Nat.zero_le _)

/-- The physical lines of a line split it by breaks that are allowed, and no other such way to
split it has fewer pieces. -/
theorem wrap_fewest {width : Nat} (wide : 1 ≤ width) (line : Text) :
    Splits width line (wrap width line) ∧
      ∀ pieces, Splits width line pieces → (wrap width line).length ≤ pieces.length := by
  have page : max width 1 = width := Nat.max_eq_left wide
  have same : wrap width line = wrapWithin width wide line := by
    simp only [wrap, page]
  rw [same]
  exact ⟨splits_wrapWithin width wide line, fun pieces splits => splits.length_wrapWithin_le wide⟩

/-- A line that is broken at every space has three pieces, and two physical lines. -/
theorem wrap_fewest_of_early_break :
    1 ≤ 5 ∧ Splits 5 "ab cd efgh".toList (["ab", "cd", "efgh"].map String.toList) ∧
      (wrap 5 "ab cd efgh".toList).length ≤ 3 ∧
      wrap 5 "ab cd efgh".toList = ["ab cd", "efgh"].map String.toList := by
  have early : Splits 5 "ab cd efgh".toList (["ab", "cd", "efgh"].map String.toList) :=
    @Splits.next 5 _ 2 3 _ (.space (by decide) (by decide) (by decide))
      (@Splits.next 5 _ 2 3 _ (.space (by decide) (by decide) (by decide)) (.last (by decide)))
  exact ⟨by decide, early, (wrap_fewest (by decide) _).2 _ early, by cbv⟩

end Layout

end Manuscript
