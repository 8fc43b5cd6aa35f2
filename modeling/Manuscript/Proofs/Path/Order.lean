/-
This file proves that paths come in an order. Names compare by the first character in
which they differ, paths by the first step, and steps by their kind or by their names. An
order of items is an order of lists of them, by the first item in which two lists differ,
and so the order of characters becomes one of names, of steps, and of paths.
-/

import Mathlib.Tactic.Common
import Manuscript.Path

namespace Manuscript

/-- A comparison that sorts: it compares any two items, passes on, and holds both ways only
between an item and itself. -/
structure IsOrder {Item : Type} (before : Item → Item → Bool) : Prop where
  total : ∀ first second, before first second = true ∨ before second first = true
  trans : ∀ {first second third}, before first second = true → before second third = true →
    before first third = true
  antisymm : ∀ {first second}, before first second = true → before second first = true →
    first = second

/-- Sorted by keys that are in an order, items come in the order of their keys. -/
theorem IsOrder.pairwise_mergeSort {Item Key : Type} {before : Key → Key → Bool}
    (isOrder : IsOrder before) (key : Item → Key) (items : List Item) :
    (items.mergeSort fun first second => before (key first) (key second)).Pairwise
      fun first second => before (key first) (key second) = true := by
  refine List.pairwise_mergeSort (fun first second third one other => ?_)
    (fun first second => ?_) items
  · exact isOrder.trans one other
  · rw [Bool.or_eq_true]
    exact isOrder.total _ _

/-- Lists by the first item in which they differ. A list comes before all that it begins. -/
def stepwise {Item : Type} [DecidableEq Item] (before : Item → Item → Bool) :
    List Item → List Item → Bool
  | [], _ => true
  | _ :: _, [] => false
  | item :: items, other :: others =>
    if item = other then stepwise before items others else before item other

theorem IsOrder.stepwise {Item : Type} [DecidableEq Item] {before : Item → Item → Bool}
    (isOrder : IsOrder before) : IsOrder (stepwise before) where
  total first second := by
    fun_induction Manuscript.stepwise before first second with
    | case1 => exact Or.inl rfl
    | case2 => exact Or.inr rfl
    | case3 item items others inductionHypothesis =>
      rw [Manuscript.stepwise, if_pos rfl]
      exact inductionHypothesis
    | case4 item items other others different =>
      rw [Manuscript.stepwise, if_neg (Ne.symm different)]
      exact isOrder.total item other
  trans {first second third} one other := by
    induction first generalizing second third with
    | nil => rfl
    | cons item items inductionHypothesis =>
      rcases second with _ | ⟨middle, middles⟩
      · cases one
      rcases third with _ | ⟨last, lasts⟩
      · cases other
      rw [Manuscript.stepwise] at one other ⊢
      by_cases begins : item = middle
      · subst begins
        rw [if_pos rfl] at one
        by_cases ends : item = last
        · rw [if_pos ends] at other ⊢
          exact inductionHypothesis one other
        · rw [if_neg ends] at other ⊢
          exact other
      · rw [if_neg begins] at one
        by_cases ends : middle = last
        · subst ends
          rw [if_neg begins]
          exact one
        · rw [if_neg ends] at other
          have apart : item ≠ last := by
            rintro rfl
            exact begins (isOrder.antisymm one other)
          rw [if_neg apart]
          exact isOrder.trans one other
  antisymm {first second} one other := by
    fun_induction Manuscript.stepwise before first second with
    | case1 second =>
      cases second with
      | nil => rfl
      | cons => cases other
    | case2 => cases one
    | case3 item items others inductionHypothesis =>
      rw [Manuscript.stepwise, if_pos rfl] at other
      rw [inductionHypothesis one other]
    | case4 item items other' others different =>
      rw [Manuscript.stepwise, if_neg (Ne.symm different)] at other
      exact absurd (isOrder.antisymm one other) different

theorem isOrder_character :
    IsOrder fun first second : Char => decide (first.toNat ≤ second.toNat) where
  total first second := by
    simp only [decide_eq_true_iff]
    exact Nat.le_total _ _
  trans one other := by
    simp only [decide_eq_true_iff] at one other ⊢
    exact Nat.le_trans one other
  antisymm one other := by
    simp only [decide_eq_true_iff] at one other
    exact Char.toNat_inj.mp (Nat.le_antisymm one other)

theorem Text.before_eq_stepwise (first second : Text) :
    before first second =
      stepwise (fun character other => decide (character.toNat ≤ other.toNat)) first second := by
  fun_induction before first second with
  | case1 => rfl
  | case2 => rfl
  | case3 character rest other others inductionHypothesis =>
    rw [stepwise, inductionHypothesis]
    by_cases same : character = other
    · subst same
      simp
    · have apart : character.toNat ≠ other.toNat := fun equal => same (Char.toNat_inj.mp equal)
      have strict : character.toNat < other.toNat ↔ character.toNat ≤ other.toNat := by omega
      simp [same, strict]

theorem Text.isOrder_before : IsOrder Text.before := by
  have same : Text.before = stepwise fun first second => decide (first.toNat ≤ second.toNat) :=
    funext fun first => funext fun second => before_eq_stepwise first second
  rw [same]
  exact isOrder_character.stepwise

/-- Steps of different kinds come in the order of their kinds, and names in their own. -/
theorem Component.isOrder_before : IsOrder Component.before where
  total first second := by
    cases first <;> cases second <;>
      first
        | exact Text.isOrder_before.total _ _
        | simp [before, before.rank]
  trans {first second third} one other := by
    cases first <;> cases second <;> cases third <;>
      first
        | exact Text.isOrder_before.trans one other
        | simp [before, before.rank] at one other ⊢
  antisymm {first second} one other := by
    cases first <;> cases second <;>
      first
        | rfl
        | exact congrArg name (Text.isOrder_before.antisymm one other)
        | simp [before, before.rank] at one other

namespace Path

theorem before_eq_stepwise (first second : Path) :
    first.before second = stepwise Component.before first.components second.components := by
  have go (steps others : List Component) :
      before.go steps others = stepwise Component.before steps others := by
    fun_induction before.go steps others with
    | case1 | case2 => rfl
    | case3 step steps others inductionHypothesis =>
      rw [stepwise, if_pos rfl, inductionHypothesis]
    | case4 step steps other others different => rw [stepwise, if_neg different]
  exact go _ _

/-- Sorted paths come in order. -/
theorem pairwise_mergeSort (paths : List Path) :
    (paths.mergeSort before).Pairwise fun first second => first.before second = true := by
  have same : before = fun first second =>
      stepwise Component.before first.components second.components :=
    funext fun first => funext fun second => before_eq_stepwise first second
  rw [same]
  exact Component.isOrder_before.stepwise.pairwise_mergeSort components paths

end Path

end Manuscript
