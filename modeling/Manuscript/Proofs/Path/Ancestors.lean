/-
This file is about the paths of the folders around a path. The steps of a path are, but
for the root in front, texts without slashes, so a path that is put together from its
first steps falls into pieces again that are just those steps.
-/

import Manuscript.Proofs.Path.Pieces

namespace Manuscript

/-- A step that is written between slashes. -/
structure Component.IsInner (step : Component) : Prop where
  notRoot : step ≠ .root
  noSlash : '/' ∉ step.text

theorem Component.isInner_of_ofPiece? {piece : Text} {step : Component} (noSlash : '/' ∉ piece)
    (stands : ofPiece? piece = some step) : step.IsInner := by
  rw [ofPiece?] at stands
  split at stands
  · cases stands
  · split at stands
    · cases stands
      exact ⟨Component.noConfusion, by decide⟩
    · cases stands
      exact ⟨Component.noConfusion, noSlash⟩

namespace Path

theorem isInner_of_mem_filterMap {pieces : List Text} (noSlash : ∀ piece ∈ pieces, '/' ∉ piece) :
    ∀ step ∈ pieces.filterMap Component.ofPiece?, step.IsInner := by
  intro step member
  obtain ⟨piece, inside, stands⟩ := List.mem_filterMap.mp member
  exact Component.isInner_of_ofPiece? (noSlash piece inside) stands

/-- The steps of a path, apart from the root it may start at. -/
theorem exists_inner_steps (path : Path) : ∃ steps : List Component,
    (∀ step ∈ steps, step.IsInner) ∧
      (path.components = .root :: steps ∨ path.components = steps) := by
  have noSlash := slash_not_mem_of_mem_cut path.text
  rw [components_eq]
  obtain ⟨first, rest, pieces⟩ := List.exists_cons_of_ne_nil (cut_ne_nil path.text)
  rw [Path.pieces, pieces, stepsOf]
  rw [pieces] at noSlash
  have further := isInner_of_mem_filterMap fun piece member =>
    noSlash piece (List.mem_cons_of_mem first member)
  split
  · exact ⟨_, further, Or.inl rfl⟩
  · split
    · refine ⟨_, fun step member => ?_, Or.inr rfl⟩
      rcases List.mem_cons.mp member with rfl | behind
      · exact ⟨Component.noConfusion, by decide⟩
      · exact further step behind
    · refine ⟨_, fun step member => ?_, Or.inr rfl⟩
      rcases List.mem_append.mp member with here | behind
      · exact Component.isInner_of_ofPiece? (noSlash first List.mem_cons_self)
          (Option.mem_toList.mp here)
      · exact further step behind

section Inner

variable {steps : List Component} (some_ : steps ≠ []) (inner : ∀ step ∈ steps, step.IsInner)

include some_ inner

theorem pieces_joined :
    cut (ofComponents.joined steps) = steps.map Component.text := by
  have texts : ∀ piece ∈ steps.map Component.text, '/' ∉ piece := by
    intro piece member
    obtain ⟨step, inside, rfl⟩ := List.mem_map.mp member
    exact (inner step inside).noSlash
  rw [cut_eq_splitOn]
  exact List.splitOn_intercalate '/' texts (by rwa [ne_eq, List.map_eq_nil_iff])

theorem pieces_ofComponents : (ofComponents steps).pieces = steps.map Component.text := by
  rw [← pieces_joined some_ inner]
  obtain ⟨first, rest, rfl⟩ := List.exists_cons_of_ne_nil some_
  cases first with
  | root => exact absurd rfl (inner .root List.mem_cons_self).notRoot
  | current | parent | name => rfl

theorem pieces_ofComponents_root :
    (ofComponents (.root :: steps)).pieces = [] :: steps.map Component.text := by
  rw [← pieces_joined some_ inner]
  exact cut_append_slash [] (ofComponents.joined steps)

end Inner

/-- A path whose pieces are the first ones of another is written as the beginning of it. -/
theorem text_prefix_of_pieces_prefix {first second : Path} (begins : first.pieces <+: second.pieces) :
    first.text <+: second.text := by
  obtain ⟨piece, others, pieces⟩ := List.exists_cons_of_ne_nil (cut_ne_nil first.text)
  obtain ⟨behind, whole⟩ := begins
  rw [Path.pieces, pieces, List.cons_append] at whole
  rw [text_eq_of_pieces pieces, text_eq_of_pieces whole.symm, List.flatMap_append,
    ← List.append_assoc]
  exact List.prefix_append _ _

/-- A path around another one: it takes the first steps of it, but not all of them. -/
def IsAncestor (ancestor path : Path) : Prop :=
  ∃ steps, steps <+: path.components ∧ steps ≠ path.components ∧ ancestor = ofComponents steps

theorem isAncestor_of_prefix {path : Path} {steps : List Component}
    (begins : steps <+: path.components.dropLast) (some_ : path.components ≠ []) :
    (ofComponents steps).IsAncestor path := by
  refine ⟨steps, begins.trans (List.dropLast_prefix _), fun whole => ?_, rfl⟩
  have shorter := begins.length_le
  rw [whole, List.length_dropLast] at shorter
  have positive := List.length_pos_iff.mpr some_
  omega

/-- The folder around a path, by the steps that lead to it. -/
theorem parent?_eq_some {path around : Path} (parent : path.parent? = some around) :
    ∃ steps : List Component, (∀ step ∈ steps, step.IsInner) ∧ path.components ≠ [] ∧
      around = ofComponents path.components.dropLast ∧
      (path.components.dropLast = .root :: steps ∨ path.components.dropLast = steps) := by
  have some_ : path.components ≠ [] := by
    intro empty
    rw [parent?, empty] at parent
    cases parent
  have notRoot : path.components ≠ [.root] := by
    intro root
    rw [parent?, root] at parent
    cases parent
  have made : around = ofComponents path.components.dropLast := by
    rw [parent?] at parent
    split at parent
    · cases parent
    · cases parent
    · exact (Option.some.inj parent).symm
  obtain ⟨steps, inner, whole⟩ := path.exists_inner_steps
  refine ⟨steps.dropLast, fun step member => inner step (List.dropLast_subset _ member), some_, made,
    ?_⟩
  rcases whole with whole | whole
  · rw [whole] at notRoot ⊢
    exact Or.inl (List.dropLast_cons_of_ne_nil fun empty => notRoot (by rw [empty]))
  · rw [whole]
    exact Or.inr rfl

section Front

variable {steps : List Component} (inner : ∀ step ∈ steps, step.IsInner) {front : List Text}

theorem eq_map_take_of_prefix (begins : front <+: steps.map Component.text) :
    front = (steps.take front.length).map Component.text := by
  rw [List.map_take]
  exact List.prefix_iff_eq_take.mp begins

include inner

/-- The first pieces of a relative path are the pieces of its first steps, unless there is
nothing in them. -/
theorem exists_front (begins : front <+: (ofComponents steps).pieces)
    (written : ∃ piece ∈ front, piece ≠ []) :
    ∃ taken, taken <+: steps ∧ (ofComponents taken).pieces = front := by
  obtain ⟨piece, member, solid⟩ := written
  cases steps with
  | nil => exact absurd (List.mem_singleton.mp (begins.mem member)) solid
  | cons step steps =>
    rw [pieces_ofComponents (List.cons_ne_nil _ _) inner] at begins
    have taken := eq_map_take_of_prefix begins
    refine ⟨(step :: steps).take front.length, List.take_prefix _ _, ?_⟩
    rw [pieces_ofComponents ?_ fun other inside => inner other (List.mem_of_mem_take inside),
      ← taken]
    intro empty
    rw [taken, empty] at member
    cases member

/-- The same holds of an absolute path, whose first piece is the empty one in front. -/
theorem exists_front_root (begins : front <+: (ofComponents (.root :: steps)).pieces)
    (written : ∃ piece ∈ front, piece ≠ []) :
    ∃ taken, taken <+: .root :: steps ∧ (ofComponents taken).pieces = front := by
  obtain ⟨piece, member, solid⟩ := written
  cases steps with
  | nil =>
    rcases List.mem_cons.mp (begins.mem member) with here | behind
    · exact absurd here solid
    · exact absurd (List.mem_singleton.mp behind) solid
  | cons step steps =>
    rw [pieces_ofComponents_root (List.cons_ne_nil _ _) inner] at begins
    cases front with
    | nil => cases member
    | cons first rest =>
      obtain ⟨rfl, others⟩ := List.cons_prefix_cons.mp begins
      have taken := eq_map_take_of_prefix others
      refine ⟨.root :: (step :: steps).take rest.length,
        List.cons_prefix_cons.mpr ⟨rfl, List.take_prefix _ _⟩, ?_⟩
      rw [pieces_ofComponents_root ?_ fun other inside => inner other (List.mem_of_mem_take inside),
        ← taken]
      intro empty
      have behind : piece ∈ rest := (List.mem_cons.mp member).resolve_left solid
      rw [taken, empty] at behind
      cases behind

end Front

/-- The first pieces of the folder around a path are the pieces of an ancestor of the path,
unless there is nothing in them. -/
theorem exists_ancestor {path around : Path} (parent : path.parent? = some around)
    {front : List Text} (begins : front <+: around.pieces) (written : ∃ piece ∈ front, piece ≠ []) :
    ∃ ancestor : Path, ancestor.IsAncestor path ∧ ancestor.pieces = front := by
  obtain ⟨steps, inner, some_, rfl, whole⟩ := parent?_eq_some parent
  have found : ∃ taken, taken <+: path.components.dropLast ∧ (ofComponents taken).pieces = front := by
    rcases whole with whole | whole
    · rw [whole] at begins ⊢
      exact exists_front_root inner begins written
    · rw [whole] at begins ⊢
      exact exists_front inner begins written
  obtain ⟨taken, first, pieces⟩ := found
  exact ⟨ofComponents taken, isAncestor_of_prefix first some_, pieces⟩

end Path

end Manuscript
