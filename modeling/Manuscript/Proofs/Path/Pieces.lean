/-
This file is about paths that are put together. A path is cut at its slashes, and names
that are joined with slashes fall apart again into themselves. Where a relative path is
put behind another one, its pieces and its steps come behind those of the first path; a
slash at the end of the first path makes no difference but for the empty piece behind it.
-/

import Mathlib.Data.List.Basic
import Mathlib.Tactic.Common
import Manuscript.FileSystem

namespace Manuscript

namespace Path

/-! ### Cutting at slashes -/

theorem cut_eq_splitOn (text : Text) : cut text = text.splitOn '/' := by
  induction text with
  | nil => rfl
  | cons character rest inductionHypothesis =>
    rw [cut, List.splitOn_cons_eq_if_modifyHead, inductionHypothesis]
    by_cases slash : character = '/'
    · rw [if_pos slash, if_pos (beq_iff_eq.mpr slash)]
    · rw [if_neg slash, if_neg (by rw [beq_iff_eq]; exact slash)]
      obtain ⟨piece, others, pieces⟩ := List.exists_cons_of_ne_nil (List.splitOn_ne_nil '/' rest)
      rw [pieces]
      rfl

theorem cut_append_slash (first second : Text) :
    cut (first ++ '/' :: second) = cut first ++ cut second := by
  rw [cut_eq_splitOn, cut_eq_splitOn, cut_eq_splitOn, List.splitOn_append_cons_self]

theorem slash_not_mem_of_mem_cut (text : Text) : ∀ piece ∈ cut text, '/' ∉ piece := by
  intro piece member
  fun_induction cut text generalizing piece with
  | case1 =>
    rw [List.mem_singleton.mp member]
    exact List.not_mem_nil
  | case2 rest inductionHypothesis =>
    rcases List.mem_cons.mp member with rfl | behind
    · exact List.not_mem_nil
    · exact inductionHypothesis piece behind
  | case3 character rest other pieces => exact absurd pieces (cut_ne_nil rest)
  | case4 character rest other first others pieces inductionHypothesis =>
    rw [pieces] at inductionHypothesis
    rcases List.mem_cons.mp member with rfl | behind
    · intro inside
      rcases List.mem_cons.mp inside with same | further
      · exact other same.symm
      · exact inductionHypothesis first List.mem_cons_self further
    · exact inductionHypothesis piece (List.mem_cons_of_mem _ behind)

/-- Every piece behind the first one has its slash in front of it. -/
theorem intercalate_slash (first : Text) (rest : List Text) :
    ['/'].intercalate (first :: rest) = first ++ rest.flatMap ('/' :: ·) := by
  induction rest generalizing first with
  | nil => rw [List.intercalate_singleton, List.flatMap_nil, List.append_nil]
  | cons second rest inductionHypothesis =>
    rw [List.intercalate_cons_cons, inductionHypothesis, List.flatMap_cons, List.append_assoc,
      List.singleton_append, List.cons_append]

theorem text_eq_of_pieces {path : Path} {first : Text} {rest : List Text}
    (pieces : path.pieces = first :: rest) : path.text = first ++ rest.flatMap ('/' :: ·) := by
  rw [← intercalate_slash, ← pieces, Path.pieces, cut_eq_splitOn, List.intercalate_splitOn]

/-! ### Putting a path behind another -/

/-- A path's text without a slash at its end. -/
def stem (base : Path) : Text :=
  if base.text.getLast? = some '/' then base.text.dropLast else base.text

theorem text_eq_stem (base : Path) : base.text = base.stem ∨ base.text = base.stem ++ ['/'] := by
  rw [stem]
  split
  · rename_i last
    obtain ⟨front, whole⟩ := List.getLast?_eq_some_iff.mp last
    right
    rw [whole, List.dropLast_concat]
  · exact Or.inl rfl

theorem stem_sublist (base : Path) : base.stem.Sublist base.text := by
  rcases base.text_eq_stem with text | text
  · rw [← text]
  · rw [text]
    exact List.sublist_append_left _ _

/-- A slash at the end of a path leaves an empty piece behind it. -/
theorem pieces_eq_stem (base : Path) :
    base.pieces = cut base.stem ∨ base.pieces = cut base.stem ++ [[]] := by
  rcases base.text_eq_stem with text | text
  · exact Or.inl (congrArg cut text)
  · right
    rw [pieces, text, cut_append_slash]
    rfl

section Join

variable {base entry : Path}

theorem text_join (written : base.text ≠ []) (relative : entry.isAbsolute = false) :
    (base.join entry).text = base.stem ++ '/' :: entry.text := by
  rw [join, if_neg (by rw [relative]; exact Bool.false_ne_true), stem]
  by_cases last : base.text.getLast? = some '/'
  · obtain ⟨front, whole⟩ := List.getLast?_eq_some_iff.mp last
    rw [if_pos (Or.inr last), if_pos last]
    simp only [whole, List.dropLast_concat, List.append_assoc, List.singleton_append]
  · rw [if_neg (not_or.mpr ⟨written, last⟩), if_neg last]

theorem pieces_join (written : base.text ≠ []) (relative : entry.isAbsolute = false) :
    (base.join entry).pieces = cut base.stem ++ entry.pieces := by
  rw [pieces, text_join written relative, cut_append_slash, pieces]

theorem text_join_ne_nil (written : base.text ≠ []) (relative : entry.isAbsolute = false) :
    (base.join entry).text ≠ [] := by
  rw [text_join written relative]
  exact List.append_ne_nil_of_right_ne_nil _ (List.cons_ne_nil _ _)

theorem isAbsolute_join (written : base.text ≠ []) (relative : entry.isAbsolute = false) :
    (base.join entry).isAbsolute = base.isAbsolute := by
  rw [isAbsolute, isAbsolute, text_join written relative]
  rcases base.text_eq_stem with text | text
  · rw [text] at written ⊢
    rw [List.head?_append_of_ne_nil _ written]
  · rw [text]
    cases base.stem <;> rfl

end Join

/-! ### Steps -/

/-- The steps that the pieces of a path stand for. -/
def stepsOf (absolute : Bool) : List Text → List Component
  | [] => []
  | first :: rest =>
    let further := rest.filterMap Component.ofPiece?
    if absolute then .root :: further
    else if first = ['.'] then .current :: further
    else (Component.ofPiece? first).toList ++ further

theorem components_eq (path : Path) : path.components = stepsOf path.isAbsolute path.pieces := rfl

theorem stepsOf_append (absolute : Bool) {first : List Text} (second : List Text)
    (some_ : first ≠ []) :
    stepsOf absolute (first ++ second) =
      stepsOf absolute first ++ second.filterMap Component.ofPiece? := by
  obtain ⟨piece, others, rfl⟩ := List.exists_cons_of_ne_nil some_
  rw [List.cons_append, stepsOf, stepsOf, List.filterMap_append]
  split
  · rfl
  · split
    · rfl
    · rw [List.append_assoc]

theorem components_join {base entry : Path} (written : base.text ≠ [])
    (relative : entry.isAbsolute = false) :
    (base.join entry).components =
      base.components ++ entry.pieces.filterMap Component.ofPiece? := by
  have steps : base.components = stepsOf base.isAbsolute (cut base.stem) := by
    rw [components_eq]
    rcases base.pieces_eq_stem with pieces | pieces
    · rw [pieces]
    · rw [pieces, stepsOf_append _ _ (cut_ne_nil _)]
      exact List.append_nil _
  rw [components_eq, isAbsolute_join written relative, pieces_join written relative,
    stepsOf_append _ _ (cut_ne_nil _), steps]

end Path

/-! ### Paths made of names -/

/-- A name that something in a folder can have. -/
structure IsName (name : Text) : Prop where
  written : name ≠ []
  noSlash : '/' ∉ name
  notHere : name ≠ ['.']
  notAround : name ≠ ['.', '.']
  short : name.byteLength ≤ FileSystem.longestName

theorem IsName.ofPiece?_eq {name : Text} (isName : IsName name) :
    Component.ofPiece? name = some (.name name) := by
  rw [Component.ofPiece?, if_neg (not_or.mpr ⟨isName.written, isName.notHere⟩),
    if_neg isName.notAround]

namespace Path

/-- The relative path that leads along some names. -/
def ofNames (names : List Text) : Path :=
  ofComponents (names.map .name)

theorem text_ofNames (names : List Text) : (ofNames names).text = ['/'].intercalate names := by
  have texts : (names.map Component.name).map Component.text = names := by
    rw [List.map_map]
    exact List.map_id names
  have joined : (ofNames names).text = ofComponents.joined (names.map .name) := by
    cases names <;> rfl
  rw [joined, ofComponents.joined, texts, List.intercalate]

section Names

variable {names : List Text} (some_ : names ≠ []) (each : ∀ name ∈ names, IsName name)

include some_ each

theorem pieces_ofNames : (ofNames names).pieces = names := by
  rw [pieces, text_ofNames, cut_eq_splitOn,
    List.splitOn_intercalate '/' (fun name member => (each name member).noSlash) some_]

theorem isAbsolute_ofNames : (ofNames names).isAbsolute = false := by
  obtain ⟨first, rest, rfl⟩ := List.exists_cons_of_ne_nil some_
  have isName := each first List.mem_cons_self
  obtain ⟨character, letters, rfl⟩ := List.exists_cons_of_ne_nil isName.written
  have other : character ≠ '/' := fun same => isName.noSlash (by rw [same]; exact List.mem_cons_self)
  rw [isAbsolute, text_ofNames, intercalate_slash, List.cons_append, List.head?_cons]
  exact beq_eq_false_iff_ne.mpr fun same => other (Option.some.inj same)

theorem filterMap_pieces_ofNames :
    (ofNames names).pieces.filterMap Component.ofPiece? = names.map .name := by
  rw [pieces_ofNames some_ each, List.filterMap_eq_map_iff_forall_eq_some]
  exact fun name member => (each name member).ofPiece?_eq

theorem components_ofNames : (ofNames names).components = names.map .name := by
  have steps := filterMap_pieces_ofNames some_ each
  rw [components_eq, isAbsolute_ofNames some_ each]
  rw [pieces_ofNames some_ each] at steps ⊢
  obtain ⟨first, rest, rfl⟩ := List.exists_cons_of_ne_nil some_
  have isName := each first List.mem_cons_self
  rw [stepsOf, if_neg Bool.false_ne_true, if_neg isName.notHere, ← steps, isName.ofPiece?_eq,
    List.filterMap_cons_some isName.ofPiece?_eq]
  rfl

end Names

end Path

end Manuscript
