/-
This file is about the way to a project's folder. The folder is followed piece by piece, and
what is put together on the way leads to the same place. Where the project's path does not
begin with a dot that stands in front of something else, it also has the same steps, and then
what is found below the folder is listed by the names that lead to it.
-/

import Manuscript.Discovery
import Manuscript.Proofs.FileSystem.Walk

namespace Manuscript

/-- A path that does not begin with a single dot, or is made of single dots. -/
def Path.IsPlain (path : Path) : Prop :=
  path.pieces.head? = some ['.'] → ∀ piece ∈ path.pieces, piece = ['.']

instance (path : Path) : Decidable path.IsPlain :=
  inferInstanceAs (Decidable (_ → _))

namespace Discovery

open FileSystem

/-! ### Pieces as paths -/

section Piece

variable {piece : Text} (noSlash : '/' ∉ piece)

include noSlash

theorem pieces_piece : (Path.mk piece).pieces = [piece] := by
  rw [Path.pieces, Path.cut_eq_splitOn, List.splitOn_eq_singleton noSlash]

theorem isAbsolute_piece : (Path.mk piece).isAbsolute = false := by
  rw [Path.isAbsolute, beq_eq_false_iff_ne]
  exact fun head => noSlash (List.mem_of_mem_head? head)

end Piece

/-- A path that has been left the current folder for. Behind it, pieces are joined. -/
def IsAway (path : Path) : Prop :=
  ∃ step steps, path.components = step :: steps ∧ step ≠ .current

theorem IsAway.isHere_eq {path : Path} (away : IsAway path) : isHere path = false := by
  obtain ⟨step, steps, components, other⟩ := away
  rw [isHere, components, beq_eq_false_iff_ne]
  exact fun same => other (List.cons.inj same).1

theorem has_of_folder {files : FileSystem} {path : Path} {location : Location}
    (leads : files.locate path = .ok location) (folder : files.at? location = some .folder) :
    files.has path = true := by
  rw [has, find_eq_ok leads folder]

theorem hasFolder_of_folder {files : FileSystem} {path : Path} {location : Location}
    (leads : files.locate path = .ok location) (folder : files.at? location = some .folder) :
    files.hasFolder path = true := by
  rw [hasFolder, find_eq_ok leads folder]

/-- A piece that leads to a folder is followed. -/
theorem follow?_eq {files : FileSystem} {path next : Path} {piece : Text}
    {here inner : Location} (leads : files.locate path = .ok here)
    (folder : files.at? here = some .folder)
    (put : (if isHere path then ⟨piece⟩ else path.join ⟨piece⟩) = next)
    (further : files.locate next = .ok inner) (innerFolder : files.at? inner = some .folder) :
    follow? files path piece = some next := by
  rw [follow?]
  simp only [put, hasFolder_of_folder leads folder, has_of_folder further innerFolder, if_true,
    ite_self]

/-! ### The way to the folder -/

/-- Following pieces away from the current folder puts their steps behind one another, and
leads to where the pieces lead. -/
theorem foldlM_follow? {files : FileSystem} {path : Path} {here location : Location}
    {pieces : List Text} (away : IsAway path) (leads : files.locate path = .ok here)
    (noSlash : ∀ piece ∈ pieces, '/' ∉ piece)
    (walkable : isWalkable ⟨path.stem ++ pieces.flatMap ('/' :: ·)⟩ = true)
    (further : files.walk here pieces = .ok location)
    (folder : files.at? location = some .folder) :
    ∃ base, pieces.foldlM (follow? files) path = some base ∧ IsAway base ∧
      files.locate base = .ok location ∧
      base.components = path.components ++ pieces.filterMap Component.ofPiece? := by
  -- A slash at the end of a path is not put in twice, so the length of what is still to be put
  -- together is bounded behind the stem of the path, not behind its text.
  induction pieces generalizing path here with
  | nil =>
    refine ⟨path, rfl, away, ?_, (List.append_nil _).symm⟩
    rw [leads, ← Except.ok.inj further]
  | cons piece pieces inductionHypothesis =>
    have written := written_of_locate leads
    have flat := noSlash piece List.mem_cons_self
    have relative := isAbsolute_piece flat
    have text := Path.text_join written relative
    rw [List.flatMap_cons, List.cons_append, ← List.cons_append, ← List.append_assoc] at walkable
    have whole : isWalkable (path.join ⟨piece⟩) = true := by
      refine isWalkable_of_sublist ?_ walkable
      rw [text]
      exact List.sublist_append_left _ _
    obtain ⟨inner, step, rest⟩ := walk_cons_eq_ok further
    have next : files.locate (path.join ⟨piece⟩) = .ok inner := by
      rw [locate_join leads relative whole, pieces_piece flat, walk_cons_of_ok [] step]
      rfl
    have components : (path.join ⟨piece⟩).components =
        path.components ++ [piece].filterMap Component.ofPiece? := by
      rw [Path.components_join written relative, pieces_piece flat]
    have awayNext : IsAway (path.join ⟨piece⟩) := by
      obtain ⟨first, steps, begins, other⟩ := away
      exact ⟨first, _, by rw [components, begins, List.cons_append], other⟩
    have shorter : isWalkable ⟨(path.join ⟨piece⟩).stem ++ pieces.flatMap ('/' :: ·)⟩ = true := by
      refine isWalkable_of_sublist (List.Sublist.append_right ?_ _) walkable
      rw [← text]
      exact (path.join ⟨piece⟩).stem_sublist
    have followed : follow? files path piece = some (path.join ⟨piece⟩) := by
      refine follow?_eq leads (folder_of_enter step) ?_ next (folder_of_walk rest folder)
      rw [away.isHere_eq, if_neg Bool.false_ne_true]
    obtain ⟨base, ends, awayBase, there, steps⟩ := inductionHypothesis awayNext next
      (fun other member => noSlash other (List.mem_cons_of_mem _ member)) shorter rest
    refine ⟨base, ?_, awayBase, there, ?_⟩
    · rw [List.foldlM_cons, followed]
      exact ends
    · rw [steps, components, List.append_assoc, ← List.filterMap_append, List.singleton_append]

/-- Single dots do not lead away from the current folder. -/
theorem foldlM_follow?_here {files : FileSystem} {pieces : List Text}
    (dots : ∀ piece ∈ pieces, piece = ['.']) (folder : files.hasFolder (.ofString ".") = true) :
    pieces.foldlM (follow? files) (.ofString ".") = some (.ofString ".") := by
  induction pieces with
  | nil => rfl
  | cons piece pieces inductionHypothesis =>
    have step : follow? files (.ofString ".") piece = some (.ofString ".") := by
      rw [dots piece List.mem_cons_self, follow?, if_pos (Or.inl rfl), if_pos folder]
      rfl
    rw [List.foldlM_cons, step]
    exact inductionHypothesis fun other member => dots other (List.mem_cons_of_mem piece member)

theorem locate_here {files : FileSystem} (folder : files.at? files.workingFolder = some .folder) :
    files.locate (.ofString ".") = .ok files.workingFolder := by
  have step : files.enter files.workingFolder ['.'] = .ok files.workingFolder := by
    rw [enter, folder]
    rfl
  rw [locate_of_walkable (by decide) (by decide)]
  exact walk_cons_of_ok [] step

theorem base?_of_relative {files : FileSystem} {root : Path} (written : root.text ≠ [])
    (relative : root.isAbsolute = false) :
    base? files root = root.pieces.foldlM (follow? files) (.ofString ".") := by
  rw [base?]
  split
  · rename_i empty
    exact absurd empty written
  · rename_i rest text
    rw [Path.isAbsolute, text] at relative
    cases relative
  · rfl

/-- What is put together on the way to a project's folder. -/
structure IsBase (files : FileSystem) (root : Path) (location : Location) (base : Path) : Prop where
  found : base? files root = some base
  leads : files.locate base = .ok location
  steps : (isHere base = true ∧ root.components = [.current]) ∨
    (IsAway base ∧ base.components = root.components)

section Base

variable {files : FileSystem} {root : Path} {location : Location}
  (leads : files.locate root = .ok location) (folder : files.at? location = some .folder)

include leads folder

theorem exists_base_of_absolute {behind : Text} (text : root.text = '/' :: behind) :
    ∃ base, IsBase files root location base := by
  have pieces : root.pieces = [] :: Path.cut behind := by
    rw [Path.pieces, text, Path.cut, if_pos rfl]
  have absolute : root.isAbsolute = true := by
    rw [Path.isAbsolute, text]
    rfl
  have walkable := walkable_of_locate leads
  rw [locate_of_walkable (written_of_locate leads) walkable, pieces] at leads
  have atRoot : files.origin root = [] := by rw [origin, absolute, if_pos rfl]
  obtain ⟨next, step, further⟩ := walk_cons_eq_ok leads
  -- The piece in front of the first slash is empty.
  have stays : next = [] := by
    have one := walk_cons_of_ok [] step
    rw [atRoot] at one
    exact eq_of_walk_of_idle (fun piece member => Or.inl (List.mem_singleton.mp member)) one
  rw [stays] at further
  have whole : isWalkable ⟨(Path.ofString "/").stem ++ (Path.cut behind).flatMap ('/' :: ·)⟩ =
      true := by
    have same : (Path.ofString "/").stem ++ (Path.cut behind).flatMap ('/' :: ·) = root.text :=
      (Path.text_eq_of_pieces pieces).symm
    rwa [same]
  have atSlash : files.locate (.ofString "/") = .ok [] := rfl
  obtain ⟨base, ends, away, there, steps⟩ := foldlM_follow?
    ⟨.root, [], rfl, Component.noConfusion⟩ atSlash (Path.slash_not_mem_of_mem_cut behind) whole
    further folder
  refine ⟨base, ?_, there, Or.inr ⟨away, ?_⟩⟩
  · rw [base?, text]
    exact ends
  · rw [steps, Path.components_eq root, absolute, pieces]
    rfl

theorem exists_base_of_relative {first : Text} {rest : List Text}
    (pieces : root.pieces = first :: rest) (relative : root.isAbsolute = false)
    (other : first ≠ ['.']) : ∃ base, IsBase files root location base := by
  have text := Path.text_eq_of_pieces pieces
  have written := written_of_locate leads
  have walkable := walkable_of_locate leads
  have solid : first ≠ [] := by
    rintro rfl
    cases rest with
    | nil => exact written text
    | cons => rw [Path.isAbsolute, text] at relative; cases relative
  have noSlash := Path.slash_not_mem_of_mem_cut root.text
  rw [← Path.pieces, pieces] at noSlash
  have flat := noSlash first List.mem_cons_self
  have atHere : files.origin root = files.workingFolder := by
    rw [origin, relative, if_neg Bool.false_ne_true]
  rw [locate_of_walkable written walkable, pieces, atHere] at leads
  obtain ⟨inner, step, further⟩ := walk_cons_eq_ok leads
  have here := folder_of_enter step
  have next : files.locate ⟨first⟩ = .ok inner := by
    have begun : isWalkable ⟨first⟩ = true := by
      refine isWalkable_of_sublist ?_ walkable
      rw [text]
      exact List.sublist_append_left _ _
    rw [locate_of_walkable solid begun, pieces_piece flat, origin, isAbsolute_piece flat,
      if_neg Bool.false_ne_true, walk_cons_of_ok [] step]
    rfl
  have followed : follow? files (.ofString ".") first = some ⟨first⟩ :=
    follow?_eq (locate_here here) here rfl next (folder_of_walk further folder)
  have whole : isWalkable ⟨(Path.mk first).stem ++ rest.flatMap ('/' :: ·)⟩ = true := by
    refine isWalkable_of_sublist ?_ walkable
    rw [text]
    exact List.Sublist.append_right (Path.stem_sublist _) _
  have components : (Path.mk first).components = (Component.ofPiece? first).toList := by
    rw [Path.components_eq, isAbsolute_piece flat, pieces_piece flat, Path.stepsOf,
      if_neg Bool.false_ne_true, if_neg other]
    exact List.append_nil _
  have away : IsAway ⟨first⟩ := by
    rw [IsAway, components, Component.ofPiece?, if_neg (not_or.mpr ⟨solid, other⟩)]
    split
    · exact ⟨.parent, [], rfl, Component.noConfusion⟩
    · exact ⟨.name first, [], rfl, Component.noConfusion⟩
  obtain ⟨base, ends, awayBase, there, steps⟩ := foldlM_follow? away next
    (fun piece member => noSlash piece (List.mem_cons_of_mem first member)) whole further folder
  refine ⟨base, ?_, there, Or.inr ⟨awayBase, ?_⟩⟩
  · rw [base?_of_relative written relative, pieces, List.foldlM_cons, followed]
    exact ends
  · rw [steps, components, Path.components_eq root, relative, pieces, Path.stepsOf,
      if_neg Bool.false_ne_true, if_neg other]

theorem exists_base_of_dots (dots : ∀ piece ∈ root.pieces, piece = ['.']) :
    ∃ base, IsBase files root location base := by
  obtain ⟨first, rest, pieces⟩ := List.exists_cons_of_ne_nil (Path.cut_ne_nil root.text)
  rw [← Path.pieces] at pieces
  have written := written_of_locate leads
  have begins : first = ['.'] := dots first (pieces ▸ List.mem_cons_self)
  have relative : root.isAbsolute = false := by
    rw [Path.isAbsolute, Path.text_eq_of_pieces pieces, begins]
    rfl
  have further : rest.filterMap Component.ofPiece? = [] := by
    rw [List.filterMap_eq_nil_iff]
    intro piece member
    rw [dots piece (pieces ▸ List.mem_cons_of_mem first member)]
    rfl
  rw [locate_of_walkable written (walkable_of_locate leads), origin, relative,
    if_neg Bool.false_ne_true] at leads
  have here := folder_of_walk leads folder
  have stays := eq_of_walk_of_idle (fun piece member => Or.inr (dots piece member)) leads
  refine ⟨.ofString ".", ?_, stays ▸ locate_here here, Or.inl ⟨rfl, ?_⟩⟩
  · rw [base?_of_relative written relative]
    exact foldlM_follow?_here dots (hasFolder_of_folder (locate_here here) here)
  · rw [Path.components_eq, relative, pieces, Path.stepsOf, further, begins]
    rfl

theorem exists_base (plain : root.IsPlain) : ∃ base, IsBase files root location base := by
  obtain ⟨first, rest, pieces⟩ := List.exists_cons_of_ne_nil (Path.cut_ne_nil root.text)
  rw [← Path.pieces] at pieces
  cases relative : root.isAbsolute with
  | true =>
    rw [Path.isAbsolute, beq_iff_eq] at relative
    obtain ⟨behind, text⟩ := List.head?_eq_some_iff.mp relative
    exact exists_base_of_absolute leads folder text
  | false =>
    by_cases dot : first = ['.']
    · exact exists_base_of_dots leads folder (plain (by rw [pieces, dot]; rfl))
    · exact exists_base_of_relative leads folder pieces relative dot

end Base

end Discovery

end Manuscript
