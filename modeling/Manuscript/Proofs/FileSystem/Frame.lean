/-
This file says what making a document does to the tree around it. Folders are made only
where nothing was, along the way to the document, and all of them are ancestors of its
path; the one file that is written is the document itself. Every other place holds what it
held before, so everything that could be reached can still be reached.
-/

import Manuscript.Proofs.FileSystem.Walk
import Manuscript.Proofs.Path.Ancestors

namespace Manuscript

namespace FileSystem

/-! ### Putting something at a place -/

theorem ne_nil_of_not_folder {files : FileSystem} {location : Location}
    (other : files.at? location ≠ some .folder) : location ≠ [] := by
  rintro rfl
  exact other rfl

theorem ne_nil_of_free {files : FileSystem} {location : Location}
    (free : files.at? location = none) : location ≠ [] := by
  rintro rfl
  cases free

theorem keeps_put_folder {files : FileSystem} {location : Location}
    (free : files.at? location = none) : Keeps files (files.put location .folder) := by
  have inside := ne_nil_of_free free
  refine ⟨rfl, fun other here => ?_, fun other content here => ?_⟩
  · rw [at?_put _ _ _ _ inside, here, ite_self]
  · have apart : other ≠ location := by
      rintro rfl
      rw [free] at here
      cases here
    exact ⟨content, by rw [at?_put _ _ _ _ inside, if_neg apart, here]⟩

theorem keeps_put_file {files : FileSystem} {location : Location} (content : Bytes)
    (free : files.at? location ≠ some .folder) :
    Keeps files (files.put location (.file content)) := by
  have inside := ne_nil_of_not_folder free
  refine ⟨rfl, fun other here => ?_, fun other former here => ?_⟩
  · have apart : other ≠ location := by
      rintro rfl
      exact free here
    rw [at?_put _ _ _ _ inside, if_neg apart, here]
  · rw [at?_put _ _ _ _ inside]
    split
    · exact ⟨content, rfl⟩
    · exact ⟨former, here⟩

/-- A file that is written anew was a file before. -/
theorem keeps_of_put_file {files : FileSystem} {location : Location} {former : Bytes}
    (content : Bytes) (here : files.at? location = some (.file former)) :
    Keeps (files.put location (.file content)) files := by
  have inside := ne_nil_of_not_folder
    (show files.at? location ≠ some .folder by rw [here]; exact nofun)
  refine ⟨rfl, fun other there => ?_, fun other written there => ?_⟩
  · rw [at?_put _ _ _ _ inside] at there
    split at there
    · cases there
    · exact there
  · rw [at?_put _ _ _ _ inside] at there
    split at there
    · rename_i same
      exact ⟨former, by rw [same, here]⟩
    · exact ⟨written, there⟩

/-! ### Making folders -/

/-- The tree with a folder at a place, if nothing was there. -/
def withFolder (files : FileSystem) (location : Location) : FileSystem :=
  match files.at? location with
  | some _ => files
  | none => files.put location .folder

theorem keeps_withFolder (files : FileSystem) (location : Location) :
    Keeps files (files.withFolder location) := by
  rw [withFolder]
  split
  · exact Keeps.refl files
  · rename_i free
    exact keeps_put_folder free

theorem at?_withFolder_of_ne {files : FileSystem} {location other : Location}
    (changed : (files.withFolder location).at? other ≠ files.at? other) :
    other = location ∧ files.at? other = none ∧
      (files.withFolder location).at? other = some .folder := by
  cases here : files.at? location with
  | some entry =>
    rw [withFolder, here] at changed
    exact absurd rfl changed
  | none =>
    have inside := ne_nil_of_free here
    have after : files.withFolder location = files.put location .folder := by
      rw [withFolder, here]
    rw [after, at?_put _ _ _ _ inside] at changed ⊢
    by_cases same : other = location
    · rw [if_pos same]
      exact ⟨same, by rw [same, here], rfl⟩
    · rw [if_neg same] at changed
      exact absurd rfl changed

theorem makeFolders_of_error {files : FileSystem} {location : Location} {piece : Text}
    {obstacle : Obstacle} (pieces : List Text)
    (step : files.enter location piece = .error obstacle) :
    (files.makeFolders location (piece :: pieces)).2 = files := by
  rw [makeFolders, step]

theorem makeFolders_of_ok {files : FileSystem} {location inner : Location} {piece : Text}
    (pieces : List Text) (step : files.enter location piece = .ok inner) :
    files.makeFolders location (piece :: pieces) =
      (files.withFolder inner).makeFolders inner pieces := by
  rw [makeFolders, step]
  rfl

theorem keeps_makeFolders (files : FileSystem) (location : Location) (pieces : List Text) :
    Keeps files (files.makeFolders location pieces).2 := by
  induction pieces generalizing files location with
  | nil => exact Keeps.refl files
  | cons piece pieces inductionHypothesis =>
    cases step : files.enter location piece with
    | error obstacle =>
      rw [makeFolders_of_error pieces step]
      exact Keeps.refl files
    | ok inner =>
      rw [makeFolders_of_ok pieces step]
      exact (keeps_withFolder files inner).trans (inductionHypothesis _ _)

/-- A folder that is made was missing, and some of the first pieces lead to it. -/
theorem at?_makeFolders_of_ne {files : FileSystem} {location other : Location}
    {pieces : List Text}
    (changed : (files.makeFolders location pieces).2.at? other ≠ files.at? other) :
    files.at? location = some .folder ∧ files.at? other = none ∧
      (files.makeFolders location pieces).2.at? other = some .folder ∧
      ∃ front, front <+: pieces ∧
        (files.makeFolders location pieces).2.walk location front = .ok other := by
  induction pieces generalizing files location with
  | nil => exact absurd rfl changed
  | cons piece pieces inductionHypothesis =>
    cases step : files.enter location piece with
    | error obstacle =>
      rw [makeFolders_of_error pieces step] at changed
      exact absurd rfl changed
    | ok inner =>
      have keeps := keeps_makeFolders (files.withFolder inner) inner pieces
      have whole := (keeps_withFolder files inner).trans keeps
      rw [makeFolders_of_ok pieces step] at changed ⊢
      have entered : ((files.withFolder inner).makeFolders inner pieces).2.enter location piece =
          .ok inner := by
        rw [whole.enter_eq (by rw [step]; exact nofun), step]
      refine ⟨folder_of_enter step, ?_⟩
      -- The folder is made by the first piece, or by the others in a tree that keeps it.
      by_cases here : (files.withFolder inner).at? other = files.at? other
      · rw [← here] at changed
        obtain ⟨_, free, made, front, begins, leads⟩ := inductionHypothesis changed
        refine ⟨here ▸ free, made, piece :: front, List.cons_prefix_cons.mpr ⟨rfl, begins⟩, ?_⟩
        rw [walk_cons_of_ok front entered, leads]
      · obtain ⟨rfl, free, made⟩ := at?_withFolder_of_ne here
        refine ⟨free, keeps.folder other made, [piece], ⟨pieces, rfl⟩, ?_⟩
        rw [walk_cons_of_ok [] entered]
        rfl

/-! ### Changes that are confined to a document -/

/-- The tree after a document may have been written. At every place lies what lay there before;
or a folder where nothing was, and an ancestor of the document's path leads there; or the
document, where no folder was. -/
structure Confined (document : Path) (before after : FileSystem) : Prop where
  workingFolder : after.workingFolder = before.workingFolder
  place : ∀ location, after.at? location = before.at? location ∨
    (before.at? location = none ∧ after.at? location = some .folder ∧
      ∃ ancestor : Path, ancestor.IsAncestor document ∧ after.locate ancestor = .ok location) ∨
    (before.at? location ≠ some .folder ∧ (∃ content, after.at? location = some (.file content)) ∧
      after.locate document = .ok location)

theorem Confined.refl (document : Path) (files : FileSystem) : Confined document files files where
  workingFolder := rfl
  place _ := Or.inl rfl

theorem Confined.keeps {document : Path} {before after : FileSystem}
    (confined : Confined document before after) : Keeps before after := by
  refine ⟨confined.workingFolder, fun location here => ?_, fun location content here => ?_⟩
  · rcases confined.place location with same | ⟨free, _⟩ | ⟨other, _⟩
    · rw [same, here]
    · rw [here] at free
      cases free
    · exact absurd here other
  · rcases confined.place location with same | ⟨free, _⟩ | ⟨_, file, _⟩
    · exact ⟨content, by rw [same, here]⟩
    · rw [here] at free
      cases free
    · exact file

theorem makeFolder_eq (files : FileSystem) (path : Path) :
    (files.makeFolder path).2 =
      if isWalkable path then (files.makeFolders (files.origin path) path.pieces).2
      else files := by
  rw [makeFolder]
  split
  · split <;> rename_i made <;> rw [made]
  · rfl

theorem origin_eq_of_text_prefix {before after : FileSystem} {front whole : Path}
    (same : after.workingFolder = before.workingFolder) (solid : front.text ≠ [])
    (begins : front.text <+: whole.text) : after.origin front = before.origin whole := by
  obtain ⟨behind, text⟩ := begins
  rw [origin, origin, Path.isAbsolute, Path.isAbsolute, ← text,
    List.head?_append_of_ne_nil _ solid, same]

/-- Making the folder around a document makes nothing but ancestors of it. -/
theorem confined_makeFolder (files : FileSystem) {document around : Path}
    (parent : document.parent? = some around) :
    Confined document files (files.makeFolder around).2 := by
  rw [makeFolder_eq]
  split
  swap
  · exact Confined.refl document files
  rename_i walkable
  have keeps := keeps_makeFolders files (files.origin around) around.pieces
  refine ⟨keeps.workingFolder, fun location => ?_⟩
  by_cases same :
      (files.makeFolders (files.origin around) around.pieces).2.at? location = files.at? location
  · exact Or.inl same
  obtain ⟨folder, free, made, front, begins, leads⟩ := at?_makeFolders_of_ne same
  refine Or.inr (Or.inl ⟨free, made, ?_⟩)
  -- Empty pieces lead to where the walk begins, and a folder was there before.
  have written : ∃ piece ∈ front, piece ≠ [] := by
    by_contra none_
    have empty : ∀ piece ∈ front, piece = [] := by
      intro piece member
      by_contra solid
      exact none_ ⟨piece, member, solid⟩
    rw [eq_of_walk_of_idle (fun piece member => Or.inl (empty piece member)) leads, folder] at free
    cases free
  obtain ⟨ancestor, isAncestor, pieces⟩ := Path.exists_ancestor parent begins written
  have solid : ancestor.text ≠ [] := by
    intro empty
    have only : ancestor.pieces = [[]] := by rw [Path.pieces, empty]; rfl
    obtain ⟨piece, member, other⟩ := written
    rw [← pieces, only] at member
    exact other (List.mem_singleton.mp member)
  have textBegins : ancestor.text <+: around.text :=
    Path.text_prefix_of_pieces_prefix (by rw [pieces]; exact begins)
  refine ⟨ancestor, isAncestor, ?_⟩
  rw [locate_of_walkable solid (isWalkable_of_sublist textBegins.sublist walkable),
    origin_eq_of_text_prefix keeps.workingFolder solid textBegins, pieces, leads]

/-- Writing the document behind that changes nothing else. -/
theorem Confined.put_document {document : Path} {before room : FileSystem} {location : Location}
    (confined : Confined document before room) (leads : room.locate document = .ok location)
    (free : room.at? location ≠ some .folder) (content : Bytes) :
    Confined document before (room.put location (.file content)) := by
  have inside := ne_nil_of_not_folder free
  have keeps := keeps_put_file content free
  refine ⟨confined.workingFolder, fun other => ?_⟩
  rw [at?_put _ _ _ _ inside]
  by_cases same : other = location
  · subst same
    refine Or.inr (Or.inr ⟨fun folder => free (confined.keeps.folder other folder),
      ⟨content, by rw [if_pos rfl]⟩, keeps.locate_eq_ok leads⟩)
  · rw [if_neg same]
    rcases confined.place other with kept | ⟨missing, made, ancestor, isAncestor, there⟩ |
      ⟨_, _, there⟩
    · exact Or.inl kept
    · exact Or.inr (Or.inl ⟨missing, made, ancestor, isAncestor, keeps.locate_eq_ok there⟩)
    · rw [leads] at there
      exact absurd (Except.ok.inj there).symm same

/-- What could be opened before holds the same lines, unless it is the document. -/
theorem Confined.readLines_eq {document path : Path} {before after : FileSystem}
    (confined : Confined document before after)
    (found : before.readLines path ≠ .error .missing)
    (apart : after.locate path ≠ after.locate document) :
    after.readLines path = before.readLines path := by
  have reached : before.locate path ≠ .error .missing := by
    intro missing
    rw [readLines, find, missing] at found
    exact found rfl
  refine readLines_congr (confined.keeps.locate_eq reached) fun location leads => ?_
  rcases confined.place location with same | ⟨free, _⟩ | ⟨_, _, there⟩
  · exact same
  · rw [readLines_of_locate leads, free] at found
    exact absurd rfl found
  · exact absurd ((confined.keeps.locate_eq_ok leads).trans there.symm) apart

end FileSystem

end Manuscript
