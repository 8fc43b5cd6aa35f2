/-
This file finds the manuscript files of a project, for a project that gives no order.
Everything below the project's folder whose name ends in the manuscript's extension is
found, folders and hidden files among it, and each is listed as it is seen from the
project's folder, in the order of paths.

The way to the project's folder is followed piece by piece, and pieces are put together
again on the way: the current folder in front of a path is left out. A path that then no
longer begins like the project's own is listed whole.
-/

import Manuscript.FileSystem

namespace Manuscript

namespace Discovery

/-- What the names of manuscript files end in. -/
def ending : Text := ".proze".toList

/-- Whether the path is the current folder and nothing else. -/
def isHere (path : Path) : Bool :=
  path.components == [.current]

/-- Follows one more piece of the way to the project's folder. -/
def follow? (files : FileSystem) (path : Path) (piece : Text) : Option Path :=
  let next := if isHere path then ⟨piece⟩ else path.join ⟨piece⟩
  if piece = ['.'] ∨ piece = ['.', '.'] then
    if files.hasFolder path then some next else none
  else if files.has next then some next
  else none

/-- The project's folder as it is put together on the way to it. The way to a folder without
a name begins and ends at the root. -/
def base? (files : FileSystem) (root : Path) : Option Path :=
  match root.text with
  | [] => some (.ofString "/")
  | '/' :: rest => (Path.mk rest).pieces.foldlM (follow? files) (.ofString "/")
  | _ => root.pieces.foldlM (follow? files) (.ofString ".")

/-- Whether the last name on the way ends like that of a manuscript file. -/
def isManuscript (way : Location) : Bool :=
  way.getLast?.any ending.isSuffixOf

/-- The path of what lies below a folder. -/
def pathBelow (base : Path) (way : Location) : Path :=
  let rest : Path := .ofComponents (way.map .name)
  if isHere base then rest else base.join rest

/-- The paths of the manuscript files below the project's folder. -/
def paths (files : FileSystem) (root : Path) : List Path :=
  match base? files root with
  | none => []
  | some base =>
    if files.hasFolder base then
      match files.locate base with
      | .ok location => ((files.below location).filter isManuscript).map (pathBelow base)
      | .error _ => []
    else []

end Discovery

/-- The manuscript files of a project, as they are seen from its folder. -/
def manuscriptFiles (files : FileSystem) (root : Path) : List Path :=
  ((Discovery.paths files root).map fun path => (path.stripBase? root).getD path).mergeSort
    Path.before

end Manuscript
