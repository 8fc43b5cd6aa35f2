/-
This file holds a tree of files and folders, and what it means to look something up in
it. A path is walked piece by piece: every piece is looked for in a folder that has to
exist, two dots lead to the folder around it, and an empty piece or a single dot stays
where it is. So a path with a slash at its end leads nowhere unless there is a folder,
and a path through a file is refused, where a path through nothing is merely missing.

The entries of the tree are a list with one entry for each place. Folders are entries of
their own, and only the root is always there.
-/

import Manuscript.Data.Association
import Manuscript.Path
import Manuscript.Text.Lines

namespace Manuscript

/-- Where something lies: the names of the folders on the way to it, and its own. -/
abbrev Location := List Text

/-- What lies at a place. -/
inductive Entry where
  | folder
  | file (content : Bytes)
  deriving DecidableEq, Repr

/-- Files and folders, and the folder that relative paths start from. -/
structure FileSystem where
  entries : List (Location × Entry)
  workingFolder : Location
  deriving DecidableEq, Repr

/-- Why something cannot be reached. -/
inductive Obstacle where
  /-- It does not exist. -/
  | missing
  /-- It is something else than what is asked for, or it cannot exist. -/
  | refused
  deriving DecidableEq, Repr

namespace FileSystem

/-- The most bytes that a name can have. -/
def longestName : Nat := 255

/-- A path has to be shorter than this many bytes. -/
def pathLimit : Nat := 4096

/-- What lies at a place, if anything does. -/
def at? (files : FileSystem) (location : Location) : Option Entry :=
  if location = [] then some .folder else files.entries.lookup location

/-- The tree with something else at a place. -/
def put (files : FileSystem) (location : Location) (entry : Entry) : FileSystem :=
  { files with entries := Association.put files.entries location entry }

/-- What was put at a place lies there, and nothing has moved anywhere else. -/
theorem at?_put (files : FileSystem) (location other : Location) (entry : Entry)
    (inside : location ≠ []) :
    (files.put location entry).at? other =
      if other = location then some entry else files.at? other := by
  by_cases root : other = []
  · simp [at?, root, Ne.symm inside]
  · simp [at?, put, Association.lookup_put, root]

/-- Whether a path can be walked at all. -/
def isWalkable (path : Path) : Bool :=
  !path.text.contains (Char.ofNat 0) && path.text.byteLength < pathLimit

/-- The place that a piece leads to from a place where a folder has to be. -/
def enter (files : FileSystem) (location : Location) (piece : Text) :
    Except Obstacle Location :=
  match files.at? location with
  | none => .error .missing
  | some (.file _) => .error .refused
  | some .folder =>
    if piece = [] ∨ piece = ['.'] then .ok location
    else if piece = ['.', '.'] then .ok location.dropLast
    else if longestName < piece.byteLength then .error .refused
    else .ok (location ++ [piece])

/-- The place that the pieces of a path lead to. Whether anything lies there is another
question. -/
def walk (files : FileSystem) (location : Location) (pieces : List Text) :
    Except Obstacle Location :=
  pieces.foldlM files.enter location

/-- Where walking a path begins. -/
def origin (files : FileSystem) (path : Path) : Location :=
  if path.isAbsolute then [] else files.workingFolder

/-- The place that a path leads to. -/
def locate (files : FileSystem) (path : Path) : Except Obstacle Location :=
  if path.text = [] then .error .missing
  else if isWalkable path then files.walk (files.origin path) path.pieces
  else .error .refused

/-- What a path leads to. -/
def find (files : FileSystem) (path : Path) : Except Obstacle Entry := do
  let location ← files.locate path
  match files.at? location with
  | some entry => .ok entry
  | none => .error .missing

/-- Whether a path leads to anything. -/
def has (files : FileSystem) (path : Path) : Bool :=
  match files.find path with
  | .ok _ => true
  | .error _ => false

/-- Whether a path leads to a file. -/
def hasFile (files : FileSystem) (path : Path) : Bool :=
  match files.find path with
  | .ok (.file _) => true
  | _ => false

/-- Whether a path leads to a folder. -/
def hasFolder (files : FileSystem) (path : Path) : Bool :=
  match files.find path with
  | .ok .folder => true
  | _ => false

/-- The text of the file that a path leads to. A folder has none, and neither has a file
that is not valid UTF-8. -/
def readText (files : FileSystem) (path : Path) : Option Text :=
  match files.find path with
  | .ok (.file content) => Text.decode? content
  | _ => none

/-- The lines of what a path leads to. A folder can be opened like a file, but its first line
cannot be read. -/
def readLines (files : FileSystem) (path : Path) : Except Obstacle (List (Option Text)) := do
  match ← files.find path with
  | .file content => .ok (Text.fileLines content)
  | .folder => .ok [none]

/-- Walks on through pieces, making the folders that are missing. What has been made stays,
even where a later piece is refused. -/
def makeFolders (files : FileSystem) (location : Location) :
    List Text → Except Obstacle Location × FileSystem
  | [] => (.ok location, files)
  | piece :: rest =>
    match files.enter location piece with
    | .error obstacle => (.error obstacle, files)
    | .ok inner =>
      let files :=
        match files.at? inner with
        | some _ => files
        | none => files.put inner .folder
      makeFolders files inner rest

/-- Makes the folder that a path leads to, with all that are missing on the way. The answer
says whether there is such a folder now. -/
def makeFolder (files : FileSystem) (path : Path) : Bool × FileSystem :=
  if isWalkable path then
    match files.makeFolders (files.origin path) path.pieces with
    | (.ok location, files) => (files.at? location == some .folder, files)
    | (.error _, files) => (false, files)
  else (false, files)

/-- The place of a file that can be written at a path. Something other than a file must not
lie there, and the folder around it has to exist. -/
def place? (files : FileSystem) (path : Path) : Option Location :=
  match files.locate path with
  | .error _ => none
  | .ok location =>
    match files.at? location with
    | some .folder => none
    | some (.file _) => some location
    | none =>
      match files.at? location.dropLast with
      | some .folder => some location
      | _ => none

/-- What lies below a place, each with the way to it from there. -/
def below (files : FileSystem) (location : Location) : List Location :=
  files.entries.filterMap fun (other, _) =>
    if location.isPrefixOf other ∧ other ≠ location then some (other.drop location.length) else none

end FileSystem

end Manuscript
