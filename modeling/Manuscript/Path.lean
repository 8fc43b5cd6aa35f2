/-
This file treats paths as they are written. A path keeps its text, because messages
show it exactly as it was put together; what it means is read off its components:
empty pieces and inner single dots mean nothing, a single dot in front is kept, and
two dots are a component like any other. Two paths compare by their components, and
names among them by their characters.
-/

import Manuscript.Text.Basic

namespace Manuscript

/-- A path as it is written, with slashes between its pieces. -/
structure Path where
  text : Text
  deriving DecidableEq, Repr

/-- A step of a path. -/
inductive Component where
  | root
  | current
  | parent
  | name (letters : Text)
  deriving DecidableEq, Repr

namespace Component

/-- The step as it is written. -/
def text : Component → Text
  | root => ['/']
  | current => ['.']
  | parent => ['.', '.']
  | name letters => letters

/-- Steps come in the order root, current, parent, names; names go by their characters. -/
def before : Component → Component → Bool
  | name first, name second => Text.before first second
  | first, second => rank first ≤ rank second
where
  rank : Component → Nat
    | root => 0
    | current => 1
    | parent => 2
    | name _ => 3

/-- A step that a piece behind the first one stands for. -/
def ofPiece? (piece : Text) : Option Component :=
  if piece = [] ∨ piece = ['.'] then none
  else if piece = ['.', '.'] then some parent
  else some (name piece)

end Component

namespace Path

/-- The path that a string literal writes. -/
def ofString (string : String) : Path :=
  ⟨string.toList⟩

/-- A text cut at its slashes. -/
def cut : Text → List Text
  | [] => [[]]
  | character :: rest =>
    if character = '/' then [] :: cut rest
    else
      match cut rest with
      | [] => [[character]]
      | piece :: others => (character :: piece) :: others

theorem cut_ne_nil (text : Text) : cut text ≠ [] := by
  fun_cases cut text <;> simp_all

/-- The pieces between the slashes, empty ones included. -/
def pieces (path : Path) : List Text :=
  cut path.text

/-- Whether the path starts at the root. -/
def isAbsolute (path : Path) : Bool :=
  path.text.head? == some '/'

/-- The steps of a path. -/
def components (path : Path) : List Component :=
  match path.pieces with
  | [] => []
  | first :: rest =>
    let further := rest.filterMap Component.ofPiece?
    if path.isAbsolute then .root :: further
    else if first = ['.'] then .current :: further
    else (Component.ofPiece? first).toList ++ further

/-- The path with the given steps. -/
def ofComponents : List Component → Path
  | .root :: rest => ⟨'/' :: joined rest⟩
  | steps => ⟨joined steps⟩
where
  joined (steps : List Component) : Text :=
    (steps.map Component.text).intersperse ['/'] |>.flatten

/-- The first path with the second one behind it. An absolute path takes the place of
whatever it is put behind. -/
def join (base entry : Path) : Path :=
  if entry.isAbsolute then entry
  else if base.text = [] ∨ base.text.getLast? = some '/' then ⟨base.text ++ entry.text⟩
  else ⟨base.text ++ '/' :: entry.text⟩

/-- The path without its last step, if there is one to leave out. -/
def parent? (path : Path) : Option Path :=
  match path.components.getLast? with
  | none | some .root => none
  | some _ => some (ofComponents path.components.dropLast)

/-- The name of the file, if the last step is a name. -/
def fileName? (path : Path) : Option Text :=
  match path.components.getLast? with
  | some (.name name) => some name
  | _ => none

/-- What stands behind the last dot of the file's name. A dot in front of the name is a part
of the name. -/
def extension? (path : Path) : Option Text := do
  let name ← path.fileName?
  let behind := name.reverse.takeWhile (· ≠ '.')
  if behind.length + 1 < name.length then some behind.reverse else none

/-- What is left of the path behind `base`, if its steps begin with those of `base`. -/
def stripBase? (path base : Path) : Option Path :=
  if base.components.isPrefixOf path.components then
    some (ofComponents (path.components.drop base.components.length))
  else none

/-- The order of paths, step by step. -/
def before (first second : Path) : Bool :=
  go first.components second.components
where
  go : List Component → List Component → Bool
    | [], _ => true
    | _ :: _, [] => false
    | step :: steps, other :: others =>
      if step = other then go steps others else step.before other

/-- The path with a dot and an extension behind its text, whatever dots it holds. -/
def withExtension (base : Path) (extension : Text) : Path :=
  ⟨base.text ++ '.' :: extension⟩

end Path

end Manuscript
