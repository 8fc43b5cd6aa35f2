/-
This file looks for names that must not appear in a manuscript. Case makes no
difference: name and line are lower-cased, each on its own, and then the name is looked
for anywhere in the line. A name with nothing but white space in it is not looked for.
-/

import Manuscript.Text.LowerCase

namespace Manuscript

/-- Whether `part` occurs in the text as an unbroken run. -/
def Text.occursIn (part : Text) : Text → Bool
  | [] => part.isEmpty
  | character :: rest => part.isPrefixOf (character :: rest) || occursIn part rest

/-- A name to look for, as the project spells it and in lower case. -/
structure WatchedName where
  spelling : Text
  folded : Text
  deriving DecidableEq, Repr

/-- The names to look for, in the project's order. -/
structure Watchlist where
  names : List WatchedName
  deriving DecidableEq, Repr

namespace Watchlist

/-- The watch for a list of names. -/
def ofNames (names : List Text) : Watchlist :=
  ⟨(names.filter fun name => !(Text.trim name).isEmpty).map fun name => ⟨name, Text.lower name⟩⟩

/-- The names found in a line, in the project's order. -/
def found (watchlist : Watchlist) (line : Text) : List Text :=
  match watchlist.names with
  | [] => []
  | names =>
    let folded := Text.lower line
    (names.filter fun name => name.folded.occursIn folded).map (·.spelling)

end Watchlist

end Manuscript
