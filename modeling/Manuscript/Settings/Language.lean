/-
This file reads the text of a settings file. The file's extension, in any case, says
which of two languages it is written in; any other extension is refused. A text with
nothing but white space in it is the null value in either language.
-/

import Manuscript.Failure
import Manuscript.Json.Document
import Manuscript.Text.LowerCase
import Manuscript.Yaml.Document

namespace Manuscript

/-- A language that settings can be written in. -/
inductive Language where
  | json
  | yaml
  deriving DecidableEq, Repr

namespace Language

/-- The language of a file, by its extension. -/
def ofPath (path : Path) : Except Failure Language :=
  match (path.extension?.map Text.lower).map String.ofList with
  | some "json" => .ok json
  | some "yml" | some "yaml" => .ok yaml
  | _ => .error (.unknownSettingsLanguage path)

/-- The value that a text writes in the language. `path` is named if it writes none. -/
def parse (language : Language) (path : Path) (source : Text) : Except Failure Tree :=
  if (Text.trim source).isEmpty then .ok .null
  else
    match language with
    | json =>
      match Json.parse? source with
      | some tree => .ok tree
      | none => .error (.malformedJson path)
    | yaml =>
      match Yaml.parse? source with
      | some tree => .ok tree
      | none => .error (.malformedYaml path)

end Language

end Manuscript
