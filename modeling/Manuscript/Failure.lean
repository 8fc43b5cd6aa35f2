/-
This file lists what can end a compilation. Hiding, following and laying out text never
fail; every failure comes from settings, from the choice of a format, or from reading
and writing files. Each has one wording.
-/

import Manuscript.Path

namespace Manuscript

/-- Why a compilation ended. -/
inductive Failure where
  | unreadableSettings (path : Path)
  | unknownSettingsLanguage (path : Path)
  | malformedJson (path : Path)
  | malformedYaml (path : Path)
  | unknownFormat (name : Text)
  /-- The format is planned but cannot be written yet. -/
  | plannedFormat (name : Text)
  | outputNotCreated (path : Path)
  | inputNotRead (path : Path)
  deriving DecidableEq, Repr

/-- What the reader is told. -/
def Failure.message : Failure → Text
  | unreadableSettings path => "Failed to read config file at ".toList ++ path.text
  | unknownSettingsLanguage path => "Unrecognized config file type: ".toList ++ path.text
  | malformedJson path => "Failed to parse JSON config file at ".toList ++ path.text
  | malformedYaml path => "Failed to parse YAML config file at ".toList ++ path.text
  | unknownFormat name => "Unrecognized strategy ".toList ++ name
  | plannedFormat name =>
    "Strategy '".toList ++ name ++ "' is not implemented yet".toList
  | outputNotCreated path => "Failed to create output file ".toList ++ path.text
  | inputNotRead path => "Failed to read ".toList ++ path.text

end Manuscript
