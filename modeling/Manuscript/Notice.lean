/-
This file lists what a compilation reports while it goes on. None of it ends the
compilation. Each notice has a level, which decides who gets to see it, and one wording.
-/

import Manuscript.Path
import Manuscript.Aside.Block

namespace Manuscript

/-- How much a notice matters. -/
inductive Level where
  | error
  | warn
  | info
  | debug
  | trace
  deriving DecidableEq, Repr

namespace Level

/-- The level as it is written. -/
def name : Level → String
  | error => "ERROR"
  | warn => "WARN"
  | info => "INFO"
  | debug => "DEBUG"
  | trace => "TRACE"

/-- Whether the level is shown without being asked for. -/
def isShown : Level → Bool
  | error | warn | info => true
  | debug | trace => false

end Level

/-- Something worth telling. -/
inductive Notice where
  | namesIgnored
  | noSettingsFile
  | nothingToCompile
  | invalidNames (source : Path) (line : Nat) (names : List Text)
  | unterminated (block : Block) (source : Path)
  | missingFile (path : Path)
  | compiled (path : Path) (lines : Nat)
  | wrote (path : Path)
  deriving DecidableEq, Repr

namespace Notice

/-- How much the notice matters. -/
def level : Notice → Level
  | namesIgnored | invalidNames .. | unterminated .. | missingFile _ => .warn
  | noSettingsFile | nothingToCompile | wrote _ => .info
  | compiled .. => .debug

/-- A number in decimal digits. -/
def digits (number : Nat) : Text :=
  (toString number).toList

/-- What the reader is told. -/
def message : Notice → Text
  | namesIgnored => "Ignoring invalid names in config".toList
  | noSettingsFile => "No config file found for project. Using default settings.".toList
  | nothingToCompile => "No proze files to compile.".toList
  | invalidNames source line names =>
    "Invalid names found in ".toList ++ source.text ++ ['['] ++ digits line ++ "]: ".toList ++
      (names.intersperse ", ".toList).flatten
  | unterminated block source =>
    "Unterminated ".toList ++ block.describe.toList ++ " at end of ".toList ++ source.text
  | missingFile path =>
    "Cannot find file \"".toList ++ path.text ++
      "\". Update the file names in your config file.".toList
  | compiled path lines =>
    "Compiled ".toList ++ path.text ++ " (".toList ++ digits lines ++ " lines)".toList
  | wrote path => "Wrote ".toList ++ path.text

end Notice

end Manuscript
