/-
This file loads the settings of a project. They start from the standard ones with every
manuscript file of the project in its order, and the values of the settings file are laid
over that. The file is the one that is named, or else the first of three names that is
there; without one the standard settings hold as they are.
-/

import Manuscript.Discovery
import Manuscript.Settings.Language
import Manuscript.Settings.Overlay

namespace Manuscript.Settings

/-- The names that a settings file can have, in the order in which they are looked for. -/
def fileNames : List Path :=
  [.ofString "config.json", .ofString "config.yml", .ofString "config.yaml"]

/-- The settings file of a project. -/
def file? (files : FileSystem) (root : Path) : Option Path :=
  (fileNames.map root.join).find? files.hasFile

/-- The standard settings of a project. -/
def standardFor (files : FileSystem) (root : Path) : Settings :=
  { standard with options := { Options.standard with order := manuscriptFiles files root } }

/-- The settings of a project by a given settings file, and what there is to report. -/
def loadFile (files : FileSystem) (root path : Path) : Except Failure (Settings × List Notice) := do
  let language ← Language.ofPath path
  match files.readText path with
  | none => .error (.unreadableSettings path)
  | some source =>
    let tree ← language.parse path source
    .ok ((standardFor files root).overlay tree)

/-- The settings of a project, and what there is to report. -/
def load (files : FileSystem) (root : Path) : Except Failure (Settings × List Notice) :=
  match file? files root with
  | some path => loadFile files root path
  | none => .ok (standardFor files root, [.noSettingsFile])

end Manuscript.Settings
