/-
This file keeps the output formats. A format is known by its name, and a further name
can stand for it. Looking a name up follows such a further name exactly one step, and
before a format of the same name, so what a name finds depends only on the last entry
for each name. Choosing a format touches no file: a name that finds nothing fails before
any output exists.
-/

import Manuscript.Data.Association
import Manuscript.Failure

namespace Manuscript

/-- An output format. -/
structure Format where
  name : Text
  /-- What is put behind the output's path. -/
  extension : Text
  description : Text
  deriving DecidableEq, Repr

namespace Format

/-- Plain text. -/
def plainText : Format where
  name := "txt".toList
  extension := "txt".toList
  description := "Plain text, wrapped at 80 columns".toList

/-- The names of formats that cannot be written yet. -/
def planned : List Text :=
  ["pdf".toList]

end Format

/-- The formats that can be chosen, at most one of each name, and the further names. -/
structure Registry where
  formats : List Format
  aliases : List (Text × Text)
  deriving DecidableEq, Repr

namespace Registry

/-- No formats. -/
def empty : Registry := ⟨[], []⟩

/-- Adds a format. It takes the place of one with its name. -/
def register (registry : Registry) (format : Format) : Registry :=
  { registry with formats := format :: registry.formats.filter (·.name ≠ format.name) }

/-- Lets `further` stand for `name`. It takes the place of what `further` stood for. -/
def addAlias (registry : Registry) (further name : Text) : Registry :=
  { registry with aliases := Association.put registry.aliases further name }

/-- The name that is looked for under a name. -/
def target (registry : Registry) (name : Text) : Text :=
  (registry.aliases.lookup name).getD name

/-- The format that a name finds. -/
def get? (registry : Registry) (name : Text) : Option Format :=
  registry.formats.find? (·.name = registry.target name)

/-- What a further name stands for is what it was given last. -/
theorem target_addAlias (registry : Registry) (further name other : Text) :
    (registry.addAlias further name).target other =
      if other = further then name else registry.target other := by
  by_cases same : other = further <;> simp [target, addAlias, Association.lookup_put, same]

/-- A format is found under every name that leads to its own. -/
theorem get?_register (registry : Registry) (format : Format) (name : Text) :
    (registry.register format).get? name =
      if format.name = registry.target name then some format else registry.get? name := by
  have sameTarget : (registry.register format).target name = registry.target name := rfl
  unfold get?
  rw [sameTarget]
  simp only [register, List.find?_cons, List.find?_filter]
  by_cases named : format.name = registry.target name
  · simp [named]
  · simp only [named, decide_false, if_false]
    congr 1
    funext other
    by_cases same : other.name = registry.target name <;> simp [same, Ne.symm named]

/-- Whether a name finds a format. -/
def has (registry : Registry) (name : Text) : Bool :=
  (registry.get? name).isSome

/-- The format that a name finds, or why it finds none. -/
def resolve (registry : Registry) (name : Text) : Except Failure Format :=
  match registry.get? name with
  | some format => .ok format
  | none => .error (if Format.planned.contains name then .plannedFormat name else .unknownFormat name)

/-- The names of the formats, in order. -/
def names (registry : Registry) : List Text :=
  (registry.formats.map (·.name)).mergeSort Text.before

/-- The formats of the program. -/
def standard : Registry :=
  (empty.register .plainText).addAlias "text".toList "txt".toList

end Registry

end Manuscript
