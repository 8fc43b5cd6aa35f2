/-
This file puts the pieces of a JSON text together. What may follow at a place depends on
the arrays and objects that are open there, so the pieces are read one by one against
that state, and the text is accepted if one complete value has been read at its end. At
most 127 arrays and objects may be open at once.
-/

import Manuscript.Json.Token

namespace Manuscript.Json

/-- An array or object with a value inside it that is not complete yet. What is complete
comes the latest first. -/
inductive Enclosing where
  | array (items : List Tree)
  | object (entries : List (Text × Tree)) (key : Text)

/-- What has to follow, and the arrays and objects that are open around it, the innermost
first. -/
inductive Expected where
  | value (around : List Enclosing)
  /-- The first item of an array, or its end. -/
  | firstItem (around : List Enclosing)
  /-- A comma or the end of an array. -/
  | nextItem (items : List Tree) (around : List Enclosing)
  /-- The first key of an object, or its end. -/
  | firstKey (around : List Enclosing)
  | key (entries : List (Text × Tree)) (around : List Enclosing)
  | colon (entries : List (Text × Tree)) (key : Text) (around : List Enclosing)
  /-- A comma or the end of an object. -/
  | nextKey (entries : List (Text × Tree)) (around : List Enclosing)
  | nothing (value : Tree)

/-- How many arrays and objects may be open at once. -/
def greatestDepth : Nat := 127

/-- What follows a complete value. -/
def complete (value : Tree) : List Enclosing → Expected
  | [] => .nothing value
  | .array items :: around => .nextItem (value :: items) around
  | .object entries key :: around => .nextKey ((key, value) :: entries) around

/-- What follows the beginning of a value. -/
def start? (around : List Enclosing) : Token → Option Expected
  | .openArray => if around.length < greatestDepth then some (.firstItem around) else none
  | .openObject => if around.length < greatestDepth then some (.firstKey around) else none
  | .scalar value => some (complete value around)
  | _ => none

/-- What follows the next piece. -/
def expect? : Expected → Token → Option Expected
  | .value around, token => start? around token
  | .firstItem around, .closeArray => some (complete (.array []) around)
  | .firstItem around, token => start? (.array [] :: around) token
  | .nextItem items around, .comma => some (.value (.array items :: around))
  | .nextItem items around, .closeArray => some (complete (.array items.reverse) around)
  | .firstKey around, .closeObject => some (complete (.ofEntries []) around)
  | .firstKey around, .scalar (.string key) => some (.colon [] key around)
  | .key entries around, .scalar (.string key) => some (.colon entries key around)
  | .colon entries key around, .colon => some (.value (.object entries key :: around))
  | .nextKey entries around, .comma => some (.key entries around)
  | .nextKey entries around, .closeObject =>
    some (complete (.ofEntries entries.reverse) around)
  | _, _ => none

/-- The value that a JSON text writes. -/
def parse? (text : Text) : Option Tree := do
  let tokens ← tokens? text
  match ← tokens.foldlM expect? (.value []) with
  | .nothing value => some value
  | _ => none

end Manuscript.Json
