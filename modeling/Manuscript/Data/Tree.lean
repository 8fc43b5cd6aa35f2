/-
This file holds the values that a settings file is made of, whichever notation it is
written in. A floating-point number is kept as its bits, so that equal trees are equal
numbers to the last bit. An object keeps one value per key: a later value takes the
place of an earlier one.
-/

import Manuscript.Text.Basic

namespace Manuscript

/-- A value of a settings file. -/
inductive Tree where
  | null
  | bool (value : Bool)
  | int (value : Int)
  | float (bits : UInt64)
  | string (value : Text)
  | array (items : List Tree)
  | object (entries : List (Text × Tree))

/-- The least integer that 64 bits hold. -/
def leastInteger : Int := -0x8000000000000000

/-- The greatest integer that 64 bits hold, if they need not hold a sign. -/
def greatestInteger : Int := 0xFFFFFFFFFFFFFFFF

/-- Whether 64 bits can hold an integer, with a sign or without one. -/
def fitsWord (number : Int) : Bool :=
  leastInteger ≤ number && number ≤ greatestInteger

namespace Tree

/-- The entries of an object after one more is read. -/
def insert (key : Text) (value : Tree) : List (Text × Tree) → List (Text × Tree)
  | [] => [(key, value)]
  | entry :: rest => if entry.1 = key then (key, value) :: rest else entry :: insert key value rest

/-- An object from its entries in the order in which they are written. -/
def ofEntries (entries : List (Text × Tree)) : Tree :=
  .object (entries.foldl (fun present entry => insert entry.1 entry.2 present) [])

/-- The value under a key. What is not an object has none. -/
def get? (key : Text) : Tree → Option Tree
  | object entries => entries.lookup key
  | _ => none

/-- The truth value, if the value is one. -/
def asBool? : Tree → Option Bool
  | bool value => some value
  | _ => none

/-- The text, if the value is a string. -/
def asString? : Tree → Option Text
  | string value => some value
  | _ => none

/-- The items, if the value is an array. -/
def asArray? : Tree → Option (List Tree)
  | array items => some items
  | _ => none

/-- The items, if the value is an array of strings and of nothing else. -/
def asStrings? (tree : Tree) : Option (List Text) :=
  tree.asArray?.bind fun items => items.mapM asString?

end Tree

end Manuscript
