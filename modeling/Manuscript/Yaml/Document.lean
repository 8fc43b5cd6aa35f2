/-
This file says what a YAML text stands for. Values are read off the tree of its pieces;
an alias stands for the value that was anchored last under its number. Collections may
lie 128 deep, an alias counting where it stands, and aliases may be followed a hundred
times for each value, beginning and end in the text, so an alias within its own value is
refused and so is a text that grows out of all proportion.
-/

import Manuscript.Yaml.Scan
import Manuscript.Yaml.Node
import Manuscript.Yaml.Resolve

namespace Manuscript.Yaml

/-- How deep collections may lie. -/
def greatestDepth : Nat := 128

/-- How many times aliases may be followed for each value, beginning and end. -/
def aliasesPerEvent : Nat := 100

/-- The value anchored under a number. Of several the one that comes last in the text counts. -/
def anchoredUnder (number : Nat) (anchored : List Anchored) : Option Node :=
  ((anchored.filter (·.number = number)).foldl later none).map (·.node)
where
  later (best : Option Anchored) (anchor : Anchored) : Option Anchored :=
    match best with
    | some present => if present.place < anchor.place then some anchor else some present
    | none => some anchor

/-- Reading values off a tree, with the number of aliases that may still be followed. -/
abbrev Reading := StateT Nat Option

/-- The node that an alias stands for; any other node stands for itself. -/
def follow (anchored : List Anchored) : Node → Reading Node
  | .aliasOf number => do
    match ← get with
    | 0 => failure
    | left + 1 =>
      set left
      match anchoredUnder number anchored with
      | some node => return node
      | none => failure
  | node => return node

/-- The key that a node stands for: any text is taken as it is written. -/
def keyOf (anchored : List Anchored) (node : Node) : Reading Text := do
  match ← follow anchored node with
  | .scalar _ _ text => return text
  | _ => failure

/-- Whether a collection may have a tag. A tag of one's own is refused; others mean nothing
here. -/
def isOwnTag (tag : Option Text) : Bool :=
  tag.any fun tag => tag.head? = some '!'

/-- The value that a node stands for, where collections may lie `depth` deep. -/
def valueOf (anchored : List Anchored) : (depth : Nat) → Node → Reading Tree
  | depth, node => do
    match ← follow anchored node with
    | .scalar tag plain text =>
      match scalarValue? tag plain text with
      | some value => return value
      | none => failure
    | .sequence tag items =>
      match depth with
      | 0 => failure
      | depth + 1 =>
        if isOwnTag tag then failure
        else return .array (← items.mapM (valueOf anchored depth))
    | .mapping tag entries =>
      match depth with
      | 0 => failure
      | depth + 1 =>
        if isOwnTag tag then failure
        else
          let entries ← entries.mapM fun (key, value) => do
            let key ← keyOf anchored key
            return (key, ← valueOf anchored depth value)
          return .ofEntries entries
    | .aliasOf _ => failure

/-- The value that a YAML text writes. A text without a document is null. -/
def parse? (text : Text) : Option Tree := do
  let tokens ← tokens? text
  match ← document? tokens with
  | (none, _) => some .null
  | (some node, assembly) =>
    let (value, _) ←
      (valueOf assembly.anchored greatestDepth node).run (aliasesPerEvent * assembly.events)
    some value

end Manuscript.Yaml
