/-
This file puts the pieces of a YAML text together. What is read is a tree in which an
alias is still only a number: anchors are numbered in the order in which they occur, by
how many different names have been anchored before, and the number of a name is that of
its last occurrence so far. A name that is anchored again can so share its number with
the next new name, and then the later place in the text decides.
-/

import Manuscript.Yaml.Cursor

namespace Manuscript.Yaml

/-- A value as it is written. -/
inductive Node where
  | aliasOf (number : Nat)
  | scalar (tag : Option Text) (plain : Bool) (text : Text)
  | sequence (tag : Option Text) (items : List Node)
  | mapping (tag : Option Text) (entries : List (Node × Node))

/-- A missing value. -/
def Node.missing : Node := .scalar none true []

/-- An anchored value, with its number and its place in the text. -/
structure Anchored where
  number : Nat
  place : Nat
  node : Node

/-- A text half put together. -/
structure Assembly where
  /-- The pieces that are left. -/
  tokens : List Token
  /-- What tag handles stand for. -/
  handles : List (Text × Text)
  /-- The numbers of the anchored names. -/
  names : List (Text × Nat)
  /-- How many values, beginnings and ends have been read. -/
  events : Nat
  anchored : List Anchored

/-- A step of putting a text together. -/
abbrev Build := StateT Assembly Option

namespace Build

/-- The next piece, which is left where it is. -/
def peek : Build (Option Token) := do
  return (← get).tokens.head?

/-- Leaves out the next piece. -/
def drop : Build Unit :=
  modify fun assembly => { assembly with tokens := assembly.tokens.tail }

/-- Counts a value, a beginning or an end. -/
def count : Build Unit :=
  modify fun assembly => { assembly with events := assembly.events + 1 }

/-- Whether the next piece is one of the given ones. The end of the text is none. -/
def sees (tokens : List Token) : Build Bool := do
  return (← peek).any tokens.contains

/-- A missing value where one could be written. -/
def missing : Build Node := do
  count
  return .missing

/-- What a handle and a suffix come to. -/
def resolveTag (handle suffix : Text) : Build Text := do
  if handle.isEmpty then return suffix
  else
    match (← get).handles.lookup handle with
    | some meaning => return meaning ++ suffix
    | none => failure

/-- Numbers an anchor at the present place. -/
def number (name : Text) : Build (Nat × Nat) := do
  let assembly ← get
  let number := assembly.names.length
  let names :=
    if (assembly.names.lookup name).isSome then
      assembly.names.map fun entry => if entry.1 = name then (name, number) else entry
    else (name, number) :: assembly.names
  set { assembly with names := names }
  return (number, assembly.events)

/-- Remembers an anchored value. -/
def remember (place : Option (Nat × Nat)) (node : Node) : Build Node := do
  match place with
  | some (number, place) =>
    modify fun assembly =>
      { assembly with anchored := ⟨number, place, node⟩ :: assembly.anchored }
  | none => pure ()
  return node

/-- The anchor and the tag of a value. -/
structure Properties where
  anchor : Option Text
  tag : Option Text

/-- Reads the anchor of a value, if it comes next. -/
def anchor? : Build (Option Text) := do
  match ← peek with
  | some (.anchor name) =>
    drop
    return some name
  | _ => return none

/-- Reads the tag of a value, if it comes next. -/
def tag? : Build (Option Text) := do
  match ← peek with
  | some (.tag handle suffix) =>
    drop
    return some (← resolveTag handle suffix)
  | _ => return none

/-- Reads the anchor and the tag of a value, in either order. -/
def properties : Build Properties := do
  match ← anchor? with
  | some name => return ⟨some name, ← tag?⟩
  | none =>
    match ← tag? with
    | some tag => return ⟨← anchor?, some tag⟩
    | none => return ⟨none, none⟩

/-- Reads an alias, which stands for the value anchored last under its name. -/
def reference (name : Text) : Build Node := do
  drop
  match (← get).names.lookup name with
  | some number =>
    count
    return .aliasOf number
  | none => failure

/-- Counts the end of a collection. -/
def ended (node : Node) : Build Node := do
  count
  return node

end Build

open Build

mutual

/-- Reads a value. In a block, collections shown by indentation may begin; where `bare` is
set, so may a sequence whose hyphens stand no further right than what is around it. -/
def node (block bare : Bool) : (fuel : Nat) → Build Node
  | 0 => failure
  | fuel + 1 => do
    match ← peek with
    | some (.aliasOf name) => reference name
    | _ =>
      let ⟨name, tag⟩ ← properties
      let place ← name.mapM number
      count
      match ← peek with
      | some .item =>
        if block && bare then
          let items ← bareItems fuel
          remember place (← ended (.sequence tag items))
        else absent place tag
      | some (.scalar text plain) =>
        drop
        let tag := if tag = some ['!'] then none else tag
        remember place (.scalar tag plain text)
      | some .flowSequenceStart =>
        drop
        let items ← flowItems true fuel
        remember place (← ended (.sequence tag items))
      | some .flowMappingStart =>
        drop
        let entries ← flowEntries true fuel
        remember place (← ended (.mapping tag entries))
      | some .blockSequenceStart =>
        if block then
          drop
          let items ← blockItems fuel
          remember place (← ended (.sequence tag items))
        else absent place tag
      | some .blockMappingStart =>
        if block then
          drop
          let entries ← blockEntries fuel
          remember place (← ended (.mapping tag entries))
        else absent place tag
      | _ => absent place tag
where
  /-- An anchor or a tag may stand alone, for a missing value. -/
  absent (place : Option (Nat × Nat)) (tag : Option Text) : Build Node :=
    if place.isSome || tag.isSome then remember place (.scalar tag true []) else failure

/-- Reads the items of a block sequence. -/
def blockItems : (fuel : Nat) → Build (List Node)
  | 0 => failure
  | fuel + 1 => do
    match ← peek with
    | some .item =>
      drop
      let first ← if ← sees [.item, .blockEnd] then missing else node true false fuel
      return first :: (← blockItems fuel)
    | some .blockEnd =>
      drop
      return []
    | _ => failure

/-- Reads the items of a sequence that no indentation ends. -/
def bareItems : (fuel : Nat) → Build (List Node)
  | 0 => failure
  | fuel + 1 => do
    match ← peek with
    | some .item =>
      drop
      let first ←
        if ← sees [.item, .key, .value, .blockEnd] then missing else node true false fuel
      return first :: (← bareItems fuel)
    | _ => return []

/-- Reads the entries of a block mapping. -/
def blockEntries : (fuel : Nat) → Build (List (Node × Node))
  | 0 => failure
  | fuel + 1 => do
    match ← peek with
    | some .key =>
      drop
      let key ← if ← sees [.key, .value, .blockEnd] then missing else node true true fuel
      let value ← blockValue fuel
      return (key, value) :: (← blockEntries fuel)
    | some .blockEnd =>
      drop
      return []
    | _ => failure

/-- Reads the value of an entry of a block mapping. -/
def blockValue : (fuel : Nat) → Build Node
  | 0 => failure
  | fuel + 1 => do
    match ← peek with
    | some .value =>
      drop
      if ← sees [.key, .value, .blockEnd] then missing else node true true fuel
    | _ => missing

/-- Reads the items of a bracketed sequence. -/
def flowItems (first : Bool) : (fuel : Nat) → Build (List Node)
  | 0 => failure
  | fuel + 1 => do
    if ← sees [.flowSequenceEnd] then
      drop
      return []
    else
      if !first then
        if ← sees [.comma] then drop else failure
      match ← peek with
      | some .flowSequenceEnd =>
        drop
        return []
      | some .key =>
        drop
        count
        let entry ← flowPair fuel
        let item ← ended (.mapping none [entry])
        return item :: (← flowItems false fuel)
      | _ =>
        let item ← node false false fuel
        return item :: (← flowItems false fuel)

/-- Reads a single entry among the items of a bracketed sequence. Where its key is missing,
the piece that shows this is used up. -/
def flowPair : (fuel : Nat) → Build (Node × Node)
  | 0 => failure
  | fuel + 1 => do
    let ends := [.comma, .flowSequenceEnd]
    let key ←
      if ← sees (.value :: ends) then
        drop
        missing
      else node false false fuel
    if ← sees [.value] then
      drop
      let value ← if ← sees ends then missing else node false false fuel
      return (key, value)
    else return (key, ← missing)

/-- Reads the entries of a bracketed mapping. -/
def flowEntries (first : Bool) : (fuel : Nat) → Build (List (Node × Node))
  | 0 => failure
  | fuel + 1 => do
    if ← sees [.flowMappingEnd] then
      drop
      return []
    else
      if !first then
        if ← sees [.comma] then drop else failure
      let ends := [.comma, .flowMappingEnd]
      match ← peek with
      | some .flowMappingEnd =>
        drop
        return []
      | some .key =>
        drop
        let key ← if ← sees (.value :: ends) then missing else node false false fuel
        let value ←
          if ← sees [.value] then
            drop
            if ← sees ends then missing else node false false fuel
          else missing
        return (key, value) :: (← flowEntries false fuel)
      | _ =>
        let key ← node false false fuel
        let value ← missing
        return (key, value) :: (← flowEntries false fuel)

end

/-! ### Documents -/

/-- What handles stand for unless a document says otherwise. -/
def standardHandles : List (Text × Text) :=
  [(['!'], ['!']), (['!', '!'], "tag:yaml.org,2002:".toList)]

/-- Reads the directives before a document. A version may be given once, and so may each
handle. -/
def directives (version : Bool) (handles : List (Text × Text)) : (fuel : Nat) → Build Unit
  | 0 => failure
  | fuel + 1 => do
    match ← peek with
    | some (.version major minor) =>
      if version || major ≠ 1 || (minor ≠ 1 && minor ≠ 2) then failure
      else
        drop
        directives true handles fuel
    | some (.handle handle meaning) =>
      if (handles.lookup handle).isSome then failure
      else
        drop
        directives version ((handle, meaning) :: handles) fuel
    | _ => modify fun assembly => { assembly with handles := handles ++ standardHandles }

/-- Whether a document has begun whose first piece does not belong to its content. -/
def seesBorder : Build Bool := do
  match ← peek with
  | none | some (.version ..) | some (.handle ..) | some .documentStart | some .documentEnd =>
    return true
  | _ => return false

/-- Reads the content of the only document of a text. -/
def document (fuel : Nat) : Build (Option Node) := do
  match ← peek with
  | none => return none
  | some (.version ..) | some (.handle ..) | some .documentStart =>
    directives false [] fuel
    if ← sees [.documentStart] then
      drop
      return some (← if ← seesBorder then missing else node true false fuel)
    else failure
  | _ => return some (← node true false fuel)

/-- The document that the pieces make, and what was learned while it was read. A text may
hold one document at most. -/
def document? (tokens : List Token) : Option (Option Node × Assembly) := do
  let fuel := 4 * tokens.length + 8
  let (content, assembly) ← (document fuel).run ⟨tokens, standardHandles, [], 0, []⟩
  if (assembly.tokens.dropWhile (· = .documentEnd)).isEmpty then some (content, assembly) else none

end Manuscript.Yaml
