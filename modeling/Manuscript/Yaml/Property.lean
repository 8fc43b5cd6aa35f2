/-
This file reads what may stand before a value or a document in YAML: the names of
anchors, tags, and directives. A tag is a handle with a suffix; a tag written out in
full has no handle, and a lone exclamation mark is a suffix of its own.
-/

import Manuscript.Data.Decimal
import Manuscript.Yaml.Cursor

namespace Manuscript.Yaml

/-! ### Anchors -/

/-- Reads the name of an anchor behind its mark. -/
def readAnchorName (start : Cursor) : Option (Text × Cursor) :=
  let (name, cursor) := start.takeWhile isNameCharacter
  if name.isEmpty then none
  else if cursor.seesWordEnd || cursor.seesOneOf "?:,]\x7d%@\x60".toList then some (name, cursor)
  else none

/-! ### Tags -/

/-- Whether the character may stand in a tag. Brackets and commas may do so only where the
tag cannot be taken to end at them. -/
def isTagCharacter (bracketsToo : Bool) (character : Char) : Bool :=
  isNameCharacter character || ";/?:@&=+$.!~*'()%".toList.contains character ||
    (bracketsToo && ",[]".toList.contains character)

/-- The value of the two hexadecimal digits that follow a percent sign. -/
def octet? : Text → Option (Nat × Text)
  | '%' :: high :: low :: rest => do
    let octet ← Digit.number? 16 [high, low]
    some (octet, rest)
  | _ => none

/-- How many octets a character has that begins with the given one. -/
def octetCount? (first : Nat) : Option Nat :=
  if first < 0x80 then some 1
  else if 0xC0 ≤ first ∧ first < 0xE0 then some 2
  else if 0xE0 ≤ first ∧ first < 0xF0 then some 3
  else if 0xF0 ≤ first ∧ first < 0xF8 then some 4
  else none

/-- Reads further octets of a character. -/
def furtherOctets : (count : Nat) → Text → Option (List Nat × Text)
  | 0, text => some ([], text)
  | count + 1, text => do
    let (octet, rest) ← octet? text
    if 0x80 ≤ octet ∧ octet < 0xC0 then
      let (octets, rest) ← furtherOctets count rest
      some (octet :: octets, rest)
    else none

/-- Reads the characters of a tag. An octet written with a percent sign stands for itself,
and the octets of one character have to stand together. -/
def readTagCharacters (bracketsToo : Bool) (start : Cursor) : Option (Text × Cursor) :=
  iterate (fun (_, cursor) => cursor.left) step ([], start)
where
  step : Text × Cursor → Option ((Text × Cursor) ⊕ (Text × Cursor))
    | (read, cursor) =>
      if cursor.sees '%' then do
        let (first, rest) ← octet? cursor.rest
        let count ← octetCount? first
        let (further, _) ← furtherOctets (count - 1) rest
        some (.inl (read ++ (first :: further).map Char.ofNat, cursor.skip (3 * count)))
      else if cursor.next?.any (isTagCharacter bracketsToo) then
        some (.inl (read ++ cursor.rest.take 1, cursor.skip 1))
      else some (.inr (read, cursor))

/-- Reads a tag's handle: an exclamation mark, and a name with a second one if it has one.
A name without it is returned all the same. -/
def readHandle (start : Cursor) : Option (Text × Cursor) :=
  if start.sees '!' then
    let (name, cursor) := (start.skip 1).takeWhile isNameCharacter
    if cursor.sees '!' then some ('!' :: name ++ ['!'], cursor.skip 1)
    else some ('!' :: name, cursor)
  else none

/-- Reads a tag: its handle and its suffix. -/
def readTag (bracketed : Bool) (start : Cursor) : Option (Token × Cursor) := do
  let (token, cursor) ← if start.rest[1]? = some '<' then full else short
  if cursor.seesWordEnd || (bracketed && cursor.sees ',') then some (token, cursor) else none
where
  full : Option (Token × Cursor) := do
    let (suffix, cursor) ← readTagCharacters true (start.skip 2)
    if suffix.isEmpty || !cursor.sees '>' then none
    else some (.tag [] suffix, cursor.skip 1)
  short : Option (Token × Cursor) := do
    let (handle, cursor) ← readHandle start
    if 1 < handle.length ∧ handle.getLast? = some '!' then
      let (suffix, cursor) ← readTagCharacters false cursor
      if suffix.isEmpty then none else some (.tag handle suffix, cursor)
    else
      let (suffix, cursor) ← readTagCharacters false cursor
      let suffix := handle.drop 1 ++ suffix
      some (if suffix.isEmpty then .tag [] ['!'] else .tag ['!'] suffix, cursor)

/-! ### Directives -/

/-- The longest number in a version. -/
def greatestVersionLength : Nat := 9

/-- Reads a number of a version. -/
def readVersionNumber (start : Cursor) : Option (Nat × Cursor) :=
  let (digits, cursor) := start.takeWhile Char.isDigit
  if greatestVersionLength < digits.length then none
  else (Digit.number? 10 digits).map fun number => (number, cursor)

/-- Reads the two numbers of a version. -/
def readVersion (start : Cursor) : Option (Token × Cursor) := do
  let (major, cursor) ← readVersionNumber start
  if cursor.sees '.' then
    let (minor, cursor) ← readVersionNumber (cursor.skip 1)
    some (.version major minor, cursor)
  else none

/-- Reads a handle and what it stands for. -/
def readHandleMeaning (start : Cursor) : Option (Token × Cursor) := do
  let (handle, cursor) ← readHandle start
  if handle.getLast? ≠ some '!' ∨ !cursor.seesGap then none
  else
    let (meaning, cursor) ← readTagCharacters true (cursor.skipWhile isGap)
    if meaning.isEmpty || !cursor.seesWordEnd then none
    else some (.handle handle meaning, cursor)

/-- Reads a directive behind its percent sign, up to the next line. -/
def readDirective (start : Cursor) : Option (Token × Cursor) := do
  let (name, cursor) := start.takeWhile isNameCharacter
  if !cursor.seesWordEnd then none
  else
    let cursor := cursor.skipWhile isGap
    let (token, cursor) ←
      if name = "YAML".toList then readVersion cursor
      else if name = "TAG".toList then readHandleMeaning cursor
      else none
    let cursor := cursor.skipWhile isGap
    let cursor := if cursor.sees '#' then cursor.skipWhile (!isBreak ·) else cursor
    if cursor.seesLineEnd then some (token, cursor.takeBreak.2) else none

end Manuscript.Yaml
