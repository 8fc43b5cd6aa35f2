/-
This file divides a YAML text into its pieces. Two things make this more than cutting
words apart. Indentation opens and closes collections: a line that begins further right
than the collection around it opens one, and a line further left closes all that it has
left. And a key is only recognised by the colon behind it, so wherever a key could begin
the place is remembered, and when the colon comes the piece that says so is put in there,
in front of what has been read since. A place is remembered for one line, and for 1024
characters.
-/

import Manuscript.Yaml.Scalar
import Manuscript.Yaml.Property

namespace Manuscript.Yaml

/-- A place where a key may have begun. -/
structure PossibleKey where
  /-- How many pieces come before it. -/
  position : Nat
  index : Nat
  line : Nat
  column : Nat
  /-- Whether nothing but a key can stand there. -/
  required : Bool

/-- How far a key may be from its colon. -/
def greatestKeyLength : Nat := 1024

/-- A division under way. -/
structure Scanner where
  cursor : Cursor
  /-- The pieces so far, the latest first, and their number. -/
  tokens : List Token
  count : Nat
  /-- The indentation of the innermost collection, and of those around it. -/
  indent : Int
  outer : List Int
  /-- Whether a key may begin here. -/
  keyAllowed : Bool
  /-- The possible key of this level, and of the bracketed collections around. -/
  possible : Option PossibleKey
  enclosing : List (Option PossibleKey)

namespace Scanner

/-- At the beginning of a text. -/
def start (text : Text) : Scanner where
  cursor := .start text
  tokens := []
  count := 0
  indent := -1
  outer := []
  keyAllowed := true
  possible := none
  enclosing := []

/-- Whether the place lies within brackets. -/
def bracketed (scanner : Scanner) : Bool :=
  !scanner.enclosing.isEmpty

/-- The column of the cursor. -/
def column (scanner : Scanner) : Int :=
  scanner.cursor.column

/-- Adds a piece. -/
def emit (scanner : Scanner) (token : Token) : Scanner :=
  { scanner with tokens := token :: scanner.tokens, count := scanner.count + 1 }

/-- Puts a piece in behind the first `position` ones. -/
def emitAt (scanner : Scanner) (position : Nat) (token : Token) : Scanner :=
  { scanner with
    tokens := scanner.tokens.insertIdx (scanner.count - position) token
    count := scanner.count + 1 }

/-- Moves behind the next `count` characters. -/
def skip (scanner : Scanner) (count : Nat) : Scanner :=
  { scanner with cursor := scanner.cursor.skip count }

/-! ### Indentation -/

/-- Opens a collection at a column, if that lies further right than the one around it. -/
def rollAt (scanner : Scanner) (column : Int) (position : Nat) (token : Token) : Scanner :=
  if !scanner.bracketed && scanner.indent < column then
    { scanner.emitAt position token with
      indent := column
      outer := scanner.indent :: scanner.outer }
  else scanner

/-- Opens a collection at the cursor. -/
def roll (scanner : Scanner) (token : Token) : Scanner :=
  scanner.rollAt scanner.column scanner.count token

/-- Closes the collections that lie further right than a column: how many there are, and
what is left. -/
def closed (column indent : Int) : List Int → Nat × Int × List Int
  | [] => (0, indent, [])
  | around :: outer =>
    if column < indent then
      let (count, indent, outer) := closed column around outer
      (count + 1, indent, outer)
    else (0, indent, around :: outer)

/-- Closes the collections that lie further right than a column. -/
def unroll (scanner : Scanner) (column : Int) : Scanner :=
  if scanner.bracketed then scanner
  else
    let (count, indent, outer) := closed column scanner.indent scanner.outer
    { scanner with
      tokens := List.replicate count .blockEnd ++ scanner.tokens
      count := scanner.count + count
      indent := indent
      outer := outer }

/-! ### Possible keys -/

/-- Forgets the possible key of this level, unless a key is required there. -/
def dropKey (scanner : Scanner) : Option Scanner :=
  match scanner.possible with
  | some key => if key.required then none else some { scanner with possible := none }
  | none => some scanner

/-- Remembers that a key may begin here. -/
def saveKey (scanner : Scanner) : Option Scanner := do
  if scanner.keyAllowed then
    let scanner ← scanner.dropKey
    let cursor := scanner.cursor
    some { scanner with
      possible := some
        { position := scanner.count
          index := cursor.index
          line := cursor.line
          column := cursor.column
          required := !scanner.bracketed && scanner.indent == scanner.column } }
  else some scanner

/-- The possible key, if its colon can still come. -/
def fresh (cursor : Cursor) : Option PossibleKey → Option (Option PossibleKey)
  | none => some none
  | some key =>
    if key.line < cursor.line ∨ key.index + greatestKeyLength < cursor.index then
      if key.required then none else some none
    else some (some key)

/-- Forgets the possible keys that lie too far back. -/
def dropStale (scanner : Scanner) : Option Scanner := do
  let possible ← fresh scanner.cursor scanner.possible
  let enclosing ← scanner.enclosing.mapM (fresh scanner.cursor)
  some { scanner with possible := possible, enclosing := enclosing }

/-! ### Between pieces -/

/-- Moves to the next piece, past white space, comments and line ends. A key may begin on a
new line outside brackets, and a tab may not stand where one may begin. -/
def toNext (scanner : Scanner) : Option Scanner :=
  iterate (fun scanner => scanner.cursor.left) step scanner
where
  step (scanner : Scanner) : Option (Scanner ⊕ Scanner) :=
    let cursor := scanner.cursor
    let cursor :=
      if cursor.index = 0 ∧ cursor.next? = some (Char.ofNat 0xFEFF) then cursor.skip 1 else cursor
    let tabsToo := scanner.bracketed || !scanner.keyAllowed
    let cursor := cursor.skipWhile fun character =>
      character = ' ' || (tabsToo && character = '\t')
    let cursor := if cursor.sees '#' then cursor.skipWhile (!isBreak ·) else cursor
    if cursor.seesBreak then
      some (.inl { scanner with
        cursor := cursor.takeBreak.2
        keyAllowed := scanner.keyAllowed || !scanner.bracketed })
    else some (.inr { scanner with cursor := cursor })

/-! ### Pieces -/

/-- The end of the text counts as the beginning of a new line. -/
def finish (scanner : Scanner) : Option (List Token) := do
  let scanner ← (scanner.unroll (-1)).dropKey
  some scanner.tokens.reverse

/-- Begins anew at the margin, for a directive or the border of a document. -/
def atMargin (scanner : Scanner) : Option Scanner := do
  let scanner ← (scanner.unroll (-1)).dropKey
  some { scanner with keyAllowed := false }

/-- A directive at the margin. -/
def directive (scanner : Scanner) : Option Scanner := do
  let scanner ← scanner.atMargin
  let (token, cursor) ← readDirective (scanner.cursor.skip 1)
  some { scanner.emit token with cursor := cursor }

/-- A line that begins or ends a document. -/
def documentMarker (scanner : Scanner) (token : Token) : Option Scanner := do
  let scanner ← scanner.atMargin
  some ((scanner.emit token).skip 3)

/-- An opening bracket. What it opens may itself be a key. -/
def openBracket (scanner : Scanner) (token : Token) : Option Scanner := do
  let scanner ← scanner.saveKey
  some { (scanner.emit token).skip 1 with
    keyAllowed := true
    possible := none
    enclosing := scanner.possible :: scanner.enclosing }

/-- A closing bracket. What it closes may be a key of the level around it. -/
def closeBracket (scanner : Scanner) (token : Token) : Option Scanner := do
  let scanner ← scanner.dropKey
  let scanner := (scanner.emit token).skip 1
  match scanner.enclosing with
  | outer :: enclosing =>
    some { scanner with keyAllowed := false, possible := outer, enclosing := enclosing }
  | [] => some { scanner with keyAllowed := false }

/-- A comma between items. A key may begin behind it. -/
def comma (scanner : Scanner) : Option Scanner := do
  let scanner ← scanner.dropKey
  some { (scanner.emit .comma).skip 1 with keyAllowed := true }

/-- A hyphen before an item. Outside brackets it may stand only where a key might. -/
def item (scanner : Scanner) : Option Scanner := do
  if !scanner.bracketed && !scanner.keyAllowed then none
  else
    let scanner ← (scanner.roll .blockSequenceStart).dropKey
    some { (scanner.emit .item).skip 1 with keyAllowed := true }

/-- A question mark before a key. -/
def key (scanner : Scanner) : Option Scanner := do
  if !scanner.bracketed && !scanner.keyAllowed then none
  else
    let scanner ← (scanner.roll .blockMappingStart).dropKey
    some { (scanner.emit .key).skip 1 with keyAllowed := !scanner.bracketed }

/-- A colon before a value. If a key can have come before it, this is where the key is put
in. -/
def value (scanner : Scanner) : Option Scanner :=
  match scanner.possible with
  | some key =>
    let scanner := scanner.emitAt key.position .key
    let scanner := scanner.rollAt key.column key.position .blockMappingStart
    some { (scanner.emit .value).skip 1 with possible := none, keyAllowed := false }
  | none =>
    if !scanner.bracketed && !scanner.keyAllowed then none
    else
      let scanner := scanner.roll .blockMappingStart
      some { (scanner.emit .value).skip 1 with keyAllowed := !scanner.bracketed }

/-- A piece that a key may begin with, as `read` reads it from the cursor. -/
def keyPiece (scanner : Scanner) (read : Cursor → Option (Token × Cursor)) : Option Scanner := do
  let scanner ← scanner.saveKey
  let (token, cursor) ← read scanner.cursor
  some { scanner.emit token with cursor := cursor, keyAllowed := false }

/-- A text in quotes. -/
def quoted (scanner : Scanner) (single : Bool) : Option Scanner :=
  scanner.keyPiece fun cursor => do
    let (text, cursor) ← readQuoted single (cursor.skip 1)
    some (.scalar text false, cursor)

/-- A block of lines. A key may begin on the line behind it. -/
def block (scanner : Scanner) (folded : Bool) : Option Scanner := do
  let scanner ← scanner.dropKey
  let (text, cursor) ← readBlock folded scanner.indent (scanner.cursor.skip 1)
  some { scanner.emit (.scalar text false) with cursor := cursor, keyAllowed := true }

/-- A plain text. A key may begin behind it only on a new line. -/
def plain (scanner : Scanner) : Option Scanner := do
  let scanner ← scanner.saveKey
  let read ← readPlain scanner.bracketed (scanner.indent + 1) scanner.cursor
  some { scanner.emit (.scalar read.text true) with
    cursor := read.cursor
    keyAllowed := read.gap.folded }

/-- The characters that a plain text cannot begin with. -/
def indicators : Text :=
  "-?:,[]\x7b\x7d#&*!|>'\"%@\x60".toList

/-- Whether a plain text can begin with a character that has the other one behind it. -/
def canBeginPlain (bracketed : Bool) (character : Char) (behind : Option Char) : Bool :=
  !(isGap character || isBreak character || indicators.contains character) ||
    (character = '-' && !behind.any isGap) ||
    (!bracketed && (character = '?' || character = ':') && !endsWord behind)

/-- Reads the piece that begins at the cursor with the given character. -/
def piece (scanner : Scanner) (character : Char) : Option Scanner :=
  let cursor := scanner.cursor
  let behind := cursor.rest[1]?
  let alone := endsWord behind
  let bracketed := scanner.bracketed
  if cursor.column = 0 ∧ character = '%' then scanner.directive
  else if cursor.seesMarker '-' then scanner.documentMarker .documentStart
  else if cursor.seesMarker '.' then scanner.documentMarker .documentEnd
  else
    match character with
    | '[' => scanner.openBracket .flowSequenceStart
    | '\x7b' => scanner.openBracket .flowMappingStart
    | ']' => scanner.closeBracket .flowSequenceEnd
    | '\x7d' => scanner.closeBracket .flowMappingEnd
    | ',' => scanner.comma
    | '*' => scanner.keyPiece fun cursor => do
      let (name, cursor) ← readAnchorName (cursor.skip 1)
      some (.aliasOf name, cursor)
    | '&' => scanner.keyPiece fun cursor => do
      let (name, cursor) ← readAnchorName (cursor.skip 1)
      some (.anchor name, cursor)
    | '!' => scanner.keyPiece (readTag bracketed)
    | '\'' => scanner.quoted true
    | '"' => scanner.quoted false
    | _ =>
      if character = '-' ∧ alone then scanner.item
      else if character = '?' ∧ (bracketed ∨ alone) then scanner.key
      else if character = ':' ∧ (bracketed ∨ alone) then scanner.value
      else if character = '|' ∧ ¬bracketed then scanner.block false
      else if character = '>' ∧ ¬bracketed then scanner.block true
      else if canBeginPlain bracketed character behind then scanner.plain
      else none

/-- Moves to the next piece and reads it. -/
def next (scanner : Scanner) : Option (Scanner ⊕ List Token) := do
  let scanner ← scanner.toNext
  let scanner ← scanner.dropStale
  let scanner := scanner.unroll scanner.column
  match scanner.cursor.next? with
  | none =>
    let tokens ← scanner.finish
    some (.inr tokens)
  | some character =>
    let scanner ← scanner.piece character
    some (.inl scanner)

end Scanner

/-- The pieces of a YAML text. -/
def tokens? (text : Text) : Option (List Token) :=
  if text.all isAllowed then
    iterate (fun scanner => scanner.cursor.left) Scanner.next (.start text)
  else none

end Manuscript.Yaml
