/-
This file reads the texts of YAML: plain ones, quoted ones, and blocks of lines. Within
the first two, a line end is folded: a single one becomes a space, and of several the
first is dropped. In a block, the indentation of the first line that is not empty sets
the margin, and lines are kept or folded as its first character says.
-/

import Manuscript.Data.Decimal
import Manuscript.Yaml.Cursor

namespace Manuscript.Yaml

/-! ### Gaps -/

/-- White space within a text. Once a line has ended, only the line ends count. -/
structure Gap where
  blanks : Text
  /-- The first line end. -/
  first : Text
  /-- The line ends behind it. -/
  further : Text
  folded : Bool

namespace Gap

/-- No white space. -/
def none : Gap := ⟨[], [], [], false⟩

/-- What the gap stands for in the text. -/
def text (gap : Gap) : Text :=
  if gap.folded then
    if gap.first = ['\n'] then if gap.further.isEmpty then [' '] else gap.further
    else gap.first ++ gap.further
  else gap.blanks

/-- Reads white space and line ends. On a line inside the gap, a tab may not stand left of
`margin`. -/
def read (margin : Int) (start : Gap × Cursor) : Option (Gap × Cursor) :=
  iterate (fun (_, cursor) => cursor.left) step start
where
  step : Gap × Cursor → Option ((Gap × Cursor) ⊕ (Gap × Cursor))
    | (gap, cursor) =>
      if cursor.seesGap then
        if gap.folded then
          if cursor.sees '\t' && (cursor.column : Int) < margin then Option.none
          else some (.inl (gap, cursor.skip 1))
        else
          some (.inl ({ gap with blanks := gap.blanks ++ cursor.rest.take 1 }, cursor.skip 1))
      else if cursor.seesBreak then
        let (ended, cursor) := cursor.takeBreak
        if gap.folded then
          some (.inl ({ gap with further := gap.further ++ ended }, cursor))
        else some (.inl ({ gap with blanks := [], first := ended, folded := true }, cursor))
      else some (.inr (gap, cursor))

end Gap

/-! ### Plain texts -/

/-- The characters that follow without a gap. Inside brackets the text ends at a bracket or
comma, and a colon may not stand directly before one. -/
def plainRun (bracketed : Bool) : Text → Option Text
  | [] => some []
  | character :: rest =>
    if isGap character || isBreak character then some []
    else if bracketed && character = ':' && rest.head?.any ",?[]\x7b\x7d".toList.contains then none
    else if (character = ':' && endsWord rest.head?) ||
        (bracketed && ",[]\x7b\x7d".toList.contains character) then some []
    else (plainRun bracketed rest).map (character :: ·)

/-- What is read of a plain text: the text, the gap behind it, and the place behind both. -/
structure PlainText where
  text : Text
  gap : Gap
  cursor : Cursor

/-- Reads a plain text. Outside brackets it ends before a line that begins left of
`margin`. -/
def readPlain (bracketed : Bool) (margin : Int) (start : Cursor) : Option PlainText :=
  iterate (fun reading => reading.cursor.left) step ⟨[], .none, start⟩
where
  step (reading : PlainText) : Option (PlainText ⊕ PlainText) := do
    let cursor := reading.cursor
    if cursor.seesDocumentMarker || cursor.sees '#' then some (.inr reading)
    else
      let run ← plainRun bracketed cursor.rest
      let reading : PlainText :=
        if run.isEmpty then reading
        else ⟨reading.text ++ reading.gap.text ++ run, .none, cursor.skip run.length⟩
      if !reading.cursor.seesGap && !reading.cursor.seesBreak then some (.inr reading)
      else
        let (gap, cursor) ← Gap.read margin (reading.gap, reading.cursor)
        let reading : PlainText := { reading with gap := gap, cursor := cursor }
        if !bracketed && (cursor.column : Int) < margin then some (.inr reading)
        else some (.inl reading)

/-! ### Quoted texts -/

/-- The character that a short escape stands for. -/
def escaped? (character : Char) : Option Char :=
  match character with
  | '0' => some (Char.ofNat 0)
  | 'a' => some (Char.ofNat 7)
  | 'b' => some (Char.ofNat 8)
  | 't' | '\t' => some '\t'
  | 'n' => some '\n'
  | 'v' => some (Char.ofNat 11)
  | 'f' => some (Char.ofNat 12)
  | 'r' => some '\r'
  | 'e' => some (Char.ofNat 27)
  | ' ' => some ' '
  | '"' => some '"'
  | '/' => some '/'
  | '\\' => some '\\'
  | 'N' => some (Char.ofNat 0x85)
  | '_' => some (Char.ofNat 0xA0)
  | 'L' => some (Char.ofNat 0x2028)
  | 'P' => some (Char.ofNat 0x2029)
  | _ => none

/-- How many hexadecimal digits follow an escape that gives a code point. -/
def codeLength? : Char → Option Nat
  | 'x' => some 2
  | 'u' => some 4
  | 'U' => some 8
  | _ => none

/-- The character with the code point that the hexadecimal digits give, if there is one. -/
def ofCode? (length : Nat) (digits : Text) : Option Char := do
  let code ← Digit.number? 16 digits
  if digits.length = length ∧ code ≤ 0x10FFFF ∧ ¬(0xD800 ≤ code ∧ code ≤ 0xDFFF) then
    some (Char.ofNat code)
  else none

/-- The character behind a backslash, and the place behind its escape. -/
def readEscape (cursor : Cursor) : Option (Char × Cursor) := do
  let character ← cursor.next?
  match codeLength? character with
  | some length =>
    let meant ← ofCode? length ((cursor.rest.drop 1).take length)
    some (meant, cursor.skip (length + 1))
  | none =>
    let meant ← escaped? character
    some (meant, cursor.skip 1)

/-- The characters of a quoted text that follow without a gap, whether a backslash before
the line end cut them off, and the place behind them. -/
def quotedRun (single : Bool) (start : Cursor) : Option (Text × Bool × Cursor) :=
  iterate (fun (_, cursor) => cursor.left) step ([], start)
where
  step : Text × Cursor → Option ((Text × Cursor) ⊕ (Text × Bool × Cursor))
    | (read, cursor) =>
      if cursor.seesWordEnd then some (.inr (read.reverse, false, cursor))
      else if single then
        match cursor.rest with
        | '\'' :: '\'' :: _ => some (.inl ('\'' :: read, cursor.skip 2))
        | '\'' :: _ => some (.inr (read.reverse, false, cursor))
        | _ => plain read cursor
      else
        match cursor.rest with
        | '"' :: _ => some (.inr (read.reverse, false, cursor))
        | '\\' :: rest =>
          if rest.head?.any isBreak then
            some (.inr (read.reverse, true, (cursor.skip 1).takeBreak.2))
          else do
            let (meant, cursor) ← readEscape (cursor.skip 1)
            some (.inl (meant :: read, cursor))
        | _ => plain read cursor
  plain (read : Text) (cursor : Cursor) : Option ((Text × Cursor) ⊕ (Text × Bool × Cursor)) :=
    some (.inl (cursor.rest.take 1 ++ read, cursor.skip 1))

/-- Reads a quoted text behind its opening quote: the text, and the place behind its closing
quote. -/
def readQuoted (single : Bool) (start : Cursor) : Option (Text × Cursor) :=
  iterate (fun (_, cursor) => cursor.left) step ([], start)
where
  step : Text × Cursor → Option ((Text × Cursor) ⊕ (Text × Cursor))
    | (text, cursor) => do
      if cursor.seesDocumentMarker || cursor.rest.isEmpty then none
      else
        let (run, cutOff, cursor) ← quotedRun single cursor
        if cursor.sees (if single then '\'' else '"') then
          some (.inr (text ++ run, cursor.skip 1))
        else
          let (gap, cursor) ← Gap.read 0 ({ Gap.none with folded := cutOff }, cursor)
          some (.inl (text ++ run ++ gap.text, cursor))

/-! ### Blocks of lines -/

/-- What becomes of the line ends behind a block. -/
inductive Chomping where
  | strip
  | clip
  | keep
  deriving DecidableEq

/-- The signs behind the first character of a block: what becomes of its end, and how far
it is indented. -/
structure BlockHeader where
  chomping : Chomping
  /-- Zero if the block's first line sets the margin. -/
  increment : Nat

/-- The chomping that a sign asks for. -/
def Chomping.ofSign? : Char → Option Chomping
  | '+' => some keep
  | '-' => some strip
  | _ => none

/-- Reads the signs of a block, of which there is at most one of either kind. -/
def readHeader (cursor : Cursor) : Option (BlockHeader × Cursor) :=
  match cursor.next?.bind Chomping.ofSign? with
  | some chomping => do
    let cursor := cursor.skip 1
    let (increment, cursor) ← readIncrement cursor
    some (⟨chomping, increment⟩, cursor)
  | none => do
    let (increment, cursor) ← readIncrement cursor
    if increment = 0 then some (⟨.clip, 0⟩, cursor)
    else
      match cursor.next?.bind Chomping.ofSign? with
      | some chomping => some (⟨chomping, increment⟩, cursor.skip 1)
      | none => some (⟨.clip, increment⟩, cursor)
where
  readIncrement (cursor : Cursor) : Option (Nat × Cursor) :=
    match cursor.next? with
    | some character =>
      if character = '0' then none
      else if character.isDigit then some (character.toNat - 48, cursor.skip 1)
      else some (0, cursor)
    | none => some (0, cursor)

/-- Empty lines of a block, and the indentation of the line behind them. -/
structure BlockGap where
  /-- The line ends. -/
  breaks : Text
  widest : Nat
  cursor : Cursor

/-- Reads empty lines and the indentation behind them, up to `margin` or, where that is
zero, as far as it goes. -/
def readBlockGap (margin : Nat) (start : Cursor) : Option BlockGap :=
  iterate (fun gap => gap.cursor.left) step ⟨[], 0, start⟩
where
  step (gap : BlockGap) : Option (BlockGap ⊕ BlockGap) :=
    let spaces := gap.cursor.rest.takeWhile (· = ' ')
    let count :=
      if margin = 0 then spaces.length else min spaces.length (margin - gap.cursor.column)
    let cursor := gap.cursor.skip count
    let widest := max gap.widest cursor.column
    if (margin = 0 || cursor.column < margin) && cursor.sees '\t' then none
    else if cursor.seesBreak then
      let (ended, cursor) := cursor.takeBreak
      some (.inl ⟨gap.breaks ++ ended, widest, cursor⟩)
    else some (.inr ⟨gap.breaks, widest, cursor⟩)

/-- What is read of a block. -/
structure BlockText where
  text : Text
  /-- The end of the last line. -/
  ended : Text
  /-- The ends of the empty lines behind it. -/
  breaks : Text
  /-- Whether the last line began with white space beyond the margin. -/
  indented : Bool
  cursor : Cursor

/-- Reads the lines of a block at the given margin. -/
def readBlockLines (folded : Bool) (margin : Nat) (start : BlockText) : Option BlockText :=
  iterate (fun reading => reading.cursor.left) step start
where
  step (reading : BlockText) : Option (BlockText ⊕ BlockText) := do
    let cursor := reading.cursor
    if cursor.column = margin ∧ ¬cursor.rest.isEmpty then
      let indented := cursor.seesGap
      let joint :=
        if folded && reading.ended = ['\n'] && !reading.indented && !indented then
          if reading.breaks.isEmpty then [' '] else []
        else reading.ended
      let (line, cursor) := cursor.takeWhile (!isBreak ·)
      let (ended, cursor) := cursor.takeBreak
      let gap ← readBlockGap margin cursor
      some (.inl
        ⟨reading.text ++ joint ++ reading.breaks ++ line, ended, gap.breaks, indented, gap.cursor⟩)
    else some (.inr reading)

/-- Reads a block behind its first character. `around` is the indentation of what the block
stands in. -/
def readBlock (folded : Bool) (around : Int) (start : Cursor) : Option (Text × Cursor) := do
  let (header, cursor) ← readHeader start
  let cursor := cursor.skipWhile isGap
  let cursor := if cursor.sees '#' then cursor.skipWhile (!isBreak ·) else cursor
  if !cursor.seesLineEnd then none
  else
    let cursor := cursor.takeBreak.2
    let asked := if header.increment = 0 then 0 else (max around 0).toNat + header.increment
    let gap ← readBlockGap asked cursor
    let margin := if asked = 0 then max (max gap.widest (around + 1).toNat) 1 else asked
    let read ← readBlockLines folded margin ⟨[], [], gap.breaks, false, gap.cursor⟩
    let ended := if header.chomping = .strip then [] else read.ended
    let breaks := if header.chomping = .keep then read.breaks else []
    some (read.text ++ ended ++ breaks, read.cursor)

end Manuscript.Yaml
