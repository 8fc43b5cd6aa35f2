/-
This file divides a JSON text into brackets, separators and plain values. The text is
read character by character, and what is being read at a place is a state of its own, so
the division is a fold over the text. It is strict: nothing but the notation's own
escapes, spellings and white space is let through, a control character may not stand in a
string, and the two halves of a surrogate pair have to stand side by side.
-/

import Manuscript.Data.Decimal
import Manuscript.Data.Tree

namespace Manuscript.Json

/-- A piece of a JSON text. -/
inductive Token where
  | openArray
  | closeArray
  | openObject
  | closeObject
  | comma
  | colon
  /-- A string, a number, or one of the three words. -/
  | scalar (value : Tree)

/-! ### Numbers and words -/

/-- The exponent behind its `e`: a sign, if there is one, and at least one digit. -/
def exponent? (text : Text) : Option Int :=
  let (negative, digits) :=
    match text with
    | '+' :: digits => (false, digits)
    | '-' :: digits => (true, digits)
    | digits => (false, digits)
  (Digit.number? 10 digits).map fun size => if negative then -(size : Int) else size

/-- The digits behind the point, which are empty if there is no point, and what follows. A
point needs a digit behind it. -/
def fraction? : Text → Option (Text × Text)
  | '.' :: rest =>
    let digits := rest.takeWhile Char.isDigit
    if digits.isEmpty then none else some (digits, rest.dropWhile Char.isDigit)
  | rest => some ([], rest)

/-- A floating-point number from its parts. -/
def float? (negative : Bool) (whole fraction : Text) (exponent : Int) : Option Tree :=
  (Decimal.stepwise whole fraction exponent).map fun number =>
    .float (if negative then -number else number).toBits

/-- An integer. Zero with a minus sign and integers that do not fit 64 bits are
floating-point numbers. -/
def integer? (negative : Bool) (digits : Text) : Option Tree :=
  let size := (Digit.number? 10 digits).getD 0
  let number : Int := if negative then -size else size
  if (negative && size == 0) || !fitsWord number then float? negative digits [] 0
  else some (.int number)

/-- The value of a number: an integer part without leading zeros, then digits behind a
point, then an exponent, of which the last two may be missing. -/
def number? (text : Text) : Option Tree := do
  let (negative, unsigned) :=
    match text with
    | '-' :: rest => (true, rest)
    | rest => (false, rest)
  let whole := unsigned.takeWhile Char.isDigit
  if whole.isEmpty ∨ (1 < whole.length ∧ whole.head? = some '0') then none
  let (fraction, rest) ← fraction? (unsigned.dropWhile Char.isDigit)
  match rest with
  | [] => if fraction.isEmpty then integer? negative whole else float? negative whole fraction 0
  | mark :: rest =>
    if mark = 'e' ∨ mark = 'E' then float? negative whole fraction (← exponent? rest) else none

/-- The value of a run of characters that is neither quoted nor a mark. -/
def bare? (text : Text) : Option Tree :=
  if text = "null".toList then some .null
  else if text = "true".toList then some (.bool true)
  else if text = "false".toList then some (.bool false)
  else number? text

/-! ### Reading character by character -/

/-- What is being read. Characters that are read already come the latest first. -/
inductive Reading where
  | between
  | bare (read : Text)
  | quoted (read : Text)
  /-- Behind a backslash. -/
  | escape (read : Text)
  /-- Behind a `u`, with the digits read so far; `high` is the first half of the pair that
  this is to complete. -/
  | digits (read : Text) (high : Option Nat) (count value : Nat)
  /-- Behind the first half of a pair: the second half has to follow. -/
  | pair (read : Text) (high : Nat)
  /-- Behind the first half of a pair and a backslash. -/
  | pairEscape (read : Text) (high : Nat)

/-- The mark that a character is. -/
def mark? : Char → Option Token
  | '[' => some .openArray
  | ']' => some .closeArray
  | '\x7b' => some .openObject
  | '\x7d' => some .closeObject
  | ',' => some .comma
  | ':' => some .colon
  | _ => none

/-- Whether a character is white space between pieces. -/
def isGap (character : Char) : Bool :=
  character = ' ' || character = '\n' || character = '\t' || character = '\r'

/-- The character that a short escape stands for. -/
def escaped? : Char → Option Char
  | '"' => some '"'
  | '\\' => some '\\'
  | '/' => some '/'
  | 'b' => some (Char.ofNat 8)
  | 'f' => some (Char.ofNat 12)
  | 'n' => some '\n'
  | 'r' => some '\r'
  | 't' => some '\t'
  | _ => none

/-- What is read after the four digits of an escape. -/
def ofCode (read : Text) (high : Option Nat) (code : Nat) : Option Reading :=
  match high with
  | some high =>
    if 0xDC00 ≤ code ∧ code < 0xE000 then
      let character := Char.ofNat (0x10000 + (high - 0xD800) * 0x400 + (code - 0xDC00))
      some (.quoted (character :: read))
    else none
  | none =>
    if 0xDC00 ≤ code ∧ code < 0xE000 then none
    else if 0xD800 ≤ code ∧ code < 0xDC00 then some (.pair read code)
    else some (.quoted (Char.ofNat code :: read))

/-- What is read after a character outside any value, and the mark that it is. -/
def beginning (character : Char) : Reading × List Token :=
  if isGap character then (.between, [])
  else if character = '"' then (.quoted [], [])
  else
    match mark? character with
    | some mark => (.between, [mark])
    | none => (.bare [character], [])

/-- Reads one character: what is being read after it, and the pieces that it completes. -/
def read? (reading : Reading) (character : Char) : Option (Reading × List Token) :=
  match reading with
  | .between => some (beginning character)
  | .bare read =>
    if isGap character || character = '"' || (mark? character).isSome then do
      let value ← bare? read.reverse
      let (next, marks) := beginning character
      some (next, .scalar value :: marks)
    else some (.bare (character :: read), [])
  | .quoted read =>
    if character = '"' then some (.between, [.scalar (.string read.reverse)])
    else if character = '\\' then some (.escape read, [])
    else if character.toNat < 0x20 then none
    else some (.quoted (character :: read), [])
  | .escape read =>
    if character = 'u' then some (.digits read none 0 0, [])
    else do
      let meant ← escaped? character
      some (.quoted (meant :: read), [])
  | .digits read high count value => do
    let value := value * 16 + (← Digit.value? 16 character)
    if count = 3 then
      let next ← ofCode read high value
      some (next, [])
    else some (.digits read high (count + 1) value, [])
  | .pair read high => if character = '\\' then some (.pairEscape read high, []) else none
  | .pairEscape read high =>
    if character = 'u' then some (.digits read (some high) 0 0, []) else none

/-- The pieces of a JSON text from a place on. -/
def tokensFrom : Reading → Text → Option (List Token)
  | .between, [] => some []
  | .bare read, [] => (bare? read.reverse).map fun value => [.scalar value]
  | _, [] => none
  | reading, character :: rest => do
    let (next, pieces) ← read? reading character
    let others ← tokensFrom next rest
    some (pieces ++ others)

/-- The pieces of a JSON text. -/
def tokens? (text : Text) : Option (List Token) :=
  tokensFrom .between text

end Manuscript.Json
