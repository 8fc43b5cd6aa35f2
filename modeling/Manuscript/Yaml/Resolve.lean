/-
This file says what a text in YAML stands for. A text in quotes is a string. A plain one
is the null value, a truth value, an integer or a floating-point number if it is spelled
like one, and a string otherwise; digits behind a leading zero make a string. A tag can
ask for one of these kinds, and then the text has to be spelled like it.
-/

import Manuscript.Data.Decimal
import Manuscript.Data.Tree

namespace Manuscript.Yaml

/-- The rest of a text that begins with the given one. -/
def behind? (start text : Text) : Option Text :=
  if start.isPrefixOf text then some (text.drop start.length) else none

/-- The text is one of the given words. -/
def isOneOf (words : List String) (text : Text) : Bool :=
  words.any fun word => word.toList == text

/-- Whether the text is a spelling of the null value, other than the empty one. -/
def isNull (text : Text) : Bool :=
  isOneOf ["null", "Null", "NULL", "~"] text

/-- The truth value that the text spells. -/
def bool? (text : Text) : Option Bool :=
  if isOneOf ["true", "True", "TRUE"] text then some true
  else if isOneOf ["false", "False", "FALSE"] text then some false
  else none

/-- Digits behind a leading zero, with or without a sign. -/
def isPadded (text : Text) : Bool :=
  let digits :=
    match text with
    | '+' :: rest | '-' :: rest => rest
    | rest => rest
  match digits with
  | '0' :: rest => Digit.areDecimal rest
  | _ => false

/-- The bases other than ten, with what announces them. -/
def bases : List (Text × Nat) :=
  [("0x".toList, 16), ("0o".toList, 8), ("0b".toList, 2)]

/-- The size of an integer behind its sign. -/
def size? (text : Text) : Option Nat :=
  match bases.findSome? (fun (start, base) => (behind? start text).map fun rest => (base, rest)) with
  | some (base, digits) => Digit.number? base digits
  | none => Digit.number? 10 text

/-- The integer that the text spells. -/
def integer? (text : Text) : Option Int :=
  if isPadded text then none
  else
    match text with
    | '-' :: rest => (size? rest).map fun size => -(size : Int)
    | '+' :: rest => (size? rest).map Int.ofNat
    | rest => (size? rest).map Int.ofNat

/-- A number that is spelled like a decimal with digits before or behind a point, and with
an exponent or without one. -/
def decimal? (text : Text) : Option Float := do
  let (negative, unsigned) :=
    match text with
    | '-' :: rest => (true, rest)
    | rest => (false, rest)
  let whole := unsigned.takeWhile Char.isDigit
  let rest := unsigned.dropWhile Char.isDigit
  let (fraction, rest) :=
    match rest with
    | '.' :: rest => (rest.takeWhile Char.isDigit, rest.dropWhile Char.isDigit)
    | rest => ([], rest)
  if whole.isEmpty && fraction.isEmpty then none
  let exponent ← exponent? rest
  let number := Decimal.nearest (whole ++ fraction) (exponent - fraction.length)
  if number.isFinite then some (if negative then -number else number) else none
where
  exponent? : Text → Option Int
    | [] => some 0
    | mark :: rest =>
      if mark = 'e' ∨ mark = 'E' then
        match rest with
        | '-' :: digits => (Digit.number? 10 digits).map fun size => -(size : Int)
        | '+' :: digits => (Digit.number? 10 digits).map Int.ofNat
        | digits => (Digit.number? 10 digits).map Int.ofNat
      else none

/-- Whether the text spells an infinity, or that it is not a number. Neither is a value of a
settings file: both are null. -/
def isNotFinite (text : Text) : Bool :=
  isOneOf [".inf", ".Inf", ".INF", "+.inf", "+.Inf", "+.INF", "-.inf", "-.Inf", "-.INF",
    ".nan", ".NaN", ".NAN"] text

/-- The value of a text that spells a floating-point number. -/
def float? (text : Text) : Option Tree :=
  if isNotFinite text then some .null
  else
    let number? :=
      match text with
      | '+' :: '+' :: _ | '+' :: '-' :: _ => none
      | '+' :: rest => decimal? rest
      | rest => decimal? rest
    number?.map fun number => .float number.toBits

/-- What an integer comes to: itself where 64 bits hold it, nothing where only 128 bits do. -/
inductive Width where
  | usual (tree : Tree)
  | tooWide
  | beyond

/-- Whether 128 bits can hold an integer, with a sign or without one. -/
def fitsDoubleWord (number : Int) : Bool :=
  -0x80000000000000000000000000000000 ≤ number && number ≤ 0xFFFFFFFFFFFFFFFFFFFFFFFFFFFFFFFF

/-- What an integer comes to. -/
def widthOf (number : Int) : Width :=
  if fitsWord number then .usual (.int number)
  else if fitsDoubleWord number then .tooWide
  else .beyond

/-- The value of a plain text without a tag. An integer that 64 bits cannot hold is refused,
except that one beyond 128 bits is a floating-point number. -/
def plainValue? (text : Text) : Option Tree :=
  if text.isEmpty || isNull text then some .null
  else
    match bool? text with
    | some value => some (.bool value)
    | none =>
      match (integer? text).map widthOf with
      | some (.usual tree) => some tree
      | some .tooWide => none
      | _ =>
        if isPadded text then some (.string text) else some ((float? text).getD (.string text))

/-- What the tags of this notation begin with. -/
def standardTag : Text := "tag:yaml.org,2002:".toList

/-- The value of a text. A tag of one's own has none. -/
def scalarValue? (tag : Option Text) (plain : Bool) (text : Text) : Option Tree :=
  match tag with
  | none => if plain then plainValue? text else some (.string text)
  | some tag =>
    if tag.head? = some '!' then none
    else
      match (behind? standardTag tag).map String.ofList with
      | some "bool" => (bool? text).map .bool
      | some "int" =>
        match (integer? text).map widthOf with
        | some (.usual tree) => some tree
        | _ => none
      | some "float" => float? text
      | some "null" => if isNull text then some .null else none
      | _ => some (.string text)

end Manuscript.Yaml
