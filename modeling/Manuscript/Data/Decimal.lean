/-
This file reads digits and turns decimal notation into binary floating-point numbers.
Decimal numbers, hexadecimal escapes and integers in other bases are all runs of digits,
and letters of either case serve as the digits above nine.

A decimal becomes a floating-point number in one of two ways. The nearest number is the
one that a decimal denotes. The stepwise number is what comes out when the digits are
first gathered into a 64-bit integer and then scaled by a power of ten: it can lie next to
the nearest one, and a number too large to represent is refused.
-/

import Manuscript.Text.Basic

namespace Manuscript

namespace Digit

/-- The value of a digit in a base of at most sixteen. -/
def value? (base : Nat) (character : Char) : Option Nat :=
  let code := character.toNat
  let value :=
    if 48 ≤ code ∧ code ≤ 57 then code - 48
    else if 97 ≤ code ∧ code ≤ 102 then code - 87
    else if 65 ≤ code ∧ code ≤ 70 then code - 55
    else base
  if value < base then some value else none

/-- The number that a run of digits denotes, if all of them are digits and there is one. -/
def number? (base : Nat) (digits : Text) : Option Nat :=
  if digits.isEmpty then none
  else (digits.mapM (value? base)).map fun values =>
    values.foldl (fun number value => number * base + value) 0

/-- Whether a text is a run of decimal digits, of which there is at least one. -/
def areDecimal (digits : Text) : Bool :=
  !digits.isEmpty && digits.all Char.isDigit

end Digit

namespace Decimal

/-! ### The nearest number -/

/-- Beyond this many places left of the point no number but infinity remains, and beyond
about as many right of it none but zero. -/
def farthestPlace : Int := 400

/-- The number nearest to `digits` times ten to the power `exponent`. -/
def nearest (digits : Text) (exponent : Int) : Float :=
  let significant := digits.dropWhile (· = '0')
  let magnitude := significant.length + exponent
  if significant.isEmpty || magnitude < -farthestPlace then 0
  else if magnitude > farthestPlace then 1 / 0
  else
    let number := (Digit.number? 10 significant).getD 0
    match exponent with
    | .ofNat places => Float.ofScientific number false places
    | .negSucc places => Float.ofScientific number true (places + 1)

/-! ### The stepwise number -/

/-- The greatest exponent of ten that is represented. -/
def greatestPower : Nat := 308

/-- Ten to a power that is represented. -/
def powerOfTen (exponent : Nat) : Float :=
  Float.ofScientific 1 false exponent

/-- The greatest integer that the digits are gathered into. -/
def greatestWord : Nat := 0xFFFFFFFFFFFFFFFF

/-- Digits gathered into an integer below two to the power 64. -/
structure Gathered where
  significand : Nat
  /-- How many digits were left over when the next one did not fit any more. -/
  left : Nat

/-- Gathers digits behind those of `significand` for as long as they fit. -/
def gather (significand : Nat) : Text → Gathered
  | [] => ⟨significand, 0⟩
  | character :: rest =>
    let next := significand * 10 + (Digit.value? 10 character).getD 0
    if next ≤ greatestWord then gather next rest else ⟨significand, rest.length + 1⟩

/-- `value` divided by ten to the given power, in steps that are represented. -/
def shrink (value : Float) (power : Nat) : Float :=
  if power ≤ greatestPower then value / powerOfTen power
  else if value == 0 then value
  else shrink (value / powerOfTen greatestPower) (power - greatestPower)
termination_by power
decreasing_by
  have positive : 0 < greatestPower := Nat.zero_lt_succ _
  omega

/-- `value` times ten to the given power, unless that is too large to be represented. -/
def grow (value : Float) (power : Nat) : Option Float :=
  if power ≤ greatestPower then
    let product := value * powerOfTen power
    if product.isInf then none else some product
  else if value == 0 then some value
  else none

/-- `value` times ten to the power `exponent`. -/
def scale (value : Float) : (exponent : Int) → Option Float
  | .ofNat power => grow value power
  | .negSucc power => some (shrink value (power + 1))

/-- The greatest exponent that is read as it is written. -/
def greatestExponent : Int := 2147483647

/-- The stepwise number of a decimal, from the digits before and after the point and the
exponent that is written. Digits behind the point are gathered onto those before it even
where some of the latter did not fit. -/
def stepwise (whole fraction : Text) (exponent : Int) : Option Float :=
  let before := gather 0 whole
  let gathered := gather before.significand fraction
  let places : Int := before.left + gathered.left - fraction.length
  if greatestExponent < exponent then
    if gathered.significand = 0 then some 0 else none
  else if exponent < -greatestExponent then some 0
  else
    scale gathered.significand.toUInt64.toFloat
      (max (-greatestExponent - 1) (min greatestExponent (places + exponent)))

end Decimal

end Manuscript
