import SchemaCompiler.Number.Binary64

/-!
# Shortest decimals

A decimal reads back as a floating point number when it lies in the interval of
reals that round to the number. `shortest` is the decimal with the fewest digits
in this interval and, among those, the nearest to the number.
-/

namespace SchemaCompiler
namespace Number

/-- The value `digits * 10 ^ exponent`. -/
structure Decimal where
  digits : Nat
  exponent : Int
deriving Repr, DecidableEq, Inhabited

namespace Decimal

/-- Compares a decimal with `size * 2 ^ scale`. -/
def compareBinary (decimal : Decimal) (size : Nat) (scale : Int) : Ordering :=
  compare (decimal.digits * Nat.pow 10 decimal.exponent.toNat * Nat.pow 2 (-scale).toNat)
    (size * Nat.pow 2 scale.toNat * Nat.pow 10 (-decimal.exponent).toNat)

/-- The decimal rounds to the size of a finite number. -/
def readsBack (decimal : Decimal) (number : Binary64) : Bool :=
  let size := number.significand
  let narrow := size = Nat.pow 2 52 ∧ Nat.pow 2 53 ≤ number.magnitudeBits
  let lower := if narrow then 4 * size - 1 else 4 * size - 2
  let fromBelow := decimal.compareBinary lower (number.scale - 2)
  let fromAbove := decimal.compareBinary (4 * size + 2) (number.scale - 2)
  let even := size % 2 = 0
  (fromBelow = .gt || (even && fromBelow = .eq)) && (fromAbove = .lt || (even && fromAbove = .eq))

/-- Least power of ten above the size of a positive number. -/
def leadingPower (number : Binary64) : Int :=
  let guess := (((number.significand.log2 : Int) + number.scale) * 30103).fdiv 100000
  let below (power : Int) : Bool :=
    (Decimal.mk 1 power).compareBinary number.significand number.scale = .gt
  if below guess then guess
  else if below (guess + 1) then guess + 1
  else guess + 2

/-- The decimal on the grid `10 ^ power` that reads back and is nearest to the
number, the upper one of two equally near. -/
def onGrid? (number : Binary64) (power : Int) : Option Decimal :=
  let floor :=
    number.numerator * Nat.pow 10 (-power).toNat / (number.denominator * Nat.pow 10 power.toNat)
  let lower := Decimal.mk floor power
  let upper := Decimal.mk (floor + 1) power
  let middle := Decimal.mk (2 * floor + 1) power
  match lower.readsBack number, upper.readsBack number with
  | true, true =>
      if middle.compareBinary (2 * number.significand) number.scale = .gt then some lower
      else some upper
  | true, false => some lower
  | false, true => some upper
  | false, false => none

/-- The decimal without trailing zeros, looking at no more than `limit` of them. -/
def strip (limit : Nat) (decimal : Decimal) : Decimal :=
  match limit with
  | 0 => decimal
  | limit + 1 =>
      if decimal.digits ≠ 0 ∧ decimal.digits % 10 = 0 then
        strip limit ⟨decimal.digits / 10, decimal.exponent + 1⟩
      else decimal

/-- The exact value of a finite number. -/
def exact (number : Binary64) : Decimal :=
  let places := (-number.scale).toNat
  ⟨number.numerator * Nat.pow 5 places, -(places : Int)⟩

/-- The shortest decimal that reads back as the size of a finite number. -/
def shortest (number : Binary64) : Decimal :=
  if number.isZero then ⟨0, 0⟩
  else
    let top := leadingPower number
    let found := (List.range 17).findSome? fun count : Nat =>
      onGrid? number (top - (count + 1 : Int))
    strip 20 (found.getD (exact number))

end Decimal

/-- Zeros in a row. -/
def zeros (count : Nat) : List Char := List.replicate count '0'

/-- Decimal digits of a natural number. -/
def digitsOf (value : Nat) : List Char := Nat.toDigits 10 value

/-- A decimal without exponent. -/
def Decimal.positional (decimal : Decimal) : List Char :=
  let digits := digitsOf decimal.digits
  if 0 ≤ decimal.exponent then
    if decimal.digits = 0 then digits else digits ++ zeros decimal.exponent.toNat
  else
    let places := (-decimal.exponent).toNat
    let padded := zeros (places + 1 - digits.length) ++ digits
    padded.take (padded.length - places) ++ '.' :: padded.drop (padded.length - places)

namespace Binary64

/-- The sign of a number, if it has one. -/
def signText (number : Binary64) : List Char := if number.isNegative then ['-'] else []

/-- The number without exponent, in the fewest digits that read back. -/
def positionalText (number : Binary64) : String :=
  if number.isNaN then "NaN"
  else if number.isFinite then
    String.ofList (number.signText ++ (Decimal.shortest number).positional)
  else String.ofList (number.signText ++ "inf".toList)

/-- Exponent of scientific notation, with its sign and at least two digits. -/
def exponentText (exponent : Int) : List Char :=
  let digits := digitsOf exponent.natAbs
  (if exponent < 0 then '-' else '+') :: (zeros (2 - digits.length) ++ digits)

/-- The number with a point or an exponent: positional from `0.00001` up to
sixteen integer digits, scientific beyond. -/
def scientificText (number : Binary64) : String :=
  if number.isFinite then
    let decimal := Decimal.shortest number
    let digits := digitsOf decimal.digits
    let leading : Int := decimal.exponent + digits.length - 1
    if number.isZero ∨ (-5 ≤ leading ∧ leading < 16) then
      let text := decimal.positional
      String.ofList (number.signText ++ if text.contains '.' then text else text ++ ['.', '0'])
    else
      let mantissa := match digits with
        | [digit] => [digit]
        | first :: rest => first :: '.' :: rest
        | [] => []
      String.ofList (number.signText ++ mantissa ++ 'e' :: exponentText leading)
  else number.positionalText

end Binary64
end Number
end SchemaCompiler
