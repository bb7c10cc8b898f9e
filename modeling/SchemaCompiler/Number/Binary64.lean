/-!
# Binary floating point numbers

A `Binary64` is a 64-bit floating point number given by its bits. Finite numbers
are integers scaled by a power of two; `ofRatio` rounds an exact ratio to the
nearest number, a tie going to the even one.
-/

namespace SchemaCompiler
namespace Number

/-- A floating point number by its bits: sign, eleven exponent bits, 52 fraction
bits. -/
structure Binary64 where
  bits : UInt64
deriving Repr, DecidableEq, Inhabited

namespace Binary64

/-- The sign bit is set. -/
def isNegative (number : Binary64) : Bool := Nat.pow 2 63 ≤ number.bits.toNat

/-- Bits below the sign. -/
def magnitudeBits (number : Binary64) : Nat := number.bits.toNat % Nat.pow 2 63

/-- Bits of the positive infinity. -/
def infinityBits : Nat := 0x7FF0000000000000

/-- Neither infinite nor without value. -/
def isFinite (number : Binary64) : Bool := number.magnitudeBits < infinityBits

/-- No number at all. -/
def isNaN (number : Binary64) : Bool := infinityBits < number.magnitudeBits

/-- Zero of either sign. -/
def isZero (number : Binary64) : Bool := number.magnitudeBits = 0

/-- The number with given sign and lower bits. -/
def ofMagnitude (negative : Bool) (magnitude : Nat) : Binary64 :=
  ⟨UInt64.ofNat (magnitude + if negative then Nat.pow 2 63 else 0)⟩

/-- Positive or negative infinity. -/
def infinity (negative : Bool) : Binary64 := ofMagnitude negative infinityBits

/-- The number without value. -/
def nan : Binary64 := ⟨0x7FF8000000000000⟩

/-- The number with the opposite sign. -/
def negate (number : Binary64) : Binary64 :=
  ofMagnitude (!number.isNegative) number.magnitudeBits

/-- Integer significand of a finite number. -/
def significand (number : Binary64) : Nat :=
  let fraction := number.magnitudeBits % Nat.pow 2 52
  if number.magnitudeBits < Nat.pow 2 52 then fraction else Nat.pow 2 52 + fraction

/-- Power of two that scales the significand of a finite number. -/
def scale (number : Binary64) : Int :=
  let exponent : Nat := number.magnitudeBits / Nat.pow 2 52
  if exponent = 0 then -1074 else (exponent : Int) - 1075

/-- The quotient rounded to the nearest integer, a tie going to the even one. -/
def roundedQuotient (numerator denominator : Nat) : Nat :=
  let quotient := numerator / denominator
  let remainder := numerator % denominator
  if denominator < 2 * remainder ∨ (2 * remainder = denominator ∧ quotient % 2 = 1) then
    quotient + 1
  else quotient

/-- Greatest power of two not above a positive ratio. -/
def ratioLog (numerator denominator : Nat) : Int :=
  let guess : Int := (numerator.log2 : Int) - (denominator.log2 : Int)
  if numerator * Nat.pow 2 (-guess).toNat < denominator * Nat.pow 2 guess.toNat then guess - 1
  else guess

/-- The number nearest to a ratio, infinite when the ratio is too great. -/
def ofRatio (negative : Bool) (numerator denominator : Nat) : Binary64 :=
  if numerator = 0 then ofMagnitude negative 0
  else
    let scale := max (ratioLog numerator denominator - 52) (-1074)
    let rounded :=
      roundedQuotient (numerator * Nat.pow 2 (-scale).toNat) (denominator * Nat.pow 2 scale.toNat)
    ofMagnitude negative (min ((scale + 1074).toNat * Nat.pow 2 52 + rounded) infinityBits)

/-- The number nearest to an integer. -/
def ofInt (value : Int) : Binary64 := ofRatio (value < 0) value.natAbs 1

/-- Numerator of the size of a finite number. -/
def numerator (number : Binary64) : Nat := number.significand * Nat.pow 2 number.scale.toNat

/-- Denominator of the size of a finite number. -/
def denominator (number : Binary64) : Nat := Nat.pow 2 (-number.scale).toNat

/-- Rounded product of the sizes of two finite numbers. -/
def product (left right : Binary64) : Binary64 :=
  ofRatio false (left.numerator * right.numerator) (left.denominator * right.denominator)

/-- Rounded quotient of the sizes of two finite numbers. -/
def quotient (left right : Binary64) : Binary64 :=
  ofRatio false (left.numerator * right.denominator) (left.denominator * right.numerator)

/-- The number nearest to a power of ten. -/
def powerOfTen (exponent : Nat) : Binary64 := ofRatio false (Nat.pow 10 exponent) 1

/-- The number nearest to a decimal. -/
def ofDecimal (negative : Bool) (digits : Nat) (exponent : Int) : Binary64 :=
  ofRatio negative (digits * Nat.pow 10 exponent.toNat) (Nat.pow 10 (-exponent).toNat)

end Binary64
end Number
end SchemaCompiler
