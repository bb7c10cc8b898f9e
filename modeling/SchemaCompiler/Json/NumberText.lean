import SchemaCompiler.Json.Draft

/-!
# Numbers in JSON text

`readNumber` reads a number as far as 64 bits carry its digits and then scales it
by a power of ten, and `skipNumber` only checks its shape. Both leave the text
that follows.
-/

namespace SchemaCompiler
namespace Json

open SchemaCompiler.Number (Binary64)

/-- Greatest significand that is read digit by digit. -/
def significandLimit : Nat := Nat.pow 2 64 - 1

/-- Value of a decimal digit. -/
def digitValue (character : Char) : Nat := character.toNat - '0'.toNat

/-- The letter that begins an exponent. -/
def isExponentMark (character : Char) : Bool := character = 'e' || character = 'E'

/-- `size * 10 ^ exponent`, in steps that a floating point number can hold. -/
def scaled (size : Binary64) (exponent : Int) : Except Fault Binary64 :=
  if exponent.natAbs ≤ 308 then
    let power := Binary64.powerOfTen exponent.natAbs
    if 0 ≤ exponent then
      let product := size.product power
      if product.isFinite then .ok product else .error .numberOutOfRange
    else .ok (size.quotient power)
  else if size.isZero then .ok size
  else if 0 ≤ exponent then .error .numberOutOfRange
  else scaled (size.quotient (Binary64.powerOfTen 308)) (exponent + 308)
termination_by exponent.natAbs
decreasing_by omega

/-- The floating point number of a sign, a significand and an exponent. -/
def floatOf (negative : Bool) (significand : Nat) (exponent : Int) : Except Fault Number := do
  let size ← scaled (Binary64.ofInt significand) exponent
  return .float (if negative then size.negate else size)

/-- Greatest exponent that is read digit by digit. -/
def exponentLimit : Nat := Nat.pow 2 31 - 1

/-- The digits after an exponent's first one. -/
def readExponentDigits
    (negative : Bool)
    (significand : Nat)
    (start : Int)
    (negativeExponent : Bool)
    (exponent : Nat) : List Char → Except Fault (Number × List Char)
  | first :: rest =>
      if first.isDigit then
        if exponentLimit < exponent * 10 + digitValue first then
          if significand ≠ 0 ∧ !negativeExponent then .error .numberOutOfRange
          else
            let zero := Binary64.ofMagnitude negative 0
            .ok (.float zero, rest.dropWhile Char.isDigit)
        else
          readExponentDigits negative significand start negativeExponent
            (exponent * 10 + digitValue first) rest
      else do
        let total := if negativeExponent then start - exponent else start + exponent
        return (← floatOf negative significand total, first :: rest)
  | [] => do
      let total := if negativeExponent then start - exponent else start + exponent
      return (← floatOf negative significand total, [])

/-- The part of a number behind its exponent mark. -/
def readExponent
    (negative : Bool)
    (significand : Nat)
    (start : Int)
    (text : List Char) : Except Fault (Number × List Char) :=
  let (negativeExponent, digits) := match text with
    | '+' :: rest => (false, rest)
    | '-' :: rest => (true, rest)
    | other => (false, other)
  match digits with
  | [] => .error .endInValue
  | first :: rest =>
      if first.isDigit then
        readExponentDigits negative significand start negativeExponent (digitValue first) rest
      else .error .invalidNumber

/-- What may follow the digits of a fraction. -/
def finishFraction
    (negative : Bool)
    (significand : Nat)
    (exponent : Int)
    (text : List Char) : Except Fault (Number × List Char) :=
  match text with
  | first :: rest =>
      if isExponentMark first then readExponent negative significand exponent rest
      else do return (← floatOf negative significand exponent, first :: rest)
  | [] => do return (← floatOf negative significand exponent, [])

/-- The part of a number behind its point, of which `places` digits were read. -/
def readFraction
    (negative : Bool)
    (significand : Nat)
    (start : Int)
    (places : Nat) : List Char → Except Fault (Number × List Char)
  | [] =>
      if places = 0 then .error .endInValue
      else finishFraction negative significand (start - places) []
  | first :: rest =>
      if first.isDigit then
        let next := significand * 10 + digitValue first
        if significandLimit < next then
          finishFraction negative significand (start - places) (rest.dropWhile Char.isDigit)
        else readFraction negative next start (places + 1) rest
      else if places = 0 then .error .invalidNumber
      else finishFraction negative significand (start - places) (first :: rest)

/-- The rest of an integer whose digits no longer fit. -/
def readLongInteger
    (negative : Bool)
    (significand dropped : Nat) : List Char → Except Fault (Number × List Char)
  | [] => do return (← floatOf negative significand dropped, [])
  | first :: rest =>
      if first.isDigit then readLongInteger negative significand (dropped + 1) rest
      else if first = '.' then readFraction negative significand dropped 0 rest
      else if isExponentMark first then readExponent negative significand dropped rest
      else do return (← floatOf negative significand dropped, first :: rest)

/-- The number that an integer without fraction and exponent stands for. -/
def integerOf (negative : Bool) (significand : Nat) : Number :=
  if !negative then .integer significand
  else if significand = 0 ∨ Nat.pow 2 63 < significand then
    .float (Binary64.ofInt significand).negate
  else .integer (-(significand : Int))

/-- The rest of an integer that fits so far. -/
def readInteger
    (negative : Bool)
    (significand : Nat) : List Char → Except Fault (Number × List Char)
  | [] => .ok (integerOf negative significand, [])
  | first :: rest =>
      if first.isDigit then
        let next := significand * 10 + digitValue first
        if significandLimit < next then
          readLongInteger negative significand 1 rest
        else readInteger negative next rest
      else if first = '.' then readFraction negative significand 0 0 rest
      else if isExponentMark first then readExponent negative significand 0 rest
      else .ok (integerOf negative significand, first :: rest)

/-- A number behind its sign. -/
def readNumber (negative : Bool) (text : List Char) : Except Fault (Number × List Char) :=
  match text with
  | [] => .error .endInValue
  | '0' :: rest =>
      match rest with
      | next :: _ => if next.isDigit then .error .invalidNumber else readInteger negative 0 rest
      | [] => readInteger negative 0 rest
  | first :: rest =>
      if first.isDigit then readInteger negative (digitValue first) rest
      else .error .invalidNumber

/-- What follows an exponent that is not needed. -/
def skipExponent (text : List Char) : Except Fault (List Char) :=
  let digits := match text with
    | '+' :: rest => rest
    | '-' :: rest => rest
    | other => other
  match digits with
  | first :: rest =>
      if first.isDigit then .ok (rest.dropWhile Char.isDigit) else .error .invalidNumber
  | [] => .error .invalidNumber

/-- What follows the digits of a number that is not needed. -/
def skipFraction (text : List Char) : Except Fault (List Char) :=
  match text with
  | '.' :: rest =>
      match rest with
      | first :: _ =>
          if first.isDigit then
            match rest.dropWhile Char.isDigit with
            | mark :: after =>
                if isExponentMark mark then skipExponent after else .ok (mark :: after)
            | [] => .ok []
          else .error .invalidNumber
      | [] => .error .invalidNumber
  | mark :: after => if isExponentMark mark then skipExponent after else .ok (mark :: after)
  | [] => .ok []

/-- What follows a number that is not needed, behind its sign. -/
def skipNumber (text : List Char) : Except Fault (List Char) :=
  match text with
  | '0' :: rest =>
      match rest with
      | next :: _ => if next.isDigit then .error .invalidNumber else skipFraction rest
      | [] => skipFraction rest
  | first :: rest =>
      if first.isDigit then skipFraction (rest.dropWhile Char.isDigit) else .error .invalidNumber
  | [] => .error .invalidNumber

end Json
end SchemaCompiler
