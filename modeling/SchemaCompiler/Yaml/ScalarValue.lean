import SchemaCompiler.Json.Value
import SchemaCompiler.Text.Numeral

/-!
# Values of scalars

A scalar without quotes stands for null, a truth value, a number or a text,
depending on how it looks. A tag may say which of them it is.
-/

namespace SchemaCompiler
namespace Yaml

open SchemaCompiler.Json (Value)
open SchemaCompiler.Number (Binary64)

/-- The scalar names null. -/
def isNull (text : String) : Bool := ["null", "Null", "NULL", "~"].contains text

/-- The truth value that a scalar names. -/
def truthValue? (text : String) : Option Bool :=
  if ["true", "True", "TRUE"].contains text then some true
  else if ["false", "False", "FALSE"].contains text then some false
  else none

/-- Value of a numeral without sign; a decimal one has no zeros in front. -/
def natural? : List Char → Option Nat
  | '0' :: 'x' :: digits => Text.numeral? 16 digits
  | '0' :: 'o' :: digits => Text.numeral? 8 digits
  | '0' :: 'b' :: digits => Text.numeral? 2 digits
  | '0' :: _ :: _ => none
  | digits => Text.numeral? 10 digits

/-- The integer that a scalar names. -/
def integer? : List Char → Option Int
  | '+' :: digits => (natural? digits).map fun value => (value : Int)
  | '-' :: digits => (natural? digits).map fun value => -(value : Int)
  | digits => (natural? digits).map fun value => (value : Int)

/-- The exponent behind the digits of a decimal. -/
def exponent? : List Char → Option Int
  | [] => some 0
  | mark :: rest =>
      if mark ≠ 'e' && mark ≠ 'E' then none
      else
        match rest with
        | '+' :: digits => (Text.numeral? 10 digits).map fun value => (value : Int)
        | '-' :: digits => (Text.numeral? 10 digits).map fun value => -(value : Int)
        | digits => (Text.numeral? 10 digits).map fun value => (value : Int)

/-- Digits with the power of ten that scales them; `none` without a digit. -/
def decimal? (text : List Char) : Option (List Char × Int) :=
  let whole := text.takeWhile Char.isDigit
  let (fraction, rest) := match text.dropWhile Char.isDigit with
    | '.' :: behind => (behind.takeWhile Char.isDigit, behind.dropWhile Char.isDigit)
    | behind => ([], behind)
  let digits := whole ++ fraction
  if digits.isEmpty then none
  else (exponent? rest).map fun exponent => (digits, exponent - fraction.length)

/-- Power of ten that no finite number reaches. -/
def greatestPower : Int := 310

/-- Power of ten below which every number is rounded to zero. -/
def leastPower : Int := -330

/-- The floating point number nearest to a decimal, unless that is infinite. -/
def finiteDecimal? (negative : Bool) (digits : List Char) (exponent : Int) : Option Binary64 :=
  let size := (Text.numeral? 10 digits).getD 0
  let power := exponent + digits.length
  if size = 0 || power < leastPower then some (Binary64.ofMagnitude negative 0)
  else if greatestPower + digits.length < power then none
  else
    let value := Binary64.ofDecimal negative size exponent
    if value.isFinite then some value else none

/-- The finite floating point number that a scalar without a plus sign names. -/
def finiteFloat? : List Char → Option Binary64
  | '-' :: rest => (decimal? rest).bind fun (digits, exponent) =>
      finiteDecimal? true digits exponent
  | text => (decimal? text).bind fun (digits, exponent) => finiteDecimal? false digits exponent

/-- The floating point number that a scalar names. -/
def float? (text : List Char) : Option Binary64 :=
  let unsigned := match text with
    | '+' :: rest => rest
    | other => other
  let isSignedTwice := text.head? = some '+' &&
    (unsigned.head? = some '+' || unsigned.head? = some '-')
  if isSignedTwice then none
  else if [".inf", ".Inf", ".INF"].contains (String.ofList unsigned) then
    some (Binary64.infinity false)
  else if ["-.inf", "-.Inf", "-.INF"].contains (String.ofList text) then
    some (Binary64.infinity true)
  else if [".nan", ".NaN", ".NAN"].contains (String.ofList text) then some Binary64.nan
  else if unsigned.head? = some '+' then none
  else finiteFloat? unsigned

/-- A decimal numeral with zeros in front, which is no number. -/
def hasLeadingZero (text : List Char) : Bool :=
  let digits := match text with
    | '+' :: rest => rest
    | '-' :: rest => rest
    | other => other
  match digits with
  | '0' :: next :: rest => (next :: rest).all Char.isDigit
  | _ => false

/-- The value of an integer. One that fits into 128 bits and not into 64 has none, and a
longer one is no integer. -/
def integerValue? (value : Int) : Option (Option Value) :=
  if -(Nat.pow 2 63 : Int) ≤ value ∧ value < (Nat.pow 2 64 : Int) then some (some (.integer value))
  else if -(Nat.pow 2 127 : Int) ≤ value ∧ value < (Nat.pow 2 128 : Int) then some none
  else none

/-- The value of a floating point number or, if the scalar names none, its text. -/
def floatOrText (text : String) : Value :=
  if hasLeadingZero text.toList then .string text
  else
    match float? text.toList with
    | some value => .number (.float value)
    | none => .string text

/-- The value of a scalar without quotes, if it has one. -/
def plainValue (text : String) : Option Value :=
  if text.isEmpty || isNull text then some .null
  else
    match truthValue? text with
    | some truth => some (.bool truth)
    | none =>
        match (integer? text.toList).bind integerValue? with
        | some value => value
        | none => some (floatOrText text)

/-- The value of a scalar with a tag that is known everywhere, if it has one. -/
def taggedValue (tag text : String) : Option Value :=
  match tag with
  | "tag:yaml.org,2002:bool" => (truthValue? text).map Value.bool
  | "tag:yaml.org,2002:int" => ((integer? text.toList).bind integerValue?).join
  | "tag:yaml.org,2002:float" => (float? text.toList).map fun value => .number (.float value)
  | "tag:yaml.org,2002:null" => if isNull text then some .null else none
  | _ => some (.string text)

end Yaml
end SchemaCompiler
