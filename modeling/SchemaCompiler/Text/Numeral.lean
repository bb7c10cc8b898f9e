import SchemaCompiler.Text.Table

/-!
# Numerals

The value of a numeral in a base of at most sixteen. A numeral has at least one
digit and nothing but digits.
-/

namespace SchemaCompiler
namespace Text

/-- Value of a digit below the base. -/
def digit? (base : Nat) (character : Char) : Option Nat :=
  match hexDigit? character with
  | some digit => if digit < base then some digit else none
  | none => none

/-- Value of further digits behind those that make up `value`. -/
def continueNumeral? (base value : Nat) : List Char → Option Nat
  | [] => some value
  | character :: rest =>
      match digit? base character with
      | some digit => continueNumeral? base (value * base + digit) rest
      | none => none

/-- Value of a numeral. -/
def numeral? (base : Nat) (digits : List Char) : Option Nat :=
  if digits.isEmpty then none else continueNumeral? base 0 digits

end Text
end SchemaCompiler
