import SchemaCompiler.Code.Token
import SchemaCompiler.Constraint.Range

/-!
# Validators

A `Validator` is a check that a resource attribute makes on its value.
-/

namespace SchemaCompiler
namespace Constraint

open SchemaCompiler.Code (Token)
open SchemaCompiler.Number (Binary64)

/-- What a validator is about. -/
inductive Family where
  | int64
  | float64
  | string
  | list
deriving Repr, DecidableEq, Inhabited

/-- A value written into a validator. -/
inductive Literal where
  | int (value : Int64)
  | float (value : Binary64)
  | size (value : UInt64)
  | string (value : String)
deriving Repr, DecidableEq, Inhabited

/-- A check on a value. -/
inductive Validator where
  | range (family : Family) (range : Range Literal)
  | oneOf (family : Family) (values : List Literal)
  | matching (pattern : String)
  /-- Exactly one of the named attributes is given. -/
  | exactlyOneOf (names : List String)
deriving Repr, DecidableEq

namespace Family

/-- Module that holds the checks of a family. -/
def moduleName : Family → String
  | .int64 => "int64_validator"
  | .float64 => "float64_validator"
  | .string => "string_validator"
  | .list => "list_validator"

/-- What the name of a range check of the family begins with. -/
def rangeLead : Family → String
  | .int64 | .float64 => ""
  | .string => "length_"
  | .list => "size_"

end Family

namespace Literal

/-- The value as code. -/
def tokens : Literal → List Token
  | .int value => Token.integer value.toInt
  | .float value => Token.float value
  | .size value => Token.integer value.toNat
  | .string value => [Token.string value]

/-- Values as code with commas between them. -/
def list (values : List Literal) : List Token := Token.separated (values.map tokens)

end Literal

namespace Validator

/-- A call of a check. -/
def call (moduleName function : String) (arguments : List Token) : List Token :=
  Token.path [moduleName, function] ++ [Token.parenthesized arguments]

/-- A call of a range check. -/
def rangeCall (family : Family) (function : String) (ends : List Literal) : List Token :=
  call family.moduleName (family.rangeLead ++ function) (Literal.list ends)

/-- The check as code. -/
def tokens : Validator → List Token
  | .range family (.between min max) => rangeCall family "between" [min, max]
  | .range family (.atLeast min) => rangeCall family "at_least" [min]
  | .range family (.atMost max) => rangeCall family "at_most" [max]
  | .oneOf family values =>
      call family.moduleName "one_of" [Token.bracketed (Literal.list values)]
  | .matching pattern => call "string_validator" "regex_matches" [Token.string pattern]
  | .exactlyOneOf names =>
      call "object_validator" "exactly_one_of"
        [Token.bracketed (Literal.list (names.map Literal.string))]

/-- Checks as code with commas between them. -/
def list (validators : List Validator) : List Token := Token.separated (validators.map tokens)

end Validator
end Constraint
end SchemaCompiler
