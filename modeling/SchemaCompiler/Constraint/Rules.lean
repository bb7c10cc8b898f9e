import SchemaCompiler.Constraint.Pattern
import SchemaCompiler.Constraint.Validator
import SchemaCompiler.Schema.Node

/-!
# Constraints of a node

The constraints that a node declares on its value: as validators for a resource
and as sentences for the documentation of a client.
-/

namespace SchemaCompiler
namespace Constraint

open SchemaCompiler.Schema

/-- Checks on the range and the values of a number or text. -/
def rangeValidators
    (family : Family)
    (literal : α → Literal)
    (min max : Option α) : List Validator :=
  ((Range.ofEnds min max).map fun range => .range family (range.map literal)).toList

/-- Checks on a number. -/
def numberValidators
    (family : Family)
    (literal : α → Literal)
    (facets : NumberFacets α) : List Validator :=
  rangeValidators family literal facets.min facets.max
    ++ if facets.values.isEmpty then [] else [.oneOf family (facets.values.map literal)]

/-- The pattern of a text; an empty one does not count. -/
def pattern? (facets : StringFacets) : Option String := facets.regex.filter (· ≠ "")

/-- Checks on the form of a text. -/
def formValidators (facets : StringFacets) : List Validator :=
  match facets.values, pattern? facets with
  | [], none => []
  | [], some pattern => [.matching pattern]
  | values, none => [.oneOf .string (values.map .string)]
  | values, some pattern => [.matching (mergedPattern values pattern)]

/-- Checks on a text. -/
def stringValidators (facets : StringFacets) : List Validator :=
  rangeValidators .string .size facets.minLength facets.maxLength ++ formValidators facets

/-- Checks on the value of a scalar. -/
def scalarValidators : Scalar → List Validator
  | .bool _ => []
  | .int facets => numberValidators .int64 .int facets
  | .float facets => numberValidators .float64 .float facets
  | .string facets => stringValidators facets

/-- Checks on the value of a canonical node itself. -/
def valueValidators : Node → List Validator
  | .scalar _ facets => scalarValidators facets
  | .array .. | .object .. => []

/-- Checks on the size of a list. -/
def listValidators (facets : ArrayFacets) : List Validator :=
  rangeValidators .list .size facets.minItems facets.maxItems

/-- The range as a sentence, if it has an end. -/
def rangeLines (label : String) (shown : α → String) (min max : Option α) : List String :=
  ((Range.ofEnds min max).map fun range => range.sentence label shown).toList

/-- The values as a sentence, if there are any. -/
def valueLines (shown : α → String) (values : List α) : List String :=
  if values.isEmpty then []
  else
    let listed := values.map fun value => "`" ++ shown value ++ "`"
    ["Allowed values: " ++ String.intercalate ", " listed ++ "."]

/-- Sentences on a number. -/
def numberLines (shown : α → String) (facets : NumberFacets α) : List String :=
  rangeLines "Range" shown facets.min facets.max ++ valueLines shown facets.values

/-- An unsigned number in digits. -/
def sizeText (value : UInt64) : String := toString value.toNat

/-- Sentences on a text. -/
def stringLines (facets : StringFacets) : List String :=
  rangeLines "Length" sizeText facets.minLength facets.maxLength
    ++ valueLines id facets.values
    ++ ((pattern? facets).map fun pattern => "Pattern: `" ++ pattern ++ "`.").toList
    ++ if facets.sensitive then ["Sensitive."] else []

/-- Sentences on a node apart from its default. -/
def constraintLines : Node → List String
  | .scalar _ (.int facets) => numberLines (fun value : Int64 => toString value.toInt) facets
  | .scalar _ (.float facets) => numberLines Number.Binary64.positionalText facets
  | .scalar _ (.string facets) => stringLines facets
  | .scalar _ (.bool _) | .object .. => []
  | .array _ facets _ =>
      rangeLines "Items" sizeText facets.minItems facets.maxItems
        ++ if facets.unordered then ["Unordered."] else []

/-- Sentences on a canonical node. -/
def describe (node : Node) : List String :=
  constraintLines node
    ++ (node.defaultValue?.map fun value => "Default: `" ++ value.text ++ "`.").toList

end Constraint
end SchemaCompiler
