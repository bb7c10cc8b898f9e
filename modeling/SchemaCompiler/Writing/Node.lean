import SchemaCompiler.Json.Value
import SchemaCompiler.Schema.Object

/-!
# Writing nodes

The JSON form of a node: its declaration, its type and the facets of its type.
Options without a value and empty lists of values and groups are left out.
-/

namespace SchemaCompiler
namespace Writing

open SchemaCompiler.Json (Value)
open SchemaCompiler.Number (Binary64)
open SchemaCompiler.Schema

/-- A member for an option, left out when there is no value. -/
def optionMember (key : String) (write : α → Value) (value : Option α) : List (String × Value) :=
  (value.map fun value => (key, write value)).toList

/-- A member for a list, left out when the list is empty. -/
def listMember (key : String) (write : α → Value) (values : List α) : List (String × Value) :=
  if values.isEmpty then [] else [(key, .array (values.map write))]

/-- A signed integer. -/
def writeSigned (value : Int64) : Value := .integer value.toInt

/-- An unsigned integer. -/
def writeUnsigned (value : UInt64) : Value := .natural value.toNat

/-- A floating point number. -/
def writeFloat (value : Binary64) : Value := .number (.float value)

/-- A list of texts. -/
def writeTexts (texts : List String) : Value := .array (texts.map .string)

/-- Members of a declaration. -/
def declarationMembers (declaration : Declaration) : List (String × Value) :=
  [("name", .string declaration.name)]
    ++ optionMember "ref" .string declaration.reference
    ++ optionMember "module" .string declaration.moduleName
    ++ optionMember "in" (fun location : Location => .string location.text) declaration.location
    ++ optionMember "description" .string declaration.description
    ++ [("required", .bool declaration.required), ("read_only", .bool declaration.readOnly),
      ("replace_on_change", .bool declaration.replaceOnChange)]

/-- Members of a truth value. -/
def boolMembers (facets : BoolFacets) : List (String × Value) :=
  optionMember "default" .bool facets.defaultValue ++ [("opaque", .bool facets.untyped)]

/-- Members of a number. -/
def numberMembers (write : α → Value) (facets : NumberFacets α) : List (String × Value) :=
  optionMember "default" write facets.defaultValue
    ++ optionMember "min" write facets.min
    ++ optionMember "max" write facets.max
    ++ listMember "values" write facets.values

/-- A hashing profile by its active policy. -/
def writeHashing : HashProfile → Value
  | .plaintext => .object []
  | .solo => .object [("solo", .bool true)]
  | .withAncestor depth => .object [("with_parent_name", writeUnsigned depth)]
  | .withSibling field => .object [("with_param_value", .string field)]

/-- Edits to values. -/
def writePatch (patch : ValuesPatch) : Value :=
  .object [("add", writeTexts patch.add), ("remove", writeTexts patch.remove)]

/-- Members of a string. -/
def stringMembers (facets : StringFacets) : List (String × Value) :=
  optionMember "default" .string facets.defaultValue
    ++ [("sensitive", .bool facets.sensitive)]
    ++ optionMember "min_length" writeUnsigned facets.minLength
    ++ optionMember "max_length" writeUnsigned facets.maxLength
    ++ listMember "values" .string facets.values
    ++ optionMember "regex" .string facets.regex
    ++ (if facets.hashing.isPlaintext then [] else [("hashing", writeHashing facets.hashing)])
    ++ optionMember "values_patch" writePatch facets.valuesPatch

/-- Members of a scalar. -/
def scalarMembers : Scalar → List (String × Value)
  | .bool facets => boolMembers facets
  | .int facets => numberMembers writeSigned facets
  | .float facets => numberMembers writeFloat facets
  | .string facets => stringMembers facets

/-- Members of an array beside its element. -/
def arrayMembers (facets : ArrayFacets) : List (String × Value) :=
  optionMember "min_items" writeUnsigned facets.minItems
    ++ optionMember "max_items" writeUnsigned facets.maxItems
    ++ [("unordered", .bool facets.unordered)]

/-- Members of an object beside its children. -/
def objectMembers (facets : ObjectFacets) : List (String × Value) :=
  listMember "one_of" writeTexts facets.groups ++ optionMember "class" .string facets.className

/-- The type member of a node. -/
def kindMember (kind : Kind) : String × Value := ("type", .string kind.text)

mutual

/-- JSON form of a node. -/
def writeNode : Node → Value
  | .scalar declaration facets =>
      .object (declarationMembers declaration ++ [kindMember facets.kind] ++ scalarMembers facets)
  | .array declaration facets element =>
      .object (declarationMembers declaration
        ++ [kindMember .array, ("element", writeNode element)] ++ arrayMembers facets)
  | .object declaration facets children =>
      .object (declarationMembers declaration
        ++ [kindMember .object, ("params", .array (writeNodes children))] ++ objectMembers facets)

/-- JSON forms of nodes. -/
def writeNodes : List Node → List Value
  | [] => []
  | node :: rest => writeNode node :: writeNodes rest

end

end Writing
end SchemaCompiler
