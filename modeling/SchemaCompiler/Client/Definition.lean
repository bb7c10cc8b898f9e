import SchemaCompiler.Code.Documentation
import SchemaCompiler.Key.StorageKey
import SchemaCompiler.Order.NameSet
import SchemaCompiler.Schema.Kind

/-!
# Client definitions

A client module declares structs for managed entries, an input struct for every
function and a struct or an alias for every output. A struct that holds secrets
has a method for the storage key of each.
-/

namespace SchemaCompiler
namespace Client

open SchemaCompiler.Code (Documentation)
open SchemaCompiler.Key (Form StorageKey)
open SchemaCompiler.Schema (Location)

/-- Type of a field. -/
inductive FieldType where
  | bool
  | int
  | float
  | string
  /-- A value of any form. -/
  | json
  | named (name : String)
  | list (element : FieldType)
deriving Repr, DecidableEq, Inhabited

namespace FieldType

/-- The type without blanks. -/
def text : FieldType → String
  | .bool => "bool"
  | .int => "i64"
  | .float => "f64"
  | .string => "String"
  | .json => "serde_json::Value"
  | .named name => name
  | .list element => "Vec<" ++ element.text ++ ">"

/-- The name of a struct that the type mentions. -/
def name? : FieldType → Option String
  | .named name => some name
  | .list element => element.name?
  | _ => none

/-- The type can be written into code. -/
def isWritable (type : FieldType) : Bool := type.name?.all Name.isWritable

end FieldType

/-- A field of a struct. -/
structure Field where
  name : String
  /-- Name of the field in transit. -/
  wireName : String
  documentation : Documentation
  type : FieldType
  isOptional : Bool
  location : Option Location
deriving Repr, DecidableEq, Inhabited

namespace Field

/-- The name in transit differs from the name in code. -/
def isRenamed (field : Field) : Bool := Name.unraw field.name ≠ field.wireName

end Field

/-- A method that returns the storage key of a secret. -/
structure KeyMethod where
  name : String
  form : Form
  key : StorageKey
deriving Repr, DecidableEq, Inhabited

namespace KeyMethod

/-- The method for one form of the secret in a field. -/
def ofKey (field : String) (form : Form) (key : StorageKey) : KeyMethod where
  name := Name.withSuffix field ("_" ++ form.text ++ "_key")
  form := form
  key := key

end KeyMethod

/-- A struct with its key methods. -/
structure Struct where
  name : String
  documentation : Documentation := {}
  fields : List Field := []
  keyMethods : List KeyMethod := []
deriving Repr, DecidableEq, Inhabited

/-- A placeholder of an address with the field that fills it. -/
structure AddressParameter where
  placeholder : String
  field : String
  isOptional : Bool
deriving Repr, DecidableEq, Inhabited

/-- What a function takes. -/
structure Input where
  struct : Struct
  method : String
  address : String
  addressParameters : List AddressParameter
deriving Repr, DecidableEq, Inhabited

/-- What a function returns. -/
inductive Output where
  | alias (name : String) (documentation : Documentation) (target : FieldType)
  | struct (definition : Struct)
deriving Repr, DecidableEq, Inhabited

namespace Output

/-- Name of an output. -/
def name : Output → String
  | .alias name _ _ => name
  | .struct definition => definition.name

/-- The struct of an output, if it is one. -/
def struct? : Output → Option Struct
  | .alias .. => none
  | .struct definition => some definition

/-- The type that an output is another name of. -/
def target? : Output → Option FieldType
  | .alias _ _ target => some target
  | .struct _ => none

end Output

/-- What one client file declares. -/
structure Definitions where
  structs : List Struct := []
  inputs : List Input := []
  outputs : List Output := []
  /-- Ids of entries that are referred to by their class. -/
  dependencies : Order.NameSet := .empty
deriving DecidableEq

namespace Definitions

/-- No definitions. -/
def empty : Definitions := {}

instance : Inhabited Definitions := ⟨empty⟩

/-- The definitions of both. -/
def append (left right : Definitions) : Definitions where
  structs := left.structs ++ right.structs
  inputs := left.inputs ++ right.inputs
  outputs := left.outputs ++ right.outputs
  dependencies := left.dependencies.union right.dependencies

instance : Append Definitions := ⟨append⟩

/-- Every struct that is declared. -/
def allStructs (definitions : Definitions) : List Struct :=
  definitions.structs ++ definitions.inputs.map Input.struct
    ++ definitions.outputs.filterMap Output.struct?

/-- Number of structs. -/
def structCount (definitions : Definitions) : Nat := definitions.allStructs.length

/-- Number of key methods. -/
def keyMethodCount (definitions : Definitions) : Nat :=
  (definitions.allStructs.map fun struct => struct.keyMethods.length).foldr (· + ·) 0

/-- Types of all fields and aliases. -/
def types (definitions : Definitions) : List FieldType :=
  (definitions.allStructs.flatMap fun struct => struct.fields.map Field.type)
    ++ definitions.outputs.filterMap Output.target?

/-- The types can be written into code. -/
def typesAreWritable (definitions : Definitions) : Bool :=
  definitions.types.all FieldType.isWritable

@[simp] theorem structs_append (left right : Definitions) :
    (left ++ right).structs = left.structs ++ right.structs := rfl

@[simp] theorem inputs_append (left right : Definitions) :
    (left ++ right).inputs = left.inputs ++ right.inputs := rfl

@[simp] theorem outputs_append (left right : Definitions) :
    (left ++ right).outputs = left.outputs ++ right.outputs := rfl

end Definitions
end Client
end SchemaCompiler
