import SchemaCompiler.Client.Address
import SchemaCompiler.Client.TypeIndex
import SchemaCompiler.Code.Item
import SchemaCompiler.Resource.Schema

/-!
# Items of generated files

A client file declares structs, input types and output types. Structs that hold
secrets have an implementation with their key methods; inputs have one with their
method and address. A resource file holds the slug of a resource and a function that
lists its attributes.
-/

namespace SchemaCompiler
namespace Generation

open SchemaCompiler.Client
open SchemaCompiler.Code
open SchemaCompiler.Resource (Attribute ResourceSchema)

/-- Markers for the lines of a documentation. -/
def documentationMarkers (documentation : Documentation) : List Marker :=
  documentation.lines.map fun line => .documentation (" " ++ line)

/-- A field type as code. -/
def codeType : FieldType → CodeType
  | .bool => .path ["bool"]
  | .int => .path ["i64"]
  | .float => .path ["f64"]
  | .string => .path ["String"]
  | .json => .path ["serde_json", "Value"]
  | .named name => .path [name]
  | .list element => .within "Vec" (codeType element)

/-- How a field is converted in transit. -/
def transitSettings (field : Field) : List Setting :=
  (if field.isRenamed then [.value "rename" field.wireName] else [])
    ++ if field.isOptional then
      [.flag "default", .value "skip_serializing_if" "Option::is_none"]
    else []

/-- A field as code. -/
def fieldItem (field : Field) : FieldItem where
  markers :=
    documentationMarkers field.documentation
      ++ if (transitSettings field).isEmpty then [] else [.list "serde" (transitSettings field)]
  name := field.name
  type :=
    if field.isOptional then .within "Option" (codeType field.type) else codeType field.type

/-- Traits that every struct has. -/
def derivedTraits : List String :=
  ["Debug", "Clone", "Default", "PartialEq", "Serialize", "Deserialize"]

/-- A method that returns a text and whose result must not be dropped. -/
def textMethod (documentation name : String) (body : Expression) : Member :=
  .method {
    markers := [.documentation documentation, .flag "must_use"]
    name := name
    takesSelf := true
    result := .path ["String"]
    body := body }

variable [Name.Lettering]

/-- A key method as code. -/
def keyMember (keyMethod : KeyMethod) : Member :=
  textMethod s!" Store key of the {keyMethod.form.text} value." keyMethod.name
    keyMethod.key.expression

/-- A struct with its key methods as code. -/
def structItems (struct : Struct) : List Item :=
  .struct
      (documentationMarkers struct.documentation
        ++ [.list "derive" (derivedTraits.map .flag)])
      struct.name (struct.fields.map fieldItem)
    :: if struct.keyMethods.isEmpty then []
      else [.implementation struct.name (struct.keyMethods.map keyMember)]

/-- A constant text of a type. -/
def textConstant (name value : String) : Member :=
  .constant { markers := [], name := name, type := "&'static str", value := value }

/-- An input as code. -/
def inputItems (input : Input) : List Item :=
  structItems input.struct
    ++ [.implementation input.struct.name [
      textConstant "METHOD" input.method,
      textConstant Input.addressConstant input.address,
      textMethod " URI with path placeholders filled in." "uri" input.addressExpression]]

/-- An output as code. -/
def outputItems : Output → List Item
  | .struct definition => structItems definition
  | .alias name documentation target =>
      [.alias (documentationMarkers documentation) name (codeType target)]

/-- The import of a class as code. -/
def importItem (required : Import) : Item :=
  .use false ["crate", required.moduleName] (.one required.className)

/-- Items of a client file. -/
def clientItems (definitions : Definitions) (imports : List Import) : List Item :=
  (if definitions.structCount = 0 then []
    else [.use false ["serde"] (.several ["Deserialize", "Serialize"])])
    ++ imports.map importItem
    ++ definitions.structs.flatMap structItems
    ++ definitions.inputs.flatMap inputItems
    ++ definitions.outputs.flatMap outputItems

/-- Items of a resource file. -/
def resourceItems (schema : ResourceSchema) (slug : String) : List Item :=
  [.use false ["appliance_resource", "prelude"] .everything,
    .constant {
      markers := [.documentation " Short identifier of this resource."]
      name := schema.slugConstant
      type := "&str"
      value := slug },
    .function {
      markers := documentationMarkers schema.documentation ++ [.flag "must_use"]
      name := schema.function
      takesSelf := false
      result := .within "Vec" (.path ["Attribute"])
      body := .list (Attribute.listTokens schema.attributes) }]

end Generation
end SchemaCompiler
