import SchemaCompiler.Client.Definition
import SchemaCompiler.Client.TypeIndex
import SchemaCompiler.Constraint.Rules
import SchemaCompiler.Registry.Expansion

/-!
# Client conversion

Objects become structs and functions become input and output types. A reference to
an object entry stays closed: the field has the class of the entry, which is
declared elsewhere. A reference to any other entry is replaced by the type it
stands for, and its id stays on a stack meanwhile, so the conversion ends.
-/

namespace SchemaCompiler
namespace Client

open SchemaCompiler.Code (Documentation)
open SchemaCompiler.Constraint (describe)
open SchemaCompiler.Key (Form Place Position)
open SchemaCompiler.Schema

/-- What a conversion leaves behind beside its result. -/
structure Emission where
  structs : List Struct := []
  dependencies : List String := []
deriving Repr, DecidableEq, Inhabited

namespace Emission

/-- What two conversions leave behind one after the other. -/
def append (left right : Emission) : Emission where
  structs := left.structs ++ right.structs
  dependencies := left.dependencies ++ right.dependencies

instance : Append Emission := ⟨append⟩

@[simp] theorem structs_append (left right : Emission) :
    (left ++ right).structs = left.structs ++ right.structs := rfl

@[simp] theorem dependencies_append (left right : Emission) :
    (left ++ right).dependencies = left.dependencies ++ right.dependencies := rfl

/-- The definitions without inputs and outputs. -/
def definitions (emission : Emission) : Definitions where
  structs := emission.structs
  dependencies := .ofList emission.dependencies

end Emission

/-- Methods for the storage keys of the secret at a position. -/
def keyMethods (registry : Registry) (field : String) (position : Position) :
    Except SchemaError (List KeyMethod) :=
  Form.all.mapM fun form => do
    let key ← Key.derive registry position form
    return .ofKey field form key

/-- Key methods of a field: for its own secret or for the secret its elements
hold. -/
def fieldKeyMethods
    (registry : Registry)
    (path : FieldPath)
    (field : String)
    (position : Position) : Except SchemaError (List KeyMethod) :=
  match position.canonical with
  | .array _ _ element => do
      let canonical ← registry.resolveAt path element
      if canonical.isEncrypted then keyMethods registry field (position.child element canonical)
      else return []
  | canonical => if canonical.isEncrypted then keyMethods registry field position else .ok []

/-- Sentences on how a field travels. -/
def travelLines (declaration : Declaration) : List String :=
  (match declaration.location with
    | some .path => ["Path parameter."]
    | some .query => ["Query parameter."]
    | some .body | none => [])
    ++ (if declaration.readOnly then ["Read-only."] else [])
    ++ if declaration.required then ["Required."] else []

/-- Documentation of a field. -/
def fieldDocumentation (node canonical : Node) : Documentation :=
  (Documentation.ofOption
      (node.declaration.description.or canonical.declaration.description)).addParagraph
    (travelLines node.declaration ++ describe canonical)

/-- Type of a scalar. -/
def scalarType : Scalar → FieldType
  | .bool facets => if facets.untyped then .json else .bool
  | .int _ => .int
  | .float _ => .float
  | .string _ => .string

variable [Name.Lettering]

/-- Name of the struct for an object nested in `owner`. -/
def nestedName (owner name : String) : String :=
  Name.nested owner (if name = "" then "item" else name)

mutual

/-- The struct of an object with the given children, without documentation; the
object itself is the first of `enclosing`. -/
def convertFields
    (registry : Registry)
    (index : TypeIndex)
    (stack : List String)
    (owner : String)
    (path : FieldPath)
    (enclosing : List Place)
    (children : List Node) : Except SchemaError (Struct × Emission) :=
  match children with
  | [] => .ok ({ name := owner }, {})
  | child :: rest => do
      let place := path.child child.name
      let canonical ← registry.resolveAt place child
      let name := Name.fieldName child.name
      let methods ← fieldKeyMethods registry place name ⟨⟨child, canonical⟩, enclosing⟩
      let (type, emission) ← convertType registry index stack owner place enclosing child
      let (struct, others) ← convertFields registry index stack owner path enclosing rest
      let field : Field := {
        name := name
        wireName := child.name
        documentation := fieldDocumentation child canonical
        type := type
        isOptional := isHeldOptional child canonical
        location := child.declaration.location }
      return ({ struct with
        fields := field :: struct.fields
        keyMethods := methods ++ struct.keyMethods }, emission ++ others)
termination_by (Order.unseen registry.ids stack, 3 * Node.sizeAll children + 2)
decreasing_by
  · exact Prod.Lex.right _ (by simp only [Node.sizeAll_cons]; omega)
  · exact Prod.Lex.right _ (by simp only [Node.sizeAll_cons]; have := child.size_pos; omega)

/-- Type of the node at `path`: a class if it refers to an object entry, else what
it resolves to. -/
def convertType
    (registry : Registry)
    (index : TypeIndex)
    (stack : List String)
    (owner : String)
    (path : FieldPath)
    (enclosing : List Place)
    (node : Node) : Except SchemaError (FieldType × Emission) := do
  let opened ← registry.expand stack path node
  match node.reference?, opened.canonical.isObject with
  | some id, true => return (.named (index.classOf id), { dependencies := [id] })
  | _, _ =>
      convertCanonical registry index opened.inside owner path enclosing node opened.canonical
termination_by (Order.unseen registry.ids stack, 3 * node.size + 1)
decreasing_by
  exact opened.decreases fun same => by rw [same]; omega

/-- Type of the node at `path` that resolves to `canonical`, which is declared in
place if it is an object. -/
def convertCanonical
    (registry : Registry)
    (index : TypeIndex)
    (stack : List String)
    (owner : String)
    (path : FieldPath)
    (enclosing : List Place)
    (node canonical : Node) : Except SchemaError (FieldType × Emission) :=
  match canonical with
  | .scalar _ facets => .ok (scalarType facets, {})
  | .array declaration facets element => do
      let place : Place := ⟨node, .array declaration facets element⟩
      let (type, emission) ← convertType registry index stack owner path (place :: enclosing)
        element
      return (.list type, emission)
  | .object declaration facets children => do
      let place : Place := ⟨node, .object declaration facets children⟩
      let name := nestedName owner (Position.mk place enclosing).internalName
      let (struct, emission) ← convertFields registry index stack name path (place :: enclosing)
        (Node.sorted children)
      let documented := { struct with documentation := .ofOption declaration.description }
      return (.named name, emission ++ { structs := [documented] })
termination_by (Order.unseen registry.ids stack, 3 * canonical.size)
decreasing_by
  · exact Prod.Lex.right _ (by simp only [Node.size_array]; omega)
  · exact Prod.Lex.right _ (by simp only [Node.sizeAll_sorted, Node.size_object]; omega)

end

/-- The struct of an object node at `path` that starts a walk. -/
def convertRoot
    (registry : Registry)
    (index : TypeIndex)
    (name : String)
    (path : FieldPath)
    (node : Node) : Except SchemaError (Struct × Emission) :=
  match node with
  | .object _ _ children =>
      convertFields registry index [] name path [⟨node, node⟩] (Node.sorted children)
  | other => .error (.rootNotObject path other.kind)

/-- Definitions for the object entry of an id. -/
def convertEntry (registry : Registry) (index : TypeIndex) (id : String) :
    Except SchemaError Definitions := do
  let root ← registry.root id
  if !root.isObject then throw (.rootNotObject (FieldPath.single id) root.kind)
  let (struct, emission) ← convertRoot registry index (index.classOf id) FieldPath.root root
  let documented := { struct with documentation := .ofOption root.declaration.description }
  return (emission ++ { structs := [documented] }).definitions

/-- The placeholders of an address that a field fills. -/
def addressParameters (fields : List Field) (placeholders : List String) :
    List AddressParameter :=
  placeholders.filterMap fun placeholder =>
    (fields.find? fun field => field.wireName = placeholder).map fun field =>
      ⟨placeholder, field.name, field.isOptional⟩

/-- Definitions for what a function takes. -/
def convertInput
    (registry : Registry)
    (index : TypeIndex)
    (lead : String)
    (function : Function) : Except SchemaError Definitions := do
  let taken ← function.itemizedInput
  let (struct, emission) ← convertRoot registry index (lead ++ "Input")
    (FieldPath.single function.name) taken
  let line := s!"Input of `{function.httpMethod} {function.uri}`."
  let input : Input := {
    struct := { struct with documentation := ⟨[line]⟩ }
    method := function.httpMethod
    address := function.uri
    addressParameters := addressParameters struct.fields function.placeholders }
  return { emission.definitions with inputs := [input] }

/-- Definitions for what a function returns. -/
def convertOutput
    (registry : Registry)
    (index : TypeIndex)
    (name : String)
    (path : FieldPath)
    (output : Node) : Except SchemaError Definitions := do
  let canonical ← registry.resolveAt path output
  let documentation := Documentation.ofOption
    (output.declaration.description.or canonical.declaration.description)
  if canonical.isObject && !output.isReference then
    let (struct, emission) ← convertRoot registry index name path output
    let result := Output.struct { struct with documentation := documentation }
    return { emission.definitions with outputs := [result] }
  else
    let (target, emission) ← convertType registry index [] name path [] output
    return { emission.definitions with outputs := [.alias name documentation target] }

/-- Definitions for a function of the namespace with the given type name. -/
def convertFunction
    (registry : Registry)
    (index : TypeIndex)
    (namespaceType : String)
    (function : Function) : Except SchemaError Definitions := do
  let lead := Name.nested namespaceType function.name
  let input ← convertInput registry index lead function
  match function.output with
  | none => return input
  | some node =>
      let output ← convertOutput registry index (lead ++ "Output")
        (FieldPath.single function.name) node
      return input ++ output

/-- Definitions for functions one after another. -/
def convertFunctions
    (registry : Registry)
    (index : TypeIndex)
    (namespaceType : String) :
    List (OperationKind × Function) → Except SchemaError Definitions
  | [] => .ok .empty
  | (_, function) :: rest => do
      let first ← convertFunction registry index namespaceType function
      let others ← convertFunctions registry index namespaceType rest
      return first ++ others

/-- Definitions for the entry and the functions of a namespace. -/
def convertNamespace (registry : Registry) (index : TypeIndex) (managed : Namespace) :
    Except SchemaError Definitions := do
  let entry ← convertEntry registry index managed.schema
  let functions ← convertFunctions registry index (Name.typeName managed.name) managed.functions
  return entry ++ functions

end Client
end SchemaCompiler
