import SchemaCompiler.Constraint.Rules
import SchemaCompiler.Registry.Walk
import SchemaCompiler.Resource.Attribute
import SchemaCompiler.Schema.Namespace

/-!
# Resource schemas

A resource schema lists the attributes of the entry that a namespace manages.
References are expanded in place: an attribute has the structure of its canonical
node and the flags of its declaration. Everything below a top-level field travels
as that field does.

The conversion keeps no record of the references it is expanding. It is a partial
function whose value is `none` where a reference comes back inside its own expansion
for ever; the walk over the entry beforehand is there to keep such entries out.
-/

namespace SchemaCompiler
namespace Resource

open SchemaCompiler.Code (Documentation)
open SchemaCompiler.Constraint (Validator listValidators valueValidators)
open SchemaCompiler.Schema

/-- Attributes of one managed entry. -/
structure ResourceSchema where
  function : String
  documentation : Documentation
  attributes : List Attribute
deriving Repr

namespace ResourceSchema

/-- Number of attributes at any depth. -/
def attributeCount (schema : ResourceSchema) : Nat := Attribute.countAll schema.attributes

/-- The text without an ending, or the whole text when it ends otherwise. -/
def withoutEnding (ending text : List Char) : List Char :=
  if ending.isSuffixOf text then text.take (text.length - ending.length) else text

/-- Name of the constant that holds the slug. -/
def slugConstant (schema : ResourceSchema) : String :=
  let stem := withoutEnding "_attributes".toList (Name.unraw schema.function).toList
  String.ofList (stem.map Char.toUpper) ++ "_SLUG"

end ResourceSchema

/-- Attribute type of a scalar; a value of any form is held as text. -/
def scalarType : Scalar → PlainType
  | .bool facets => if facets.untyped then .string else .bool
  | .int _ => .int64
  | .float _ => .float64
  | .string _ => .string

/-- Element type of a scalar. -/
def scalarElement : Scalar → ElementType
  | .bool facets => if facets.untyped then .json else .bool
  | .int _ => .int64
  | .float _ => .float64
  | .string _ => .string

/-- The value is a secret: it is marked as one or stored by key. -/
def isSecret (canonical : Node) : Bool :=
  canonical.string?.any fun facets => facets.sensitive || facets.isEncrypted

variable [Name.Lettering]

/-- What an attribute states about itself, apart from its checks. -/
def factsOf (node canonical : Node) (exposure : Exposure) : AttributeFacts where
  name := node.snakeName
  exposure := exposure
  documentation :=
    .ofOption (node.declaration.description.or canonical.declaration.description)
  isSensitive := isSecret canonical
  requiresReplace := node.declaration.replaceOnChange

/-- The check that exactly one member of a group is given. -/
def groupValidator (group : List String) : Validator := .exactlyOneOf (group.map Name.snake)

/-- The attribute with the check of the first group that its field belongs to. -/
def addGroup (groups : List (List String)) (name : String) (converted : Attribute) : Attribute :=
  match groups.find? fun group => group.contains name with
  | some group => converted.addValidator (groupValidator group)
  | none => converted

/-- What the field at `path` states about itself, and its canonical node. -/
def openField
    (registry : Registry)
    (path : FieldPath)
    (usage : FieldUsage)
    (node : Node) : Except SchemaError (AttributeFacts × Node) := do
  let canonical ← registry.resolveAt path node
  let exposure ← classify node canonical usage path
  return (factsOf node canonical exposure, canonical)

/-- The attribute of a scalar field. -/
def scalarAttribute
    (facts : AttributeFacts)
    (declaration : Declaration)
    (facets : Scalar) : Attribute :=
  .plain { facts with validators := valueValidators (.scalar declaration facets) }
    (scalarType facets)

/-- What a list field states about itself. -/
def listFacts (facts : AttributeFacts) (facets : ArrayFacets) : AttributeFacts :=
  { facts with validators := listValidators facets, isUnordered := facets.unordered }

/-- The attribute of a list field whose elements resolve to `element` and have no
attributes of their own. -/
def listAttribute
    (facts : AttributeFacts)
    (facets : ArrayFacets)
    (element : Node)
    (type : ElementType) : Attribute :=
  .plain { listFacts facts facets with elementValidators := valueValidators element } (.list type)

end Resource

namespace Schema
namespace Registry

open SchemaCompiler.Resource

/-- Element type of a plain list whose element resolves to `canonical`; `none` if the
element never stops expanding. -/
def elementType
    (registry : Registry)
    (path : FieldPath)
    (canonical : Node) : Option (Except SchemaError ElementType) :=
  match canonical with
  | .scalar _ facets => some (.ok (scalarElement facets))
  | .object .. => some (.ok .json)
  | .array _ _ element =>
      match registry.resolveAt path element with
      | .error cause => some (.error cause)
      | .ok inner => do
          let type ← registry |>.elementType path inner
          return type.map .list
partial_fixpoint

variable [Name.Lettering]

mutual

/-- The attribute of the field at `path`. -/
def convertField
    (registry : Registry)
    (path : FieldPath)
    (usage : FieldUsage)
    (node : Node) : Option (Except SchemaError Attribute) :=
  match openField registry path usage node with
  | .error cause => some (.error cause)
  | .ok (facts, canonical) => registry |>.convertCanonical path usage facts canonical
partial_fixpoint

/-- The attribute of a field that resolves to `canonical`. -/
def convertCanonical
    (registry : Registry)
    (path : FieldPath)
    (usage : FieldUsage)
    (facts : AttributeFacts)
    (canonical : Node) : Option (Except SchemaError Attribute) :=
  match canonical with
  | .scalar declaration facets => some (.ok (scalarAttribute facts declaration facets))
  | .object _ facets children => do
      let attributes ← registry |>.convertFields path facets.groups (fun _ => usage)
        (Node.sorted children)
      return attributes.map (.nested facts .single)
  | .array _ facets element =>
      match registry.resolveAt path element with
      | .error cause => some (.error cause)
      | .ok (.object _ innerFacets children) => do
          let attributes ← registry |>.convertFields path innerFacets.groups (fun _ => usage)
            (Node.sorted children)
          return attributes.map (.nested (listFacts facts facets) .list)
      | .ok inner => do
          let type ← registry |>.elementType path inner
          return type.map (listAttribute facts facets inner)
partial_fixpoint

/-- Attributes of the children of an object at `path`. -/
def convertFields
    (registry : Registry)
    (path : FieldPath)
    (groups : List (List String))
    (usage : String → FieldUsage)
    (children : List Node) : Option (Except SchemaError (List Attribute)) :=
  match children with
  | [] => some (.ok [])
  | child :: rest => do
      match ← registry |>.convertField (path.child child.name) (usage child.name) child with
      | .error cause => return .error cause
      | .ok first =>
          let others ← registry |>.convertFields path groups usage rest
          return others.map (addGroup groups child.name first :: ·)
partial_fixpoint

end

end Registry
end Schema

namespace Resource

open SchemaCompiler.Schema

variable [Name.Lettering]

/-- The schema of a namespace with the given attributes of its entry. -/
def schemaOf
    (managed : Namespace)
    (declaration : Declaration)
    (attributes : List Attribute) : ResourceSchema where
  function := Name.fieldName (Name.snake managed.name ++ "_attributes")
  documentation := .ofOption declaration.description
  attributes := attributes

/-- The resource schema of a namespace. Its entry is walked first, with every
reference below it expanded; `none` if the conversion never ends nevertheless. -/
def ofNamespace
    (registry : Registry)
    (usage : UsageIndex)
    (managed : Namespace) : Option (Except SchemaError ResourceSchema) :=
  match registry.root managed.schema with
  | .error cause => some (.error cause)
  | .ok root =>
      match root with
      | .object declaration facets children =>
          match registry.collect .expanded root with
          | .error cause => some (.error cause)
          | .ok _ => do
              let attributes ← registry.convertFields FieldPath.root facets.groups usage.usage
                (Node.sorted children)
              return attributes.map (schemaOf managed declaration)
      | other => some (.error (.rootNotObject (FieldPath.single managed.schema) other.kind))

end Resource
end SchemaCompiler
