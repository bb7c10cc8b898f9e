import SchemaCompiler.Usage.Names

/-!
# Exposure of fields

A resource attribute is required, optional or computed, according to how the field
travels. A client only tells a plain value from an optional one.
-/

namespace SchemaCompiler
namespace Schema

/-- How a top-level field travels. -/
inductive FieldUsage where
  | inputOnly
  | outputOnly
  | inputOutput
deriving Repr, DecidableEq, Inhabited

namespace FieldUsage

/-- Name of a usage. -/
def text : FieldUsage → String
  | .inputOnly => "input_only"
  | .outputOnly => "output_only"
  | .inputOutput => "input_output"

end FieldUsage

/-- Top-level names that a namespace takes and returns. -/
structure UsageIndex where
  input : Order.NameSet
  output : Order.NameSet
deriving Repr, DecidableEq, Inhabited

namespace UsageIndex

/-- The usage of the functions of a namespace. -/
def ofNamespace (registry : Registry) (managed : Namespace) : Except SchemaError UsageIndex := do
  let input ← managed.inputNames registry
  let output ← managed.outputNames registry
  return { input := input, output := output }

/-- The usage of a field; one that travels nowhere counts as input. -/
def usage (index : UsageIndex) (name : String) : FieldUsage :=
  match index.input.contains name, index.output.contains name with
  | true, true => .inputOutput
  | false, true => .outputOnly
  | _, false => .inputOnly

end UsageIndex

/-- How a resource exposes a field. -/
inductive Exposure where
  | required
  | optional
  /-- Optional for the caller and filled with a default when left out. -/
  | optionalComputed (defaultValue : DefaultValue)
  | computed
deriving Repr, DecidableEq, Inhabited

namespace Exposure

/-- The caller may leave the field out. -/
def isOptional : Exposure → Bool
  | .optional | .optionalComputed _ => true
  | .required | .computed => false

/-- The field may be filled in for the caller. -/
def isComputed : Exposure → Bool
  | .computed | .optionalComputed _ => true
  | .required | .optional => false

/-- The default that fills the field. -/
def defaultValue? : Exposure → Option DefaultValue
  | .optionalComputed value => some value
  | _ => none

end Exposure

/-- The exposure of a field: flags come from the declaration, and the default from
the declaration or else from the canonical node. -/
def classify
    (node canonical : Node)
    (usage : FieldUsage)
    (path : FieldPath) : Except SchemaError Exposure :=
  let declaration := node.declaration
  match usage with
  | .inputOnly =>
      if declaration.required && declaration.readOnly then .error (.requiredReadOnly path)
      else
        match node.defaultValue?.or canonical.defaultValue? with
        | some value => .ok (.optionalComputed value)
        | none => .ok (if declaration.required then .required else .optional)
  | .inputOutput => .ok (if declaration.readOnly then .computed else .optional)
  | .outputOnly =>
      if declaration.required && !declaration.readOnly then .error (.requiredOutputOnly path)
      else .ok .computed

/-- A client holds the field as an option: it is not required or has a default. -/
def isHeldOptional (node canonical : Node) : Bool :=
  !(node.declaration.required && !node.hasDefault && !canonical.hasDefault)

end Schema
end SchemaCompiler
