import SchemaCompiler.Registry.Basic

/-!
# Names that travel

The top-level field names that the functions of a namespace take and return.
-/

namespace SchemaCompiler
namespace Schema

open SchemaCompiler.Order (NameSet)

/-- Field names of an object payload, or of the element object of an array
payload. -/
def topLevelNames (registry : Registry) (node : Node) : Except SchemaError (List String) := do
  let canonical ← registry.resolve node
  let object ← match canonical.element? with
    | some element => do pure (← registry.resolve element).object?
    | none => pure canonical.object?
  return (object.map Object.names).getD []

namespace Function

/-- Names that a function takes: its parameters and the fields of its body. -/
def inputNames (registry : Registry) (function : Function) : Except SchemaError NameSet := do
  let parameters := (function.pathParameters ++ function.queryParameters).map Node.name
  let fields ← match function.body with
    | some body => topLevelNames registry body
    | none => pure []
  return .ofList (parameters ++ fields)

/-- Names that a function returns. -/
def outputNames (registry : Registry) (function : Function) : Except SchemaError NameSet := do
  match function.output with
  | some output => return .ofList (← topLevelNames registry output)
  | none => return .empty

end Function

/-- Union of the names that each function gives. -/
def gatherNames (names : Function → Except SchemaError NameSet) :
    List (OperationKind × Function) → Except SchemaError NameSet
  | [] => .ok .empty
  | (_, function) :: rest => do
      let first ← names function
      let others ← gatherNames names rest
      return first.union others

namespace Namespace

/-- Names that the functions of a namespace take. -/
def inputNames (registry : Registry) (managed : Namespace) : Except SchemaError NameSet :=
  gatherNames (Function.inputNames registry) managed.functions

/-- Names that the functions of a namespace return. -/
def outputNames (registry : Registry) (managed : Namespace) : Except SchemaError NameSet :=
  gatherNames (Function.outputNames registry) managed.functions

end Namespace
end Schema
end SchemaCompiler
