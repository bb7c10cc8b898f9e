import SchemaCompiler.Client.Definition
import SchemaCompiler.Resource.Schema

/-!
# Statistics

What a generation run made, and what it could not make.
-/

namespace SchemaCompiler
namespace Generation

open SchemaCompiler.Client (Definitions)
open SchemaCompiler.Resource (ResourceSchema)

/-- What went wrong without ending a run. -/
inductive Warning where
  | namespaceFailed (name error : String)
  | sharedTypeFailed (id error : String)
  | unknownNamespace (name : String)
deriving Repr, DecidableEq, Inhabited

namespace Warning

/-- Wording of a warning. -/
def message : Warning → String
  | .namespaceFailed name error => s!"Failed to generate namespace '{name}': {error}"
  | .sharedTypeFailed id error => s!"Failed to generate shared type '{id}': {error}"
  | .unknownNamespace name => s!"Namespace '{name}' not found"

/-- Something was left out because of the warning. -/
def isSkippedItem : Warning → Bool
  | .namespaceFailed .. | .sharedTypeFailed .. => true
  | .unknownNamespace _ => false

end Warning

/-- Counts of a generation run. -/
structure Statistics where
  namespaces : Nat := 0
  structs : Nat := 0
  attributes : Nat := 0
  encryptedFields : Nat := 0
  functions : Nat := 0
  sharedTypes : Nat := 0
  cycles : List (List String) := []
  warnings : List Warning := []
deriving Repr, DecidableEq, Inhabited

namespace Statistics

/-- The counts with those of a client file; every secret has two key methods. -/
def addClient (statistics : Statistics) (definitions : Definitions) : Statistics :=
  { statistics with
    structs := statistics.structs + definitions.structCount
    encryptedFields := statistics.encryptedFields + definitions.keyMethodCount / 2
    functions := statistics.functions + definitions.inputs.length }

/-- The counts with those of a namespace. -/
def addNamespace
    (statistics : Statistics)
    (definitions : Definitions)
    (schema : ResourceSchema) : Statistics :=
  let counted := statistics.addClient definitions
  { counted with
    namespaces := counted.namespaces + 1
    attributes := counted.attributes + schema.attributeCount }

/-- The counts with those of a file of shared types. -/
def addShared (statistics : Statistics) (definitions : Definitions) : Statistics :=
  let counted := statistics.addClient definitions
  { counted with sharedTypes := counted.sharedTypes + definitions.structs.length }

/-- Number of things that were left out. -/
def skipped (statistics : Statistics) : Nat :=
  (statistics.warnings.filter Warning.isSkippedItem).length

end Statistics
end Generation
end SchemaCompiler
