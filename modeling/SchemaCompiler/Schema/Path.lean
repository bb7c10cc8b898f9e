/-!
# Field paths

A `FieldPath` names a place inside a schema tree by the names on the way to it.
-/

namespace SchemaCompiler
namespace Schema

/-- Names on the way from the root of a tree to a field. -/
structure FieldPath where
  names : List String
deriving Repr, DecidableEq, Inhabited

namespace FieldPath

/-- The root of a tree. -/
def root : FieldPath := ⟨[]⟩

/-- The path of one name. -/
def single (name : String) : FieldPath := ⟨[name]⟩

/-- The path of a child. -/
def child (path : FieldPath) (name : String) : FieldPath := ⟨path.names ++ [name]⟩

/-- The path of a named tree, or the root when the name is empty. -/
def ofName (name : String) : FieldPath := if name = "" then root else single name

/-- The dotted path. -/
def text (path : FieldPath) : String :=
  if path.names.isEmpty then "<root>" else String.intercalate "." path.names

end FieldPath
end Schema
end SchemaCompiler
