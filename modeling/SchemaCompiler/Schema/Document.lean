import SchemaCompiler.Schema.Namespace

/-!
# Documents

A `Document` holds shared schema entries by id and the namespaces to generate. An
override document is merged into a base; what the base does not have is added.
-/

namespace SchemaCompiler
namespace Schema

/-- A base or override document. -/
structure Document where
  schemas : Order.Table Node := .empty
  namespaces : List Namespace := []
deriving Repr, Inhabited

namespace Document

/-- The entries of a base with those of an overlay. -/
def mergeSchemas (base : Order.Table Node) :
    List (String × Node) → Except SchemaError (Order.Table Node)
  | [] => .ok base
  | (id, node) :: rest => do
      let merged ← match base.get? id with
        | some existing => existing.mergeAt (FieldPath.single id) node
        | none => .ok node
      mergeSchemas (base.set id merged) rest

/-- The list with what an overlay states about its first namespace of that name,
or with the overlay at its end. -/
def mergeNamespace (overlay : Namespace) : List Namespace → Except SchemaError (List Namespace)
  | [] => .ok [overlay]
  | first :: rest =>
      if first.name = overlay.name then do
        let merged ← first.merge overlay
        return merged :: rest
      else do
        let others ← mergeNamespace overlay rest
        return first :: others

/-- The namespaces of a base with those of an overlay. -/
def mergeNamespaces (base : List Namespace) :
    List Namespace → Except SchemaError (List Namespace)
  | [] => .ok base
  | overlay :: rest => do
      let next ← mergeNamespace overlay base
      mergeNamespaces next rest

/-- The document with what an override states. -/
def applyOverride (base overlay : Document) : Except SchemaError Document := do
  let schemas ← mergeSchemas base.schemas overlay.schemas.entries
  let namespaces ← mergeNamespaces base.namespaces overlay.namespaces
  return { schemas := schemas, namespaces := namespaces }

/-- The node with a name, its own or the given one. -/
def namedNode (name : String) (node : Node) : Node :=
  if node.name = "" then node.withDeclaration { node.declaration with name := name } else node

/-- The document with a name for every entry and function: its own, else its key. -/
def normalize (document : Document) : Document where
  schemas := document.schemas.mapValues namedNode
  namespaces := document.namespaces.map Namespace.normalize

/-- Checks every entry and every namespace. -/
def validate (document : Document) : Except SchemaError Unit := do
  for (id, node) in document.schemas.entries do
    node.validate (FieldPath.single id)
  for managed in document.namespaces do
    managed.validate

/-- The first namespace of a name. -/
def namespace? (document : Document) (name : String) : Option Namespace :=
  document.namespaces.find? fun managed => managed.name = name

end Document
end Schema
end SchemaCompiler
