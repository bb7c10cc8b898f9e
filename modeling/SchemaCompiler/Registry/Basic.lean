import SchemaCompiler.Order.Table
import SchemaCompiler.Schema.Document

/-!
# The registry

A `Registry` holds the shared entries of a document by id. A node with a reference
resolves, in a single hop, to the entry of its id; the entry must have the kind of
the node and no reference of its own.
-/

namespace SchemaCompiler
namespace Schema

/-- Shared entries by id. -/
structure Registry where
  entries : Order.Table Node
deriving Repr, Inhabited

namespace Registry

/-- The entry of an id. -/
def get? (registry : Registry) (id : String) : Option Node := registry.entries.get? id

/-- Ids of the entries in increasing order. -/
def ids (registry : Registry) : List String := registry.entries.names

/-- Number of entries. -/
def size (registry : Registry) : Nat := registry.entries.size

/-- The entry that the reference `id` of a node at `path` resolves to. -/
def target
    (registry : Registry)
    (path : FieldPath)
    (node : Node)
    (id : String) : Except SchemaError Node :=
  match registry.get? id with
  | none => .error (.unknownReference path id)
  | some entry =>
      if entry.kind ≠ node.kind then .error (.kindMismatch path id node.kind entry.kind)
      else
        match entry.reference? with
        | some next => .error (.chainedReference path id next)
        | none => .ok entry

/-- Canonical node of the node at `path`: the entry it stands for, or itself. -/
def resolveAt
    (registry : Registry)
    (path : FieldPath)
    (node : Node) : Except SchemaError Node :=
  match node.reference? with
  | none => .ok node
  | some id => registry.target path node id

/-- Canonical node of a node that is the root of a tree. -/
def resolve (registry : Registry) (node : Node) : Except SchemaError Node :=
  registry.resolveAt (FieldPath.ofName node.name) node

/-- The entry that a namespace manages. -/
def root (registry : Registry) (id : String) : Except SchemaError Node :=
  match registry.get? id with
  | some entry => .ok entry
  | none => .error (.unknownReference FieldPath.root id)

/-- Ids mentioned anywhere inside an entry. -/
def dependenciesOf? (registry : Registry) (id : String) : Option Order.NameSet :=
  (registry.get? id).map Node.referenceIds

/-- A reference that resolves is the id of an entry. -/
theorem mem_ids_of_target
    {registry : Registry}
    {path : FieldPath}
    {node entry : Node}
    {id : String}
    (resolved : registry.target path node id = .ok entry) :
    id ∈ registry.ids := by
  unfold target at resolved
  split at resolved
  next => cases resolved
  next found => exact Order.Table.mem_names_of_get? found

/-- A node without reference is its own canonical node. -/
theorem resolveAt_of_reference?_none
    (registry : Registry)
    (path : FieldPath)
    {node : Node}
    (plain : node.reference? = none) :
    registry.resolveAt path node = .ok node := by
  simp [resolveAt, plain]

end Registry
end Schema
end SchemaCompiler
