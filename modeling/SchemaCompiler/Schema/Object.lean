import SchemaCompiler.Schema.Node

/-!
# Objects

An `Object` is the content of an object node: children with distinct names in the
order of their declaration, groups of children of which exactly one is given, and
a class name. `WellFormed` states what insertion and grouping keep.
-/

namespace SchemaCompiler
namespace Schema

/-- Content of an object node. -/
structure Object where
  children : List Node := []
  facets : ObjectFacets := {}
deriving Repr, Inhabited

namespace Object

/-- The object without children. -/
def empty : Object := {}

/-- The node of an object. -/
def toNode (object : Object) (declaration : Declaration) : Node :=
  .object declaration object.facets object.children

/-- The child of a name. -/
def get? (object : Object) (name : String) : Option Node := Node.findChild? name object.children

/-- Some child has the name. -/
def contains (object : Object) (name : String) : Bool := Node.hasChild name object.children

/-- Names of the children in declaration order. -/
def names (object : Object) : List String := object.children.map Node.name

/-- Number of children. -/
def size (object : Object) : Nat := object.children.length

/-- Groups of mutually exclusive children. -/
def groups (object : Object) : List (List String) := object.facets.groups

/-- The object with one more child at the end. -/
def insert
    (object : Object)
    (path : FieldPath)
    (child : Node) : Except SchemaError Object :=
  if object.contains child.name then .error (.duplicateField path child.name)
  else .ok { object with children := object.children ++ [child] }

/-- The object with children inserted one after another. -/
def insertAll (object : Object) (path : FieldPath) : List Node → Except SchemaError Object
  | [] => .ok object
  | child :: rest => do
      let next ← object.insert path child
      insertAll next path rest

/-- The object of a list of children. -/
def ofChildren (children : List Node) : Except SchemaError Object :=
  empty.insertAll FieldPath.root children

/-- The object with a group, unless it has the group already. -/
def addGroup
    (object : Object)
    (path : FieldPath)
    (members : List String) : Except SchemaError Object :=
  match Node.strangeMember? object.children members with
  | some member => .error (.unknownGroupMember path member)
  | none =>
      if object.groups.contains members then .ok object
      else .ok { object with facets := { object.facets with groups := object.groups ++ [members] } }

/-- The object with groups added one after another. -/
def addGroups (object : Object) (path : FieldPath) : List (List String) → Except SchemaError Object
  | [] => .ok object
  | members :: rest => do
      let next ← object.addGroup path members
      addGroups next path rest

/-- Checks that every member of a group is a child. -/
def validateGroups (object : Object) (path : FieldPath) : Except SchemaError Unit :=
  match Node.strangeMember? object.children object.groups.flatten with
  | some member => .error (.unknownGroupMember path member)
  | none => .ok ()

/-- The first group that a child belongs to. -/
def groupOf? (object : Object) (name : String) : Option (List String) :=
  object.groups.find? fun group => group.contains name

/-- The object with the child of a name replaced. -/
def modify (object : Object) (name : String) (change : Node → Node) : Object :=
  { object with
    children := object.children.map fun child =>
      if child.name = name then change child else child }

/-- One of two nodes comes before the other by display name, then by internal
name. -/
def displayOrder [Name.Lettering] (left right : Node) : Bool :=
  left.snakeName < right.snakeName ||
    (left.snakeName = right.snakeName && left.name ≤ right.name)

/-- The children by display name. -/
def sortedChildren [Name.Lettering] (object : Object) : List Node :=
  object.children.mergeSort displayOrder

end Object

/-- Content of an object node. -/
def Node.object? : Node → Option Object
  | .object _ facets children => some ⟨children, facets⟩
  | _ => none

end Schema
end SchemaCompiler
