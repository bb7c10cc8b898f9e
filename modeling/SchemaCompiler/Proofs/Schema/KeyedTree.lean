import SchemaCompiler.Proofs.Order.Table
import SchemaCompiler.Proofs.Outcome
import SchemaCompiler.Proofs.Schema.Tree
import SchemaCompiler.Reading.Node
import SchemaCompiler.Schema.Merge

/-!
# Trees edited in place

A `KeyedNode` is a node whose objects keep every child under a key, and an edit in place
leaves something behind even when it stops with an error. `Node.keyed` keeps the children of
a node under their own names; the edits agree with the operations on nodes.
-/

namespace SchemaCompiler
namespace Schema

open SchemaCompiler.Json (Draft)
open SchemaCompiler.Reading (Origin)

/-- What an edit in place leaves behind, with the error it stopped at. -/
structure Edited (α : Type) where
  value : α
  error? : Option SchemaError := none

namespace Edited

/-- The edit of a part as an edit of the whole. -/
def map (whole : α → β) (edited : Edited α) : Edited β := ⟨whole edited.value, edited.error?⟩

/-- The edit followed by another one, unless it stopped. -/
def andThen (edited : Edited α) (next : α → Edited α) : Edited α :=
  match edited.error? with
  | none => next edited.value
  | some _ => edited

/-- The result of an edit that did not stop. -/
def toExcept (edited : Edited α) : Except SchemaError α :=
  match edited.error? with
  | none => .ok edited.value
  | some error => .error error

@[simp] theorem toExcept_map
    (whole : α → β)
    (edited : Edited α) :
    (edited.map whole).toExcept = whole <$> edited.toExcept := by
  cases edited with
  | mk value error? => cases error? <;> rfl

@[simp] theorem toExcept_andThen
    (edited : Edited α)
    (next : α → Edited α) :
    (edited.andThen next).toExcept = edited.toExcept >>= fun value => (next value).toExcept := by
  cases edited with
  | mk value error? => cases error? <;> rfl

theorem value_of_toExcept
    {edited : Edited α}
    {value : α}
    (result : edited.toExcept = .ok value) :
    edited.value = value := by
  unfold toExcept at result
  split at result
  · exact Except.ok.inj result
  · cases result

/-- An edit stopped with the error of its result. -/
theorem toExcept_eq_error_iff
    {edited : Edited α}
    {cause : SchemaError} :
    edited.toExcept = .error cause ↔ edited.error? = some cause := by
  unfold toExcept
  cases edited.error? <;> simp

/-- What two edits leave behind has a property that each of them keeps. -/
theorem andThen_induction
    {property : α → Prop}
    {edited : Edited α}
    {next : α → Edited α}
    (first : property edited.value)
    (second : property edited.value → property (next edited.value).value) :
    property (edited.andThen next).value := by
  unfold andThen
  cases edited.error? with
  | none => exact second first
  | some _ => exact first

end Edited

/-- A node whose objects keep every child under a key. -/
inductive KeyedNode where
  | scalar (declaration : Declaration) (facets : Scalar)
  | array (declaration : Declaration) (facets : ArrayFacets) (element : KeyedNode)
  | object
      (declaration : Declaration)
      (facets : ObjectFacets)
      (entries : List (String × KeyedNode))

/-- Content of an object: its children with their keys, in the order of their insertion. -/
structure KeyedObject where
  entries : List (String × KeyedNode) := []
  facets : ObjectFacets := {}

namespace KeyedNode

/-- A property of all nodes by induction: an object has it if its children have it. -/
@[elab_as_elim]
theorem inductOn
    {motive : KeyedNode → Prop}
    (node : KeyedNode)
    (scalar : ∀ declaration facets, motive (.scalar declaration facets))
    (array : ∀ declaration facets element, motive element →
      motive (.array declaration facets element))
    (object : ∀ declaration facets entries, (∀ entry ∈ entries, motive entry.2) →
      motive (.object declaration facets entries)) :
    motive node :=
  match node with
  | .scalar declaration facets => scalar declaration facets
  | .array declaration facets element =>
      array declaration facets element (inductOn element scalar array object)
  | .object declaration facets entries =>
      object declaration facets entries fun entry inside =>
        have := Order.sizeOf_value_lt inside
        inductOn entry.2 scalar array object
termination_by sizeOf node

/-- What a node states about itself. -/
def declaration : KeyedNode → Declaration
  | .scalar declaration _ => declaration
  | .array declaration _ _ => declaration
  | .object declaration _ _ => declaration

/-- The node with another declaration. -/
def withDeclaration (declaration : Declaration) : KeyedNode → KeyedNode
  | .scalar _ facets => .scalar declaration facets
  | .array _ facets element => .array declaration facets element
  | .object _ facets entries => .object declaration facets entries

/-- Internal name of a node. -/
def name (node : KeyedNode) : String := node.declaration.name

/-- Kind of a node. -/
def kind : KeyedNode → Kind
  | .scalar _ facets => facets.kind
  | .array .. => .array
  | .object .. => .object

/-- The node with its flags set. -/
def setFlags (required readOnly replaceOnChange : Bool) (node : KeyedNode) : KeyedNode :=
  node.withDeclaration
    { node.declaration with
      required := required, readOnly := readOnly, replaceOnChange := replaceOnChange }

@[simp] theorem name_setFlags
    (required readOnly replaceOnChange : Bool)
    (node : KeyedNode) :
    (node.setFlags required readOnly replaceOnChange).name = node.name := by
  cases node <;> rfl

end KeyedNode

namespace KeyedObject

/-- The object without children. -/
def empty : KeyedObject := {}

/-- The node of an object. -/
def toNode (declaration : Declaration) (object : KeyedObject) : KeyedNode :=
  .object declaration object.facets object.entries

/-- Keys of the children in the order of their insertion. -/
def keys (object : KeyedObject) : List String := object.entries.map Prod.fst

/-- The child under a key. -/
def get? (object : KeyedObject) (key : String) : Option KeyedNode := object.entries.lookup key

/-- The entries with another child under a key. -/
def putEntry (key : String) (child : KeyedNode) :
    List (String × KeyedNode) → List (String × KeyedNode)
  | [] => []
  | entry :: rest =>
      if entry.1 = key then (key, child) :: rest else entry :: putEntry key child rest

/-- The object with another child under a key that has one. -/
def put (object : KeyedObject) (key : String) (child : KeyedNode) : KeyedObject :=
  { object with entries := putEntry key child object.entries }

/-- Adds a child under its name, unless the key is taken. -/
def insert (object : KeyedObject) (path : FieldPath) (child : KeyedNode) : Edited KeyedObject :=
  if child.name ∈ object.keys then ⟨object, some (.duplicateField path child.name)⟩
  else { value := { object with entries := object.entries ++ [(child.name, child)] } }

/-- Adds children one after another. -/
def insertAll (object : KeyedObject) (path : FieldPath) : List KeyedNode → Edited KeyedObject
  | [] => { value := object }
  | child :: rest => (object.insert path child).andThen fun next => next.insertAll path rest

/-- The object of a list of children. -/
def ofChildren (children : List KeyedNode) : Edited KeyedObject :=
  empty.insertAll FieldPath.root children

/-- First member of a group that is no key. -/
def strangeMember? (object : KeyedObject) (members : List String) : Option String :=
  members.find? (· ∉ object.keys)

/-- Adds a group, unless one of its members is no key or the group is there. -/
def addGroup (object : KeyedObject) (path : FieldPath) (members : List String) :
    Edited KeyedObject :=
  match object.strangeMember? members with
  | some member => ⟨object, some (.unknownGroupMember path member)⟩
  | none =>
      if object.facets.groups.contains members then { value := object }
      else
        { value := { object with
            facets := { object.facets with groups := object.facets.groups ++ [members] } } }

/-- Adds groups one after another. -/
def addGroups (object : KeyedObject) (path : FieldPath) :
    List (List String) → Edited KeyedObject
  | [] => { value := object }
  | members :: rest =>
      (object.addGroup path members).andThen fun next => next.addGroups path rest

/-- Changes the child under a key, if there is one. -/
def modify (object : KeyedObject) (key : String) (change : KeyedNode → KeyedNode) : KeyedObject :=
  match object.get? key with
  | some child => object.put key (change child)
  | none => object

end KeyedObject

namespace KeyedNode

open KeyedObject (toNode)

mutual

/-- Merges an overlay into the base at `path`. -/
def mergeInto (path : FieldPath) (base : KeyedNode) : KeyedNode → Edited KeyedNode
  | .scalar overlayDeclaration overlay =>
      match base with
      | .scalar declaration facets =>
          match facets.merge? overlay with
          | some merged => { value := .scalar (declaration.merge overlayDeclaration) merged }
          | none => ⟨base, some (.variantMismatch path base.kind overlay.kind)⟩
      | _ => ⟨base, some (.variantMismatch path base.kind overlay.kind)⟩
  | .array overlayDeclaration overlay overlayElement =>
      match base with
      | .array declaration facets element =>
          (mergeInto path element overlayElement).map
            (.array (declaration.merge overlayDeclaration) (facets.merge overlay))
      | _ => ⟨base, some (.variantMismatch path base.kind .array)⟩
  | .object overlayDeclaration overlay overlayEntries =>
      match base with
      | .object declaration facets entries =>
          let className := overlayNonempty facets.className overlay.className
          let object : KeyedObject := ⟨entries, { facets with className := className }⟩
          let grown := (mergeEntries path object overlayEntries).andThen fun merged =>
            merged.addGroups path overlay.groups
          grown.map (toNode (declaration.merge overlayDeclaration))
      | _ => ⟨base, some (.variantMismatch path base.kind .object)⟩

/-- Merges the children of an overlay into the ones under their keys, or adds them. -/
def mergeEntries (path : FieldPath) (base : KeyedObject) :
    List (String × KeyedNode) → Edited KeyedObject
  | [] => { value := base }
  | (key, child) :: rest =>
      match base.get? key with
      | some existing =>
          ((mergeInto (path.child key) existing child).map (base.put key)).andThen fun merged =>
            mergeEntries path merged rest
      | none => (base.insert path child).andThen fun merged => mergeEntries path merged rest

end

/-- Edits the content of an object, and no node of another kind. -/
def editObject (edit : KeyedObject → Edited KeyedObject) : KeyedNode → Edited KeyedNode
  | .object declaration facets entries => (edit ⟨entries, facets⟩).map (toNode declaration)
  | node => { value := node }

end KeyedNode

/-- What can be done to a tree from outside. -/
inductive Command where
  /-- A new child of the object. -/
  | insert (path : FieldPath) (child : KeyedNode)
  /-- A new group of the object. -/
  | addGroup (path : FieldPath) (members : List String)
  /-- Other flags of the child under a key. -/
  | setFlags (key : String) (required readOnly replaceOnChange : Bool)
  /-- A merge with an overlay. -/
  | merge (path : FieldPath) (overlay : KeyedNode)

namespace Command

/-- Trees that a command brings in. -/
def operands : Command → List KeyedNode
  | .insert _ child => [child]
  | .addGroup .. => []
  | .setFlags .. => []
  | .merge _ overlay => [overlay]

/-- Does what the command says. -/
def perform : Command → KeyedNode → Edited KeyedNode
  | .insert path child => KeyedNode.editObject fun object => object.insert path child
  | .addGroup path members => KeyedNode.editObject fun object => object.addGroup path members
  | .setFlags key required readOnly replaceOnChange =>
      KeyedNode.editObject fun object =>
        { value := object.modify key (KeyedNode.setFlags required readOnly replaceOnChange) }
  | .merge path overlay => fun node => node.mergeInto path overlay

/-- What commands leave behind, one after another, whether or not they stop. -/
def run (commands : List Command) (node : KeyedNode) : KeyedNode :=
  commands.foldl (fun node command => (command.perform node).value) node

end Command

namespace Node

mutual

/-- The node with every child under its own name. -/
def keyed : Node → KeyedNode
  | .scalar declaration facets => .scalar declaration facets
  | .array declaration facets element => .array declaration facets element.keyed
  | .object declaration facets children => .object declaration facets (keyedAll children)

/-- Children under their own names. -/
def keyedAll : List Node → List (String × KeyedNode)
  | [] => []
  | child :: rest => (child.name, child.keyed) :: keyedAll rest

end

end Node

/-- Content of an object with every child under its own name. -/
def Object.keyed (object : Object) : KeyedObject := ⟨Node.keyedAll object.children, object.facets⟩

/-- Trees that can be built from scalars, from children, by reading, and by commands on such
trees with such trees. -/
inductive KeyedNode.Reachable : KeyedNode → Prop
  | scalar (declaration : Declaration) (facets : Scalar) : Reachable (.scalar declaration facets)
  | array (declaration : Declaration) (facets : ArrayFacets) {element : KeyedNode} :
      Reachable element → Reachable (.array declaration facets element)
  | built (declaration : Declaration) {children : List KeyedNode} {object : KeyedObject} :
      (∀ child ∈ children, Reachable child) →
      (KeyedObject.ofChildren children).toExcept = .ok object →
      Reachable (object.toNode declaration)
  | read {origin : Origin} {draft : Draft} {node : Node} :
      Reading.readNode origin draft = .ok node → Reachable node.keyed
  | performed {node : KeyedNode} {command : Command} :
      Reachable node →
      (∀ operand ∈ command.operands, Reachable operand) →
      Reachable (command.perform node).value

end Schema
end SchemaCompiler
