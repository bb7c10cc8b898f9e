import SchemaCompiler.Name.Words
import SchemaCompiler.Order.NameSet
import SchemaCompiler.Schema.Error
import SchemaCompiler.Text.Quoted

/-!
# Schema nodes

A `Node` describes one value of a configuration: a scalar, an array of one
element node or an object of named children. Every node carries a declaration
with its name and flags; the facets of its kind stand beside it. A node with a
reference stands for an entry of the registry.
-/

namespace SchemaCompiler
namespace Schema

open SchemaCompiler.Number (Binary64)

/-- What every node states about itself. -/
structure Declaration where
  name : String := ""
  reference : Option String := none
  moduleName : Option String := none
  location : Option Location := none
  description : Option String := none
  required : Bool := false
  readOnly : Bool := false
  replaceOnChange : Bool := false
deriving Repr, DecidableEq, Inhabited

/-- Facets of a truth value; an untyped one stands for any value. -/
structure BoolFacets where
  defaultValue : Option Bool := none
  untyped : Bool := false
deriving Repr, DecidableEq, Inhabited

/-- Facets of a number. -/
structure NumberFacets (α : Type) where
  defaultValue : Option α := none
  min : Option α := none
  max : Option α := none
  values : List α := []
deriving Repr, DecidableEq, Inhabited

/-- How the storage key of a string is told apart from others. -/
inductive HashProfile where
  /-- The string is not stored by key. -/
  | plaintext
  /-- The string is the only stored one of its schema. -/
  | solo
  /-- The key carries the name of the ancestor `depth` levels up. -/
  | withAncestor (depth : UInt64)
  /-- The key carries the value of a sibling. -/
  | withSibling (field : String)
deriving Repr, DecidableEq, Inhabited

namespace HashProfile

/-- The string is not stored by key. -/
def isPlaintext (profile : HashProfile) : Bool := profile = .plaintext

end HashProfile

/-- Edits that an override makes to the values of its base. -/
structure ValuesPatch where
  add : List String := []
  remove : List String := []
deriving Repr, DecidableEq, Inhabited

namespace ValuesPatch

/-- The patch edits nothing. -/
def isEmpty (patch : ValuesPatch) : Bool := patch.add.isEmpty && patch.remove.isEmpty

end ValuesPatch

/-- Facets of a string. -/
structure StringFacets where
  defaultValue : Option String := none
  sensitive : Bool := false
  minLength : Option UInt64 := none
  maxLength : Option UInt64 := none
  values : List String := []
  regex : Option String := none
  hashing : HashProfile := .plaintext
  valuesPatch : Option ValuesPatch := none
deriving Repr, DecidableEq, Inhabited

namespace StringFacets

/-- The string is stored by key. -/
def isEncrypted (facets : StringFacets) : Bool := !facets.hashing.isPlaintext

end StringFacets

/-- Facets of an array beside its element. -/
structure ArrayFacets where
  minItems : Option UInt64 := none
  maxItems : Option UInt64 := none
  unordered : Bool := false
deriving Repr, DecidableEq, Inhabited

/-- Facets of an object beside its children. -/
structure ObjectFacets where
  groups : List (List String) := []
  className : Option String := none
deriving Repr, DecidableEq, Inhabited

/-- Facets of a value without parts. -/
inductive Scalar where
  | bool (facets : BoolFacets)
  | int (facets : NumberFacets Int64)
  | float (facets : NumberFacets Binary64)
  | string (facets : StringFacets)
deriving Repr, DecidableEq, Inhabited

/-- One element of a schema tree. -/
inductive Node where
  | scalar (declaration : Declaration) (facets : Scalar)
  | array (declaration : Declaration) (facets : ArrayFacets) (element : Node)
  | object (declaration : Declaration) (facets : ObjectFacets) (children : List Node)
deriving Repr, Inhabited

/-- Default of a scalar. -/
inductive DefaultValue where
  | bool (value : Bool)
  | int (value : Int64)
  | float (value : Binary64)
  | string (value : String)
deriving Repr, DecidableEq, Inhabited

namespace DefaultValue

/-- The default as documentation shows it. -/
def text : DefaultValue → String
  | .bool value => toString value
  | .int value => toString value.toInt
  | .float value => value.positionalText
  | .string value => Text.quotedText value

end DefaultValue

namespace Scalar

/-- Kind of a scalar. -/
def kind : Scalar → Kind
  | .bool _ => .bool
  | .int _ => .int
  | .float _ => .float
  | .string _ => .string

/-- Default of a scalar, if it has one. -/
def defaultValue? : Scalar → Option DefaultValue
  | .bool facets => facets.defaultValue.map .bool
  | .int facets => facets.defaultValue.map .int
  | .float facets => facets.defaultValue.map .float
  | .string facets => facets.defaultValue.map .string

end Scalar

namespace Node

/-- What a node states about itself. -/
def declaration : Node → Declaration
  | .scalar declaration _ => declaration
  | .array declaration _ _ => declaration
  | .object declaration _ _ => declaration

/-- The node with another declaration. -/
def withDeclaration (declaration : Declaration) : Node → Node
  | .scalar _ facets => .scalar declaration facets
  | .array _ facets element => .array declaration facets element
  | .object _ facets children => .object declaration facets children

/-- Kind of a node. -/
def kind : Node → Kind
  | .scalar _ facets => facets.kind
  | .array .. => .array
  | .object .. => .object

/-- Internal name of a node. -/
def name (node : Node) : String := node.declaration.name

/-- Display name in snake case. -/
def snakeName [Name.Lettering] (node : Node) : String := Name.snake node.name

/-- Display name in Pascal case. -/
def pascalName [Name.Lettering] (node : Node) : String := Name.pascal node.name

/-- The registry id a node stands for; an empty one does not count. -/
def reference? (node : Node) : Option String := node.declaration.reference.filter (· ≠ "")

/-- The node stands for an entry of the registry. -/
def isReference (node : Node) : Bool := node.reference?.isSome

/-- Default of a node, if it is a scalar with one. -/
def defaultValue? : Node → Option DefaultValue
  | .scalar _ facets => facets.defaultValue?
  | _ => none

/-- The node has a default. -/
def hasDefault (node : Node) : Bool := node.defaultValue?.isSome

/-- Facets of a string node. -/
def string? : Node → Option StringFacets
  | .scalar _ (.string facets) => some facets
  | _ => none

/-- The node is a string that is stored by key. -/
def isEncrypted (node : Node) : Bool := node.string?.any StringFacets.isEncrypted

/-- Element of an array node. -/
def element? : Node → Option Node
  | .array _ _ element => some element
  | _ => none

/-- Children of an object node. -/
def children? : Node → Option (List Node)
  | .object _ _ children => some children
  | _ => none

/-- The node is an object. -/
def isObject (node : Node) : Bool := node.kind = .object

@[simp] theorem declaration_withDeclaration
    (declaration : Declaration)
    (node : Node) :
    (node.withDeclaration declaration).declaration = declaration := by
  cases node <;> rfl

mutual

/-- Registry ids mentioned by a node or anywhere below it, in reading order. -/
def mentions : Node → List String
  | .scalar declaration _ => (declaration.reference.filter (· ≠ "")).toList
  | .array declaration _ element =>
      (declaration.reference.filter (· ≠ "")).toList ++ mentions element
  | .object declaration _ children =>
      (declaration.reference.filter (· ≠ "")).toList ++ mentionsAll children

/-- Registry ids mentioned anywhere in a list of nodes. -/
def mentionsAll : List Node → List String
  | [] => []
  | child :: rest => mentions child ++ mentionsAll rest

end

/-- Set of the registry ids mentioned by a node or anywhere below it. -/
def referenceIds (node : Node) : Order.NameSet := .ofList node.mentions

/-- The child of a name. -/
def findChild? (name : String) (children : List Node) : Option Node :=
  children.find? fun child => child.name = name

/-- Some child has the name. -/
def hasChild (name : String) (children : List Node) : Bool :=
  children.any fun child => child.name = name

/-- First member of a group that is no child. -/
def strangeMember? (children : List Node) (members : List String) : Option String :=
  members.find? fun member => !hasChild member children

/-- First bound of a number that is not finite. -/
def strangeBound? (facets : NumberFacets Binary64) : Option (String × Binary64) :=
  let bounds := [("default", facets.defaultValue), ("min", facets.min), ("max", facets.max)]
  let named := bounds.filterMap fun (bound, value) => value.map fun value => (bound, value)
  (named ++ facets.values.map fun value => ("value", value)).find? fun (_, value) =>
    !value.isFinite

mutual

/-- Checks the groups of every object and the bounds of every number of a tree. -/
def validate (path : FieldPath) : Node → Except SchemaError Unit
  | .scalar _ (.float facets) =>
      match strangeBound? facets with
      | some (bound, value) => .error (.nonFiniteNumber path bound value)
      | none => .ok ()
  | .scalar _ _ => .ok ()
  | .array _ _ element => validate path element
  | .object _ facets children =>
      match strangeMember? children facets.groups.flatten with
      | some member => .error (.unknownGroupMember path member)
      | none => validateAll path children

/-- Checks every child of an object. -/
def validateAll (path : FieldPath) : List Node → Except SchemaError Unit
  | [] => .ok ()
  | child :: rest => do
      validate (path.child child.name) child
      validateAll path rest

end

end Node
end Schema
end SchemaCompiler
