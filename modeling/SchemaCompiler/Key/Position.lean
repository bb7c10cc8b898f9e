import SchemaCompiler.Schema.Node

/-!
# Positions in a walk

A `Position` is a node met by a walk together with every node that encloses it.
Each is kept twice: as declared, for its name and flags, and as the canonical node
it resolves to, for its structure.
-/

namespace SchemaCompiler
namespace Key

open SchemaCompiler.Schema

/-- A node as declared and as resolved. -/
structure Place where
  node : Node
  canonical : Node
deriving Repr, Inhabited

/-- A place with the places around it, the nearest first. -/
structure Position where
  place : Place
  enclosing : List Place
deriving Repr, Inhabited

namespace Position

/-- The start of a walk. -/
def root (node canonical : Node) : Position := ⟨⟨node, canonical⟩, []⟩

/-- The position of a node inside another. -/
def child (position : Position) (node canonical : Node) : Position :=
  ⟨⟨node, canonical⟩, position.place :: position.enclosing⟩

/-- The node as declared. -/
def node (position : Position) : Node := position.place.node

/-- The node as resolved. -/
def canonical (position : Position) : Node := position.place.canonical

/-- The position around a position. -/
def parent? (position : Position) : Option Position :=
  match position.enclosing with
  | [] => none
  | place :: enclosing => some ⟨place, enclosing⟩

/-- The position `depth` levels above that encloses a position; the parent is one
level above. -/
def ancestor? (position : Position) (depth : Nat) : Option Position :=
  match depth, position.enclosing.drop (depth - 1) with
  | 0, _ => some position
  | _, [] => none
  | _, place :: enclosing => some ⟨place, enclosing⟩

/-- The nearest name upward that is not empty. -/
def nameFrom (place : Place) : List Place → String
  | [] => place.node.name
  | parent :: enclosing =>
      if place.node.name = "" then nameFrom parent enclosing else place.node.name

/-- Name of a position; a nameless element borrows the name of what holds it. -/
def internalName (position : Position) : String := nameFrom position.place position.enclosing

/-- Names from a place up to the start of the walk, which itself gives none. -/
def namesUpward (place : Place) : List Place → List String
  | [] => []
  | parent :: enclosing =>
      if place.node.name = "" then namesUpward parent enclosing
      else place.node.name :: namesUpward parent enclosing

/-- Names on the way from the start of the walk to a position. -/
def path (position : Position) : FieldPath :=
  ⟨(namesUpward position.place position.enclosing).reverse⟩

end Position
end Key
end SchemaCompiler
