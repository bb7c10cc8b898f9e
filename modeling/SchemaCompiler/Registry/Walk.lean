import SchemaCompiler.Order.Unseen
import SchemaCompiler.Registry.Basic

/-!
# Walking a tree

`collect` lists a tree in pre-order with children by display name. The top node
always opens into its canonical node. Below it, references either stay closed or
are expanded into the entries they stand for; an expansion inside itself is an
error. Every expansion puts an id of the registry on a stack of distinct ids, so
the walk ends for every registry.
-/

namespace SchemaCompiler
namespace Schema

namespace Node

mutual

/-- Number of nodes in a tree. -/
def size : Node → Nat
  | .scalar _ _ => 1
  | .array _ _ element => size element + 1
  | .object _ _ children => sizeAll children + 1

/-- Number of nodes in a list of trees. -/
def sizeAll : List Node → Nat
  | [] => 0
  | child :: rest => size child + sizeAll rest

end

@[simp] theorem size_scalar
    (declaration : Declaration)
    (facets : Scalar) :
    (scalar declaration facets).size = 1 := by
  simp [size]

@[simp] theorem size_array
    (declaration : Declaration)
    (facets : ArrayFacets)
    (element : Node) :
    (array declaration facets element).size = element.size + 1 := by
  simp [size]

@[simp] theorem size_object
    (declaration : Declaration)
    (facets : ObjectFacets)
    (children : List Node) :
    (object declaration facets children).size = sizeAll children + 1 := by
  simp [size]

@[simp] theorem sizeAll_cons
    (child : Node)
    (rest : List Node) :
    sizeAll (child :: rest) = child.size + sizeAll rest := by
  simp [sizeAll]

/-- A tree has at least one node. -/
theorem size_pos (node : Node) : 0 < node.size := by
  cases node <;> simp

/-- The number of nodes in a list of trees does not depend on their order. -/
theorem sizeAll_perm
    {left right : List Node}
    (same : left.Perm right) :
    sizeAll left = sizeAll right := by
  induction same with
  | nil => rfl
  | cons child _ hypothesis => simp [hypothesis]
  | swap first second rest => simp only [sizeAll_cons]; omega
  | trans _ _ firstHypothesis secondHypothesis => exact firstHypothesis.trans secondHypothesis

variable [Name.Lettering]

/-- Children by display name. -/
def sorted (children : List Node) : List Node := children.mergeSort Object.displayOrder

@[simp] theorem sizeAll_sorted (children : List Node) :
    sizeAll (sorted children) = sizeAll children :=
  sizeAll_perm (List.mergeSort_perm children Object.displayOrder)

end Node

/-- How a walk treats references below the top node. -/
inductive ReferenceMode where
  /-- A reference is one entry and not descended into. -/
  | closed
  /-- A reference is replaced by the fields of its canonical node. -/
  | expanded
deriving Repr, DecidableEq, Inhabited

/-- One place met by a walk. -/
structure Visit where
  path : FieldPath
  node : Node
  canonical : Node
  depth : Nat
  isClosed : Bool
deriving Repr, Inhabited

namespace Registry

variable [Name.Lettering]

mutual

/-- Places of the tree at `path`, its own first, with the ids of `stack` in
expansion. -/
def visit
    (registry : Registry)
    (mode : ReferenceMode)
    (stack : List String)
    (path : FieldPath)
    (depth : Nat)
    (node : Node) : Except SchemaError (List Visit) :=
  match node.reference? with
  | none => do
      let below ← descend registry mode stack path depth node
      return ⟨path, node, node, depth, false⟩ :: below
  | some id =>
      match _resolved : registry.target path node id with
      | .error cause => .error cause
      | .ok canonical =>
          match mode with
          | .closed => .ok [⟨path, node, canonical, depth, true⟩]
          | .expanded =>
              if _inside : id ∈ stack then .error (.referenceCycle path id)
              else do
                let below ← descend registry .expanded (id :: stack) path depth canonical
                return ⟨path, node, canonical, depth, false⟩ :: below
termination_by (Order.unseen registry.ids stack, 3 * node.size + 1)
decreasing_by
  · exact Prod.Lex.right _ (by omega)
  · exact Prod.Lex.left _ _ (Order.unseen_cons_lt (mem_ids_of_target _resolved) _inside)

/-- Places below the canonical node at `path`. -/
def descend
    (registry : Registry)
    (mode : ReferenceMode)
    (stack : List String)
    (path : FieldPath)
    (depth : Nat)
    (canonical : Node) : Except SchemaError (List Visit) :=
  match canonical with
  | .scalar _ _ => .ok []
  | .array _ _ element => visit registry mode stack path (depth + 1) element
  | .object _ _ children => visitAll registry mode stack path (depth + 1) (Node.sorted children)
termination_by (Order.unseen registry.ids stack, 3 * canonical.size)
decreasing_by
  · exact Prod.Lex.right _ (by simp only [Node.size_array]; omega)
  · exact Prod.Lex.right _ (by simp only [Node.sizeAll_sorted, Node.size_object]; omega)

/-- Places of the trees of children under `path`. -/
def visitAll
    (registry : Registry)
    (mode : ReferenceMode)
    (stack : List String)
    (path : FieldPath)
    (depth : Nat)
    (children : List Node) : Except SchemaError (List Visit) :=
  match children with
  | [] => .ok []
  | child :: rest => do
      let first ← visit registry mode stack (path.child child.name) depth child
      let others ← visitAll registry mode stack path depth rest
      return first ++ others
termination_by (Order.unseen registry.ids stack, 3 * Node.sizeAll children + 2)
decreasing_by
  · exact Prod.Lex.right _ (by simp only [Node.sizeAll_cons]; omega)
  · exact Prod.Lex.right _ (by simp only [Node.sizeAll_cons]; have := child.size_pos; omega)

end

/-- Every place of a tree in pre-order. -/
def collect
    (registry : Registry)
    (mode : ReferenceMode)
    (root : Node) : Except SchemaError (List Visit) := do
  let canonical ← registry.resolveAt FieldPath.root root
  let below ← registry.descend mode root.reference?.toList FieldPath.root 0 canonical
  return ⟨FieldPath.root, root, canonical, 0, false⟩ :: below

/-- Ids that a declaration of the tree refers to by name. -/
def dependencies (registry : Registry) (root : Node) : Except SchemaError Order.NameSet := do
  let visits ← registry.collect .closed root
  let closed := visits.filter fun visit => visit.isClosed
  return .ofList (closed.filterMap fun visit => visit.node.reference?)

end Registry
end Schema
end SchemaCompiler
