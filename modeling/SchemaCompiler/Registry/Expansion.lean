import SchemaCompiler.Registry.Walk

/-!
# Expansions

A conversion that replaces references by what they stand for keeps the ids in
expansion on a stack. `expand` opens one more node; an id that is on the stack
already cannot be opened again, so every chain of expansions ends.
-/

namespace SchemaCompiler
namespace Schema
namespace Registry

/-- A node opened into its canonical node. -/
structure Opened (registry : Registry) (stack : List String) (node : Node) where
  canonical : Node
  inside : List String
  /-- The stack has a new id, or nothing changed. -/
  grown :
    Order.unseen registry.ids inside < Order.unseen registry.ids stack ∨
      inside = stack ∧ canonical = node

/-- Canonical node of the node at `path`, with its id on the stack if it is a
reference. -/
def expand
    (registry : Registry)
    (stack : List String)
    (path : FieldPath)
    (node : Node) : Except SchemaError (Opened registry stack node) :=
  match node.reference? with
  | none => .ok ⟨node, stack, .inr ⟨rfl, rfl⟩⟩
  | some id =>
      match resolved : registry.target path node id with
      | .error cause => .error cause
      | .ok canonical =>
          if known : id ∈ stack then .error (.referenceCycle path id)
          else
            .ok ⟨canonical, id :: stack,
              .inl (Order.unseen_cons_lt (mem_ids_of_target resolved) known)⟩

namespace Opened

/-- A step into an opened node comes nearer to the end of the expansion. -/
theorem decreases
    {registry : Registry}
    {stack : List String}
    {node : Node}
    (opened : Opened registry stack node)
    {inner outer : Nat}
    (smaller : opened.canonical = node → inner < outer) :
    Prod.Lex (· < ·) (· < ·)
      (Order.unseen registry.ids opened.inside, inner)
      (Order.unseen registry.ids stack, outer) := by
  rcases opened.grown with fewer | ⟨sameStack, sameNode⟩
  · exact Prod.Lex.left _ _ fewer
  · rw [sameStack]
    exact Prod.Lex.right _ (smaller sameNode)

end Opened

end Registry
end Schema
end SchemaCompiler
