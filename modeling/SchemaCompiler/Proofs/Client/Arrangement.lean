import SchemaCompiler.Proofs.Client.Assembly
import SchemaCompiler.Proofs.Key.Arrangement
import SchemaCompiler.Proofs.Resource.CheckedConversion

/-!
# Clients of arranged trees

The conversion to a client goes through children by display name, so an arranged registry and
arranged nodes give the same structs, in the same order and with the same dependencies.
-/

namespace SchemaCompiler
namespace Client

open SchemaCompiler.Key (Place Position)
open SchemaCompiler.Outcome
open SchemaCompiler.Resource (within)
open SchemaCompiler.Schema

/-- A node is expanded into what it resolves to, unless it is in expansion already. -/
theorem map_expand
    (registry : Registry)
    (stack : List String)
    (path : FieldPath)
    (node : Node) :
    ((registry.expand stack path node).map fun opened => (opened.canonical, opened.inside)) = (do
      let canonical ← registry.resolveAt path node
      let inside ← within stack path node
      return (canonical, inside)) := by
  unfold Registry.expand Registry.resolveAt within
  cases node.reference? with
  | none => rfl
  | some id =>
      dsimp only
      split
      next cause failed =>
        rw [failed, error_bind]
        rfl
      next canonical resolved =>
        -- the opened node carries a proof about its target, which stays as it is
        by_cases known : id ∈ stack
        · simp [known, resolved, Except.map]
        · simp [known, resolved, Except.map]

variable [Name.Lettering]

/-- A node opens into the arranged form of what it opened into before, with the same ids in
expansion. -/
theorem expand_arranged
    (registry : Registry)
    (stack : List String)
    (path : FieldPath)
    (node : Node) :
    ((registry.arranged.expand stack path node.arranged).map fun opened =>
        (opened.canonical, opened.inside)) =
      (registry.expand stack path node).map fun opened =>
        (opened.canonical.arranged, opened.inside) := by
  have within_arranged : within stack path node.arranged = within stack path node := by
    simp [within]
  rw [map_expand, Registry.resolveAt_arranged, within_arranged]
  calc
    _ = (do
        let canonical ← registry.resolveAt path node
        let inside ← within stack path node
        return (canonical, inside)).map (Prod.map Node.arranged id) := by
      cases registry.resolveAt path node <;> cases within stack path node <;> rfl
    _ = _ := by
      rw [← map_expand]
      cases registry.expand stack path node <;> rfl

/-- The key methods of a secret do not depend on the order of children. -/
theorem keyMethods_arranged
    (registry : Registry)
    (field : String)
    (position : Position) :
    keyMethods registry.arranged field position.arranged = keyMethods registry field position := by
  simp [keyMethods]

theorem fieldKeyMethods_arranged
    (registry : Registry)
    (path : FieldPath)
    (field : String)
    (position : Position) :
    fieldKeyMethods registry.arranged path field position.arranged =
      fieldKeyMethods registry path field position := by
  unfold fieldKeyMethods
  rw [Position.canonical_arranged]
  cases canonical : position.canonical with
  | array declaration facets element =>
      rw [Node.arranged_array]
      dsimp only
      rw [Registry.resolveAt_arranged]
      cases registry.resolveAt path element with
      | error cause => rfl
      | ok inner =>
          rw [Except.map, ok_bind, ok_bind, Node.isEncrypted_arranged]
          split
          · exact keyMethods_arranged registry field (position.child element inner)
          · rfl
  | scalar declaration facets =>
      rw [Node.arranged_scalar]
      dsimp only
      rw [keyMethods_arranged]
  | object declaration facets children =>
      rw [Node.arranged_object]
      rfl

theorem fieldDocumentation_arranged (node canonical : Node) :
    fieldDocumentation node.arranged canonical.arranged = fieldDocumentation node canonical := by
  simp [fieldDocumentation]

/-- A conversion does not depend on the order of children. -/
theorem conversion_arranged (registry : Registry) (index : TypeIndex) :
    (∀ stack owner path enclosing children,
      convertFields registry.arranged index stack owner path (enclosing.map Place.arranged)
          (children.map Node.arranged) =
        convertFields registry index stack owner path enclosing children) ∧
    (∀ stack owner path enclosing node,
      convertType registry.arranged index stack owner path (enclosing.map Place.arranged)
          node.arranged =
        convertType registry index stack owner path enclosing node) ∧
    ∀ stack owner path enclosing node canonical,
      convertCanonical registry.arranged index stack owner path (enclosing.map Place.arranged)
          node.arranged canonical.arranged =
        convertCanonical registry index stack owner path enclosing node canonical := by
  apply descent_induct registry
  case nil =>
    intro stack owner path enclosing
    rw [List.map_nil, convertFields, convertFields]
  case cons =>
    intro stack owner path enclosing child rest childSame restSame
    rw [List.map_cons, convertFields, convertFields, Node.name_arranged,
      Registry.resolveAt_arranged]
    cases registry.resolveAt (path.child child.name) child with
    | error cause => rfl
    | ok canonical =>
        have methods := fieldKeyMethods_arranged registry (path.child child.name)
          (Name.fieldName child.name) ⟨⟨child, canonical⟩, enclosing⟩
        rw [Position.arranged, Place.arranged] at methods
        rw [Except.map, ok_bind, ok_bind]
        dsimp only
        rw [methods, childSame, restSame, fieldDocumentation_arranged, Key.isHeldOptional_arranged,
          Node.declaration_arranged]
  case node =>
    intro stack owner path enclosing node below
    rw [convertType, convertType]
    rcases error_or_ok_of_map_eq (expand_arranged registry stack path node) with
      ⟨cause, failedToo, failed⟩ | ⟨openedToo, opened, expandedToo, expanded, same⟩
    · rw [failed, failedToo, error_bind, error_bind]
    · obtain ⟨canonical, inside⟩ := Prod.mk.inj same
      rw [expanded, expandedToo, ok_bind, ok_bind, canonical, inside, Node.reference?_arranged,
        Node.isObject_arranged, below opened]
  case scalar =>
    intro stack owner path enclosing node declaration facets
    rw [Node.arranged_scalar, convertCanonical, convertCanonical]
  case array =>
    intro stack owner path enclosing node declaration facets element below
    rw [List.map_cons, Place.arranged, Node.arranged_array] at below
    rw [Node.arranged_array, convertCanonical, convertCanonical]
    dsimp only
    rw [below]
  case object =>
    intro stack owner path enclosing node declaration facets children below
    have named := Position.internalName_arranged
      ⟨⟨node, .object declaration facets children⟩, enclosing⟩
    rw [Position.arranged, Place.arranged, Node.arranged_object, Node.sorted_map_arranged] at named
    rw [List.map_cons, Place.arranged, Node.arranged_object, Node.sorted_map_arranged] at below
    rw [Node.arranged_object, convertCanonical, convertCanonical]
    dsimp only
    rw [Node.sorted_sorted, Node.sorted_map_arranged, named, below]

section Definitions

variable
  (registry : Registry)
  (index : TypeIndex)

theorem convertRoot_arranged
    (name : String)
    (path : FieldPath)
    (node : Node) :
    convertRoot registry.arranged index name path node.arranged =
      convertRoot registry index name path node := by
  cases node with
  | scalar declaration facets => rw [Node.arranged_scalar]; rfl
  | array declaration facets element => rw [Node.arranged_array]; rfl
  | object declaration facets children =>
      have same := (conversion_arranged registry index).1 [] name path
        [⟨.object declaration facets children, .object declaration facets children⟩]
        (Node.sorted children)
      rw [List.map_singleton, Place.arranged, Node.arranged_object,
        Node.sorted_map_arranged] at same
      rw [Node.arranged_object, convertRoot, convertRoot, Node.sorted_sorted,
        Node.sorted_map_arranged, same]

theorem convertEntry_arranged (id : String) :
    convertEntry registry.arranged index id = convertEntry registry index id := by
  unfold convertEntry
  rw [Registry.root_arranged]
  cases registry.root id with
  | error cause => rfl
  | ok root =>
      rw [Except.map, ok_bind, ok_bind]
      simp only [Node.isObject_arranged, Node.kind_arranged, Node.declaration_arranged,
        convertRoot_arranged]

theorem convertOutput_arranged
    (name : String)
    (path : FieldPath)
    (output : Node) :
    convertOutput registry.arranged index name path output.arranged =
      convertOutput registry index name path output := by
  have converted := (conversion_arranged registry index).2.1 [] name path [] output
  rw [List.map_nil] at converted
  unfold convertOutput
  rw [Registry.resolveAt_arranged]
  cases registry.resolveAt path output with
  | error cause => rfl
  | ok canonical =>
      rw [Except.map, ok_bind, ok_bind]
      simp only [Node.isObject_arranged, Node.isReference_arranged, Node.declaration_arranged,
        convertRoot_arranged, converted]

/-- The entries of an arranged registry are declared where they were. -/
theorem build_arranged (namespaces : List Namespace) :
    TypeIndex.build registry.arranged namespaces = TypeIndex.build registry namespaces := by
  have declared : ∀ id (entry : Node),
      sharedType? namespaces id entry.arranged = sharedType? namespaces id entry := by
    intro id entry
    cases entry <;> simp [sharedType?]
  simp [TypeIndex.build, Registry.arranged, Order.Table.mapValues, List.filterMap_map,
    declared]

end Definitions

end Client
end SchemaCompiler
