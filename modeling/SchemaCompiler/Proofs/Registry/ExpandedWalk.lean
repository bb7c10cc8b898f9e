import SchemaCompiler.Proofs.Outcome
import SchemaCompiler.Registry.Walk

/-!
# Walks that expand references

What a walk in expanded mode does at one place: a node without reference is left as
it is, and a reference fails to resolve, is inside itself, or opens into its entry; in
closed mode it stays as it is. Properties of the expanding walk are proved by induction
over these cases.
-/

namespace SchemaCompiler
namespace Schema
namespace Registry

variable
  [Name.Lettering]
  {registry : Registry}
  {stack : List String}
  {path : FieldPath}
  {depth : Nat}
  {node canonical : Node}
  {id : String}

/-- A node without reference is its own canonical node. -/
theorem visit_of_plain
    {mode : ReferenceMode}
    (plain : node.reference? = none) :
    registry.visit mode stack path depth node = do
      let below ← registry.descend mode stack path depth node
      return ⟨path, node, node, depth, false⟩ :: below := by
  rw [visit]
  split
  · rfl
  next found => rw [plain] at found; cases found

/-- A reference without canonical node ends the walk. -/
theorem visit_of_unresolved
    {mode : ReferenceMode}
    {cause : SchemaError}
    (named : node.reference? = some id)
    (failed : registry.target path node id = .error cause) :
    registry.visit mode stack path depth node = .error cause := by
  rw [visit]
  split
  next found => rw [named] at found; cases found
  next other found =>
    obtain rfl : id = other := Option.some.inj (named.symm.trans found)
    split
    next other failure =>
      obtain rfl : cause = other := Except.error.inj (failed.symm.trans failure)
      rfl
    next canonical resolved => rw [failed] at resolved; cases resolved

/-- A reference inside its own expansion ends the walk. -/
theorem visit_of_inside
    (named : node.reference? = some id)
    (resolved : registry.target path node id = .ok canonical)
    (inside : id ∈ stack) :
    registry.visit .expanded stack path depth node = .error (.referenceCycle path id) := by
  rw [visit]
  split
  next found => rw [named] at found; cases found
  next other found =>
    obtain rfl : id = other := Option.some.inj (named.symm.trans found)
    split
    next cause failed => rw [resolved] at failed; cases failed
    next => exact dif_pos inside

/-- A reference outside its own expansion opens into its canonical node. -/
theorem visit_of_opened
    (named : node.reference? = some id)
    (resolved : registry.target path node id = .ok canonical)
    (outside : id ∉ stack) :
    registry.visit .expanded stack path depth node = do
      let below ← registry.descend .expanded (id :: stack) path depth canonical
      return ⟨path, node, canonical, depth, false⟩ :: below := by
  rw [visit]
  split
  next found => rw [named] at found; cases found
  next other found =>
    obtain rfl : id = other := Option.some.inj (named.symm.trans found)
    split
    next cause failed => rw [resolved] at failed; cases failed
    next other opened =>
      obtain rfl : canonical = other := Except.ok.inj (resolved.symm.trans opened)
      exact dif_neg outside

/-- A reference that resolves is one place of a walk that leaves it closed. -/
theorem visit_of_closed
    (named : node.reference? = some id)
    (resolved : registry.target path node id = .ok canonical) :
    registry.visit .closed stack path depth node = .ok [⟨path, node, canonical, depth, true⟩] := by
  rw [visit]
  split
  next found => rw [named] at found; cases found
  next other found =>
    obtain rfl : id = other := Option.some.inj (named.symm.trans found)
    split
    next cause failed => rw [resolved] at failed; cases failed
    next other opened =>
      obtain rfl : canonical = other := Except.ok.inj (resolved.symm.trans opened)
      rfl

@[simp] theorem descend_scalar
    {mode : ReferenceMode}
    {declaration : Declaration}
    {facets : Scalar} :
    registry.descend mode stack path depth (.scalar declaration facets) = .ok [] := by
  rw [descend]

@[simp] theorem descend_array
    {mode : ReferenceMode}
    {declaration : Declaration}
    {facets : ArrayFacets}
    {element : Node} :
    registry.descend mode stack path depth (.array declaration facets element) =
      registry.visit mode stack path (depth + 1) element := by
  rw [descend]

@[simp] theorem descend_object
    {mode : ReferenceMode}
    {declaration : Declaration}
    {facets : ObjectFacets}
    {children : List Node} :
    registry.descend mode stack path depth (.object declaration facets children) =
      registry.visitAll mode stack path (depth + 1) (Node.sorted children) := by
  rw [descend]

@[simp] theorem visitAll_nil {mode : ReferenceMode} :
    registry.visitAll mode stack path depth [] = .ok [] := by
  rw [visitAll]

@[simp] theorem visitAll_cons
    {mode : ReferenceMode}
    {child : Node}
    {rest : List Node} :
    registry.visitAll mode stack path depth (child :: rest) = do
      let first ← registry.visit mode stack (path.child child.name) depth child
      let others ← registry.visitAll mode stack path depth rest
      return first ++ others := by
  rw [visitAll]

/-- Properties of a walk in expanded mode by induction: those of a visit follow from
those of what is below its canonical node, and these from those of its parts. -/
theorem expanded_induct
    (registry : Registry)
    {AtNode Below : List String → FieldPath → Nat → Node → Prop}
    (AtChildren : List String → FieldPath → Nat → List Node → Prop)
    (plain : ∀ stack path depth node,
      node.reference? = none →
      Below stack path depth node →
      AtNode stack path depth node)
    (unresolved : ∀ stack path depth node id cause,
      node.reference? = some id →
      registry.target path node id = .error cause →
      AtNode stack path depth node)
    (inside : ∀ stack path depth node id canonical,
      node.reference? = some id →
      registry.target path node id = .ok canonical →
      id ∈ stack →
      AtNode stack path depth node)
    (opened : ∀ stack path depth node id canonical,
      node.reference? = some id →
      registry.target path node id = .ok canonical →
      id ∉ stack →
      Below (id :: stack) path depth canonical →
      AtNode stack path depth node)
    (scalar : ∀ stack path depth declaration facets,
      Below stack path depth (.scalar declaration facets))
    (array : ∀ stack path depth declaration facets element,
      AtNode stack path (depth + 1) element →
      Below stack path depth (.array declaration facets element))
    (object : ∀ stack path depth declaration facets children,
      AtChildren stack path (depth + 1) (Node.sorted children) →
      Below stack path depth (.object declaration facets children))
    (nil : ∀ stack path depth, AtChildren stack path depth [])
    (cons : ∀ stack path depth child rest,
      AtNode stack (path.child child.name) depth child →
      AtChildren stack path depth rest →
      AtChildren stack path depth (child :: rest)) :
    (∀ stack path depth node, AtNode stack path depth node) ∧
      ∀ stack path depth node, Below stack path depth node := by
  have cases := visit.mutual_induct registry
    (fun mode stack path depth node => mode = .expanded → AtNode stack path depth node)
    (fun mode stack path depth node => mode = .expanded → Below stack path depth node)
    (fun mode stack path depth children =>
      mode = .expanded → AtChildren stack path depth children)
    (fun mode stack path depth node unnamed hypothesis expanded =>
      plain stack path depth node unnamed (hypothesis expanded))
    (fun mode stack path depth node id named cause failed expanded =>
      unresolved stack path depth node id cause named failed)
    (fun stack path depth node id named canonical resolved expanded => by cases expanded)
    (fun stack path depth node id named canonical resolved known expanded =>
      inside stack path depth node id canonical named resolved known)
    (fun stack path depth node id named canonical resolved fresh hypothesis expanded =>
      opened stack path depth node id canonical named resolved fresh (hypothesis expanded))
    (fun mode stack path depth declaration facets expanded =>
      scalar stack path depth declaration facets)
    (fun mode stack path depth declaration facets element hypothesis expanded =>
      array stack path depth declaration facets element (hypothesis expanded))
    (fun mode stack path depth declaration facets children hypothesis expanded =>
      object stack path depth declaration facets children (hypothesis expanded))
    (fun mode stack path depth expanded => nil stack path depth)
    (fun mode stack path depth child rest first others expanded =>
      cons stack path depth child rest (first expanded) (others expanded))
  exact ⟨fun stack path depth node => cases.1 _ stack path depth node rfl,
    fun stack path depth node => cases.2.1 _ stack path depth node rfl⟩

end Registry
end Schema
end SchemaCompiler
