import SchemaCompiler.Proofs.Outcome
import SchemaCompiler.Resource.Schema

/-!
# The conversion with its expansions checked

The conversion of a resource schema follows references without a record of those it is
in. Here it keeps them on a stack and reports a reference inside its own expansion, so
it always ends. The types of list elements are a search of their own: objects end it, so
it starts with an empty stack.
-/

namespace SchemaCompiler
namespace Resource

open SchemaCompiler.Outcome
open SchemaCompiler.Schema

/-- The ids in expansion inside a node at `path`: one more if it is a reference, which
must not be in expansion already. -/
def within
    (stack : List String)
    (path : FieldPath)
    (node : Node) : Except SchemaError (List String) :=
  match node.reference? with
  | none => .ok stack
  | some id => if id ∈ stack then .error (.referenceCycle path id) else .ok (id :: stack)

/-- A step into a resolved node comes nearer to the end of the expansion. -/
theorem within_decreases
    {registry : Registry}
    {stack inside : List String}
    {path : FieldPath}
    {node canonical : Node}
    (resolved : registry.resolveAt path node = .ok canonical)
    (entered : within stack path node = .ok inside)
    {inner outer : Nat}
    (smaller : canonical = node → inner < outer) :
    Prod.Lex (· < ·) (· < ·)
      (Order.unseen registry.ids inside, inner)
      (Order.unseen registry.ids stack, outer) := by
  unfold within at entered
  unfold Registry.resolveAt at resolved
  cases named : node.reference? with
  | none =>
      rw [named] at entered resolved
      cases entered
      cases resolved
      exact Prod.Lex.right _ (smaller rfl)
  | some id =>
      rw [named] at entered resolved
      dsimp only at entered resolved
      split at entered
      · cases entered
      next outside =>
        cases entered
        exact Prod.Lex.left _ _
          (Order.unseen_cons_lt (Registry.mem_ids_of_target resolved) outside)

/-- A field that opens has its canonical node. -/
theorem resolveAt_of_openField
    [Name.Lettering]
    {registry : Registry}
    {path : FieldPath}
    {usage : FieldUsage}
    {node canonical : Node}
    {facts : AttributeFacts}
    (opened : openField registry path usage node = .ok (facts, canonical)) :
    registry.resolveAt path node = .ok canonical := by
  obtain ⟨other, resolved, rest⟩ := bind_eq_ok_iff.mp opened
  obtain ⟨exposure, _, made⟩ := bind_eq_ok_iff.mp rest
  obtain ⟨_, rfl⟩ := Prod.mk.inj (Except.ok.inj made)
  exact resolved

/-- Element type of a plain list, with the ids of `stack` in expansion. -/
def checkedElement
    (registry : Registry)
    (stack : List String)
    (path : FieldPath)
    (canonical : Node) : Except SchemaError ElementType :=
  match canonical with
  | .scalar _ facets => .ok (scalarElement facets)
  | .object .. => .ok .json
  | .array _ _ element =>
      match _resolved : registry.resolveAt path element with
      | .error cause => .error cause
      | .ok inner =>
          match _entered : within stack path element with
          | .error cause => .error cause
          | .ok inside => (checkedElement registry inside path inner).map .list
termination_by (Order.unseen registry.ids stack, canonical.size)
decreasing_by
  refine within_decreases _resolved _entered ?_
  rintro rfl
  simp

mutual

/-- The attribute of the field at `path`, with the ids of `stack` in expansion. -/
def checkedField
    [Name.Lettering]
    (registry : Registry)
    (stack : List String)
    (path : FieldPath)
    (usage : FieldUsage)
    (node : Node) : Except SchemaError Attribute :=
  match _opened : openField registry path usage node with
  | .error cause => .error cause
  | .ok (facts, canonical) =>
      match _entered : within stack path node with
      | .error cause => .error cause
      | .ok inside => checkedCanonical registry inside path usage facts canonical
termination_by (Order.unseen registry.ids stack, 3 * node.size + 1)
decreasing_by
  refine within_decreases (resolveAt_of_openField _opened) _entered ?_
  rintro rfl
  omega

/-- The attribute of a field that resolves to `canonical`. -/
def checkedCanonical
    [Name.Lettering]
    (registry : Registry)
    (stack : List String)
    (path : FieldPath)
    (usage : FieldUsage)
    (facts : AttributeFacts)
    (canonical : Node) : Except SchemaError Attribute :=
  match canonical with
  | .scalar declaration facets => .ok (scalarAttribute facts declaration facets)
  | .object _ facets children =>
      (checkedFields registry stack path facets.groups (fun _ => usage)
        (Node.sorted children)).map (.nested facts .single)
  | .array _ facets element =>
      match _resolved : registry.resolveAt path element with
      | .error cause => .error cause
      | .ok (.object _ innerFacets children) =>
          match _entered : within stack path element with
          | .error cause => .error cause
          | .ok inside =>
              (checkedFields registry inside path innerFacets.groups (fun _ => usage)
                (Node.sorted children)).map (.nested (listFacts facts facets) .list)
      | .ok inner =>
          (checkedElement registry [] path inner).map (listAttribute facts facets inner)
termination_by (Order.unseen registry.ids stack, 3 * canonical.size)
decreasing_by
  · exact Prod.Lex.right _ (by simp only [Node.sizeAll_sorted, Node.size_object]; omega)
  · refine within_decreases _resolved _entered ?_
    rintro rfl
    simp only [Node.sizeAll_sorted, Node.size_array, Node.size_object]
    omega

/-- Attributes of the children of an object at `path`. -/
def checkedFields
    [Name.Lettering]
    (registry : Registry)
    (stack : List String)
    (path : FieldPath)
    (groups : List (List String))
    (usage : String → FieldUsage)
    (children : List Node) : Except SchemaError (List Attribute) :=
  match children with
  | [] => .ok []
  | child :: rest => do
      let first ← checkedField registry stack (path.child child.name) (usage child.name) child
      let others ← checkedFields registry stack path groups usage rest
      return addGroup groups child.name first :: others
termination_by (Order.unseen registry.ids stack, 3 * Node.sizeAll children + 2)
decreasing_by
  · exact Prod.Lex.right _ (by simp only [Node.sizeAll_cons]; omega)
  · exact Prod.Lex.right _ (by simp only [Node.sizeAll_cons]; have := child.size_pos; omega)

end

section Equations

variable
  {registry : Registry}
  {stack : List String}
  {path : FieldPath}
  {usage : FieldUsage}
  {facts : AttributeFacts}
  {declaration : Declaration}

theorem checkedElement_array
    {facets : ArrayFacets}
    {element : Node} :
    checkedElement registry stack path (.array declaration facets element) = (do
      let inner ← registry.resolveAt path element
      let inside ← within stack path element
      (checkedElement registry inside path inner).map .list) := by
  rw [checkedElement]
  split
  next cause failed => rw [failed, error_bind]
  next inner resolved =>
    rw [resolved, ok_bind]
    split
    next cause failed => rw [failed, error_bind]
    next inside entered => rw [entered, ok_bind]

theorem checkedField_eq [Name.Lettering] {node : Node} :
    checkedField registry stack path usage node = (do
      let opened ← openField registry path usage node
      let inside ← within stack path node
      checkedCanonical registry inside path usage opened.1 opened.2) := by
  rw [checkedField]
  split
  next cause failed => rw [failed, error_bind]
  next facts canonical opened =>
    rw [opened, ok_bind]
    split
    next cause failed => rw [failed, error_bind]
    next inside entered => rw [entered, ok_bind]

/-- The attribute of a field is that of the facts and the canonical node that it opens into. -/
theorem checkedField_of_opened
    [Name.Lettering]
    {node canonical : Node}
    (opened : openField registry path usage node = .ok (facts, canonical)) :
    checkedField registry stack path usage node = (do
      let inside ← within stack path node
      checkedCanonical registry inside path usage facts canonical) := by
  rw [checkedField_eq, opened, ok_bind]

theorem checkedCanonical_object
    [Name.Lettering]
    {facets : ObjectFacets}
    {children : List Node} :
    checkedCanonical registry stack path usage facts (.object declaration facets children) =
      (checkedFields registry stack path facets.groups (fun _ => usage)
        (Node.sorted children)).map (.nested facts .single) := by
  rw [checkedCanonical]

theorem checkedCanonical_array_of_unresolved
    [Name.Lettering]
    {facets : ArrayFacets}
    {element : Node}
    {cause : SchemaError}
    (failed : registry.resolveAt path element = .error cause) :
    checkedCanonical registry stack path usage facts (.array declaration facets element) =
      .error cause := by
  rw [checkedCanonical]
  split
  next other failure => exact congrArg _ (Except.error.inj (failure.symm.trans failed))
  next resolved => rw [failed] at resolved; cases resolved
  next resolved => rw [failed] at resolved; cases resolved

theorem checkedCanonical_array_of_object
    [Name.Lettering]
    {facets : ArrayFacets}
    {element : Node}
    {innerDeclaration : Declaration}
    {innerFacets : ObjectFacets}
    {children : List Node}
    (resolved :
      registry.resolveAt path element = .ok (.object innerDeclaration innerFacets children)) :
    checkedCanonical registry stack path usage facts (.array declaration facets element) = (do
      let inside ← within stack path element
      (checkedFields registry inside path innerFacets.groups (fun _ => usage)
        (Node.sorted children)).map (.nested (listFacts facts facets) .list)) := by
  rw [checkedCanonical]
  split
  next other failed => rw [resolved] at failed; cases failed
  next _ otherFacets others again =>
    rw [resolved] at again
    cases again
    split
    next cause failed => rw [failed, error_bind]
    next inside entered => rw [entered, ok_bind]
  next inner other again =>
    exact absurd (Except.ok.inj (again.symm.trans resolved)) (other _ _ _)

theorem checkedCanonical_array_of_other
    [Name.Lettering]
    {facets : ArrayFacets}
    {element inner : Node}
    (resolved : registry.resolveAt path element = .ok inner)
    (other : ∀ declaration facets children, inner ≠ .object declaration facets children) :
    checkedCanonical registry stack path usage facts (.array declaration facets element) =
      (checkedElement registry [] path inner).map (listAttribute facts facets inner) := by
  rw [checkedCanonical]
  split
  next cause failed => rw [resolved] at failed; cases failed
  next again => exact absurd (Except.ok.inj (resolved.symm.trans again)) (other _ _ _)
  next same _ again =>
    obtain rfl : inner = same := Except.ok.inj (resolved.symm.trans again)
    rfl

end Equations

/-! ## Induction over the conversion -/

/-- Two ways to enter a node are one. -/
theorem forall_within_of_entered
    {stack inside : List String}
    {path : FieldPath}
    {node : Node}
    {holds : List String → Prop}
    (entered : within stack path node = .ok inside)
    (own : holds inside) :
    ∀ other, within stack path node = .ok other → holds other := by
  intro other enteredToo
  obtain rfl : inside = other := Except.ok.inj (entered.symm.trans enteredToo)
  exact own

/-- There is no way to enter a node inside itself. -/
theorem forall_within_of_blocked
    {stack : List String}
    {path : FieldPath}
    {node : Node}
    {cause : SchemaError}
    {holds : List String → Prop}
    (blocked : within stack path node = .error cause) :
    ∀ inside, within stack path node = .ok inside → holds inside := by
  intro inside entered
  rw [blocked] at entered
  cases entered

/-- The search for an element type goes on below arrays only, with the ids in expansion that the
element is entered with. -/
theorem checkedElement_induct
    (registry : Registry)
    (path : FieldPath)
    {motive : List String → Node → Prop}
    (scalar : ∀ stack declaration facets, motive stack (.scalar declaration facets))
    (object : ∀ stack declaration facets children,
      motive stack (.object declaration facets children))
    (unresolved : ∀ stack declaration facets element cause,
      registry.resolveAt path element = .error cause →
      motive stack (.array declaration facets element))
    (array : ∀ stack declaration facets element inner,
      registry.resolveAt path element = .ok inner →
      (∀ inside, within stack path element = .ok inside → motive inside inner) →
      motive stack (.array declaration facets element))
    (stack : List String)
    (canonical : Node) :
    motive stack canonical :=
  checkedElement.induct registry path motive scalar object unresolved
    (fun _ _ _ _ _ resolved _ blocked =>
      array _ _ _ _ _ resolved (forall_within_of_blocked blocked))
    (fun _ _ _ _ _ resolved _ entered own =>
      array _ _ _ _ _ resolved (forall_within_of_entered entered own)) stack canonical

/-- A checked conversion goes from a field that opens to its canonical node, and from there to the
fields of an object or of the objects in a list. -/
theorem checked_induct
    [Name.Lettering]
    (registry : Registry)
    {OfField : List String → FieldPath → FieldUsage → Node → Prop}
    {OfCanonical : List String → FieldPath → FieldUsage → AttributeFacts → Node → Prop}
    {OfFields : List String → FieldPath → List (List String) → (String → FieldUsage) →
      List Node → Prop}
    (unopened : ∀ stack path usage node cause,
      openField registry path usage node = .error cause → OfField stack path usage node)
    (opened : ∀ stack path usage node facts canonical,
      openField registry path usage node = .ok (facts, canonical) →
      (∀ inside, within stack path node = .ok inside →
        OfCanonical inside path usage facts canonical) →
      OfField stack path usage node)
    (scalar : ∀ stack path usage facts declaration facets,
      OfCanonical stack path usage facts (.scalar declaration facets))
    (object : ∀ stack path usage facts declaration facets children,
      OfFields stack path facets.groups (fun _ => usage) (Node.sorted children) →
      OfCanonical stack path usage facts (.object declaration facets children))
    (unresolved : ∀ stack path usage facts declaration facets element cause,
      registry.resolveAt path element = .error cause →
      OfCanonical stack path usage facts (.array declaration facets element))
    (listOfObjects : ∀ stack path usage facts declaration facets element innerDeclaration
        innerFacets children,
      registry.resolveAt path element = .ok (.object innerDeclaration innerFacets children) →
      (∀ inside, within stack path element = .ok inside →
        OfFields inside path innerFacets.groups (fun _ => usage) (Node.sorted children)) →
      OfCanonical stack path usage facts (.array declaration facets element))
    (list : ∀ stack path usage facts declaration facets element inner,
      registry.resolveAt path element = .ok inner →
      (∀ innerDeclaration innerFacets children,
        inner ≠ .object innerDeclaration innerFacets children) →
      OfCanonical stack path usage facts (.array declaration facets element))
    (nil : ∀ stack path groups usage, OfFields stack path groups usage [])
    (cons : ∀ stack path groups usage child rest,
      OfField stack (path.child child.name) (usage child.name) child →
      OfFields stack path groups usage rest →
      OfFields stack path groups usage (child :: rest)) :
    (∀ stack path usage node, OfField stack path usage node) ∧
    (∀ stack path usage facts canonical, OfCanonical stack path usage facts canonical) ∧
    ∀ stack path groups usage children, OfFields stack path groups usage children :=
  checkedField.mutual_induct registry OfField OfCanonical OfFields unopened
    (fun _ _ _ _ _ _ opens _ blocked =>
      opened _ _ _ _ _ _ opens (forall_within_of_blocked blocked))
    (fun _ _ _ _ _ _ opens _ entered own =>
      opened _ _ _ _ _ _ opens (forall_within_of_entered entered own))
    scalar object unresolved
    (fun _ _ _ _ _ _ _ _ _ _ resolved _ blocked =>
      listOfObjects _ _ _ _ _ _ _ _ _ _ resolved (forall_within_of_blocked blocked))
    (fun _ _ _ _ _ _ _ _ _ _ resolved _ entered own =>
      listOfObjects _ _ _ _ _ _ _ _ _ _ resolved (forall_within_of_entered entered own))
    (fun _ _ _ _ _ _ _ _ other resolved => list _ _ _ _ _ _ _ _ resolved other) nil cons

end Resource
end SchemaCompiler
