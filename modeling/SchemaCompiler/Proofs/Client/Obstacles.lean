import SchemaCompiler.Proofs.Client.KeyMethods
import SchemaCompiler.Proofs.Registry.Inlining

/-!
# What stops a client conversion

A client conversion writes out what references stand for, except objects. It stops at a
secret whose key cannot be derived, at a reference that does not resolve, and at one inside
itself. References that it does not write out never stop it: an id inside itself leads back
to itself through entries that are no objects. Where the conversion of a tree comes through,
no such id can be reached from the tree.
-/

namespace SchemaCompiler
namespace Schema

/-- The error says why the place of a secret has no storage key. -/
def SchemaError.isAboutKey : SchemaError → Bool
  | .invalidAncestorDepth _
  | .ancestorDepthExceeded _ _
  | .parentNotObject _ _
  | .siblingNotFound _ _
  | .siblingNotString _ _ _ => true
  | _ => false

end Schema

namespace Client

open SchemaCompiler.Key (Form Place Position)
open SchemaCompiler.Outcome
open SchemaCompiler.Schema
open Relation

/-! ## Types of nodes -/

section Types

variable
  {registry : Registry}
  {index : TypeIndex}
  {stack : List String}
  {owner : String}
  {path : FieldPath}
  {enclosing : List Place}
  {node canonical : Node}
  {id : String}

/-- A node without canonical node is not expanded. -/
theorem expand_of_unresolved
    {cause : SchemaError}
    (failed : registry.resolveAt path node = .error cause) :
    registry.expand stack path node = .error cause := by
  unfold Registry.resolveAt at failed
  unfold Registry.expand
  cases named : node.reference? with
  | none =>
      rw [named] at failed
      cases failed
  | some id =>
      rw [named] at failed
      dsimp only at failed ⊢
      split
      next reason failure => exact congrArg _ (Except.error.inj (failure.symm.trans failed))
      next resolved => cases resolved.symm.trans failed

/-- A reference inside itself is not expanded. -/
theorem expand_of_inside
    (named : node.reference? = some id)
    (resolved : registry.target path node id = .ok canonical)
    (inside : id ∈ stack) :
    registry.expand stack path node = .error (.referenceCycle path id) := by
  unfold Registry.expand
  split
  next plain => rw [named] at plain; cases plain
  next other found =>
    obtain rfl : id = other := Option.some.inj (named.symm.trans found)
    split
    next failed => rw [resolved] at failed; cases failed
    next => exact dif_pos inside

/-- Any other reference is expanded into its canonical node. -/
theorem expand_of_outside
    (named : node.reference? = some id)
    (resolved : registry.target path node id = .ok canonical)
    (outside : id ∉ stack) :
    ∃ opened : registry.Opened stack node,
      registry.expand stack path node = .ok opened ∧
        opened.canonical = canonical ∧ opened.inside = id :: stack := by
  unfold Registry.expand
  split
  next plain => rw [named] at plain; cases plain
  next other found =>
    obtain rfl : id = other := Option.some.inj (named.symm.trans found)
    split
    next failed => rw [resolved] at failed; cases failed
    next entry found =>
      obtain rfl : canonical = entry := Except.ok.inj (resolved.symm.trans found)
      exact ⟨_, dif_neg outside, rfl, rfl⟩

/-- A node without canonical node has no type. -/
theorem convertType_of_unresolved
    [Name.Lettering]
    {cause : SchemaError}
    (failed : registry.resolveAt path node = .error cause) :
    convertType registry index stack owner path enclosing node = .error cause := by
  rw [convertType, expand_of_unresolved failed, error_bind]

/-- A reference inside itself has no type. -/
theorem convertType_of_inside
    [Name.Lettering]
    (named : node.reference? = some id)
    (resolved : registry.target path node id = .ok canonical)
    (inside : id ∈ stack) :
    convertType registry index stack owner path enclosing node =
      .error (.referenceCycle path id) := by
  rw [convertType, expand_of_inside named resolved inside, error_bind]

/-- A reference to an object has the class of the object. -/
theorem convertType_of_object
    [Name.Lettering]
    (named : node.reference? = some id)
    (resolved : registry.target path node id = .ok canonical)
    (outside : id ∉ stack)
    (isObject : canonical.isObject = true) :
    convertType registry index stack owner path enclosing node =
      .ok (.named (index.classOf id), { dependencies := [id] }) := by
  obtain ⟨opened, expanded, rfl, -⟩ := expand_of_outside named resolved outside
  rw [convertType, expanded, ok_bind, named, isObject]
  rfl

/-- A reference to any other entry has the type of the entry. -/
theorem convertType_of_inlined
    [Name.Lettering]
    (named : node.reference? = some id)
    (resolved : registry.target path node id = .ok canonical)
    (outside : id ∉ stack)
    (plain : canonical.isObject = false) :
    convertType registry index stack owner path enclosing node =
      convertCanonical registry index (id :: stack) owner path enclosing node canonical := by
  obtain ⟨opened, expanded, rfl, inside⟩ := expand_of_outside named resolved outside
  rw [convertType, expanded, ok_bind, named, plain, inside]

end Types

/-- A conversion of a tree with the ways in which a node is opened: it is no reference, or it is
one that does not resolve, that is inside itself, that stays closed, or that is written out. -/
theorem expansion_induct
    [Name.Lettering]
    (registry : Registry)
    {OfFields : List String → String → FieldPath → List Place → List Node → Prop}
    {OfType : List String → String → FieldPath → List Place → Node → Prop}
    {OfCanonical : List String → String → FieldPath → List Place → Node → Node → Prop}
    (nil : ∀ stack owner path enclosing, OfFields stack owner path enclosing [])
    (cons : ∀ stack owner path enclosing child rest,
      OfType stack owner (path.child child.name) enclosing child →
      OfFields stack owner path enclosing rest →
      OfFields stack owner path enclosing (child :: rest))
    (plain : ∀ stack owner path enclosing node,
      node.reference? = none →
      OfCanonical stack owner path enclosing node node →
      OfType stack owner path enclosing node)
    (unresolved : ∀ stack owner path enclosing node id cause,
      node.reference? = some id →
      registry.resolveAt path node = .error cause →
      OfType stack owner path enclosing node)
    (inside : ∀ stack owner path enclosing node id canonical,
      node.reference? = some id →
      registry.target path node id = .ok canonical →
      id ∈ stack →
      OfType stack owner path enclosing node)
    (closed : ∀ stack owner path enclosing node id canonical,
      node.reference? = some id →
      registry.target path node id = .ok canonical →
      id ∉ stack →
      canonical.isObject = true →
      OfType stack owner path enclosing node)
    (inlined : ∀ stack owner path enclosing node id canonical,
      node.reference? = some id →
      registry.target path node id = .ok canonical →
      id ∉ stack →
      canonical.isObject = false →
      OfCanonical (id :: stack) owner path enclosing node canonical →
      OfType stack owner path enclosing node)
    (scalar : ∀ stack owner path enclosing node declaration facets,
      OfCanonical stack owner path enclosing node (.scalar declaration facets))
    (array : ∀ stack owner path enclosing node declaration facets element,
      OfType stack owner path (⟨node, .array declaration facets element⟩ :: enclosing) element →
      OfCanonical stack owner path enclosing node (.array declaration facets element))
    (object : ∀ stack owner path enclosing node declaration facets children,
      OfFields stack
        (nestedName owner
          (Position.mk ⟨node, .object declaration facets children⟩ enclosing).internalName)
        path (⟨node, .object declaration facets children⟩ :: enclosing) (Node.sorted children) →
      OfCanonical stack owner path enclosing node (.object declaration facets children)) :
    (∀ stack owner path enclosing children, OfFields stack owner path enclosing children) ∧
    (∀ stack owner path enclosing node, OfType stack owner path enclosing node) ∧
    ∀ stack owner path enclosing node canonical,
      OfCanonical stack owner path enclosing node canonical := by
  refine descent_induct registry nil cons ?node scalar array object
  case node =>
    intro stack owner path enclosing node below
    cases named : node.reference? with
    | none => exact plain _ _ _ _ _ named (below ⟨node, stack, .inr ⟨rfl, rfl⟩⟩)
    | some id =>
        cases resolved : registry.target path node id with
        | error cause =>
            refine unresolved _ _ _ _ _ id cause named ?_
            rw [Registry.resolveAt, named]
            exact resolved
        | ok canonical =>
            by_cases member : id ∈ stack
            · exact inside _ _ _ _ _ _ _ named resolved member
            · cases isObject : canonical.isObject with
              | true => exact closed _ _ _ _ _ _ _ named resolved member isObject
              | false =>
                  obtain ⟨opened, -, rfl, grown⟩ := expand_of_outside named resolved member
                  exact inlined _ _ _ _ _ _ _ named resolved member isObject
                    (grown ▸ below opened)

/-! ## Keys that cannot be derived -/

section Keys

variable
  {registry : Registry}
  {place : Place}
  {enclosing : List Place}
  {cause : SchemaError}

/-- The reason is about the key, or a sibling does not resolve. -/
def KeyFails
    (registry : Registry)
    (enclosing : List Place)
    (cause : SchemaError) : Prop :=
  cause.isAboutKey = true ∨
    ∃ sibling ∈ siblings enclosing, ∃ path, registry.resolveAt path sibling = .error cause

theorem keyFails_of_siblingKey
    {form : Form}
    {name : String}
    (failed : Key.siblingKey registry ⟨place, enclosing⟩ form name = .error cause) :
    KeyFails registry enclosing cause := by
  unfold Key.siblingKey at failed
  cases enclosing with
  | nil =>
      cases failed
      exact .inl rfl
  | cons outer others =>
      dsimp only [Position.parent?, Position.canonical] at failed
      split at failed
      · cases failed
        exact .inl rfl
      next object around =>
        split at failed
        · cases failed
          exact .inl rfl
        next sibling found =>
          split at failed
          · cases failed
            exact .inl rfl
          · rcases bind_eq_error_iff.mp failed with unresolved | ⟨canonical, -, impossible⟩
            · have member : sibling ∈ object.children := List.mem_of_find?_eq_some found
              exact .inr ⟨sibling, by simpa [siblings, around] using member, _, unresolved⟩
            · cases impossible

/-- A secret is never reported as none: only its key can be at fault. -/
theorem keyFails_of_derive
    {form : Form}
    (secret : place.canonical.isEncrypted = true)
    (failed : Key.derive registry ⟨place, enclosing⟩ form = .error cause) :
    KeyFails registry enclosing cause := by
  unfold Node.isEncrypted at secret
  unfold Key.derive at failed
  rw [Position.canonical] at failed
  cases isString : place.canonical.string? with
  | none =>
      rw [isString] at secret
      cases secret
  | some facets =>
      rw [isString, Option.any_some, StringFacets.isEncrypted, HashProfile.isPlaintext] at secret
      rw [isString, Option.map_some] at failed
      cases policy : facets.hashing with
      | plaintext => simp [policy] at secret
      | solo =>
          rw [policy] at failed
          cases failed
      | withAncestor depth =>
          rw [policy] at failed
          dsimp only [Key.ancestorKey] at failed
          split at failed
          · cases failed
            exact .inl rfl
          split at failed
          · cases failed
            exact .inl rfl
          · cases failed
      | withSibling name =>
          rw [policy] at failed
          exact keyFails_of_siblingKey failed

theorem keyFails_of_keyMethods
    {field : String}
    (secret : place.canonical.isEncrypted = true)
    (failed : keyMethods registry field ⟨place, enclosing⟩ = .error cause) :
    KeyFails registry enclosing cause := by
  simp only [keyMethods, Form.all, List.mapM_cons, List.mapM_nil, bind_assoc, pure_bind] at failed
  rcases bind_eq_error_iff.mp failed with plain | ⟨key, -, failed⟩
  · exact keyFails_of_derive secret plain
  · rcases bind_eq_error_iff.mp failed with encrypted | ⟨other, -, impossible⟩
    · exact keyFails_of_derive secret encrypted
    · cases impossible

/-- The key methods of a field fail for the key of a secret, or since the elements of the field
do not resolve. -/
theorem keyFails_of_fieldKeyMethods
    {path : FieldPath}
    {field : String}
    (failed : fieldKeyMethods registry path field ⟨place, enclosing⟩ = .error cause) :
    KeyFails registry enclosing cause ∨
      ∃ element, place.canonical.element? = some element ∧
        registry.resolveAt path element = .error cause := by
  obtain ⟨node, canonical⟩ := place
  cases canonical with
  | array declaration facets element =>
      rcases bind_eq_error_iff.mp failed with unresolved | ⟨inner, -, failed⟩
      · exact .inr ⟨element, rfl, unresolved⟩
      · split at failed
        next secret =>
          rcases keyFails_of_keyMethods (by exact secret) failed with aboutKey | ⟨_, none, _⟩
          · exact .inl (.inl aboutKey)
          · cases none
        next => cases failed
  | scalar declaration facets =>
      dsimp only [fieldKeyMethods, Position.canonical] at failed
      split at failed
      next secret => exact .inl (keyFails_of_keyMethods secret failed)
      next => cases failed
  | object declaration facets children => cases failed

end Keys

/-! ## Conversions of trees -/

/-- What can stop the conversion of a tree: the key of a secret, a reference that is met and
does not resolve, or one whose id leads back to itself. References to objects are met, but no
others are through them. -/
inductive Stops (registry : Registry) (tree : Node) : SchemaError → Prop
  | key {cause : SchemaError} :
      cause.isAboutKey = true →
      Stops registry tree cause
  | unresolved {path : FieldPath} {reference : Node} {cause : SchemaError} :
      registry.inlined.Meets tree reference →
      registry.resolveAt path reference = .error cause →
      Stops registry tree cause
  | cycle {path : FieldPath} {id : String} :
      registry.inlined.Reaches tree id →
      TransGen registry.inlined.Leads id id →
      Stops registry tree (.referenceCycle path id)

/-- A node whose references are met has no canonical node if a reference of the tree does not
resolve. -/
theorem stops_of_resolveAt
    {registry : Registry}
    {tree node : Node}
    {path : FieldPath}
    {cause : SchemaError}
    (met : ∀ first ∈ node.frontier, registry.inlined.Meets tree first)
    (failed : registry.resolveAt path node = .error cause) :
    Stops registry tree cause := by
  cases named : node.reference? with
  | none =>
      rw [Registry.resolveAt_of_reference?_none registry path named] at failed
      cases failed
  | some id => exact .unresolved (met node (Node.mem_frontier_of_reference? named)) failed

/-- How a part of a tree is converted, with the ids of `stack` in expansion: it is stopped for a
reason, or no reference of the part leads back to itself or to an id in expansion. -/
structure Guarded
    (registry : Registry)
    (tree : Node)
    (stack : List String)
    (references : List Node)
    (outcome : Except SchemaError α) : Prop where
  stops : ∀ cause, outcome = .error cause → Stops registry tree cause
  clear : ∀ value, outcome = .ok value →
    ∀ reference ∈ references, registry.inlined.Clear stack reference

namespace Guarded

variable
  {registry : Registry}
  {tree : Node}
  {stack : List String}
  {references others : List Node}

/-- A part without references may be stopped for a reason. -/
theorem of_stops
    {outcome : Except SchemaError α}
    (stops : ∀ cause, outcome = .error cause → Stops registry tree cause) :
    Guarded registry tree stack [] outcome :=
  ⟨stops, fun _ _ _ member => absurd member List.not_mem_nil⟩

/-- What is stopped for a reason has nothing to be clear. -/
theorem of_error
    {cause : SchemaError}
    (stops : Stops registry tree cause) :
    Guarded registry tree stack references (.error cause : Except SchemaError α) where
  stops other same := Except.error.inj same ▸ stops
  clear value impossible := by cases impossible

/-- What is converted has nothing to be stopped for. -/
theorem of_clear
    (value : α)
    (clear : ∀ reference ∈ references, registry.inlined.Clear stack reference) :
    Guarded registry tree stack references (.ok value) where
  stops cause impossible := by cases impossible
  clear _ _ := clear

/-- A part without references is converted. -/
theorem of_ok (value : α) : Guarded registry tree stack [] (.ok value) :=
  .of_clear value fun _ member => absurd member List.not_mem_nil

/-- Two parts one after the other. -/
theorem bind
    {first : Except SchemaError α}
    {next : α → Except SchemaError β}
    (guarded : Guarded registry tree stack references first)
    (continued : ∀ value, first = .ok value → Guarded registry tree stack others (next value)) :
    Guarded registry tree stack (references ++ others) (first >>= next) where
  stops cause failed := by
    rcases bind_eq_error_iff.mp failed with failed | ⟨value, made, failed⟩
    · exact guarded.stops cause failed
    · exact (continued value made).stops cause failed
  clear result made reference member := by
    obtain ⟨value, madeFirst, made⟩ := bind_eq_ok_iff.mp made
    rcases List.mem_append.mp member with own | other
    · exact guarded.clear value madeFirst reference own
    · exact (continued value madeFirst).clear result made reference other

/-- What is made of the result does not matter. -/
theorem map
    {outcome : Except SchemaError α}
    (guarded : Guarded registry tree stack references outcome)
    (change : α → Except SchemaError β)
    (succeeds : ∀ value, ∃ result, change value = .ok result) :
    Guarded registry tree stack references (outcome >>= change) := by
  rw [← List.append_nil references]
  refine guarded.bind fun value _ => ?_
  obtain ⟨result, same⟩ := succeeds value
  rw [same]
  exact .of_ok result

/-- The order of the references does not matter. -/
theorem of_subset
    {outcome : Except SchemaError α}
    (guarded : Guarded registry tree stack references outcome)
    (subset : ∀ reference ∈ others, reference ∈ references) :
    Guarded registry tree stack others outcome :=
  ⟨guarded.stops, fun value made reference member =>
    guarded.clear value made reference (subset reference member)⟩

/-- A node whose references are met has its canonical node, or a reference does not
resolve. -/
theorem resolveAt
    {path : FieldPath}
    {node : Node}
    (met : ∀ first ∈ node.frontier, registry.inlined.Meets tree first) :
    Guarded registry tree stack [] (registry.resolveAt path node) :=
  .of_stops fun _ => stops_of_resolveAt met

/-- The key methods of a field whose references, and those of its siblings, are met. -/
theorem fieldKeyMethods
    {path : FieldPath}
    {field : String}
    {node canonical : Node}
    {enclosing : List Place}
    (resolved : registry.resolveAt path node = .ok canonical)
    (met : ∀ first ∈ node.frontier, registry.inlined.Meets tree first)
    (around : ∀ sibling ∈ siblings enclosing,
      ∀ first ∈ sibling.frontier, registry.inlined.Meets tree first) :
    Guarded registry tree stack []
      (Client.fieldKeyMethods registry path field ⟨⟨node, canonical⟩, enclosing⟩) := by
  refine .of_stops fun cause failed => ?_
  rcases keyFails_of_fieldKeyMethods failed with (aboutKey | sibling) | element
  · exact .key aboutKey
  · obtain ⟨sibling, member, place, failed⟩ := sibling
    exact stops_of_resolveAt (around sibling member) failed
  · obtain ⟨element, isElement, failed⟩ := element
    refine stops_of_resolveAt (fun first member => ?_) failed
    cases canonical with
    | scalar | object => cases isElement
    | array declaration facets inner =>
        cases isElement
        refine .of_resolve met
          (Registry.resolve_inlined_of_plain (Registry.resolveAt_eq_ok_iff.mp resolved) rfl) ?_
        rwa [Node.references_array]

section Steps

variable
  [Name.Lettering]
  {index : TypeIndex}
  {owner : String}
  {path : FieldPath}
  {enclosing : List Place}

/-- The first field and the others are converted one after the other. -/
theorem fields_cons
    {child : Node}
    {rest : List Node}
    (pending : ∀ reference ∈ (child :: rest).flatMap Node.frontier,
      registry.inlined.Pending tree stack reference)
    (around : ∀ sibling ∈ siblings enclosing,
      ∀ first ∈ sibling.frontier, registry.inlined.Meets tree first)
    (first : (∀ reference ∈ child.frontier, registry.inlined.Pending tree stack reference) →
      Guarded registry tree stack child.frontier
        (convertType registry index stack owner (path.child child.name) enclosing child))
    (others :
      (∀ reference ∈ rest.flatMap Node.frontier,
        registry.inlined.Pending tree stack reference) →
      Guarded registry tree stack (rest.flatMap Node.frontier)
        (convertFields registry index stack owner path enclosing rest)) :
    Guarded registry tree stack ((child :: rest).flatMap Node.frontier)
      (convertFields registry index stack owner path enclosing (child :: rest)) := by
  rw [List.flatMap_cons] at pending ⊢
  obtain ⟨own, ofRest⟩ := List.forall_mem_append.mp pending
  have met : ∀ reference ∈ child.frontier, registry.inlined.Meets tree reference :=
    fun reference member => (own reference member).met
  rw [convertFields]
  refine .of_subset (.bind (.resolveAt met) fun canonical resolved =>
    .bind (.fieldKeyMethods resolved met around) fun methods _ =>
      .bind (first own) fun made _ => (others ofRest).map _ ?_) fun _ => id
  exact fun _ => ⟨_, rfl⟩

/-- A reference that is written out is converted as what is written for it. -/
theorem type_of_inlined
    {node canonical : Node}
    {id : String}
    (named : node.reference? = some id)
    (resolved : registry.target path node id = .ok canonical)
    (outside : id ∉ stack)
    (plain : canonical.isObject = false)
    (here : registry.inlined.Pending tree stack node)
    (below :
      (∀ reference ∈ canonical.references,
        registry.inlined.Pending tree (id :: stack) reference) →
      Guarded registry tree (id :: stack) canonical.references
        (convertCanonical registry index (id :: stack) owner path enclosing node canonical)) :
    Guarded registry tree stack [node]
      (convertType registry index stack owner path enclosing node) := by
  have target := Registry.target_inlined_eq_ok_iff.mpr ⟨resolved, plain⟩
  have guarded := below fun reference member => here.opened named target member
  rw [convertType_of_inlined named resolved outside plain]
  refine ⟨guarded.stops, fun value made reference member => ?_⟩
  rw [List.mem_singleton.mp member]
  exact .of_opened named target outside (guarded.clear value made)

/-- An object is converted as its fields, in their order. -/
theorem canonical_object
    {node : Node}
    {declaration : Declaration}
    {facets : ObjectFacets}
    {children : List Node}
    (guarded : Guarded registry tree stack ((Node.sorted children).flatMap Node.frontier)
      (convertFields registry index stack
        (nestedName owner
          (Position.mk ⟨node, .object declaration facets children⟩ enclosing).internalName)
        path (⟨node, .object declaration facets children⟩ :: enclosing)
        (Node.sorted children))) :
    Guarded registry tree stack (Node.object declaration facets children).references
      (convertCanonical registry index stack owner path enclosing node
        (.object declaration facets children)) := by
  rw [Node.references_object, convertCanonical]
  exact (guarded.map _ fun _ => ⟨_, rfl⟩).of_subset fun reference =>
    (Node.mem_flatMap_sorted reference children).mpr

end Steps

end Guarded

/-- A conversion whose references are pending is stopped for a reason only, and where it comes
through, no reference leads back to itself or to an id in expansion. -/
theorem guarded_conversion
    [Name.Lettering]
    (registry : Registry)
    (index : TypeIndex)
    (tree : Node) :
    (∀ stack owner path enclosing children,
      (∀ reference ∈ children.flatMap Node.frontier,
        registry.inlined.Pending tree stack reference) →
      (∀ sibling ∈ siblings enclosing,
        ∀ first ∈ sibling.frontier, registry.inlined.Meets tree first) →
      Guarded registry tree stack (children.flatMap Node.frontier)
        (convertFields registry index stack owner path enclosing children)) ∧
    (∀ stack owner path enclosing node,
      (∀ reference ∈ node.frontier, registry.inlined.Pending tree stack reference) →
      Guarded registry tree stack node.frontier
        (convertType registry index stack owner path enclosing node)) ∧
    ∀ stack owner path enclosing node canonical,
      (∀ reference ∈ canonical.references, registry.inlined.Pending tree stack reference) →
      Guarded registry tree stack canonical.references
        (convertCanonical registry index stack owner path enclosing node canonical) := by
  apply expansion_induct registry
  case nil =>
    intro stack owner path enclosing pending around
    rw [convertFields]
    exact .of_ok _
  case cons =>
    intro stack owner path enclosing child rest ofChild ofRest pending around
    exact .fields_cons pending around ofChild fun others => ofRest others around
  case plain =>
    intro stack owner path enclosing node named ofCanonical pending
    rw [Node.frontier_of_reference?_none named] at pending ⊢
    rw [convertType_of_plain named]
    exact ofCanonical pending
  case unresolved =>
    intro stack owner path enclosing node id cause named failed pending
    have here := pending node (Node.mem_frontier_of_reference? named)
    rw [convertType_of_unresolved failed]
    exact .of_error (.unresolved here.met failed)
  case inside =>
    intro stack owner path enclosing node id canonical named resolved inside pending
    have here := pending node (Node.mem_frontier_of_reference? named)
    rw [convertType_of_inside named resolved inside]
    exact .of_error (.cycle ⟨node, here.met, named⟩ (here.led id inside id named))
  case closed =>
    intro stack owner path enclosing node id canonical named resolved outside isObject pending
    rw [convertType_of_object named resolved outside isObject,
      Node.frontier_of_reference?_some named]
    refine .of_clear _ fun reference member => ?_
    rw [List.mem_singleton.mp member]
    exact .of_object named (Registry.target_eq_ok_iff.mp resolved).1 isObject outside
  case inlined =>
    intro stack owner path enclosing node id canonical named resolved outside isPlain ofCanonical
      pending
    have here := pending node (Node.mem_frontier_of_reference? named)
    rw [Node.frontier_of_reference?_some named]
    exact .type_of_inlined named resolved outside isPlain here ofCanonical
  case scalar =>
    intro stack owner path enclosing node declaration facets pending
    rw [convertCanonical, Node.references_scalar]
    exact .of_ok _
  case array =>
    intro stack owner path enclosing node declaration facets element ofElement pending
    rw [Node.references_array] at pending ⊢
    rw [convertCanonical]
    exact (ofElement pending).map _ fun _ => ⟨_, rfl⟩
  case object =>
    intro stack owner path enclosing node declaration facets children ofChildren pending
    rw [Node.references_object] at pending
    refine .canonical_object (ofChildren ?_ ?_)
    · exact fun reference member =>
        pending reference ((Node.mem_flatMap_sorted reference children).mp member)
    · exact fun child isChild first member =>
        (pending first (List.mem_flatMap.mpr ⟨child, isChild, member⟩)).met

end Client
end SchemaCompiler
