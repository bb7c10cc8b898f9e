import SchemaCompiler.Proofs.Client.Structs

/-!
# Dependencies of a client entry

The client of an entry depends on the objects that its references stand for. A reference to any
other entry is replaced by what the entry is, so the objects that references in there stand for
are dependencies too, and so on through all entries that are written out.
-/

namespace SchemaCompiler
namespace Client

open SchemaCompiler.Order (NameSet)
open SchemaCompiler.Schema

/-- The type of a node has the class of an id in it: the node stands for the object of the id, or
for something else with a reference in it whose type has the class. -/
inductive UsesClass (registry : Registry) : Node → String → Prop
  | object {reference canonical : Node} {id : String} :
      reference.reference? = some id →
      registry.resolve reference = .ok canonical →
      canonical.isObject = true →
      UsesClass registry reference id
  | through {node canonical inner : Node} {id : String} :
      registry.resolve node = .ok canonical →
      canonical.isObject = false →
      inner ∈ canonical.references →
      UsesClass registry inner id →
      UsesClass registry node id

/-- The type of one of the references has the class of the id in it. -/
def UseClass (registry : Registry) (references : List Node) (id : String) : Prop :=
  ∃ reference ∈ references, UsesClass registry reference id

section Classes

variable
  {registry : Registry}
  {node canonical : Node}
  {references others : List Node}
  {id name : String}

/-- A reference to an object has its class. -/
theorem usesClass_iff_of_object
    (named : node.reference? = some id)
    (resolved : registry.resolve node = .ok canonical)
    (isObject : canonical.isObject = true) :
    UsesClass registry node name ↔ name = id := by
  constructor
  · intro uses
    cases uses with
    | object namedToo _ _ => exact Option.some.inj (namedToo.symm.trans named)
    | through resolvedToo plain _ _ =>
        obtain rfl := Except.ok.inj (resolved.symm.trans resolvedToo)
        exact absurd isObject (Bool.eq_false_iff.mp plain)
  · rintro rfl
    exact .object named resolved isObject

/-- Any other node has the classes of the references below its canonical node. -/
theorem usesClass_iff_of_plain
    (resolved : registry.resolve node = .ok canonical)
    (plain : canonical.isObject = false) :
    UsesClass registry node name ↔ UseClass registry canonical.references name := by
  constructor
  · intro uses
    cases uses with
    | object _ resolvedToo isObject =>
        obtain rfl := Except.ok.inj (resolved.symm.trans resolvedToo)
        exact absurd isObject (Bool.eq_false_iff.mp plain)
    | through resolvedToo _ member uses =>
        obtain rfl := Except.ok.inj (resolved.symm.trans resolvedToo)
        exact ⟨_, member, uses⟩
  · rintro ⟨inner, member, uses⟩
    exact .through resolved plain member uses

@[simp] theorem not_useClass_nil : ¬UseClass registry [] name := by
  simp [UseClass]

@[simp] theorem useClass_singleton :
    UseClass registry [node] name ↔ UsesClass registry node name := by
  simp [UseClass]

@[simp] theorem useClass_append :
    UseClass registry (references ++ others) name ↔
      UseClass registry references name ∨ UseClass registry others name := by
  simp only [UseClass, List.mem_append, or_and_right, exists_or]

/-- The order of children does not matter to the classes in them. -/
@[simp] theorem useClass_sorted
    [Name.Lettering]
    {children : List Node} :
    UseClass registry ((Node.sorted children).flatMap Node.frontier) name ↔
      UseClass registry (children.flatMap Node.frontier) name := by
  simp only [UseClass, Node.mem_flatMap_sorted]

end Classes

/-- The dependencies of a conversion are the ids whose classes are in the types of the references
that it meets first. -/
theorem dependencies_conversion [Name.Lettering] (registry : Registry) (index : TypeIndex) :
    (∀ stack owner path enclosing children struct emission,
      convertFields registry index stack owner path enclosing children = .ok (struct, emission) →
        ∀ id, id ∈ emission.dependencies ↔
          UseClass registry (children.flatMap Node.frontier) id) ∧
    (∀ stack owner path enclosing node type emission,
      convertType registry index stack owner path enclosing node = .ok (type, emission) →
        ∀ id, id ∈ emission.dependencies ↔ UseClass registry node.frontier id) ∧
    ∀ stack owner path enclosing node canonical type emission,
      convertCanonical registry index stack owner path enclosing node canonical =
          .ok (type, emission) →
        ∀ id, id ∈ emission.dependencies ↔ UseClass registry canonical.references id := by
  apply conversion_induct registry index
  case nil =>
    intro owner enclosing id
    simp
  case cons =>
    intro stack owner path enclosing child rest canonical methods type first struct others
      resolved derived converted ofChild ofRest id
    rw [Emission.dependencies_append, List.mem_append, ofChild, ofRest, List.flatMap_cons,
      useClass_append]
  case closed =>
    intro stack path enclosing node id opened named opens isObject name
    rw [Node.frontier_of_reference?_some named, useClass_singleton,
      usesClass_iff_of_object named (resolve_of_expand opens) isObject]
    exact List.mem_singleton
  case expanded =>
    intro stack path enclosing node opened type emission opens unnamed ofCanonical id
    have resolved := resolve_of_expand opens
    cases named : node.reference? with
    | some reference =>
        rw [Node.frontier_of_reference?_some named, useClass_singleton, ofCanonical,
          usesClass_iff_of_plain resolved (unnamed reference named)]
    | none =>
        rw [Registry.resolve, Registry.resolveAt_of_reference?_none registry _ named] at resolved
        rw [Node.frontier_of_reference?_none named, ofCanonical, ← Except.ok.inj resolved]
  case scalar =>
    intro enclosing node declaration facets id
    simp
  case array =>
    intro enclosing node declaration facets element type emission ofElement id
    rw [Node.references_array, ofElement]
  case object =>
    intro enclosing node declaration facets children name struct emission ofChildren id
    rw [Emission.dependencies_append, List.append_nil, ofChildren, useClass_sorted,
      Node.references_object]

/-- The client of an entry depends on the ids whose classes are in the types of the references of
the entry as it stands. -/
theorem mem_dependencies_convertEntry_iff
    [Name.Lettering]
    {registry : Registry}
    {index : TypeIndex}
    {id name : String}
    {entry : Node}
    {definitions : Definitions}
    (found : registry.root id = .ok entry)
    (converted : convertEntry registry index id = .ok definitions) :
    name ∈ definitions.dependencies ↔ UseClass registry entry.references name := by
  obtain ⟨root, struct, emission, foundToo, made, rfl⟩ := exists_of_convertEntry converted
  obtain rfl : entry = root := Except.ok.inj (found.symm.trans foundToo)
  cases entry with
  | scalar | array => cases made
  | object declaration facets children =>
      have dependencies := (dependencies_conversion registry index).1 _ _ _ _ _ _ _ made name
      rw [useClass_sorted] at dependencies
      rw [Node.references_object, ← dependencies]
      simp [Emission.definitions]

end Client
end SchemaCompiler
