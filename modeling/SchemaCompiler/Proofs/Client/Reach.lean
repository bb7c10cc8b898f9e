import SchemaCompiler.Proofs.Client.Names
import SchemaCompiler.Proofs.Registry.Components
import SchemaCompiler.Proofs.Schema.Reordering

/-!
# Ids that a conversion reaches

A conversion goes through itemized inputs, outputs and the entries that references stand
for. Wherever it goes, its dependencies stay among ids that are closed under mentions and
hold those that the converted trees mention.
-/

namespace SchemaCompiler
namespace Schema

variable
  {registry : Registry}
  {known : String → Prop}

namespace Node

/-- The tree mentions known ids only. -/
def Within (known : String → Prop) (node : Node) : Prop :=
  ∀ id ∈ node.mentions, known id

theorem Within.element
    {declaration : Declaration}
    {facets : ArrayFacets}
    {element : Node}
    (within : Within known (array declaration facets element)) :
    element.Within known := by
  intro id member
  apply within
  rw [mentions]
  exact List.mem_append_right _ member

theorem Within.children
    [Name.Lettering]
    {declaration : Declaration}
    {facets : ObjectFacets}
    {children : List Node}
    (within : Within known (object declaration facets children)) :
    ∀ child ∈ sorted children, child.Within known := by
  intro child member id mentioned
  apply within
  rw [mentions, mentionsAll_eq_flatMap]
  exact List.mem_append_right _
    (List.mem_flatMap.mpr ⟨child, (mem_sorted child children).mp member, mentioned⟩)

/-- The entry of a known id mentions known ids only. -/
theorem Within.of_get?
    {id : String}
    {entry : Node}
    (closed : registry.Closed known)
    (isKnown : known id)
    (found : registry.get? id = some entry) :
    entry.Within known :=
  fun other member =>
    closed id isKnown other (Registry.mem_mentioned_iff.mpr ⟨entry, found, member⟩)

/-- A reference to a known id opens into an entry that mentions known ids only. -/
theorem Within.expand
    {stack : List String}
    {path : FieldPath}
    {node : Node}
    {opened : registry.Opened stack node}
    (closed : registry.Closed known)
    (within : node.Within known)
    (expanded : registry.expand stack path node = .ok opened) :
    opened.canonical.Within known := by
  cases named : node.reference? with
  | some id =>
      exact .of_get? closed (within id (mem_mentions_of_reference? named))
        (Client.target_of_expand named expanded)
  | none =>
      unfold Registry.expand at expanded
      split at expanded
      next =>
        cases expanded
        exact within
      next id reference => cases named.symm.trans reference

/-- What a tree mentions does not depend on what its top node declares beside its reference. -/
theorem Within.withDeclaration
    {node : Node}
    {declaration : Declaration}
    (within : node.Within known)
    (same : declaration.reference = node.declaration.reference) :
    (node.withDeclaration declaration).Within known := by
  have mentions : (node.withDeclaration declaration).mentions = node.mentions := by
    cases node <;> simp_all [Node.withDeclaration, mentions, Node.declaration]
  rw [Within, mentions]
  exact within

end Node

namespace Function

/-- The located inputs mention what the parameters and the body of a function mention. -/
theorem within_locatedInputs
    {function : Function}
    (within : ∀ node ∈ function.nodes, node.Within known) :
    ∀ input ∈ function.locatedInputs, input.2.Within known := by
  simp only [nodes, List.forall_mem_append] at within
  obtain ⟨⟨⟨path, query⟩, body⟩, -⟩ := within
  simp only [locatedInputs, List.forall_mem_append, List.forall_mem_map]
  exact ⟨⟨path, query⟩, fun node member => (body node member).withDeclaration rfl⟩

/-- An itemized input mentions what the parameters and the body of its function mention. -/
theorem within_itemizedInput
    {function : Function}
    {taken : Node}
    (within : ∀ node ∈ function.nodes, node.Within known)
    (itemized : function.itemizedInput = .ok taken) :
    taken.Within known := by
  obtain ⟨children, made, same⟩ := Outcome.bind_eq_ok_iff.mp itemized
  cases same
  obtain ⟨-, -, rfl⟩ := itemize_eq_ok_iff.mp made
  intro id member
  rw [Node.mentions, Node.mentionsAll_eq_flatMap] at member
  obtain ⟨child, isChild, mentioned⟩ := List.mem_flatMap.mp member
  obtain ⟨input, isInput, rfl⟩ := List.mem_map.mp isChild
  have located : (locate input.1 input.2).Within known :=
    (within_locatedInputs within input isInput).withDeclaration rfl
  exact located id mentioned

end Function
end Schema

namespace Client

open SchemaCompiler.Schema

variable
  {registry : Registry}
  {index : TypeIndex}
  {known : String → Prop}

/-- The dependencies of a conversion within known ids are known. -/
theorem known_conversion
    [Name.Lettering]
    (registry : Registry)
    (index : TypeIndex)
    (closed : registry.Closed known) :
    (∀ stack owner path enclosing children struct emission,
      convertFields registry index stack owner path enclosing children = .ok (struct, emission) →
        (∀ child ∈ children, child.Within known) → ∀ id ∈ emission.dependencies, known id) ∧
    (∀ stack owner path enclosing node type emission,
      convertType registry index stack owner path enclosing node = .ok (type, emission) →
        node.Within known → ∀ id ∈ emission.dependencies, known id) ∧
    ∀ stack owner path enclosing node canonical type emission,
      convertCanonical registry index stack owner path enclosing node canonical =
          .ok (type, emission) →
        canonical.Within known → ∀ id ∈ emission.dependencies, known id := by
  apply conversion_induct registry index
  case nil =>
    intro owner enclosing within
    exact List.forall_mem_nil _
  case cons =>
    intro stack owner path enclosing child rest canonical methods type first struct others
      resolved derived converted ofChild ofRest within
    obtain ⟨childWithin, restWithin⟩ := List.forall_mem_cons.mp within
    exact List.forall_mem_append.mpr ⟨ofChild childWithin, ofRest restWithin⟩
  case closed =>
    intro stack path enclosing node id opened named opens isObject within
    exact List.forall_mem_singleton.mpr (within id (Node.mem_mentions_of_reference? named))
  case expanded =>
    intro stack path enclosing node opened type emission opens unnamed ofCanonical within
    exact ofCanonical (within.expand closed opens)
  case scalar =>
    intro enclosing node declaration facets within
    exact List.forall_mem_nil _
  case array =>
    intro enclosing node declaration facets element type emission ofElement within
    exact ofElement within.element
  case object =>
    intro enclosing node declaration facets children name struct emission ofChildren within
    exact List.forall_mem_append.mpr ⟨ofChildren within.children, List.forall_mem_nil _⟩

theorem known_convertRoot
    [Name.Lettering]
    {name : String}
    {path : FieldPath}
    {node : Node}
    {struct : Struct}
    {emission : Emission}
    (closed : registry.Closed known)
    (within : node.Within known)
    (made : convertRoot registry index name path node = .ok (struct, emission)) :
    ∀ id ∈ emission.dependencies, known id := by
  unfold convertRoot at made
  split at made
  · exact (known_conversion registry index closed).1 _ _ _ _ _ _ _ made within.children
  · cases made

/-- All dependencies of the definitions are known. -/
def Definitions.DependsOnly (known : String → Prop) (definitions : Definitions) : Prop :=
  ∀ id ∈ definitions.dependencies.names, known id

/-- Definitions one after another have the dependencies of each. -/
theorem Definitions.accumulates_dependsOnly :
    Accumulates (Definitions.DependsOnly known) where
  empty := List.forall_mem_nil _
  append {first second} ofFirst ofSecond id member := by
    rcases (Order.NameSet.mem_insertAll second.dependencies.names first.dependencies id).mp member
      with later | earlier
    · exact ofSecond id later
    · exact ofFirst id earlier

/-- Definitions depend on what a conversion leaves behind. -/
theorem Emission.dependsOnly
    {emission : Emission}
    {definitions : Definitions}
    (allKnown : ∀ id ∈ emission.dependencies, known id)
    (same : definitions.dependencies = .ofList emission.dependencies) :
    definitions.DependsOnly known := by
  intro id member
  rw [same] at member
  exact allKnown id (mem_dependencies_ofList.mp member)

/-- An entry depends on what its id reaches. -/
theorem dependsOnly_convertEntry
    [Name.Lettering]
    {id : String}
    {definitions : Definitions}
    (closed : registry.Closed known)
    (isKnown : known id)
    (made : convertEntry registry index id = .ok definitions) :
    definitions.DependsOnly known := by
  obtain ⟨root, struct, emission, found, converted, rfl⟩ := exists_of_convertEntry made
  have within : root.Within known := .of_get? closed isKnown (Registry.get?_of_root found)
  refine Emission.dependsOnly (known_convertRoot closed within converted) ?_
  simp [Emission.definitions]

theorem dependsOnly_convertInput
    [Name.Lettering]
    {lead : String}
    {function : Function}
    {definitions : Definitions}
    (closed : registry.Closed known)
    (within : ∀ node ∈ function.nodes, node.Within known)
    (made : convertInput registry index lead function = .ok definitions) :
    definitions.DependsOnly known := by
  obtain ⟨taken, struct, emission, itemized, converted, rfl⟩ := exists_of_convertInput made
  exact Emission.dependsOnly
    (known_convertRoot closed (Function.within_itemizedInput within itemized) converted) rfl

theorem dependsOnly_convertOutput
    [Name.Lettering]
    {name : String}
    {path : FieldPath}
    {output : Node}
    {definitions : Definitions}
    (closed : registry.Closed known)
    (within : output.Within known)
    (made : convertOutput registry index name path output = .ok definitions) :
    definitions.DependsOnly known := by
  obtain ⟨documentation, emission, ⟨struct, converted, rfl⟩ | ⟨target, converted, rfl⟩⟩ :=
    exists_of_convertOutput made
  · exact Emission.dependsOnly (known_convertRoot closed within converted) rfl
  · exact Emission.dependsOnly
      ((known_conversion registry index closed).2.1 _ _ _ _ _ _ _ converted within) rfl

/-- A namespace depends on what its entry and the nodes of its functions reach. -/
theorem dependsOnly_convertNamespace
    [Name.Lettering]
    {managed : Namespace}
    {definitions : Definitions}
    (closed : registry.Closed known)
    (isKnown : known managed.schema)
    (within : ∀ function ∈ managed.functions, ∀ node ∈ function.2.nodes, node.Within known)
    (made : convertNamespace registry index managed = .ok definitions) :
    definitions.DependsOnly known := by
  refine good_convertNamespace Definitions.accumulates_dependsOnly
    (fun _ => dependsOnly_convertEntry closed isKnown) (fun function member => ?_) made
  have nodes := within function member
  refine ⟨fun _ _ => dependsOnly_convertInput closed nodes, fun node _ _ _ returned => ?_⟩
  have isNode : node ∈ function.2.nodes := by simp [Function.nodes, returned]
  exact dependsOnly_convertOutput closed (nodes node isNode)

end Client
end SchemaCompiler
