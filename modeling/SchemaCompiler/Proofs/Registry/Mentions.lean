import SchemaCompiler.Proofs.Registry.Components
import SchemaCompiler.Proofs.Registry.References

/-!
# What entries mention

An entry mentions an id if a node that stands for it is anywhere in the tree of the entry,
inside a reference or not. The graph of a registry has an edge for every mention and no
other; its nodes are the entries and what they mention.
-/

namespace SchemaCompiler
namespace Schema

open Relation

namespace Node

/-- The node is in the tree: it is the top, or it is in the element or in a child. -/
inductive IsIn (inner : Node) : Node → Prop
  | top : IsIn inner inner
  | element {declaration : Declaration} {facets : ArrayFacets} {element : Node} :
      IsIn inner element →
      IsIn inner (.array declaration facets element)
  | child
      {declaration : Declaration}
      {facets : ObjectFacets}
      {children : List Node}
      {child : Node} :
      child ∈ children →
      IsIn inner child →
      IsIn inner (.object declaration facets children)

/-- A tree mentions exactly the ids that nodes in it stand for. -/
theorem mem_mentions_iff
    {node : Node}
    {id : String} :
    id ∈ node.mentions ↔ ∃ inner : Node, inner.IsIn node ∧ inner.reference? = some id := by
  constructor
  · intro mentioned
    induction node using inductOn with
    | scalar declaration facets =>
        rw [mentions, Option.mem_toList] at mentioned
        exact ⟨_, .top, mentioned⟩
    | array declaration facets element hypothesis =>
        rw [mentions, List.mem_append, Option.mem_toList] at mentioned
        rcases mentioned with own | below
        · exact ⟨_, .top, own⟩
        · obtain ⟨inner, isIn, named⟩ := hypothesis below
          exact ⟨inner, .element isIn, named⟩
    | object declaration facets children hypothesis =>
        rw [mentions, mentionsAll_eq_flatMap, List.mem_append, Option.mem_toList,
          List.mem_flatMap] at mentioned
        rcases mentioned with own | ⟨child, member, below⟩
        · exact ⟨_, .top, own⟩
        · obtain ⟨inner, isIn, named⟩ := hypothesis child member below
          exact ⟨inner, .child member isIn, named⟩
  · rintro ⟨inner, isIn, named⟩
    induction isIn with
    | top => exact mem_mentions_of_reference? named
    | element _ hypothesis =>
        rw [mentions]
        exact List.mem_append_right _ hypothesis
    | child member _ hypothesis =>
        rw [mentions, mentionsAll_eq_flatMap]
        exact List.mem_append_right _ (List.mem_flatMap.mpr ⟨_, member, hypothesis⟩)

end Node

namespace Registry

/-- A node in the entry of one id stands for the other. -/
def Mentions (registry : Registry) (source target : String) : Prop :=
  ∃ entry inner : Node,
    registry.get? source = some entry ∧ inner.IsIn entry ∧ inner.reference? = some target

variable
  {registry : Registry}
  {source target id : String}

/-- Only entries mention anything. -/
theorem Mentions.mem_ids (mentions : registry.Mentions source target) :
    source ∈ registry.ids := by
  obtain ⟨entry, inner, found, -, -⟩ := mentions
  exact Order.Table.mem_names_of_get? found

theorem mem_mentioned_iff_mentions :
    target ∈ registry.mentioned source ↔ registry.Mentions source target := by
  simp only [mem_mentioned_iff, Node.mem_mentions_iff, Mentions, exists_and_left]

/-- The edges of the graph are the mentions. -/
theorem edge_iff_mentions :
    registry.graph.Edge source target ↔ registry.Mentions source target := by
  rw [← mem_mentioned_iff_mentions]
  constructor
  · rintro ⟨follows, -⟩
    obtain ⟨other, -, pair⟩ := List.mem_flatMap.mp (Order.Graph.mem_next.mp follows)
    obtain ⟨third, mentioned, same⟩ := List.mem_map.mp pair
    cases same
    exact mentioned
  · intro mentioned
    exact edge_of_mentioned (mem_mentioned_iff_mentions.mp mentioned).mem_ids mentioned

theorem edge_eq_mentions (registry : Registry) : registry.graph.Edge = registry.Mentions :=
  funext fun _ => funext fun _ => propext edge_iff_mentions

/-- An id that leads anywhere by mentions is an entry. -/
theorem mem_ids_of_transGen (way : TransGen registry.Mentions source target) :
    source ∈ registry.ids := by
  obtain ⟨next, mentions, -⟩ := TransGen.head'_iff.mp way
  exact mentions.mem_ids

end Registry
end Schema
end SchemaCompiler
