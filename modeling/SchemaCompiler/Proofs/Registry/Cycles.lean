import SchemaCompiler.Proofs.Registry.CycleDetection
import SchemaCompiler.Proofs.Registry.Mentions
import SchemaCompiler.Proofs.Registry.TwoPasses

/-!
# Cycles of a registry

The cycles of a registry are the components of its graph that hold a cycle: those of several
ids, and those of one id whose entry mentions itself. So an id is listed if and only if it leads
back to itself, and two ids are listed together if and only if they lead to each other.
-/

namespace SchemaCompiler
namespace Order
namespace Graph

open Relation

variable
  {graph : Graph}
  {component : List String}
  {node other : String}

/-- A component lists no node twice. -/
theorem nodup_component (graph : Graph) (start : String) : (graph.component start).Nodup :=
  (graph.nodup_walk [] [start] .nil).filter _

/-- The components that are found have no node in common. -/
theorem pairwise_componentsFrom
    (graph : Graph)
    (found : List (List String))
    (names : List String)
    (sound : ∀ component ∈ found, ∃ start, component = graph.component start)
    (apart : found.Pairwise List.Disjoint) :
    (graph.componentsFrom found names).Pairwise List.Disjoint := by
  induction names generalizing found with
  | nil => exact apart
  | cons first rest hypothesis =>
      rw [componentsFrom]
      split
      next => exact hypothesis found sound apart
      next uncovered =>
        have grown : ∀ component ∈ found ++ [graph.component first],
            ∃ start, component = graph.component start :=
          List.forall_mem_append.mpr ⟨sound, List.forall_mem_singleton.mpr ⟨first, rfl⟩⟩
        refine hypothesis _ grown (List.pairwise_append.mpr
          ⟨apart, List.pairwise_singleton _ _, ?_⟩)
        intro component known new member shared inKnown inNew
        rw [List.mem_singleton.mp member] at inNew
        obtain ⟨start, rfl⟩ := sound component known
        -- The shared node would lead round from the start of the known component to `first`.
        obtain ⟨startInside, -, there, here⟩ := mem_component_iff.mp inKnown
        obtain ⟨firstInside, -, away, back⟩ := mem_component_iff.mp inNew
        have covered : first ∈ graph.component start :=
          mem_component_iff.mpr ⟨startInside, firstInside, there.trans back, away.trans here⟩
        exact uncovered (List.any_eq_true.mpr ⟨_, known, List.contains_iff_mem.mpr covered⟩)

/-- Every component is that of a node. -/
theorem exists_start (listed : component ∈ graph.components) :
    ∃ start, component = graph.component start :=
  (graph.componentsFrom_spec [] _ (List.forall_mem_nil _)).1 component listed

theorem pairwise_components (graph : Graph) : graph.components.Pairwise List.Disjoint :=
  graph.pairwise_componentsFrom [] _ (List.forall_mem_nil _) .nil

/-- The nodes of a component lead to each other. -/
theorem mutual_of_mem
    (listed : component ∈ graph.components)
    (member : node ∈ component)
    (otherMember : other ∈ component) :
    graph.Mutual node other := by
  obtain ⟨start, rfl⟩ := exists_start listed
  obtain ⟨-, -, there, here⟩ := mem_component_iff.mp member
  obtain ⟨-, -, away, back⟩ := mem_component_iff.mp otherMember
  exact ⟨here.trans away, back.trans there⟩

/-- A component that holds a cycle has a second node or an edge from its only one. -/
theorem transGen_of_isCyclic
    (listed : component ∈ graph.components)
    (cyclic : graph.isCyclic component)
    (member : node ∈ component) :
    TransGen graph.Edge node node := by
  obtain ⟨start, same⟩ := exists_start listed
  have distinct : component.Nodup := same ▸ graph.nodup_component start
  have round : ∀ second ∈ component, second ≠ node → TransGen graph.Edge node node := by
    intro second secondMember different
    obtain ⟨away, back⟩ := mutual_of_mem listed member secondMember
    exact ((reflTransGen_iff_eq_or_transGen.mp away).resolve_left different).trans_left back
  match component, member, cyclic with
  | [only], member, cyclic =>
      obtain rfl : node = only := List.mem_singleton.mp member
      have inside : node ∈ graph.nodes := by
        rw [same] at member
        exact (mem_component_iff.mp member).2.1
      exact .single ⟨List.contains_iff_mem.mp cyclic, inside⟩
  | first :: second :: rest, member, _ =>
      have different : first ≠ second := fun equal =>
        (List.nodup_cons.mp distinct).1 (equal ▸ List.mem_cons_self)
      by_cases isFirst : first = node
      · exact round second (List.mem_cons_of_mem first List.mem_cons_self)
          (isFirst ▸ different.symm)
      · exact round first List.mem_cons_self isFirst

end Graph
end Order

namespace Schema
namespace Registry

open Relation

variable {registry : Registry}

/-- An id is listed exactly if mentions lead from it back to itself. -/
theorem exists_cycle_iff
    {id : String} :
    (∃ cycle ∈ registry.cycles, id ∈ cycle) ↔ TransGen registry.Mentions id id := by
  rw [← edge_eq_mentions]
  constructor
  · rintro ⟨cycle, listed, member⟩
    obtain ⟨isComponent, cyclic⟩ := List.mem_filter.mp listed
    exact Order.Graph.transGen_of_isCyclic isComponent cyclic member
  · intro back
    have registered : id ∈ registry.ids := mem_ids_of_transGen (edge_eq_mentions registry ▸ back)
    exact exists_cycle_of_transGen registered back

/-- Two ids are listed together exactly if mentions lead from each to the other. -/
theorem exists_common_cycle_iff
    {source target : String} :
    (∃ cycle ∈ registry.cycles, source ∈ cycle ∧ target ∈ cycle) ↔
      TransGen registry.Mentions source target ∧ TransGen registry.Mentions target source := by
  constructor
  · rintro ⟨cycle, listed, sourceMember, targetMember⟩
    obtain ⟨away, back⟩ :=
      Order.Graph.mutual_of_mem (List.mem_filter.mp listed).1 sourceMember targetMember
    rw [edge_eq_mentions] at away back
    have round := exists_cycle_iff.mp ⟨cycle, listed, sourceMember⟩
    exact ⟨round.trans_left away, TransGen.trans_right back round⟩
  · rintro ⟨away, back⟩
    obtain ⟨cycle, listed, member⟩ := exists_cycle_iff.mpr (away.trans back)
    have inside : target ∈ registry.graph.nodes := mem_nodes_of_mem_ids (mem_ids_of_transGen back)
    refine ⟨cycle, listed, member, ?_⟩
    rw [← edge_eq_mentions] at away back
    exact Order.Graph.mem_component_of_round (List.mem_filter.mp listed).1 member inside
      away.to_reflTransGen back.to_reflTransGen

/-- A cycle lists some entries, each once. -/
theorem nodup_cycle
    {cycle : List String}
    (listed : cycle ∈ registry.cycles) :
    cycle ≠ [] ∧ cycle.Nodup ∧ ∀ id ∈ cycle, id ∈ registry.ids := by
  obtain ⟨isComponent, cyclic⟩ := List.mem_filter.mp listed
  obtain ⟨start, same⟩ := Order.Graph.exists_start isComponent
  refine ⟨?_, same ▸ registry.graph.nodup_component start, ?_⟩
  · rintro rfl
    cases cyclic
  · exact fun id member => mem_ids_of_transGen (exists_cycle_iff.mp ⟨cycle, listed, member⟩)

/-- The cycles list exactly the ids that mentions lead back to themselves, those together that
lead to each other. Every list holds some entries, none twice and none that is in another; they
are the cyclic ones of the lists that two depth-first passes over the mentions find. -/
theorem cycles_exact (registry : Registry) :
    (∀ id, (∃ cycle ∈ registry.cycles, id ∈ cycle) ↔ TransGen registry.Mentions id id) ∧
    (∀ source target, (∃ cycle ∈ registry.cycles, source ∈ cycle ∧ target ∈ cycle) ↔
      TransGen registry.Mentions source target ∧ TransGen registry.Mentions target source) ∧
    (∀ cycle ∈ registry.cycles,
      cycle ≠ [] ∧ cycle.Nodup ∧ ∀ id ∈ cycle, id ∈ registry.ids) ∧
    registry.cycles.Pairwise List.Disjoint ∧
    registry.cycles =
      (registry.graph.sweep [] registry.graph.reversed.finishingOrder.reverse).filter
        registry.graph.isCyclic := by
  refine ⟨fun id => exists_cycle_iff, fun source target => exists_common_cycle_iff,
    fun cycle listed => nodup_cycle listed, ?_, ?_⟩
  · exact registry.graph.pairwise_components.sublist List.filter_sublist
  · rw [cycles, Order.Graph.components_eq_sweep]

/-- Two objects that hold each other, one that holds itself, and one that leads to the pair and
to an id that is not registered. -/
def ringRegistry : Registry :=
  ⟨.ofList [
    ("left", .object { name := "left" } {} [pointer "other" "right"]),
    ("right", .object { name := "right" } {} [pointer "other" "left"]),
    ("loop", .object { name := "loop" } {} [pointer "again" "loop"]),
    ("outer", .object { name := "outer" } {} [
      .array { name := "pairs" } {} (pointer "pair" "left"),
      pointer "gone" "missing"])]⟩

/-- The mentions of the four entries. -/
theorem mentions_ringRegistry
    {source target : String} :
    ringRegistry.Mentions source target ↔
      (source, target) ∈ [("left", "right"), ("loop", "loop"), ("outer", "left"),
        ("outer", "missing"), ("right", "left")] := by
  have edges : ringRegistry.graph.edges = [("left", "right"), ("loop", "loop"), ("outer", "left"),
      ("outer", "missing"), ("right", "left")] := by decide
  rw [← edges, ← edge_iff_mentions, Order.Graph.Edge, Order.Graph.mem_next, and_iff_left_iff_imp]
  intro member
  obtain ⟨source, registered, pair⟩ := List.mem_flatMap.mp member
  obtain ⟨target, mentioned, same⟩ := List.mem_map.mp pair
  cases same
  exact (edge_of_mentioned registered mentioned).2

/-- The pair is listed, apart from the object that holds itself, and nothing else is. -/
theorem cycles_exact_ringRegistry :
    (∃ cycle ∈ ringRegistry.cycles, "left" ∈ cycle ∧ "right" ∈ cycle) ∧
    (∃ cycle ∈ ringRegistry.cycles, "loop" ∈ cycle) ∧
    (¬∃ cycle ∈ ringRegistry.cycles, "loop" ∈ cycle ∧ "left" ∈ cycle) ∧
    (¬∃ cycle ∈ ringRegistry.cycles, "outer" ∈ cycle) ∧
    ¬∃ cycle ∈ ringRegistry.cycles, "missing" ∈ cycle := by
  obtain ⟨listed, together, entries, -, -⟩ := cycles_exact ringRegistry
  refine ⟨?_, ?_, ?_, ?_, ?_⟩
  · exact (together "left" "right").mpr
      ⟨.single (mentions_ringRegistry.mpr (by decide)),
        .single (mentions_ringRegistry.mpr (by decide))⟩
  · exact (listed "loop").mpr (.single (mentions_ringRegistry.mpr (by decide)))
  · rw [together]
    rintro ⟨away, -⟩
    have stays : ∀ target, TransGen ringRegistry.Mentions "loop" target → target = "loop" := by
      intro target way
      induction way with
      | single mentions => simpa using mentions_ringRegistry.mp mentions
      | tail _ mentions hypothesis =>
          rw [hypothesis] at mentions
          simpa using mentions_ringRegistry.mp mentions
    exact absurd (stays "left" away) (by decide)
  · rw [listed]
    intro back
    obtain ⟨middle, -, mentions⟩ := TransGen.tail'_iff.mp back
    simpa using mentions_ringRegistry.mp mentions
  · rintro ⟨cycle, isCycle, member⟩
    exact absurd ((entries cycle isCycle).2.2 "missing" member) (by decide)

end Registry
end Schema
end SchemaCompiler
