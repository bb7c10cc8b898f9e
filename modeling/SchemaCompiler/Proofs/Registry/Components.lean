import Mathlib.Logic.Relation
import SchemaCompiler.Proofs.Registry.Steps

/-!
# Walks and components of a graph

A walk from a node lists exactly the nodes that can be reached from it. So a
component lists the nodes that reach each other, every node lies in one, and those of
the nodes that lead back to themselves hold a cycle.
-/

namespace SchemaCompiler
namespace Order

open Relation

namespace Graph

/-- An edge leads from one node to another. -/
def Edge (graph : Graph) (source target : String) : Prop :=
  target ∈ graph.next source ∧ target ∈ graph.nodes

theorem mem_next
    {graph : Graph}
    {source target : String} :
    target ∈ graph.next source ↔ (source, target) ∈ graph.edges := by
  unfold next
  rw [List.mem_filterMap]
  constructor
  · rintro ⟨⟨first, second⟩, member, chosen⟩
    simp only [Option.ite_none_right_eq_some, Option.some.injEq] at chosen
    obtain ⟨rfl, rfl⟩ := chosen
    exact member
  · intro member
    exact ⟨(source, target), member, if_pos rfl⟩

/-- What a walk lists is seen already, pending, or reached from a pending name: it has
every property that these have and edges keep. -/
theorem forall_mem_walk
    {graph : Graph}
    (Good : String → Prop)
    (kept : ∀ source target, Good source → graph.Edge source target → Good target)
    (seen pending : List String)
    (seenGood : ∀ node ∈ seen, Good node)
    (pendingGood : ∀ node ∈ pending, node ∈ graph.nodes → Good node) :
    ∀ node ∈ graph.walk seen pending, Good node := by
  induction seen, pending using walk_induct graph with
  | nil seen => simpa using seenGood
  | known seen node pending known hypothesis =>
      rw [walk_of_known known]
      apply hypothesis seenGood
      intro other member
      exact pendingGood other (List.mem_cons_of_mem node member)
  | new seen node pending fresh inside hypothesis =>
      have good : Good node := pendingGood node List.mem_cons_self inside
      rw [walk_of_new fresh inside]
      apply hypothesis
      · intro other member
        rcases List.mem_cons.mp member with rfl | earlier
        · exact good
        · exact seenGood other earlier
      · intro other member otherInside
        rcases List.mem_append.mp member with follower | later
        · exact kept node other good ⟨List.mem_reverse.mp follower, otherInside⟩
        · exact pendingGood other (List.mem_cons_of_mem node later) otherInside

/-- A walk lists all that is seen or pending, and with a node all that its edges lead
to. -/
theorem walk_closed
    (graph : Graph)
    (seen pending : List String)
    (closed : ∀ source ∈ seen, ∀ target, graph.Edge source target →
      target ∈ seen ∨ target ∈ pending) :
    (∀ node ∈ seen, node ∈ graph.walk seen pending) ∧
      (∀ node ∈ pending, node ∈ graph.nodes → node ∈ graph.walk seen pending) ∧
      ∀ source ∈ graph.walk seen pending, ∀ target, graph.Edge source target →
        target ∈ graph.walk seen pending := by
  induction seen, pending using walk_induct graph with
  | nil seen => simpa using closed
  | known seen node pending known hypothesis =>
      have restClosed : ∀ source ∈ seen, ∀ target, graph.Edge source target →
          target ∈ seen ∨ target ∈ pending := by
        intro source member target edge
        rcases closed source member target edge with inSeen | inPending
        · exact .inl inSeen
        · rcases List.mem_cons.mp inPending with rfl | later
          · exact .inl (known.resolve_right fun absent => absent edge.2)
          · exact .inr later
      obtain ⟨keepsSeen, keepsPending, keepsEdges⟩ := hypothesis restClosed
      rw [walk_of_known known]
      refine ⟨keepsSeen, ?_, keepsEdges⟩
      intro other member inside
      rcases List.mem_cons.mp member with rfl | later
      · exact keepsSeen other (known.resolve_right fun absent => absent inside)
      · exact keepsPending other later inside
  | new seen node pending fresh inside hypothesis =>
      have restClosed : ∀ source ∈ node :: seen, ∀ target, graph.Edge source target →
          target ∈ node :: seen ∨ target ∈ (graph.next node).reverse ++ pending := by
        intro source member target edge
        rcases List.mem_cons.mp member with rfl | earlier
        · exact .inr (List.mem_append_left _ (List.mem_reverse.mpr edge.1))
        · rcases closed source earlier target edge with inSeen | inPending
          · exact .inl (List.mem_cons_of_mem node inSeen)
          · rcases List.mem_cons.mp inPending with rfl | later
            · exact .inl List.mem_cons_self
            · exact .inr (List.mem_append_right _ later)
      obtain ⟨keepsSeen, keepsPending, keepsEdges⟩ := hypothesis restClosed
      rw [walk_of_new fresh inside]
      refine ⟨fun other member => keepsSeen other (List.mem_cons_of_mem node member), ?_,
        keepsEdges⟩
      intro other member inside
      rcases List.mem_cons.mp member with rfl | later
      · exact keepsSeen other List.mem_cons_self
      · exact keepsPending other (List.mem_append_right _ later) inside

/-- A walk from a node lists what can be reached from it. -/
theorem mem_walkFrom_iff
    {graph : Graph}
    {start node : String} :
    node ∈ graph.walkFrom start ↔
      start ∈ graph.nodes ∧ ReflTransGen graph.Edge start node := by
  constructor
  · apply forall_mem_walk fun node =>
      start ∈ graph.nodes ∧ ReflTransGen graph.Edge start node
    · rintro source target ⟨inside, way⟩ edge
      exact ⟨inside, way.tail edge⟩
    · simp
    · intro other member inside
      obtain rfl : other = start := List.mem_singleton.mp member
      exact ⟨inside, .refl⟩
  · rintro ⟨inside, way⟩
    obtain ⟨_, keepsPending, keepsEdges⟩ := graph.walk_closed [] [start] (by simp)
    induction way with
    | refl => exact keepsPending start List.mem_cons_self inside
    | tail _ edge hypothesis => exact keepsEdges _ hypothesis _ edge

/-- A component lists the nodes that reach its first one and are reached from it. -/
theorem mem_component_iff
    {graph : Graph}
    {start node : String} :
    node ∈ graph.component start ↔
      start ∈ graph.nodes ∧ node ∈ graph.nodes ∧
        ReflTransGen graph.Edge start node ∧ ReflTransGen graph.Edge node start := by
  unfold component
  simp only [List.mem_filter, List.contains_iff_mem, mem_walkFrom_iff]
  constructor
  · rintro ⟨⟨startInside, way⟩, nodeInside, back⟩
    exact ⟨startInside, nodeInside, way, back⟩
  · rintro ⟨startInside, nodeInside, way, back⟩
    exact ⟨⟨startInside, way⟩, nodeInside, back⟩

/-- A depth-first walk leaves every node that it enters. -/
theorem mem_finish
    (graph : Graph)
    (seen finished : List String)
    (pending : List Step)
    (entered : ∀ node ∈ seen, node ∈ finished ∨ .leave node ∈ pending) :
    ∀ node, node ∈ finished ∨ .leave node ∈ pending ∨
        .enter node ∈ pending ∧ node ∈ graph.nodes →
      node ∈ graph.finish seen finished pending := by
  induction seen, finished, pending using finish_induct graph with
  | nil seen finished => simp
  | leave seen finished left pending hypothesis =>
      intro node place
      rw [finish_leave]
      apply hypothesis
      · intro other member
        have := entered other member
        grind
      · grind
  | known seen finished entering pending known hypothesis =>
      intro node place
      rw [finish_of_known known]
      apply hypothesis
      · intro other member
        have := entered other member
        grind
      · rcases place with done | leaving | ⟨entry, inside⟩
        · exact .inl done
        · exact .inr (.inl (by simpa using leaving))
        · rcases List.mem_cons.mp entry with same | later
          · obtain rfl : node = entering := by simpa using same
            have := entered node (known.resolve_right fun absent => absent inside)
            grind
          · exact .inr (.inr ⟨later, inside⟩)
  | new seen finished entering pending fresh inside hypothesis =>
      intro node place
      rw [finish_of_new fresh inside]
      apply hypothesis
      · intro other member
        have := entered other
        grind
      · grind

/-- Every node has its place in the order in which walks leave the nodes. -/
theorem mem_finishingOrder
    (graph : Graph)
    {node : String}
    (inside : node ∈ graph.nodes) :
    node ∈ graph.finishingOrder := by
  apply mem_finish graph [] [] (graph.nodes.map .enter) (by simp)
  exact .inr (.inr ⟨List.mem_map_of_mem inside, inside⟩)

/-- The components that are found cover the names searched, and each is that of a
name. -/
theorem componentsFrom_spec
    (graph : Graph)
    (found : List (List String))
    (names : List String)
    (sound : ∀ component ∈ found, ∃ start, component = graph.component start) :
    (∀ component ∈ graph.componentsFrom found names,
      ∃ start, component = graph.component start) ∧
    (∀ component ∈ found, component ∈ graph.componentsFrom found names) ∧
    ∀ node ∈ names, node ∈ graph.nodes →
      ∃ component ∈ graph.componentsFrom found names, node ∈ component := by
  induction names generalizing found with
  | nil => exact ⟨by simpa [componentsFrom] using sound, by simp [componentsFrom], by simp⟩
  | cons first rest hypothesis =>
      rw [componentsFrom]
      split
      next covered =>
        obtain ⟨restSound, restKept, restCovered⟩ := hypothesis found sound
        refine ⟨restSound, restKept, ?_⟩
        intro node member inside
        rcases List.mem_cons.mp member with rfl | later
        · obtain ⟨component, known, holds⟩ := List.any_eq_true.mp covered
          exact ⟨component, restKept component known, List.contains_iff_mem.mp holds⟩
        · exact restCovered node later inside
      next =>
        have grown : ∀ component ∈ found ++ [graph.component first],
            ∃ start, component = graph.component start := by
          intro component member
          rcases List.mem_append.mp member with known | new
          · exact sound component known
          · exact ⟨first, List.mem_singleton.mp new⟩
        obtain ⟨restSound, restKept, restCovered⟩ := hypothesis _ grown
        refine ⟨restSound, fun component known => restKept component (by simp [known]), ?_⟩
        intro node member inside
        rcases List.mem_cons.mp member with rfl | later
        · refine ⟨graph.component node, restKept _ (by simp), ?_⟩
          exact mem_component_iff.mpr ⟨inside, inside, .refl, .refl⟩
        · exact restCovered node later inside

/-- Every node lies in a component. -/
theorem exists_component
    {graph : Graph}
    {node : String}
    (inside : node ∈ graph.nodes) :
    ∃ component ∈ graph.components, node ∈ component := by
  obtain ⟨_, _, covered⟩ :=
    graph.componentsFrom_spec [] graph.reversed.finishingOrder.reverse (by simp)
  have listed : node ∈ graph.reversed.finishingOrder :=
    mem_finishingOrder graph.reversed inside
  exact covered node (List.mem_reverse.mpr listed) inside

/-- A component is closed under going round: what a member reaches and what reaches the
member again lies in it. -/
theorem mem_component_of_round
    {graph : Graph}
    {component : List String}
    {node other : String}
    (listed : component ∈ graph.components)
    (member : node ∈ component)
    (inside : other ∈ graph.nodes)
    (way : ReflTransGen graph.Edge node other)
    (back : ReflTransGen graph.Edge other node) :
    other ∈ component := by
  obtain ⟨sound, _, _⟩ :=
    graph.componentsFrom_spec [] graph.reversed.finishingOrder.reverse (by simp)
  obtain ⟨start, rfl⟩ := sound component listed
  obtain ⟨startInside, _, there, here⟩ := mem_component_iff.mp member
  exact mem_component_iff.mpr ⟨startInside, inside, there.trans way, back.trans here⟩

/-- The component of a node that leads back to itself holds a cycle. -/
theorem isCyclic_of_transGen
    {graph : Graph}
    {component : List String}
    {node : String}
    (listed : component ∈ graph.components)
    (member : node ∈ component)
    (back : TransGen graph.Edge node node) :
    graph.isCyclic component := by
  obtain ⟨next, edge, rest⟩ := TransGen.head'_iff.mp back
  have nextMember : next ∈ component :=
    mem_component_of_round listed member edge.2 (.single edge) rest
  match component, member, nextMember with
  | [only], member, nextMember =>
      obtain rfl : node = only := List.mem_singleton.mp member
      obtain rfl : next = node := List.mem_singleton.mp nextMember
      exact List.contains_iff_mem.mpr edge.1
  | _ :: _ :: _, _, _ => rfl

end Graph
end Order

namespace Schema
namespace Registry

open Relation
open SchemaCompiler.Order (NameSet)

theorem mem_mentioned_iff
    {registry : Registry}
    {id other : String} :
    other ∈ registry.mentioned id ↔
      ∃ entry, registry.get? id = some entry ∧ other ∈ entry.mentions := by
  unfold mentioned dependenciesOf?
  cases registry.get? id with
  | none => simp
  | some entry =>
      have members : other ∈ entry.referenceIds.names ↔ other ∈ entry.mentions :=
        NameSet.mem_ofList entry.mentions other
      simpa using members

/-- An entry that mentions an id has an edge to it in the graph of mentions. -/
theorem edge_of_mentioned
    {registry : Registry}
    {id other : String}
    (registered : id ∈ registry.ids)
    (mentions : other ∈ registry.mentioned id) :
    registry.graph.Edge id other := by
  constructor
  · refine Order.Graph.mem_next.mpr (List.mem_flatMap.mpr ⟨id, registered, ?_⟩)
    exact List.mem_map_of_mem mentions
  · refine List.mem_eraseDups.mpr (List.mem_flatMap.mpr ⟨id, registered, ?_⟩)
    exact List.mem_cons_of_mem id mentions

/-- Every entry is a node of the graph of mentions. -/
theorem mem_nodes_of_mem_ids
    {registry : Registry}
    {id : String}
    (registered : id ∈ registry.ids) :
    id ∈ registry.graph.nodes :=
  List.mem_eraseDups.mpr (List.mem_flatMap.mpr ⟨id, registered, List.mem_cons_self⟩)

/-- An entry that leads back to itself by mentions belongs to one of the cycles. -/
theorem exists_cycle_of_transGen
    {registry : Registry}
    {id : String}
    (registered : id ∈ registry.ids)
    (back : TransGen registry.graph.Edge id id) :
    ∃ cycle ∈ registry.cycles, id ∈ cycle := by
  obtain ⟨component, listed, member⟩ :=
    Order.Graph.exists_component (mem_nodes_of_mem_ids registered)
  refine ⟨component, List.mem_filter.mpr ⟨listed, ?_⟩, member⟩
  exact Order.Graph.isCyclic_of_transGen listed member back

/-- The entries of known ids mention known ids only. -/
def Closed (registry : Registry) (known : String → Prop) : Prop :=
  ∀ id, known id → ∀ other ∈ registry.mentioned id, known other

/-- What is reachable is a root or at the end of a way from one. -/
theorem mem_reachable_iff
    {registry : Registry}
    {roots : List String}
    {id : String} :
    id ∈ registry.reachable roots ↔
      id ∈ roots ∨
        ∃ root ∈ roots, root ∈ registry.graph.nodes ∧ ReflTransGen registry.graph.Edge root id := by
  simp only [reachable, NameSet.mem_ofList, List.mem_append, List.mem_flatMap,
    Order.Graph.mem_walkFrom_iff]

/-- With an entry, everything that it mentions is reachable. -/
theorem closed_reachable
    (registry : Registry)
    (roots : List String) :
    registry.Closed (· ∈ registry.reachable roots) := by
  intro id isReachable other mentions
  obtain ⟨entry, found, -⟩ := mem_mentioned_iff.mp mentions
  have registered : id ∈ registry.ids := Order.Table.mem_names_of_get? found
  have edge := edge_of_mentioned registered mentions
  rw [mem_reachable_iff] at isReachable ⊢
  rcases isReachable with isRoot | ⟨root, isRoot, isNode, way⟩
  · exact .inr ⟨id, isRoot, mem_nodes_of_mem_ids registered, .single edge⟩
  · exact .inr ⟨root, isRoot, isNode, way.tail edge⟩

end Registry
end Schema
end SchemaCompiler
