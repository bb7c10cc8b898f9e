import SchemaCompiler.Order.Unseen
import SchemaCompiler.Registry.Basic

/-!
# Entries that mention each other

The ids of a registry form a graph with an edge to every id that an entry
mentions. `walkFrom` meets the ids that can be reached, `reachable` collects them,
and `cycles` lists the groups of entries that reach each other.
-/

namespace SchemaCompiler
namespace Order

/-- A finite directed graph over names, its edges in the order they were added. -/
structure Graph where
  nodes : List String
  edges : List (String × String)
deriving Repr

namespace Graph

/-- The nodes that edges of a node lead to, in the order of the edges. -/
def next (graph : Graph) (node : String) : List String :=
  graph.edges.filterMap fun (source, target) => if source = node then some target else none

/-- Depth-first walk from the names of `pending`, the first one next; the result
lists what was seen with the latest name last. -/
def walk (graph : Graph) (seen : List String) : List String → List String
  | [] => seen.reverse
  | node :: pending =>
      if _known : node ∈ seen ∨ node ∉ graph.nodes then walk graph seen pending
      else walk graph (node :: seen) ((graph.next node).reverse ++ pending)
termination_by pending => (unseen graph.nodes seen, pending.length)
decreasing_by
  · exact Prod.Lex.right _ (by simp)
  · have fresh : node ∉ seen := fun member => _known (.inl member)
    have member : node ∈ graph.nodes := Decidable.byContradiction fun absent => _known (.inr absent)
    exact Prod.Lex.left _ _ (unseen_cons_lt member fresh)

/-- The nodes that can be reached from a node, itself included, as a walk meets
them. -/
def walkFrom (graph : Graph) (start : String) : List String := graph.walk [] [start]

/-- The names of the pending steps that enter a node. -/
inductive Step where
  | enter (node : String)
  | leave (node : String)
deriving Repr, DecidableEq

/-- Nodes in the order in which a depth-first walk leaves them. -/
def finish (graph : Graph) (seen finished : List String) : List Step → List String
  | [] => finished.reverse
  | .leave node :: pending => finish graph seen (node :: finished) pending
  | .enter node :: pending =>
      if known : node ∈ seen ∨ node ∉ graph.nodes then finish graph seen finished pending
      else
        finish graph (node :: seen) finished
          ((graph.next node).reverse.map .enter ++ .leave node :: pending)
termination_by pending => (unseen graph.nodes seen, pending.length)
decreasing_by
  · exact Prod.Lex.right _ (by simp)
  · exact Prod.Lex.right _ (by simp)
  · have fresh : node ∉ seen := fun member => known (.inl member)
    have member : node ∈ graph.nodes := Decidable.byContradiction fun absent => known (.inr absent)
    exact Prod.Lex.left _ _ (unseen_cons_lt member fresh)

/-- All nodes in the order in which depth-first walks leave them. -/
def finishingOrder (graph : Graph) : List String := graph.finish [] [] (graph.nodes.map .enter)

/-- The graph with every edge turned round. -/
def reversed (graph : Graph) : Graph where
  nodes := graph.nodes
  edges := graph.edges.map fun (source, target) => (target, source)

/-- The nodes that reach each other with a node, as a walk from it meets them. -/
def component (graph : Graph) (start : String) : List String :=
  (graph.walkFrom start).filter fun node => (graph.walkFrom node).contains start

/-- Components of the nodes that are in none of the earlier ones. -/
def componentsFrom (graph : Graph) (found : List (List String)) :
    List String → List (List String)
  | [] => found
  | node :: rest =>
      if found.any fun component => component.contains node then componentsFrom graph found rest
      else componentsFrom graph (found ++ [graph.component node]) rest

/-- All components, those first that no walk leaves. -/
def components (graph : Graph) : List (List String) :=
  graph.componentsFrom [] graph.reversed.finishingOrder.reverse

/-- The component holds a cycle. -/
def isCyclic (graph : Graph) (component : List String) : Bool :=
  match component with
  | [node] => (graph.next node).contains node
  | [] => false
  | _ => true

end Graph
end Order

namespace Schema
namespace Registry

/-- The ids that an entry mentions. -/
def mentioned (registry : Registry) (id : String) : List String :=
  ((registry.dependenciesOf? id).map Order.NameSet.names).getD []

/-- The graph of mentions; every id stands before those it mentions first. -/
def graph (registry : Registry) : Order.Graph where
  nodes := (registry.ids.flatMap fun id => id :: registry.mentioned id).eraseDups
  edges := registry.ids.flatMap fun id => (registry.mentioned id).map fun target => (id, target)

/-- Groups of entries that mention each other, directly or through others. -/
def cycles (registry : Registry) : List (List String) :=
  registry.graph.components.filter registry.graph.isCyclic

/-- The roots and every id that can be reached from them by mentions. -/
def reachable (registry : Registry) (roots : List String) : Order.NameSet :=
  .ofList (roots ++ roots.flatMap registry.graph.walkFrom)

end Registry
end Schema
end SchemaCompiler
