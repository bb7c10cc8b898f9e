import Mathlib.Data.List.Nodup
import SchemaCompiler.Registry.Graph

/-!
# Steps of a walk

A walk over a graph takes one pending name at a time: it enters the node of the name, or
passes over a name that it has seen or that is no node. No node is entered twice, so a walk
is over after one step for each edge and one for its start, whatever cycles the graph has.
A walk that notes the nodes it leaves takes the same steps, and one more to leave each node.
-/

namespace SchemaCompiler
namespace Order
namespace Graph

section Steps

variable
  {graph : Graph}
  {seen finished pending : List String}
  {steps : List Step}
  {node : String}

@[simp] theorem walk_nil : graph.walk seen [] = seen.reverse := by
  rw [walk]

theorem walk_of_known (known : node ∈ seen ∨ node ∉ graph.nodes) :
    graph.walk seen (node :: pending) = graph.walk seen pending := by
  rw [walk, dif_pos known]

theorem walk_of_new
    (fresh : node ∉ seen)
    (inside : node ∈ graph.nodes) :
    graph.walk seen (node :: pending) =
      graph.walk (node :: seen) ((graph.next node).reverse ++ pending) := by
  rw [walk, dif_neg (not_or.mpr ⟨fresh, not_not_intro inside⟩)]

/-- A walk is over, passes over a name, or enters the node of a name. -/
theorem walk_induct
    (graph : Graph)
    {motive : List String → List String → Prop}
    (nil : ∀ seen, motive seen [])
    (known : ∀ seen node pending, node ∈ seen ∨ node ∉ graph.nodes →
      motive seen pending → motive seen (node :: pending))
    (new : ∀ seen node pending, node ∉ seen → node ∈ graph.nodes →
      motive (node :: seen) ((graph.next node).reverse ++ pending) → motive seen (node :: pending))
    (seen pending : List String) :
    motive seen pending :=
  walk.induct graph motive nil known
    (fun _ _ _ unknown => new _ _ _ (not_or.mp unknown).1 (not_not.mp (not_or.mp unknown).2))
    seen pending

@[simp] theorem finish_nil : graph.finish seen finished [] = finished.reverse := by
  rw [finish]

@[simp] theorem finish_leave :
    graph.finish seen finished (.leave node :: steps) =
      graph.finish seen (node :: finished) steps := by
  rw [finish]

theorem finish_of_known (known : node ∈ seen ∨ node ∉ graph.nodes) :
    graph.finish seen finished (.enter node :: steps) = graph.finish seen finished steps := by
  rw [finish, dif_pos known]

theorem finish_of_new
    (fresh : node ∉ seen)
    (inside : node ∈ graph.nodes) :
    graph.finish seen finished (.enter node :: steps) =
      graph.finish (node :: seen) finished
        ((graph.next node).reverse.map .enter ++ .leave node :: steps) := by
  rw [finish, dif_neg (not_or.mpr ⟨fresh, not_not_intro inside⟩)]

/-- The same for a walk that notes the nodes it leaves. -/
theorem finish_induct
    (graph : Graph)
    {motive : List String → List String → List Step → Prop}
    (nil : ∀ seen finished, motive seen finished [])
    (leave : ∀ seen finished node pending, motive seen (node :: finished) pending →
      motive seen finished (.leave node :: pending))
    (known : ∀ seen finished node pending, node ∈ seen ∨ node ∉ graph.nodes →
      motive seen finished pending → motive seen finished (.enter node :: pending))
    (new : ∀ seen finished node pending, node ∉ seen → node ∈ graph.nodes →
      motive (node :: seen) finished
        ((graph.next node).reverse.map .enter ++ .leave node :: pending) →
      motive seen finished (.enter node :: pending))
    (seen finished : List String)
    (pending : List Step) :
    motive seen finished pending :=
  finish.induct graph motive nil leave known
    (fun _ _ _ _ unknown => new _ _ _ _ (not_or.mp unknown).1 (not_not.mp (not_or.mp unknown).2))
    seen finished pending

end Steps

/-- A walk of so many steps at most: the nodes in the order in which it enters them, or none if
names are left pending. -/
def walkWithin (graph : Graph) : Nat → List String → List String → Option (List String)
  | _, seen, [] => some seen.reverse
  | 0, _, _ :: _ => none
  | steps + 1, seen, node :: pending =>
      if node ∈ seen ∨ node ∉ graph.nodes then walkWithin graph steps seen pending
      else walkWithin graph steps (node :: seen) ((graph.next node).reverse ++ pending)

/-- Number of edges that lead from nodes not seen yet. -/
def edgesAhead (graph : Graph) (seen : List String) : Nat :=
  graph.edges.countP fun edge => edge.1 ∉ seen

theorem length_next (graph : Graph) (node : String) :
    (graph.next node).length = graph.edges.countP fun edge => edge.1 = node := by
  unfold next
  induction graph.edges with
  | nil => rfl
  | cons edge rest hypothesis =>
      obtain ⟨source, target⟩ := edge
      by_cases same : source = node <;> simp [same, hypothesis]

/-- Entering a node leaves the edges that do not lead from it. -/
theorem edgesAhead_cons
    (graph : Graph)
    {seen : List String}
    {node : String}
    (fresh : node ∉ seen) :
    graph.edgesAhead (node :: seen) + (graph.next node).length = graph.edgesAhead seen := by
  rw [length_next, edgesAhead, edgesAhead]
  induction graph.edges with
  | nil => rfl
  | cons edge rest hypothesis =>
      obtain ⟨source, target⟩ := edge
      simp only [List.countP_cons, List.mem_cons, not_or, decide_eq_true_eq] at hypothesis ⊢
      by_cases same : source = node
      · subst same
        simp only [not_true_eq_false, false_and, fresh, not_false_eq_true, if_true, if_false]
        omega
      · simp only [same, not_false_eq_true, true_and, if_false]
        omega

/-- A walk is over after a step for each name that is pending and each edge that is ahead. -/
theorem walkWithin_eq
    (graph : Graph)
    (seen pending : List String)
    {steps : Nat}
    (enough : pending.length + graph.edgesAhead seen ≤ steps) :
    graph.walkWithin steps seen pending = some (graph.walk seen pending) := by
  induction seen, pending using walk_induct graph generalizing steps with
  | nil seen => rw [walkWithin, walk_nil]
  | known seen node pending known hypothesis =>
      rw [List.length_cons] at enough
      obtain ⟨fewer, rfl⟩ : ∃ fewer, steps = fewer + 1 := ⟨steps - 1, by omega⟩
      rw [walkWithin, if_pos known, walk_of_known known]
      exact hypothesis (by omega)
  | new seen node pending fresh inside hypothesis =>
      have fewerAhead := graph.edgesAhead_cons fresh
      rw [List.length_cons] at enough
      obtain ⟨fewer, rfl⟩ : ∃ fewer, steps = fewer + 1 := ⟨steps - 1, by omega⟩
      rw [walkWithin, if_neg (not_or.mpr ⟨fresh, not_not_intro inside⟩), walk_of_new fresh inside]
      refine hypothesis ?_
      rw [List.length_append, List.length_reverse]
      omega

/-- A walk from a node is over after one step for each edge and one for its start. -/
theorem walkWithin_walkFrom (graph : Graph) (start : String) :
    graph.walkWithin (graph.edges.length + 1) [] [start] = some (graph.walkFrom start) := by
  refine graph.walkWithin_eq [] [start] ?_
  have bound : graph.edgesAhead [] ≤ graph.edges.length := List.countP_le_length
  rw [List.length_singleton]
  omega

/-- A walk enters no node twice. -/
theorem nodup_walk
    (graph : Graph)
    (seen pending : List String)
    (distinct : seen.Nodup) :
    (graph.walk seen pending).Nodup := by
  induction seen, pending using walk_induct graph with
  | nil seen =>
      rw [walk_nil]
      exact List.nodup_reverse.mpr distinct
  | known seen node pending known hypothesis =>
      rw [walk_of_known known]
      exact hypothesis distinct
  | new seen node pending fresh inside hypothesis =>
      rw [walk_of_new fresh inside]
      exact hypothesis (List.nodup_cons.mpr ⟨fresh, distinct⟩)

end Graph
end Order
end SchemaCompiler
