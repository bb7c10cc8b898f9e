import SchemaCompiler.Name.Standard
import SchemaCompiler.Proofs.Order.Table
import SchemaCompiler.Proofs.Registry.CycleDetection
import SchemaCompiler.Proofs.Registry.ExpandedWalk
import SchemaCompiler.Proofs.Registry.Mentions
import SchemaCompiler.Proofs.Registry.Pruning
import SchemaCompiler.Proofs.Registry.Steps

/-!
# Reachable ids

The ids that are reachable from some roots are the ends of the ways of mentions that start at a
root, one of no steps included, so that a root without an entry reaches itself only. A walk that
leaves references closed closes exactly those that stand in the tree outside other references, so
the dependencies of a tree are the ids that references of its canonical node stand for. They are
on such ways: the walk starts at the entry or at the one that the entry stands for, and what it
finds there is mentioned there.
-/

namespace SchemaCompiler
namespace Schema

open Relation
open SchemaCompiler.Order (NameSet)
open SchemaCompiler.Outcome

/-- A reference of the node stands for the id. -/
def Node.Cites (node : Node) (id : String) : Prop :=
  ∃ reference ∈ node.references, reference.reference? = some id

namespace Registry

/-! ## Ways from the roots -/

section Ways

variable
  {registry : Registry}
  {roots : List String}
  {id : String}

/-- Reachable are the ends of ways of mentions from the roots. -/
theorem mem_reachable_iff_way :
    id ∈ registry.reachable roots ↔ ∃ root ∈ roots, ReflTransGen registry.Mentions root id := by
  rw [mem_reachable_iff, edge_eq_mentions]
  constructor
  · rintro (isRoot | ⟨root, isRoot, -, way⟩)
    · exact ⟨id, isRoot, .refl⟩
    · exact ⟨root, isRoot, way⟩
  · rintro ⟨root, isRoot, way⟩
    rcases reflTransGen_iff_eq_or_transGen.mp way with rfl | steps
    · exact .inl isRoot
    · exact .inr ⟨root, isRoot, mem_nodes_of_mem_ids (mem_ids_of_transGen steps), way⟩

/-- From what is reachable nothing else is. -/
theorem reachable_reachable :
    registry.reachable (registry.reachable roots).names = registry.reachable roots := by
  refine NameSet.ext_mem fun id => ?_
  rw [mem_reachable_iff_way, mem_reachable_iff_way]
  constructor
  · rintro ⟨middle, isReachable, way⟩
    obtain ⟨root, isRoot, start⟩ := mem_reachable_iff_way.mp isReachable
    exact ⟨root, isRoot, start.trans way⟩
  · rintro ⟨root, isRoot, way⟩
    exact ⟨id, mem_reachable_iff_way.mpr ⟨root, isRoot, way⟩, .refl⟩

end Ways

/-! ## Walks that leave references closed -/

section Closed

variable
  {registry : Registry}
  {stack : List String}
  {path : FieldPath}
  {depth : Nat}
  {node canonical root : Node}
  {visits more : List Visit}
  {id : String}

/-- The references are the nodes that a walk leaves closed. -/
def Closes (references : List Node) (visits : List Visit) : Prop :=
  ∀ reference, (∃ visit ∈ visits, visit.isClosed = true ∧ visit.node = reference) ↔
    reference ∈ references

namespace Closes

theorem nil : Closes [] [] := by
  intro reference
  simp

/-- A place that is not closed adds nothing. -/
theorem cons_open
    {references : List Node}
    {visit : Visit}
    (closes : Closes references visits)
    (isOpen : visit.isClosed = false) :
    Closes references (visit :: visits) := by
  intro reference
  simpa [isOpen] using closes reference

theorem append
    {first second : List Node}
    (closesFirst : Closes first visits)
    (closesSecond : Closes second more) :
    Closes (first ++ second) (visits ++ more) := by
  intro reference
  rw [List.mem_append, ← closesFirst, ← closesSecond]
  simp only [List.mem_append, or_and_right, exists_or]

end Closes

/-- A walk from a node closes the node itself if it is a reference, and what it closes below the
node otherwise. -/
theorem closes_of_visit
    [Name.Lettering]
    (below : ∀ visits, registry.descend .closed stack path depth node = .ok visits →
      Closes node.references visits)
    (walked : registry.visit .closed stack path depth node = .ok visits) :
    Closes node.frontier visits := by
  cases named : node.reference? with
  | none =>
      rw [visit_of_plain named, bind_eq_ok_iff] at walked
      obtain ⟨inner, walked, made⟩ := walked
      cases made
      rw [Node.frontier_of_reference?_none named]
      exact (below inner walked).cons_open rfl
  | some id =>
      cases resolved : registry.target path node id with
      | error cause =>
          rw [visit_of_unresolved named resolved] at walked
          cases walked
      | ok canonical =>
          rw [visit_of_closed named resolved] at walked
          cases walked
          rw [Node.frontier_of_reference?_some named]
          intro reference
          simp only [List.mem_singleton, exists_eq_left, true_and]
          exact eq_comm

/-- A walk below a canonical node closes the references below it. -/
theorem closes_of_descend
    [Name.Lettering]
    (walked : registry.descend .closed stack path depth canonical = .ok visits) :
    Closes canonical.references visits := by
  induction canonical using Node.inductOn generalizing path depth visits with
  | scalar declaration facets =>
      rw [descend_scalar] at walked
      cases walked
      rw [Node.references_scalar]
      exact .nil
  | array declaration facets element hypothesis =>
      rw [descend_array] at walked
      rw [Node.references_array]
      exact closes_of_visit (fun _ => hypothesis) walked
  | object declaration facets children hypothesis =>
      rw [descend_object] at walked
      -- children are visited in display order, so the induction is on any list of them
      have ofChildren : ∀ sublist : List Node, (∀ child ∈ sublist, child ∈ children) →
          ∀ visits, registry.visitAll .closed stack path (depth + 1) sublist = .ok visits →
            Closes (sublist.flatMap Node.frontier) visits := by
        intro sublist contained
        induction sublist with
        | nil =>
            intro visits walked
            rw [visitAll_nil] at walked
            cases walked
            exact .nil
        | cons child rest others =>
            intro visits walked
            obtain ⟨isChild, contained⟩ := List.forall_mem_cons.mp contained
            rw [visitAll_cons, bind_eq_ok_iff] at walked
            obtain ⟨first, walkedFirst, walked⟩ := walked
            obtain ⟨later, walkedRest, made⟩ := bind_eq_ok_iff.mp walked
            cases made
            rw [List.flatMap_cons]
            exact (closes_of_visit (fun _ => hypothesis child isChild) walkedFirst).append
              (others contained later walkedRest)
      have closes := ofChildren _ (fun child => (Node.mem_sorted child children).mp) _ walked
      intro reference
      rw [closes reference, Node.mem_flatMap_sorted, Node.references_object]

/-- The dependencies of a tree are the ids that references of its canonical node stand for. -/
theorem mem_dependencies_iff
    [Name.Lettering]
    {ids : NameSet}
    (resolved : registry.resolve root = .ok canonical)
    (collected : registry.dependencies root = .ok ids) :
    id ∈ ids ↔ canonical.Cites id := by
  obtain ⟨visits, walked, members⟩ := dependencies_eq_ok_iff.mp collected
  obtain ⟨opened, resolvedToo, walked⟩ := bind_eq_ok_iff.mp walked
  obtain rfl : canonical = opened :=
    Except.ok.inj (resolved.symm.trans (resolveAt_eq_ok_iff.mp resolvedToo))
  obtain ⟨below, descended, made⟩ := bind_eq_ok_iff.mp walked
  cases made
  have closes : Closes canonical.references
      (⟨FieldPath.root, root, canonical, 0, false⟩ :: below) :=
    (closes_of_descend descended).cons_open rfl
  rw [members]
  constructor
  · rintro ⟨visit, place, isClosed, named⟩
    exact ⟨visit.node, (closes _).mp ⟨visit, place, isClosed, rfl⟩, named⟩
  · rintro ⟨reference, inside, named⟩
    obtain ⟨visit, place, isClosed, rfl⟩ := (closes reference).mpr inside
    exact ⟨visit, place, isClosed, named⟩

/-- The dependencies of a tree are mentioned in its canonical node. -/
theorem mem_mentions_of_dependencies
    [Name.Lettering]
    {ids : NameSet}
    (succeeded : registry.dependencies root = .ok ids)
    (member : id ∈ ids) :
    ∃ canonical, registry.resolve root = .ok canonical ∧ id ∈ canonical.mentions := by
  obtain ⟨visits, walked, -⟩ := bind_eq_ok_iff.mp succeeded
  obtain ⟨canonical, resolved, -⟩ := bind_eq_ok_iff.mp walked
  have resolved := resolveAt_eq_ok_iff.mp resolved
  obtain ⟨reference, below, named⟩ := (mem_dependencies_iff resolved succeeded).mp member
  exact ⟨canonical, resolved, Node.mem_mentions_of_mem_references below named⟩

/-- The dependencies of an entry are at the ends of ways from it. -/
theorem way_of_dependencies
    [Name.Lettering]
    {entry : Node}
    {other : String}
    {dependencies : NameSet}
    (found : registry.get? id = some entry)
    (succeeded : registry.dependencies entry = .ok dependencies)
    (member : other ∈ dependencies) :
    ReflTransGen registry.Mentions id other := by
  have mentions : ∀ {source : String} {node : Node}, registry.get? source = some node →
      ∀ {target : String}, target ∈ node.mentions → registry.Mentions source target :=
    fun isEntry _ mentioned => mem_mentioned_iff_mentions.mp
      (mem_mentioned_iff.mpr ⟨_, isEntry, mentioned⟩)
  obtain ⟨canonical, resolved, mentioned⟩ := mem_mentions_of_dependencies succeeded member
  rw [resolve, resolveAt] at resolved
  split at resolved
  next plain =>
    cases resolved
    exact .single (mentions found mentioned)
  next next named =>
    obtain ⟨opened, -, -⟩ := target_eq_ok_iff.mp resolved
    exact .tail (.single (mentions found (Node.mem_mentions_of_reference? named)))
      (mentions opened mentioned)

end Closed

/-! ## The closure -/

/-- What is reachable from some roots is what ways of mentions lead to from them. It is found in
at most one step for every edge and root, whatever cycles there are, it grows with the roots, and
nothing more is reachable from it. The dependencies of an entry are reachable from its id. -/
theorem reachable_is_closure [Name.Lettering] (registry : Registry) :
    (∀ roots id, id ∈ registry.reachable roots ↔
      ∃ root ∈ roots, ReflTransGen registry.Mentions root id) ∧
    (∀ roots : List String, ∃ walks,
      roots.mapM (fun root =>
        registry.graph.walkWithin (registry.graph.edges.length + 1) [] [root]) = some walks ∧
      registry.reachable roots = .ofList (roots ++ walks.flatten)) ∧
    (∀ roots more : List String, roots ⊆ more →
      ∀ id ∈ registry.reachable roots, id ∈ registry.reachable more) ∧
    (∀ roots, registry.reachable (registry.reachable roots).names = registry.reachable roots) ∧
    ∀ id entry dependencies,
      registry.get? id = some entry →
      registry.dependencies entry = .ok dependencies →
      ∀ other ∈ dependencies, other ∈ registry.reachable [id] := by
  refine ⟨fun _ _ => mem_reachable_iff_way, ?_, ?_, fun _ => reachable_reachable, ?_⟩
  · intro roots
    refine ⟨roots.map registry.graph.walkFrom, ?_, by rw [reachable, List.flatMap_def]⟩
    simp only [Order.Graph.walkWithin_walkFrom]
    exact List.mapM_pure
  · intro roots more contained id isReachable
    obtain ⟨root, isRoot, way⟩ := mem_reachable_iff_way.mp isReachable
    exact mem_reachable_iff_way.mpr ⟨root, contained isRoot, way⟩
  · intro id entry dependencies found succeeded other member
    exact mem_reachable_iff_way.mpr
      ⟨id, List.mem_singleton.mpr rfl, way_of_dependencies found succeeded member⟩

/-- Two objects that hold each other, an entry that stands for one of them, and a mention of an
id without entry. -/
def relayRegistry : Registry :=
  ⟨.ofList [
    ("left", .object { name := "left" } {} [pointer "other" "right"]),
    ("right", .object { name := "right" } {} [pointer "other" "left", pointer "gone" "missing"]),
    ("relay", pointer "relay" "left")]⟩

theorem dependencies_relayRegistry :
    relayRegistry.dependencies (pointer "relay" "left") = .ok (.ofList ["right"]) := by
  have opened : relayRegistry.resolveAt FieldPath.root (pointer "relay" "left") =
      .ok (.object { name := "left" } {} [pointer "other" "right"]) := rfl
  have named : (pointer "other" "right").reference? = some "right" := rfl
  have resolved : ∀ path, relayRegistry.target path (pointer "other" "right") "right" =
      .ok (.object { name := "right" } {} [pointer "other" "left", pointer "gone" "missing"]) :=
    fun _ => rfl
  have sorted : Node.sorted [pointer "other" "right"] = [pointer "other" "right"] :=
    List.mergeSort_singleton _
  rw [dependencies, collect, opened]
  simp only [ok_bind, descend_object, sorted, visitAll_cons, visitAll_nil]
  rw [visit_of_closed named (resolved _)]
  rfl

/-- The entry that stands for another depends on what the other one mentions, and reaches it on
the way through the other. -/
theorem reachable_is_closure_relayRegistry :
    relayRegistry.dependencies (pointer "relay" "left") = .ok (.ofList ["right"]) ∧
    "right" ∈ relayRegistry.reachable ["relay"] ∧
    "missing" ∈ relayRegistry.reachable ["relay", "relay"] ∧
    "left" ∉ relayRegistry.reachable ["missing"] := by
  have mentions : ∀ {source target : String}, target ∈ relayRegistry.mentioned source →
      relayRegistry.Mentions source target := mem_mentioned_iff_mentions.mp
  obtain ⟨isClosure, -, grows, -, covers⟩ := reachable_is_closure relayRegistry
  refine ⟨dependencies_relayRegistry, ?_, ?_, ?_⟩
  · exact covers "relay" _ _ rfl dependencies_relayRegistry "right" (by decide)
  · refine grows ["relay"] _ (by simp) "missing" ((isClosure _ _).mpr ⟨"relay", by simp, ?_⟩)
    exact .head (mentions (by decide : "left" ∈ relayRegistry.mentioned "relay"))
      (.head (mentions (by decide : "right" ∈ relayRegistry.mentioned "left"))
        (.single (mentions (by decide))))
  · rw [isClosure]
    rintro ⟨root, isRoot, way⟩
    obtain rfl : root = "missing" := List.mem_singleton.mp isRoot
    rcases way.cases_head with same | ⟨middle, mention, -⟩
    · exact absurd same (by decide)
    · exact absurd mention.mem_ids (by decide)

end Registry
end Schema
end SchemaCompiler
