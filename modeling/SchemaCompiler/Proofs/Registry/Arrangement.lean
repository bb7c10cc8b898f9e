import SchemaCompiler.Proofs.Registry.ExpandedWalk
import SchemaCompiler.Proofs.Schema.Arrangement
import SchemaCompiler.Registry.Graph
import SchemaCompiler.Usage.Exposure

/-!
# Arranged registries

A registry with arranged entries answers as the registry itself does: references resolve to
the arranged forms of the same entries, a walk meets arranged forms of the same nodes, and the
graph of mentions is the same.
-/

namespace SchemaCompiler
namespace Schema

open SchemaCompiler.Order (NameSet)
open SchemaCompiler.Outcome

variable [Name.Lettering]

/-- A place of a walk with its nodes arranged. -/
def Visit.arranged (visit : Visit) : Visit :=
  { visit with node := visit.node.arranged, canonical := visit.canonical.arranged }

namespace Registry

/-- The registry with its entries arranged. -/
def arranged (registry : Registry) : Registry :=
  ⟨registry.entries.mapValues fun _ => Node.arranged⟩

variable
  (registry : Registry)
  (path : FieldPath)
  (node : Node)
  (id : String)

@[simp] theorem get?_arranged :
    registry.arranged.get? id = (registry.get? id).map Node.arranged := by
  have mapped : ∀ entries : List (String × Node),
      (entries.map fun entry => (entry.1, entry.2.arranged)).lookup id =
        (entries.lookup id).map Node.arranged := by
    intro entries
    induction entries with
    | nil => rfl
    | cons entry rest hypothesis =>
        rw [List.map_cons, List.lookup_cons, List.lookup_cons, hypothesis]
        cases id == entry.1 <;> rfl
  exact mapped registry.entries.entries

@[simp] theorem ids_arranged : registry.arranged.ids = registry.ids := by
  simp [ids, arranged, Order.Table.names, Order.Table.mapValues]

/-! ## References -/

@[simp] theorem target_arranged :
    registry.arranged.target path node.arranged id =
      (registry.target path node id).map Node.arranged := by
  unfold target
  rw [get?_arranged]
  cases registry.get? id with
  | none => rfl
  | some entry =>
      simp only [Option.map_some, Node.kind_arranged, Node.reference?_arranged]
      by_cases differs : entry.kind ≠ node.kind
      · rw [if_pos differs, if_pos differs]
        rfl
      · rw [if_neg differs, if_neg differs]
        cases entry.reference? <;> rfl

@[simp] theorem resolveAt_arranged :
    registry.arranged.resolveAt path node.arranged =
      (registry.resolveAt path node).map Node.arranged := by
  unfold resolveAt
  rw [Node.reference?_arranged]
  cases node.reference? with
  | none => rfl
  | some id => exact target_arranged registry path node id

@[simp] theorem resolve_arranged :
    registry.arranged.resolve node.arranged = (registry.resolve node).map Node.arranged := by
  rw [resolve, Node.name_arranged, resolveAt_arranged, resolve]

@[simp] theorem root_arranged :
    registry.arranged.root id = (registry.root id).map Node.arranged := by
  unfold root
  rw [get?_arranged]
  cases registry.get? id <;> rfl

/-! ## Walks -/

/-- A walk through an arranged tree meets the arranged forms of what it met before. -/
theorem visit_arranged (registry : Registry) :
    (∀ stack path depth node,
      registry.arranged.visit .expanded stack path depth node.arranged =
        (registry.visit .expanded stack path depth node).map (List.map Visit.arranged)) ∧
    ∀ stack path depth node,
      registry.arranged.descend .expanded stack path depth node.arranged =
        (registry.descend .expanded stack path depth node).map (List.map Visit.arranged) := by
  apply expanded_induct registry fun stack path depth children =>
    registry.arranged.visitAll .expanded stack path depth (children.map Node.arranged) =
      (registry.visitAll .expanded stack path depth children).map (List.map Visit.arranged)
  case plain =>
    intro stack path depth node plain below
    rw [visit_of_plain plain, visit_of_plain (by rwa [Node.reference?_arranged]), below]
    cases registry.descend .expanded stack path depth node <;> rfl
  case unresolved =>
    intro stack path depth node id cause named failed
    have failedToo : registry.arranged.target path node.arranged id = .error cause := by
      rw [target_arranged, failed]
      rfl
    rw [visit_of_unresolved named failed,
      visit_of_unresolved (by rwa [Node.reference?_arranged]) failedToo]
    rfl
  case inside =>
    intro stack path depth node id canonical named resolved inside
    have resolvedToo : registry.arranged.target path node.arranged id =
        .ok canonical.arranged := by
      rw [target_arranged, resolved]
      rfl
    rw [visit_of_inside named resolved inside,
      visit_of_inside (by rwa [Node.reference?_arranged]) resolvedToo inside]
    rfl
  case opened =>
    intro stack path depth node id canonical named resolved outside below
    have resolvedToo : registry.arranged.target path node.arranged id =
        .ok canonical.arranged := by
      rw [target_arranged, resolved]
      rfl
    rw [visit_of_opened named resolved outside,
      visit_of_opened (by rwa [Node.reference?_arranged]) resolvedToo outside, below]
    cases registry.descend .expanded (id :: stack) path depth canonical <;> rfl
  case scalar =>
    intro stack path depth declaration facets
    rw [Node.arranged_scalar, descend_scalar, descend_scalar]
    rfl
  case array =>
    intro stack path depth declaration facets element hypothesis
    rw [Node.arranged_array, descend_array, descend_array, hypothesis]
  case object =>
    intro stack path depth declaration facets children hypothesis
    rw [Node.arranged_object, descend_object, descend_object, Node.sorted_sorted,
      Node.sorted_map_arranged, hypothesis]
  case nil =>
    intro stack path depth
    rw [List.map_nil, visitAll_nil, visitAll_nil]
    rfl
  case cons =>
    intro stack path depth child rest first others
    rw [List.map_cons, visitAll_cons, visitAll_cons, Node.name_arranged, first, others]
    cases registry.visit .expanded stack (path.child child.name) depth child with
    | error cause => rfl
    | ok visits =>
        cases registry.visitAll .expanded stack path depth rest with
        | error cause => rfl
        | ok later => simp [Except.map]

@[simp] theorem collect_arranged :
    registry.arranged.collect .expanded node.arranged =
      (registry.collect .expanded node).map (List.map Visit.arranged) := by
  unfold collect
  rw [resolveAt_arranged, Node.reference?_arranged]
  cases registry.resolveAt FieldPath.root node with
  | error cause => rfl
  | ok canonical =>
      rw [Except.map, ok_bind, ok_bind, (visit_arranged registry).2]
      cases registry.descend .expanded node.reference?.toList FieldPath.root 0 canonical <;> rfl

/-! ## Mentions -/

@[simp] theorem mentioned_arranged : registry.arranged.mentioned id = registry.mentioned id := by
  unfold mentioned dependenciesOf?
  rw [get?_arranged, Option.map_map, Option.map_map, Option.map_map]
  congr 2
  funext node
  simp

@[simp] theorem graph_arranged : registry.arranged.graph = registry.graph := by
  simp [graph]

@[simp] theorem cycles_arranged : registry.arranged.cycles = registry.cycles := by
  simp [cycles]

@[simp] theorem reachable_arranged (roots : List String) :
    registry.arranged.reachable roots = registry.reachable roots := by
  simp [reachable]

end Registry

/-! ## Names that travel -/

/-- The object of an arranged node, if it is one, has the same names. -/
theorem ofList_names_arranged (node : Node) :
    NameSet.ofList ((node.arranged.object?.map Object.names).getD []) =
      NameSet.ofList ((node.object?.map Object.names).getD []) := by
  rw [Node.object?_arranged]
  cases node.object? with
  | none => rfl
  | some object => exact NameSet.ofList_congr fun name => Object.mem_names_arranged object name

/-- An arranged payload has the names of the payload. -/
theorem topLevelNames_arranged
    (registry : Registry)
    (node : Node) :
    (topLevelNames registry.arranged node.arranged).map NameSet.ofList =
      (topLevelNames registry node).map NameSet.ofList := by
  unfold topLevelNames
  rw [Registry.resolve_arranged]
  cases registry.resolve node with
  | error cause => rfl
  | ok canonical =>
      rw [Except.map, ok_bind, ok_bind, Node.element?_arranged]
      cases canonical.element? with
      | none => exact congrArg Except.ok (ofList_names_arranged canonical)
      | some element =>
          dsimp only [Option.map_some]
          rw [Registry.resolve_arranged]
          cases registry.resolve element with
          | error cause => rfl
          | ok inner => exact congrArg Except.ok (ofList_names_arranged inner)

end Schema
end SchemaCompiler
