import SchemaCompiler.Proofs.Order.Table
import SchemaCompiler.Proofs.Registry.CycleDetection
import SchemaCompiler.Proofs.Registry.ExpandedWalk

/-!
# Entries written out in place

A reference to an object may stay closed, while any other entry is written out wherever a
reference to it stands. The entries of the latter sort are a registry of their own: what a
tree meets through them it meets in the whole registry, and an id that leads back to itself
through them is never that of an object. A walk that expands every reference goes all these
ways, so nothing on them fails where the walk comes through.
-/

namespace SchemaCompiler
namespace Schema

open Relation
open Outcome

/-- The node as if it stood for no entry. -/
def Node.unreferenced (node : Node) : Node :=
  node.withDeclaration { node.declaration with reference := none }

/-- What is met first in a node that stands for no entry is below it. -/
theorem Node.frontier_unreferenced (node : Node) :
    node.unreferenced.frontier = node.references := by
  rw [frontier_of_reference?_none (by cases node <;> rfl)]
  cases node with
  | scalar | array | object => simp [unreferenced, withDeclaration]

namespace Registry

variable
  {registry : Registry}
  {path : FieldPath}
  {node canonical root : Node}
  {id : String}

/-- The entries that are written out in place of the references to them. -/
def inlined (registry : Registry) : Registry :=
  ⟨registry.entries.keep fun entry => !entry.isObject⟩

theorem get?_inlined_eq_some_iff {entry : Node} :
    registry.inlined.get? id = some entry ↔
      registry.get? id = some entry ∧ entry.isObject = false := by
  unfold get? inlined
  rw [Order.Table.get?_keep_eq_some_iff, Bool.not_eq_true']

/-- A reference is written out exactly if it resolves to an entry that is no object. -/
theorem target_inlined_eq_ok_iff :
    registry.inlined.target path node id = .ok canonical ↔
      registry.target path node id = .ok canonical ∧ canonical.isObject = false := by
  rw [target_eq_ok_iff, target_eq_ok_iff, get?_inlined_eq_some_iff]
  tauto

theorem resolve_of_inlined
    (resolved : registry.inlined.resolve node = .ok canonical) :
    registry.resolve node = .ok canonical := by
  unfold resolve resolveAt at resolved ⊢
  cases named : node.reference? with
  | none =>
      rw [named] at resolved
      exact resolved
  | some id =>
      rw [named] at resolved
      exact (target_inlined_eq_ok_iff.mp resolved).1

/-- A node that stands for no object is written out. -/
theorem resolve_inlined_of_plain
    (resolved : registry.resolve node = .ok canonical)
    (plain : canonical.isObject = false) :
    registry.inlined.resolve node = .ok canonical := by
  unfold resolve resolveAt at resolved ⊢
  cases named : node.reference? with
  | none =>
      rw [named] at resolved
      exact resolved
  | some id =>
      rw [named] at resolved
      exact target_inlined_eq_ok_iff.mpr ⟨resolved, plain⟩

/-- A way through the entries written out is a way through the registry. -/
theorem Leads.of_inlined
    {source target : String}
    (leads : registry.inlined.Leads source target) :
    registry.Leads source target := by
  obtain ⟨entry, found, below⟩ := leads
  exact ⟨entry, (get?_inlined_eq_some_iff.mp found).1, below⟩

/-- What is met through the entries written out is met in the registry. -/
theorem Meets.of_inlined
    {reference : Node}
    (met : registry.inlined.Meets root reference) :
    registry.Meets root reference := by
  induction met with
  | start member => exact .start member
  | through _ named resolved member hypothesis =>
      exact .through hypothesis named (resolve_of_inlined resolved) member

/-- If all that a node meets first is met, so is what stands below its canonical node. -/
theorem Meets.of_resolve
    {reference : Node}
    (met : ∀ first ∈ node.frontier, registry.Meets root first)
    (resolved : registry.resolve node = .ok canonical)
    (member : reference ∈ canonical.references) :
    registry.Meets root reference := by
  cases named : node.reference? with
  | some id =>
      exact .through (met node (Node.mem_frontier_of_reference? named)) named resolved member
  | none =>
      rw [resolve, resolveAt_of_reference?_none registry _ named] at resolved
      obtain rfl : node = canonical := Except.ok.inj resolved
      rw [Node.frontier_of_reference?_none named] at met
      exact met reference member

/-- What is met from a tree depends on the references that are met first. -/
theorem Meets.of_frontier
    {other reference : Node}
    (met : registry.Meets root reference)
    (same : ∀ first ∈ root.frontier, first ∈ other.frontier) :
    registry.Meets other reference := by
  induction met with
  | start member => exact .start (same _ member)
  | through _ named resolved member hypothesis => exact .through hypothesis named resolved member

/-- An id that leads on through the entries written out is not that of an object. -/
theorem exists_entry_of_transGen_inlined
    {target : String}
    (way : TransGen registry.inlined.Leads id target) :
    ∃ entry, registry.get? id = some entry ∧ entry.isObject = false := by
  obtain ⟨next, ⟨entry, found, _⟩, _⟩ := TransGen.head'_iff.mp way
  exact ⟨entry, get?_inlined_eq_some_iff.mp found⟩

/-- A reference to an object leads nowhere through the entries written out. -/
theorem Clear.of_object
    {stack : List String}
    (named : node.reference? = some id)
    (found : registry.get? id = some canonical)
    (isObject : canonical.isObject = true)
    (outside : id ∉ stack) :
    registry.inlined.Clear stack node := by
  have stuck : ∀ target, ¬TransGen registry.inlined.Leads id target := by
    intro target way
    obtain ⟨entry, foundEntry, plain⟩ := exists_entry_of_transGen_inlined way
    obtain rfl : canonical = entry := Option.some.inj (found.symm.trans foundEntry)
    exact Bool.eq_false_iff.mp plain isObject
  intro other otherNamed reached way
  obtain rfl : id = other := Option.some.inj (named.symm.trans otherNamed)
  rcases reflTransGen_iff_eq_or_transGen.mp way with rfl | further
  · exact ⟨outside, stuck reached⟩
  · exact absurd further (stuck reached)

/-! ## Walks that come through -/

/-- A walk in expanded mode comes through at the node, in some place. -/
def Visited
    [Name.Lettering]
    (registry : Registry)
    (node : Node) : Prop :=
  ∃ stack path depth visits, registry.visit .expanded stack path depth node = .ok visits

/-- Children that are visited together are visited one by one. -/
theorem visited_of_visitAll
    [Name.Lettering]
    {stack : List String}
    {depth : Nat}
    {children : List Node}
    {visits : List Visit}
    (walked : registry.visitAll .expanded stack path depth children = .ok visits)
    {child : Node}
    (member : child ∈ children) :
    registry.Visited child := by
  induction children generalizing visits with
  | nil => cases member
  | cons first rest hypothesis =>
      rw [visitAll_cons, bind_eq_ok_iff] at walked
      obtain ⟨own, walkedFirst, walked⟩ := walked
      obtain ⟨others, walkedRest, _⟩ := bind_eq_ok_iff.mp walked
      rcases List.mem_cons.mp member with rfl | later
      · exact ⟨_, _, _, own, walkedFirst⟩
      · exact hypothesis walkedRest later

/-- A walk below a node comes through at every reference that it meets first. -/
theorem visited_of_descend
    [Name.Lettering]
    {stack : List String}
    {depth : Nat}
    {visits : List Visit}
    (walked : registry.descend .expanded stack path depth node = .ok visits)
    {reference : Node}
    (member : reference ∈ node.references) :
    registry.Visited reference := by
  -- A part of the node is visited; if it is no reference, the walk goes on below it.
  have ofPart : ∀ part : Node,
      (∀ stack path depth visits, registry.descend .expanded stack path depth part = .ok visits →
        reference ∈ part.references → registry.Visited reference) →
      registry.Visited part → reference ∈ part.frontier → registry.Visited reference := by
    intro part below visited met
    cases named : part.reference? with
    | some id =>
        rw [Node.frontier_of_reference?_some named, List.mem_singleton] at met
        rwa [met]
    | none =>
        obtain ⟨stack, path, depth, visits, walked⟩ := visited
        rw [visit_of_plain named, bind_eq_ok_iff] at walked
        obtain ⟨inner, walked, _⟩ := walked
        rw [Node.frontier_of_reference?_none named] at met
        exact below _ _ _ _ walked met
  induction node using Node.inductOn generalizing stack path depth visits with
  | scalar declaration facets => simp at member
  | array declaration facets element hypothesis =>
      rw [descend_array] at walked
      rw [Node.references_array] at member
      exact ofPart element (fun _ _ _ _ => hypothesis) ⟨_, _, _, _, walked⟩ member
  | object declaration facets children hypothesis =>
      rw [descend_object] at walked
      rw [Node.references_object] at member
      obtain ⟨child, isChild, met⟩ := List.mem_flatMap.mp member
      have visited := visited_of_visitAll walked ((Node.mem_sorted child children).mpr isChild)
      exact ofPart child (fun _ _ _ _ => hypothesis child isChild) visited met

/-- A walk that comes through from a tree without reference comes through at all that the
tree meets. -/
theorem visited_of_meets
    [Name.Lettering]
    {visits : List Visit}
    (plain : root.reference? = none)
    (walked : registry.collect .expanded root = .ok visits)
    {reference : Node}
    (met : registry.Meets root reference) :
    registry.Visited reference := by
  induction met with
  | start member =>
      rw [collect, resolveAt_of_reference?_none registry _ plain, ok_bind, bind_eq_ok_iff] at walked
      obtain ⟨below, walked, _⟩ := walked
      rw [Node.frontier_of_reference?_none plain] at member
      exact visited_of_descend walked member
  | @through outer canonical reference id _ named resolved member hypothesis =>
      obtain ⟨stack, path, depth, inner, visited⟩ := hypothesis
      have opened : registry.target path outer id = .ok canonical := by
        rw [resolve, resolveAt, named] at resolved
        exact target_eq_ok_iff.mpr (target_eq_ok_iff.mp resolved)
      by_cases inside : id ∈ stack
      · rw [visit_of_inside named opened inside] at visited
        cases visited
      · rw [visit_of_opened named opened inside, bind_eq_ok_iff] at visited
        obtain ⟨below, walked, _⟩ := visited
        exact visited_of_descend walked member

/-- A node at which a walk comes through has a canonical node. -/
theorem Visited.resolves
    [Name.Lettering]
    (visited : registry.Visited node) :
    registry.Resolves node := by
  obtain ⟨stack, path, depth, visits, walked⟩ := visited
  cases named : node.reference? with
  | none => exact ⟨node, resolveAt_of_reference?_none registry _ named⟩
  | some id =>
      cases opened : registry.target path node id with
      | error cause =>
          rw [visit_of_unresolved named opened] at walked
          cases walked
      | ok canonical =>
          refine ⟨canonical, ?_⟩
          rw [resolve, resolveAt, named]
          exact target_eq_ok_iff.mpr (target_eq_ok_iff.mp opened)

end Registry
end Schema
end SchemaCompiler
