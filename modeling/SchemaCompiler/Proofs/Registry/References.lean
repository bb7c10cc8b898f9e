import Mathlib.Logic.Relation
import SchemaCompiler.Proofs.Schema.Tree
import SchemaCompiler.Registry.Walk

/-!
# References of a tree

The references of a node are those met on the way down its elements and children,
where no way goes on inside a node that is itself a reference. `Leads` is the graph
that they span over the ids of a registry, and `Meets` follows them from a tree
through the entries they resolve to.
-/

namespace SchemaCompiler
namespace Schema

open Relation

namespace Node

mutual

/-- The references below a node, without those inside another reference. -/
def references : Node → List Node
  | .scalar _ _ => []
  | .array _ _ element => if element.isReference then [element] else references element
  | .object _ _ children => referencesAll children

/-- The references of a list of nodes, without those inside another reference. -/
def referencesAll : List Node → List Node
  | [] => []
  | child :: rest =>
      (if child.isReference then [child] else references child) ++ referencesAll rest

end

/-- The node itself if it is a reference, and the references below it otherwise. -/
def frontier (node : Node) : List Node :=
  if node.isReference then [node] else node.references

theorem frontier_of_reference?_some
    {node : Node}
    {id : String}
    (named : node.reference? = some id) :
    node.frontier = [node] := by
  simp [frontier, isReference, named]

theorem mem_frontier_of_reference?
    {node : Node}
    {id : String}
    (named : node.reference? = some id) :
    node ∈ node.frontier := by
  rw [frontier_of_reference?_some named]
  exact List.mem_singleton.mpr rfl

theorem frontier_of_reference?_none
    {node : Node}
    (plain : node.reference? = none) :
    node.frontier = node.references := by
  simp [frontier, isReference, plain]

@[simp] theorem references_scalar
    (declaration : Declaration)
    (facets : Scalar) :
    (scalar declaration facets).references = [] := by
  simp [references]

@[simp] theorem references_array
    (declaration : Declaration)
    (facets : ArrayFacets)
    (element : Node) :
    (array declaration facets element).references = element.frontier := by
  simp [references, frontier]

theorem referencesAll_eq_flatMap (children : List Node) :
    referencesAll children = children.flatMap frontier := by
  induction children with
  | nil => simp [referencesAll]
  | cons child rest hypothesis =>
      rw [referencesAll, List.flatMap_cons, hypothesis, frontier]

@[simp] theorem references_object
    (declaration : Declaration)
    (facets : ObjectFacets)
    (children : List Node) :
    (object declaration facets children).references = children.flatMap frontier := by
  simp [references, referencesAll_eq_flatMap]

@[simp] theorem mem_sorted
    [Name.Lettering]
    (child : Node)
    (children : List Node) :
    child ∈ sorted children ↔ child ∈ children :=
  (List.mergeSort_perm children Object.displayOrder).mem_iff

@[simp] theorem mem_flatMap_sorted
    [Name.Lettering]
    (reference : Node)
    (children : List Node) :
    reference ∈ (sorted children).flatMap frontier ↔
      reference ∈ children.flatMap frontier := by
  simp only [List.mem_flatMap, mem_sorted]

theorem mentionsAll_eq_flatMap (children : List Node) :
    mentionsAll children = children.flatMap mentions := by
  induction children with
  | nil => simp [mentionsAll]
  | cons child rest hypothesis => rw [mentionsAll, List.flatMap_cons, hypothesis]

/-- A node mentions the id it stands for. -/
theorem mem_mentions_of_reference?
    {node : Node}
    {id : String}
    (named : node.reference? = some id) :
    id ∈ node.mentions := by
  rw [reference?] at named
  cases node <;> simp_all [mentions, declaration]

/-- What is met first on the way down is the node itself or a reference below it. -/
theorem eq_or_mem_references
    {node reference : Node}
    (met : reference ∈ node.frontier) :
    reference = node ∨ reference ∈ node.references := by
  unfold frontier at met
  split at met
  · exact .inl (List.mem_singleton.mp met)
  · exact .inr met

/-- A tree mentions the id of every reference met in it. -/
theorem mem_mentions_of_mem_references
    {node reference : Node}
    {id : String}
    (met : reference ∈ node.references)
    (named : reference.reference? = some id) :
    id ∈ node.mentions := by
  induction node using inductOn with
  | scalar declaration facets => simp at met
  | array declaration facets element hypothesis =>
      rw [references_array] at met
      rw [mentions, List.mem_append]
      right
      rcases eq_or_mem_references met with rfl | below
      · exact mem_mentions_of_reference? named
      · exact hypothesis below
  | object declaration facets children hypothesis =>
      rw [references_object] at met
      obtain ⟨child, member, inside⟩ := List.mem_flatMap.mp met
      rw [mentions, List.mem_append, mentionsAll_eq_flatMap]
      right
      refine List.mem_flatMap.mpr ⟨child, member, ?_⟩
      rcases eq_or_mem_references inside with rfl | below
      · exact mem_mentions_of_reference? named
      · exact hypothesis child member below

end Node

namespace Registry

/-- A reference resolves exactly to the entry of its id, if that entry has its kind and
is no reference. -/
theorem target_eq_ok_iff
    {registry : Registry}
    {path : FieldPath}
    {node canonical : Node}
    {id : String} :
    registry.target path node id = .ok canonical ↔
      registry.get? id = some canonical ∧ canonical.kind = node.kind ∧
        canonical.reference? = none := by
  constructor
  · intro resolved
    unfold target at resolved
    split at resolved
    · cases resolved
    next entry found =>
      split at resolved
      · cases resolved
      next sameKind =>
        split at resolved
        · cases resolved
        next plain =>
          obtain rfl : entry = canonical := by simpa using resolved
          exact ⟨found, Decidable.of_not_not sameKind, plain⟩
  · rintro ⟨found, sameKind, plain⟩
    simp [target, found, sameKind, plain]

/-- A reference that fails to resolve is never reported as one inside itself. -/
theorem target_ne_cycle
    {registry : Registry}
    {path place : FieldPath}
    {node : Node}
    {id name : String} :
    registry.target path node id ≠ .error (.referenceCycle place name) := by
  unfold target
  split
  · simp
  · split
    · simp
    · split <;> simp

/-- A node has a canonical node: it is no reference, or it resolves to its entry. -/
def Resolves (registry : Registry) (node : Node) : Prop :=
  ∃ canonical, registry.resolve node = .ok canonical

/-- Whether a node has a canonical node, and which one, does not depend on its path. -/
theorem resolveAt_eq_ok_iff
    {registry : Registry}
    {path : FieldPath}
    {node canonical : Node} :
    registry.resolveAt path node = .ok canonical ↔ registry.resolve node = .ok canonical := by
  unfold resolve resolveAt
  cases node.reference? with
  | none => rfl
  | some id => simp only [target_eq_ok_iff]

/-- A node that has a canonical node at one path has it at every path. -/
theorem resolveAt_at
    {registry : Registry}
    {path : FieldPath}
    {node canonical : Node}
    (resolved : registry.resolveAt path node = .ok canonical)
    (other : FieldPath) :
    registry.resolveAt other node = .ok canonical :=
  resolveAt_eq_ok_iff.mpr (resolveAt_eq_ok_iff.mp resolved)

/-- A canonical node has the kind of its node. -/
theorem kind_of_resolve
    {registry : Registry}
    {node canonical : Node}
    (resolved : registry.resolve node = .ok canonical) :
    canonical.kind = node.kind := by
  unfold resolve resolveAt at resolved
  split at resolved
  · cases resolved
    rfl
  · exact (target_eq_ok_iff.mp resolved).2.1

/-- The entry that a namespace manages is registered. -/
theorem get?_of_root
    {registry : Registry}
    {id : String}
    {entry : Node}
    (found : registry.root id = .ok entry) :
    registry.get? id = some entry := by
  unfold root at found
  split at found
  next other present =>
    cases found
    exact present
  next => cases found

/-- A failure to resolve is never reported as a reference inside itself. -/
theorem resolveAt_ne_cycle
    {registry : Registry}
    {path place : FieldPath}
    {node : Node}
    {name : String} :
    registry.resolveAt path node ≠ .error (.referenceCycle place name) := by
  unfold resolveAt
  split
  · simp
  · exact target_ne_cycle

/-- The entry of one id has a reference to another id. -/
def Leads (registry : Registry) (source target : String) : Prop :=
  ∃ entry, registry.get? source = some entry ∧
    ∃ reference ∈ entry.references, reference.reference? = some target

/-- The references that are met from a tree on the ways through the entries that
references resolve to. -/
inductive Meets (registry : Registry) (root : Node) : Node → Prop
  | start {reference : Node} :
      reference ∈ root.frontier → Meets registry root reference
  | through {outer canonical reference : Node} {id : String} :
      Meets registry root outer →
      outer.reference? = some id →
      registry.resolve outer = .ok canonical →
      reference ∈ canonical.references →
      Meets registry root reference

/-- A reference of the id is met from the tree. -/
def Reaches (registry : Registry) (root : Node) (id : String) : Prop :=
  ∃ reference, registry.Meets root reference ∧ reference.reference? = some id

/-- The ids that lead to another are registered. -/
theorem Leads.mem_ids
    {registry : Registry}
    {source target : String}
    (leads : registry.Leads source target) :
    source ∈ registry.ids := by
  obtain ⟨entry, found, _⟩ := leads
  exact Order.Table.mem_names_of_get? found

/-- A reference leads on to the ids below its canonical node. -/
theorem Leads.of_target
    {registry : Registry}
    {path : FieldPath}
    {node canonical reference : Node}
    {id target : String}
    (resolved : registry.target path node id = .ok canonical)
    (member : reference ∈ canonical.references)
    (named : reference.reference? = some target) :
    registry.Leads id target :=
  ⟨canonical, (target_eq_ok_iff.mp resolved).1, reference, member, named⟩

/-- An id that a resolved reference leads to stands below its canonical node. -/
theorem Leads.exists_reference
    {registry : Registry}
    {path : FieldPath}
    {node canonical : Node}
    {id target : String}
    (resolved : registry.target path node id = .ok canonical)
    (leads : registry.Leads id target) :
    ∃ reference ∈ canonical.references, reference.reference? = some target := by
  obtain ⟨entry, found, reference, member, named⟩ := leads
  have same : entry = canonical :=
    Option.some.inj (found.symm.trans (target_eq_ok_iff.mp resolved).1)
  exact ⟨reference, same ▸ member, named⟩

/-- A reference that is met and resolves leads on to the references below its
canonical node. -/
theorem Meets.of_target
    {registry : Registry}
    {path : FieldPath}
    {root node canonical reference : Node}
    {id : String}
    (met : registry.Meets root node)
    (named : node.reference? = some id)
    (resolved : registry.target path node id = .ok canonical)
    (member : reference ∈ canonical.references) :
    registry.Meets root reference := by
  have opened : registry.resolveAt path node = .ok canonical := by
    rw [resolveAt, named]
    exact resolved
  exact .through met named (resolveAt_eq_ok_iff.mp opened) member

/-- An id that is reached from a tree is reached from one that stands in it. -/
theorem Meets.exists_way
    {registry : Registry}
    {root reference : Node}
    {id : String}
    (met : registry.Meets root reference)
    (named : reference.reference? = some id) :
    ∃ top ∈ root.frontier, ∃ start, top.reference? = some start ∧
      ReflTransGen registry.Leads start id := by
  induction met generalizing id with
  | start member => exact ⟨_, member, id, named, .refl⟩
  | @through outer canonical reference outerId _ outerNamed resolved member hypothesis =>
      obtain ⟨top, topMember, start, startNamed, way⟩ := hypothesis outerNamed
      rw [resolve, resolveAt, outerNamed] at resolved
      exact ⟨top, topMember, start, startNamed, way.tail (.of_target resolved member named)⟩

end Registry
end Schema
end SchemaCompiler
