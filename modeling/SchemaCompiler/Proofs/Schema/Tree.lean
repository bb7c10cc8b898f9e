import SchemaCompiler.Schema.Object

/-!
# Trees of nodes

A `Step` leads from a node to one inside it, and a list of steps to a place of a
tree. `WellFormed` states what every object of a parsed tree has: children with
distinct names, and distinct groups of children.
-/

namespace SchemaCompiler
namespace Schema

/-- One step from a node to a node inside it. -/
inductive Step where
  /-- To the child of a name. -/
  | child (name : String)
  /-- To the element of an array. -/
  | element
deriving Repr, DecidableEq

namespace Node

/-- A property of all nodes by induction: an object has it if its children have it. -/
@[elab_as_elim]
theorem inductOn
    {motive : Node → Prop}
    (node : Node)
    (scalar : ∀ declaration facets, motive (.scalar declaration facets))
    (array : ∀ declaration facets element, motive element →
      motive (.array declaration facets element))
    (object : ∀ declaration facets children, (∀ child ∈ children, motive child) →
      motive (.object declaration facets children)) :
    motive node :=
  match node with
  | .scalar declaration facets => scalar declaration facets
  | .array declaration facets element =>
      array declaration facets element (inductOn element scalar array object)
  | .object declaration facets children =>
      object declaration facets children fun child _ => inductOn child scalar array object
termination_by sizeOf node

/-- The node that steps lead to. -/
def at? : List Step → Node → Option Node
  | [], node => some node
  | .element :: rest, .array _ _ element => at? rest element
  | .child name :: rest, .object _ _ children => (findChild? name children).bind (at? rest)
  | _ :: _, _ => none

@[simp] theorem at?_nil (node : Node) : node.at? [] = some node := by
  cases node <;> rfl

@[simp] theorem at?_child
    (name : String)
    (rest : List Step)
    (declaration : Declaration)
    (facets : ObjectFacets)
    (children : List Node) :
    (object declaration facets children).at? (.child name :: rest) =
      (findChild? name children).bind (at? rest) := rfl

/-- Every object has children with distinct names and distinct groups of them. -/
inductive WellFormed : Node → Prop
  | scalar (declaration : Declaration) (facets : Scalar) :
      WellFormed (.scalar declaration facets)
  | array {declaration : Declaration} {facets : ArrayFacets} {element : Node} :
      WellFormed element → WellFormed (.array declaration facets element)
  | object {declaration : Declaration} {facets : ObjectFacets} {children : List Node} :
      (children.map name).Nodup →
      facets.groups.Nodup →
      (∀ group ∈ facets.groups, ∀ member ∈ group, hasChild member children) →
      (∀ child ∈ children, WellFormed child) →
      WellFormed (.object declaration facets children)

/-- A child that is found has the name it was looked up by. -/
theorem name_of_findChild?
    {name : String}
    {children : List Node}
    {child : Node}
    (found : findChild? name children = some child) :
    child.name = name := by
  simpa using List.find?_some found

/-- A child that is found is one of the children. -/
theorem mem_of_findChild?
    {name : String}
    {children : List Node}
    {child : Node}
    (found : findChild? name children = some child) :
    child ∈ children :=
  List.mem_of_find?_eq_some found

theorem findChild?_cons
    (name : String)
    (child : Node)
    (rest : List Node) :
    findChild? name (child :: rest) =
      if child.name = name then some child else findChild? name rest := by
  simp only [findChild?, List.find?_cons]
  by_cases same : child.name = name <;> simp [same]

theorem hasChild_iff
    (name : String)
    (children : List Node) :
    hasChild name children = true ↔ name ∈ children.map Node.name := by
  simp [hasChild]

/-- No child has a name that is looked up in vain. -/
theorem findChild?_eq_none_iff
    (name : String)
    (children : List Node) :
    findChild? name children = none ↔ name ∉ children.map Node.name := by
  simp [findChild?]

/-- A child of distinctly named children is the one found by its name. -/
theorem findChild?_of_mem
    {children : List Node}
    (distinct : (children.map name).Nodup)
    {child : Node}
    (member : child ∈ children) :
    findChild? child.name children = some child := by
  induction children with
  | nil => simp at member
  | cons first rest hypothesis =>
      rw [List.map_cons, List.nodup_cons] at distinct
      rw [findChild?_cons]
      rcases List.mem_cons.mp member with rfl | later
      · simp
      · have different : first.name ≠ child.name := by
          intro same
          exact distinct.1 (same ▸ List.mem_map_of_mem later)
        rw [if_neg different]
        exact hypothesis distinct.2 later

end Node
end Schema
end SchemaCompiler
