import SchemaCompiler.Name.Standard
import SchemaCompiler.Proofs.Constraint.Requirements
import SchemaCompiler.Proofs.Order.Table
import SchemaCompiler.Proofs.Registry.ExpandedWalk
import SchemaCompiler.Proofs.Resource.Levels

/-!
# Requirements that attributes carry

The attribute of a field has validators for its value and, if it is a list, validators for its
elements. The latter are those of a value: where an element is a list again, neither its size
nor anything that its own elements state is carried.
-/

namespace SchemaCompiler
namespace Resource

open SchemaCompiler.Constraint (CarryAll requirements valueValidators)
open SchemaCompiler.Outcome
open SchemaCompiler.Schema

/-! ## Elements of lists -/

/-- A field leads to a canonical node through so many elements of lists: to its own through none,
and from a list to that of the element. -/
inductive LeadsTo (registry : Registry) (node : Node) : Nat → Node → Prop
  | itself {canonical : Node} :
      registry.resolve node = .ok canonical →
      LeadsTo registry node 0 canonical
  | element {depth : Nat} {declaration : Declaration} {facets : ArrayFacets}
      {element canonical : Node} :
      LeadsTo registry node depth (.array declaration facets element) →
      registry.resolve element = .ok canonical →
      LeadsTo registry node (depth + 1) canonical

namespace LeadsTo

variable
  {registry : Registry}
  {node canonical : Node}
  {depth : Nat}

/-- There is one way to go. -/
theorem eq
    (leads : LeadsTo registry node depth canonical)
    {other : Node}
    (leadsToo : LeadsTo registry node depth other) :
    canonical = other := by
  induction leads generalizing other with
  | itself resolved =>
      cases leadsToo with
      | itself resolvedToo => exact Except.ok.inj (resolved.symm.trans resolvedToo)
  | element _ resolved hypothesis =>
      cases leadsToo with
      | element outer resolvedToo =>
          obtain ⟨-, -, rfl⟩ := Node.array.inj (hypothesis outer)
          exact Except.ok.inj (resolved.symm.trans resolvedToo)

/-- Beyond the elements of a field there is something only if they are lists. -/
theorem exists_list
    (leads : LeadsTo registry node (depth + 2) canonical) :
    ∃ declaration facets element,
      LeadsTo registry node 1 (.array declaration facets element) := by
  induction depth generalizing canonical with
  | zero =>
      cases leads with
      | element outer _ => exact ⟨_, _, _, outer⟩
  | succ depth hypothesis =>
      cases leads with
      | element outer _ => exact hypothesis outer

end LeadsTo

/-! ## Validators of one attribute -/

section Attributes

variable
  {registry : Registry}
  {path : FieldPath}
  {usage : FieldUsage}
  {facts : AttributeFacts}
  {shown : Attribute}

/-- The validators of an attribute carry what its canonical node states on itself. -/
theorem Converts.carryAll
    [Name.Lettering]
    {canonical : Node}
    (converts : Converts registry path usage facts canonical shown) :
    CarryAll shown.facts.validators (requirements canonical) := by
  cases converts with
  | scalar declaration facets => exact Constraint.carryAll_valueValidators rfl
  | object => exact Constraint.carryAll_nil _
  | listOfObjects | list => exact Constraint.carryAll_rangeValidators .list .size _ _

/-- Its element validators are those of the value that an element resolves to. -/
theorem Converts.elementValidators_eq
    [Name.Lettering]
    {declaration : Declaration}
    {facets : ArrayFacets}
    {element canonical : Node}
    (converts : Converts registry path usage facts (.array declaration facets element) shown)
    (bare : facts.elementValidators = [])
    (resolved : registry.resolve element = .ok canonical) :
    shown.facts.elementValidators = valueValidators canonical := by
  cases converts with
  | listOfObjects resolvedToo =>
      cases (Registry.resolveAt_eq_ok_iff.mp resolvedToo).symm.trans resolved
      exact bare
  | list resolvedToo =>
      cases (Registry.resolveAt_eq_ok_iff.mp resolvedToo).symm.trans resolved
      rfl

/-- The check of a group is added to the validators of the attribute itself. -/
theorem validators_subset_addGroup
    [Name.Lettering]
    (groups : List (List String))
    (name : String)
    (shown : Attribute) :
    shown.facts.validators ⊆ (addGroup groups name shown).facts.validators := by
  unfold addGroup
  split
  · rw [facts_addValidator]
    exact List.subset_append_left ..
  · exact List.Subset.refl _

@[simp] theorem elementValidators_addGroup
    [Name.Lettering]
    (groups : List (List String))
    (name : String)
    (shown : Attribute) :
    (addGroup groups name shown).facts.elementValidators = shown.facts.elementValidators := by
  unfold addGroup
  split <;> simp

end Attributes

namespace Level

variable
  {registry : Registry}
  {level : Level}
  {node canonical : Node}
  {shown : Attribute}

theorem Made.carryAll
    [Name.Lettering]
    (made : level.Made registry)
    (member : (node, shown) ∈ level.fields)
    (leads : LeadsTo registry node 0 canonical) :
    CarryAll shown.facts.validators (requirements canonical) := by
  obtain ⟨path, usage, facts, own, converted, opened, converts, rfl⟩ := made.field member
  obtain ⟨resolved, -⟩ := openField_eq_ok opened
  obtain rfl := leads.eq (.itself resolved)
  exact converts.carryAll.of_subset (validators_subset_addGroup ..)

theorem Made.elementValidators_eq
    [Name.Lettering]
    (made : level.Made registry)
    (member : (node, shown) ∈ level.fields)
    (leads : LeadsTo registry node 1 canonical) :
    shown.facts.elementValidators = valueValidators canonical := by
  obtain ⟨path, usage, facts, own, converted, opened, converts, rfl⟩ := made.field member
  obtain ⟨resolved, exposure, rfl⟩ := openField_eq_ok opened
  cases leads with
  | element outer resolvedElement =>
      obtain rfl := outer.eq (.itself resolved)
      rw [elementValidators_addGroup]
      exact converts.elementValidators_eq rfl resolvedElement

/-- Element validators carry what an element states exactly if the element is that of the field
and no list, or states nothing. -/
theorem Made.carryAll_element_iff
    [Name.Lettering]
    (made : level.Made registry)
    (member : (node, shown) ∈ level.fields)
    {steps : Nat}
    (leads : LeadsTo registry node (steps + 1) canonical) :
    CarryAll shown.facts.elementValidators (requirements canonical) ↔
      requirements canonical = [] ∨ steps = 0 ∧ canonical.element? = none := by
  cases steps with
  | zero =>
      rw [made.elementValidators_eq member leads, Constraint.carryAll_valueValidators_iff,
        and_iff_right rfl]
  | succ steps =>
      obtain ⟨declaration, facets, element, list⟩ := leads.exists_list
      rw [made.elementValidators_eq member list, valueValidators, Constraint.carryAll_nil_iff]
      exact (or_iff_left fun beyond => Nat.succ_ne_zero steps beyond.1).symm

end Level

/-! ## All attributes of a schema -/

/-- Every attribute of a resource schema carries what the canonical node of its field states: the
ends of ranges, the choices, the patterns and the sizes of lists. What the canonical nodes of
elements state is carried by its element validators exactly if the elements are those of the
field itself and no lists: of elements that are lists, and of all that is inside them, nothing is
carried. -/
theorem attributes_carry_requirements_iff
    [Name.Lettering]
    {registry : Registry}
    {usage : UsageIndex}
    {managed : Namespace}
    {schema : ResourceSchema}
    {level : Level}
    {node : Node}
    {shown : Attribute}
    (converted : ofNamespace registry usage managed = some (.ok schema))
    (hasLevel : schema.HasLevel registry managed level)
    (member : (node, shown) ∈ level.fields) :
    (∀ canonical, LeadsTo registry node 0 canonical →
      CarryAll shown.facts.validators (requirements canonical)) ∧
      ∀ steps canonical, LeadsTo registry node (steps + 1) canonical →
        (CarryAll shown.facts.elementValidators (requirements canonical) ↔
          requirements canonical = [] ∨ steps = 0 ∧ canonical.element? = none) := by
  have made := hasLevel.made converted
  exact ⟨fun _ => made.carryAll member, fun _ _ => made.carryAll_element_iff member⟩

/-! ## Lists of lists -/

/-- A number between two others. -/
def cellEntry : Node := .scalar { name := "cell" } (.int { min := some 0, max := some 9 })

/-- A number that stands for this entry. -/
def cellElement : Node := .scalar { reference := some "cell" } (.int {})

/-- A list of a few numbers. -/
def rowElement : Node := .array {} { maxItems := some 8 } (.scalar {} (.int {}))

/-- A list with at least one element. -/
def gridRows (element : Node) : Node := .array { name := "rows" } { minItems := some 1 } element

/-- An entry with such a list. -/
def gridEntry (element : Node) : Node := .object { name := "grid" } {} [gridRows element]

/-- The entry beside that of the number. -/
def gridRegistry (element : Node) : Registry :=
  ⟨.ofList [("grid", gridEntry element), ("cell", cellEntry)]⟩

/-- A namespace that manages the entry. -/
def gridNamespace : Namespace := { name := "Grid", schema := "grid" }

@[simp] theorem get?_gridRegistry (element : Node) (id : String) :
    (gridRegistry element).get? id =
      if id = "cell" then some cellEntry
      else if id = "grid" then some (gridEntry element)
      else none := by
  rw [Registry.get?, gridRegistry, Order.Table.ofList]
  dsimp only [List.foldl]
  rw [Order.Table.get?_set, Order.Table.get?_set]
  rfl

/-- The number stands for its entry. -/
theorem target_cell (element : Node) (path : FieldPath) :
    (gridRegistry element).target path cellElement "cell" = .ok cellEntry := by
  rw [Registry.target, get?_gridRegistry, if_pos rfl]
  rfl

/-- The entry has a resource schema if the elements of the list have a type. -/
theorem exists_ofNamespace_gridRegistry
    (element inner : Node)
    (type : ElementType)
    (walked : ∀ path depth, ∃ visits,
      (gridRegistry element).visit .expanded [] path depth element = .ok visits)
    (resolved : ∀ path, (gridRegistry element).resolveAt path element = .ok inner)
    (noObject : inner.object? = none)
    (typed : ∀ path, (gridRegistry element).elementType path inner = some (.ok type)) :
    ∃ schema,
      ofNamespace (gridRegistry element) ⟨.empty, .empty⟩ gridNamespace = some (.ok schema) ∧
        schema.HasLevel (gridRegistry element) gridNamespace
          ⟨⟨[gridRows element], {}⟩, schema.attributes⟩ := by
  have found : (gridRegistry element).root gridNamespace.schema = .ok (gridEntry element) := by
    rw [Registry.root, get?_gridRegistry]
    rfl
  have collected : ∃ visits, (gridRegistry element).collect .expanded (gridEntry element) =
      .ok visits := by
    have own : (gridRegistry element).resolveAt FieldPath.root (gridEntry element) =
        .ok (gridEntry element) := rfl
    have noneOpen : (gridEntry element).reference?.toList = [] := rfl
    obtain ⟨visits, walked⟩ := walked (FieldPath.root.child (gridRows element).name) 2
    unfold Registry.collect
    rw [own, ok_bind, noneOpen, gridEntry, Registry.descend_object, Node.sorted,
      List.mergeSort_singleton, Registry.visitAll_cons, Registry.visit_of_plain rfl]
    nth_rewrite 2 [gridRows]
    rw [Registry.descend_array, walked, ok_bind, Registry.visitAll_nil]
    exact ⟨_, rfl⟩
  have each : ∀ child ∈ [gridRows element], ∀ place, ∃ shown,
      (gridRegistry element).convertField place
        (UsageIndex.usage ⟨.empty, .empty⟩ child.name) child = some (.ok shown) := by
    refine List.forall_mem_singleton.mpr fun place => ?_
    exact ⟨_, convertField_of_list rfl (resolved place) noObject (typed place)⟩
  obtain ⟨visits, walked⟩ := collected
  exact exists_ofNamespace found walked each

/-- A list of numbers has a resource schema. -/
theorem ofNamespace_gridRegistry_cells :
    ∃ schema,
      ofNamespace (gridRegistry cellElement) ⟨.empty, .empty⟩ gridNamespace =
          some (.ok schema) ∧
        schema.HasLevel (gridRegistry cellElement) gridNamespace
          ⟨⟨[gridRows cellElement], {}⟩, schema.attributes⟩ := by
  refine exists_ofNamespace_gridRegistry cellElement cellEntry .int64 (fun path depth => ?_)
    (target_cell cellElement) rfl fun path => by
      rw [cellEntry, Registry.elementType, scalarElement]
  rw [Registry.visit_of_opened rfl (target_cell cellElement path) List.not_mem_nil, cellEntry,
    Registry.descend_scalar]
  exact ⟨_, rfl⟩

/-- So has a list of lists of numbers. -/
theorem ofNamespace_gridRegistry_rows :
    ∃ schema,
      ofNamespace (gridRegistry rowElement) ⟨.empty, .empty⟩ gridNamespace =
          some (.ok schema) ∧
        schema.HasLevel (gridRegistry rowElement) gridNamespace
          ⟨⟨[gridRows rowElement], {}⟩, schema.attributes⟩ := by
  refine exists_ofNamespace_gridRegistry rowElement rowElement (.list .int64)
    (fun path depth => ?_) (fun path => rfl) rfl fun path => ?_
  · rw [Registry.visit_of_plain rfl]
    nth_rewrite 2 [rowElement]
    rw [Registry.descend_array, Registry.visit_of_plain rfl, Registry.descend_scalar]
    exact ⟨_, rfl⟩
  · nth_rewrite 2 [rowElement]
    rw [Registry.elementType, Registry.resolveAt_of_reference?_none _ path rfl]
    dsimp only
    rw [Registry.elementType]
    rfl

/-- A list of numbers carries its size and the range of the numbers. -/
theorem attributes_carry_requirements_cells :
    ∃ schema shown,
      ofNamespace (gridRegistry cellElement) ⟨.empty, .empty⟩ gridNamespace =
          some (.ok schema) ∧
        schema.HasLevel (gridRegistry cellElement) gridNamespace
          ⟨⟨[gridRows cellElement], {}⟩, schema.attributes⟩ ∧
        (gridRows cellElement, shown) ∈
          Level.fields ⟨⟨[gridRows cellElement], {}⟩, schema.attributes⟩ ∧
        CarryAll shown.facts.validators [.atLeast .list (.size 1)] ∧
        CarryAll shown.facts.elementValidators
          [.atLeast .int64 (.int 0), .atMost .int64 (.int 9)] := by
  obtain ⟨schema, converted, hasLevel⟩ := ofNamespace_gridRegistry_cells
  obtain ⟨shown, member⟩ := (hasLevel.made converted).exists_field List.mem_cons_self
  obtain ⟨own, element⟩ := attributes_carry_requirements_iff converted hasLevel member
  have itself : LeadsTo (gridRegistry cellElement) (gridRows cellElement) 0
      (gridRows cellElement) := .itself rfl
  have inside : LeadsTo (gridRegistry cellElement) (gridRows cellElement) 1 cellEntry :=
    .element itself (target_cell cellElement (FieldPath.ofName cellElement.name))
  exact ⟨schema, shown, converted, hasLevel, member, own _ itself,
    (element 0 cellEntry inside).mpr (.inr ⟨rfl, rfl⟩)⟩

/-- Not everything is carried: the lists inside a list have no check of their size. -/
theorem not_attributes_carry_requirements_rows :
    ¬∀ registry usage managed schema (level : Level) node shown,
      ofNamespace registry usage managed = some (.ok schema) →
      schema.HasLevel registry managed level →
      (node, shown) ∈ level.fields →
        (∀ canonical, LeadsTo registry node 0 canonical →
          CarryAll shown.facts.validators (requirements canonical)) ∧
        ∀ steps canonical, LeadsTo registry node (steps + 1) canonical →
          CarryAll shown.facts.elementValidators (requirements canonical) := by
  intro carried
  obtain ⟨schema, converted, hasLevel⟩ := ofNamespace_gridRegistry_rows
  have made := hasLevel.made converted
  obtain ⟨shown, member⟩ := made.exists_field List.mem_cons_self
  have inside : LeadsTo (gridRegistry rowElement) (gridRows rowElement) 1 rowElement :=
    .element (.itself rfl) rfl
  have inner := (carried _ _ _ _ _ _ _ converted hasLevel member).2 0 rowElement inside
  rcases (made.carryAll_element_iff member inside).mp inner with nothing | ⟨-, noList⟩
  · revert nothing
    decide
  · cases noList

end Resource
end SchemaCompiler
