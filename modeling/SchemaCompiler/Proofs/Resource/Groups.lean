import SchemaCompiler.Name.Standard
import SchemaCompiler.Proofs.Registry.ExpandedWalk
import SchemaCompiler.Proofs.Resource.Levels

/-!
# Groups of a resource schema

Exactly one member of a group is given. The attribute of a field carries the check of one
group, the first that the field belongs to, so whether a level keeps all groups of its object
depends on the fields that two groups share.
-/

namespace SchemaCompiler
namespace Resource

open SchemaCompiler.Constraint (Validator)
open SchemaCompiler.Outcome
open SchemaCompiler.Schema

/-! ## The group check of one attribute -/

theorem exactlyOneOf_notMem_rangeValidators
    (names : List String)
    (family : Constraint.Family)
    (literal : α → Constraint.Literal)
    (min max : Option α) :
    .exactlyOneOf names ∉ Constraint.rangeValidators family literal min max := by
  simp [Constraint.rangeValidators]

theorem exactlyOneOf_notMem_numberValidators
    (names : List String)
    (family : Constraint.Family)
    (literal : α → Constraint.Literal)
    (facets : NumberFacets α) :
    .exactlyOneOf names ∉ Constraint.numberValidators family literal facets := by
  unfold Constraint.numberValidators
  rw [List.mem_append, not_or]
  refine ⟨exactlyOneOf_notMem_rangeValidators names family literal _ _, ?_⟩
  split <;> simp

theorem exactlyOneOf_notMem_stringValidators
    (names : List String)
    (facets : StringFacets) :
    .exactlyOneOf names ∉ Constraint.stringValidators facets := by
  unfold Constraint.stringValidators
  rw [List.mem_append, not_or]
  refine ⟨exactlyOneOf_notMem_rangeValidators names _ _ _ _, ?_⟩
  unfold Constraint.formValidators
  split <;> simp

/-- The checks on a value are no group checks. -/
theorem exactlyOneOf_notMem_valueValidators
    (names : List String)
    (node : Node) :
    .exactlyOneOf names ∉ Constraint.valueValidators node := by
  cases node with
  | scalar declaration facets =>
      cases facets with
      | bool facets => exact List.not_mem_nil
      | int facets => exact exactlyOneOf_notMem_numberValidators names _ _ facets
      | float facets => exact exactlyOneOf_notMem_numberValidators names _ _ facets
      | string facets => exact exactlyOneOf_notMem_stringValidators names facets
  | array | object => exact List.not_mem_nil

/-- An attribute that has not been put into a group has no group check. -/
theorem Converts.exactlyOneOf_notMem
    [Name.Lettering]
    {registry : Registry}
    {path : FieldPath}
    {usage : FieldUsage}
    {facts : AttributeFacts}
    {canonical : Node}
    {shown : Attribute}
    (converts : Converts registry path usage facts canonical shown)
    (bare : facts.validators = [])
    (names : List String) :
    .exactlyOneOf names ∉ shown.facts.validators := by
  cases converts with
  | scalar declaration facets =>
      exact exactlyOneOf_notMem_valueValidators names (.scalar declaration facets)
  | object =>
      rw [Attribute.facts, bare]
      exact List.not_mem_nil
  | listOfObjects | list => exact exactlyOneOf_notMem_rangeValidators names _ _ _ _

/-- What is added to an attribute is the check of the first group with its field. -/
theorem exactlyOneOf_mem_addGroup_iff
    [Name.Lettering]
    {groups : List (List String)}
    {name : String}
    {shown : Attribute}
    {names : List String}
    (bare : .exactlyOneOf names ∉ shown.facts.validators) :
    .exactlyOneOf names ∈ (addGroup groups name shown).facts.validators ↔
      ∃ group, (groups.find? fun group => group.contains name) = some group ∧
        group.map Name.snake = names := by
  unfold addGroup
  split
  next group found =>
    rw [facts_addValidator, List.mem_append, List.mem_singleton, groupValidator,
      Validator.exactlyOneOf.injEq]
    simp only [bare, false_or, found, Option.some.injEq, exists_eq_left']
    exact eq_comm
  next missing => simp only [bare, missing, reduceCtorEq, false_and, exists_false]

/-- The first group of a child is a group with the child. -/
theorem mem_of_groupOf?_eq_some
    {object : Object}
    {name : String}
    {group : List String}
    (found : object.groupOf? name = some group) :
    group ∈ object.groups ∧ name ∈ group := by
  unfold Object.groupOf? at found
  have holds := List.find?_some found
  exact ⟨List.mem_of_find?_eq_some found, List.contains_iff_mem.mp holds⟩

namespace Level

variable
  {registry : Registry}
  {level : Level}

/-- The attribute of every field in the group carries the check of the group. -/
def Keeps [Name.Lettering] (level : Level) (group : List String) : Prop :=
  ∀ field ∈ level.fields, field.1.name ∈ group →
    groupValidator group ∈ field.2.facts.validators

/-- An attribute carries one group check at most, that of the first group with its field. -/
theorem Made.exactlyOneOf_mem_iff
    [Name.Lettering]
    (made : level.Made registry)
    {field : Node × Attribute}
    (member : field ∈ level.fields)
    (names : List String) :
    .exactlyOneOf names ∈ field.2.facts.validators ↔
      ∃ group, level.object.groupOf? field.1.name = some group ∧ group.map Name.snake = names := by
  obtain ⟨path, usage, facts, canonical, converted, opened, converts, shown⟩ :=
    made.field (show (field.1, field.2) ∈ level.fields from member)
  obtain ⟨-, exposure, rfl⟩ := openField_eq_ok opened
  rw [shown]
  exact exactlyOneOf_mem_addGroup_iff (converts.exactlyOneOf_notMem rfl names)

/-- A group is kept if each of its fields has a first group that lists the same names. -/
theorem Made.keeps_iff
    [Name.Lettering]
    (made : level.Made registry)
    (group : List String) :
    level.Keeps group ↔ ∀ child ∈ level.object.children, child.name ∈ group →
      ∃ first, level.object.groupOf? child.name = some first ∧
        first.map Name.snake = group.map Name.snake := by
  constructor
  · intro kept child member inGroup
    obtain ⟨shown, inFields⟩ := made.exists_field member
    exact (made.exactlyOneOf_mem_iff inFields _).mp (kept _ inFields inGroup)
  · intro first field inFields inGroup
    exact (made.exactlyOneOf_mem_iff inFields _).mpr
      (first _ (mem_children_of_mem_fields inFields) inGroup)

/-- All groups are kept unless two groups that share a field list different names. -/
theorem Made.forall_keeps_iff
    [Name.Lettering]
    (made : level.Made registry) :
    (∀ group ∈ level.object.groups, level.Keeps group) ↔
      ∀ child ∈ level.object.children,
        ∀ left ∈ level.object.groups, ∀ right ∈ level.object.groups,
          child.name ∈ left → child.name ∈ right →
            left.map Name.snake = right.map Name.snake := by
  constructor
  · intro kept child member left leftGroup right rightGroup inLeft inRight
    obtain ⟨first, found, sameLeft⟩ :=
      (made.keeps_iff left).mp (kept left leftGroup) child member inLeft
    obtain ⟨again, foundAgain, sameRight⟩ :=
      (made.keeps_iff right).mp (kept right rightGroup) child member inRight
    obtain rfl : first = again := Option.some.inj (found.symm.trans foundAgain)
    exact sameLeft.symm.trans sameRight
  · intro agree group isGroup
    refine (made.keeps_iff group).mpr fun child member inGroup => ?_
    have present : (level.object.groupOf? child.name).isSome :=
      List.find?_isSome.mpr ⟨group, isGroup, List.contains_iff_mem.mpr inGroup⟩
    obtain ⟨first, found⟩ := Option.isSome_iff_exists.mp present
    obtain ⟨isFirst, inFirst⟩ := mem_of_groupOf?_eq_some found
    exact ⟨first, found, agree child member first isFirst group isGroup inFirst inGroup⟩

end Level

/-! ## All levels of a schema -/

/-- At every level of a resource schema, the children of the object have their attributes by
display name and under it, and all groups of the object are kept exactly if any two groups
that share a child list the same names. -/
theorem keeps_groups_iff
    [Name.Lettering]
    {registry : Registry}
    {usage : UsageIndex}
    {managed : Namespace}
    {schema : ResourceSchema}
    {level : Level}
    (converted : ofNamespace registry usage managed = some (.ok schema))
    (hasLevel : schema.HasLevel registry managed level) :
    level.fields.map Prod.fst = level.object.sortedChildren ∧
      (∀ field ∈ level.fields, field.2.facts.name = field.1.snakeName) ∧
      ((∀ group ∈ level.object.groups, level.Keeps group) ↔
        ∀ child ∈ level.object.children,
          ∀ left ∈ level.object.groups, ∀ right ∈ level.object.groups,
            child.name ∈ left → child.name ∈ right →
              left.map Name.snake = right.map Name.snake) := by
  have made := hasLevel.made converted
  exact ⟨made.map_fst_fields, fun _ member => made.name_eq member, made.forall_keeps_iff⟩

/-- A walk over fields that are scalars without reference meets nothing else. -/
theorem exists_visitAll
    [Name.Lettering]
    {registry : Registry}
    {children : List Node}
    (mode : ReferenceMode)
    (stack : List String)
    (path : FieldPath)
    (depth : Nat)
    (plain : ∀ child ∈ children, ∃ declaration facets,
      child = .scalar declaration facets ∧ child.reference? = none) :
    ∃ visits, registry.visitAll mode stack path depth children = .ok visits := by
  induction children with
  | nil => exact ⟨[], Registry.visitAll_nil ..⟩
  | cons child rest hypothesis =>
      obtain ⟨declaration, facets, rfl, closed⟩ := plain child List.mem_cons_self
      obtain ⟨others, walked⟩ := hypothesis fun other member =>
        plain other (List.mem_cons_of_mem _ member)
      rw [Registry.visitAll_cons, Registry.visit_of_plain closed, Registry.descend_scalar, walked]
      exact ⟨_, rfl⟩

/-! ## Groups that overlap -/

/-- Whether an address is leased. -/
def leaseField : Node := .scalar { name := "dhcp" } (.bool {})

/-- The way out of the network of an address. -/
def gatewayField : Node := .scalar { name := "gateway" } (.string {})

/-- An address that does not change. -/
def staticField : Node := .scalar { name := "static" } (.string {})

/-- An entry for an address with groups of its fields. -/
def addressObject (groups : List (List String)) : Object where
  children := [leaseField, gatewayField, staticField]
  facets := { groups := groups }

/-- The entry alone. -/
def addressRegistry (groups : List (List String)) : Registry :=
  ⟨.ofList [("address", (addressObject groups).toNode { name := "address" })]⟩

/-- A namespace that manages the entry. -/
def addressNamespace : Namespace := { name := "Address", schema := "address" }

theorem mem_addressObject
    {groups : List (List String)}
    {child : Node}
    (member : child ∈ (addressObject groups).children) :
    child = leaseField ∨ child = gatewayField ∨ child = staticField := by
  simpa [addressObject] using member

/-- The walk over the entry meets its three fields. -/
theorem collect_addressRegistry (groups : List (List String)) :
    ∃ visits, (addressRegistry groups).collect .expanded
      ((addressObject groups).toNode { name := "address" }) = .ok visits := by
  have plain : ∀ child ∈ Node.sorted (addressObject groups).children, ∃ declaration facets,
      child = .scalar declaration facets ∧ child.reference? = none := by
    intro child member
    rcases mem_addressObject ((Node.mem_sorted _ _).mp member) with rfl | rfl | rfl <;>
      exact ⟨_, _, rfl, rfl⟩
  obtain ⟨visits, walked⟩ : ∃ visits, (addressRegistry groups).visitAll .expanded [] FieldPath.root
      1 (Node.sorted (addressObject groups).children) = .ok visits :=
    exists_visitAll .expanded [] FieldPath.root 1 plain
  have resolved : (addressRegistry groups).resolveAt FieldPath.root
      ((addressObject groups).toNode { name := "address" }) =
        .ok ((addressObject groups).toNode { name := "address" }) := rfl
  have noneOpen :
      ((addressObject groups).toNode { name := "address" }).reference?.toList = [] := rfl
  unfold Registry.collect
  rw [resolved, ok_bind, noneOpen, Object.toNode, Registry.descend_object, walked]
  exact ⟨_, rfl⟩

/-- The entry has a resource schema, and its attributes are those of the three fields. -/
theorem ofNamespace_addressRegistry (groups : List (List String)) :
    ∃ schema,
      ofNamespace (addressRegistry groups) ⟨.empty, .empty⟩ addressNamespace =
          some (.ok schema) ∧
        schema.HasLevel (addressRegistry groups) addressNamespace
          ⟨addressObject groups, schema.attributes⟩ := by
  have found : (addressRegistry groups).root addressNamespace.schema =
      .ok ((addressObject groups).toNode { name := "address" }) := rfl
  have each : ∀ child ∈ (addressObject groups).children, ∀ place, ∃ shown,
      (addressRegistry groups).convertField place
        (UsageIndex.usage ⟨.empty, .empty⟩ child.name) child = some (.ok shown) := by
    intro child member place
    rcases mem_addressObject member with rfl | rfl | rfl
    · exact ⟨_, convertField_of_scalar rfl⟩
    · exact ⟨_, convertField_of_scalar rfl⟩
    · exact ⟨_, convertField_of_scalar rfl⟩
  obtain ⟨visits, walked⟩ := collect_addressRegistry groups
  exact exists_ofNamespace found walked each

/-- A single group is kept. -/
theorem keeps_groups_addressRegistry :
    ∃ schema,
      ofNamespace (addressRegistry [["dhcp", "static"]]) ⟨.empty, .empty⟩ addressNamespace =
          some (.ok schema) ∧
        Level.Keeps ⟨addressObject [["dhcp", "static"]], schema.attributes⟩ ["dhcp", "static"] := by
  obtain ⟨schema, converted, hasLevel⟩ := ofNamespace_addressRegistry [["dhcp", "static"]]
  refine ⟨schema, converted, ?_⟩
  refine (keeps_groups_iff converted hasLevel).2.2.mpr ?_ _ List.mem_cons_self
  intro child member left isLeft right isRight _ _
  rw [List.mem_singleton.mp isLeft, List.mem_singleton.mp isRight]

/-- Not every group is kept at every level: a field that two groups share keeps the first. -/
theorem not_keeps_groups_addressRegistry :
    ¬∀ registry usage managed schema (level : Level),
      ofNamespace registry usage managed = some (.ok schema) →
      schema.HasLevel registry managed level →
      ∀ group ∈ level.object.groups, level.Keeps group := by
  intro kept
  obtain ⟨schema, converted, hasLevel⟩ :=
    ofNamespace_addressRegistry [["dhcp", "static"], ["gateway", "static"]]
  have agree := (hasLevel.made converted).forall_keeps_iff.mp (kept _ _ _ _ _ converted hasLevel)
  have same := agree staticField (by simp [addressObject])
    ["dhcp", "static"] List.mem_cons_self
    ["gateway", "static"] (List.mem_cons_of_mem _ List.mem_cons_self)
    (List.mem_cons_of_mem _ List.mem_cons_self) (List.mem_cons_of_mem _ List.mem_cons_self)
  revert same
  decide

end Resource
end SchemaCompiler
