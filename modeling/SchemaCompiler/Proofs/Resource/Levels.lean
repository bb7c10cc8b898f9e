import Mathlib.Data.List.Forall2
import SchemaCompiler.Proofs.Outcome
import SchemaCompiler.Proofs.Registry.References
import SchemaCompiler.Resource.Schema

/-!
# Levels of a resource schema

The attributes of a resource come in levels: those of the managed entry, and inside an
attribute those of the object that its field stands for. Whatever the conversion does at one
level it does at all of them, because every level that is reached is converted as the top is.
-/

namespace SchemaCompiler
namespace Resource

open SchemaCompiler.Outcome
open SchemaCompiler.Schema
open SchemaCompiler.Schema.Registry (convertCanonical convertField convertFields)

/-- An object with the attributes of its fields. -/
structure Level where
  object : Object
  attributes : List Attribute

/-- The object whose fields have their attributes inside that of a field: the one that the
field resolves to, or for a list the one that its elements resolve to. -/
def openedObject? (registry : Registry) (node : Node) : Option Object := do
  let canonical ← (registry.resolve node).toOption
  match canonical.element? with
  | some element => (← (registry.resolve element).toOption).object?
  | none => canonical.object?

theorem openedObject?_of_object
    {registry : Registry}
    {node : Node}
    {declaration : Declaration}
    {facets : ObjectFacets}
    {children : List Node}
    (resolved : registry.resolve node = .ok (.object declaration facets children)) :
    openedObject? registry node = some ⟨children, facets⟩ := by
  rw [openedObject?, resolved]
  rfl

theorem openedObject?_of_listOfObjects
    {registry : Registry}
    {node element : Node}
    {declaration innerDeclaration : Declaration}
    {facets : ArrayFacets}
    {innerFacets : ObjectFacets}
    {children : List Node}
    (resolved : registry.resolve node = .ok (.array declaration facets element))
    (resolvedElement :
      registry.resolve element = .ok (.object innerDeclaration innerFacets children)) :
    openedObject? registry node = some ⟨children, innerFacets⟩ := by
  rw [openedObject?, resolved]
  dsimp only [toOption_ok, Option.bind_eq_bind, Option.bind_some, Node.element?]
  rw [resolvedElement]
  rfl

namespace Level

/-- The fields by display name, each with its attribute. -/
def fields [Name.Lettering] (level : Level) : List (Node × Attribute) :=
  level.object.sortedChildren.zip level.attributes

/-- The levels of a schema by the fields on the way to them. -/
inductive Reaches [Name.Lettering] (registry : Registry) (top : Level) : Level → Prop
  | top : Reaches registry top top
  | inside {outer : Level} {node : Node} {shown : Attribute} {object : Object} :
      Reaches registry top outer →
      (node, shown) ∈ outer.fields →
      openedObject? registry node = some object →
      Reaches registry top ⟨object, shown.children⟩

/-- The attributes are those that the conversion of the object has as its result, in some
place and with some usage. -/
def Made [Name.Lettering] (registry : Registry) (level : Level) : Prop :=
  ∃ path usage, registry.convertFields path level.object.groups usage
    level.object.sortedChildren = some (.ok level.attributes)

/-- The level is made in some place, its fields being used as given. -/
def MadeUnder
    [Name.Lettering]
    (registry : Registry)
    (usage : String → FieldUsage)
    (level : Level) : Prop :=
  ∃ path, registry.convertFields path level.object.groups usage
    level.object.sortedChildren = some (.ok level.attributes)

end Level

/-- The level is one of those of the schema that a namespace has. -/
def ResourceSchema.HasLevel
    [Name.Lettering]
    (registry : Registry)
    (managed : Namespace)
    (schema : ResourceSchema)
    (level : Level) : Prop :=
  ∃ declaration facets children,
    registry.root managed.schema = .ok (.object declaration facets children) ∧
      Level.Reaches registry ⟨⟨children, facets⟩, schema.attributes⟩ level

/-! ## One field -/

/-- The attribute of a field that resolves to a canonical node, by the form of that node. -/
inductive Converts
    [Name.Lettering]
    (registry : Registry)
    (path : FieldPath)
    (usage : FieldUsage)
    (facts : AttributeFacts) : Node → Attribute → Prop
  | scalar (declaration : Declaration) (facets : Scalar) :
      Converts registry path usage facts (.scalar declaration facets)
        (scalarAttribute facts declaration facets)
  | object
      {declaration : Declaration}
      {facets : ObjectFacets}
      {children : List Node}
      {attributes : List Attribute} :
      registry.convertFields path facets.groups (fun _ => usage) (Node.sorted children) =
        some (.ok attributes) →
      Converts registry path usage facts (.object declaration facets children)
        (.nested facts .single attributes)
  | listOfObjects
      {declaration innerDeclaration : Declaration}
      {facets : ArrayFacets}
      {innerFacets : ObjectFacets}
      {element : Node}
      {children : List Node}
      {attributes : List Attribute} :
      registry.resolveAt path element = .ok (.object innerDeclaration innerFacets children) →
      registry.convertFields path innerFacets.groups (fun _ => usage) (Node.sorted children) =
        some (.ok attributes) →
      Converts registry path usage facts (.array declaration facets element)
        (.nested (listFacts facts facets) .list attributes)
  | list
      {declaration : Declaration}
      {facets : ArrayFacets}
      {element inner : Node}
      {type : ElementType} :
      registry.resolveAt path element = .ok inner →
      inner.object? = none →
      registry.elementType path inner = some (.ok type) →
      Converts registry path usage facts (.array declaration facets element)
        (listAttribute facts facets inner type)

section Conversion

variable
  {registry : Registry}
  {path : FieldPath}
  {usage : FieldUsage}
  {facts : AttributeFacts}

/-- A conversion with a result has that of the form of its node. -/
theorem converts_of_convertCanonical
    [Name.Lettering]
    {canonical : Node}
    {shown : Attribute}
    (converted : registry.convertCanonical path usage facts canonical = some (.ok shown)) :
    Converts registry path usage facts canonical shown := by
  cases canonical with
  | scalar declaration facets =>
      rw [convertCanonical] at converted
      cases converted
      exact .scalar declaration facets
  | object declaration facets children =>
      rw [convertCanonical] at converted
      obtain ⟨outcome, inner, made⟩ := Option.bind_eq_some_iff.mp converted
      obtain ⟨attributes, rfl, rfl⟩ := map_eq_ok_iff.mp (Option.some.inj made)
      exact .object inner
  | array declaration facets element =>
      rw [convertCanonical] at converted
      split at converted
      · cases converted
      next innerDeclaration innerFacets children resolved =>
        obtain ⟨outcome, inner, made⟩ := Option.bind_eq_some_iff.mp converted
        obtain ⟨attributes, rfl, rfl⟩ := map_eq_ok_iff.mp (Option.some.inj made)
        exact .listOfObjects resolved inner
      next inner other resolved =>
        obtain ⟨outcome, found, made⟩ := Option.bind_eq_some_iff.mp converted
        obtain ⟨type, rfl, rfl⟩ := map_eq_ok_iff.mp (Option.some.inj made)
        refine .list resolved ?_ found
        cases inner with
        | scalar | array => rfl
        | object innerDeclaration innerFacets children =>
            exact (other innerDeclaration innerFacets children rfl).elim

/-- A field that is converted has been opened into its facts and its canonical node. -/
theorem convertField_eq_ok
    [Name.Lettering]
    {node : Node}
    {shown : Attribute}
    (converted : registry.convertField path usage node = some (.ok shown)) :
    ∃ facts canonical, openField registry path usage node = .ok (facts, canonical) ∧
      Converts registry path usage facts canonical shown := by
  rw [convertField] at converted
  split at converted
  · cases converted
  next facts canonical opened =>
    exact ⟨facts, canonical, opened, converts_of_convertCanonical converted⟩

/-- A field that opens has a canonical node, and its facts are read off the two nodes. -/
theorem openField_eq_ok
    [Name.Lettering]
    {node canonical : Node}
    (opened : openField registry path usage node = .ok (facts, canonical)) :
    registry.resolve node = .ok canonical ∧
      ∃ exposure, facts = factsOf node canonical exposure := by
  obtain ⟨resolved, found, rest⟩ := bind_eq_ok_iff.mp opened
  obtain ⟨exposure, -, made⟩ := bind_eq_ok_iff.mp rest
  obtain ⟨rfl, rfl⟩ := Prod.mk.inj (Except.ok.inj made)
  exact ⟨Registry.resolveAt_eq_ok_iff.mp found, exposure, rfl⟩

end Conversion

@[simp] theorem facts_addValidator
    (validator : Constraint.Validator)
    (shown : Attribute) :
    (shown.addValidator validator).facts =
      { shown.facts with validators := shown.facts.validators ++ [validator] } := by
  cases shown <;> rfl

@[simp] theorem children_addValidator
    (validator : Constraint.Validator)
    (shown : Attribute) :
    (shown.addValidator validator).children = shown.children := by
  cases shown <;> rfl

@[simp] theorem children_addGroup
    [Name.Lettering]
    (groups : List (List String))
    (name : String)
    (shown : Attribute) :
    (addGroup groups name shown).children = shown.children := by
  unfold addGroup
  split <;> simp

@[simp] theorem name_addGroup
    [Name.Lettering]
    (groups : List (List String))
    (name : String)
    (shown : Attribute) :
    (addGroup groups name shown).facts.name = shown.facts.name := by
  unfold addGroup
  split <;> simp

@[simp] theorem isSensitive_addGroup
    [Name.Lettering]
    (groups : List (List String))
    (name : String)
    (shown : Attribute) :
    (addGroup groups name shown).facts.isSensitive = shown.facts.isSensitive := by
  unfold addGroup
  split <;> simp

/-- Beside its checks and its order, an attribute states what its field does. -/
theorem Converts.facts_eq
    [Name.Lettering]
    {registry : Registry}
    {path : FieldPath}
    {usage : FieldUsage}
    {facts : AttributeFacts}
    {canonical : Node}
    {shown : Attribute}
    (converts : Converts registry path usage facts canonical shown) :
    shown.facts.name = facts.name ∧ shown.facts.isSensitive = facts.isSensitive := by
  cases converts <;> exact ⟨rfl, rfl⟩

/-- A converted field has its display name. -/
theorem name_of_convertField
    [Name.Lettering]
    {registry : Registry}
    {path : FieldPath}
    {usage : FieldUsage}
    {node : Node}
    {shown : Attribute}
    (converted : registry.convertField path usage node = some (.ok shown)) :
    shown.facts.name = node.snakeName := by
  obtain ⟨facts, canonical, opened, converts⟩ := convertField_eq_ok converted
  obtain ⟨-, exposure, rfl⟩ := openField_eq_ok opened
  rw [converts.facts_eq.1]
  rfl

/-! ## All fields of a level -/

/-- The attribute of the first field has the check of its group and stands before the others. -/
theorem exists_of_convertFields_cons
    [Name.Lettering]
    {registry : Registry}
    {path : FieldPath}
    {groups : List (List String)}
    {usage : String → FieldUsage}
    {child : Node}
    {rest : List Node}
    {attributes : List Attribute}
    (converted : registry.convertFields path groups usage (child :: rest) =
      some (.ok attributes)) :
    ∃ shown others,
      registry.convertField (path.child child.name) (usage child.name) child =
        some (.ok shown) ∧
        registry.convertFields path groups usage rest = some (.ok others) ∧
        attributes = addGroup groups child.name shown :: others := by
  rw [convertFields] at converted
  obtain ⟨outcome, first, converted⟩ := Option.bind_eq_some_iff.mp converted
  cases outcome with
  | error cause => cases converted
  | ok shown =>
      obtain ⟨outcome, others, made⟩ := Option.bind_eq_some_iff.mp converted
      obtain ⟨tail, rfl, rfl⟩ := map_eq_ok_iff.mp (Option.some.inj made)
      exact ⟨shown, tail, first, others, rfl⟩

/-- The attributes of fields stand in their order, each with the check of its group. -/
theorem convertFields_eq_ok
    [Name.Lettering]
    {registry : Registry}
    {path : FieldPath}
    {groups : List (List String)}
    {usage : String → FieldUsage}
    {children : List Node}
    {attributes : List Attribute}
    (converted : registry.convertFields path groups usage children = some (.ok attributes)) :
    List.Forall₂ (fun child shown => ∃ place converted,
      registry.convertField place (usage child.name) child = some (.ok converted) ∧
        shown = addGroup groups child.name converted) children attributes := by
  induction children generalizing attributes with
  | nil =>
      rw [convertFields] at converted
      cases converted
      exact .nil
  | cons child rest hypothesis =>
      obtain ⟨shown, others, first, convertedRest, rfl⟩ := exists_of_convertFields_cons converted
      exact .cons ⟨_, shown, first, rfl⟩ (hypothesis convertedRest)

/-- The attributes of fields have the display names of the fields. -/
theorem names_of_convertFields
    [Name.Lettering]
    {registry : Registry}
    {path : FieldPath}
    {groups : List (List String)}
    {usage : String → FieldUsage}
    {children : List Node}
    {attributes : List Attribute}
    (converted : registry.convertFields path groups usage children = some (.ok attributes)) :
    (attributes.map fun shown => shown.facts.name) = children.map Node.snakeName := by
  induction children generalizing attributes with
  | nil =>
      rw [convertFields] at converted
      cases converted
      rfl
  | cons child rest hypothesis =>
      obtain ⟨shown, others, first, convertedRest, rfl⟩ := exists_of_convertFields_cons converted
      rw [List.map_cons, List.map_cons, name_addGroup, name_of_convertField first,
        hypothesis convertedRest]

namespace Level

variable
  {registry : Registry}
  {level : Level}
  {node : Node}
  {shown : Attribute}

/-- Every field of a level that was made has its attribute. -/
theorem Made.length_eq
    [Name.Lettering]
    (made : level.Made registry) :
    level.object.sortedChildren.length = level.attributes.length := by
  obtain ⟨path, usage, converted⟩ := made
  exact (convertFields_eq_ok converted).length_eq

/-- The fields of a level are the children of its object by display name. -/
theorem Made.map_fst_fields
    [Name.Lettering]
    (made : level.Made registry) :
    level.fields.map Prod.fst = level.object.sortedChildren :=
  List.map_fst_zip (Nat.le_of_eq made.length_eq)

/-- Every child has an attribute. -/
theorem Made.exists_field
    [Name.Lettering]
    (made : level.Made registry)
    {child : Node}
    (member : child ∈ level.object.children) :
    ∃ shown, (child, shown) ∈ level.fields := by
  have sorted : child ∈ level.object.sortedChildren := List.mem_mergeSort.mpr member
  rw [← made.map_fst_fields] at sorted
  obtain ⟨⟨_, shown⟩, inFields, rfl⟩ := List.mem_map.mp sorted
  exact ⟨shown, inFields⟩

/-- A field of a level is a child of its object. -/
theorem mem_children_of_mem_fields
    [Name.Lettering]
    {field : Node × Attribute}
    (member : field ∈ level.fields) :
    field.1 ∈ level.object.children :=
  List.mem_mergeSort.mp (List.of_mem_zip member).1

/-- What the attribute of a field was made of. -/
theorem MadeUnder.field
    [Name.Lettering]
    {usage : String → FieldUsage}
    (made : level.MadeUnder registry usage)
    (member : (node, shown) ∈ level.fields) :
    ∃ path facts canonical converted,
      openField registry path (usage node.name) node = .ok (facts, canonical) ∧
        Converts registry path (usage node.name) facts canonical converted ∧
        shown = addGroup level.object.groups node.name converted := by
  obtain ⟨path, converted⟩ := made
  obtain ⟨place, shown, first, rfl⟩ :=
    (List.forall₂_iff_zip.mp (convertFields_eq_ok converted)).2 member
  obtain ⟨facts, canonical, opened, converts⟩ := convertField_eq_ok first
  exact ⟨place, facts, canonical, shown, opened, converts, rfl⟩

theorem Made.field
    [Name.Lettering]
    (made : level.Made registry)
    (member : (node, shown) ∈ level.fields) :
    ∃ path usage facts canonical converted,
      openField registry path usage node = .ok (facts, canonical) ∧
        Converts registry path usage facts canonical converted ∧
        shown = addGroup level.object.groups node.name converted := by
  obtain ⟨path, usage, converted⟩ := made
  obtain ⟨place, made⟩ := MadeUnder.field ⟨path, converted⟩ member
  exact ⟨place, _, made⟩

/-- An attribute has the display name of its field. -/
theorem Made.name_eq
    [Name.Lettering]
    (made : level.Made registry)
    (member : (node, shown) ∈ level.fields) :
    shown.facts.name = node.snakeName := by
  obtain ⟨path, usage, facts, canonical, converted, opened, converts, rfl⟩ := made.field member
  obtain ⟨-, exposure, rfl⟩ := openField_eq_ok opened
  rw [name_addGroup, converts.facts_eq.1]
  rfl

/-- The level inside an attribute is made as the one around it, its fields being used as the
field of the attribute. -/
theorem MadeUnder.inside
    [Name.Lettering]
    {usage : String → FieldUsage}
    (made : level.MadeUnder registry usage)
    (member : (node, shown) ∈ level.fields)
    {object : Object}
    (opened : openedObject? registry node = some object) :
    MadeUnder registry (fun _ => usage node.name) ⟨object, shown.children⟩ := by
  obtain ⟨path, facts, canonical, converted, openedField, converts, rfl⟩ := made.field member
  obtain ⟨resolved, -⟩ := openField_eq_ok openedField
  rw [children_addGroup]
  cases converts with
  | scalar declaration facets =>
      rw [openedObject?, resolved] at opened
      cases opened
  | object inner =>
      cases opened.symm.trans (openedObject?_of_object resolved)
      exact ⟨_, inner⟩
  | listOfObjects resolvedElement inner =>
      cases opened.symm.trans (openedObject?_of_listOfObjects resolved
        (Registry.resolveAt_eq_ok_iff.mp resolvedElement))
      exact ⟨_, inner⟩
  | list resolvedElement plain found =>
      rw [openedObject?, resolved] at opened
      dsimp only [toOption_ok, Option.bind_eq_bind, Option.bind_some, Node.element?] at opened
      rw [Registry.resolveAt_eq_ok_iff.mp resolvedElement] at opened
      dsimp only [toOption_ok, Option.bind_some] at opened
      rw [plain] at opened
      cases opened

theorem Made.inside
    [Name.Lettering]
    (made : level.Made registry)
    (member : (node, shown) ∈ level.fields)
    {object : Object}
    (opened : openedObject? registry node = some object) :
    Made registry ⟨object, shown.children⟩ := by
  obtain ⟨path, usage, converted⟩ := made
  obtain ⟨place, inner⟩ := MadeUnder.inside ⟨path, converted⟩ member opened
  exact ⟨place, _, inner⟩

/-- All levels below one that was made are made. -/
theorem Made.of_reaches
    [Name.Lettering]
    {top : Level}
    (made : top.Made registry)
    (reached : Reaches registry top level) :
    level.Made registry := by
  induction reached with
  | top => exact made
  | inside _ member opened hypothesis => exact hypothesis.inside member opened

end Level

/-- A resource schema is made of an object entry whose references a walk could expand, and its
attributes are those of the fields of the entry. -/
theorem exists_of_ofNamespace
    [Name.Lettering]
    {registry : Registry}
    {usage : UsageIndex}
    {managed : Namespace}
    {schema : ResourceSchema}
    (converted : ofNamespace registry usage managed = some (.ok schema)) :
    ∃ declaration facets children visits,
      registry.root managed.schema = .ok (.object declaration facets children) ∧
        registry.collect .expanded (.object declaration facets children) = .ok visits ∧
        registry.convertFields FieldPath.root facets.groups usage.usage (Node.sorted children) =
          some (.ok schema.attributes) := by
  unfold ofNamespace at converted
  split at converted
  · cases converted
  next root found =>
    split at converted
    next declaration facets children =>
      split at converted
      · cases converted
      next visits walked =>
        obtain ⟨outcome, fields, made⟩ := Option.bind_eq_some_iff.mp converted
        obtain ⟨attributes, rfl, rfl⟩ := map_eq_ok_iff.mp (Option.some.inj made)
        exact ⟨declaration, facets, children, visits, found, walked, fields⟩
    · cases converted

/-- The attributes of a resource schema are those of the managed entry. -/
theorem made_of_ofNamespace
    [Name.Lettering]
    {registry : Registry}
    {usage : UsageIndex}
    {managed : Namespace}
    {schema : ResourceSchema}
    (converted : ofNamespace registry usage managed = some (.ok schema)) :
    ∃ declaration facets children,
      registry.root managed.schema = .ok (.object declaration facets children) ∧
        Level.Made registry ⟨⟨children, facets⟩, schema.attributes⟩ := by
  obtain ⟨declaration, facets, children, visits, found, -, fields⟩ :=
    exists_of_ofNamespace converted
  exact ⟨declaration, facets, children, found, _, _, fields⟩

/-- Every level of the resource schema of a namespace is made by the conversion. -/
theorem ResourceSchema.HasLevel.made
    [Name.Lettering]
    {registry : Registry}
    {usage : UsageIndex}
    {managed : Namespace}
    {schema : ResourceSchema}
    {level : Level}
    (hasLevel : schema.HasLevel registry managed level)
    (converted : ofNamespace registry usage managed = some (.ok schema)) :
    level.Made registry := by
  obtain ⟨declaration, facets, children, found, reached⟩ := hasLevel
  obtain ⟨_, _, _, foundToo, made⟩ := made_of_ofNamespace converted
  cases found.symm.trans foundToo
  exact made.of_reaches reached

/-! ## Conversions that succeed -/

/-- A field that opens as a scalar has the attribute of the scalar. -/
theorem convertField_of_scalar
    [Name.Lettering]
    {registry : Registry}
    {path : FieldPath}
    {usage : FieldUsage}
    {node : Node}
    {facts : AttributeFacts}
    {declaration : Declaration}
    {facets : Scalar}
    (opened : openField registry path usage node = .ok (facts, .scalar declaration facets)) :
    registry.convertField path usage node =
      some (.ok (scalarAttribute facts declaration facets)) := by
  rw [convertField, opened]
  dsimp only
  rw [convertCanonical]

/-- A field that opens as a list of values that are no objects has the attribute of the list. -/
theorem convertField_of_list
    [Name.Lettering]
    {registry : Registry}
    {path : FieldPath}
    {usage : FieldUsage}
    {node element inner : Node}
    {facts : AttributeFacts}
    {declaration : Declaration}
    {facets : ArrayFacets}
    {type : ElementType}
    (opened : openField registry path usage node =
      .ok (facts, .array declaration facets element))
    (resolved : registry.resolveAt path element = .ok inner)
    (noObject : inner.object? = none)
    (typed : registry.elementType path inner = some (.ok type)) :
    registry.convertField path usage node =
      some (.ok (listAttribute facts facets inner type)) := by
  rw [convertField, opened]
  dsimp only
  rw [convertCanonical, resolved]
  cases inner with
  | scalar | array =>
      dsimp only
      rw [typed]
      rfl
  | object => cases noObject

/-- So has a list of scalars, by the form of its elements. -/
theorem convertField_of_scalars
    [Name.Lettering]
    {registry : Registry}
    {path : FieldPath}
    {usage : FieldUsage}
    {node element : Node}
    {facts : AttributeFacts}
    {declaration innerDeclaration : Declaration}
    {facets : ArrayFacets}
    {innerFacets : Scalar}
    (opened : openField registry path usage node =
      .ok (facts, .array declaration facets element))
    (resolved : registry.resolveAt path element = .ok (.scalar innerDeclaration innerFacets)) :
    registry.convertField path usage node =
      some (.ok (listAttribute facts facets (.scalar innerDeclaration innerFacets)
        (scalarElement innerFacets))) :=
  convertField_of_list opened resolved rfl (by rw [Registry.elementType])

/-- Fields that all convert convert together. -/
theorem exists_convertFields
    [Name.Lettering]
    {registry : Registry}
    {usage : String → FieldUsage}
    {children : List Node}
    (path : FieldPath)
    (groups : List (List String))
    (each : ∀ child ∈ children, ∀ place, ∃ shown,
      registry.convertField place (usage child.name) child = some (.ok shown)) :
    ∃ attributes, registry.convertFields path groups usage children = some (.ok attributes) := by
  induction children with
  | nil => exact ⟨[], by rw [convertFields]⟩
  | cons child rest hypothesis =>
      obtain ⟨shown, first⟩ := each child List.mem_cons_self (path.child child.name)
      obtain ⟨tail, others⟩ := hypothesis fun other member =>
        each other (List.mem_cons_of_mem child member)
      refine ⟨addGroup groups child.name shown :: tail, ?_⟩
      rw [convertFields, first]
      dsimp only [Option.bind_eq_bind, Option.bind_some]
      rw [others]
      rfl

/-- An entry whose fields all convert has a resource schema. -/
theorem exists_ofNamespace
    [Name.Lettering]
    {registry : Registry}
    {usage : UsageIndex}
    {managed : Namespace}
    {declaration : Declaration}
    {facets : ObjectFacets}
    {children : List Node}
    {visits : List Visit}
    (found : registry.root managed.schema = .ok (.object declaration facets children))
    (walked : registry.collect .expanded (.object declaration facets children) = .ok visits)
    (each : ∀ child ∈ children, ∀ place, ∃ shown,
      registry.convertField place (usage.usage child.name) child = some (.ok shown)) :
    ∃ schema,
      ofNamespace registry usage managed = some (.ok schema) ∧
        schema.HasLevel registry managed ⟨⟨children, facets⟩, schema.attributes⟩ := by
  have eachSorted : ∀ child ∈ Node.sorted children, ∀ place, ∃ shown,
      registry.convertField place (usage.usage child.name) child = some (.ok shown) :=
    fun child member => each child ((Node.mem_sorted child children).mp member)
  obtain ⟨attributes, converted⟩ :=
    exists_convertFields FieldPath.root facets.groups eachSorted
  refine ⟨schemaOf managed declaration attributes, ?_, declaration, facets, children, found, .top⟩
  unfold ofNamespace
  rw [found]
  dsimp only
  rw [walked]
  dsimp only
  rw [converted]
  rfl

end Resource
end SchemaCompiler
