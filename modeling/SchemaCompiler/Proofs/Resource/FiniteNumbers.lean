import SchemaCompiler.Name.Standard
import SchemaCompiler.Proofs.Resource.AttributeCode
import SchemaCompiler.Proofs.Resource.Exposures
import SchemaCompiler.Proofs.Schema.Validation

/-!
# Finite numbers

Validation goes through every entry as it is declared and follows no reference; the conversion
reads numbers off declarations, off the nodes that they stand for and off the elements of lists.
All of these are in entries, so the checks and defaults of a valid document hold finite numbers,
and its resources have no code that names a number instead of writing it in digits.
-/

namespace SchemaCompiler

open SchemaCompiler.Number (Binary64)

/-! ## Numbers of entries -/

namespace Schema
namespace Node

variable {declaration : Declaration}

theorem finite_object_iff
    {facets : ObjectFacets}
    {children : List Node} :
    (object declaration facets children).Finite ↔ ∀ child ∈ children, child.Finite := by
  simp only [Finite, floats, mem_floatsAll]
  constructor
  · exact fun all child member number inside => all number ⟨child, member, inside⟩
  · rintro each number ⟨child, member, inside⟩
    exact each child member number inside

/-- Children that pass the checks of all of them pass their own. -/
theorem forall_of_validateAll
    {path : FieldPath}
    {children : List Node}
    (valid : validateAll path children = .ok ()) :
    ∀ child ∈ children, child.validate (path.child child.name) = .ok () := by
  induction children with
  | nil => exact List.forall_mem_nil _
  | cons child rest hypothesis =>
      rw [validateAll] at valid
      obtain ⟨_, own, others⟩ := Outcome.bind_eq_ok_iff.mp valid
      exact List.forall_mem_cons.mpr ⟨own, hypothesis others⟩

/-- A valid tree holds finite numbers. -/
theorem finite_of_validate
    {node : Node}
    {path : FieldPath}
    (valid : node.validate path = .ok ()) :
    node.Finite := by
  induction node using inductOn generalizing path with
  | scalar declaration facets =>
      cases facets with
      | float facets =>
          rw [validate] at valid
          split at valid
          next => cases valid
          next absent => exact (strangeBound?_eq_none_iff facets).mp absent
      | bool | int | string => exact List.forall_mem_nil _
  | array declaration facets element hypothesis =>
      rw [validate] at valid
      exact hypothesis valid
  | object declaration facets children hypothesis =>
      rw [validate] at valid
      split at valid
      next => cases valid
      next =>
        exact finite_object_iff.mpr fun child member =>
          hypothesis child member (forall_of_validateAll valid child member)

/-- A default of a tree is one of its numbers. -/
theorem mem_floats_of_defaultValue?
    {node : Node}
    {number : Binary64}
    (default : node.defaultValue? = some (.float number)) :
    number ∈ node.floats := by
  cases node with
  | scalar declaration facets =>
      cases facets with
      | float facets =>
          have stated : facets.defaultValue = some number := by
            simpa [defaultValue?, Scalar.defaultValue?] using default
          simp [floats, NumberFacets.numbers, stated]
      | bool | int | string => simp [defaultValue?, Scalar.defaultValue?] at default
  | array | object => cases default

end Node

namespace Registry

/-- All entries hold finite numbers. -/
def Finite (registry : Registry) : Prop :=
  ∀ id entry, registry.get? id = some entry → entry.Finite

/-- Then so do the canonical nodes of nodes that do. -/
theorem Finite.resolve
    {registry : Registry}
    {node canonical : Node}
    (entries : registry.Finite)
    (finite : node.Finite)
    (resolved : registry.resolve node = .ok canonical) :
    canonical.Finite := by
  unfold Registry.resolve resolveAt at resolved
  split at resolved
  · cases resolved
    exact finite
  · exact entries _ _ (target_eq_ok_iff.mp resolved).1

end Registry

/-- Checks of all values of a list that succeed have succeeded for each. -/
theorem forall_of_forIn
    {check : α → Except SchemaError Unit}
    {values : List α}
    {result : PUnit}
    (valid : (forIn values PUnit.unit fun value _ => do
      check value
      return .yield PUnit.unit) = .ok result) :
    ∀ value ∈ values, check value = .ok () := by
  induction values with
  | nil => exact List.forall_mem_nil _
  | cons value rest hypothesis =>
      rw [List.forIn_cons, bind_assoc] at valid
      obtain ⟨_, own, others⟩ := Outcome.bind_eq_ok_iff.mp valid
      exact List.forall_mem_cons.mpr ⟨own, hypothesis others⟩

/-- The entries of a valid document hold finite numbers. -/
theorem Document.finite_of_validate
    {document : Document}
    (valid : document.validate = .ok ()) :
    Registry.Finite ⟨document.schemas⟩ := by
  intro id entry found
  obtain ⟨_, entries, -⟩ := Outcome.bind_eq_ok_iff.mp valid
  have each : ∀ entry ∈ document.schemas.entries,
      entry.2.validate (FieldPath.single entry.1) = .ok () := forall_of_forIn entries
  exact Node.finite_of_validate (each _ (Order.Table.mem_entries_of_get? found))

end Schema
/-! ## Numbers of attributes -/

namespace Constraint

open SchemaCompiler.Schema

@[simp] theorem floatsOf_append (left right : List Validator) :
    floatsOf (left ++ right) = floatsOf left ++ floatsOf right :=
  List.flatMap_append

theorem floatsOf_rangeValidators
    (family : Family)
    (literal : α → Literal)
    (min max : Option α) :
    floatsOf (rangeValidators family literal min max) =
      (min.toList ++ max.toList).flatMap fun value => (literal value).floats := by
  cases min <;> cases max <;>
    simp [floatsOf, rangeValidators, Range.ofEnds, Range.map, Validator.literals, Range.min?,
      Range.max?]

theorem floatsOf_numberValidators
    (family : Family)
    (literal : α → Literal)
    (facets : NumberFacets α) :
    floatsOf (numberValidators family literal facets) =
      (facets.min.toList ++ facets.max.toList ++ facets.values).flatMap
        fun value => (literal value).floats := by
  rw [numberValidators, floatsOf_append, floatsOf_rangeValidators, List.flatMap_append]
  cases facets.values with
  | nil => simp [floatsOf]
  | cons first rest => simp [floatsOf, Validator.literals, List.flatMap_map]

theorem floatsOf_formValidators (facets : StringFacets) :
    floatsOf (formValidators facets) = [] := by
  unfold formValidators
  split <;> simp [floatsOf, Validator.literals, Literal.floats]

/-- The numbers in the checks on a value are numbers of its node. -/
theorem mem_floats_of_mem_valueValidators
    {node : Node}
    {number : Binary64}
    (member : number ∈ floatsOf (valueValidators node)) :
    number ∈ node.floats := by
  cases node with
  | scalar declaration facets =>
      cases facets with
      | bool facets => cases member
      | int facets =>
          rw [valueValidators, scalarValidators, floatsOf_numberValidators] at member
          simp [Literal.floats] at member
      | float facets =>
          rw [valueValidators, scalarValidators, floatsOf_numberValidators] at member
          simp only [Literal.floats, List.flatMap_singleton'] at member
          simp only [Node.floats, NumberFacets.numbers, List.append_assoc] at member ⊢
          exact List.mem_append_right _ member
      | string facets =>
          rw [valueValidators, scalarValidators, stringValidators, floatsOf_append,
            floatsOf_rangeValidators, floatsOf_formValidators] at member
          simp [Literal.floats] at member
  | array | object => cases member

/-- The size of a list is no floating point number. -/
theorem floatsOf_listValidators (facets : ArrayFacets) : floatsOf (listValidators facets) = [] := by
  rw [listValidators, floatsOf_rangeValidators]
  simp [Literal.floats]

end Constraint

namespace Resource

open SchemaCompiler.Constraint (floatsOf)
open SchemaCompiler.Outcome
open SchemaCompiler.Schema

namespace AttributeFacts

/-- All floating point numbers that an attribute states about itself are finite. -/
def Finite (facts : AttributeFacts) : Prop := ∀ number ∈ facts.floats, number.isFinite = true

theorem finite_iff
    {facts : AttributeFacts} :
    facts.Finite ↔
      (∀ number ∈ floatsOf facts.validators, number.isFinite = true) ∧
        (∀ number ∈ floatsOf facts.elementValidators, number.isFinite = true) ∧
        ∀ number ∈ facts.exposure.defaultValue?.toList.flatMap defaultFloats,
          number.isFinite = true := by
  rw [Finite, floats, List.forall_mem_append, List.forall_mem_append, and_assoc]

end AttributeFacts

section Conversion

variable
  {registry : Registry}
  {path : FieldPath}
  {usage : FieldUsage}
  {node canonical : Node}
  {facts : AttributeFacts}
  {shown : Attribute}

/-- The default of an exposure is that of the declaration or of the canonical node. -/
theorem defaultValue?_of_classify
    {exposure : Exposure}
    {value : DefaultValue}
    (classified : classify node canonical usage path = .ok exposure)
    (default : exposure.defaultValue? = some value) :
    node.defaultValue?.or canonical.defaultValue? = some value := by
  cases usage with
  | outputOnly =>
      rw [(classify_outputOnly_eq_ok_iff.mp classified).1] at default
      cases default
  | inputOutput =>
      rw [classify_inputOutput_eq_ok_iff.mp classified] at default
      split at default <;> cases default
  | inputOnly =>
      obtain ⟨-, rfl⟩ := classify_inputOnly_eq_ok_iff.mp classified
      split at default
      next other stated =>
        cases default
        exact stated
      next => split at default <;> cases default

/-- Before its checks are added, a field states its default only. -/
theorem finite_of_openField
    [Name.Lettering]
    (entries : registry.Finite)
    (finite : node.Finite)
    (opened : openField registry path usage node = .ok (facts, canonical)) :
    canonical.Finite ∧ facts.Finite := by
  obtain ⟨resolved, exposure, rfl⟩ := openField_eq_ok opened
  have canonicalFinite := entries.resolve finite resolved
  refine ⟨canonicalFinite, fun number member => ?_⟩
  obtain ⟨value, stated, inValue⟩ := List.mem_flatMap.mp member
  have default := defaultValue?_of_classify (classify_of_openField opened)
    (Option.mem_toList.mp stated)
  cases value with
  | bool | int | string => cases inValue
  | float other =>
      obtain rfl : number = other := List.mem_singleton.mp inValue
      rcases Option.or_eq_some_iff.mp default with own | ⟨-, inherited⟩
      · exact finite number (Node.mem_floats_of_defaultValue? own)
      · exact canonicalFinite number (Node.mem_floats_of_defaultValue? inherited)

/-- The attribute of a field adds the checks of its canonical node and of its element. -/
theorem Converts.finite
    [Name.Lettering]
    (converts : Converts registry path usage facts canonical shown)
    (entries : registry.Finite)
    (finite : canonical.Finite)
    (factsFinite : facts.Finite) :
    shown.facts.Finite := by
  obtain ⟨checks, elementChecks, default⟩ := AttributeFacts.finite_iff.mp factsFinite
  have sizes : ∀ facets : ArrayFacets,
      ∀ number ∈ floatsOf (Constraint.listValidators facets), number.isFinite = true :=
    fun facets => (Constraint.floatsOf_listValidators facets).symm ▸ List.forall_mem_nil _
  cases converts with
  | scalar declaration facets =>
      refine AttributeFacts.finite_iff.mpr ⟨fun number member => ?_, elementChecks, default⟩
      exact finite number (Constraint.mem_floats_of_mem_valueValidators member)
  | object => exact factsFinite
  | listOfObjects => exact AttributeFacts.finite_iff.mpr ⟨sizes _, elementChecks, default⟩
  | @list _ facets element inner _ resolved =>
      have elementFinite : element.Finite := finite
      have innerFinite : inner.Finite :=
        entries.resolve elementFinite (Registry.resolveAt_eq_ok_iff.mp resolved)
      refine AttributeFacts.finite_iff.mpr ⟨sizes _, fun number member => ?_, default⟩
      exact innerFinite number (Constraint.mem_floats_of_mem_valueValidators member)

/-- The check of a group is about names. -/
theorem finite_addGroup
    [Name.Lettering]
    (groups : List (List String))
    (name : String)
    (finite : shown.facts.Finite) :
    (addGroup groups name shown).facts.Finite := by
  unfold addGroup
  split
  next group found =>
    have names : floatsOf [groupValidator group] = [] := by
      simp [floatsOf, groupValidator, Constraint.Validator.literals, Constraint.Literal.floats]
    obtain ⟨checks, others⟩ := AttributeFacts.finite_iff.mp finite
    rw [facts_addValidator]
    refine AttributeFacts.finite_iff.mpr ⟨?_, others⟩
    rw [Constraint.floatsOf_append, names, List.append_nil]
    exact checks
  next => exact finite

/-- The object that a field opens into holds finite numbers. -/
theorem finite_of_openedObject?
    {object : Object}
    (entries : registry.Finite)
    (finite : node.Finite)
    (opened : openedObject? registry node = some object) :
    ∀ child ∈ object.children, child.Finite := by
  have ofObject : ∀ {inner : Node}, inner.Finite → inner.object? = some object →
      ∀ child ∈ object.children, child.Finite := by
    intro inner innerFinite same
    cases inner with
    | scalar | array => cases same
    | object declaration facets children =>
        cases same
        exact Node.finite_object_iff.mp innerFinite
  obtain ⟨canonical, resolved, opened⟩ := Option.bind_eq_some_iff.mp opened
  have canonicalFinite := entries.resolve finite (toOption_eq_some_iff.mp resolved)
  split at opened
  next element isElement =>
    obtain ⟨inner, resolvedElement, same⟩ := Option.bind_eq_some_iff.mp opened
    cases canonical with
    | scalar | object => cases isElement
    | array declaration facets other =>
        cases isElement
        have elementFinite : element.Finite := canonicalFinite
        exact ofObject (entries.resolve elementFinite (toOption_eq_some_iff.mp resolvedElement))
          same
  next => exact ofObject canonicalFinite opened

/-- The field of an attribute holds finite numbers if those of the top level do. -/
theorem Level.Shows.node_finite
    [Name.Lettering]
    {level : Level}
    {top : Node}
    (shows : level.Shows registry top node shown)
    (entries : registry.Finite)
    (finite : ∀ child ∈ level.object.children, child.Finite) :
    node.Finite := by
  induction shows with
  | top member => exact finite _ (Level.mem_children_of_mem_fields member)
  | inside _ opened member hypothesis =>
      exact finite_of_openedObject? entries hypothesis opened _
        (Level.mem_children_of_mem_fields member)

end Conversion

/-- All attributes of a resource state finite numbers if the entries do. -/
theorem finite_of_ofNamespace
    [Name.Lettering]
    {registry : Registry}
    {usage : UsageIndex}
    {managed : Namespace}
    {schema : ResourceSchema}
    (entries : registry.Finite)
    (converted : ofNamespace registry usage managed = some (.ok schema)) :
    ∀ shown ∈ Attribute.preorderAll schema.attributes, shown.facts.Finite := by
  intro shown member
  obtain ⟨declaration, facets, children, -, found, -, fields⟩ := exists_of_ofNamespace converted
  have made : Level.MadeUnder registry usage.usage ⟨⟨children, facets⟩, schema.attributes⟩ :=
    ⟨_, fields⟩
  obtain ⟨top, node, shows⟩ := made.exists_shows shown member
  have rootFinite := entries _ _ (Registry.get?_of_root found)
  have nodeFinite := shows.node_finite entries (Node.finite_object_iff.mp rootFinite)
  obtain ⟨around, inherited, madeAround, inFields, -⟩ := shows.exists_level made
  obtain ⟨path, facts, canonical, converted, opened, converts, rfl⟩ := madeAround.field inFields
  obtain ⟨canonicalFinite, factsFinite⟩ := finite_of_openField entries nodeFinite opened
  exact finite_addGroup _ _ (converts.finite entries canonicalFinite factsFinite)

/-! ## Code of attributes -/

section Code

open SchemaCompiler.Code (Token)
open SchemaCompiler.Code.Token (NamesAll namesAll_append namesAll_float_iff strangeNumbers)

/-- No code of attributes has a fixed name of a number. -/
theorem familiar_digits : Familiar (· ∉ strangeNumbers) := ⟨by decide, by decide⟩

theorem inDigits_factTokens
    {facts : AttributeFacts}
    (finite : facts.Finite) :
    NamesAll (· ∉ strangeNumbers) (Attribute.factTokens facts) :=
  namesAll_factTokens familiar_digits fun number member =>
    namesAll_float_iff.mpr (finite number member)

theorem not_strange_of_mem_typeNames : ∀ name ∈ typeNames, name ∉ strangeNumbers := by
  decide

mutual

/-- The code of an attribute names no number if those that it and all inside it state are
finite. -/
theorem inDigits_tokens :
    ∀ shown : Attribute, (∀ inner ∈ shown.preorder, inner.facts.Finite) →
      NamesAll (· ∉ strangeNumbers) shown.tokens
  | .plain facts type, finite => by
      have own : facts.Finite := finite (.plain facts type) (by simp [Attribute.preorder])
      obtain ⟨others, same, typed⟩ := exists_namesOf_plainTokens facts.name type
      rw [Attribute.tokens, namesAll_append, NamesAll, same]
      refine ⟨List.forall_mem_cons.mpr ⟨by decide, fun name member => ?_⟩,
        inDigits_factTokens own⟩
      exact not_strange_of_mem_typeNames name (typed name member)
  | .nested facts nesting attributes, finite => by
      rw [Attribute.preorder, List.forall_mem_cons] at finite
      have familiar := not_strange_of_mem_typeNames _ (nestingName_mem_typeNames nesting)
      rw [Attribute.tokens, namesAll_append, NamesAll, namesOf_nestedConstructor,
        List.forall_mem_append]
      refine ⟨⟨?_, inDigits_listTokens attributes finite.2⟩, inDigits_factTokens finite.1⟩
      exact List.forall_mem_cons.mpr ⟨by decide, List.forall_mem_cons.mpr ⟨familiar, by decide⟩⟩

theorem inDigits_listTokens :
    ∀ attributes : List Attribute,
      (∀ inner ∈ Attribute.preorderAll attributes, inner.facts.Finite) →
        NamesAll (· ∉ strangeNumbers) (Attribute.listTokens attributes)
  | [], _ => by
      rw [Attribute.listTokens]
      exact Token.namesAll_nil
  | [last], finite => by
      rw [Attribute.preorderAll, List.forall_mem_append] at finite
      rw [Attribute.listTokens]
      exact inDigits_tokens last finite.1
  | first :: second :: rest, finite => by
      rw [Attribute.preorderAll, List.forall_mem_append] at finite
      have others := inDigits_listTokens (second :: rest) finite.2
      rw [Attribute.listTokens, namesAll_append]
      · refine ⟨inDigits_tokens first finite.1, ?_⟩
        rw [NamesAll, Token.namesOf_cons, Token.names_alone, List.nil_append]
        exact others
      · exact List.cons_ne_nil second rest

end

end Code

/-- In the resource of a namespace of a valid document, every number in the checks of an
attribute, in those of its elements and in its default is finite, at any depth. So the code of
the attributes names none of the numbers that cannot be written in digits. -/
theorem numbers_are_finite
    [Name.Lettering]
    {document : Document}
    {usage : UsageIndex}
    {managed : Namespace}
    {schema : ResourceSchema}
    (valid : document.validate = .ok ())
    (converted : ofNamespace ⟨document.schemas⟩ usage managed = some (.ok schema)) :
    (∀ shown ∈ Attribute.preorderAll schema.attributes,
      ∀ number ∈ shown.facts.floats, number.isFinite = true) ∧
    ∀ name ∈ Code.Token.namesOf (Attribute.listTokens schema.attributes),
      name ∉ ["NAN", "INFINITY", "NEG_INFINITY"] := by
  have finite := finite_of_ofNamespace (Document.finite_of_validate valid) converted
  exact ⟨finite, inDigits_listTokens schema.attributes finite⟩

/-- A number between zero and two, one unless it is given. -/
def levelEntry : Node :=
  .scalar { name := "level" } (.float {
    defaultValue := some (.ofInt 1)
    min := some (.ofInt 0)
    max := some (.ofInt 2) })

/-- A reference to the number. -/
def levelField (name : String) : Node :=
  .scalar { name := name, reference := some "level" } (.float {})

/-- A list of such numbers. -/
def levelsField : Node := .array { name := "all" } {} (levelField "")

/-- A document with both. -/
def gaugeDocument : Document where
  schemas := .ofList [
    ("gauge", .object { name := "gauge" } {} [levelsField, levelField "one"]),
    ("level", levelEntry)]

/-- A namespace that manages the object. -/
def gaugeNamespace : Namespace := { name := "Gauge", schema := "gauge" }

theorem sorted_gaugeDocument :
    Node.sorted [levelsField, levelField "one"] = [levelsField, levelField "one"] :=
  List.mergeSort_of_pairwise (by decide)

/-- The walk over the object opens both references. -/
theorem collect_gaugeDocument :
    ∃ visits, Registry.collect ⟨gaugeDocument.schemas⟩ .expanded
      (.object { name := "gauge" } {} [levelsField, levelField "one"]) = .ok visits := by
  have resolved : Registry.resolveAt ⟨gaugeDocument.schemas⟩ FieldPath.root
      (.object { name := "gauge" } {} [levelsField, levelField "one"]) =
      .ok (.object { name := "gauge" } {} [levelsField, levelField "one"]) := rfl
  have opens : ∀ name stack path depth, "level" ∉ stack →
      ∃ visits, Registry.visit ⟨gaugeDocument.schemas⟩ .expanded stack path depth
        (levelField name) = .ok visits := by
    intro name stack path depth outside
    have target : Registry.target ⟨gaugeDocument.schemas⟩ path (levelField name) "level" =
        .ok levelEntry := rfl
    have named : (levelField name).reference? = some "level" := rfl
    rw [Registry.visit_of_opened named target outside, levelEntry, Registry.descend_scalar]
    exact ⟨_, rfl⟩
  have lists : ∀ path depth, ∃ visits, Registry.visit ⟨gaugeDocument.schemas⟩ .expanded [] path
      depth levelsField = .ok visits := by
    intro path depth
    obtain ⟨visits, element⟩ := opens "" [] path (depth + 1) List.not_mem_nil
    rw [Registry.visit_of_plain rfl, levelsField, Registry.descend_array, element]
    exact ⟨_, rfl⟩
  have noneOpen : (Node.object { name := "gauge" } {}
      [levelsField, levelField "one"]).reference?.toList = [] := rfl
  obtain ⟨ofList, list⟩ := lists (FieldPath.root.child levelsField.name) (0 + 1)
  obtain ⟨ofField, field⟩ := opens "one" [] (FieldPath.root.child (levelField "one").name) (0 + 1)
    List.not_mem_nil
  unfold Registry.collect
  rw [resolved, ok_bind, noneOpen, Registry.descend_object, sorted_gaugeDocument,
    Registry.visitAll_cons, list, Registry.visitAll_cons, field, Registry.visitAll_nil]
  exact ⟨_, rfl⟩

theorem ofNamespace_gaugeDocument :
    ∃ schema, ofNamespace ⟨gaugeDocument.schemas⟩ ⟨.empty, .empty⟩ gaugeNamespace =
        some (.ok schema) ∧
      (Attribute.preorderAll schema.attributes).map (fun shown => shown.facts.floats) =
        [[.ofInt 0, .ofInt 2], [.ofInt 0, .ofInt 2, .ofInt 1]] := by
  have found : Registry.root ⟨gaugeDocument.schemas⟩ gaugeNamespace.schema =
      .ok (.object { name := "gauge" } {} [levelsField, levelField "one"]) := rfl
  have list := fun path => convertField_of_scalars
    (rfl : openField ⟨gaugeDocument.schemas⟩ path .inputOnly levelsField = .ok (_, levelsField))
    (rfl : Registry.resolveAt ⟨gaugeDocument.schemas⟩ path (levelField "") = .ok levelEntry)
  have single := fun path => convertField_of_scalar
    (rfl : openField ⟨gaugeDocument.schemas⟩ path .inputOnly (levelField "one") =
      .ok (_, levelEntry))
  obtain ⟨visits, walked⟩ := collect_gaugeDocument
  have usage : ∀ name, UsageIndex.usage ⟨.empty, .empty⟩ name = .inputOnly := fun _ => rfl
  unfold ofNamespace
  rw [found]
  dsimp only
  rw [walked, sorted_gaugeDocument]
  dsimp only
  rw [Registry.convertFields, usage, list]
  dsimp only [Option.bind_eq_bind, Option.bind_some]
  rw [Registry.convertFields, usage, single]
  dsimp only [Option.bind_eq_bind, Option.bind_some]
  rw [Registry.convertFields]
  exact ⟨_, rfl, rfl⟩

/-- The bounds of the number are checked in the list as in the field, and its default fills the
field. -/
theorem numbers_are_finite_gaugeDocument :
    gaugeDocument.validate = .ok () ∧
    ∃ schema, ofNamespace ⟨gaugeDocument.schemas⟩ ⟨.empty, .empty⟩ gaugeNamespace =
        some (.ok schema) ∧
      (Attribute.preorderAll schema.attributes).map (fun shown => shown.facts.floats) =
        [[.ofInt 0, .ofInt 2], [.ofInt 0, .ofInt 2, .ofInt 1]] ∧
      ∀ shown ∈ Attribute.preorderAll schema.attributes,
        ∀ number ∈ shown.facts.floats, number.isFinite = true := by
  have valid : gaugeDocument.validate = .ok () := by rfl
  obtain ⟨schema, converted, numbers⟩ := ofNamespace_gaugeDocument
  exact ⟨valid, schema, converted, numbers, (numbers_are_finite valid converted).1⟩

end Resource
end SchemaCompiler
